import Drex.Application.Window

/-
  What a launch that reports success has done: every kernel
  that it launched was waited for, and without a stop these
  are all of its tasks.

  Key definitions include:
    * `Pipeline.ResultAt`
    * `ResultSound`

  Key theorems include:
    * `ResultSound.submit`
    * `ResultSound.work`
    * `success_completes`
-/

------------------------------------------------------------
-- Invariant
------------------------------------------------------------

namespace Drex

namespace Pipeline

variable (cfg : PipelineConfig) (s : Pipeline)

/- The worker runs, and every launched kernel is recorded. -/
def Recorded : Prop :=
  s.workerStarted = true ∧ s.kernels.length = s.nextReady

/- The worker runs, and one kernel is not recorded yet. -/
def Recording : Prop :=
  s.workerStarted = true ∧ s.kernels.length = s.nextReady + 1

/- No task is left out without a stop. -/
def AllTasks : Prop :=
  s.stop = false → s.nextReady = cfg.mTasks

/- What the submitter knows when it opens a batch. -/
def BatchAt (last : Bool) : Prop :=
  s.Recorded ∧ (last = true → s.AllTasks cfg)

/- What a success at this point would mean. -/
def ResultAt : Submitter → Prop
| .initialise .heartbeat =>
    s.workerStarted = true ∧ s.kernels = []
| .initialise _ => s.kernels = [] ∧ s.worker = .absent
| .loopTop => s.Recorded
| .window => s.Recorded
| .windowLeft => s.Recorded
| .launch => s.Recorded
| .update => s.Recording
| .record => s.Recording
| .publish => s.Recording
| .nextTask => s.Recorded
| .gate last => s.BatchAt cfg last
| .openGate last => s.BatchAt cfg last
| .drainTarget last => s.BatchAt cfg last
| .drain last _ => s.BatchAt cfg last
| .drained last _ => s.BatchAt cfg last
| .raise => s.Recorded ∧ s.stop = true
| .finish => s.Recorded ∧ s.AllTasks cfg
| .joinHeartbeat =>
    s.result = .success →
      s.Recorded ∧ s.AllTasks cfg ∧ s.worker = .exited
| .returned =>
    s.result = .success →
      s.Recorded ∧ s.AllTasks cfg ∧ s.worker = .exited ∧
        s.workerResult = .success
| .undefined => True
| _ => s.result = .success → s.Recorded ∧ s.AllTasks cfg

/- A stop and the worker take nothing away. -/
theorem resultAt_mono
    {cfg : PipelineConfig}
    {s s' : Pipeline}
    {pc : Submitter}
    (h : s.ResultAt cfg pc)
    (hStarted : s'.workerStarted = s.workerStarted)
    (hKernels : s'.kernels = s.kernels)
    (hReady : s'.nextReady = s.nextReady)
    (hResult : s'.result = s.result)
    (hStop : s.stop = true → s'.stop = true)
    (hAbsent : s.worker = .absent → s'.worker = .absent)
    (hExited :
      s.worker = .exited →
        s'.worker = .exited ∧
          s'.workerResult = s.workerResult) :
    s'.ResultAt cfg pc := by
  have hRecorded : s.Recorded → s'.Recorded := by
    unfold Recorded
    rw [hStarted, hKernels, hReady]
    exact id
  have hRecording : s.Recording → s'.Recording := by
    unfold Recording
    rw [hStarted, hKernels, hReady]
    exact id
  have hTasks : s.AllTasks cfg → s'.AllTasks cfg := by
    intro hAll hNoStop
    rw [hReady]
    apply hAll
    cases hFlag : s.stop with
    | false => rfl
    | true => cases (hStop hFlag).symm.trans hNoStop
  have hBatch :
      ∀ {last : Bool}, s.BatchAt cfg last →
        s'.BatchAt cfg last := by
    intro last hOld
    exact ⟨hRecorded hOld.1, fun hLast => hTasks (hOld.2 hLast)⟩
  cases pc with
  | initialise stage =>
      cases stage with
      | heartbeat =>
          exact ⟨hStarted.trans h.1, hKernels.trans h.2⟩
      | _ => exact ⟨hKernels.trans h.1, hAbsent h.2⟩
  | loopTop | window | windowLeft | launch | nextTask =>
      exact hRecorded h
  | update | record | publish => exact hRecording h
  | gate | openGate | drainTarget | drain | drained =>
      exact hBatch h
  | raise => exact ⟨hRecorded h.1, hStop h.2⟩
  | finish => exact ⟨hRecorded h.1, hTasks h.2⟩
  | restore | closing | joinWorker =>
      intro hSuccess
      rcases h (hResult.symm.trans hSuccess) with ⟨hOld, hAll⟩
      exact ⟨hRecorded hOld, hTasks hAll⟩
  | joinHeartbeat =>
      intro hSuccess
      rcases h (hResult.symm.trans hSuccess) with
        ⟨hOld, hAll, hEnd⟩
      exact ⟨hRecorded hOld, hTasks hAll, (hExited hEnd).1⟩
  | returned =>
      intro hSuccess
      rcases h (hResult.symm.trans hSuccess) with
        ⟨hOld, hAll, hEnd, hWorker⟩
      rcases hExited hEnd with ⟨hStill, hSame⟩
      exact
        ⟨hRecorded hOld, hTasks hAll, hStill,
          hSame.trans hWorker⟩
  | undefined => trivial

end Pipeline

/-
  A worker with an error has exited, `accepting` only falls
  with an error or in the end, and a worker that exited
  without an error waited for every recorded kernel.
-/
structure ResultSound
    (cfg : PipelineConfig)
    (s : Pipeline) : Prop where
  failed :
    s.workerResult ≠ .success → s.worker = .exited
  closed :
    s.accepting = false → s.workerResult = .success →
      s.pc.cleaning = true
  finished :
    s.worker = .exited → s.workerResult = .success →
      s.accepting = false ∧ s.completed = s.nextReady
  place : s.ResultAt cfg s.pc

end Drex

------------------------------------------------------------
-- Operations
------------------------------------------------------------

namespace Drex

namespace ResultSound

variable {cfg : PipelineConfig} {s : Pipeline}

/-
  Before the cleanup a worker without an error still runs,
  so an operation of the submitter has to keep only what it
  knows itself.
-/
theorem goOn
    (h : ResultSound cfg s)
    (hPc : s.pc.cleaning = false)
    {s' : Pipeline}
    (hWorker : s'.worker = s.worker)
    (hResult : s'.workerResult = s.workerResult)
    (hAccepting :
      s'.accepting = s.accepting ∨ s'.pc.cleaning = true)
    (hPlace : s'.ResultAt cfg s'.pc) :
    ResultSound cfg s' := by
  have hOpen :
      s.workerResult = .success → s.accepting = true := by
    intro hSuccess
    cases hAt : s.accepting with
    | true => rfl
    | false =>
        cases hPc.symm.trans (h.closed hAt hSuccess)
  refine
    { failed := fun hError => ?_
      closed := fun hClosed hSuccess => ?_
      finished := fun hExited hSuccess => ?_
      place := hPlace }
  · rw [hWorker]
    exact h.failed (hResult ▸ hError)
  · rcases hAccepting with hSame | hCleaning
    · have hStill := hOpen (hResult.symm.trans hSuccess)
      rw [hSame, hStill] at hClosed
      cases hClosed
    · exact hCleaning
  · have hHere := hResult.symm.trans hSuccess
    have hClosed :=
      (h.finished (hWorker.symm.trans hExited) hHere).1
    cases (hOpen hHere).symm.trans hClosed

/- A failure goes to the cleanup. -/
theorem leave
    (h : ResultSound cfg s)
    (hPc : s.pc.cleaning = false)
    {r : DocaError}
    (hError : r ≠ .success) :
    ResultSound cfg (s.leave r) :=
  h.goOn hPc rfl rfl (Or.inr rfl)
    fun hSuccess => absurd hSuccess hError

/- The loop that ended without a stop had every task. -/
theorem afterLoop
    (h : ResultSound cfg s)
    (hPc : s.pc.cleaning = false)
    (hRecorded : s.Recorded)
    (hTasks : s.AllTasks cfg) :
    ResultSound cfg (s.afterLoop cfg) := by
  unfold Pipeline.afterLoop
  split
  · exact
      h.goOn hPc rfl rfl (Or.inl rfl)
        ⟨hRecorded, fun _ => hTasks⟩
  · exact
      h.goOn hPc rfl rfl (Or.inl rfl) ⟨hRecorded, hTasks⟩

/- What held before a batch holds after it. -/
theorem afterBatch
    (h : ResultSound cfg s)
    (hPc : s.pc.cleaning = false)
    {last : Bool}
    (hBatch : s.BatchAt cfg last) :
    ResultSound cfg (s.afterBatch last) := by
  unfold Pipeline.afterBatch
  split
  case isTrue hLast =>
    exact
      h.goOn hPc rfl rfl (Or.inl rfl)
        ⟨hBatch.1, hBatch.2 hLast⟩
  case isFalse =>
    exact h.goOn hPc rfl rfl (Or.inl rfl) hBatch.1

/- The worker gets its thread here, which is all it has. -/
theorem initialise
    (h : ResultSound cfg s)
    (hReady : s.nextReady = 0)
    {stage : PipelineStage}
    (hPc : s.pc = .initialise stage)
    (r : DocaError) :
    ResultSound cfg (s.initialise cfg r stage) := by
  have hEarly : s.pc.cleaning = false := by
    rw [hPc]
    rfl
  have hPlace := h.place
  rw [hPc] at hPlace
  cases stage with
  | waitEvent | compEvent =>
      dsimp only [Pipeline.initialise]
      split
      case isTrue =>
        exact h.goOn hEarly rfl rfl (Or.inl rfl) hPlace
      case isFalse hError => exact h.leave hEarly hError
  | records | mutex | cond =>
      dsimp only [Pipeline.initialise]
      split
      case isTrue =>
        exact h.goOn hEarly rfl rfl (Or.inl rfl) hPlace
      case isFalse =>
        exact h.leave hEarly DocaError.noConfusion
  | worker =>
      dsimp only [Pipeline.initialise]
      split
      case isTrue =>
        refine
          { failed := fun hError => ?_
            closed := fun hClosed hSuccess => ?_
            finished := fun hExited => by cases hExited
            place := ⟨rfl, hPlace.1⟩ }
        · have hExited := h.failed hError
          cases hPlace.2.symm.trans hExited
        · have hCleaning := h.closed hClosed hSuccess
          cases hEarly.symm.trans hCleaning
      case isFalse =>
        exact h.leave hEarly DocaError.noConfusion
  | heartbeat =>
      have hRecorded : s.Recorded := by
        refine ⟨hPlace.1, ?_⟩
        rw [hPlace.2, hReady]
        rfl
      dsimp only [Pipeline.initialise]
      split
      · exact h.goOn hEarly rfl rfl (Or.inl rfl) hRecorded
      · exact h.goOn hEarly rfl rfl (Or.inl rfl) hRecorded

/- The tasks end, or one more is launched. -/
theorem enterTask
    (h : ResultSound cfg s)
    (hCounts : PipelineCounts cfg s)
    (hPc : s.pc = .loopTop) :
    ResultSound cfg (s.enterTask cfg) := by
  have hEarly : s.pc.cleaning = false := by
    rw [hPc]
    rfl
  have hRecorded := h.place
  have hTask := hCounts.place
  rw [hPc] at hRecorded hTask
  change s.nextReady = s.taskId at hTask
  have hLe := hCounts.nextReady_le
  unfold Pipeline.enterTask
  split
  · exact h.goOn hEarly rfl rfl (Or.inl rfl) hRecorded
  case isFalse hEnd =>
    refine h.afterLoop hEarly hRecorded fun hStop => ?_
    by_contra hLess
    exact hEnd ⟨by omega, hStop⟩

/- A wait that ends with an error is no success. -/
theorem awaitWindow
    (h : ResultSound cfg s)
    (hPc : s.pc = .window) :
    ResultSound cfg (s.awaitWindow cfg) := by
  have hEarly : s.pc.cleaning = false := by
    rw [hPc]
    rfl
  have hRecorded := h.place
  rw [hPc] at hRecorded
  unfold Pipeline.awaitWindow
  split
  · exact h
  · split
    case isTrue hError => exact h.leave hEarly hError
    case isFalse =>
      exact h.goOn hEarly rfl rfl (Or.inl rfl) hRecorded

/- A stop ends the loop before its tasks are done. -/
theorem leaveWindow
    (h : ResultSound cfg s)
    (hPc : s.pc = .windowLeft) :
    ResultSound cfg (s.leaveWindow cfg) := by
  have hEarly : s.pc.cleaning = false := by
    rw [hPc]
    rfl
  have hRecorded := h.place
  rw [hPc] at hRecorded
  unfold Pipeline.leaveWindow
  split
  case isTrue hStop =>
    refine h.afterLoop hEarly hRecorded fun hNone => ?_
    cases hStop.symm.trans hNone
  case isFalse =>
    exact h.goOn hEarly rfl rfl (Or.inl rfl) hRecorded

/- The launched kernel is yet to be recorded. -/
theorem launchKernel
    (h : ResultSound cfg s)
    (hPc : s.pc = .launch)
    (r : DocaError) :
    ResultSound cfg (s.launchKernel cfg r) := by
  have hEarly : s.pc.cleaning = false := by
    rw [hPc]
    rfl
  have hRecorded := h.place
  rw [hPc] at hRecorded
  rcases hRecorded with ⟨hStarted, hLength⟩
  unfold Pipeline.launchKernel
  split
  case isTrue =>
    have hRecording :
        Pipeline.Recording
          { s with
            result := r
            kernels := s.kernels ++ [s.waitThresh cfg]
            pc :=
              if cfg.gateBatch = 0 then .update
              else .record } := by
      refine ⟨hStarted, ?_⟩
      rw [List.length_append, hLength]
      rfl
    refine h.goOn hEarly rfl rfl (Or.inl rfl) ?_
    dsimp only
    split
    · exact hRecording
    · exact hRecording
  case isFalse hError => exact h.leave hEarly hError

/- The last task is counted before the loop ends. -/
theorem publish
    (h : ResultSound cfg s)
    (hCounts : PipelineCounts cfg s)
    (hPc : s.pc = .publish) :
    ResultSound cfg (s.publish cfg) := by
  have hEarly : s.pc.cleaning = false := by
    rw [hPc]
    rfl
  have hRecording := h.place
  have hAt := hCounts.place
  rw [hPc] at hRecording hAt
  rcases hRecording with ⟨hStarted, hLength⟩
  have hTask := hAt.1
  have hTasks := cfg.mTasks_lt
  have hNext :
      Core.wrap 32 (s.nextReady + 1) = s.nextReady + 1 := by
    refine Core.wrap_of_lt ?_
    unfold Pipeline.AtTask at hTask
    omega
  have hRecorded : (s.publish cfg).Recorded := by
    refine ⟨hStarted, ?_⟩
    change s.kernels.length = Core.wrap 32 (s.nextReady + 1)
    rw [hNext, hLength]
  refine h.goOn hEarly rfl rfl (Or.inl rfl) ?_
  unfold Pipeline.publish at hRecorded ⊢
  dsimp only at hRecorded ⊢
  split
  · exact ⟨hRecorded, fun hLast => by cases hLast⟩
  · exact hRecorded

/- A stop at the gate leads to the cleanup. -/
theorem enterGate
    (h : ResultSound cfg s)
    {last : Bool}
    (hPc : s.pc = .gate last) :
    ResultSound cfg (s.enterGate last) := by
  have hEarly : s.pc.cleaning = false := by
    rw [hPc]
    rfl
  have hBatch := h.place
  rw [hPc] at hBatch
  unfold Pipeline.enterGate
  split
  case isTrue hStop =>
    exact
      h.goOn hEarly rfl rfl (Or.inl rfl) ⟨hBatch.1, hStop⟩
  case isFalse =>
    exact h.goOn hEarly rfl rfl (Or.inl rfl) hBatch

/- A batch that is not opened ends with an error. -/
theorem openGate
    (h : ResultSound cfg s)
    {last : Bool}
    (hPc : s.pc = .openGate last)
    (r : DocaError) :
    ResultSound cfg (s.openGate cfg last r) := by
  have hEarly : s.pc.cleaning = false := by
    rw [hPc]
    rfl
  have hBatch := h.place
  rw [hPc] at hBatch
  have hOpened :
      ResultSound cfg { s.openBatch last with result := r } ∧
        (s.openBatch last).BatchAt cfg last ∧
        (s.openBatch last).pc.cleaning = false := by
    unfold Pipeline.openBatch
    split
    · refine ⟨?_, hBatch, hEarly⟩
      refine h.goOn hEarly rfl rfl (Or.inl rfl) ?_
      dsimp only
      rw [hPc]
      exact hBatch
    · refine ⟨?_, hBatch, hEarly⟩
      refine h.goOn hEarly rfl rfl (Or.inl rfl) ?_
      dsimp only
      rw [hPc]
      exact hBatch
  rcases hOpened with ⟨hSound, hStill, hOpen⟩
  unfold Pipeline.openGate
  split
  case isTrue hError => exact h.leave hEarly hError
  case isFalse =>
    split
    · exact hSound.goOn hOpen rfl rfl (Or.inl rfl) hStill
    · exact hSound.afterBatch hOpen hStill

/- The result seen by a drain is the worker's. -/
theorem drain
    (h : ResultSound cfg s)
    {last : Bool}
    {target : Nat}
    (hPc : s.pc = .drain last target) :
    ResultSound cfg (s.drain last target) := by
  have hEarly : s.pc.cleaning = false := by
    rw [hPc]
    rfl
  have hBatch := h.place
  rw [hPc] at hBatch
  unfold Pipeline.drain
  split
  · exact h
  · exact h.goOn hEarly rfl rfl (Or.inl rfl) hBatch

/- A worker that failed ends the launch with its error. -/
theorem leaveDrain
    (h : ResultSound cfg s)
    {last : Bool}
    {seen : DocaError}
    (hPc : s.pc = .drained last seen) :
    ResultSound cfg (s.leaveDrain last seen) := by
  have hEarly : s.pc.cleaning = false := by
    rw [hPc]
    rfl
  have hBatch := h.place
  rw [hPc] at hBatch
  unfold Pipeline.leaveDrain
  split
  case isTrue hStop =>
    exact
      h.goOn hEarly rfl rfl (Or.inl rfl) ⟨hBatch.1, hStop⟩
  case isFalse =>
    split
    case isTrue hError => exact h.leave hEarly hError
    case isFalse => exact h.afterBatch hEarly hBatch

/- `kernel_launch` returns what the submitter knows. -/
theorem finishLaunch
    (h : ResultSound cfg s)
    (hPc : s.pc = .joinHeartbeat) :
    ResultSound cfg s.finishLaunch := by
  have hPlace := h.place
  rw [hPc] at hPlace
  refine
    { h with
      closed := fun _ _ => rfl
      place := fun hSuccess => ?_ }
  change s.finalResult = .success at hSuccess
  unfold Pipeline.finalResult at hSuccess
  split at hSuccess
  case isTrue hFailed => exact absurd hSuccess hFailed.2.1
  case isFalse hNone =>
    rcases hPlace hSuccess with ⟨hRecorded, hTasks, hExited⟩
    refine ⟨hRecorded, hTasks, hExited, ?_⟩
    by_contra hError
    refine hNone ⟨?_, hError, hSuccess⟩
    rw [hRecorded.1, Bool.true_or]

/- One step of the submitter. -/
theorem submit
    (h : ResultSound cfg s)
    (hCounts : PipelineCounts cfg s)
    {r : DocaError}
    {s' : Pipeline}
    (hStep : s.submit cfg r = some s') :
    ResultSound cfg s' := by
  have hPlace := h.place
  cases Pipeline.submit_move hStep with
  | initialise hPc =>
      have hCount := hCounts.place
      rw [hPc] at hCount
      exact h.initialise hCount.1 hPc r
  | loopTop hPc => exact h.enterTask hCounts hPc
  | window hPc => exact h.awaitWindow hPc
  | windowLeft hPc => exact h.leaveWindow hPc
  | launch hPc => exact h.launchKernel hPc r
  | update hPc =>
      have hEarly : s.pc.cleaning = false := by
        rw [hPc]
        rfl
      rw [hPc] at hPlace
      unfold Pipeline.updateEvent
      split
      case isTrue =>
        exact h.goOn hEarly rfl rfl (Or.inl rfl) hPlace
      case isFalse hError => exact h.leave hEarly hError
  | record hPc =>
      rw [hPc] at hPlace
      refine h.goOn ?_ rfl rfl (Or.inl rfl) hPlace
      rw [hPc]
      rfl
  | publish hPc => exact h.publish hCounts hPc
  | gate hPc => exact h.enterGate hPc
  | raise hPc =>
      rw [hPc] at hPlace
      rcases hPlace with ⟨hRecorded, hStop⟩
      refine
        h.goOn ?_ rfl rfl (Or.inl rfl) fun _ =>
          ⟨hRecorded, fun hNone => ?_⟩
      · rw [hPc]
        rfl
      · cases hStop.symm.trans hNone
  | openGate hPc => exact h.openGate hPc r
  | drainTarget hPc =>
      rw [hPc] at hPlace
      refine h.goOn ?_ rfl rfl (Or.inl rfl) hPlace
      rw [hPc]
      rfl
  | drain hPc => exact h.drain hPc
  | drained hPc => exact h.leaveDrain hPc
  | nextTask hPc =>
      rw [hPc] at hPlace
      refine h.goOn ?_ rfl rfl (Or.inl rfl) hPlace
      rw [hPc]
      rfl
  | finish hPc =>
      rw [hPc] at hPlace
      refine h.goOn ?_ rfl rfl (Or.inr rfl) fun _ => hPlace
      rw [hPc]
      rfl
  | restore hPc =>
      rw [hPc] at hPlace
      exact { h with closed := fun _ _ => rfl, place := hPlace }
  | closing hPc =>
      rw [hPc] at hPlace
      refine
        { h with
          closed := fun _ _ => rfl
          finished := fun hExited hSuccess => ?_
          place := hPlace }
      rcases h.finished hExited hSuccess with ⟨hClosed, hAll⟩
      refine ⟨?_, hAll⟩
      change (s.accepting && !s.workerSyncReady) = false
      rw [hClosed, Bool.false_and]
  | joinWorker hPc hExited =>
      rw [hPc] at hPlace
      refine
        { h with
          closed := fun _ _ => rfl
          place := fun hSuccess => ?_ }
      rcases hPlace hSuccess with ⟨hRecorded, hTasks⟩
      exact ⟨hRecorded, hTasks, hExited hRecorded.1⟩
  | joinHeartbeat hPc => exact h.finishLaunch hPc

/- The worker only exits with all that is recorded. -/
theorem work
    (h : ResultSound cfg s)
    (hCounts : PipelineCounts cfg s)
    {r : DocaError}
    {s' : Pipeline}
    (hStep : s.work r = some s') :
    ResultSound cfg s' := by
  have hWorker := hCounts.worker
  rw [Pipeline.work] at hStep
  cases hAt : s.worker with
  | absent =>
      rw [hAt] at hStep
      cases hStep
  | exited =>
      rw [hAt] at hStep
      cases hStep
  | idle =>
      rw [hAt] at hStep hWorker
      rw [← Option.some.inj hStep]
      change s.nextToWait = s.completed at hWorker
      have hSuccess : s.workerResult = .success := by
        by_contra hError
        cases hAt.symm.trans (h.failed hError)
      unfold Pipeline.takeRecord
      split
      case isTrue hNone =>
        split
        case isTrue => exact h
        case isFalse hClosed =>
          refine
            { failed := fun hError => absurd hSuccess hError
              closed := h.closed
              finished := fun _ _ => ⟨?_, ?_⟩
              place := ?_ }
          · exact eq_false_of_ne_true hClosed
          · exact hWorker.symm.trans hNone
          · exact
              Pipeline.resultAt_mono h.place rfl rfl rfl rfl id
                (fun hAbsent => by cases hAt.symm.trans hAbsent)
                (fun hExited => by cases hAt.symm.trans hExited)
      case isFalse =>
        refine
          { failed := fun hError => absurd hSuccess hError
            closed := h.closed
            finished := fun hExited => by cases hExited
            place := ?_ }
        exact
          Pipeline.resultAt_mono h.place rfl rfl rfl rfl id
            (fun hAbsent => by cases hAt.symm.trans hAbsent)
            (fun hExited => by cases hAt.symm.trans hExited)
  | reading i =>
      rw [hAt] at hStep
      rw [← Option.some.inj hStep]
      refine
        { failed := fun hError => by
            cases hAt.symm.trans (h.failed hError)
          closed := h.closed
          finished := fun hExited => by cases hExited
          place := ?_ }
      exact
        Pipeline.resultAt_mono h.place rfl rfl rfl rfl id
          (fun hAbsent => by cases hAt.symm.trans hAbsent)
          (fun hExited => by cases hAt.symm.trans hExited)
  | waiting i value =>
      rw [hAt] at hStep
      rw [← Option.some.inj hStep]
      unfold Pipeline.waited
      split
      case isTrue =>
        refine
          { failed := fun hError => by
              cases hAt.symm.trans (h.failed hError)
            closed := h.closed
            finished := fun hExited => by cases hExited
            place := ?_ }
        exact
          Pipeline.resultAt_mono h.place rfl rfl rfl rfl id
            (fun hAbsent => by cases hAt.symm.trans hAbsent)
            (fun hExited => by cases hAt.symm.trans hExited)
      case isFalse hError =>
        refine
          { failed := fun _ => rfl
            closed := fun _ hSuccess => absurd hSuccess hError
            finished := fun _ hSuccess => absurd hSuccess hError
            place := ?_ }
        exact
          Pipeline.resultAt_mono h.place rfl rfl rfl rfl id
            (fun hAbsent => by cases hAt.symm.trans hAbsent)
            (fun hExited => by cases hAt.symm.trans hExited)

/- One step of the process keeps what a success means. -/
theorem step
    (h : ResultSound cfg s)
    (hCounts : PipelineCounts cfg s)
    {e : PipelineEvent}
    {s' : Pipeline}
    (hStep : Pipeline.step cfg s e = some s') :
    ResultSound cfg s' := by
  cases e with
  | stop =>
      rw [Pipeline.step] at hStep
      split at hStep
      · rw [← Option.some.inj hStep]
        have hPlace :
            Pipeline.ResultAt cfg { s with stop := true }
              s.pc :=
          Pipeline.resultAt_mono h.place rfl rfl rfl rfl
            (fun _ => rfl) id fun hExited => ⟨hExited, rfl⟩
        exact { h with place := hPlace }
      · cases hStep
  | submit r => exact h.submit hCounts hStep
  | indeterminate read =>
      rw [Pipeline.step, Pipeline.joinIndeterminate] at hStep
      split at hStep
      case isTrue hRead =>
        split at hStep
        · rw [← Option.some.inj hStep]
          exact
            { h with closed := fun _ _ => rfl, place := trivial }
        · rw [← Option.some.inj hStep]
          exact h.finishLaunch hRead.1
      case isFalse => cases hStep
  | work r => exact h.work hCounts hStep
  | beat =>
      rcases Pipeline.beat_eq hStep with ⟨hb, _, _, rfl⟩
      have hPlace :
          Pipeline.ResultAt cfg { s with heartbeat := hb }
            s.pc :=
        Pipeline.resultAt_mono h.place rfl rfl rfl rfl id id
          fun hExited => ⟨hExited, rfl⟩
      exact { h with place := hPlace }

/- No thread runs and no kernel was launched. -/
theorem start (cfg : PipelineConfig) :
    ResultSound cfg Pipeline.start :=
  { failed := fun hError => absurd rfl hError
    closed := fun hClosed => by cases hClosed
    finished := fun hExited => by cases hExited
    place := ⟨rfl, rfl⟩ }

end ResultSound

end Drex

------------------------------------------------------------
-- Whole Runs
------------------------------------------------------------

namespace Drex

open Drex.Core

/-
  A launch that reports success waited for every kernel it
  launched, and without a stop these are all its tasks.
-/
theorem success_completes
    {cfg : PipelineConfig}
    {s : Pipeline}
    (h : Reaches (Pipeline.step cfg) Pipeline.start s)
    (hPc : s.pc = .returned)
    (hResult : s.result = .success) :
    s.completed = s.kernels.length ∧
      (s.stop = false → s.completed = cfg.mTasks) := by
  have hSound :
      PipelineCounts cfg s ∧ ResultSound cfg s := by
    refine
      Reaches.invariant
        (I := fun s => PipelineCounts cfg s ∧ ResultSound cfg s)
        ⟨.start cfg, .start cfg⟩ ?_ h
    rintro s e s' ⟨hCounts, hHere⟩ hStep
    exact ⟨hCounts.step hStep, hHere.step hCounts hStep⟩
  rcases hSound with ⟨hCounts, hHere⟩
  have hPlace := hHere.place
  rw [hPc] at hPlace
  rcases hPlace hResult with
    ⟨hRecorded, hTasks, hExited, hWorker⟩
  have hAll := (hHere.finished hExited hWorker).2
  refine ⟨hAll.trans hRecorded.2.symm, fun hStop => ?_⟩
  exact hAll.trans (hTasks hStop)

/- Four tasks in batches of two, all launched and done. -/
theorem success_completes_batches :
    ∃ s : Pipeline,
      s.kernels.length = 4 ∧
        s.completed = s.kernels.length ∧
          (s.stop = false →
            s.completed = batchConfig.mTasks) := by
  have hRun :
      (runLabels (Pipeline.step batchConfig)
          (List.replicate 31 (.submit .success) ++
            List.replicate 6 (.work .success) ++
            List.replicate 12 (.submit .success) ++
            List.replicate 7 (.work .success) ++
            List.replicate 2 (.submit .success))
          Pipeline.start).any
        (fun s =>
          decide
            (s.kernels.length = 4 ∧ s.pc = .returned ∧
              s.result = .success)) =
        true := by
    decide +kernel
  rcases reaches_of_any hRun with ⟨s, hReach, hCheck⟩
  rcases of_decide_eq_true hCheck with
    ⟨hKernels, hPc, hResult⟩
  exact
    ⟨s, hKernels, success_completes hReach hPc hResult⟩

end Drex
