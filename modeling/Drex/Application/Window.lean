import Drex.Application.Counters

/-
  The window of kernels in flight, and the event that gates
  them.

  `PipelineGates` is what holds of the launched kernels and
  their event.  With the counters it shows that the window
  and the gates never block each other.

  Key definitions include:
    * `Pipeline.GatesAt`
    * `PipelineGates`
    * `WindowSound`

  Key theorems include:
    * `PipelineGates.openBatch`
    * `PipelineGates.step`
    * `window_gated`
    * `pipeline_window`
-/

------------------------------------------------------------
-- Gates
------------------------------------------------------------

namespace Drex

open Drex.Core

namespace Pipeline

/- A kernel was let go when the event passed its threshold. -/
theorem opened_iff
    {s : Pipeline}
    {i : Nat} :
    s.opened i = true ↔
      ∃ t, s.kernels[i]? = some t ∧ t < s.waitEvent := by
  unfold opened
  rw [Option.any_eq_true]
  simp only [decide_eq_true_eq]

/- A gate stays open while the event does not fall. -/
theorem opened_mono
    {s s' : Pipeline}
    {i : Nat}
    (h : s.opened i = true)
    (hKernels : s'.kernels = s.kernels)
    (hEvent : s.waitEvent ≤ s'.waitEvent) :
    s'.opened i = true := by
  rcases opened_iff.mp h with ⟨t, hKernel, hLt⟩
  rw [opened_iff, hKernels]
  exact ⟨t, hKernel, by omega⟩

/- A gate stays open while one more kernel is launched. -/
theorem opened_append
    {s s' : Pipeline}
    {i t : Nat}
    (h : s.opened i = true)
    (hKernels : s'.kernels = s.kernels ++ [t])
    (hEvent : s'.waitEvent = s.waitEvent) :
    s'.opened i = true := by
  rcases opened_iff.mp h with ⟨t', hKernel, hLt⟩
  rcases List.getElem?_eq_some_iff.mp hKernel with ⟨hLess, _⟩
  rw [opened_iff, hKernels, hEvent,
    List.getElem?_append_left hLess]
  exact ⟨t', hKernel, hLt⟩

/- An event above every threshold opens every gate. -/
theorem opened_of_above
    {s : Pipeline}
    (hAbove : ∀ t, t ∈ s.kernels → t < s.waitEvent)
    {i : Nat}
    (h : i < s.kernels.length) :
    s.opened i = true := by
  have hKernel := List.getElem?_eq_getElem h
  rw [opened_iff]
  exact ⟨_, hKernel, hAbove _ (List.getElem_mem h)⟩

variable (cfg : PipelineConfig) (s : Pipeline)

/- The event was set no higher than for the last batch. -/
def EventLow : Prop :=
  s.waitEvent ≤ s.gateWaitVal + 1

/- The batch that was begun is not full. -/
def BatchOpen : Prop :=
  cfg.gateBatch ≠ 0 → s.gateInBatch < cfg.gateBatch

/- Every launched kernel is recorded. -/
def Between : Prop :=
  s.kernels.length = s.nextReady ∧ s.EventLow ∧
    s.BatchOpen cfg

/- One launched kernel is not recorded yet. -/
def Launched : Prop :=
  s.kernels.length = s.nextReady + 1 ∧ s.EventLow ∧
    s.BatchOpen cfg

/- There is a batch to open. -/
def HasBatch : Prop :=
  s.kernels.length = s.nextReady ∧ s.EventLow ∧
    s.gateInBatch ≠ 0

/- Every recorded kernel was let go. -/
def AllOpened : Prop :=
  ∀ i, i < s.nextReady → s.opened i = true

/- A batch was opened, and inside the loop it is over. -/
def BatchDone (last : Bool) : Prop :=
  s.AllOpened ∧ s.EventLow ∧ (last = false → s.Between cfg)

/- What the submitter knows of the kernels. -/
def GatesAt : Submitter → Prop
| .initialise _ => s.Between cfg
| .loopTop => s.Between cfg
| .window => s.Between cfg
| .windowLeft => s.Between cfg
| .launch => s.Between cfg
| .update => s.Launched cfg ∧ cfg.gateBatch = 0
| .record =>
    s.Launched cfg ∧
      (cfg.gateBatch = 0 → s.opened s.nextReady = true)
| .publish =>
    s.Launched cfg ∧
      (cfg.gateBatch = 0 → s.opened s.nextReady = true)
| .gate _ => s.HasBatch
| .openGate _ => s.HasBatch
| .raise => s.EventLow
| .drainTarget last => s.BatchDone cfg last
| .drain last _ => s.BatchDone cfg last
| .drained last _ => s.BatchDone cfg last
| .nextTask => s.Between cfg
| .finish => s.AllOpened
| _ => True

end Pipeline

/-
  No threshold is above the value of the open batch, and
  every recorded kernel outside this batch was let go.
-/
structure PipelineGates
    (cfg : PipelineConfig)
    (s : Pipeline) : Prop where
  launched : s.nextReady ≤ s.kernels.length
  threshold : ∀ t, t ∈ s.kernels → t ≤ s.gateWaitVal
  value :
    s.gateWaitVal + 2 * s.gateInBatch ≤ 4 + 2 * s.nextReady
  opened :
    ∀ i, i + s.gateInBatch < s.nextReady →
      s.opened i = true
  plain :
    cfg.gateBatch = 0 →
      s.gateInBatch = 0 ∧ s.gateWaitVal = 4
  place : s.GatesAt cfg s.pc

namespace PipelineGates

variable {cfg : PipelineConfig} {s : Pipeline}

/- Leaving for the cleanup lets no kernel go. -/
theorem leave
    (h : PipelineGates cfg s)
    (r : DocaError) :
    PipelineGates cfg (s.leave r) :=
  { h with place := trivial }

/- No kernel was launched yet. -/
theorem initialise
    (h : PipelineGates cfg s)
    {stage : PipelineStage}
    (hPc : s.pc = .initialise stage)
    (r : DocaError) :
    PipelineGates cfg (s.initialise cfg r stage) := by
  have hPlace := h.place
  rw [hPc] at hPlace
  cases stage with
  | heartbeat =>
      rw [Pipeline.initialise]
      split
      · exact { h with place := hPlace }
      · exact { h with place := hPlace }
  | waitEvent | compEvent | records | mutex | cond | worker =>
      rw [Pipeline.initialise]
      split
      · exact { h with place := hPlace }
      · exact h.leave _

/- A batch that is still open after the loop is opened next. -/
theorem afterLoop
    (h : PipelineGates cfg s)
    (hBetween : s.Between cfg) :
    PipelineGates cfg (s.afterLoop cfg) := by
  unfold Pipeline.afterLoop
  split
  case isTrue hBatch =>
    exact
      { h with
        place := ⟨hBetween.1, hBetween.2.1, hBatch.2⟩ }
  case isFalse hNone =>
    have hZero : s.gateInBatch = 0 := by
      by_cases hGate : cfg.gateBatch = 0
      · exact (h.plain hGate).1
      · exact not_not.mp fun hNe => hNone ⟨hGate, hNe⟩
    refine { h with place := ?_ }
    intro i hReady
    apply h.opened
    rw [hZero]
    exact hReady

/- Between two tasks every kernel is recorded. -/
theorem enterTask
    (h : PipelineGates cfg s)
    (hPc : s.pc = .loopTop) :
    PipelineGates cfg (s.enterTask cfg) := by
  have hPlace := h.place
  rw [hPc] at hPlace
  unfold Pipeline.enterTask
  split
  · exact { h with place := hPlace }
  · exact h.afterLoop hPlace

/- The wait for a slot leaves the gates alone. -/
theorem awaitWindow
    (h : PipelineGates cfg s)
    (hPc : s.pc = .window) :
    PipelineGates cfg (s.awaitWindow cfg) := by
  have hPlace := h.place
  rw [hPc] at hPlace
  unfold Pipeline.awaitWindow
  split
  · exact h
  · split
    · exact h.leave _
    · exact { h with place := hPlace }

/- With a slot, the next kernel may be launched. -/
theorem leaveWindow
    (h : PipelineGates cfg s)
    (hPc : s.pc = .windowLeft) :
    PipelineGates cfg (s.leaveWindow cfg) := by
  have hPlace := h.place
  rw [hPc] at hPlace
  unfold Pipeline.leaveWindow
  split
  · exact h.afterLoop hPlace
  · exact { h with place := hPlace }

/- The threshold is the value the open batch waits for. -/
theorem waitThresh_eq
    (h : PipelineGates cfg s) :
    s.waitThresh cfg = s.gateWaitVal := by
  unfold Pipeline.waitThresh
  split
  case isTrue hGate => exact (h.plain hGate).2.symm
  case isFalse => rfl

/- The kernel waits for its batch, or for itself alone. -/
theorem launchKernel
    (h : PipelineGates cfg s)
    (hPc : s.pc = .launch)
    (r : DocaError) :
    PipelineGates cfg (s.launchKernel cfg r) := by
  have hPlace := h.place
  rw [hPc] at hPlace
  rcases hPlace with ⟨hLength, hLow, hBatch⟩
  unfold Pipeline.launchKernel
  rw [h.waitThresh_eq]
  split
  case isFalse => exact h.leave r
  case isTrue =>
    have hLonger :
        (s.kernels ++ [s.gateWaitVal]).length =
          s.nextReady + 1 := by
      rw [List.length_append, hLength]
      rfl
    refine
      { h with
        launched := ?_
        threshold := ?_
        opened := ?_
        place := ?_ }
    · change s.nextReady ≤ (s.kernels ++ _).length
      omega
    · intro t hMem
      rcases List.mem_append.mp hMem with hOld | hNew
      · exact h.threshold t hOld
      · exact Nat.le_of_eq (List.mem_singleton.mp hNew)
    · intro i hReady
      exact
        Pipeline.opened_append (h.opened i hReady) rfl rfl
    · by_cases hGate : cfg.gateBatch = 0
      · rw [if_pos hGate]
        exact ⟨⟨hLonger, hLow, hBatch⟩, hGate⟩
      · rw [if_neg hGate]
        exact
          ⟨⟨hLonger, hLow, hBatch⟩,
            fun hZero => absurd hZero hGate⟩

/- Without gating, the event passes the kernel's threshold. -/
theorem updateEvent
    (h : PipelineGates cfg s)
    (hPc : s.pc = .update)
    (r : DocaError) :
    PipelineGates cfg (s.updateEvent cfg r) := by
  have hPlace := h.place
  rw [hPc] at hPlace
  rcases hPlace with ⟨⟨hLength, hLow, hBatch⟩, hGate⟩
  have hPlain := h.plain hGate
  have hValue : wrap 64 (s.gateWaitVal + 1) = 5 := by
    rw [hPlain.2]
    rfl
  unfold Pipeline.updateEvent
  rw [h.waitThresh_eq, hValue]
  split
  case isFalse => exact h.leave r
  case isTrue =>
    have hAbove : ∀ t, t ∈ s.kernels → t < 5 := by
      intro t hMem
      have hLe := h.threshold t hMem
      omega
    refine
      { h with
        opened := ?_
        place := ⟨⟨hLength, ?_, hBatch⟩, fun _ => ?_⟩ }
    · intro i hReady
      apply Pipeline.opened_of_above hAbove
      change i < s.kernels.length
      change i + s.gateInBatch < s.nextReady at hReady
      omega
    · change 5 ≤ s.gateWaitVal + 1
      omega
    · apply Pipeline.opened_of_above hAbove
      change s.nextReady < s.kernels.length
      omega

/- A record says nothing of the gates. -/
theorem writeRecord
    (h : PipelineGates cfg s)
    (hPc : s.pc = .record) :
    PipelineGates cfg s.writeRecord := by
  have hPlace := h.place
  rw [hPc] at hPlace
  exact { h with place := hPlace }

/- A recorded kernel is let go, or joins the batch. -/
theorem publish
    (h : PipelineGates cfg s)
    (hCounts : PipelineCounts cfg s)
    (hPc : s.pc = .publish) :
    PipelineGates cfg (s.publish cfg) := by
  have hPlace := h.place
  rw [hPc] at hPlace
  rcases hPlace with ⟨⟨hLength, hLow, hBatch⟩, hLetGo⟩
  have hNext : wrap 32 (s.nextReady + 1) = s.nextReady + 1 := by
    have hAt := hCounts.place
    rw [hPc] at hAt
    rcases hAt.1 with ⟨hReady, hLt⟩
    have hTasks := cfg.mTasks_lt
    exact wrap_of_lt (by omega)
  unfold Pipeline.publish
  rw [hNext]
  by_cases hGate : cfg.gateBatch = 0
  · have hCount : s.countInBatch cfg = s.gateInBatch :=
      if_pos hGate
    have hZero := (h.plain hGate).1
    have hValue := h.value
    rw [hCount, if_neg (fun hBoth => hBoth.1 hGate)]
    refine
      { h with
        launched := Nat.le_of_eq hLength.symm
        value := ?_
        opened := ?_
        place :=
          ⟨hLength, hLow, fun hNe => absurd hGate hNe⟩ }
    · change
        s.gateWaitVal + 2 * s.gateInBatch ≤
          4 + 2 * (s.nextReady + 1)
      omega
    · intro i hReady
      change i + s.gateInBatch < s.nextReady + 1 at hReady
      by_cases hLast : i = s.nextReady
      · rw [hLast]
        exact hLetGo hGate
      · exact h.opened i (by omega)
  · have hLess := hBatch hGate
    have hCount :
        s.countInBatch cfg = s.gateInBatch + 1 := by
      have hBound := cfg.gateBatch_lt
      unfold Pipeline.countInBatch
      rw [if_neg hGate]
      exact wrap_of_lt (by omega)
    have hValue := h.value
    rw [hCount]
    refine
      { h with
        launched := Nat.le_of_eq hLength.symm
        value := ?_
        opened := ?_
        plain := fun hZero => absurd hZero hGate
        place := ?_ }
    · change
        s.gateWaitVal + 2 * (s.gateInBatch + 1) ≤
          4 + 2 * (s.nextReady + 1)
      omega
    · intro i hReady
      change
        i + (s.gateInBatch + 1) < s.nextReady + 1 at hReady
      exact h.opened i (by omega)
    · dsimp only
      split
      case isTrue =>
        exact ⟨hLength, hLow, Nat.succ_ne_zero _⟩
      case isFalse hMore =>
        refine ⟨hLength, hLow, fun _ => ?_⟩
        exact
          Nat.lt_of_not_le fun hFull => hMore ⟨hGate, hFull⟩

/- A full batch is opened, unless there was a stop. -/
theorem enterGate
    (h : PipelineGates cfg s)
    {last : Bool}
    (hPc : s.pc = .gate last) :
    PipelineGates cfg (s.enterGate last) := by
  have hPlace := h.place
  rw [hPc] at hPlace
  unfold Pipeline.enterGate
  split
  · exact { h with place := hPlace.2.1 }
  · exact { h with place := hPlace }

/- No value of the event is near its limit. -/
theorem value_lt
    (h : PipelineGates cfg s)
    (hCounts : PipelineCounts cfg s) :
    s.gateWaitVal + 2 < 2 ^ 64 - 1 := by
  have hValue := h.value
  have hReady := hCounts.nextReady_lt
  omega

/- The highest event lets every kernel go. -/
theorem raiseEvent
    (h : PipelineGates cfg s)
    (hCounts : PipelineCounts cfg s)
    (hPc : s.pc = .raise)
    (r : DocaError) :
    PipelineGates cfg (s.raiseEvent r) := by
  have hLow := h.place
  rw [hPc] at hLow
  change s.waitEvent ≤ s.gateWaitVal + 1 at hLow
  have hValue := h.value_lt hCounts
  refine { h with opened := ?_, place := trivial }
  intro i hReady
  have hRaised : s.waitEvent ≤ (s.raiseEvent r).waitEvent := by
    unfold Pipeline.raiseEvent
    dsimp only
    split <;> omega
  exact
    Pipeline.opened_mono (h.opened i hReady) rfl hRaised

/- An opened batch leaves no kernel behind. -/
theorem afterBatch
    (h : PipelineGates cfg s)
    {last : Bool}
    (hDone : s.BatchDone cfg last) :
    PipelineGates cfg (s.afterBatch last) := by
  cases last with
  | true => exact { h with place := hDone.1 }
  | false => exact { h with place := hDone.2.2 rfl }

/- The value of a batch is above all its thresholds. -/
theorem openBatch_done
    (h : PipelineGates cfg s)
    (hCounts : PipelineCounts cfg s)
    (hBatch : s.HasBatch)
    (last : Bool) :
    (s.openBatch last).BatchDone cfg last := by
  rcases hBatch with ⟨hLength, hLow, hSome⟩
  have hValue := h.value_lt hCounts
  have hOne : wrap 64 (s.gateWaitVal + 1) = s.gateWaitVal + 1 :=
    wrap_of_lt (by omega)
  have hTwo : wrap 64 (s.gateWaitVal + 2) = s.gateWaitVal + 2 :=
    wrap_of_lt (by omega)
  have hGate : cfg.gateBatch ≠ 0 :=
    fun hZero => hSome (h.plain hZero).1
  have hAbove :
      ∀ t, t ∈ s.kernels → t < s.gateWaitVal + 1 :=
    fun t hMem => Nat.lt_succ_of_le (h.threshold t hMem)
  unfold Pipeline.openBatch
  rw [hOne, hTwo]
  cases last with
  | true =>
      refine ⟨?_, Nat.le_refl _, fun hLast => by cases hLast⟩
      intro i hReady
      apply Pipeline.opened_of_above hAbove
      exact Nat.lt_of_lt_of_eq hReady hLength.symm
  | false =>
      have hEvent :
          s.gateWaitVal + 1 ≤ s.gateWaitVal + 2 + 1 := by
        omega
      refine ⟨?_, hEvent, fun _ => ⟨hLength, hEvent, ?_⟩⟩
      · intro i hReady
        apply Pipeline.opened_of_above hAbove
        exact Nat.lt_of_lt_of_eq hReady hLength.symm
      · exact fun _ => Nat.pos_of_ne_zero hGate

/- What an opened batch leaves, wherever it goes on. -/
theorem openBatch
    (h : PipelineGates cfg s)
    (hCounts : PipelineCounts cfg s)
    (hBatch : s.HasBatch)
    (last : Bool)
    (r : DocaError)
    (pc : Submitter)
    (hPlace : (s.openBatch last).GatesAt cfg pc) :
    PipelineGates cfg
      { s.openBatch last with result := r, pc := pc } := by
  have hDone := h.openBatch_done hCounts hBatch last
  have hTwo :
      wrap 64 (s.gateWaitVal + 2) = s.gateWaitVal + 2 := by
    have hLimit := h.value_lt hCounts
    exact wrap_of_lt (by omega)
  have hValue := h.value
  have hSome := hBatch.2.2
  cases last with
  | true =>
      refine { h with opened := ?_, place := hPlace }
      intro i hReady
      exact hDone.1 i (Nat.lt_of_add_right_lt hReady)
  | false =>
      refine
        { h with
          threshold := ?_
          value := ?_
          opened := fun i hReady => hDone.1 i hReady
          plain := fun hZero =>
            absurd (h.plain hZero).1 hSome
          place := hPlace }
      · intro t hMem
        change t ≤ wrap 64 (s.gateWaitVal + 2)
        have hLe := h.threshold t hMem
        omega
      · change
          wrap 64 (s.gateWaitVal + 2) + 2 * 0 ≤
            4 + 2 * s.nextReady
        omega

/- The event passes the thresholds of the whole batch. -/
theorem openGate
    (h : PipelineGates cfg s)
    (hCounts : PipelineCounts cfg s)
    {last : Bool}
    (hPc : s.pc = .openGate last)
    (r : DocaError) :
    PipelineGates cfg (s.openGate cfg last r) := by
  have hBatch := h.place
  rw [hPc] at hBatch
  have hDone := h.openBatch_done hCounts hBatch last
  unfold Pipeline.openGate
  split
  · exact h.leave r
  · split
    · exact h.openBatch hCounts hBatch last r _ hDone
    · cases last with
      | true =>
          exact h.openBatch hCounts hBatch true r _ hDone.1
      | false =>
          exact
            h.openBatch hCounts hBatch false r _
              (hDone.2.2 rfl)

/- A drain waits for what the batch let go. -/
theorem drainTarget
    (h : PipelineGates cfg s)
    {last : Bool}
    (hPc : s.pc = .drainTarget last) :
    PipelineGates cfg
      { s with pc := .drain last s.nextReady } := by
  have hPlace := h.place
  rw [hPc] at hPlace
  exact { h with place := hPlace }

/- Waiting leaves the gates as they are. -/
theorem drain
    (h : PipelineGates cfg s)
    {last : Bool}
    {target : Nat}
    (hPc : s.pc = .drain last target) :
    PipelineGates cfg (s.drain last target) := by
  have hPlace := h.place
  rw [hPc] at hPlace
  unfold Pipeline.drain
  split
  · exact h
  · exact { h with place := hPlace }

/- After the drain the batch is still open. -/
theorem leaveDrain
    (h : PipelineGates cfg s)
    {last : Bool}
    {seen : DocaError}
    (hPc : s.pc = .drained last seen) :
    PipelineGates cfg (s.leaveDrain last seen) := by
  have hPlace := h.place
  rw [hPc] at hPlace
  unfold Pipeline.leaveDrain
  split
  · exact { h with place := hPlace.2.1 }
  · split
    · exact h.leave seen
    · exact h.afterBatch hPlace

/- The next task begins with every kernel recorded. -/
theorem nextTask
    (h : PipelineGates cfg s)
    (hPc : s.pc = .nextTask) :
    PipelineGates cfg s.nextTask := by
  have hPlace := h.place
  rw [hPc] at hPlace
  exact { h with place := hPlace }

/- One step of the submitter keeps what holds of the gates. -/
theorem submit
    (h : PipelineGates cfg s)
    (hCounts : PipelineCounts cfg s)
    {r : DocaError}
    {s' : Pipeline}
    (hStep : s.submit cfg r = some s') :
    PipelineGates cfg s' := by
  cases Pipeline.submit_move hStep with
  | initialise hPc => exact h.initialise hPc r
  | loopTop hPc => exact h.enterTask hPc
  | window hPc => exact h.awaitWindow hPc
  | windowLeft hPc => exact h.leaveWindow hPc
  | launch hPc => exact h.launchKernel hPc r
  | update hPc => exact h.updateEvent hPc r
  | record hPc => exact h.writeRecord hPc
  | publish hPc => exact h.publish hCounts hPc
  | gate hPc => exact h.enterGate hPc
  | raise hPc => exact h.raiseEvent hCounts hPc r
  | openGate hPc => exact h.openGate hCounts hPc r
  | drainTarget hPc => exact h.drainTarget hPc
  | drain hPc => exact h.drain hPc
  | drained hPc => exact h.leaveDrain hPc
  | nextTask hPc => exact h.nextTask hPc
  | finish hPc => exact { h with place := trivial }
  | restore hPc => exact { h with place := trivial }
  | closing hPc => exact { h with place := trivial }
  | joinWorker hPc hExited => exact { h with place := trivial }
  | joinHeartbeat hPc => exact { h with place := trivial }

/- The worker neither launches nor sets the event. -/
theorem work
    (h : PipelineGates cfg s)
    {r : DocaError}
    {s' : Pipeline}
    (hStep : s.work r = some s') :
    PipelineGates cfg s' := by
  rcases Pipeline.work_eq hStep with
    ⟨nextToWait, completed, accepting, result, worker, rfl⟩
  exact { h with }

/- One step of the process keeps the gates. -/
theorem step
    (h : PipelineGates cfg s)
    (hCounts : PipelineCounts cfg s)
    {e : PipelineEvent}
    {s' : Pipeline}
    (hStep : Pipeline.step cfg s e = some s') :
    PipelineGates cfg s' := by
  cases e with
  | stop =>
      rw [Pipeline.step] at hStep
      split at hStep
      · rw [← Option.some.inj hStep]
        exact { h with }
      · cases hStep
  | submit r => exact h.submit hCounts hStep
  | indeterminate read =>
      rcases Pipeline.joinIndeterminate_eq hStep with
        rfl | rfl
      · exact { h with place := trivial }
      · exact { h with place := trivial }
  | work r => exact h.work hStep
  | beat =>
      rcases Pipeline.beat_eq hStep with ⟨hb, _, _, rfl⟩
      exact { h with }

/- No kernel is launched, and no batch is begun. -/
theorem start (cfg : PipelineConfig) :
    PipelineGates cfg Pipeline.start :=
  { launched := Nat.le_refl _
    threshold := fun _ hMem => absurd hMem List.not_mem_nil
    value := Nat.le_refl _
    opened := fun _ hReady => absurd hReady (Nat.not_lt_zero _)
    plain := fun _ => ⟨rfl, rfl⟩
    place :=
      ⟨rfl, Nat.zero_le _,
        fun hGate => Nat.pos_of_ne_zero hGate⟩ }

end PipelineGates

end Drex

------------------------------------------------------------
-- The Window
------------------------------------------------------------

namespace Drex

open Drex.Core

/- The worker is at a record. -/
def Worker.reads : Worker → Option Nat
| .reading i => some i
| .waiting i _ => some i
| _ => none

/-
  The counters are in order and the window is kept to, a
  record is written before the worker reads it, and a
  submitter that waits for a slot with gating on waits for a
  kernel that was let go.
-/
structure WindowSound
    (cfg : PipelineConfig)
    (s : Pipeline) : Prop where
  completed_le : s.completed ≤ s.nextToWait
  nextToWait_le : s.nextToWait ≤ s.nextReady
  nextReady_le : s.nextReady ≤ cfg.mTasks
  inFlight_eq :
    wrapSub 32 s.nextReady s.completed =
      s.nextReady - s.completed
  inFlight_le : s.nextReady - s.completed ≤ cfg.window
  written :
    ∀ i, s.worker.reads = some i →
      s.records i = some (Pipeline.recordOf i)
  unblocked :
    s.pc = .window → s.windowFull cfg = true →
      cfg.gateBatch ≠ 0 →
        ∃ i, s.completed ≤ i ∧ i < s.nextReady ∧
          s.opened i = true

variable {cfg : PipelineConfig} {s : Pipeline}

/- The worker waits for a recorded kernel. -/
theorem PipelineCounts.reads_lt
    (h : PipelineCounts cfg s)
    {i : Nat}
    (hReads : s.worker.reads = some i) :
    i < s.nextReady := by
  have hSecond := h.nextToWait_le
  have hWorker := h.worker
  cases hPc : s.worker with
  | reading j =>
      rw [hPc] at hReads hWorker
      rcases hWorker with ⟨hAt, hNext⟩
      cases hReads
      omega
  | waiting j value =>
      rw [hPc] at hReads hWorker
      rcases hWorker with ⟨hAt, hNext⟩
      cases hReads
      omega
  | absent | idle | exited =>
      rw [hPc] at hReads
      cases hReads

/- The oldest kernel of a full window was let go. -/
theorem window_gated
    (hCounts : PipelineCounts cfg s)
    (hGates : PipelineGates cfg s)
    (hPc : s.pc = .window)
    (hFull : s.windowFull cfg = true)
    (hGate : cfg.gateBatch ≠ 0) :
    s.completed < s.nextReady ∧
      s.opened s.completed = true := by
  have hPlace := hGates.place
  rw [hPc] at hPlace
  have hBatch : s.gateInBatch < cfg.gateBatch :=
    hPlace.2.2 hGate
  have hWindow := cfg.gateBatch_le_window
  have hReady := hCounts.windowFull_iff.mp hFull
  refine ⟨by omega, ?_⟩
  exact hGates.opened _ (by omega)

/- Both invariants hold in every state of a run. -/
theorem pipeline_reaches
    (h : Reaches (Pipeline.step cfg) Pipeline.start s) :
    PipelineCounts cfg s ∧ PipelineGates cfg s := by
  induction h with
  | start =>
      exact
        ⟨PipelineCounts.start cfg, PipelineGates.start cfg⟩
  | next hReach hStep ih =>
      exact ⟨ih.1.step hStep, ih.2.step ih.1 hStep⟩

/- The window and the gates never block each other. -/
theorem pipeline_window
    (h : Reaches (Pipeline.step cfg) Pipeline.start s) :
    WindowSound cfg s := by
  rcases pipeline_reaches h with ⟨hCounts, hGates⟩
  have hIn := hCounts.inFlight
  refine
    { completed_le := hCounts.completed_le
      nextToWait_le := hCounts.nextToWait_le
      nextReady_le := hCounts.nextReady_le
      inFlight_eq := hCounts.inFlight_eq
      inFlight_le := by omega
      written := ?_
      unblocked := ?_ }
  · intro i hReads
    exact hCounts.written i (hCounts.reads_lt hReads)
  · intro hPc hFull hGate
    have hOldest :=
      window_gated hCounts hGates hPc hFull hGate
    exact ⟨_, Nat.le_refl _, hOldest.1, hOldest.2⟩

/- Four tasks in batches of two, with three in flight. -/
def batchConfig : PipelineConfig :=
  { mTasks := 4
    maxInflight := 3
    gateBatch := 2
    gateDrain := 0
    heartbeatMs := 0
    stdoutFlushMs := 0
    installed := true
    mTasks_lt := by decide
    maxInflight_lt := by decide
    gateBatch_lt := by decide }

/-
  Two kernels were let go and a third waits for its batch;
  the window is full.
-/
theorem pipeline_window_full :
    ∃ s : Pipeline,
      s.pc = .window ∧ s.windowFull batchConfig = true ∧
        s.opened 2 = false ∧ WindowSound batchConfig s := by
  have hRun :
      (runLabels (Pipeline.step batchConfig)
          (List.replicate 31 (.submit .success))
          Pipeline.start).any
        (fun s =>
          decide
            (s.pc = .window ∧
              s.windowFull batchConfig = true ∧
                s.opened 2 = false)) =
        true := by
    decide +kernel
  rcases reaches_of_any hRun with ⟨s, hReach, hCheck⟩
  rcases of_decide_eq_true hCheck with ⟨hPc, hFull, hShut⟩
  exact ⟨s, hPc, hFull, hShut, pipeline_window hReach⟩

end Drex
