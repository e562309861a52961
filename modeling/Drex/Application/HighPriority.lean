import Mathlib.Algebra.BigOperators.Group.Finset.Basic
import Mathlib.Data.List.GetD
import Drex.Core.Ranks
import Drex.Application.Shutdown

/-
  The high-priority driver: the pipeline of the low-priority
  one without batches, with the times of its tasks and the
  line that sums them up.

  Every step reads the clock, and the steps that store a
  reading are those of the source.  A number that does not
  come out of the clock's range is no reading.  The printed
  rates are left out: they are quotients of the counts and
  the interval of the line.

  Key definitions include:
    * `HighPriorityConfig`
    * `LaunchTimes`
    * `HighPriority`
    * `HighPriority.step`
    * `printSummary`
    * `TimesSound`

  Key theorems include:
    * `plain_joins`
    * `TimesSound.step`
    * `summary_sound`
-/

------------------------------------------------------------
-- Joins Without Batches
------------------------------------------------------------

namespace Drex

open Drex.Core

/- A configuration of the driver that has no batches. -/
structure HighPriorityConfig where
  pipeline : PipelineConfig
  plain : pipeline.gateBatch = 0

namespace Pipeline

/- Every call up to the start of the worker succeeds. -/
def setUp (s : Pipeline) : PipelineEvent → Bool
| .submit r =>
    match s.pc with
    | .initialise .heartbeat => true
    | .initialise _ => decide (r = .success)
    | _ => true
| _ => true

/- A heartbeat is started only at its interval. -/
theorem heartbeat_of_tick
    {cfg : PipelineConfig}
    (hTick : cfg.tickMs = 0)
    {s s' : Pipeline}
    {e : PipelineEvent}
    (h : s.heartbeatStarted ≠ some true)
    (hStep : Pipeline.step cfg s e = some s') :
    s'.heartbeatStarted ≠ some true := by
  cases e with
  | stop =>
      rw [Pipeline.step] at hStep
      split at hStep
      · rw [← Option.some.inj hStep]
        exact h
      · cases hStep
  | submit r =>
      cases submit_move hStep with
      | @initialise stage hPc =>
          cases stage with
          | heartbeat =>
              dsimp only [initialise]
              rw [if_neg (fun hOn => hOn.1 hTick)]
              intro hSome
              cases hSome
          | _ =>
              dsimp only [initialise]
              split <;> exact h
      | loopTop =>
          unfold enterTask afterLoop
          split
          · exact h
          · split <;> exact h
      | window =>
          unfold awaitWindow
          split
          · exact h
          · split <;> exact h
      | windowLeft =>
          unfold leaveWindow afterLoop
          split
          · split <;> exact h
          · exact h
      | launch =>
          unfold launchKernel
          split <;> exact h
      | update =>
          unfold updateEvent
          split <;> exact h
      | gate =>
          unfold enterGate
          split <;> exact h
      | @openGate last =>
          unfold openGate
          split
          · exact h
          · split
            · cases last <;> exact h
            · cases last <;> exact h
      | drain =>
          unfold drain
          split <;> exact h
      | drained =>
          unfold leaveDrain afterBatch
          split
          · exact h
          · split
            · exact h
            · split <;> exact h
      | record | publish | raise | drainTarget | nextTask =>
          exact h
      | finish | restore | closing | joinWorker =>
          exact h
      | joinHeartbeat => exact h
  | indeterminate read =>
      rcases joinIndeterminate_eq hStep with rfl | rfl
      · exact h
      · exact h
  | work r =>
      rcases work_eq hStep with ⟨_, _, _, _, _, rfl⟩
      exact h
  | beat =>
      rcases beat_eq hStep with ⟨_, _, _, rfl⟩
      exact h

/- Without batches a recorded kernel was let go. -/
theorem workerFree_of_plain
    {cfg : PipelineConfig}
    (hPlain : cfg.gateBatch = 0)
    {s : Pipeline}
    (hGates : PipelineGates cfg s) :
    s.workerFree = true := by
  refine workerFree_iff.mpr (Or.inl fun i hi => ?_)
  have hNone := (hGates.plain hPlain).1
  exact hGates.opened i (by omega)

/- Set up is all that such a run has to be. -/
theorem ordered_of_setUp
    {cfg : PipelineConfig}
    (hPlain : cfg.gateBatch = 0)
    {s : Pipeline}
    (hGates : PipelineGates cfg s)
    (hBeat : s.heartbeatStarted ≠ some true)
    {e : PipelineEvent}
    (h : s.setUp e = true) :
    s.ordered cfg e = true := by
  have hFree := workerFree_of_plain hPlain hGates
  have hLeft : s.heartbeatFree cfg = true :=
    (heartbeatFree_iff cfg).mpr fun hOn => absurd hOn hBeat
  cases e with
  | submit r =>
      unfold setUp at h
      unfold ordered
      cases hPc : s.pc with
      | initialise stage =>
          rw [hPc] at h
          cases stage <;> exact h
      | launch | update | raise | openGate =>
          simp only [hFree, Bool.or_true]
      | restore => exact hLeft
      | _ => rfl
  | work r =>
      unfold ordered
      cases hWorker : s.worker with
      | waiting record value =>
          simp only [decide_eq_true hBeat, Bool.or_true]
      | _ => rfl
  | stop | indeterminate | beat => rfl

end Pipeline

/-
  Without a heartbeat the driver joins its worker whatever
  launch, update or wait fails and whenever a stop comes.
-/
theorem plain_joins
    {cfg : HighPriorityConfig}
    (hTick : cfg.pipeline.tickMs = 0)
    {s : Pipeline}
    (h :
      Reaches
        (guarded Pipeline.setUp (Pipeline.step cfg.pipeline))
        Pipeline.start s) :
    JoinsSound cfg.pipeline s := by
  have hSound :
      s.heartbeatStarted ≠ some true ∧
        PipelineCounts cfg.pipeline s ∧
        PipelineGates cfg.pipeline s ∧
        PipelineOrder cfg.pipeline s := by
    refine
      Reaches.invariant
        (I := fun s =>
          s.heartbeatStarted ≠ some true ∧
            PipelineCounts cfg.pipeline s ∧
            PipelineGates cfg.pipeline s ∧
            PipelineOrder cfg.pipeline s)
        ⟨fun hNone => (by cases hNone), .start _, .start _,
          .start _⟩ ?_ h
    rintro s e s' ⟨hBeat, hCounts, hGates, hOrder⟩ hNext
    rcases guarded_eq_some_iff.mp hNext with ⟨hSetUp, hStep⟩
    have hOrdered :=
      Pipeline.ordered_of_setUp cfg.plain hGates hBeat hSetUp
    exact
      ⟨Pipeline.heartbeat_of_tick hTick hBeat hStep,
        hCounts.step hStep, hGates.step hCounts hStep,
        hOrder.step hCounts hGates hOrdered hStep⟩
  exact hSound.2.2.2.joinsSound hSound.2.1

/- A driver of a few tasks, without a heartbeat. -/
def fewTasks
    (mTasks maxInflight : Nat)
    (hTasks : mTasks ≤ 8)
    (hInflight : maxInflight ≤ 8) :
    HighPriorityConfig :=
  { pipeline :=
      { mTasks := mTasks
        maxInflight := maxInflight
        gateBatch := 0
        gateDrain := 0
        heartbeatMs := 0
        stdoutFlushMs := 0
        installed := true
        mTasks_lt := by omega
        maxInflight_lt := by omega
        gateBatch_lt := by decide }
    plain := rfl }

/- Three tasks, two in flight. -/
def threeTasks : HighPriorityConfig :=
  fewTasks 3 2 (by decide) (by decide)

/- The update of the second task fails, and all is joined. -/
theorem plain_joins_failed_update :
    ∃ s : Pipeline,
      s.pc = .joinWorker ∧ s.kernels.length = 2 ∧
        s.nextReady = 1 ∧ JoinsSound threeTasks.pipeline s := by
  have hRun :
      (runLabels
          (guarded Pipeline.setUp
            (Pipeline.step threeTasks.pipeline))
          (List.replicate 19 (.submit .success) ++
            [.submit (.other 1)] ++
            List.replicate 2 (.submit .success))
          Pipeline.start).any
        (fun s =>
          decide
            (s.pc = .joinWorker ∧ s.kernels.length = 2 ∧
              s.nextReady = 1)) =
        true := by
    decide +kernel
  rcases reaches_of_any hRun with ⟨s, hReach, hCheck⟩
  rcases of_decide_eq_true hCheck with
    ⟨hPc, hKernels, hReady⟩
  have hTick : threeTasks.pipeline.tickMs = 0 := by decide
  exact
    ⟨s, hPc, hKernels, hReady, plain_joins hTick hReach⟩

end Drex

------------------------------------------------------------
-- Times
------------------------------------------------------------

namespace Drex

open Drex.Core

/-
  The last reading of the clock, the readings that the
  submitter keeps, and those in the records, zeroed before
  they are written.
-/
structure LaunchTimes where
  clock : Nat
  taskStart : Nat
  totalStart : Nat
  totalEnd : Nat
  startNs : Nat → Nat
  durationNs : Nat → Nat

namespace LaunchTimes

variable (t : LaunchTimes) (p : Pipeline) (now : Nat)

/- What a step of the submitter does with its reading. -/
def submit : LaunchTimes :=
  match p.pc with
  | .initialise .heartbeat => { t with totalStart := now }
  | .windowLeft =>
      if p.stop then t else { t with taskStart := now }
  | .record =>
      { t with
        startNs :=
          Function.update t.startNs p.taskId t.taskStart }
  | .restore => { t with totalEnd := now }
  | _ => t

/- A wait that succeeded gives its record a duration. -/
def work (r : DocaError) : LaunchTimes :=
  match p.worker with
  | .waiting i _ =>
      if r = .success then
        { t with
          durationNs :=
            Function.update t.durationNs i
              (wrapSub 64 now (t.startNs i)) }
      else
        t
  | _ => t

end LaunchTimes

/- The pipeline with its times. -/
structure HighPriority where
  pipeline : Pipeline
  times : LaunchTimes

namespace HighPriority

def start : HighPriority :=
  { pipeline := Pipeline.start
    times :=
      { clock := 0
        taskStart := 0
        totalStart := 0
        totalEnd := 0
        startNs := fun _ => 0
        durationNs := fun _ => 0 } }

/- What an event does with the reading of the clock. -/
def timesAfter
    (s : HighPriority)
    (now : Nat) :
    PipelineEvent → LaunchTimes
| .submit _ => s.times.submit s.pipeline now
| .work r => s.times.work s.pipeline now r
| _ => s.times

/- One step of the process, at a reading of the clock. -/
def step
    (cfg : HighPriorityConfig)
    (s : HighPriority)
    (e : PipelineEvent × Nat) :
    Option HighPriority :=
  if s.times.clock ≤ e.2 ∧ e.2 < 2 ^ 64 then
    (Pipeline.step cfg.pipeline s.pipeline e.1).map
      (fun pipeline =>
        { pipeline := pipeline
          times :=
            { s.timesAfter e.2 e.1 with clock := e.2 } })
  else
    none

end HighPriority

/- The numbers of the line that `print_summary` prints. -/
structure Summary where
  totalTasks : Nat
  completed : Nat
  elapsedNs : Nat
  sumNs : Nat
  p50 : Nat
  p95 : Nat
  p99 : Nat
  min : Nat
  max : Nat

/- An index of `print_summary`, in numbers of 32 bits. -/
def percentileIndex (completed percent : Nat) : Nat :=
  wrap 32 ((completed - 1) * percent) / 100

/- `print_summary`, where its array could be allocated. -/
def printSummary
    (totalTasks completed : Nat)
    (durationNs : Nat → Nat)
    (totalStart totalEnd : Nat) :
    Option Summary :=
  if completed = 0 ∨ totalEnd ≤ totalStart then
    none
  else
    let durations := (List.range completed).map durationNs
    let sorted := durations.insertionSort (· ≤ ·)
    some
      { totalTasks := totalTasks
        completed := completed
        elapsedNs := totalEnd - totalStart
        sumNs :=
          durations.foldl (fun sum d => wrap 64 (sum + d)) 0
        p50 := sorted.getD ((completed - 1) / 2) 0
        p95 := sorted.getD (percentileIndex completed 95) 0
        p99 := sorted.getD (percentileIndex completed 99) 0
        min := sorted.getD 0 0
        max := sorted.getD (completed - 1) 0 }

/- The line at the end of `kernel_launch`. -/
def HighPriority.summary
    (cfg : HighPriorityConfig)
    (s : HighPriority) :
    Option Summary :=
  printSummary cfg.pipeline.mTasks s.pipeline.completed
    s.times.durationNs s.times.totalStart s.times.totalEnd

end Drex

------------------------------------------------------------
-- The Submitter's Steps
------------------------------------------------------------

namespace Drex

namespace Pipeline

/- Where the submitter comes from, and what it counts. -/
structure Flow (s s' : Pipeline) : Prop where
  completed : s'.completed = s.completed
  ready : s.pc ≠ .publish → s'.nextReady = s.nextReady
  task : s'.pc = .publish → s'.taskId = s.taskId
  launch :
    s'.pc = .launch → s.pc = .windowLeft ∧ s.stop = false
  update : s'.pc = .update → s.pc = .launch
  record :
    s'.pc = .record → s.pc = .launch ∨ s.pc = .update
  publish : s'.pc = .publish → s.pc = .record
  restored :
    s'.pc.restored = true →
      s.pc = .restore ∨ s.pc.restored = true

namespace Flow

variable {cfg : PipelineConfig} {s s' : Pipeline}

/- A step to a point that knows nothing of the times. -/
theorem plain
    (hCompleted : s'.completed = s.completed)
    (hReady : s'.nextReady = s.nextReady)
    (hPc :
      s'.pc ≠ .launch ∧ s'.pc ≠ .update ∧ s'.pc ≠ .record ∧
        s'.pc ≠ .publish ∧ s'.pc.restored = false) :
    Flow s s' := by
  rcases hPc with ⟨hLaunch, hUpdate, hRecord, hPublish, hEnd⟩
  exact
    { completed := hCompleted
      ready := fun _ => hReady
      task := fun hAt => absurd hAt hPublish
      launch := fun hAt => absurd hAt hLaunch
      update := fun hAt => absurd hAt hUpdate
      record := fun hAt => absurd hAt hRecord
      publish := fun hAt => absurd hAt hPublish
      restored := fun hAt => by cases hEnd.symm.trans hAt }

/- A step of the cleanup, after the total was taken. -/
theorem cleanup
    (hCompleted : s'.completed = s.completed)
    (hReady : s'.nextReady = s.nextReady)
    (hFrom : s.pc = .restore ∨ s.pc.restored = true)
    (hPc : s'.pc.restored = true) :
    Flow s s' :=
  { completed := hCompleted
    ready := fun _ => hReady
    task := fun hAt => by rw [hAt] at hPc; cases hPc
    launch := fun hAt => by rw [hAt] at hPc; cases hPc
    update := fun hAt => by rw [hAt] at hPc; cases hPc
    record := fun hAt => by rw [hAt] at hPc; cases hPc
    publish := fun hAt => by rw [hAt] at hPc; cases hPc
    restored := fun _ => hFrom }

theorem leave (s : Pipeline) (r : DocaError) :
    Flow s (s.leave r) :=
  plain rfl rfl (by simp [Pipeline.leave, Submitter.restored])

theorem afterLoop (cfg : PipelineConfig) (s : Pipeline) :
    Flow s (s.afterLoop cfg) := by
  unfold Pipeline.afterLoop
  split
  · exact plain rfl rfl (by simp [Submitter.restored])
  · exact plain rfl rfl (by simp [Submitter.restored])

theorem afterBatch
    (last : Bool)
    (hCompleted : s'.completed = s.completed)
    (hReady : s'.nextReady = s.nextReady) :
    Flow s (s'.afterBatch last) := by
  unfold Pipeline.afterBatch
  split
  · exact plain hCompleted hReady (by simp [Submitter.restored])
  · exact plain hCompleted hReady (by simp [Submitter.restored])

theorem initialise
    (cfg : PipelineConfig)
    (s : Pipeline)
    (r : DocaError)
    (stage : PipelineStage) :
    Flow s (s.initialise cfg r stage) := by
  cases stage with
  | worker | heartbeat =>
      dsimp only [Pipeline.initialise]
      split
      · exact plain rfl rfl (by simp [Submitter.restored])
      · exact
          plain rfl rfl
            (by simp [Pipeline.leave, Submitter.restored])
  | waitEvent | compEvent | records | mutex | cond =>
      dsimp only [Pipeline.initialise]
      split
      · exact plain rfl rfl (by simp [Submitter.restored])
      · exact leave s _

theorem enterTask (cfg : PipelineConfig) (s : Pipeline) :
    Flow s (s.enterTask cfg) := by
  unfold Pipeline.enterTask
  split
  · exact plain rfl rfl (by simp [Submitter.restored])
  · exact afterLoop cfg s

theorem awaitWindow (hPc : s.pc = .window) :
    Flow s (s.awaitWindow cfg) := by
  unfold Pipeline.awaitWindow
  split
  · exact
      plain rfl rfl (by rw [hPc]; simp [Submitter.restored])
  · split
    · exact leave s _
    · exact plain rfl rfl (by simp [Submitter.restored])

theorem leaveWindow (hPc : s.pc = .windowLeft) :
    Flow s (s.leaveWindow cfg) := by
  unfold Pipeline.leaveWindow
  split
  case isTrue => exact afterLoop cfg s
  case isFalse hStop =>
    exact
      { completed := rfl
        ready := fun _ => rfl
        task := fun hAt => by cases hAt
        launch := fun _ => ⟨hPc, eq_false_of_ne_true hStop⟩
        update := fun hAt => by cases hAt
        record := fun hAt => by cases hAt
        publish := fun hAt => by cases hAt
        restored := fun hAt => by cases hAt }

/- A step to where the kernel's record is to be written. -/
theorem toRecord
    (hCompleted : s'.completed = s.completed)
    (hReady : s'.nextReady = s.nextReady)
    (hFrom : s.pc = .launch ∨ s.pc = .update)
    (hPc : s'.pc = .record) :
    Flow s s' :=
  { completed := hCompleted
    ready := fun _ => hReady
    task := fun hAt => by rw [hPc] at hAt; cases hAt
    launch := fun hAt => by rw [hPc] at hAt; cases hAt
    update := fun hAt => by rw [hPc] at hAt; cases hAt
    record := fun _ => hFrom
    publish := fun hAt => by rw [hPc] at hAt; cases hAt
    restored := fun hAt => by rw [hPc] at hAt; cases hAt }

theorem launchKernel (hPc : s.pc = .launch) (r : DocaError) :
    Flow s (s.launchKernel cfg r) := by
  unfold Pipeline.launchKernel
  split
  · split
    · exact
        { completed := rfl
          ready := fun _ => rfl
          task := fun hAt => by cases hAt
          launch := fun hAt => by cases hAt
          update := fun _ => hPc
          record := fun hAt => by cases hAt
          publish := fun hAt => by cases hAt
          restored := fun hAt => by cases hAt }
    · exact toRecord rfl rfl (.inl hPc) rfl
  · exact leave s r

theorem updateEvent (hPc : s.pc = .update) (r : DocaError) :
    Flow s (s.updateEvent cfg r) := by
  unfold Pipeline.updateEvent
  split
  · exact toRecord rfl rfl (.inr hPc) rfl
  · exact leave s r

theorem writeRecord (hPc : s.pc = .record) :
    Flow s s.writeRecord :=
  { completed := rfl
    ready := fun _ => rfl
    task := fun _ => rfl
    launch := fun hAt => by cases hAt
    update := fun hAt => by cases hAt
    record := fun hAt => by cases hAt
    publish := fun _ => hPc
    restored := fun hAt => by cases hAt }

/- Only this step lets another record be read. -/
theorem publishRecord (hPc : s.pc = .publish) :
    Flow s (s.publish cfg) := by
  have hAfter :
      (s.publish cfg).pc = .gate false ∨
        (s.publish cfg).pc = .nextTask := by
    unfold Pipeline.publish
    split
    · exact .inl rfl
    · exact .inr rfl
  have hPoint :
      (s.publish cfg).pc ≠ .launch ∧
        (s.publish cfg).pc ≠ .update ∧
        (s.publish cfg).pc ≠ .record ∧
        (s.publish cfg).pc ≠ .publish ∧
        (s.publish cfg).pc.restored = false := by
    rcases hAfter with hGate | hNext
    · rw [hGate]
      simp [Submitter.restored]
    · rw [hNext]
      simp [Submitter.restored]
  rcases hPoint with
    ⟨hLaunch, hUpdate, hRecord, hPublish, hEnd⟩
  exact
    { completed := by unfold Pipeline.publish; split <;> rfl
      ready := absurd hPc
      task := fun hAt => absurd hAt hPublish
      launch := fun hAt => absurd hAt hLaunch
      update := fun hAt => absurd hAt hUpdate
      record := fun hAt => absurd hAt hRecord
      publish := fun hAt => absurd hAt hPublish
      restored := fun hAt => by cases hEnd.symm.trans hAt }

theorem enterGate (s : Pipeline) (last : Bool) :
    Flow s (s.enterGate last) := by
  unfold Pipeline.enterGate
  split
  · exact plain rfl rfl (by simp [Submitter.restored])
  · exact plain rfl rfl (by simp [Submitter.restored])

theorem openGate
    (cfg : PipelineConfig)
    (s : Pipeline)
    (last : Bool)
    (r : DocaError) :
    Flow s (s.openGate cfg last r) := by
  unfold Pipeline.openGate
  split
  · exact leave s r
  · split
    · cases last
      · exact plain rfl rfl (by simp [Submitter.restored])
      · exact plain rfl rfl (by simp [Submitter.restored])
    · cases last
      · exact afterBatch false rfl rfl
      · exact afterBatch true rfl rfl

theorem drain
    {last : Bool}
    {target : Nat}
    (hPc : s.pc = .drain last target) :
    Flow s (s.drain last target) := by
  unfold Pipeline.drain
  split
  · exact
      plain rfl rfl (by rw [hPc]; simp [Submitter.restored])
  · exact plain rfl rfl (by simp [Submitter.restored])

theorem leaveDrain
    (s : Pipeline)
    (last : Bool)
    (seen : DocaError) :
    Flow s (s.leaveDrain last seen) := by
  unfold Pipeline.leaveDrain
  split
  · exact plain rfl rfl (by simp [Submitter.restored])
  · split
    · exact leave s _
    · exact afterBatch last rfl rfl

end Flow

/- Every step of the submitter follows the flow. -/
theorem submit_flow
    {cfg : PipelineConfig}
    {s s' : Pipeline}
    {r : DocaError}
    (h : s.submit cfg r = some s') :
    Flow s s' := by
  cases submit_move h with
  | initialise => exact .initialise cfg s r _
  | loopTop => exact .enterTask cfg s
  | window hPc => exact .awaitWindow hPc
  | windowLeft hPc => exact .leaveWindow hPc
  | launch hPc => exact .launchKernel hPc r
  | update hPc => exact .updateEvent hPc r
  | record hPc => exact .writeRecord hPc
  | publish hPc => exact .publishRecord hPc
  | gate => exact .enterGate s _
  | openGate => exact .openGate cfg s _ r
  | drain hPc => exact .drain hPc
  | drained => exact .leaveDrain s _ _
  | raise =>
      exact
        .plain rfl rfl
          (by simp [raiseEvent, Submitter.restored])
  | drainTarget =>
      exact .plain rfl rfl (by simp [Submitter.restored])
  | nextTask =>
      exact
        .plain rfl rfl (by simp [nextTask, Submitter.restored])
  | finish =>
      exact
        .plain rfl rfl (by simp [finish, Submitter.restored])
  | restore hPc => exact .cleanup rfl rfl (.inl hPc) rfl
  | closing hPc | joinHeartbeat hPc | joinWorker hPc =>
      exact
        .cleanup rfl rfl (.inr (by rw [hPc]; rfl)) rfl

end Pipeline

end Drex

------------------------------------------------------------
-- The Invariant
------------------------------------------------------------

namespace Drex

open Drex.Core

namespace HighPriority

variable (s : HighPriority)

/- A reading of the interval. -/
def Within (reading : Nat) : Prop :=
  s.times.totalStart ≤ reading ∧ reading ≤ s.times.clock

/- When a task was over. -/
def endNs (i : Nat) : Nat :=
  s.times.startNs i + s.times.durationNs i

/- What the submitter knows of its last reading. -/
def TimesAt : Submitter → Prop
| .launch => s.Within s.times.taskStart
| .update => s.Within s.times.taskStart
| .record => s.Within s.times.taskStart
| .publish => s.Within (s.times.startNs s.pipeline.taskId)
| _ => True

end HighPriority

/-
  The recorded tasks began in the interval, the completed
  ones were over at some reading, and when the interval
  ended no more than the window was in flight.
-/
structure TimesSound
    (cfg : HighPriorityConfig)
    (s : HighPriority) : Prop where
  counts : PipelineCounts cfg.pipeline s.pipeline
  clock : s.times.clock < 2 ^ 64
  begun : s.times.totalStart ≤ s.times.clock
  started :
    ∀ i, i < s.pipeline.nextReady →
      s.Within (s.times.startNs i)
  ended :
    ∀ i, i < s.pipeline.completed →
      s.endNs i ≤ s.times.clock
  place : s.TimesAt s.pipeline.pc
  late :
    s.pipeline.pc.restored = true →
      ∃ done,
        done ≤ s.pipeline.completed ∧
          s.pipeline.nextReady ≤
            done + cfg.pipeline.window ∧
          ∀ i, i < done → s.endNs i ≤ s.times.totalEnd

namespace TimesSound

variable {cfg : HighPriorityConfig}
variable {s : HighPriority}

theorem start (cfg : HighPriorityConfig) :
    TimesSound cfg HighPriority.start :=
  { counts := .start cfg.pipeline
    clock := Nat.two_pow_pos 64
    begun := Nat.le_refl 0
    started := fun i hi => absurd hi (Nat.not_lt_zero i)
    ended := fun i hi => absurd hi (Nat.not_lt_zero i)
    place := trivial
    late := fun hPc => by cases hPc }

/- Time that passes keeps a reading in the interval. -/
theorem within_mono
    {s s' : HighPriority}
    {reading : Nat}
    (h : s.Within reading)
    (hStart : s'.times.totalStart = s.times.totalStart)
    (hClock : s.times.clock ≤ s'.times.clock) :
    s'.Within reading := by
  unfold HighPriority.Within at *
  omega

/- Where the submitter stays, it knows what it knew. -/
theorem place_same
    (h : TimesSound cfg s)
    {p : Pipeline}
    (hPc : p.pc = s.pipeline.pc)
    (hTask : p.taskId = s.pipeline.taskId)
    {now : Nat}
    (hNow : s.times.clock ≤ now) :
    HighPriority.TimesAt
      ⟨p, { s.times with clock := now }⟩ p.pc := by
  have hPlace := h.place
  rw [hPc]
  cases hAt : s.pipeline.pc with
  | launch | update | record =>
      rw [hAt] at hPlace
      exact within_mono hPlace rfl hNow
  | publish =>
      rw [hAt] at hPlace
      change
        HighPriority.Within _ (s.times.startNs p.taskId)
      rw [hTask]
      exact within_mono hPlace rfl hNow
  | _ => trivial

/- A step that stores no reading and counts nothing. -/
theorem idle
    (h : TimesSound cfg s)
    {p : Pipeline}
    (hCounts : PipelineCounts cfg.pipeline p)
    (hReady : p.nextReady = s.pipeline.nextReady)
    (hCompleted : p.completed = s.pipeline.completed)
    {now : Nat}
    (hNow : s.times.clock ≤ now)
    (hLt : now < 2 ^ 64)
    (hPlace :
      HighPriority.TimesAt
        ⟨p, { s.times with clock := now }⟩ p.pc)
    (hRestored :
      p.pc.restored = true →
        s.pipeline.pc.restored = true) :
    TimesSound cfg
      { pipeline := p, times := { s.times with clock := now } } :=
  { counts := hCounts
    clock := hLt
    begun := Nat.le_trans h.begun hNow
    started := fun i hi =>
      within_mono (h.started i (hReady ▸ hi)) rfl hNow
    ended := fun i hi =>
      Nat.le_trans (h.ended i (hCompleted ▸ hi)) hNow
    place := hPlace
    late := fun hEnd => by
      dsimp only
      rw [hReady, hCompleted]
      exact h.late (hRestored hEnd) }

/- Such a step of another thread than the submitter. -/
theorem aside
    (h : TimesSound cfg s)
    {p : Pipeline}
    (hCounts : PipelineCounts cfg.pipeline p)
    (hReady : p.nextReady = s.pipeline.nextReady)
    (hCompleted : p.completed = s.pipeline.completed)
    (hPc : p.pc = s.pipeline.pc)
    (hTask : p.taskId = s.pipeline.taskId)
    {now : Nat}
    (hNow : s.times.clock ≤ now)
    (hLt : now < 2 ^ 64) :
    TimesSound cfg
      { pipeline := p
        times := { s.times with clock := now } } := by
  refine
    h.idle hCounts hReady hCompleted hNow hLt
      (h.place_same hPc hTask hNow) fun hEnd => ?_
  rw [← hPc]
  exact hEnd

/- A look for a record changes no count and no time. -/
theorem takeRecord
    (h : TimesSound cfg s)
    (hCounts :
      PipelineCounts cfg.pipeline s.pipeline.takeRecord)
    {now : Nat}
    (hNow : s.times.clock ≤ now)
    (hLt : now < 2 ^ 64) :
    TimesSound cfg
      { pipeline := s.pipeline.takeRecord
        times := { s.times with clock := now } } := by
  unfold Pipeline.takeRecord at hCounts ⊢
  split at hCounts
  case isTrue hNone =>
    rw [if_pos hNone]
    split at hCounts
    case isTrue hOpen =>
      rw [if_pos hOpen]
      exact h.aside hCounts rfl rfl rfl rfl hNow hLt
    case isFalse hOpen =>
      rw [if_neg hOpen]
      exact h.aside hCounts rfl rfl rfl rfl hNow hLt
  case isFalse hNone =>
    rw [if_neg hNone]
    exact h.aside hCounts rfl rfl rfl rfl hNow hLt

/- The oldest task is over now, and the others when they were. -/
theorem endNs_completes
    {value : Nat}
    (hWaits :
      s.pipeline.worker = .waiting s.pipeline.completed value)
    {now : Nat}
    (hBegan : s.times.startNs s.pipeline.completed ≤ now)
    (hLt : now < 2 ^ 64)
    (p : Pipeline)
    (i : Nat) :
    HighPriority.endNs
        ⟨p,
          { s.times.work s.pipeline now .success with
            clock := now }⟩ i =
      if i = s.pipeline.completed then now else s.endNs i := by
  have hSpan :
      wrapSub 64 now (s.times.startNs s.pipeline.completed) =
        now - s.times.startNs s.pipeline.completed :=
    wrapSub_of_le hBegan hLt
  simp only [HighPriority.endNs, LaunchTimes.work, hWaits,
    if_true]
  by_cases hOldest : i = s.pipeline.completed
  · subst hOldest
    rw [if_pos rfl, Function.update_self, hSpan]
    omega
  · rw [if_neg hOldest, Function.update_of_ne hOldest]

/- The oldest task is over, and its record has its time. -/
theorem completes
    (h : TimesSound cfg s)
    {value : Nat}
    (hWaits :
      s.pipeline.worker = .waiting s.pipeline.completed value)
    (hCounts :
      PipelineCounts cfg.pipeline
        (s.pipeline.waited .success))
    (hRead : s.pipeline.completed < s.pipeline.nextReady)
    {now : Nat}
    (hNow : s.times.clock ≤ now)
    (hLt : now < 2 ^ 64) :
    TimesSound cfg
      { pipeline := s.pipeline.waited .success
        times :=
          { s.times.work s.pipeline now .success with
            clock := now } } := by
  have hReadyLt := h.counts.nextReady_lt
  have hNext :
      (s.pipeline.waited .success).completed =
        s.pipeline.completed + 1 :=
    wrap_of_lt (by omega)
  have hBegan :
      s.times.startNs s.pipeline.completed ≤ now :=
    Nat.le_trans (h.started _ hRead).2 hNow
  have hEnds :=
    endNs_completes hWaits hBegan hLt
      (s.pipeline.waited .success)
  have hKept :
      (s.times.work s.pipeline now .success).startNs =
          s.times.startNs ∧
        (s.times.work s.pipeline now .success).totalStart =
          s.times.totalStart ∧
        (s.times.work s.pipeline now .success).totalEnd =
          s.times.totalEnd ∧
        (s.times.work s.pipeline now .success).taskStart =
          s.times.taskStart := by
    simp [LaunchTimes.work, hWaits]
  rcases hKept with ⟨hStarts, hTotal, hTotalEnd, hTask⟩
  refine
    { counts := hCounts
      clock := hLt
      begun := ?_
      started := fun i hi => ?_
      ended := fun i hi => ?_
      place := ?_
      late := fun hEnd => ?_ }
  · dsimp only
    rw [hTotal]
    exact Nat.le_trans h.begun hNow
  · dsimp only
    rw [hStarts]
    exact within_mono (h.started i hi) hTotal hNow
  · rw [hEnds i]
    split
    · exact Nat.le_refl now
    · -- The tasks below the oldest keep their ends.
      dsimp only at hi ⊢
      rw [hNext] at hi
      exact Nat.le_trans (h.ended i (by omega)) hNow
  · have hPlace := h.place
    dsimp only
    change HighPriority.TimesAt _ s.pipeline.pc
    cases hPc : s.pipeline.pc with
    | launch | update | record =>
        rw [hPc] at hPlace
        simp only [HighPriority.TimesAt, hTask]
        exact within_mono hPlace hTotal hNow
    | publish =>
        rw [hPc] at hPlace
        simp only [HighPriority.TimesAt, hStarts]
        exact within_mono hPlace hTotal hNow
    | _ => trivial
  · rcases h.late hEnd with ⟨done, hDone, hFew, hOver⟩
    refine ⟨done, ?_, hFew, fun i hi => ?_⟩
    · dsimp only
      rw [hNext]
      exact Nat.le_succ_of_le hDone
    · have hOther : i ≠ s.pipeline.completed := by
        omega
      rw [hEnds i, if_neg hOther, hTotalEnd]
      exact hOver i hi

/- The worker completes the oldest task, and times it. -/
theorem work
    (h : TimesSound cfg s)
    {r : DocaError}
    {p : Pipeline}
    (hStep : s.pipeline.work r = some p)
    {now : Nat}
    (hNow : s.times.clock ≤ now)
    (hLt : now < 2 ^ 64) :
    TimesSound cfg
      { pipeline := p
        times :=
          { s.times.work s.pipeline now r with
            clock := now } } := by
  have hCounts := h.counts.work hStep
  have hWorker := h.counts.worker
  have hReads := h.counts.nextToWait_le
  rw [Pipeline.work] at hStep
  cases hAt : s.pipeline.worker with
  | absent =>
      rw [hAt] at hStep
      cases hStep
  | exited =>
      rw [hAt] at hStep
      cases hStep
  | idle =>
      rw [hAt] at hStep
      have hTimes : s.times.work s.pipeline now r = s.times := by
        rw [LaunchTimes.work, hAt]
      rw [hTimes]
      obtain rfl := Option.some.inj hStep
      exact h.takeRecord hCounts hNow hLt
  | reading i =>
      rw [hAt] at hStep
      have hTimes : s.times.work s.pipeline now r = s.times := by
        rw [LaunchTimes.work, hAt]
      rw [hTimes]
      obtain rfl := Option.some.inj hStep
      exact h.aside hCounts rfl rfl rfl rfl hNow hLt
  | waiting i value =>
      rw [hAt] at hStep hWorker
      rcases hWorker with ⟨rfl, hWaits⟩
      obtain rfl := Option.some.inj hStep
      by_cases hSuccess : r = .success
      · subst hSuccess
        have hRead :
            s.pipeline.completed < s.pipeline.nextReady := by
          omega
        exact h.completes hAt hCounts hRead hNow hLt
      · have hTimes :
            s.times.work s.pipeline now r = s.times := by
          rw [LaunchTimes.work, hAt]
          exact if_neg hSuccess
        rw [hTimes]
        unfold Pipeline.waited at hCounts ⊢
        rw [if_neg hSuccess] at hCounts ⊢
        exact h.aside hCounts rfl rfl rfl rfl hNow hLt

/- Readings of tasks move on with the submitter. -/
theorem place_submit
    (h : TimesSound cfg s)
    {p : Pipeline}
    (hFlow : Pipeline.Flow s.pipeline p)
    {now : Nat}
    (hNow : s.times.clock ≤ now) :
    HighPriority.TimesAt
      ⟨p,
        { s.times.submit s.pipeline now with clock := now }⟩
      p.pc := by
  have hPlace := h.place
  have hBegun := h.begun
  cases hPc : p.pc with
  | launch =>
      rcases hFlow.launch hPc with ⟨hFrom, hStop⟩
      simp only [HighPriority.TimesAt, HighPriority.Within,
        LaunchTimes.submit, hFrom, hStop]
      simp
      omega
  | update =>
      have hFrom := hFlow.update hPc
      rw [hFrom] at hPlace
      simp only [HighPriority.TimesAt, LaunchTimes.submit,
        hFrom]
      exact within_mono hPlace rfl hNow
  | record =>
      rcases hFlow.record hPc with hFrom | hFrom
      · rw [hFrom] at hPlace
        simp only [HighPriority.TimesAt, LaunchTimes.submit,
          hFrom]
        exact within_mono hPlace rfl hNow
      · rw [hFrom] at hPlace
        simp only [HighPriority.TimesAt, LaunchTimes.submit,
          hFrom]
        exact within_mono hPlace rfl hNow
  | publish =>
      have hFrom := hFlow.publish hPc
      rw [hFrom] at hPlace
      simp only [HighPriority.TimesAt, LaunchTimes.submit,
        hFrom, hFlow.task hPc, Function.update_self]
      exact within_mono hPlace rfl hNow
  | _ => trivial

/- What becomes of the stored readings. -/
structure Stored
    (s : HighPriority)
    (now : Nat) : Prop where
  durationNs :
    (s.times.submit s.pipeline now).durationNs =
      s.times.durationNs
  totalStart :
    s.pipeline.nextReady ≠ 0 →
      (s.times.submit s.pipeline now).totalStart =
        s.times.totalStart
  startNs :
    ∀ i, i < s.pipeline.nextReady →
      (s.times.submit s.pipeline now).startNs i =
        s.times.startNs i

theorem stored (h : TimesSound cfg s) (now : Nat) :
    Stored s now := by
  have hAt := h.counts.place
  cases hPc : s.pipeline.pc with
  | initialise stage =>
      rw [hPc] at hAt
      cases stage with
      | heartbeat =>
          constructor
          · simp only [LaunchTimes.submit, hPc]
          · exact fun hSome => absurd hAt.1 hSome
          · simp [LaunchTimes.submit, hPc]
      | _ =>
          constructor
          all_goals simp [LaunchTimes.submit, hPc]
  | windowLeft =>
      cases hStop : s.pipeline.stop with
      | false | true =>
          constructor
          all_goals simp [LaunchTimes.submit, hPc, hStop]
  | record =>
      rw [hPc] at hAt
      have hTask := hAt.1.1
      constructor
      · simp only [LaunchTimes.submit, hPc]
      · simp [LaunchTimes.submit, hPc]
      · -- The record that is written is not ready yet.
        intro i hi
        simp only [LaunchTimes.submit, hPc]
        exact Function.update_of_ne (by omega) _ _
  | _ =>
      constructor
      all_goals simp [LaunchTimes.submit, hPc]

theorem submit_begun
    (h : TimesSound cfg s)
    {now : Nat}
    (hNow : s.times.clock ≤ now) :
    (s.times.submit s.pipeline now).totalStart ≤ now := by
  have hOld := Nat.le_trans h.begun hNow
  unfold LaunchTimes.submit
  split
  · exact Nat.le_refl now
  · split
    · exact hOld
    · exact hOld
  · exact hOld
  · exact hOld
  · exact hOld

/- The readings of the tasks that were ready stay. -/
theorem submit_within
    (h : TimesSound cfg s)
    (p : Pipeline)
    {now : Nat}
    (hNow : s.times.clock ≤ now)
    {i : Nat}
    (hi : i < s.pipeline.nextReady) :
    HighPriority.Within
      ⟨p,
        { s.times.submit s.pipeline now with clock := now }⟩
      ((s.times.submit s.pipeline now).startNs i) := by
  have hStored := h.stored now
  rw [hStored.startNs i hi]
  exact
    within_mono (h.started i hi)
      (hStored.totalStart (by omega)) hNow

theorem submit_endNs
    (h : TimesSound cfg s)
    (p : Pipeline)
    (now : Nat)
    {i : Nat}
    (hi : i < s.pipeline.nextReady) :
    HighPriority.endNs
        ⟨p,
          { s.times.submit s.pipeline now with
            clock := now }⟩ i =
      s.endNs i := by
  have hStored := h.stored now
  unfold HighPriority.endNs
  dsimp only
  rw [hStored.durationNs, hStored.startNs i hi]

/- The task that is published was just recorded. -/
theorem submit_started
    (h : TimesSound cfg s)
    {r : DocaError}
    {p : Pipeline}
    (hStep : s.pipeline.submit cfg.pipeline r = some p)
    {now : Nat}
    (hNow : s.times.clock ≤ now)
    {i : Nat}
    (hi : i < p.nextReady) :
    HighPriority.Within
      ⟨p,
        { s.times.submit s.pipeline now with clock := now }⟩
      ((s.times.submit s.pipeline now).startNs i) := by
  by_cases hPublish : s.pipeline.pc = .publish
  · have hAt := h.counts.place
    have hOld := h.place
    rw [hPublish] at hAt hOld
    have hTask := hAt.1.1
    have hNext :
        wrap 32 (s.pipeline.nextReady + 1) =
          s.pipeline.nextReady + 1 :=
      wrap_of_lt (by
        have hMany := cfg.pipeline.mTasks_lt
        have hLess := hAt.1.2
        omega)
    have hReady :
        p.nextReady = s.pipeline.nextReady + 1 := by
      rw [Pipeline.submit, hPublish] at hStep
      rw [← Option.some.inj hStep]
      exact hNext
    by_cases hNew : i = s.pipeline.nextReady
    · subst hNew
      have hHere :
          s.Within (s.times.startNs s.pipeline.nextReady) := by
        rw [hTask]
        exact hOld
      have hSame :
          s.times.submit s.pipeline now = s.times := by
        simp only [LaunchTimes.submit, hPublish]
      rw [hSame]
      exact within_mono hHere rfl hNow
    · exact h.submit_within p hNow (by omega)
  · rw [(Pipeline.submit_flow hStep).ready hPublish] at hi
    exact h.submit_within p hNow hi

/- After the total was taken, no reading is stored. -/
theorem submit_eq_of_restored
    (hRestored : s.pipeline.pc.restored = true)
    (now : Nat) :
    s.times.submit s.pipeline now = s.times := by
  unfold LaunchTimes.submit
  split
  case h_5 => rfl
  all_goals
    rename_i hPc
    rw [hPc] at hRestored
    cases hRestored

/-
  The tasks that are over when the total is taken end before
  it, and the others are in flight.
-/
theorem submit_late
    (h : TimesSound cfg s)
    {r : DocaError}
    {p : Pipeline}
    (hStep : s.pipeline.submit cfg.pipeline r = some p)
    {now : Nat}
    (hNow : s.times.clock ≤ now)
    (hEnd : p.pc.restored = true) :
    ∃ done,
      done ≤ p.completed ∧
        p.nextReady ≤ done + cfg.pipeline.window ∧
        ∀ i, i < done →
          HighPriority.endNs
              ⟨p,
                { s.times.submit s.pipeline now with
                  clock := now }⟩ i ≤
            (s.times.submit s.pipeline now).totalEnd := by
  have hFlow := Pipeline.submit_flow hStep
  have hFrom := hFlow.restored hEnd
  have hWaited := h.counts.completed_le
  have hRead := h.counts.nextToWait_le
  have hNotPublish : s.pipeline.pc ≠ .publish := by
    intro hPublish
    rw [hPublish] at hFrom
    rcases hFrom with hNo | hNo
    · cases hNo
    · cases hNo
  rw [hFlow.completed, hFlow.ready hNotPublish]
  rcases hFrom with hRestore | hRestored
  · refine
      ⟨s.pipeline.completed, Nat.le_refl _,
        h.counts.inFlight, ?_⟩
    intro i hi
    rw [h.submit_endNs p now (by omega)]
    simp only [LaunchTimes.submit, hRestore]
    exact Nat.le_trans (h.ended i hi) hNow
  · rcases h.late hRestored with ⟨done, hDone, hWindow, hOver⟩
    refine ⟨done, hDone, hWindow, fun i hi => ?_⟩
    rw [h.submit_endNs p now (by omega),
      submit_eq_of_restored hRestored now]
    exact hOver i hi

/- A step of the submitter, and what it stores. -/
theorem submit
    (h : TimesSound cfg s)
    {r : DocaError}
    {p : Pipeline}
    (hStep : s.pipeline.submit cfg.pipeline r = some p)
    {now : Nat}
    (hNow : s.times.clock ≤ now)
    (hLt : now < 2 ^ 64) :
    TimesSound cfg
      { pipeline := p
        times :=
          { s.times.submit s.pipeline now with
            clock := now } } := by
  have hFlow := Pipeline.submit_flow hStep
  have hWaited := h.counts.completed_le
  have hRead := h.counts.nextToWait_le
  refine
    { counts := h.counts.submit hStep
      clock := hLt
      begun := h.submit_begun hNow
      started := fun i hi => h.submit_started hStep hNow hi
      ended := fun i hi => ?_
      place := h.place_submit hFlow hNow
      late := fun hEnd => h.submit_late hStep hNow hEnd }
  dsimp only at hi ⊢
  rw [hFlow.completed] at hi
  rw [h.submit_endNs p now (by omega)]
  exact Nat.le_trans (h.ended i hi) hNow

/- One step of the process, at a reading of the clock. -/
theorem step
    (h : TimesSound cfg s)
    {e : PipelineEvent × Nat}
    {s' : HighPriority}
    (hStep : HighPriority.step cfg s e = some s') :
    TimesSound cfg s' := by
  rcases e with ⟨e, now⟩
  unfold HighPriority.step at hStep
  split at hStep
  case isFalse => cases hStep
  case isTrue hClock =>
    rcases Option.map_eq_some_iff.mp hStep with
      ⟨p, hPipeline, rfl⟩
    have hCounts := h.counts.step hPipeline
    rcases hClock with ⟨hNow, hLt⟩
    cases e with
    | submit r => exact h.submit hPipeline hNow hLt
    | work r => exact h.work hPipeline hNow hLt
    | stop =>
        rw [Pipeline.step] at hPipeline
        split at hPipeline
        · obtain rfl := Option.some.inj hPipeline
          exact h.aside hCounts rfl rfl rfl rfl hNow hLt
        · cases hPipeline
    | indeterminate read =>
        rw [Pipeline.step, Pipeline.joinIndeterminate]
          at hPipeline
        split at hPipeline
        case isFalse => cases hPipeline
        case isTrue hRead =>
          have hRestored :
              s.pipeline.pc.restored = true := by
            rw [hRead.1]
            rfl
          split at hPipeline
          · obtain rfl := Option.some.inj hPipeline
            exact
              h.idle hCounts rfl rfl hNow hLt trivial
                fun _ => hRestored
          · obtain rfl := Option.some.inj hPipeline
            exact
              h.idle hCounts rfl rfl hNow hLt trivial
                fun _ => hRestored
    | beat =>
        rcases Pipeline.beat_eq hPipeline with
          ⟨hb, _, _, rfl⟩
        exact h.aside hCounts rfl rfl rfl rfl hNow hLt

end TimesSound

end Drex

------------------------------------------------------------
-- The Summary
------------------------------------------------------------

namespace Drex

open Drex.Core

/- The indices stay below the number of tasks. -/
theorem percentileIndex_lt
    {completed percent : Nat}
    (hSome : completed ≠ 0)
    (hPercent : percent < 100) :
    percentileIndex completed percent < completed := by
  have hWrap :
      wrap 32 ((completed - 1) * percent) ≤
        (completed - 1) * percent :=
    Nat.mod_le _ _
  have hScale :
      (completed - 1) * percent ≤ (completed - 1) * 99 :=
    Nat.mul_le_mul_left _ (by omega)
  unfold percentileIndex
  omega

/- Where no product wraps, they are the exact ones. -/
theorem percentileIndex_eq
    {completed percent : Nat}
    (hFits : (completed - 1) * 99 < 2 ^ 32)
    (hPercent : percent < 100) :
    percentileIndex completed percent =
      (completed - 1) * percent / 100 := by
  have hScale :
      (completed - 1) * percent ≤ (completed - 1) * 99 :=
    Nat.mul_le_mul_left _ (by omega)
  unfold percentileIndex
  rw [wrap_of_lt (Nat.lt_of_le_of_lt hScale hFits)]

/-
  So many of the values are up to this one, and the rest of
  them from it on.
-/
structure Percentile
    (values : List Nat)
    (percent value : Nat) : Prop where
  among : value ∈ values
  below :
    percent * (values.length - 1) <
      100 * values.countP (fun v => decide (v ≤ value))
  above :
    100 * values.length ≤
      percent * (values.length - 1) +
        100 * values.countP (fun v => decide (value ≤ v))

/- The sum of the loop, in numbers of 64 bits. -/
theorem foldl_wrap_range
    (f : Nat → Nat)
    (n : Nat) :
    ((List.range n).map f).foldl
        (fun sum d => wrap 64 (sum + d)) 0 =
      wrap 64 (∑ i ∈ Finset.range n, f i) := by
  induction n with
  | zero => rfl
  | succ n ih =>
      rw [List.range_succ, List.map_append, List.foldl_append,
        ih, Finset.sum_range_succ]
      exact Nat.mod_add_mod _ _ _

/- The durations of the completed tasks. -/
def HighPriority.durations (s : HighPriority) : List Nat :=
  (List.range s.pipeline.completed).map s.times.durationNs

/-
  What the line says: it counts the completed tasks, each of
  which was in the interval from its start on, and at most a
  window of which were over after it.
-/
structure SummarySound
    (cfg : HighPriorityConfig)
    (s : HighPriority)
    (line : Summary) : Prop where
  completed : line.completed = s.pipeline.completed
  tasks : line.completed ≤ cfg.pipeline.mTasks
  elapsed :
    line.elapsedNs + s.times.totalStart = s.times.totalEnd
  timed :
    ∀ i, i < line.completed →
      s.times.totalStart ≤ s.times.startNs i ∧
        s.endNs i ≤ s.times.clock
  late :
    (List.range line.completed).countP
        (fun i => decide (s.times.totalEnd < s.endNs i)) ≤
      cfg.pipeline.window
  sum :
    line.sumNs =
      wrap 64
        (∑ i ∈ Finset.range line.completed,
          s.times.durationNs i)
  least : ∀ d ∈ s.durations, line.min ≤ d
  most : ∀ d ∈ s.durations, d ≤ line.max
  among :
    line.min ∈ s.durations ∧ line.max ∈ s.durations ∧
      line.p95 ∈ s.durations ∧ line.p99 ∈ s.durations
  median : Percentile s.durations 50 line.p50
  percentiles :
    (line.completed - 1) * 99 < 2 ^ 32 →
      Percentile s.durations 95 line.p95 ∧
        Percentile s.durations 99 line.p99 ∧
        line.p50 ≤ line.p95 ∧ line.p95 ≤ line.p99

/- Few of the first numbers are at least a bound. -/
theorem countP_range_le
    {p : Nat → Bool}
    {n bound : Nat}
    (h : ∀ i, i < bound → p i = false) :
    (List.range n).countP p ≤ n - bound := by
  induction n with
  | zero => exact Nat.zero_le _
  | succ n ih =>
      rw [List.range_succ, List.countP_append,
        List.countP_singleton]
      by_cases hBound : n < bound
      · rw [h n hBound]
        simp only [Bool.false_eq_true, if_false]
        omega
      · split <;> omega

theorem TimesSound.late_le
    {cfg : HighPriorityConfig}
    {s : HighPriority}
    (h : TimesSound cfg s)
    (hPc : s.pipeline.pc.restored = true) :
    (List.range s.pipeline.completed).countP
        (fun i => decide (s.times.totalEnd < s.endNs i)) ≤
      cfg.pipeline.window := by
  rcases h.late hPc with ⟨done, hDone, hFew, hEnds⟩
  have hSecond := h.counts.completed_le
  have hThird := h.counts.nextToWait_le
  have hCount :
      (List.range s.pipeline.completed).countP
          (fun i => decide (s.times.totalEnd < s.endNs i)) ≤
        s.pipeline.completed - done := by
    refine countP_range_le fun i hi => ?_
    exact decide_eq_false (Nat.not_lt.mpr (hEnds i hi))
  omega

/- The value at an index of the sorted durations. -/
theorem ranked_getD
    {values : List Nat}
    {index : Nat}
    (hIndex : index < values.length) :
    Ranked values index
      ((values.insertionSort (· ≤ ·)).getD index 0) := by
  have hLength :
      index < (values.insertionSort (· ≤ ·)).length := by
    rw [List.length_insertionSort]
    exact hIndex
  rw [List.getD_eq_getElem _ _ hLength]
  exact ranked_insertionSort hLength

theorem getD_mono
    {values : List Nat}
    {i j : Nat}
    (hLe : i ≤ j)
    (hj : j < values.length) :
    (values.insertionSort (· ≤ ·)).getD i 0 ≤
      (values.insertionSort (· ≤ ·)).getD j 0 := by
  have hLength :
      j < (values.insertionSort (· ≤ ·)).length := by
    rw [List.length_insertionSort]
    exact hj
  rw [List.getD_eq_getElem _ _ (Nat.lt_of_le_of_lt hLe hLength),
    List.getD_eq_getElem _ _ hLength]
  exact insertionSort_getElem_mono hLe hLength

theorem percentile_of_ranked
    {values : List Nat}
    {percent index value : Nat}
    (h : Ranked values index value)
    (hIndex :
      index = (values.length - 1) * percent / 100) :
    Percentile values percent value := by
  have hBelow := h.below
  have hAbove := h.above
  have hComm :
      (values.length - 1) * percent =
        percent * (values.length - 1) :=
    Nat.mul_comm _ _
  refine ⟨h.among, ?_, ?_⟩
  · omega
  · omega

/-
  What `kernel_launch` prints in the end is true of its run,
  whatever failed in it and whenever it was stopped.
-/
theorem summary_sound
    {cfg : HighPriorityConfig}
    {s : HighPriority}
    (h : Reaches (HighPriority.step cfg) HighPriority.start s)
    (hPc : s.pipeline.pc = .returned)
    {line : Summary}
    (hLine : s.summary cfg = some line) :
    SummarySound cfg s line := by
  have hSound : TimesSound cfg s := by
    refine Reaches.invariant (.start cfg) ?_ h
    intro s e s' hHere hStep
    exact hHere.step hStep
  have hRestored : s.pipeline.pc.restored = true := by
    rw [hPc]
    rfl
  have hFirst := hSound.counts.completed_le
  have hSecond := hSound.counts.nextToWait_le
  have hThird := hSound.counts.nextReady_le
  have hLength : s.durations.length = s.pipeline.completed := by
    unfold HighPriority.durations
    rw [List.length_map, List.length_range]
  unfold HighPriority.summary printSummary at hLine
  split at hLine
  case isTrue => cases hLine
  case isFalse hSome =>
    obtain rfl := Option.some.inj hLine
    have hNonzero : s.pipeline.completed ≠ 0 :=
      fun hZero => hSome (Or.inl hZero)
    have hRank :
        ∀ {index : Nat}, index < s.pipeline.completed →
          Ranked s.durations index
            ((s.durations.insertionSort (· ≤ ·)).getD
              index 0) :=
      fun hIndex => ranked_getD (by rw [hLength]; exact hIndex)
    have hMono :
        ∀ {i j : Nat}, i ≤ j → j < s.pipeline.completed →
          (s.durations.insertionSort (· ≤ ·)).getD i 0 ≤
            (s.durations.insertionSort (· ≤ ·)).getD j 0 :=
      fun hLe hj => getD_mono hLe (by rw [hLength]; exact hj)
    have hLess :
        ∀ {percent : Nat}, percent < 100 →
          percentileIndex s.pipeline.completed percent <
            s.pipeline.completed :=
      fun hPercent => percentileIndex_lt hNonzero hPercent
    -- Each duration stands somewhere in the sorted list.
    have hPlace :
        ∀ d ∈ s.durations, ∃ i,
          i < s.pipeline.completed ∧
            (s.durations.insertionSort (· ≤ ·)).getD i 0 =
              d := by
      intro d hMem
      have hSorted :
          d ∈ s.durations.insertionSort (· ≤ ·) :=
        (List.mem_insertionSort (· ≤ ·)).mpr hMem
      rcases List.mem_iff_getElem.mp hSorted with
        ⟨i, hi, hEq⟩
      have hHere := hi
      rw [List.length_insertionSort, hLength] at hHere
      exact
        ⟨i, hHere, (List.getD_eq_getElem _ _ hi).trans hEq⟩
    have hReady :
        s.pipeline.completed ≤ s.pipeline.nextReady := by
      omega
    have hFew :
        s.pipeline.completed ≤ cfg.pipeline.mTasks := by
      omega
    have hOrder :
        ¬ s.times.totalEnd ≤ s.times.totalStart :=
      fun hEnd => hSome (Or.inr hEnd)
    have hZero : 0 < s.pipeline.completed := by
      omega
    have hMiddle :
        (s.pipeline.completed - 1) / 2 <
          s.pipeline.completed := by
      omega
    have hLast :
        s.pipeline.completed - 1 < s.pipeline.completed := by
      omega
    refine
      { completed := rfl
        tasks := hFew
        elapsed := Nat.sub_add_cancel (by omega)
        timed := fun i hi =>
          ⟨(hSound.started i (Nat.lt_of_lt_of_le hi hReady)).1,
            hSound.ended i hi⟩
        late := hSound.late_le hRestored
        sum := foldl_wrap_range _ _
        least := fun d hMem => ?_
        most := fun d hMem => ?_
        among :=
          ⟨(hRank hZero).among, (hRank hLast).among,
            (hRank (hLess (by decide))).among,
            (hRank (hLess (by decide))).among⟩
        median := percentile_of_ranked (hRank hMiddle) ?_
        percentiles := fun hFits => ?_ }
    · rcases hPlace d hMem with ⟨i, hi, rfl⟩
      exact hMono (Nat.zero_le i) hi
    · rcases hPlace d hMem with ⟨i, hi, rfl⟩
      exact hMono (Nat.le_sub_one_of_lt hi) hLast
    · rw [hLength]
      omega
    · have hFirstIndex :=
        percentileIndex_eq hFits (by decide : 95 < 100)
      have hSecondIndex :=
        percentileIndex_eq hFits (by decide : 99 < 100)
      refine
        ⟨percentile_of_ranked (hRank (hLess (by decide))) ?_,
          percentile_of_ranked (hRank (hLess (by decide))) ?_,
          hMono ?_ (hLess (by decide)),
          hMono ?_ (hLess (by decide))⟩
      · rw [hLength]
        exact hFirstIndex
      · rw [hLength]
        exact hSecondIndex
      · dsimp only at hFirstIndex
        omega
      · dsimp only at hFirstIndex hSecondIndex
        omega

/- A run of three tasks, with a wait that is over late. -/
def threeTasksRun : List (PipelineEvent × Nat) :=
  (List.replicate 7 (.submit .success)).map (·, 10) ++
    (List.replicate 16 (.submit .success)).map (·, 20) ++
    (List.replicate 3 (.work .success)).map (·, 25) ++
    (List.replicate 12 (.submit .success)).map (·, 30) ++
    (List.replicate 7 (.work .success)).map (·, 40) ++
    (List.replicate 2 (.submit .success)).map (·, 50)

/- Two of its tasks are over after the interval. -/
theorem summary_sound_late :
    ∃ (s : HighPriority) (line : Summary),
      line.completed = 3 ∧ line.elapsedNs = 20 ∧
        SummarySound threeTasks s line := by
  have hRun :
      (runLabels (HighPriority.step threeTasks)
          threeTasksRun HighPriority.start).any
        (fun s =>
          (s.summary threeTasks).any
            (fun line =>
              decide
                (s.pipeline.pc = .returned ∧
                  line.completed = 3 ∧
                    line.elapsedNs = 20))) =
        true := by
    decide +kernel
  rcases reaches_of_any hRun with ⟨s, hReach, hCheck⟩
  rcases (Option.any_eq_true _ _).mp hCheck with
    ⟨line, hLine, hAll⟩
  rcases of_decide_eq_true hAll with
    ⟨hPc, hCompleted, hElapsed⟩
  exact
    ⟨s, line, hCompleted, hElapsed,
      summary_sound hReach hPc hLine⟩

end Drex
