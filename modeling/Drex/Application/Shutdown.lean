import Drex.Application.Window

/-
  The cleanup section of the low-priority driver.

  `JoinsSound` says that the threads that are joined are
  those that were started, and that each can finish.  It
  holds in a run whose steps all meet `Pipeline.ordered`,
  and fails without it.

  Key definitions include:
    * `Pipeline.ordered`
    * `JoinsSound`
    * `PipelineOrder`

  Key theorems include:
    * `PipelineOrder.submit`
    * `Draining.ends`
    * `cleanup_joins`
-/

------------------------------------------------------------
-- Joins
------------------------------------------------------------

namespace Drex

open Drex.Core

/- The handlers for the stop signals were put back. -/
def Submitter.restored : Submitter → Bool
| .closing => true
| .joinWorker => true
| .joinHeartbeat => true
| .returned => true
| .undefined => true
| _ => false

namespace Pipeline

/- The steps of a worker whose waits return. -/
def returns (s : Pipeline) : PipelineEvent → Bool
| .work r =>
    decide (r = .success) &&
      match s.worker with
      | .waiting i _ => s.opened i
      | _ => true
| _ => false

/- The steps of the heartbeat. -/
def beats (_ : Pipeline) : PipelineEvent → Bool
| .beat => true
| _ => false

end Pipeline

/-
  The cleanup section joins the threads that were started.
  A worker that is joined and still runs waits for kernels
  that were let go only, a heartbeat that is joined meets a
  condition of its loop, and both reach their end.
-/
structure JoinsSound
    (cfg : PipelineConfig)
    (s : Pipeline) : Prop where
  defined : s.pc ≠ .undefined
  started :
    s.pc.cleaning = true →
      s.workerStarted = decide (s.worker ≠ .absent) ∧
        s.heartbeatStarted =
          some (decide (s.heartbeat ≠ .absent))
  letGo :
    s.pc = .joinWorker → s.workerStarted = true →
      s.worker = .exited ∨
        s.accepting = false ∧
          ∀ i, i < s.nextReady → s.opened i = true
  workerEnds :
    s.pc = .joinWorker → s.workerStarted = true →
      ∃ s',
        Reaches
            (guarded Pipeline.returns (Pipeline.step cfg))
            s s' ∧
          s'.worker = .exited
  left :
    s.pc = .joinHeartbeat →
      s.heartbeatStarted = some true →
        s.stop = true ∨ s.allCompleted cfg = true
  heartbeatEnds :
    s.pc = .joinHeartbeat →
      s.heartbeatStarted = some true →
        ∃ s',
          Reaches
              (guarded Pipeline.beats (Pipeline.step cfg))
              s s' ∧
            s'.heartbeat = .exited

end Drex

------------------------------------------------------------
-- Ends Of The Threads
------------------------------------------------------------

namespace Drex

open Drex.Core

/- The worker has only kernels left that were let go. -/
structure Draining
    (cfg : PipelineConfig)
    (s : Pipeline) : Prop where
  counts : PipelineCounts cfg s
  opened : s.AllOpened
  closed : s.accepting = false

/- What the worker has left to do, at most. -/
def Pipeline.stepsLeft (s : Pipeline) : Nat :=
  match s.worker with
  | .idle => 3 * (s.nextReady - s.nextToWait) + 1
  | .reading _ => 3 * (s.nextReady - s.nextToWait) + 3
  | .waiting _ _ => 3 * (s.nextReady - s.nextToWait) + 2
  | _ => 0

namespace Draining

variable {cfg : PipelineConfig} {s : Pipeline}

/- A step of a worker whose wait returns. -/
theorem next
    (h : Draining cfg s)
    {s' : Pipeline}
    (hStep : s.work .success = some s')
    (hReturns : s.returns (.work .success) = true)
    (hSame : s'.accepting = s.accepting) :
    Draining cfg s' ∧
      Reaches (guarded Pipeline.returns (Pipeline.step cfg))
        s s' := by
  have hCounts := h.counts.work hStep
  have hGuarded :
      guarded Pipeline.returns (Pipeline.step cfg) s
          (.work .success) =
        some s' :=
    guarded_eq_some_iff.mpr ⟨hReturns, hStep⟩
  refine ⟨⟨hCounts, ?_, hSame.trans h.closed⟩, ?_⟩
  · rcases Pipeline.work_eq hStep with
      ⟨nextToWait, completed, accepting, result, worker, rfl⟩
    exact h.opened
  · exact .next .start hGuarded

/- A worker that runs comes closer to its end. -/
theorem advance
    (h : Draining cfg s)
    (hStarted : s.worker ≠ .absent)
    (hRuns : s.worker ≠ .exited) :
    ∃ s',
      Draining cfg s' ∧
        Reaches
            (guarded Pipeline.returns (Pipeline.step cfg))
            s s' ∧
          s'.worker ≠ .absent ∧ s'.stepsLeft < s.stepsLeft := by
  have hSecond := h.counts.nextToWait_le
  have hReady := h.counts.nextReady_lt
  cases hPc : s.worker with
  | absent => exact absurd hPc hStarted
  | exited => exact absurd hPc hRuns
  | idle =>
      have hReturns : s.returns (.work .success) = true := by
        rw [Pipeline.returns, hPc]
        rfl
      have hStep : s.work .success = some s.takeRecord := by
        rw [Pipeline.work, hPc]
      have hSteps :
          s.stepsLeft = 3 * (s.nextReady - s.nextToWait) + 1 := by
        rw [Pipeline.stepsLeft, hPc]
      unfold Pipeline.takeRecord at hStep
      by_cases hLast : s.nextToWait = s.nextReady
      · have hClosed : ¬ s.accepting = true := by
          rw [h.closed]
          exact Bool.false_ne_true
        rw [if_pos hLast, if_neg hClosed] at hStep
        rcases h.next hStep hReturns rfl with ⟨hNext, hReach⟩
        refine ⟨_, hNext, hReach, by simp, ?_⟩
        rw [hSteps]
        exact Nat.succ_pos _
      · have hNext :
            wrap 32 (s.nextToWait + 1) = s.nextToWait + 1 :=
          wrap_of_lt (by omega)
        rw [if_neg hLast, hNext] at hStep
        rcases h.next hStep hReturns rfl with ⟨hDrain, hReach⟩
        refine ⟨_, hDrain, hReach, by simp, ?_⟩
        rw [hSteps]
        change
          3 * (s.nextReady - (s.nextToWait + 1)) + 3 <
            3 * (s.nextReady - s.nextToWait) + 1
        omega
  | reading i =>
      have hReturns : s.returns (.work .success) = true := by
        rw [Pipeline.returns, hPc]
        rfl
      have hStep :
          s.work .success = some (s.readRecord i) := by
        rw [Pipeline.work, hPc]
      rcases h.next hStep hReturns rfl with ⟨hDrain, hReach⟩
      refine
        ⟨_, hDrain, hReach, by simp [Pipeline.readRecord], ?_⟩
      rw [Pipeline.stepsLeft, Pipeline.stepsLeft, hPc]
      exact Nat.lt_succ_self _
  | waiting i value =>
      have hReturns : s.returns (.work .success) = true := by
        rw [Pipeline.returns, hPc]
        apply h.opened
        apply h.counts.reads_lt
        rw [hPc]
        rfl
      have hStep :
          s.work .success =
            some
              { s with
                completed := wrap 32 (s.completed + 1)
                worker := .idle } := by
        rw [Pipeline.work, hPc]
        rfl
      rcases h.next hStep hReturns rfl with ⟨hDrain, hReach⟩
      refine ⟨_, hDrain, hReach, by simp, ?_⟩
      rw [Pipeline.stepsLeft, Pipeline.stepsLeft, hPc]
      exact Nat.lt_succ_self _

/- The worker reaches its end. -/
theorem ends
    (h : Draining cfg s)
    (hStarted : s.worker ≠ .absent) :
    ∃ s',
      Reaches
          (guarded Pipeline.returns (Pipeline.step cfg))
          s s' ∧
        s'.worker = .exited := by
  induction hSteps : s.stepsLeft
    using Nat.strongRecOn generalizing s with
  | ind n ih =>
      by_cases hPc : s.worker = .exited
      · exact ⟨s, .start, hPc⟩
      · rcases h.advance hStarted hPc with
          ⟨mid, hDrain, hReach, hRuns, hLess⟩
        rcases ih mid.stepsLeft (hSteps ▸ hLess) hDrain hRuns rfl
          with ⟨s', hRest, hExited⟩
        exact ⟨s', hReach.trans hRest, hExited⟩

end Draining

end Drex

namespace Drex

open Drex.Core

namespace Pipeline

variable {cfg : PipelineConfig} {s : Pipeline}

theorem reaches_beat
    {s' : Pipeline}
    (h : s.beat cfg = some s') :
    Reaches (guarded beats (step cfg)) s s' := by
  have hGuarded :
      guarded beats (step cfg) s .beat = some s' :=
    guarded_eq_some_iff.mpr ⟨rfl, h⟩
  exact .next .start hGuarded

/- The heartbeat sees a condition that ends its loop. -/
theorem beat_ends
    (hStarted : s.heartbeat ≠ .absent)
    (hLeaves :
      s.stop = true ∨ s.allCompleted cfg = true) :
    ∃ s',
      Reaches (guarded beats (step cfg)) s s' ∧
        s'.heartbeat = .exited := by
  have hSlept :
      ∀ {s : Pipeline}, s.heartbeat = .slept →
        (s.stop = true ∨ s.allCompleted cfg = true) →
          ∃ s',
            Reaches (guarded beats (step cfg)) s s' ∧
              s'.heartbeat = .exited := by
    intro s hPc hLeaves
    have hStep :
        s.beat cfg = some { s with heartbeat := .exited } := by
      rw [beat, hPc]
      exact if_pos hLeaves
    exact ⟨_, reaches_beat hStep, rfl⟩
  cases hPc : s.heartbeat with
  | absent => exact absurd hPc hStarted
  | exited => exact ⟨s, .start, hPc⟩
  | slept => exact hSlept hPc hLeaves
  | looping =>
      by_cases hStop : s.stop = true
      · have hStep :
            s.beat cfg =
              some { s with heartbeat := .exited } := by
          rw [beat, hPc]
          exact if_pos hStop
        exact ⟨_, reaches_beat hStep, rfl⟩
      · have hStep :
            s.beat cfg =
              some { s with heartbeat := .slept } := by
          rw [beat, hPc]
          exact if_neg hStop
        rcases hSlept (s := { s with heartbeat := .slept })
            rfl hLeaves with
          ⟨s', hReach, hExited⟩
        exact
          ⟨s', (reaches_beat hStep).trans hReach, hExited⟩

end Pipeline

end Drex

------------------------------------------------------------
-- Condition
------------------------------------------------------------

namespace Drex

open Drex.Core

namespace Pipeline

variable (cfg : PipelineConfig) (s : Pipeline)

/- Every recorded kernel was let go. -/
def allOpened : Bool :=
  (List.range s.nextReady).all s.opened

/- No failure here leaves the worker with a closed gate. -/
def workerFree : Bool :=
  s.allOpened || decide (s.worker = .exited)

/- A heartbeat has a stop to see, or tasks that all end. -/
def heartbeatFree : Bool :=
  decide (s.heartbeatStarted ≠ some true) || s.stop ||
    (decide (s.nextReady = cfg.mTasks) &&
      decide (s.workerResult = .success))

/-
  The steps that keep the cleanup in order.  Every call up
  to the start of the worker succeeds; a launch or an update
  of the event fails only where no gate is closed for the
  worker; and where a heartbeat was started, the cleanup is
  reached with a stop or with all tasks recorded, and after
  that no wait fails without a stop.
-/
def ordered : PipelineEvent → Bool
| .submit r =>
    match s.pc with
    | .initialise .heartbeat => true
    | .initialise _ => decide (r = .success)
    | .launch => decide (r = .success) || s.workerFree
    | .update => decide (r = .success) || s.workerFree
    | .raise => decide (r = .success) || s.workerFree
    | .openGate _ => decide (r = .success) || s.workerFree
    | .restore => s.heartbeatFree cfg
    | _ => true
| .work r =>
    match s.worker with
    | .waiting _ _ =>
        decide (r = .success) || !s.pc.restored || s.stop ||
          decide (s.heartbeatStarted ≠ some true)
    | _ => true
| _ => true

variable {s}

theorem allOpened_iff :
    s.allOpened = true ↔ s.AllOpened := by
  unfold allOpened AllOpened
  rw [List.all_eq_true]
  simp only [List.mem_range]

theorem workerFree_iff :
    s.workerFree = true ↔ s.AllOpened ∨ s.worker = .exited := by
  unfold workerFree
  rw [Bool.or_eq_true, allOpened_iff, decide_eq_true_iff]

theorem heartbeatFree_iff :
    s.heartbeatFree cfg = true ↔
      (s.heartbeatStarted = some true →
        s.stop = true ∨
          s.nextReady = cfg.mTasks ∧
            s.workerResult = .success) := by
  unfold heartbeatFree
  simp only [Bool.or_eq_true, Bool.and_eq_true,
    decide_eq_true_eq]
  tauto

end Pipeline

end Drex

------------------------------------------------------------
-- Order Of The Threads
------------------------------------------------------------

namespace Drex

open Drex.Core

/- The setup after the worker's, and the loop. -/
def Submitter.looping : Submitter → Bool
| .initialise _ => false
| pc => !pc.cleaning

/- The result of the worker that a drain ended with. -/
def Submitter.seen : Submitter → DocaError
| .drained _ seen => seen
| _ => .success

namespace Pipeline

variable (cfg : PipelineConfig) (s : Pipeline)

/- No heartbeat was started, and nothing says whether. -/
def NoHeartbeat : Prop :=
  s.heartbeatStarted = none ∧ s.heartbeat = .absent

/- The setup did not come to the threads yet. -/
def NoThread : Prop :=
  s.NoHeartbeat ∧ s.worker = .absent

/- The threads were started, and the flags say which. -/
def AllStarted : Prop :=
  s.workerSyncReady = true ∧ s.workerStarted = true ∧
    s.heartbeatStarted =
      some (decide (s.heartbeat ≠ .absent))

/- The worker will not wait for a closed gate. -/
def Released : Prop :=
  s.AllOpened ∨ s.worker = .exited

/- A heartbeat will find its loop ended. -/
def HeartbeatFree : Prop :=
  s.heartbeatStarted = some true →
    s.stop = true ∨
      s.nextReady = cfg.mTasks ∧ s.workerResult = .success

/- What the submitter knows of the threads. -/
def OrderAt : Submitter → Prop
| .initialise .cond =>
    s.NoThread ∧ s.workerSyncReady = true
| .initialise .worker =>
    s.NoThread ∧ s.workerSyncReady = true
| .initialise .heartbeat =>
    s.NoHeartbeat ∧ s.workerSyncReady = true ∧
      s.workerStarted = true
| .initialise _ => s.NoThread
| .restore => s.AllStarted ∧ s.Released
| .closing =>
    s.AllStarted ∧ s.Released ∧ s.HeartbeatFree cfg
| .joinWorker =>
    s.AllStarted ∧ s.Released ∧ s.HeartbeatFree cfg ∧
      s.accepting = false
| .joinHeartbeat =>
    s.AllStarted ∧ s.HeartbeatFree cfg ∧
      s.worker = .exited
| .undefined => False
| _ => s.AllStarted

/- The variables of the threads. -/
def threads :
    Bool × DocaError × Bool × Bool × Option Bool × Worker ×
      Heartbeat :=
  (s.accepting, s.workerResult, s.workerSyncReady,
    s.workerStarted, s.heartbeatStarted, s.worker,
    s.heartbeat)

end Pipeline

/-
  A worker with an error has exited, `accepting` only falls
  with an error or in the end, and a worker that exited
  without an error completed every recorded kernel.
-/
structure PipelineOrder
    (cfg : PipelineConfig)
    (s : Pipeline) : Prop where
  started :
    s.workerStarted = decide (s.worker ≠ .absent)
  failed :
    s.workerResult ≠ .success → s.worker = .exited
  closed :
    s.accepting = false → s.workerResult = .success →
      s.pc.cleaning = true
  finished :
    s.worker = .exited → s.workerResult = .success →
      s.accepting = false ∧ s.completed = s.nextReady
  seen :
    s.pc.seen ≠ .success → s.workerResult ≠ .success
  place : s.OrderAt cfg s.pc

theorem Submitter.cleaning_of_looping
    {pc : Submitter}
    (h : pc.looping = true) :
    pc.cleaning = false := by
  cases pc <;> first | rfl | cases h

/- In the loop, the flags are all there is to know. -/
theorem Pipeline.orderAt_looping
    {cfg : PipelineConfig}
    {s : Pipeline}
    {pc : Submitter}
    (h : pc.looping = true) :
    s.OrderAt cfg pc ↔ s.AllStarted := by
  cases pc <;> first | exact Iff.rfl | cases h

namespace PipelineOrder

variable {cfg : PipelineConfig} {s : Pipeline}

theorem allStarted
    (h : PipelineOrder cfg s)
    (hLoop : s.pc.looping = true) :
    s.AllStarted :=
  (Pipeline.orderAt_looping hLoop).mp h.place

/- In the loop, `accepting` only falls with an error. -/
theorem failed_of_closed
    (h : PipelineOrder cfg s)
    (hLoop : s.pc.looping = true)
    (hClosed : s.accepting = false) :
    s.workerResult ≠ .success := by
  intro hSuccess
  have hCleaning := h.closed hClosed hSuccess
  rw [Submitter.cleaning_of_looping hLoop] at hCleaning
  cases hCleaning

/-
  A step of the loop that starts and ends no thread goes on
  in the loop, or leaves it with no gate in the worker's
  way.
-/
theorem goOn
    (h : PipelineOrder cfg s)
    (hLoop : s.pc.looping = true)
    {s' : Pipeline}
    (hThreads : s'.threads = s.threads)
    (hSeen :
      s'.pc.seen ≠ .success → s'.workerResult ≠ .success)
    (hNext :
      s'.pc.looping = true ∨
        s'.pc = .restore ∧ s'.Released) :
    PipelineOrder cfg s' := by
  simp only [Pipeline.threads, Prod.mk.injEq] at hThreads
  rcases hThreads with
    ⟨hAccepting, hResult, hSync, hStarted, hHeartbeat,
      hWorker, hBeat⟩
  have hAll : s'.AllStarted := by
    have hOld := h.allStarted hLoop
    unfold Pipeline.AllStarted
    rw [hSync, hStarted, hHeartbeat, hBeat]
    exact hOld
  have hFailed := h.failed_of_closed hLoop
  refine
    { started := ?_
      failed := ?_
      closed := ?_
      finished := ?_
      seen := hSeen
      place := ?_ }
  · rw [hStarted, hWorker]
    exact h.started
  · rw [hResult, hWorker]
    exact h.failed
  · rw [hAccepting, hResult]
    exact fun hClosed hSuccess =>
      absurd hSuccess (hFailed hClosed)
  · rw [hWorker, hResult]
    exact fun hExited hSuccess =>
      absurd hSuccess (hFailed (h.finished hExited hSuccess).1)
  · rcases hNext with hOn | ⟨hPc, hReleased⟩
    · exact (Pipeline.orderAt_looping hOn).mpr hAll
    · rw [hPc]
      exact ⟨hAll, hReleased⟩

/- An error of the worker leaves nothing to wait for. -/
theorem leave_failed
    (h : PipelineOrder cfg s)
    (hLoop : s.pc.looping = true)
    (hFailed : s.workerResult ≠ .success)
    (r : DocaError) :
    PipelineOrder cfg (s.leave r) :=
  h.goOn hLoop rfl (absurd rfl)
    (Or.inr ⟨rfl, Or.inr (h.failed hFailed)⟩)

/- A failed call is met with no closed gate. -/
theorem leave_ordered
    (h : PipelineOrder cfg s)
    (hLoop : s.pc.looping = true)
    {r : DocaError}
    (hOrdered :
      (decide (r = .success) || s.workerFree) = true)
    (hError : r ≠ .success) :
    PipelineOrder cfg (s.leave r) := by
  rw [decide_eq_false hError, Bool.false_or,
    Pipeline.workerFree_iff] at hOrdered
  exact h.goOn hLoop rfl (absurd rfl) (Or.inr ⟨rfl, hOrdered⟩)

theorem afterLoop
    (h : PipelineOrder cfg s)
    (hLoop : s.pc.looping = true) :
    PipelineOrder cfg (s.afterLoop cfg) := by
  unfold Pipeline.afterLoop
  split
  · exact h.goOn hLoop rfl (absurd rfl) (Or.inl rfl)
  · exact h.goOn hLoop rfl (absurd rfl) (Or.inl rfl)

theorem enterTask
    (h : PipelineOrder cfg s)
    (hLoop : s.pc.looping = true) :
    PipelineOrder cfg (s.enterTask cfg) := by
  unfold Pipeline.enterTask
  split
  · exact h.goOn hLoop rfl (absurd rfl) (Or.inl rfl)
  · exact h.afterLoop hLoop

theorem awaitWindow
    (h : PipelineOrder cfg s)
    (hLoop : s.pc.looping = true) :
    PipelineOrder cfg (s.awaitWindow cfg) := by
  unfold Pipeline.awaitWindow
  split
  case isTrue => exact h
  case isFalse =>
    split
    case isTrue hFailed => exact h.leave_failed hLoop hFailed _
    case isFalse => exact h.goOn hLoop rfl (absurd rfl) (Or.inl rfl)

theorem leaveWindow
    (h : PipelineOrder cfg s)
    (hLoop : s.pc.looping = true) :
    PipelineOrder cfg (s.leaveWindow cfg) := by
  unfold Pipeline.leaveWindow
  split
  · exact h.afterLoop hLoop
  · exact h.goOn hLoop rfl (absurd rfl) (Or.inl rfl)

theorem launchKernel
    (h : PipelineOrder cfg s)
    (hLoop : s.pc.looping = true)
    {r : DocaError}
    (hOrdered :
      (decide (r = .success) || s.workerFree) = true) :
    PipelineOrder cfg (s.launchKernel cfg r) := by
  unfold Pipeline.launchKernel
  split
  case isFalse hError =>
    exact h.leave_ordered hLoop hOrdered hError
  case isTrue =>
    by_cases hGate : cfg.gateBatch = 0
    · rw [if_pos hGate]
      exact h.goOn hLoop rfl (absurd rfl) (Or.inl rfl)
    · rw [if_neg hGate]
      exact h.goOn hLoop rfl (absurd rfl) (Or.inl rfl)

theorem updateEvent
    (h : PipelineOrder cfg s)
    (hLoop : s.pc.looping = true)
    {r : DocaError}
    (hOrdered :
      (decide (r = .success) || s.workerFree) = true) :
    PipelineOrder cfg (s.updateEvent cfg r) := by
  unfold Pipeline.updateEvent
  split
  case isFalse hError =>
    exact h.leave_ordered hLoop hOrdered hError
  case isTrue => exact h.goOn hLoop rfl (absurd rfl) (Or.inl rfl)

theorem publish
    (h : PipelineOrder cfg s)
    (hLoop : s.pc.looping = true) :
    PipelineOrder cfg (s.publish cfg) := by
  unfold Pipeline.publish
  by_cases hFull :
      cfg.gateBatch ≠ 0 ∧
        cfg.gateBatch ≤ s.countInBatch cfg
  · rw [if_pos hFull]
    exact h.goOn hLoop rfl (absurd rfl) (Or.inl rfl)
  · rw [if_neg hFull]
    exact h.goOn hLoop rfl (absurd rfl) (Or.inl rfl)

theorem enterGate
    (h : PipelineOrder cfg s)
    (hLoop : s.pc.looping = true)
    (last : Bool) :
    PipelineOrder cfg (s.enterGate last) := by
  unfold Pipeline.enterGate
  split
  · exact h.goOn hLoop rfl (absurd rfl) (Or.inl rfl)
  · exact h.goOn hLoop rfl (absurd rfl) (Or.inl rfl)

/- A stop that raises the event opens every gate. -/
theorem raiseEvent
    (h : PipelineOrder cfg s)
    (hCounts : PipelineCounts cfg s)
    (hGates : PipelineGates cfg s)
    (hLoop : s.pc.looping = true)
    {r : DocaError}
    (hOrdered :
      (decide (r = .success) || s.workerFree) = true) :
    PipelineOrder cfg (s.raiseEvent r) := by
  have hReleased : (s.raiseEvent r).Released := by
    by_cases hError : r = .success
    · apply Or.inl
      intro i hReady
      apply Pipeline.opened_of_above
      · intro t hMem
        have hLe := hGates.threshold t hMem
        have hLt := hGates.value_lt hCounts
        unfold Pipeline.raiseEvent
        rw [if_pos hError]
        change t < 2 ^ 64 - 1
        omega
      · exact Nat.lt_of_lt_of_le hReady hGates.launched
    · have hSame : s.raiseEvent r = { s with pc := .restore } := by
        unfold Pipeline.raiseEvent
        rw [if_neg hError]
      rw [decide_eq_false hError, Bool.false_or,
        Pipeline.workerFree_iff] at hOrdered
      rw [hSame]
      exact hOrdered
  exact h.goOn hLoop rfl (absurd rfl) (Or.inr ⟨rfl, hReleased⟩)

theorem openGate
    (h : PipelineOrder cfg s)
    (hLoop : s.pc.looping = true)
    (last : Bool)
    {r : DocaError}
    (hOrdered :
      (decide (r = .success) || s.workerFree) = true) :
    PipelineOrder cfg (s.openGate cfg last r) := by
  unfold Pipeline.openGate
  split
  case isTrue hError =>
    exact h.leave_ordered hLoop hOrdered hError
  case isFalse =>
    cases last with
    | true =>
        split
        · exact h.goOn hLoop rfl (absurd rfl) (Or.inl rfl)
        · exact h.goOn hLoop rfl (absurd rfl) (Or.inl rfl)
    | false =>
        split
        · exact h.goOn hLoop rfl (absurd rfl) (Or.inl rfl)
        · exact h.goOn hLoop rfl (absurd rfl) (Or.inl rfl)

theorem drain
    (h : PipelineOrder cfg s)
    (hLoop : s.pc.looping = true)
    (last : Bool)
    (target : Nat) :
    PipelineOrder cfg (s.drain last target) := by
  unfold Pipeline.drain
  split
  · exact h
  · exact h.goOn hLoop rfl id (Or.inl rfl)

theorem leaveDrain
    (h : PipelineOrder cfg s)
    (hLoop : s.pc.looping = true)
    {last : Bool}
    {seen : DocaError}
    (hPc : s.pc = .drained last seen) :
    PipelineOrder cfg (s.leaveDrain last seen) := by
  have hSeen := h.seen
  rw [hPc] at hSeen
  unfold Pipeline.leaveDrain
  split
  case isTrue => exact h.goOn hLoop rfl (absurd rfl) (Or.inl rfl)
  case isFalse =>
    split
    case isTrue hFailed =>
      exact h.leave_failed hLoop (hSeen hFailed) seen
    case isFalse =>
      cases last with
      | true => exact h.goOn hLoop rfl (absurd rfl) (Or.inl rfl)
      | false => exact h.goOn hLoop rfl (absurd rfl) (Or.inl rfl)

/- Every call of the setup succeeds. -/
theorem initialise
    (h : PipelineOrder cfg s)
    {stage : PipelineStage}
    (hPc : s.pc = .initialise stage)
    {r : DocaError}
    (hOrdered : stage ≠ .heartbeat → r = .success) :
    PipelineOrder cfg (s.initialise cfg r stage) := by
  have hClosed := h.closed
  have hPlace := h.place
  rw [hPc] at hClosed hPlace
  cases stage with
  | waitEvent | compEvent | records =>
      rw [Pipeline.initialise, if_pos (hOrdered (by simp))]
      exact
        { h with
          closed := hClosed
          seen := absurd rfl
          place := hPlace }
  | mutex =>
      rw [Pipeline.initialise, if_pos (hOrdered (by simp))]
      exact
        { h with
          closed := hClosed
          seen := absurd rfl
          place := ⟨hPlace, rfl⟩ }
  | cond =>
      rw [Pipeline.initialise, if_pos (hOrdered (by simp))]
      exact
        { h with
          closed := hClosed
          seen := absurd rfl
          place := hPlace }
  | worker =>
      rcases hPlace with ⟨⟨hNone, hAbsent⟩, hSync⟩
      have hSuccess : s.workerResult = .success := by
        by_contra hFailed
        have hExited := h.failed hFailed
        rw [hAbsent] at hExited
        cases hExited
      rw [Pipeline.initialise, if_pos (hOrdered (by simp))]
      exact
        { started := rfl
          failed := fun hFailed => absurd hSuccess hFailed
          closed := hClosed
          finished := fun hExited => by cases hExited
          seen := absurd rfl
          place := ⟨hNone, hSync, rfl⟩ }
  | heartbeat =>
      rcases hPlace with ⟨hNone, hSync, hStarted⟩
      rw [Pipeline.initialise]
      split
      · exact
          { h with
            closed := hClosed
            seen := absurd rfl
            place := ⟨hSync, hStarted, rfl⟩ }
      · have hFlag :
            some false =
              some (decide (s.heartbeat ≠ .absent)) := by
          rw [hNone.2]
          rfl
        exact
          { h with
            closed := hClosed
            seen := absurd rfl
            place := ⟨hSync, hStarted, hFlag⟩ }

theorem finish
    (h : PipelineOrder cfg s)
    (hGates : PipelineGates cfg s)
    (hPc : s.pc = .finish) :
    PipelineOrder cfg s.finish := by
  have hPlace := h.place
  have hOpened := hGates.place
  rw [hPc] at hPlace hOpened
  exact
    { h with
      closed := fun _ _ => rfl
      finished := fun hExited hSuccess =>
        ⟨rfl, (h.finished hExited hSuccess).2⟩
      seen := absurd rfl
      place := ⟨hPlace, Or.inl hOpened⟩ }

/- One step of the submitter keeps the threads in order. -/
theorem submit
    (h : PipelineOrder cfg s)
    (hCounts : PipelineCounts cfg s)
    (hGates : PipelineGates cfg s)
    {r : DocaError}
    (hOrdered : s.ordered cfg (.submit r) = true)
    {s' : Pipeline}
    (hStep : s.submit cfg r = some s') :
    PipelineOrder cfg s' := by
  have hLoop :
      ∀ {pc}, s.pc = pc → pc.looping = true →
        s.pc.looping = true := by
    intro pc hAt hOn
    rw [hAt]
    exact hOn
  rw [Pipeline.ordered] at hOrdered
  cases Pipeline.submit_move hStep with
  | @initialise stage hPc =>
      rw [hPc] at hOrdered
      apply h.initialise hPc
      intro hStage
      cases stage with
      | heartbeat => exact absurd rfl hStage
      | _ => exact of_decide_eq_true hOrdered
  | loopTop hPc => exact h.enterTask (hLoop hPc rfl)
  | window hPc => exact h.awaitWindow (hLoop hPc rfl)
  | windowLeft hPc => exact h.leaveWindow (hLoop hPc rfl)
  | launch hPc =>
      rw [hPc] at hOrdered
      exact h.launchKernel (hLoop hPc rfl) hOrdered
  | update hPc =>
      rw [hPc] at hOrdered
      exact h.updateEvent (hLoop hPc rfl) hOrdered
  | record hPc =>
      exact h.goOn (hLoop hPc rfl) rfl (absurd rfl) (Or.inl rfl)
  | publish hPc => exact h.publish (hLoop hPc rfl)
  | gate hPc => exact h.enterGate (hLoop hPc rfl) _
  | raise hPc =>
      rw [hPc] at hOrdered
      exact h.raiseEvent hCounts hGates (hLoop hPc rfl) hOrdered
  | openGate hPc =>
      rw [hPc] at hOrdered
      exact h.openGate (hLoop hPc rfl) _ hOrdered
  | drainTarget hPc =>
      exact h.goOn (hLoop hPc rfl) rfl (absurd rfl) (Or.inl rfl)
  | drain hPc => exact h.drain (hLoop hPc rfl) _ _
  | drained hPc => exact h.leaveDrain (hLoop hPc rfl) hPc
  | nextTask hPc =>
      exact h.goOn (hLoop hPc rfl) rfl (absurd rfl) (Or.inl rfl)
  | finish hPc => exact h.finish hGates hPc
  | restore hPc =>
      have hPlace := h.place
      rw [hPc] at hOrdered hPlace
      have hFree :=
        (Pipeline.heartbeatFree_iff cfg).mp hOrdered
      exact
        { h with
          closed := fun _ _ => rfl
          seen := absurd rfl
          place := ⟨hPlace.1, hPlace.2, hFree⟩ }
  | closing hPc =>
      have hPlace := h.place
      rw [hPc] at hPlace
      rcases hPlace with ⟨hAll, hReleased, hFree⟩
      have hClosed :
          (s.accepting && !s.workerSyncReady) = false := by
        rw [hAll.1]
        exact Bool.and_false _
      exact
        { h with
          closed := fun _ _ => rfl
          finished := fun hExited hSuccess =>
            ⟨hClosed, (h.finished hExited hSuccess).2⟩
          seen := absurd rfl
          place := ⟨hAll, hReleased, hFree, hClosed⟩ }
  | joinWorker hPc hExited =>
      have hPlace := h.place
      rw [hPc] at hPlace
      rcases hPlace with ⟨hAll, _, hFree, _⟩
      exact
        { h with
          closed := fun _ _ => rfl
          seen := absurd rfl
          place := ⟨hAll, hFree, hExited hAll.2.1⟩ }
  | joinHeartbeat hPc =>
      have hPlace := h.place
      rw [hPc] at hPlace
      exact
        { h with
          closed := fun _ _ => rfl
          seen := absurd rfl
          place := hPlace.1 }

/- What a running worker changes is not in the way. -/
theorem place_work
    (h : PipelineOrder cfg s)
    (hStarted : s.worker ≠ .absent)
    (hRuns : s.worker ≠ .exited)
    {nextToWait completed : Nat}
    {accepting : Bool}
    {workerResult : DocaError}
    {worker : Worker}
    (hClosed : s.accepting = false → accepting = false)
    (hFree :
      s.pc.restored = true → s.HeartbeatFree cfg →
        s.heartbeatStarted = some true →
          s.stop = true ∨
            s.nextReady = cfg.mTasks ∧
              workerResult = .success) :
    Pipeline.OrderAt cfg
      { s with
        nextToWait := nextToWait
        completed := completed
        accepting := accepting
        workerResult := workerResult
        worker := worker }
      s.pc := by
  have hPlace := h.place
  have hOpened : s.Released → s.AllOpened :=
    fun hReleased => hReleased.resolve_right hRuns
  cases hPc : s.pc with
  | initialise stage =>
      rw [hPc] at hPlace
      cases stage with
      | heartbeat => exact hPlace
      | cond | worker => exact absurd hPlace.1.2 hStarted
      | waitEvent | compEvent | records | mutex =>
          exact absurd hPlace.2 hStarted
  | restore =>
      rw [hPc] at hPlace
      exact ⟨hPlace.1, Or.inl (hOpened hPlace.2)⟩
  | closing =>
      rw [hPc] at hPlace hFree
      rcases hPlace with ⟨hAll, hReleased, hOld⟩
      exact
        ⟨hAll, Or.inl (hOpened hReleased), hFree rfl hOld⟩
  | joinWorker =>
      rw [hPc] at hPlace hFree
      rcases hPlace with ⟨hAll, hReleased, hOld, hAccepts⟩
      exact
        ⟨hAll, Or.inl (hOpened hReleased), hFree rfl hOld,
          hClosed hAccepts⟩
  | joinHeartbeat =>
      rw [hPc] at hPlace
      exact absurd hPlace.2.2 hRuns
  | undefined =>
      rw [hPc] at hPlace
      exact hPlace
  | _ =>
      rw [hPc] at hPlace
      exact hPlace

/- A running worker goes on, or ends as it may. -/
theorem runs
    (h : PipelineOrder cfg s)
    (hStarted : s.worker ≠ .absent)
    (hRuns : s.worker ≠ .exited)
    {nextToWait completed : Nat}
    {accepting : Bool}
    {workerResult : DocaError}
    {worker : Worker}
    (hPresent : worker ≠ .absent)
    (hFailed : workerResult ≠ .success → worker = .exited)
    (hClosed : s.accepting = false → accepting = false)
    (hOpen :
      workerResult = .success → accepting = s.accepting)
    (hEnds :
      worker = .exited → workerResult = .success →
        s.accepting = false ∧ completed = s.nextReady)
    (hFree :
      s.pc.restored = true → s.HeartbeatFree cfg →
        s.heartbeatStarted = some true →
          s.stop = true ∨
            s.nextReady = cfg.mTasks ∧
              workerResult = .success) :
    PipelineOrder cfg
      { s with
        nextToWait := nextToWait
        completed := completed
        accepting := accepting
        workerResult := workerResult
        worker := worker } := by
  have hNone : s.workerResult = .success :=
    not_not.mp fun hNe => hRuns (h.failed hNe)
  refine
    { started := ?_
      failed := hFailed
      closed := ?_
      finished := ?_
      seen := fun hSeen => absurd hNone (h.seen hSeen)
      place := h.place_work hStarted hRuns hClosed hFree }
  · have hFlag := h.started
    rw [decide_eq_true hStarted] at hFlag
    change s.workerStarted = decide (worker ≠ .absent)
    rw [hFlag, decide_eq_true hPresent]
  · intro hShut hSuccess
    exact h.closed ((hOpen hSuccess).symm.trans hShut) hNone
  · intro hExited hSuccess
    have hBoth := hEnds hExited hSuccess
    exact ⟨hClosed hBoth.1, hBoth.2⟩

/- The worker ends with an error, or with nothing left. -/
theorem work
    (h : PipelineOrder cfg s)
    (hCounts : PipelineCounts cfg s)
    {r : DocaError}
    (hOrdered : s.ordered cfg (.work r) = true)
    {s' : Pipeline}
    (hStep : s.work r = some s') :
    PipelineOrder cfg s' := by
  have hWorker := hCounts.worker
  have hNone :
      s.worker ≠ .exited → s.workerResult = .success :=
    fun hRuns => not_not.mp fun hFailed =>
      hRuns (h.failed hFailed)
  rw [Pipeline.ordered] at hOrdered
  rw [Pipeline.work] at hStep
  cases hPc : s.worker with
  | absent | exited =>
      rw [hPc] at hStep
      cases hStep
  | idle =>
      have hStarted : s.worker ≠ .absent := by simp [hPc]
      have hRuns : s.worker ≠ .exited := by simp [hPc]
      rw [hPc] at hStep hWorker
      rw [← Option.some.inj hStep]
      unfold Pipeline.takeRecord
      split
      case isTrue hLast =>
        split
        case isTrue => exact h
        case isFalse hClosed =>
          have hEnds :
              s.accepting = false ∧
                s.completed = s.nextReady :=
            ⟨Bool.of_not_eq_true hClosed,
              hWorker.symm.trans hLast⟩
          exact
            h.runs hStarted hRuns (by simp) (fun _ => rfl) id
              (fun _ => rfl) (fun _ _ => hEnds)
              fun _ hOld => hOld
      case isFalse =>
        exact
          h.runs hStarted hRuns (by simp)
            (fun hFailed => absurd (hNone hRuns) hFailed)
            id (fun _ => rfl) (fun hExited => by cases hExited)
            fun _ hOld => hOld
  | reading i =>
      have hStarted : s.worker ≠ .absent := by simp [hPc]
      have hRuns : s.worker ≠ .exited := by simp [hPc]
      rw [hPc] at hStep
      rw [← Option.some.inj hStep]
      exact
        h.runs hStarted hRuns (by simp)
          (fun hFailed => absurd (hNone hRuns) hFailed) id
          (fun _ => rfl) (fun hExited => by cases hExited)
          fun _ hOld => hOld
  | waiting i value =>
      have hStarted : s.worker ≠ .absent := by simp [hPc]
      have hRuns : s.worker ≠ .exited := by simp [hPc]
      rw [hPc] at hStep hOrdered
      rw [← Option.some.inj hStep]
      unfold Pipeline.waited
      split
      case isTrue =>
        exact
          h.runs hStarted hRuns (by simp)
            (fun hFailed => absurd (hNone hRuns) hFailed) id
            (fun _ => rfl) (fun hExited => by cases hExited)
            fun _ hOld => hOld
      case isFalse hError =>
        refine
          h.runs hStarted hRuns (by simp) (fun _ => rfl)
            (fun _ => rfl)
            (fun hSuccess => absurd hSuccess hError)
            (fun _ hSuccess => absurd hSuccess hError) ?_
        -- After the handlers are back, a stop came before.
        intro hRestored _ hBeat
        rw [hRestored, hBeat] at hOrdered
        simp only [hError, Bool.or_eq_true,
          decide_eq_true_eq] at hOrdered
        apply Or.inl
        simpa using hOrdered

theorem beat
    (h : PipelineOrder cfg s)
    {s' : Pipeline}
    (hStep : s.beat cfg = some s') :
    PipelineOrder cfg s' := by
  rcases Pipeline.beat_eq hStep with
    ⟨heartbeat, hRuns, hOn, rfl⟩
  have hAll :
      s.AllStarted →
        Pipeline.AllStarted
          { s with heartbeat := heartbeat } := by
    rintro ⟨hSync, hStarted, hFlag⟩
    rw [decide_eq_true hRuns] at hFlag
    refine ⟨hSync, hStarted, ?_⟩
    rw [decide_eq_true hOn]
    exact hFlag
  have hPlace := h.place
  refine { h with place := ?_ }
  change Pipeline.OrderAt cfg _ s.pc
  cases hPc : s.pc with
  | initialise stage =>
      rw [hPc] at hPlace
      cases stage with
      | heartbeat => exact absurd hPlace.1.2 hRuns
      | cond | worker => exact absurd hPlace.1.1.2 hRuns
      | waitEvent | compEvent | records | mutex =>
          exact absurd hPlace.1.2 hRuns
  | restore | closing | joinWorker | joinHeartbeat =>
      rw [hPc] at hPlace
      exact ⟨hAll hPlace.1, hPlace.2⟩
  | undefined =>
      rw [hPc] at hPlace
      exact hPlace
  | _ =>
      rw [hPc] at hPlace
      exact hAll hPlace

/- A stop takes no heartbeat its end. -/
theorem request
    (h : PipelineOrder cfg s) :
    PipelineOrder cfg { s with stop := true } := by
  have hFree :
      Pipeline.HeartbeatFree cfg { s with stop := true } :=
    fun _ => Or.inl rfl
  have hPlace := h.place
  refine { h with place := ?_ }
  change Pipeline.OrderAt cfg _ s.pc
  cases hPc : s.pc with
  | initialise stage =>
      rw [hPc] at hPlace
      cases stage <;> exact hPlace
  | closing =>
      rw [hPc] at hPlace
      exact ⟨hPlace.1, hPlace.2.1, hFree⟩
  | joinWorker =>
      rw [hPc] at hPlace
      exact ⟨hPlace.1, hPlace.2.1, hFree, hPlace.2.2.2⟩
  | joinHeartbeat =>
      rw [hPc] at hPlace
      exact ⟨hPlace.1, hFree, hPlace.2.2⟩
  | _ =>
      rw [hPc] at hPlace
      exact hPlace

/- A step that meets the condition keeps the order. -/
theorem step
    (h : PipelineOrder cfg s)
    (hCounts : PipelineCounts cfg s)
    (hGates : PipelineGates cfg s)
    {e : PipelineEvent}
    (hOrdered : s.ordered cfg e = true)
    {s' : Pipeline}
    (hStep : Pipeline.step cfg s e = some s') :
    PipelineOrder cfg s' := by
  cases e with
  | stop =>
      rw [Pipeline.step] at hStep
      split at hStep
      · rw [← Option.some.inj hStep]
        exact h.request
      · cases hStep
  | submit r => exact h.submit hCounts hGates hOrdered hStep
  | indeterminate read =>
      rw [Pipeline.step, Pipeline.joinIndeterminate] at hStep
      split at hStep
      case isTrue hRead =>
        have hPlace := h.place
        rw [hRead.1] at hPlace
        have hFlag := hPlace.1.2.2
        rw [hRead.2] at hFlag
        cases hFlag
      case isFalse => cases hStep
  | work r => exact h.work hCounts hOrdered hStep
  | beat => exact h.beat hStep

theorem start (cfg : PipelineConfig) :
    PipelineOrder cfg Pipeline.start :=
  { started := rfl
    failed := fun hFailed => absurd rfl hFailed
    closed := fun hClosed => by cases hClosed
    finished := fun hExited => by cases hExited
    seen := absurd rfl
    place := ⟨⟨rfl, rfl⟩, rfl⟩ }

/- Threads in order are joined as they should be. -/
theorem joinsSound
    (h : PipelineOrder cfg s)
    (hCounts : PipelineCounts cfg s) :
    JoinsSound cfg s := by
  have hPlace := h.place
  have hAll : s.pc.cleaning = true → s.AllStarted := by
    intro hCleaning
    cases hPc : s.pc with
    | restore | closing | joinWorker | joinHeartbeat =>
        rw [hPc] at hPlace
        exact hPlace.1
    | returned =>
        rw [hPc] at hPlace
        exact hPlace
    | undefined =>
        rw [hPc] at hPlace
        exact hPlace.elim
    | _ =>
        rw [hPc] at hCleaning
        cases hCleaning
  have hJoin :
      s.pc = .joinWorker → s.worker ≠ .exited →
        Draining cfg s := by
    intro hPc hRuns
    rw [hPc] at hPlace
    rcases hPlace with ⟨_, hReleased, _, hClosed⟩
    exact ⟨hCounts, hReleased.resolve_right hRuns, hClosed⟩
  have hPresent :
      s.workerStarted = true → s.worker ≠ .absent := by
    intro hStarted
    have hFlag := h.started
    rw [hStarted] at hFlag
    exact of_decide_eq_true hFlag.symm
  have hLeft :
      s.pc = .joinHeartbeat → s.heartbeatStarted = some true →
        s.heartbeat ≠ .absent ∧
          (s.stop = true ∨ s.allCompleted cfg = true) := by
    intro hPc hBeat
    rw [hPc] at hPlace
    rcases hPlace with ⟨⟨_, _, hFlag⟩, hFree, hExited⟩
    rw [hBeat] at hFlag
    refine
      ⟨of_decide_eq_true (Option.some.inj hFlag).symm, ?_⟩
    rcases hFree hBeat with hStop | ⟨hReady, hSuccess⟩
    · exact Or.inl hStop
    · have hDone := h.finished hExited hSuccess
      apply Or.inr
      unfold Pipeline.allCompleted
      rw [hDone.1, hDone.2, hReady]
      simp
  refine
    { defined := ?_
      started := fun hCleaning =>
        ⟨h.started, (hAll hCleaning).2.2⟩
      letGo := ?_
      workerEnds := ?_
      left := fun hPc hBeat => (hLeft hPc hBeat).2
      heartbeatEnds := ?_ }
  · intro hPc
    rw [hPc] at hPlace
    exact hPlace
  · intro hPc _
    by_cases hExited : s.worker = .exited
    · exact Or.inl hExited
    · have hDrain := hJoin hPc hExited
      exact Or.inr ⟨hDrain.closed, hDrain.opened⟩
  · intro hPc hStarted
    by_cases hExited : s.worker = .exited
    · exact ⟨s, .start, hExited⟩
    · exact (hJoin hPc hExited).ends (hPresent hStarted)
  · intro hPc hBeat
    rcases hLeft hPc hBeat with ⟨hRuns, hLeaves⟩
    exact Pipeline.beat_ends hRuns hLeaves

end PipelineOrder

end Drex

------------------------------------------------------------
-- The Cleanup Section
------------------------------------------------------------

namespace Drex

open Drex.Core

/-
  Where every step of a run meets the condition, the joins
  are sound in every state.
-/
theorem cleanup_joins
    {cfg : PipelineConfig}
    {s : Pipeline}
    (h :
      Reaches
        (guarded (Pipeline.ordered cfg) (Pipeline.step cfg))
        Pipeline.start s) :
    JoinsSound cfg s := by
  have hOrder :
      PipelineCounts cfg s ∧ PipelineGates cfg s ∧
        PipelineOrder cfg s := by
    induction h with
    | start =>
        exact ⟨.start cfg, .start cfg, .start cfg⟩
    | next hReach hNext ih =>
        rcases ih with ⟨hCounts, hGates, hOrder⟩
        rcases guarded_eq_some_iff.mp hNext with
          ⟨hOrdered, hStep⟩
        exact
          ⟨hCounts.step hStep, hGates.step hCounts hStep,
            hOrder.step hCounts hGates hOrdered hStep⟩
  exact hOrder.2.2.joinsSound hOrder.1

/- Batches of two with a heartbeat. -/
def beatConfig : PipelineConfig :=
  { batchConfig with heartbeatMs := 1 }

/-
  A stop comes while a batch is open: its gate is raised and
  the worker and the heartbeat are joined.
-/
theorem cleanup_joins_stop :
    ∃ s : Pipeline,
      s.pc = .joinHeartbeat ∧ s.completed = 1 ∧
        JoinsSound beatConfig s := by
  have hRun :
      (runLabels
          (guarded
            (Pipeline.ordered beatConfig)
            (Pipeline.step beatConfig))
          (List.replicate 14 (.submit .success) ++
            [.stop] ++
              List.replicate 5 (.submit .success) ++
            List.replicate 4 (.work .success) ++
            [.submit .success])
          Pipeline.start).any
        (fun s =>
          decide (s.pc = .joinHeartbeat ∧ s.completed = 1)) =
        true := by
    decide +kernel
  rcases reaches_of_any hRun with ⟨s, hReach, hCheck⟩
  rcases of_decide_eq_true hCheck with ⟨hPc, hCompleted⟩
  exact ⟨s, hPc, hCompleted, cleanup_joins hReach⟩

/-
  The second launch of a batch fails.  The cleanup joins a
  worker that waits for the first kernel, which nobody will
  let go.
-/
theorem cleanup_joins_closed_gate :
    ¬ ∀ (cfg : PipelineConfig) (s : Pipeline),
        Reaches (Pipeline.step cfg) Pipeline.start s →
          JoinsSound cfg s := by
  intro hAll
  have hRun :
      (runLabels (Pipeline.step batchConfig)
          (List.replicate 17 (.submit .success) ++
            [.submit (.other 1)] ++
            List.replicate 2 (.work .success) ++
            List.replicate 2 (.submit .success))
          Pipeline.start).any
        (fun s =>
          decide
            (s.pc = .joinWorker ∧ s.workerStarted = true ∧
              s.worker ≠ .exited ∧ 0 < s.nextReady ∧
                s.opened 0 = false)) =
        true := by
    decide +kernel
  rcases reaches_of_any hRun with ⟨s, hReach, hCheck⟩
  rcases of_decide_eq_true hCheck with
    ⟨hPc, hStarted, hRuns, hReady, hShut⟩
  rcases (hAll _ s hReach).letGo hPc hStarted with
    hExited | ⟨_, hOpened⟩
  · exact hRuns hExited
  · have hOpen := hOpened 0 hReady
    rw [hShut] at hOpen
    cases hOpen

end Drex
