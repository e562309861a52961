import Drex.Application.Pipeline

/-
  The counters of the submitter and the worker.

  `PipelineCounts` holds in every run, however the calls and
  the waits end.  Each operation of the submitter keeps it.

  Key definitions include:
    * `Pipeline.recordOf`
    * `Pipeline.CountsAt`
    * `PipelineCounts`

  Key theorems include:
    * `PipelineCounts.submit`
    * `PipelineCounts.work`
    * `PipelineCounts.step`
-/

------------------------------------------------------------
-- Counters
------------------------------------------------------------

namespace Drex

open Drex.Core

/- Where the worker is between its two counters. -/
def Worker.CountsAt
    (completed nextToWait : Nat) :
    Worker → Prop
| .absent => nextToWait = completed
| .idle => nextToWait = completed
| .reading i => i = completed ∧ nextToWait = completed + 1
| .waiting i _ => i = completed ∧ nextToWait = completed + 1
| .exited => True

namespace Pipeline

variable (cfg : PipelineConfig) (s : Pipeline)

/- The record that is written for a task. -/
def recordOf (i : Nat) : InflightRecord :=
  { taskId := i, compVal := wrap 64 (10 + i) }

/- The next task is one of the tasks, and not recorded. -/
def AtTask : Prop :=
  s.nextReady = s.taskId ∧ s.taskId < cfg.mTasks

/- Inside the loop, this task was the last recorded. -/
def AfterTask (last : Bool) : Prop :=
  last = false → s.nextReady = s.taskId + 1

/- A slot of the window is free. -/
def HasSlot : Prop :=
  s.nextReady < s.completed + cfg.window

/- What the submitter knows of the counters. -/
def CountsAt : Submitter → Prop
| .initialise _ => s.nextReady = 0 ∧ s.taskId = 0
| .loopTop => s.nextReady = s.taskId
| .window => s.AtTask cfg
| .windowLeft =>
    s.AtTask cfg ∧ (s.HasSlot cfg ∨ s.stop = true)
| .launch => s.AtTask cfg ∧ s.HasSlot cfg
| .update => s.AtTask cfg ∧ s.HasSlot cfg
| .record => s.AtTask cfg ∧ s.HasSlot cfg
| .publish =>
    s.AtTask cfg ∧ s.HasSlot cfg ∧
      s.records s.taskId = some (recordOf s.taskId)
| .gate last => s.AfterTask last
| .openGate last => s.AfterTask last
| .drainTarget last => s.AfterTask last
| .drain last _ => s.AfterTask last
| .drained last _ => s.AfterTask last
| .nextTask => s.AfterTask false
| _ => True

/- A completion or a stop takes nothing away. -/
theorem countsAt_mono
    {cfg : PipelineConfig}
    {s s' : Pipeline}
    {pc : Submitter}
    (h : s.CountsAt cfg pc)
    (hReady : s'.nextReady = s.nextReady)
    (hTask : s'.taskId = s.taskId)
    (hRecords : s'.records = s.records)
    (hCompleted : s.completed ≤ s'.completed)
    (hStop : s.stop = true → s'.stop = true) :
    s'.CountsAt cfg pc := by
  have hAt : s.AtTask cfg → s'.AtTask cfg := by
    unfold AtTask
    rw [hReady, hTask]
    exact id
  have hSlot : s.HasSlot cfg → s'.HasSlot cfg := by
    unfold HasSlot
    rw [hReady]
    omega
  have hAfter :
      ∀ last, s.AfterTask last → s'.AfterTask last := by
    intro last
    unfold AfterTask
    rw [hReady, hTask]
    exact id
  cases pc with
  | initialise stage =>
      exact ⟨hReady.trans h.1, hTask.trans h.2⟩
  | loopTop => exact hReady.trans (h.trans hTask.symm)
  | window => exact hAt h
  | windowLeft => exact ⟨hAt h.1, h.2.imp hSlot hStop⟩
  | launch | update | record => exact ⟨hAt h.1, hSlot h.2⟩
  | publish =>
      refine ⟨hAt h.1, hSlot h.2.1, ?_⟩
      rw [hRecords, hTask]
      exact h.2.2
  | gate last | openGate last | drainTarget last =>
      exact hAfter last h
  | drain last target => exact hAfter last h
  | drained last seen => exact hAfter last h
  | nextTask => exact hAfter false h
  | _ => trivial

end Pipeline

/-
  The counters are in order and the window is kept to, and
  every record below `next_ready` was written.
-/
structure PipelineCounts
    (cfg : PipelineConfig)
    (s : Pipeline) : Prop where
  completed_le : s.completed ≤ s.nextToWait
  nextToWait_le : s.nextToWait ≤ s.nextReady
  nextReady_le : s.nextReady ≤ cfg.mTasks
  inFlight : s.nextReady ≤ s.completed + cfg.window
  worker : s.worker.CountsAt s.completed s.nextToWait
  written :
    ∀ i, i < s.nextReady →
      s.records i = some (Pipeline.recordOf i)
  place : s.CountsAt cfg s.pc

namespace PipelineCounts

variable {cfg : PipelineConfig} {s : Pipeline}

/- The count of launched tasks does not wrap around. -/
theorem nextReady_lt
    (h : PipelineCounts cfg s) :
    s.nextReady < 2 ^ 32 :=
  Nat.lt_of_le_of_lt h.nextReady_le cfg.mTasks_lt

/- The kernels in flight, without wrapping around. -/
theorem inFlight_eq
    (h : PipelineCounts cfg s) :
    wrapSub 32 s.nextReady s.completed =
      s.nextReady - s.completed := by
  have hFirst := h.completed_le
  have hSecond := h.nextToWait_le
  exact wrapSub_of_le (by omega) h.nextReady_lt

/- The test of the window says what it is meant to say. -/
theorem windowFull_iff
    (h : PipelineCounts cfg s) :
    s.windowFull cfg = true ↔
      s.completed + cfg.window ≤ s.nextReady := by
  have hFirst := h.completed_le
  have hSecond := h.nextToWait_le
  unfold Pipeline.windowFull
  rw [decide_eq_true_iff, h.inFlight_eq]
  omega

/- Leaving for the cleanup says nothing new. -/
theorem leave
    (h : PipelineCounts cfg s)
    (r : DocaError) :
    PipelineCounts cfg (s.leave r) :=
  { h with place := trivial }

/- The loop ends with an open batch or without one. -/
theorem afterLoop
    (h : PipelineCounts cfg s) :
    PipelineCounts cfg (s.afterLoop cfg) := by
  unfold Pipeline.afterLoop
  split
  · exact { h with place := fun hLast => by cases hLast }
  · exact { h with place := trivial }

/- No task was launched before the worker was started. -/
theorem initialise
    (h : PipelineCounts cfg s)
    {stage : PipelineStage}
    (hPc : s.pc = .initialise stage)
    (r : DocaError) :
    PipelineCounts cfg (s.initialise cfg r stage) := by
  have hPlace := h.place
  rw [hPc] at hPlace
  cases stage with
  | heartbeat =>
      rw [Pipeline.initialise]
      split
      · exact { h with place := hPlace.1.trans hPlace.2.symm }
      · exact { h with place := hPlace.1.trans hPlace.2.symm }
  | worker =>
      rw [Pipeline.initialise]
      split
      · refine { h with worker := ?_, place := hPlace }
        have hFirst := h.completed_le
        have hSecond := h.nextToWait_le
        have hNone := hPlace.1
        change s.nextToWait = s.completed
        omega
      · exact h.leave _
  | waitEvent | compEvent | records | mutex | cond =>
      rw [Pipeline.initialise]
      split
      · exact { h with place := hPlace }
      · exact h.leave _

/- The next task is the one after those launched. -/
theorem enterTask
    (h : PipelineCounts cfg s)
    (hPc : s.pc = .loopTop) :
    PipelineCounts cfg (s.enterTask cfg) := by
  have hPlace := h.place
  rw [hPc] at hPlace
  unfold Pipeline.enterTask
  split
  case isTrue hTask =>
    exact { h with place := ⟨hPlace, hTask.1⟩ }
  case isFalse => exact h.afterLoop

/- A free slot, a stop or an error ends the wait. -/
theorem awaitWindow
    (h : PipelineCounts cfg s)
    (hPc : s.pc = .window) :
    PipelineCounts cfg (s.awaitWindow cfg) := by
  have hPlace := h.place
  rw [hPc] at hPlace
  unfold Pipeline.awaitWindow
  split
  case isTrue => exact h
  case isFalse hLeft =>
    split
    case isTrue => exact h.leave _
    case isFalse hResult =>
      refine { h with place := ⟨hPlace, ?_⟩ }
      -- Only a stop ends the wait for a full window.
      rw [h.windowFull_iff] at hLeft
      by_cases hStop : s.stop = true
      · exact Or.inr hStop
      · have hSlot :
            ¬ s.completed + cfg.window ≤ s.nextReady := by
          intro hFull
          exact
            hLeft
              ⟨hFull, not_not.mp hResult,
                Bool.of_not_eq_true hStop⟩
        exact Or.inl (Nat.lt_of_not_le hSlot)

/- Without a stop, the slot that was waited for is there. -/
theorem leaveWindow
    (h : PipelineCounts cfg s)
    (hPc : s.pc = .windowLeft) :
    PipelineCounts cfg (s.leaveWindow cfg) := by
  have hPlace := h.place
  rw [hPc] at hPlace
  rcases hPlace with ⟨hTask, hSlot⟩
  unfold Pipeline.leaveWindow
  split
  case isTrue => exact h.afterLoop
  case isFalse hStop =>
    exact { h with place := ⟨hTask, hSlot.resolve_right hStop⟩ }

/- Launching a kernel does not count it yet. -/
theorem launchKernel
    (h : PipelineCounts cfg s)
    (hPc : s.pc = .launch)
    (r : DocaError) :
    PipelineCounts cfg (s.launchKernel cfg r) := by
  have hPlace := h.place
  rw [hPc] at hPlace
  unfold Pipeline.launchKernel
  split
  · by_cases hGate : cfg.gateBatch = 0
    · rw [if_pos hGate]
      exact { h with place := hPlace }
    · rw [if_neg hGate]
      exact { h with place := hPlace }
  · exact h.leave r

/- Nor does letting it go. -/
theorem updateEvent
    (h : PipelineCounts cfg s)
    (hPc : s.pc = .update)
    (r : DocaError) :
    PipelineCounts cfg (s.updateEvent cfg r) := by
  have hPlace := h.place
  rw [hPc] at hPlace
  unfold Pipeline.updateEvent
  split
  · exact { h with place := hPlace }
  · exact h.leave r

/- The record is written in the slot above the ready ones. -/
theorem writeRecord
    (h : PipelineCounts cfg s)
    (hPc : s.pc = .record) :
    PipelineCounts cfg s.writeRecord := by
  have hPlace := h.place
  rw [hPc] at hPlace
  rcases hPlace with ⟨hTask, hSlot⟩
  refine
    { h with
      written := ?_
      place := ⟨hTask, hSlot, Function.update_self _ _ _⟩ }
  intro i hReady
  have hNe : i ≠ s.taskId := by
    have hEq := hTask.1
    change i < s.nextReady at hReady
    omega
  change Function.update s.records s.taskId _ i = _
  rw [Function.update_of_ne hNe]
  exact h.written i hReady

/- The task that is counted has a slot and a record. -/
theorem publish
    (h : PipelineCounts cfg s)
    (hPc : s.pc = .publish) :
    PipelineCounts cfg (s.publish cfg) := by
  have hPlace := h.place
  rw [hPc] at hPlace
  rcases hPlace with ⟨⟨hReady, hLt⟩, hSlot, hRecord⟩
  have hNext : wrap 32 (s.nextReady + 1) = s.nextReady + 1 := by
    have hTasks := cfg.mTasks_lt
    exact wrap_of_lt (by omega)
  unfold Pipeline.publish
  rw [hNext]
  refine
    { h with
      nextToWait_le := Nat.le_succ_of_le h.nextToWait_le
      nextReady_le := ?_
      inFlight := ?_
      written := ?_
      place := ?_ }
  · change s.nextReady + 1 ≤ cfg.mTasks
    omega
  · change s.nextReady + 1 ≤ s.completed + cfg.window
    exact hSlot
  · intro i hLess
    rcases Nat.lt_succ_iff_lt_or_eq.mp hLess with hOld | hNew
    · exact h.written i hOld
    · rw [hNew, hReady]
      exact hRecord
  · have hTask : s.nextReady + 1 = s.taskId + 1 := by
      rw [hReady]
    dsimp only
    split
    · exact fun _ => hTask
    · exact fun _ => hTask

/- A stop at the gate raises every event. -/
theorem enterGate
    (h : PipelineCounts cfg s)
    {last : Bool}
    (hPc : s.pc = .gate last) :
    PipelineCounts cfg (s.enterGate last) := by
  have hPlace := h.place
  rw [hPc] at hPlace
  unfold Pipeline.enterGate
  split
  · exact { h with place := trivial }
  · exact { h with place := hPlace }

/- The last batch ends the loop, another one goes on. -/
theorem openGate
    (h : PipelineCounts cfg s)
    {last : Bool}
    (hPc : s.pc = .openGate last)
    (r : DocaError) :
    PipelineCounts cfg (s.openGate cfg last r) := by
  have hPlace := h.place
  rw [hPc] at hPlace
  unfold Pipeline.openGate
  split
  · exact h.leave r
  · cases last with
    | true =>
        split
        · exact { h with place := hPlace }
        · exact { h with place := trivial }
    | false =>
        split
        · exact { h with place := hPlace }
        · exact { h with place := hPlace }

/- A batch is followed by the next task or the end. -/
theorem afterBatch
    (h : PipelineCounts cfg s)
    {last : Bool}
    (hPlace : s.AfterTask last) :
    PipelineCounts cfg (s.afterBatch last) := by
  cases last with
  | true => exact { h with place := trivial }
  | false => exact { h with place := hPlace }

/- The target of a drain is what was launched so far. -/
theorem drainTarget
    (h : PipelineCounts cfg s)
    {last : Bool}
    (hPc : s.pc = .drainTarget last) :
    PipelineCounts cfg
      { s with pc := .drain last s.nextReady } := by
  have hPlace := h.place
  rw [hPc] at hPlace
  exact { h with place := hPlace }

/- The wait of a drain leaves the counters alone. -/
theorem drain
    (h : PipelineCounts cfg s)
    {last : Bool}
    {target : Nat}
    (hPc : s.pc = .drain last target) :
    PipelineCounts cfg (s.drain last target) := by
  have hPlace := h.place
  rw [hPc] at hPlace
  unfold Pipeline.drain
  split
  · exact h
  · exact { h with place := hPlace }

/- A drain ends with a stop, an error or its batch. -/
theorem leaveDrain
    (h : PipelineCounts cfg s)
    {last : Bool}
    {seen : DocaError}
    (hPc : s.pc = .drained last seen) :
    PipelineCounts cfg (s.leaveDrain last seen) := by
  have hPlace := h.place
  rw [hPc] at hPlace
  unfold Pipeline.leaveDrain
  split
  · exact { h with place := trivial }
  · split
    · exact h.leave seen
    · exact h.afterBatch hPlace

/- Every launched task is below the next one. -/
theorem nextTask
    (h : PipelineCounts cfg s)
    (hPc : s.pc = .nextTask) :
    PipelineCounts cfg s.nextTask := by
  have hPlace : s.nextReady = s.taskId + 1 := by
    have hPlace := h.place
    rw [hPc] at hPlace
    exact hPlace rfl
  have hNext : wrap 32 (s.taskId + 1) = s.taskId + 1 := by
    rw [← hPlace]
    exact wrap_of_lt h.nextReady_lt
  unfold Pipeline.nextTask
  rw [hNext]
  exact { h with place := hPlace }

/- One step of the submitter keeps the counters in order. -/
theorem submit
    (h : PipelineCounts cfg s)
    {r : DocaError}
    {s' : Pipeline}
    (hStep : s.submit cfg r = some s') :
    PipelineCounts cfg s' := by
  cases Pipeline.submit_move hStep with
  | initialise hPc => exact h.initialise hPc r
  | loopTop hPc => exact h.enterTask hPc
  | window hPc => exact h.awaitWindow hPc
  | windowLeft hPc => exact h.leaveWindow hPc
  | launch hPc => exact h.launchKernel hPc r
  | update hPc => exact h.updateEvent hPc r
  | record hPc => exact h.writeRecord hPc
  | publish hPc => exact h.publish hPc
  | gate hPc => exact h.enterGate hPc
  | raise hPc => exact { h with place := trivial }
  | openGate hPc => exact h.openGate hPc r
  | drainTarget hPc => exact h.drainTarget hPc
  | drain hPc => exact h.drain hPc
  | drained hPc => exact h.leaveDrain hPc
  | nextTask hPc => exact h.nextTask hPc
  | finish hPc => exact { h with place := trivial }
  | restore hPc => exact { h with place := trivial }
  | closing hPc => exact { h with place := trivial }
  | joinWorker hPc hExited => exact { h with place := trivial }
  | joinHeartbeat hPc => exact { h with place := trivial }

/- A completion frees a slot, and other steps need none. -/
theorem work
    (h : PipelineCounts cfg s)
    {r : DocaError}
    {s' : Pipeline}
    (hStep : s.work r = some s') :
    PipelineCounts cfg s' := by
  have hFirst := h.completed_le
  have hSecond := h.nextToWait_le
  have hReady := h.nextReady_lt
  have hWorker := h.worker
  rw [Pipeline.work] at hStep
  cases hPc : s.worker with
  | absent =>
      rw [hPc] at hStep
      cases hStep
  | idle =>
      rw [hPc] at hStep hWorker
      rw [← Option.some.inj hStep]
      change s.nextToWait = s.completed at hWorker
      unfold Pipeline.takeRecord
      split
      · split
        · exact h
        · exact { h with worker := trivial }
      · have hNext :
            wrap 32 (s.nextToWait + 1) = s.nextToWait + 1 :=
          wrap_of_lt (by omega)
        rw [hNext]
        refine
          { h with
            completed_le := Nat.le_succ_of_le hFirst
            nextToWait_le := ?_
            worker := ⟨hWorker, ?_⟩ }
        · change s.nextToWait + 1 ≤ s.nextReady
          omega
        · change s.nextToWait + 1 = s.completed + 1
          rw [hWorker]
  | reading i =>
      rw [hPc] at hStep hWorker
      rw [← Option.some.inj hStep]
      exact { h with worker := hWorker }
  | waiting i value =>
      rw [hPc] at hStep hWorker
      rw [← Option.some.inj hStep]
      rcases hWorker with ⟨_, hWait⟩
      unfold Pipeline.waited
      split
      · have hNext :
            wrap 32 (s.completed + 1) = s.completed + 1 :=
          wrap_of_lt (by omega)
        rw [hNext]
        refine
          { h with
            completed_le := Nat.le_of_eq hWait.symm
            inFlight := ?_
            worker := hWait
            place := ?_ }
        · have hIn := h.inFlight
          change s.nextReady ≤ s.completed + 1 + cfg.window
          omega
        · exact
            Pipeline.countsAt_mono h.place rfl rfl rfl
              (Nat.le_succ s.completed) id
      · exact { h with worker := trivial }
  | exited =>
      rw [hPc] at hStep
      cases hStep

/- The heartbeat only reads the counters. -/
theorem beat
    (h : PipelineCounts cfg s)
    {s' : Pipeline}
    (hStep : s.beat cfg = some s') :
    PipelineCounts cfg s' := by
  rcases Pipeline.beat_eq hStep with ⟨hb, _, _, rfl⟩
  exact { h with }

/- One step of the process keeps the counters in order. -/
theorem step
    (h : PipelineCounts cfg s)
    {e : PipelineEvent}
    {s' : Pipeline}
    (hStep : Pipeline.step cfg s e = some s') :
    PipelineCounts cfg s' := by
  cases e with
  | stop =>
      rw [Pipeline.step] at hStep
      split at hStep
      · rw [← Option.some.inj hStep]
        have hPlace :
            Pipeline.CountsAt cfg
              { s with stop := true } s.pc :=
          Pipeline.countsAt_mono h.place rfl rfl rfl
            (Nat.le_refl _) (fun _ => rfl)
        exact { h with place := hPlace }
      · cases hStep
  | submit r => exact h.submit hStep
  | indeterminate read =>
      rcases Pipeline.joinIndeterminate_eq hStep with
        rfl | rfl
      · exact { h with place := trivial }
      · exact { h with place := trivial }
  | work r => exact h.work hStep
  | beat => exact h.beat hStep

/- Nothing is launched, waited for or completed. -/
theorem start (cfg : PipelineConfig) :
    PipelineCounts cfg Pipeline.start :=
  { completed_le := Nat.le_refl _
    nextToWait_le := Nat.le_refl _
    nextReady_le := Nat.zero_le _
    inFlight := Nat.zero_le _
    worker := rfl
    written := fun _ hReady => absurd hReady (Nat.not_lt_zero _)
    place := ⟨rfl, rfl⟩ }

end PipelineCounts

end Drex
