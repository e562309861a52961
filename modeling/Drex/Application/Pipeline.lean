import Mathlib.Logic.Function.Basic
import Drex.Application.Doca

/-
  `kernel_launch` of the low-priority driver as a machine of
  three threads: the submitter, the completion worker and
  the heartbeat.

  A section under the mutex is one step, and so is a call
  that starts, sets or waits for something, with its result.
  Any sequence of results and any interleaving is a run.
  The times, the sleeps and what is printed are left out: no
  other data depends on them.

  Key definitions include:
    * `PipelineConfig`
    * `Submitter`
    * `Pipeline`
    * `Pipeline.submit`
    * `Pipeline.work`
    * `Pipeline.beat`
    * `Pipeline.step`
    * `Pipeline.SubmitMove`

  Key theorems include:
    * `Pipeline.submit_move`
    * `Pipeline.work_eq`
    * `Pipeline.beat_eq`
-/

------------------------------------------------------------
-- Configuration
------------------------------------------------------------

namespace Drex

open Drex.Core

/-
  What `kernel_launch` takes from its environment, and
  whether both signal handlers could be installed.
-/
structure PipelineConfig where
  mTasks : Nat
  maxInflight : Nat
  gateBatch : Nat
  gateDrain : Nat
  heartbeatMs : Nat
  stdoutFlushMs : Nat
  installed : Bool
  mTasks_lt : mTasks < 2 ^ 32
  maxInflight_lt : maxInflight < 2 ^ 32
  gateBatch_lt : gateBatch < 2 ^ 32

namespace PipelineConfig

variable (cfg : PipelineConfig)

/- `max_inflight` after its adjustment. -/
def window : Nat :=
  if cfg.gateBatch ≠ 0 ∧
      inflightLimit cfg.maxInflight < cfg.gateBatch then
    cfg.gateBatch
  else
    inflightLimit cfg.maxInflight

/- `tick_ms`. -/
def tickMs : Nat :=
  if cfg.stdoutFlushMs ≠ 0 then
    cfg.stdoutFlushMs
  else
    cfg.heartbeatMs

theorem gateBatch_le_window : cfg.gateBatch ≤ cfg.window := by
  unfold window
  split <;> omega

end PipelineConfig

end Drex

------------------------------------------------------------
-- State
------------------------------------------------------------

namespace Drex

/- The calls that set up `kernel_launch`. -/
inductive PipelineStage
| waitEvent
| compEvent
| records
| mutex
| cond
| worker
| heartbeat
deriving DecidableEq

/-
  Where the submitter is.  The code that opens a gate stands
  in the loop and again after it, where `last` is true.
-/
inductive Submitter
| initialise (stage : PipelineStage)
| loopTop
| window
| windowLeft
| launch
| update
| record
| publish
| gate (last : Bool)
| raise
| openGate (last : Bool)
| drainTarget (last : Bool)
| drain (last : Bool) (target : Nat)
| drained (last : Bool) (seen : DocaError)
| nextTask
| finish
| restore
| closing
| joinWorker
| joinHeartbeat
| returned
| undefined
deriving DecidableEq

/- The cleanup section. -/
def Submitter.cleaning : Submitter → Bool
| .restore => true
| .closing => true
| .joinWorker => true
| .joinHeartbeat => true
| .returned => true
| .undefined => true
| _ => false

/- The worker waits for a kernel and a value of the event. -/
inductive Worker
| absent
| idle
| reading (record : Nat)
| waiting (record value : Nat)
| exited
deriving DecidableEq

inductive Heartbeat
| absent
| looping
| slept
| exited
deriving DecidableEq

structure InflightRecord where
  taskId : Nat
  compVal : Nat
deriving DecidableEq

/-
  The event that gates the kernels, the wait thresholds of
  the launched kernels in their order, the worker's context,
  the locals of `kernel_launch`, and the three threads.

  A record that was not written is zeroed, and
  `heartbeatStarted` has no value before its declaration.
-/
structure Pipeline where
  stop : Bool
  handlers : Bool
  waitEvent : Nat
  kernels : List Nat
  records : Nat → Option InflightRecord
  nextReady : Nat
  nextToWait : Nat
  completed : Nat
  accepting : Bool
  workerResult : DocaError
  result : DocaError
  workerSyncReady : Bool
  workerStarted : Bool
  heartbeatStarted : Option Bool
  taskId : Nat
  gateInBatch : Nat
  gateWaitVal : Nat
  pc : Submitter
  worker : Worker
  heartbeat : Heartbeat

/-
  What can happen: a stop is requested, a thread takes a
  step with the result of its call, or the submitter reads a
  variable that has no value.
-/
inductive PipelineEvent
| stop
| submit (r : DocaError)
| indeterminate (read : Bool)
| work (r : DocaError)
| beat
deriving DecidableEq

namespace Pipeline

/-
  The start of `kernel_launch`.  The context of the worker
  is first read after its fields were set to these values.
-/
def start : Pipeline :=
  { stop := false
    handlers := true
    waitEvent := 0
    kernels := []
    records := fun _ => none
    nextReady := 0
    nextToWait := 0
    completed := 0
    accepting := true
    workerResult := .success
    result := .success
    workerSyncReady := false
    workerStarted := false
    heartbeatStarted := none
    taskId := 0
    gateInBatch := 0
    gateWaitVal := 4
    pc := .initialise .waitEvent
    worker := .absent
    heartbeat := .absent }

/- The gate of a launched kernel was opened. -/
def opened (s : Pipeline) (i : Nat) : Bool :=
  (s.kernels[i]?).any (fun t => decide (t < s.waitEvent))

end Pipeline

end Drex

------------------------------------------------------------
-- Submitter
------------------------------------------------------------

namespace Drex

open Drex.Core

namespace Pipeline

variable (cfg : PipelineConfig) (s : Pipeline)

/- `result = ...; goto cleanup`. -/
def leave (result : DocaError) : Pipeline :=
  { s with result := result, pc := .restore }

/- The calls before the loop. -/
def initialise
    (r : DocaError) :
    PipelineStage → Pipeline
| .waitEvent =>
    if r = .success then
      { s with result := r, pc := .initialise .compEvent }
    else
      s.leave r
| .compEvent =>
    if r = .success then
      { s with result := r, pc := .initialise .records }
    else
      s.leave r
| .records =>
    if r = .success then
      { s with pc := .initialise .mutex }
    else
      s.leave .noMemory
| .mutex =>
    if r = .success then
      { s with
        workerSyncReady := true
        pc := .initialise .cond }
    else
      s.leave .unexpected
| .cond =>
    if r = .success then
      { s with pc := .initialise .worker }
    else
      s.leave .unexpected
| .worker =>
    if r = .success then
      { s with
        workerStarted := true
        worker := .idle
        pc := .initialise .heartbeat }
    else
      s.leave .unexpected
| .heartbeat =>
    if cfg.tickMs ≠ 0 ∧ r = .success then
      { s with
        heartbeatStarted := some true
        heartbeat := .looping
        pc := .loopTop }
    else
      { s with heartbeatStarted := some false, pc := .loopTop }

/- A batch that was begun is opened after the loop. -/
def afterLoop : Pipeline :=
  if cfg.gateBatch ≠ 0 ∧ s.gateInBatch ≠ 0 then
    { s with pc := .gate true }
  else
    { s with pc := .finish }

/- The head of the loop and its first look at the stop flag. -/
def enterTask : Pipeline :=
  if s.taskId < cfg.mTasks ∧ s.stop = false then
    { s with pc := .window }
  else
    s.afterLoop cfg

/- As many kernels are in flight as the window holds. -/
def windowFull : Bool :=
  decide
    (cfg.window ≤ wrapSub 32 s.nextReady s.completed)

/- The loop that waits for a slot. -/
def awaitWindow : Pipeline :=
  if s.windowFull cfg = true ∧ s.workerResult = .success ∧
      s.stop = false then
    s
  else if s.workerResult ≠ .success then
    s.leave s.workerResult
  else
    { s with pc := .windowLeft }

def leaveWindow : Pipeline :=
  if s.stop then
    s.afterLoop cfg
  else
    { s with pc := .launch }

/- `wait_thresh`. -/
def waitThresh : Nat :=
  if cfg.gateBatch = 0 then 4 else s.gateWaitVal

def launchKernel (r : DocaError) : Pipeline :=
  if r = .success then
    { s with
      result := r
      kernels := s.kernels ++ [s.waitThresh cfg]
      pc := if cfg.gateBatch = 0 then .update else .record }
  else
    s.leave r

/- Without gating, each kernel is let go at once. -/
def updateEvent (r : DocaError) : Pipeline :=
  if r = .success then
    { s with
      result := r
      waitEvent := wrap 64 (s.waitThresh cfg + 1)
      pc := .record }
  else
    s.leave r

def writeRecord : Pipeline :=
  { s with
    records :=
      Function.update s.records s.taskId
        (some
          { taskId := s.taskId
            compVal := wrap 64 (10 + s.taskId) })
    pc := .publish }

/- `gate_in_batch` with the kernel just recorded. -/
def countInBatch : Nat :=
  if cfg.gateBatch = 0 then
    s.gateInBatch
  else
    wrap 32 (s.gateInBatch + 1)

def publish : Pipeline :=
  { s with
    nextReady := wrap 32 (s.nextReady + 1)
    gateInBatch := s.countInBatch cfg
    pc :=
      if cfg.gateBatch ≠ 0 ∧
          cfg.gateBatch ≤ s.countInBatch cfg then
        .gate false
      else
        .nextTask }

/- The look at the stop flag before a gate is opened. -/
def enterGate (last : Bool) : Pipeline :=
  if s.stop then
    { s with pc := .raise }
  else
    { s with pc := .openGate last }

/- A stop opens every gate, and the result is ignored. -/
def raiseEvent (r : DocaError) : Pipeline :=
  { s with
    waitEvent :=
      if r = .success then 2 ^ 64 - 1 else s.waitEvent
    pc := .restore }

/- What follows a batch. -/
def afterBatch (last : Bool) : Pipeline :=
  if last then
    { s with pc := .finish }
  else
    { s with pc := .nextTask }

/- The batch is only counted off inside the loop. -/
def openBatch (last : Bool) : Pipeline :=
  if last then
    { s with waitEvent := wrap 64 (s.gateWaitVal + 1) }
  else
    { s with
      waitEvent := wrap 64 (s.gateWaitVal + 1)
      gateWaitVal := wrap 64 (s.gateWaitVal + 2)
      gateInBatch := 0 }

def openGate (last : Bool) (r : DocaError) : Pipeline :=
  if r ≠ .success then
    s.leave r
  else if cfg.gateDrain ≠ 0 then
    { s.openBatch last with
      result := r
      pc := .drainTarget last }
  else
    afterBatch { s.openBatch last with result := r } last

/-
  The loop that drains a batch ends with the mutex held, so
  the result of the worker is read at its end.
-/
def drain (last : Bool) (target : Nat) : Pipeline :=
  if s.completed < target ∧ s.workerResult = .success ∧
      s.stop = false then
    s
  else
    { s with pc := .drained last s.workerResult }

def leaveDrain (last : Bool) (seen : DocaError) : Pipeline :=
  if s.stop then
    { s with pc := .raise }
  else if seen ≠ .success then
    s.leave seen
  else
    s.afterBatch last

def nextTask : Pipeline :=
  { s with taskId := wrap 32 (s.taskId + 1), pc := .loopTop }

def finish : Pipeline :=
  { s with accepting := false, pc := .restore }

/- The old handlers come back where both were replaced. -/
def restore : Pipeline :=
  { s with
    handlers := s.handlers && !cfg.installed
    pc := .closing }

def close : Pipeline :=
  { s with
    accepting := s.accepting && !s.workerSyncReady
    pc := .joinWorker }

def joinWorker : Option Pipeline :=
  if s.workerStarted then
    if s.worker = .exited then
      some { s with pc := .joinHeartbeat }
    else
      none
  else
    some { s with pc := .joinHeartbeat }

/- The end of `kernel_launch`. -/
def finalResult : DocaError :=
  if (s.workerStarted || s.workerSyncReady) = true ∧
      s.workerResult ≠ .success ∧ s.result = .success then
    s.workerResult
  else
    s.result

def finishLaunch : Pipeline :=
  { s with result := s.finalResult, pc := .returned }

def joinHeartbeat : Option Pipeline :=
  match s.heartbeatStarted with
  | none => none
  | some false => some s.finishLaunch
  | some true =>
      if s.heartbeat = .exited then
        some s.finishLaunch
      else
        none

/- One step of the submitter. -/
def submit (r : DocaError) : Option Pipeline :=
  match s.pc with
  | .initialise stage => some (s.initialise cfg r stage)
  | .loopTop => some (s.enterTask cfg)
  | .window => some (s.awaitWindow cfg)
  | .windowLeft => some (s.leaveWindow cfg)
  | .launch => some (s.launchKernel cfg r)
  | .update => some (s.updateEvent cfg r)
  | .record => some s.writeRecord
  | .publish => some (s.publish cfg)
  | .gate last => some (s.enterGate last)
  | .raise => some (s.raiseEvent r)
  | .openGate last => some (s.openGate cfg last r)
  | .drainTarget last =>
      some { s with pc := .drain last s.nextReady }
  | .drain last target => some (s.drain last target)
  | .drained last seen => some (s.leaveDrain last seen)
  | .nextTask => some s.nextTask
  | .finish => some s.finish
  | .restore => some (s.restore cfg)
  | .closing => some s.close
  | .joinWorker => s.joinWorker
  | .joinHeartbeat => s.joinHeartbeat
  | .returned => none
  | .undefined => none

/-
  A variable without a value reads as anything.  Where it
  reads true, a thread that never was is joined.
-/
def joinIndeterminate (read : Bool) : Option Pipeline :=
  if s.pc = .joinHeartbeat ∧ s.heartbeatStarted = none then
    if read then
      some { s with pc := .undefined }
    else
      some s.finishLaunch
  else
    none

end Pipeline

end Drex

------------------------------------------------------------
-- Worker And Heartbeat
------------------------------------------------------------

namespace Drex

open Drex.Core

namespace Pipeline

variable (cfg : PipelineConfig) (s : Pipeline)

/- The head of the worker's loop. -/
def takeRecord : Pipeline :=
  if s.nextToWait = s.nextReady then
    if s.accepting then
      s
    else
      { s with worker := .exited }
  else
    { s with
      nextToWait := wrap 32 (s.nextToWait + 1)
      worker := .reading s.nextToWait }

/- The value of the event that the worker waits for. -/
def readRecord (i : Nat) : Pipeline :=
  { s with
    worker :=
      .waiting i
        (wrapSub 64 ((s.records i).getD ⟨0, 0⟩).compVal 1) }

/- `doca_sync_event_wait_gt` returned. -/
def waited (r : DocaError) : Pipeline :=
  if r = .success then
    { s with
      completed := wrap 32 (s.completed + 1)
      worker := .idle }
  else
    { s with
      workerResult := r
      accepting := false
      worker := .exited }

/- One step of the completion worker. -/
def work (r : DocaError) : Option Pipeline :=
  match s.worker with
  | .absent => none
  | .idle => some s.takeRecord
  | .reading i => some (s.readRecord i)
  | .waiting _ _ => some (s.waited r)
  | .exited => none

/- The last condition of the heartbeat's loop. -/
def allCompleted : Bool :=
  decide (cfg.mTasks ≤ s.completed) && !s.accepting

/- One step of the heartbeat. -/
def beat : Option Pipeline :=
  match s.heartbeat with
  | .absent => none
  | .looping =>
      if s.stop then
        some { s with heartbeat := .exited }
      else
        some { s with heartbeat := .slept }
  | .slept =>
      if s.stop = true ∨ s.allCompleted cfg = true then
        some { s with heartbeat := .exited }
      else
        some { s with heartbeat := .looping }
  | .exited => none

/- One step of the process. -/
def step (s : Pipeline) : PipelineEvent → Option Pipeline
| .stop =>
    if s.handlers then
      some { s with stop := true }
    else
      none
| .submit r => s.submit cfg r
| .indeterminate read => s.joinIndeterminate read
| .work r => s.work r
| .beat => s.beat cfg

end Pipeline

end Drex

------------------------------------------------------------
-- What A Step Does
------------------------------------------------------------

namespace Drex

namespace Pipeline

/-
  What the submitter does in a step: one operation at each
  point, and a join once the thread has exited.
-/
inductive SubmitMove
    (cfg : PipelineConfig)
    (s : Pipeline)
    (r : DocaError) :
    Pipeline → Prop
| initialise
    {stage : PipelineStage}
    (hPc : s.pc = .initialise stage) :
    SubmitMove cfg s r (s.initialise cfg r stage)
| loopTop
    (hPc : s.pc = .loopTop) :
    SubmitMove cfg s r (s.enterTask cfg)
| window
    (hPc : s.pc = .window) :
    SubmitMove cfg s r (s.awaitWindow cfg)
| windowLeft
    (hPc : s.pc = .windowLeft) :
    SubmitMove cfg s r (s.leaveWindow cfg)
| launch
    (hPc : s.pc = .launch) :
    SubmitMove cfg s r (s.launchKernel cfg r)
| update
    (hPc : s.pc = .update) :
    SubmitMove cfg s r (s.updateEvent cfg r)
| record
    (hPc : s.pc = .record) :
    SubmitMove cfg s r s.writeRecord
| publish
    (hPc : s.pc = .publish) :
    SubmitMove cfg s r (s.publish cfg)
| gate
    {last : Bool}
    (hPc : s.pc = .gate last) :
    SubmitMove cfg s r (s.enterGate last)
| raise
    (hPc : s.pc = .raise) :
    SubmitMove cfg s r (s.raiseEvent r)
| openGate
    {last : Bool}
    (hPc : s.pc = .openGate last) :
    SubmitMove cfg s r (s.openGate cfg last r)
| drainTarget
    {last : Bool}
    (hPc : s.pc = .drainTarget last) :
    SubmitMove cfg s r
      { s with pc := .drain last s.nextReady }
| drain
    {last : Bool}
    {target : Nat}
    (hPc : s.pc = .drain last target) :
    SubmitMove cfg s r (s.drain last target)
| drained
    {last : Bool}
    {seen : DocaError}
    (hPc : s.pc = .drained last seen) :
    SubmitMove cfg s r (s.leaveDrain last seen)
| nextTask
    (hPc : s.pc = .nextTask) :
    SubmitMove cfg s r s.nextTask
| finish
    (hPc : s.pc = .finish) :
    SubmitMove cfg s r s.finish
| restore
    (hPc : s.pc = .restore) :
    SubmitMove cfg s r (s.restore cfg)
| closing
    (hPc : s.pc = .closing) :
    SubmitMove cfg s r s.close
| joinWorker
    (hPc : s.pc = .joinWorker)
    (hExited : s.workerStarted = true → s.worker = .exited) :
    SubmitMove cfg s r { s with pc := .joinHeartbeat }
| joinHeartbeat
    (hPc : s.pc = .joinHeartbeat) :
    SubmitMove cfg s r s.finishLaunch

theorem submit_move
    {cfg : PipelineConfig}
    {s s' : Pipeline}
    {r : DocaError}
    (h : s.submit cfg r = some s') :
    SubmitMove cfg s r s' := by
  rw [submit] at h
  cases hPc : s.pc with
  | initialise stage =>
      rw [hPc] at h
      rw [← Option.some.inj h]
      exact .initialise hPc
  | loopTop =>
      rw [hPc] at h
      rw [← Option.some.inj h]
      exact .loopTop hPc
  | window =>
      rw [hPc] at h
      rw [← Option.some.inj h]
      exact .window hPc
  | windowLeft =>
      rw [hPc] at h
      rw [← Option.some.inj h]
      exact .windowLeft hPc
  | launch =>
      rw [hPc] at h
      rw [← Option.some.inj h]
      exact .launch hPc
  | update =>
      rw [hPc] at h
      rw [← Option.some.inj h]
      exact .update hPc
  | record =>
      rw [hPc] at h
      rw [← Option.some.inj h]
      exact .record hPc
  | publish =>
      rw [hPc] at h
      rw [← Option.some.inj h]
      exact .publish hPc
  | gate last =>
      rw [hPc] at h
      rw [← Option.some.inj h]
      exact .gate hPc
  | raise =>
      rw [hPc] at h
      rw [← Option.some.inj h]
      exact .raise hPc
  | openGate last =>
      rw [hPc] at h
      rw [← Option.some.inj h]
      exact .openGate hPc
  | drainTarget last =>
      rw [hPc] at h
      rw [← Option.some.inj h]
      exact .drainTarget hPc
  | drain last target =>
      rw [hPc] at h
      rw [← Option.some.inj h]
      exact .drain hPc
  | drained last seen =>
      rw [hPc] at h
      rw [← Option.some.inj h]
      exact .drained hPc
  | nextTask =>
      rw [hPc] at h
      rw [← Option.some.inj h]
      exact .nextTask hPc
  | finish =>
      rw [hPc] at h
      rw [← Option.some.inj h]
      exact .finish hPc
  | restore =>
      rw [hPc] at h
      rw [← Option.some.inj h]
      exact .restore hPc
  | closing =>
      rw [hPc] at h
      rw [← Option.some.inj h]
      exact .closing hPc
  | joinWorker =>
      rw [hPc] at h
      dsimp only [joinWorker] at h
      split at h
      case isTrue hStarted =>
        split at h
        case isTrue hExited =>
          rw [← Option.some.inj h]
          exact .joinWorker hPc fun _ => hExited
        case isFalse => cases h
      case isFalse hNone =>
        rw [← Option.some.inj h]
        exact
          .joinWorker hPc fun hStarted =>
            absurd hStarted hNone
  | joinHeartbeat =>
      rw [hPc] at h
      dsimp only [joinHeartbeat] at h
      split at h
      · cases h
      · rw [← Option.some.inj h]
        exact .joinHeartbeat hPc
      · split at h
        · rw [← Option.some.inj h]
          exact .joinHeartbeat hPc
        · cases h
  | returned | undefined =>
      rw [hPc] at h
      cases h

/- A variable without a value only decides how it ends. -/
theorem joinIndeterminate_eq
    {s s' : Pipeline}
    {read : Bool}
    (h : s.joinIndeterminate read = some s') :
    s' = { s with pc := .undefined } ∨
      s' = s.finishLaunch := by
  unfold joinIndeterminate at h
  split at h
  · split at h
    · exact Or.inl (Option.some.inj h).symm
    · exact Or.inr (Option.some.inj h).symm
  · cases h

/- The worker leaves the rest alone. -/
theorem work_eq
    {s s' : Pipeline}
    {r : DocaError}
    (h : s.work r = some s') :
    ∃ nextToWait completed accepting workerResult worker,
      s' =
        { s with
          nextToWait := nextToWait
          completed := completed
          accepting := accepting
          workerResult := workerResult
          worker := worker } := by
  have hTake :
      ∃ nextToWait worker,
        s.takeRecord =
          { s with
            nextToWait := nextToWait
            worker := worker } := by
    unfold takeRecord
    split
    · split
      · exact ⟨_, _, rfl⟩
      · exact ⟨_, _, rfl⟩
    · exact ⟨_, _, rfl⟩
  rw [work] at h
  cases hWorker : s.worker with
  | absent | exited =>
      rw [hWorker] at h
      cases h
  | idle =>
      rw [hWorker] at h
      rcases hTake with ⟨nextToWait, worker, hEq⟩
      rw [← Option.some.inj h, hEq]
      exact ⟨_, _, _, _, _, rfl⟩
  | reading i =>
      rw [hWorker] at h
      exact ⟨_, _, _, _, _, (Option.some.inj h).symm⟩
  | waiting i value =>
      rw [hWorker] at h
      rw [← Option.some.inj h, waited]
      split
      · exact ⟨_, _, _, _, _, rfl⟩
      · exact ⟨_, _, _, _, _, rfl⟩

/- A heartbeat that runs only changes where it is. -/
theorem beat_eq
    {cfg : PipelineConfig}
    {s s' : Pipeline}
    (h : s.beat cfg = some s') :
    ∃ heartbeat,
      s.heartbeat ≠ .absent ∧ heartbeat ≠ .absent ∧
        s' = { s with heartbeat := heartbeat } := by
  rw [beat] at h
  cases hPc : s.heartbeat with
  | absent | exited =>
      rw [hPc] at h
      cases h
  | looping | slept =>
      rw [hPc] at h
      dsimp only at h
      split at h
      · exact ⟨_, by simp, by simp, (Option.some.inj h).symm⟩
      · exact ⟨_, by simp, by simp, (Option.some.inj h).symm⟩

end Pipeline

end Drex
