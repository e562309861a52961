import Drex.Application.Doca

/-
  `kernel_launch` of the time-slice driver as a machine of
  two threads: the driver and the completion worker.

  A section under the mutex is one step, but for the wait
  for tokens, which holds the mutex over many.  A call that
  starts, launches or waits for something is a step with its
  result, and so is a reading of the clock.  Any sequence of
  results and any interleaving is a run.

  Key definitions include:
    * `SliceConfig`
    * `Driver`
    * `TimeSlice`
    * `TimeSlice.drive`
    * `TimeSlice.work`
    * `TimeSlice.step`
    * `TimeSlice.DriveMove`

  Key theorems include:
    * `TimeSlice.drive_eq`
    * `TimeSlice.drive_move`
-/

------------------------------------------------------------
-- State
------------------------------------------------------------

namespace Drex

open Drex.Core

/- What `kernel_launch` takes from its environment. -/
structure SliceConfig where
  warmupMs : Nat
  runtimeMs : Nat
  maxInflight : Nat
  tokenMode : Bool
  maxInflight_lt : maxInflight < 2 ^ 32

/- `max_inflight` after its adjustment. -/
def SliceConfig.window (cfg : SliceConfig) : Nat :=
  inflightLimit cfg.maxInflight

/- The calls that set up `kernel_launch`. -/
inductive SliceStage
| compEvent
| mutex
| cond
| worker
deriving DecidableEq

/-
  Where the driver is.  It drives twice, for the warm-up and
  then for the measurement.
-/
inductive Driver
| initialise (stage : SliceStage)
| discover
| driveStart (measured : Bool)
| driveTop (measured : Bool)
| window (measured : Bool)
| tokens (measured : Bool)
| tokensLeft (measured : Bool)
| launch (measured : Bool) (kernelId : Nat)
| drainStart
| drain (target : Nat)
| sampleBase
| sampleEnd
| print
| restore
| closing
| joinWorker
| returned
deriving DecidableEq

/- The driver waits for tokens with the mutex in its hands. -/
def Driver.holdsMutex : Driver → Bool
| .tokens _ => true
| .tokensLeft _ => true
| _ => false

inductive SliceWorker
| absent
| idle
| waiting
| exited
deriving DecidableEq

/-
  The stop flag, the last reading of the clock, the kernels
  whose launch returned success, the worker's context and
  its local counter, the locals of `kernel_launch`, and the
  two threads.
-/
structure TimeSlice where
  stop : Bool
  clock : Nat
  launched : List Nat
  submitted : Nat
  completed : Nat
  accepting : Bool
  workerResult : DocaError
  waited : Nat
  result : DocaError
  workerSyncReady : Bool
  workerStarted : Bool
  deadline : Nat
  xqueueHandle : Nat
  baseCompleted : Nat
  baseSubmitted : Nat
  endCompleted : Nat
  endSubmitted : Nat
  printed : Option (Nat × Nat)
  pc : Driver
  worker : SliceWorker

/-
  What the driver gets from its calls: a result, a reading
  of the clock, whether a token was acquired, and a handle.
-/
structure SliceReadings where
  result : DocaError
  now : Nat
  token : Bool
  queue : Nat
deriving DecidableEq

inductive SliceEvent
| stop
| drive (seen : SliceReadings)
| work (r : DocaError)
deriving DecidableEq

namespace TimeSlice

/-
  The start of `kernel_launch`.  The context of the worker
  is first read after its fields were set to these values.
-/
def start : TimeSlice :=
  { stop := false
    clock := 0
    launched := []
    submitted := 0
    completed := 0
    accepting := true
    workerResult := .success
    waited := 0
    result := .success
    workerSyncReady := false
    workerStarted := false
    deadline := 0
    xqueueHandle := 0
    baseCompleted := 0
    baseSubmitted := 0
    endCompleted := 0
    endSubmitted := 0
    printed := none
    pc := .initialise .compEvent
    worker := .absent }

end TimeSlice

end Drex

------------------------------------------------------------
-- Driver
------------------------------------------------------------

namespace Drex

open Drex.Core

namespace TimeSlice

variable (cfg : SliceConfig) (s : TimeSlice)

/- `result = ...; goto cleanup`. -/
def leave (result : DocaError) : TimeSlice :=
  { s with result := result, pc := .restore }

/- The calls before the first drive. -/
def initialise
    (r : DocaError) :
    SliceStage → TimeSlice
| .compEvent =>
    if r = .success then
      { s with pc := .initialise .mutex }
    else
      s.leave r
| .mutex =>
    if r = .success then
      { s with
        workerSyncReady := true
        pc := .initialise .cond }
    else
      s.leave .unexpected
| .cond =>
    if r = .success then
      { s with pc := .initialise .worker }
    else
      s.leave .unexpected
| .worker =>
    if r = .success then
      { s with
        workerStarted := true
        worker := .idle
        pc := .discover }
    else
      s.leave .unexpected

/- `discover_xqueue_handle`, and whether to warm up. -/
def discover (queue : Nat) : TimeSlice :=
  { s with
    xqueueHandle :=
      if cfg.tokenMode then queue else s.xqueueHandle
    pc :=
      if cfg.warmupMs = 0 then
        .sampleBase
      else
        .driveStart false }

/- `duration_ns`. -/
def duration (measured : Bool) : Nat :=
  if measured then
    cfg.runtimeMs * 1000000
  else
    cfg.warmupMs * 1000000

def startDrive (measured : Bool) (now : Nat) : TimeSlice :=
  { s with
    deadline := now + duration cfg measured
    pc := .driveTop measured }

/- `drive_for_duration` returns success. -/
def endDrive (measured : Bool) : TimeSlice :=
  { s with
    pc := if measured then .sampleEnd else .drainStart }

def enterDrive (measured : Bool) : TimeSlice :=
  if s.stop then
    s.endDrive measured
  else
    { s with pc := .window measured }

/- As many kernels are in flight as the window holds. -/
def windowFull : Bool :=
  decide
    (cfg.window ≤ wrapSub 64 s.submitted s.completed)

/- The wait for tokens is made in token mode, with a handle. -/
def needsToken : Bool :=
  cfg.tokenMode && decide (s.xqueueHandle ≠ 0)

/- The kernel is counted before its launch. -/
def countKernel (measured : Bool) : TimeSlice :=
  { s with
    submitted := wrap 64 (s.submitted + 1)
    pc := .launch measured s.submitted }

/- The loop that waits for a slot, and what follows it. -/
def awaitWindow (measured : Bool) (now : Nat) : TimeSlice :=
  if s.windowFull cfg = true ∧ s.workerResult = .success ∧
      s.stop = false then
    s
  else if s.workerResult ≠ .success then
    s.leave s.workerResult
  else if s.deadline ≤ now then
    s.endDrive measured
  else if s.needsToken cfg then
    { s with pc := .tokens measured }
  else
    s.countKernel measured

/- The loop that tries to acquire a token. -/
def awaitToken
    (measured : Bool)
    (now : Nat)
    (token : Bool) :
    TimeSlice :=
  if s.stop = false ∧ now < s.deadline ∧ token = false then
    s
  else
    { s with pc := .tokensLeft measured }

def leaveTokens (measured : Bool) (now : Nat) : TimeSlice :=
  if s.stop = true ∨ s.deadline ≤ now then
    s.endDrive measured
  else
    s.countKernel measured

/- `submit_short_kernel`, and a look for a handle. -/
def launch
    (measured : Bool)
    (kernelId : Nat)
    (seen : SliceReadings) :
    TimeSlice :=
  if seen.result = .success then
    { s with
      launched := s.launched ++ [kernelId]
      xqueueHandle :=
        if cfg.tokenMode = true ∧ s.xqueueHandle = 0 then
          seen.queue
        else
          s.xqueueHandle
      pc := .driveTop measured }
  else
    s.leave seen.result

/- `drain_to_target`. -/
def drain (target : Nat) : TimeSlice :=
  if s.completed < target ∧ s.workerResult = .success ∧
      s.stop = false then
    s
  else if s.workerResult ≠ .success then
    s.leave s.workerResult
  else
    { s with pc := .sampleBase }

def sampleBase : TimeSlice :=
  { s with
    baseCompleted := s.completed
    baseSubmitted := s.submitted
    pc := .driveStart true }

def sampleEnd : TimeSlice :=
  { s with
    endCompleted := s.completed
    endSubmitted := s.submitted
    pc := .print }

/- The counts of the window, as the result line has them. -/
def print : TimeSlice :=
  { s with
    printed :=
      some
        (wrapSub 64 s.endCompleted s.baseCompleted,
          wrapSub 64 s.endSubmitted s.baseSubmitted)
    pc := .restore }

def close : TimeSlice :=
  { s with
    accepting := s.accepting && !s.workerSyncReady
    pc := .joinWorker }

def joinWorker : Option TimeSlice :=
  if s.workerStarted = true ∧ s.worker ≠ .exited then
    none
  else
    some { s with pc := .returned }

/- One step of the driver, after a reading of the clock. -/
def advance (seen : SliceReadings) : Option TimeSlice :=
  match s.pc with
  | .initialise stage => some (s.initialise seen.result stage)
  | .discover => some (s.discover cfg seen.queue)
  | .driveStart measured =>
      some (s.startDrive cfg measured seen.now)
  | .driveTop measured => some (s.enterDrive measured)
  | .window measured =>
      some (s.awaitWindow cfg measured seen.now)
  | .tokens measured =>
      some (s.awaitToken measured seen.now seen.token)
  | .tokensLeft measured =>
      some (s.leaveTokens measured seen.now)
  | .launch measured kernelId =>
      some (s.launch cfg measured kernelId seen)
  | .drainStart => some { s with pc := .drain s.submitted }
  | .drain target => some (s.drain target)
  | .sampleBase => some s.sampleBase
  | .sampleEnd => some s.sampleEnd
  | .print => some s.print
  | .restore => some { s with pc := .closing }
  | .closing => some s.close
  | .joinWorker => s.joinWorker
  | .returned => none

/- The clock does not run backwards. -/
def drive (seen : SliceReadings) : Option TimeSlice :=
  if seen.now < s.clock then
    none
  else
    advance cfg { s with clock := seen.now } seen

end TimeSlice

end Drex

------------------------------------------------------------
-- Worker
------------------------------------------------------------

namespace Drex

open Drex.Core

namespace TimeSlice

variable (cfg : SliceConfig) (s : TimeSlice)

/- The head of the worker's loop. -/
def takeKernel : TimeSlice :=
  if s.submitted ≤ s.waited then
    if s.accepting then
      s
    else
      { s with worker := .exited }
  else
    { s with worker := .waiting }

/- `doca_sync_event_wait_gt` returned. -/
def returned (r : DocaError) : TimeSlice :=
  if r = .success then
    { s with
      waited := wrap 64 (s.waited + 1)
      completed := wrap 64 (s.waited + 1)
      worker := .idle }
  else
    { s with
      workerResult := r
      accepting := false
      worker := .exited }

/- One step of the completion worker, with the mutex. -/
def work (r : DocaError) : Option TimeSlice :=
  if s.pc.holdsMutex then
    none
  else
    match s.worker with
    | .absent => none
    | .idle => some s.takeKernel
    | .waiting => some (s.returned r)
    | .exited => none

/- One step of the process. -/
def step (s : TimeSlice) : SliceEvent → Option TimeSlice
| .stop => some { s with stop := true }
| .drive seen => s.drive cfg seen
| .work r => s.work r

variable {cfg} {s}

/- A step of the driver keeps the clock at its reading. -/
theorem drive_eq
    {seen : SliceReadings}
    {s' : TimeSlice}
    (h : s.drive cfg seen = some s') :
    advance cfg { s with clock := seen.now } seen =
      some s' := by
  unfold drive at h
  split at h
  · cases h
  · exact h

/-
  What the driver does in a step: one operation at each
  point, and the join once the worker has exited.
-/
inductive DriveMove
    (cfg : SliceConfig)
    (s : TimeSlice)
    (seen : SliceReadings) :
    TimeSlice → Prop
| initialise
    {stage : SliceStage}
    (hPc : s.pc = .initialise stage) :
    DriveMove cfg s seen (s.initialise seen.result stage)
| discover
    (hPc : s.pc = .discover) :
    DriveMove cfg s seen (s.discover cfg seen.queue)
| driveStart
    {measured : Bool}
    (hPc : s.pc = .driveStart measured) :
    DriveMove cfg s seen (s.startDrive cfg measured seen.now)
| driveTop
    {measured : Bool}
    (hPc : s.pc = .driveTop measured) :
    DriveMove cfg s seen (s.enterDrive measured)
| window
    {measured : Bool}
    (hPc : s.pc = .window measured) :
    DriveMove cfg s seen
      (s.awaitWindow cfg measured seen.now)
| tokens
    {measured : Bool}
    (hPc : s.pc = .tokens measured) :
    DriveMove cfg s seen
      (s.awaitToken measured seen.now seen.token)
| tokensLeft
    {measured : Bool}
    (hPc : s.pc = .tokensLeft measured) :
    DriveMove cfg s seen (s.leaveTokens measured seen.now)
| launch
    {measured : Bool}
    {kernelId : Nat}
    (hPc : s.pc = .launch measured kernelId) :
    DriveMove cfg s seen
      (s.launch cfg measured kernelId seen)
| drainStart
    (hPc : s.pc = .drainStart) :
    DriveMove cfg s seen { s with pc := .drain s.submitted }
| drain
    {target : Nat}
    (hPc : s.pc = .drain target) :
    DriveMove cfg s seen (s.drain target)
| sampleBase
    (hPc : s.pc = .sampleBase) :
    DriveMove cfg s seen s.sampleBase
| sampleEnd
    (hPc : s.pc = .sampleEnd) :
    DriveMove cfg s seen s.sampleEnd
| print
    (hPc : s.pc = .print) :
    DriveMove cfg s seen s.print
| restore
    (hPc : s.pc = .restore) :
    DriveMove cfg s seen { s with pc := .closing }
| closing
    (hPc : s.pc = .closing) :
    DriveMove cfg s seen s.close
| joinWorker
    (hPc : s.pc = .joinWorker)
    (hExited : s.workerStarted = true → s.worker = .exited) :
    DriveMove cfg s seen { s with pc := .returned }

theorem drive_move
    {cfg : SliceConfig}
    {s s' : TimeSlice}
    {seen : SliceReadings}
    (h : s.advance cfg seen = some s') :
    DriveMove cfg s seen s' := by
  rw [advance] at h
  cases hPc : s.pc with
  | initialise stage =>
      rw [hPc] at h
      rw [← Option.some.inj h]
      exact .initialise hPc
  | discover =>
      rw [hPc] at h
      rw [← Option.some.inj h]
      exact .discover hPc
  | driveStart measured =>
      rw [hPc] at h
      rw [← Option.some.inj h]
      exact .driveStart hPc
  | driveTop measured =>
      rw [hPc] at h
      rw [← Option.some.inj h]
      exact .driveTop hPc
  | window measured =>
      rw [hPc] at h
      rw [← Option.some.inj h]
      exact .window hPc
  | tokens measured =>
      rw [hPc] at h
      rw [← Option.some.inj h]
      exact .tokens hPc
  | tokensLeft measured =>
      rw [hPc] at h
      rw [← Option.some.inj h]
      exact .tokensLeft hPc
  | launch measured kernelId =>
      rw [hPc] at h
      rw [← Option.some.inj h]
      exact .launch hPc
  | drainStart =>
      rw [hPc] at h
      rw [← Option.some.inj h]
      exact .drainStart hPc
  | drain target =>
      rw [hPc] at h
      rw [← Option.some.inj h]
      exact .drain hPc
  | sampleBase =>
      rw [hPc] at h
      rw [← Option.some.inj h]
      exact .sampleBase hPc
  | sampleEnd =>
      rw [hPc] at h
      rw [← Option.some.inj h]
      exact .sampleEnd hPc
  | print =>
      rw [hPc] at h
      rw [← Option.some.inj h]
      exact .print hPc
  | restore =>
      rw [hPc] at h
      rw [← Option.some.inj h]
      exact .restore hPc
  | closing =>
      rw [hPc] at h
      rw [← Option.some.inj h]
      exact .closing hPc
  | joinWorker =>
      rw [hPc] at h
      dsimp only [joinWorker] at h
      split at h
      case isTrue => cases h
      case isFalse hDone =>
        rw [← Option.some.inj h]
        refine .joinWorker hPc fun hStarted => ?_
        exact not_not.mp fun hRuns => hDone ⟨hStarted, hRuns⟩
  | returned =>
      rw [hPc] at h
      cases h

end TimeSlice

end Drex
