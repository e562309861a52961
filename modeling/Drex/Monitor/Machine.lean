import Mathlib.Algebra.Group.Nat.Defs
import Drex.Core.Runs
import Drex.Proto.Messages

/-
  `MonitorChildProcess` as a machine of two threads.

  The main thread polls and reads the output of the task and
  ends with a status; the watcher thread waits for a client
  cancellation and then signals the process group.  Every
  system call is one step that carries its result, so any
  sequence of results and any interleaving is a run.

  Key definitions include:
    * `MainPc`
    * `WatcherPc`
    * `Monitor`
    * `Monitor.main`
    * `Monitor.watch`
    * `Monitor.step`
    * `MonitorOutcome`
-/

------------------------------------------------------------
-- System Call Results
------------------------------------------------------------

namespace Drex

/- `waitpid` on the child. -/
inductive WaitResult
| pending
| reaped (status : Nat)
| failed
deriving DecidableEq

/- `poll`, with the text of its error. -/
inductive PollResult
| interrupted
| failed (errno : Str)
| timeout
| ready (readable : Bool)
deriving DecidableEq

/-
  `read` on the output of the task.  Data is never empty; a
  failure says whether it is `EIO`.
-/
inductive ReadResult
| data (first : Char) (rest : Str)
| endOfStream
| interrupted
| wouldBlock
| failed (errno : Str) (eio : Bool)
deriving DecidableEq

inductive Signal
| term
| kill
deriving DecidableEq

/- `WIFEXITED`, `WEXITSTATUS`, `WIFSIGNALED`, `WTERMSIG`. -/
def wifexited (status : Nat) : Bool :=
  decide (status % 128 = 0)

def wexitstatus (status : Nat) : Nat :=
  status / 256 % 256

def wifsignaled (status : Nat) : Bool :=
  decide (status % 128 ≠ 0 ∧ status % 128 ≠ 127)

def wtermsig (status : Nat) : Nat :=
  status % 128

end Drex

------------------------------------------------------------
-- Machine State
------------------------------------------------------------

namespace Drex

/- How the main thread left its loop. -/
inductive MonitorExit
| pollError
| readError
| idleTimeout
| loopEnded
deriving DecidableEq

/- The next action of the main thread. -/
inductive MainPc
| start
| top
| polling
| quiet
| reading
| failClose (status : Status)
| failStop (status : Status)
| failJoin (status : Status)
| idleTerm
| idleKill
| idleStop
| idleJoin
| idleReap
| closing
| stopping
| joining
| reaping
| returned (status : Status)
deriving DecidableEq

/- The next action of the watcher thread. -/
inductive WatcherPc
| absent
| checkStop
| askCancelled
| recheckStop
| record
| sendTerm
| sendKill
| finished
deriving DecidableEq

structure MonitorConfig where
  hasContext : Bool
  usePty : Bool
  idleTimeoutMs : Int
deriving DecidableEq

/-
  The two threads, the flags they share, and what the call
  did to the descriptor, the child and its group.
-/
structure Monitor where
  pc : MainPc
  watcher : WatcherPc
  stopCancelThread : Bool
  cancelled : Bool
  childExited : Bool
  waitStatus : Nat
  childExitTime : Nat
  lastOutputTime : Nat
  combinedOutput : Str
  chunks : List Str
  closes : Nat
  reaps : List Nat
  signals : List Signal
  exit : Option MonitorExit
deriving DecidableEq

namespace Monitor

def init : Monitor :=
  { pc := .start
    watcher := .absent
    stopCancelThread := false
    cancelled := false
    childExited := false
    waitStatus := 0
    childExitTime := 0
    lastOutputTime := 0
    combinedOutput := []
    chunks := []
    closes := 0
    reaps := []
    signals := []
    exit := none }

/- `EmitLogChunk`: an empty chunk is not written. -/
def emit (m : Monitor) (chunk : Str) : Monitor :=
  if chunk = [] then
    m
  else
    { m with chunks := m.chunks ++ [chunk] }

/- The watcher has returned or was never started. -/
def joinable (m : Monitor) : Bool :=
  decide (m.watcher = .absent ∨ m.watcher = .finished)

end Monitor

end Drex

------------------------------------------------------------
-- Texts And The Verdict
------------------------------------------------------------

namespace Drex

namespace Monitor

def startNotice : Str :=
  "[From server] Command started, waiting for output...\n".toList

def idleNotice (idleMs : Int) : Str :=
  "\nNo output for ".toList ++ decimal idleMs ++
    (" ms; task did not exit. " ++
      "Terminating process group...\n").toList

def idleTimeoutStatus : Status :=
  ⟨.deadlineExceeded,
    ("Task timed out due to inactivity " ++
      "(no terminal output).\n" ++
      "Hint: set RPC_WORK_IDLE_TIMEOUT_MS=-1 to disable, " ++
      "or increase it.").toList⟩

def kTailLimit : Nat := 4096

/- The message of a non-zero exit, with the output's tail. -/
def exitCodeMessage (code : Nat) (output : Str) : Str :=
  "Task failed with exit code: ".toList ++ decimal code ++
    if output = [] then
      []
    else
      "\n--- remote output tail ---\n".toList ++
        output.drop (output.length - kTailLimit)

/-
  The status after the child was reaped: a recorded
  cancellation comes before the wait status.
-/
def verdict
    (cancelled : Bool)
    (output : Str)
    (status : Nat) :
    Status :=
  if cancelled then
    Status.cancelled
  else if wifexited status then
    if wexitstatus status ≠ 0 then
      ⟨.internal,
        exitCodeMessage (wexitstatus status) output⟩
    else
      Status.success
  else if wifsignaled status then
    ⟨.internal,
      "Task terminated by signal: ".toList ++
        decimal (wtermsig status)⟩
  else
    Status.internal "Task ended abnormally!"

end Monitor

end Drex

------------------------------------------------------------
-- Main Thread
------------------------------------------------------------

namespace Drex

/- A step of the main thread, with the result it obtained. -/
inductive MainEvent
| advance
| clock (now : Nat)
| waited (result : WaitResult) (now : Nat)
| polled (result : PollResult)
| readDone (result : ReadResult) (now : Nat)
deriving DecidableEq

namespace Monitor

/- The elapsed milliseconds, as an `int`. -/
def elapsedInt (now since : Nat) : Int :=
  ((now : Int) - since).bmod (2 ^ 32)

/- The loop's `waitpid(child.pid, &wait_status, WNOHANG)`. -/
def mainWait
    (m : Monitor)
    (result : WaitResult)
    (now : Nat) :
    Monitor :=
  match result with
  | .reaped status =>
      { m with
        pc := .polling
        childExited := true
        waitStatus := status
        childExitTime := now
        reaps := m.reaps ++ [status] }
  | .pending => { m with pc := .polling }
  | .failed => { m with pc := .polling }

/- The result of `poll`. -/
def mainPoll (m : Monitor) (result : PollResult) : Monitor :=
  match result with
  | .interrupted => { m with pc := .top }
  | .failed errno =>
      { m with
        exit := some .pollError
        pc :=
          .failClose
            (Status.systemError "poll() failed: " errno) }
  | .timeout => { m with pc := .quiet }
  | .ready readable =>
      if readable then
        { m with pc := .reading }
      else
        { m with pc := .top }

/-
  A poll that timed out: a running child may be idle for too
  long, and an exited one has its output drained for 50 ms.
-/
def mainQuiet
    (cfg : MonitorConfig)
    (m : Monitor)
    (now : Nat) :
    Monitor :=
  if m.childExited then
    if (50 : Int) ≤ (now : Int) - m.childExitTime then
      { m with exit := some .loopEnded, pc := .closing }
    else
      { m with pc := .top }
  else
    let idleMs := elapsedInt now m.lastOutputTime
    if 0 ≤ cfg.idleTimeoutMs ∧ cfg.idleTimeoutMs ≤ idleMs then
      { m.emit (idleNotice idleMs) with
        exit := some .idleTimeout
        pc := .idleTerm }
    else
      { m with pc := .top }

/- The result of `read` in the inner loop. -/
def mainRead
    (cfg : MonitorConfig)
    (m : Monitor)
    (result : ReadResult)
    (now : Nat) :
    Monitor :=
  match result with
  | .data first rest =>
      { m.emit (first :: rest) with
        combinedOutput := m.combinedOutput ++ first :: rest
        lastOutputTime := now }
  | .endOfStream =>
      { m with exit := some .loopEnded, pc := .closing }
  | .interrupted => m
  | .wouldBlock => { m with pc := .top }
  | .failed errno eio =>
      -- A PTY master reports EIO once the slave is closed.
      if cfg.usePty && eio then
        { m with exit := some .loopEnded, pc := .closing }
      else
        { m with
          exit := some .readError
          pc :=
            .failClose
              (Status.systemError
                "Failed to read task output: " errno) }

/- The blocking `waitpid` after the loop. -/
def mainReap (m : Monitor) (result : WaitResult) :
    Option Monitor :=
  match result with
  | .reaped status =>
      some
        { m with
          waitStatus := status
          reaps := m.reaps ++ [status]
          pc :=
            .returned
              (verdict m.cancelled m.combinedOutput status) }
  | .failed =>
      some
        { m with
          pc :=
            .returned
              (Status.internal
                "Failed to wait for task process!") }
  | .pending => none

/- The blocking `waitpid` of an idle task, its result ignored. -/
def idleReap (m : Monitor) (result : WaitResult) :
    Option Monitor :=
  match result with
  | .reaped status =>
      some
        { m with
          reaps := m.reaps ++ [status]
          pc := .returned idleTimeoutStatus }
  | .failed =>
      some { m with pc := .returned idleTimeoutStatus }
  | .pending => none

/- One step of the main thread. -/
def main
    (cfg : MonitorConfig)
    (m : Monitor)
    (e : MainEvent) :
    Option Monitor :=
  match m.pc, e with
  | .start, .clock now =>
      some
        { m.emit startNotice with
          lastOutputTime := now
          watcher :=
            if cfg.hasContext then .checkStop else .absent
          pc := .top }
  | .top, .waited result now =>
      if m.childExited then none
      else some (m.mainWait result now)
  | .top, .advance =>
      if m.childExited then some { m with pc := .polling }
      else none
  | .polling, .polled result => some (m.mainPoll result)
  | .quiet, .clock now => some (m.mainQuiet cfg now)
  | .reading, .readDone result now =>
      some (m.mainRead cfg result now)
  | .failClose status, .advance =>
      some
        { m with
          closes := m.closes + 1
          pc := .failStop status }
  | .failStop status, .advance =>
      some
        { m with
          stopCancelThread := true
          pc := .failJoin status }
  | .failJoin status, .advance =>
      if m.joinable then some { m with pc := .returned status }
      else none
  | .idleTerm, .advance =>
      some
        { m with
          signals := m.signals ++ [.term]
          pc := .idleKill }
  | .idleKill, .advance =>
      some
        { m with
          signals := m.signals ++ [.kill]
          pc := .idleStop }
  | .idleStop, .advance =>
      some { m with stopCancelThread := true, pc := .idleJoin }
  | .idleJoin, .advance =>
      if m.joinable then some { m with pc := .idleReap }
      else none
  | .idleReap, .waited result _ => m.idleReap result
  | .closing, .advance =>
      some { m with closes := m.closes + 1, pc := .stopping }
  | .stopping, .advance =>
      some { m with stopCancelThread := true, pc := .joining }
  | .joining, .advance =>
      if m.joinable then
        if m.childExited then
          some
            { m with
              pc :=
                .returned
                  (verdict m.cancelled m.combinedOutput
                    m.waitStatus) }
        else
          some { m with pc := .reaping }
      else
        none
  | .reaping, .waited result _ => m.mainReap result
  | _, _ => none

end Monitor

end Drex

------------------------------------------------------------
-- Watcher Thread
------------------------------------------------------------

namespace Drex

namespace Monitor

/-
  One step of the watcher thread, where `isCancelled` is what
  the RPC context answers if it is asked.
-/
def watch
    (m : Monitor)
    (isCancelled : Bool) :
    Option Monitor :=
  match m.watcher with
  | .absent => none
  | .checkStop =>
      some
        { m with
          watcher :=
            if m.stopCancelThread then .finished
            else .askCancelled }
  | .askCancelled =>
      some
        { m with
          watcher :=
            if isCancelled then .recheckStop else .checkStop }
  | .recheckStop =>
      some
        { m with
          watcher :=
            if m.stopCancelThread then .finished else .record }
  | .record =>
      some { m with cancelled := true, watcher := .sendTerm }
  | .sendTerm =>
      some
        { m with
          signals := m.signals ++ [.term]
          watcher := .sendKill }
  | .sendKill =>
      some
        { m with
          signals := m.signals ++ [.kill]
          watcher := .finished }
  | .finished => none

end Monitor

/- A step of either thread. -/
inductive MonitorEvent
| main (event : MainEvent)
| watcher (isCancelled : Bool)
deriving DecidableEq

namespace Monitor

def step
    (cfg : MonitorConfig)
    (m : Monitor) :
    MonitorEvent → Option Monitor
| .main event => m.main cfg event
| .watcher isCancelled => m.watch isCancelled

end Monitor

end Drex

------------------------------------------------------------
-- Outcomes
------------------------------------------------------------

namespace Drex

/- What a call of `MonitorChildProcess` leaves behind. -/
structure MonitorOutcome where
  status : Status
  chunks : List Str
  exit : Option MonitorExit
  reaps : List Nat
  cancelled : Bool
deriving DecidableEq

namespace Monitor

/- The outcome of a machine that returned this status. -/
def outcome (m : Monitor) (status : Status) :
    MonitorOutcome :=
  { status := status
    chunks := m.chunks
    exit := m.exit
    reaps := m.reaps
    cancelled := m.cancelled }

/- Some run of the machine returns with this outcome. -/
def Returns
    (cfg : MonitorConfig)
    (result : MonitorOutcome) : Prop :=
  ∃ m status,
    Core.Reaches (step cfg) init m ∧
      m.pc = .returned status ∧
        result = m.outcome status

end Monitor

end Drex
