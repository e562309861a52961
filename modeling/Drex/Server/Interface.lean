import Drex.Core.Pool
import Drex.Monitor.Machine
import Drex.Server.LockGuard

/-
  The operations through which the server's functions reach
  the stream, the disk, the lock table and the processes.

  What is decided by the server's own state is computed by
  `exec`; what the operating system, the client or the task
  decides is taken from an `Env`.

  Key definitions include:
    * `ServerOp`
    * `Resp`
    * `ServerState`
    * `Env`
    * `exec`
    * `ServerOp.Affects`

  Key theorems include:
    * `exec_node`
-/

------------------------------------------------------------
-- Answers
------------------------------------------------------------

namespace Drex

/- `std::error_code`: no error, or its message. -/
abbrev ErrorCode :=
  Option Str

/- What `fs::status` or `fs::exists` finds out. -/
inductive Existence
| found
| missing
| error
deriving DecidableEq

/- `ChildProcess`, less the descriptor. -/
structure ChildProcess where
  pid : Pid
  usePty : Bool
deriving DecidableEq

/- How a run of `xcli hint` ended. -/
inductive XcliResult
| forkFailed
| waitFailed
| finished (status : Nat)
deriving DecidableEq

end Drex

------------------------------------------------------------
-- Operations
------------------------------------------------------------

namespace Drex

inductive ServerOp
-- The stream and the context of the RPC.
| read (next : Option TaskRequest)
| isCancelled
| send (response : TaskResponse)
-- The filesystem.
| weaklyCanonicalRoot
| status (p : Path)
| exists (p : Str)
| createDirectories (p : Path)
| openTrunc (p : Path)
| write (p : Path) (offset : Nat) (data : Bytes)
| close (p : Path)
| removeAll (p : Path)
| logExecutionContext (runDir : Path)
-- The guard of the submission.
| acquire (subdirKey : Str)
| registerCleanupTargets (workspaceSubdir outputSubdir : Str)
| cleanupTargets
| clearCleanup
| release
-- The environment variables.
| getenv (name : String)
| setenv (name : String) (value : Str) (overwrite : Bool)
| unsetenv (name : String)
| findCommandInPath (name : String)
-- Processes.
| forkpty
| pipe
| fork
| closeFd
| setNonBlocking
| kill (pid : Pid)
| waitpid (pid : Pid)
| strerror
| setpgid (pid : Pid)
| chdir (p : Path)
| dup2
| execShell (command : Str)
| monitor (child : ChildProcess) (config : MonitorConfig)
-- Utilization hints.
| registerTaskProcessGroup (subdir : Str) (pgid : Pid)
| unregisterTaskProcessGroup (subdir : Str) (pgid : Pid)
| findTaskProcessGroup (subdir : Str)
| findPidsInProcessGroup (pgid : Pid)
| xcliHint (xcli : Str) (pid : Pid) (utilization : Int)
deriving DecidableEq

/- The answer to each operation. -/
@[reducible] def Resp : ServerOp → Type
| .read _ => Unit
| .isCancelled => Bool
| .send _ => Unit
| .weaklyCanonicalRoot => ErrorCode
| .status _ => Existence
| .exists _ => Existence
| .createDirectories _ => ErrorCode
| .openTrunc _ => Bool
| .write _ _ _ => Bool
| .close _ => Bool
| .removeAll _ => Bool
-- Whether listing the directory threw no exception.
| .logExecutionContext _ => Bool
| .acquire _ => Status
| .registerCleanupTargets _ _ => Unit
| .cleanupTargets => WorkspaceLockGuard
| .clearCleanup => Unit
-- The key erased from the table.
| .release => Option Str
| .getenv _ => Option Str
| .setenv _ _ _ => Unit
| .unsetenv _ => Unit
| .findCommandInPath _ => Str
-- The parent's side: the child's pid, unless it failed.
| .forkpty => Option Pid
| .pipe => Bool
| .fork => Option Pid
| .closeFd => Unit
| .setNonBlocking => Bool
| .kill _ => Unit
| .waitpid _ => Unit
| .strerror => Str
| .setpgid _ => Unit
| .chdir _ => Bool
| .dup2 => Bool
| .execShell _ => Unit
-- None when the thread for cancellations cannot be made.
| .monitor _ _ => Option MonitorOutcome
| .registerTaskProcessGroup _ _ => Unit
| .unregisterTaskProcessGroup _ _ => Unit
| .findTaskProcessGroup _ => Option Pid
-- None when listing the processes throws.
| .findPidsInProcessGroup _ => Option (List Pid)
| .xcliHint _ _ _ => XcliResult

/- A function of the server. -/
abbrev ServerProg :=
  Core.Prog ServerOp Resp

/- Call one operation. -/
abbrev perform (op : ServerOp) : ServerProg (Resp op) :=
  Core.Prog.perform op

end Drex

------------------------------------------------------------
-- The Table Of Process Groups
------------------------------------------------------------

namespace Drex

/- `g_workspace_to_pgid`. -/
abbrev GroupTable :=
  Str → Option Pid

namespace GroupTable

/- `RegisterTaskProcessGroup`. -/
def register
    (table : GroupTable)
    (subdir : Str)
    (pgid : Pid) :
    GroupTable :=
  if subdir = [] ∨ pgid ≤ 0 then
    table
  else
    Function.update table subdir (some pgid)

/- `UnregisterTaskProcessGroup`. -/
def unregister
    (table : GroupTable)
    (subdir : Str)
    (pgid : Pid) :
    GroupTable :=
  if subdir = [] then
    table
  else
    match table subdir with
    | none => table
    | some found =>
        if pgid ≤ 0 ∨ found = pgid then
          Function.update table subdir none
        else
          table

end GroupTable

end Drex

------------------------------------------------------------
-- The Shared State
------------------------------------------------------------

namespace Drex

/-
  What the handlers share, with the guard of each handler
  and whether it has a task that was started and that it
  still follows: neither reaped nor given up by an
  exception.
-/
structure ServerState where
  store : Store
  lockedSubdirs : Finset Str
  workspaceToPgid : GroupTable
  guards : Nat → WorkspaceLockGuard
  running : Nat → Bool

/- A server with no handler at work on this disk. -/
def ServerState.init (store : Store) : ServerState :=
  { store := store
    lockedSubdirs := ∅
    workspaceToPgid := fun _ => none
    guards := fun _ => .init
    running := fun _ => false }

/-
  What is outside the server decides about one operation:
  the answer where the state leaves it open, the bytes or
  directories a failing operation still gets done, and the
  nodes a failing removal leaves.
-/
structure Env where
  answer : (op : ServerOp) → Resp op
  amount : Nat
  keep : Loc → Bool

namespace Store

/- `create_directories`, which can stop on its way. -/
def tryCreateDirectories
    (s : Store)
    (p : Path)
    (error : ErrorCode)
    (amount : Nat) :
    ErrorCode × Store :=
  match error with
  | some message =>
      if s.passable (p.loc.take amount) then
        (some message,
          s.createDirectories (p.loc.take amount))
      else
        (some message, s)
  | none =>
      if s.passable p.loc then
        (none, s.createDirectories p.loc)
      else
        (some "Not a directory".toList, s)

/- `ofstream::open` with `trunc`. -/
def tryOpen
    (s : Store)
    (p : Path)
    (ok : Bool) :
    Bool × Store :=
  if ok ∧ p.slash = false then
    match s.openTrunc p.loc with
    | some s' => (true, s')
    | none => (false, s)
  else
    (false, s)

/- `ofstream::write`, which can fail after a part. -/
def tryWrite
    (s : Store)
    (p : Path)
    (offset : Nat)
    (data : Bytes)
    (ok : Bool)
    (amount : Nat) :
    Bool × Store :=
  if ok then
    (true, s.writeAt p.loc offset data)
  else
    (false, s.writeAt p.loc offset (data.take amount))

/- `ofstream::close`, which can lose what was buffered. -/
def tryClose
    (s : Store)
    (p : Path)
    (ok : Bool)
    (amount : Nat) :
    Bool × Store :=
  if ok then (true, s) else (false, s.dropTail p.loc amount)

/- `remove_all`, which can leave a part. -/
def tryRemoveAll
    (s : Store)
    (p : Path)
    (ok : Bool)
    (keep : Loc → Bool) :
    Bool × Store :=
  if ok then
    (true, s.removeAll p.loc (fun _ => false))
  else
    (false, s.removeAll p.loc keep)

/- `fs::status` of an absolute path without `..`. -/
def tryStatus
    (s : Store)
    (p : Path)
    (answer : Existence) :
    Existence :=
  if answer = .error then
    .error
  else
    match s.node p.loc with
    | none => .missing
    | some .directory => .found
    | some (.file _) => if p.slash then .missing else .found

end Store

namespace ServerState

/- Replace the guard of one handler. -/
def setGuard
    (s : ServerState)
    (i : Nat)
    (g : WorkspaceLockGuard) :
    ServerState :=
  { s with guards := Function.update s.guards i g }

/- Say whether one handler has a task. -/
def setRunning
    (s : ServerState)
    (i : Nat)
    (b : Bool) :
    ServerState :=
  { s with running := Function.update s.running i b }

end ServerState

/- Answer one operation of handler `i`. -/
def exec
    (i : Nat)
    (op : ServerOp)
    (env : Env)
    (s : ServerState) :
    Resp op × ServerState :=
  match op with
  | .status p =>
      (s.store.tryStatus p (env.answer (.status p)), s)
  | .createDirectories p =>
      let r :=
        s.store.tryCreateDirectories p
          (env.answer (.createDirectories p)) env.amount
      (r.1, { s with store := r.2 })
  | .openTrunc p =>
      let r := s.store.tryOpen p (env.answer (.openTrunc p))
      (r.1, { s with store := r.2 })
  | .write p offset data =>
      let r :=
        s.store.tryWrite p offset data
          (env.answer (.write p offset data)) env.amount
      (r.1, { s with store := r.2 })
  | .close p =>
      let r :=
        s.store.tryClose p (env.answer (.close p)) env.amount
      (r.1, { s with store := r.2 })
  | .removeAll p =>
      let r :=
        s.store.tryRemoveAll p (env.answer (.removeAll p))
          env.keep
      (r.1, { s with store := r.2 })
  | .acquire subdirKey =>
      let r := (s.guards i).acquire s.lockedSubdirs subdirKey
      (r.1,
        { s.setGuard i r.2.2 with lockedSubdirs := r.2.1 })
  | .registerCleanupTargets workspaceSubdir outputSubdir =>
      ((),
        s.setGuard i
          ((s.guards i).registerCleanupTargets
            workspaceSubdir outputSubdir))
  | .cleanupTargets => (s.guards i, s)
  | .clearCleanup =>
      ((), s.setGuard i (s.guards i).clearCleanup)
  | .release =>
      let r := (s.guards i).release s.lockedSubdirs
      (r.1,
        { s.setGuard i r.2.2 with lockedSubdirs := r.2.1 })
  | .forkpty =>
      (env.answer .forkpty,
        s.setRunning i
          (s.running i || (env.answer .forkpty).isSome))
  | .fork =>
      (env.answer .fork,
        s.setRunning i
          (s.running i || (env.answer .fork).isSome))
  | .waitpid pid =>
      (env.answer (.waitpid pid), s.setRunning i false)
  | .monitor child config =>
      (env.answer (.monitor child config),
        s.setRunning i false)
  | .registerTaskProcessGroup subdir pgid =>
      ((),
        { s with
          workspaceToPgid :=
            s.workspaceToPgid.register subdir pgid })
  | .unregisterTaskProcessGroup subdir pgid =>
      ((),
        { s with
          workspaceToPgid :=
            s.workspaceToPgid.unregister subdir pgid })
  | .findTaskProcessGroup subdir =>
      (s.workspaceToPgid subdir, s)
  | op => (env.answer op, s)

end Drex

------------------------------------------------------------
-- What An Operation Changes
------------------------------------------------------------

namespace Drex

namespace Store

variable (s : Store) {p : Path} {q : Loc}

theorem node_tryCreateDirectories
    (error : ErrorCode)
    (amount : Nat)
    (h : ¬ q <+: p.loc) :
    (s.tryCreateDirectories p error amount).2.node q =
      s.node q := by
  have hTake : ¬ q <+: p.loc.take amount := by
    intro hPrefix
    exact h (hPrefix.trans (List.take_prefix _ _))
  unfold tryCreateDirectories
  cases error with
  | some message =>
      simp only []
      split
      · exact node_createDirectories_of_not_prefix s hTake
      · rfl
  | none =>
      simp only []
      split
      · exact node_createDirectories_of_not_prefix s h
      · rfl

theorem node_tryOpen
    (ok : Bool)
    (h : q ≠ p.loc) :
    (s.tryOpen p ok).2.node q = s.node q := by
  unfold tryOpen
  split
  · cases hOpen : s.openTrunc p.loc with
    | none => rfl
    | some s' =>
        simp only []
        rw [node_openTrunc hOpen]
        exact Function.update_of_ne h _ _
  · rfl

theorem node_tryWrite
    (offset : Nat)
    (data : Bytes)
    (ok : Bool)
    (amount : Nat)
    (h : q ≠ p.loc) :
    (s.tryWrite p offset data ok amount).2.node q =
      s.node q := by
  unfold tryWrite
  split
  · exact node_mapFile_of_ne s _ h
  · exact node_mapFile_of_ne s _ h

theorem node_tryClose
    (ok : Bool)
    (amount : Nat)
    (h : q ≠ p.loc) :
    (s.tryClose p ok amount).2.node q = s.node q := by
  unfold tryClose
  split
  · rfl
  · exact node_mapFile_of_ne s _ h

theorem node_tryRemoveAll
    (ok : Bool)
    (keep : Loc → Bool)
    (h : ¬ p.loc <+: q) :
    (s.tryRemoveAll p ok keep).2.node q = s.node q := by
  unfold tryRemoveAll
  split
  · exact node_removeAll_of_not_prefix s _ h
  · exact node_removeAll_of_not_prefix s _ h

end Store

/- The locations an operation can change. -/
def ServerOp.Affects : ServerOp → Loc → Prop
| .createDirectories p, q => q <+: p.loc
| .openTrunc p, q => q = p.loc
| .write p _ _, q => q = p.loc
| .close p, q => q = p.loc
| .removeAll p, q => p.loc <+: q
| _, _ => False

/- Every other location stays as it is. -/
theorem exec_node
    (i : Nat)
    {op : ServerOp}
    (env : Env)
    (s : ServerState)
    {q : Loc}
    (h : ¬ op.Affects q) :
    (exec i op env s).2.store.node q = s.store.node q := by
  cases op with
  | createDirectories p =>
      exact s.store.node_tryCreateDirectories _ _ h
  | openTrunc p => exact s.store.node_tryOpen _ h
  | write p offset data =>
      exact s.store.node_tryWrite _ _ _ _ h
  | close p => exact s.store.node_tryClose _ _ h
  | removeAll p => exact s.store.node_tryRemoveAll _ _ h
  | _ => rfl

end Drex
