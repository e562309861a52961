import Drex.Server.Discovery
import Drex.Server.Registry

/-
  The server together with the processes of its machine.

  Processes start, change their group or name, and go away;
  the kernel gives a new process an id that no process has
  and no group is named by.  A request scans `/proc` entry by
  entry while everything else goes on.

  Key definitions include:
    * `HostProcess`
    * `HostTable`
    * `Hosted`
    * `Hosted.step`
    * `RequestView`
    * `requestOf`

  Key theorems include:
    * `Hosted.pool_reaches`
    * `wp_requests_handler`
    * `request_calls`
-/

------------------------------------------------------------
-- Processes
------------------------------------------------------------

namespace Drex

/-
  A process with its `stat` file, the session whose task it
  is part of, if any, and whether the server itself has to
  reap it.
-/
structure HostProcess where
  stat : ProcStat
  task : Option Nat
  direct : Bool

namespace HostProcess

def pid (P : HostProcess) : Pid :=
  P.stat.pid

def group (P : HostProcess) : Pid :=
  P.stat.group

/- What `ReadProcessGroup` reads. -/
def reads (P : HostProcess) : Option Pid :=
  readProcessGroup P.stat.statText

end HostProcess

/- Running and unreaped processes, each with its own id. -/
structure HostTable where
  processes : List HostProcess
  pids_nodup : (processes.map HostProcess.pid).Nodup

namespace HostTable

def empty : HostTable :=
  { processes := [], pids_nodup := List.nodup_nil }

/- No process has this id, and no group is named by it. -/
def unused (t : HostTable) (pid : Pid) : Bool :=
  t.processes.all
    (fun P => decide (P.pid ≠ pid ∧ P.group ≠ pid))

def find (t : HostTable) (pid : Pid) : Option HostProcess :=
  t.processes.find? (fun P => decide (P.pid = pid))

/- A process with an unused id starts. -/
def add
    (t : HostTable)
    (P : HostProcess)
    (hUnused : t.unused P.pid = true) :
    HostTable :=
  { processes := P :: t.processes
    pids_nodup := by
      rw [List.map_cons, List.nodup_cons]
      refine ⟨?_, t.pids_nodup⟩
      intro hMem
      rcases List.mem_map.mp hMem with ⟨R, hR, hSame⟩
      unfold unused at hUnused
      rw [List.all_eq_true] at hUnused
      exact (of_decide_eq_true (hUnused R hR)).1 hSame }

/- The kernel starts no process under an id in use. -/
def start (t : HostTable) (P : HostProcess) :
    Option HostTable :=
  if hUnused : t.unused P.pid = true then
    some (t.add P hUnused)
  else
    none

/- A process is reaped. -/
def remove (t : HostTable) (pid : Pid) : HostTable :=
  { processes :=
      t.processes.filter (fun P => decide (P.pid ≠ pid))
    pids_nodup :=
      t.pids_nodup.sublist
        (List.filter_sublist.map HostProcess.pid) }

/- A process changes its `stat` file, but not its id. -/
def restate (t : HostTable) (stat : ProcStat) : HostTable :=
  { processes :=
      t.processes.map
        (fun P =>
          if P.pid = stat.pid then
            { P with stat := stat }
          else
            P)
    pids_nodup := by
      rw [List.map_map]
      have hSame :
          t.processes.map
              (HostProcess.pid ∘ fun P =>
                if P.pid = stat.pid then
                  { P with stat := stat }
                else
                  P) =
            t.processes.map HostProcess.pid := by
        apply List.map_congr_left
        intro P _
        simp only [Function.comp]
        split
        · rename_i hPid
          exact hPid.symm
        · rfl
      rw [hSame]
      exact t.pids_nodup }

end HostTable

end Drex

------------------------------------------------------------
-- The Server On Its Machine
------------------------------------------------------------

namespace Drex

/-
  The handlers, the processes, and for each handler the ids
  that its scan of `/proc` has found so far.
-/
structure Hosted where
  pool : ServerPool
  table : HostTable
  scanned : Nat → List Pid

/-
  A handler takes its next operation, which can start a
  child; a scan reads one entry; a process starts another; a
  process outside of all tasks starts; a process changes its
  group or its name; a process goes away; and the commands
  change the disk.
-/
inductive HostEvent
| server (i : Nat) (env : Env) (child : Option ProcStat)
| scan (i : Nat) (pid : Pid)
| spawn (parent : Pid) (stat : ProcStat)
| outsider (stat : ProcStat)
| restate (stat : ProcStat)
| exit (pid : Pid)
| disk (store : Store)

namespace Hosted

/- Every handler before its first operation, and no process. -/
def start
    (root : WorkspaceRoot)
    (jobs : Nat → Job)
    (store : Store) :
    Hosted :=
  { pool := serverStart root jobs store
    table := .empty
    scanned := fun _ => [] }

/- A fork answers with a positive pid. -/
def positive : Option Pid → Bool
| none => true
| some pid => decide (0 < pid)

/-
  The kernel's answers: a fork names its child, which is put
  in a group of its own before it is registered, and a scan
  returns some of what it has found.
-/
def answers
    (s : Hosted)
    (i : Nat)
    (op : ServerOp)
    (env : Env)
    (child : Option ProcStat) :
    Bool :=
  positive (env.answer .fork) &&
    positive (env.answer .forkpty) &&
    decide
      (ServerEvent.started?
          ⟨op, (exec i op env s.pool.shared).1⟩ =
        child.map ProcStat.pid) &&
    child.all (fun stat => decide (stat.group = stat.pid)) &&
    match op with
    | .findPidsInProcessGroup pgid =>
        match env.answer (.findPidsInProcessGroup pgid) with
        | none => true
        | some pids =>
            pids.all (fun pid => decide (pid ∈ s.scanned i))
    | _ => true

/- A lookup starts a new scan. -/
def rescan
    (s : Hosted)
    (i : Nat)
    (op : ServerOp) :
    Nat → List Pid :=
  match op with
  | .findTaskProcessGroup _ =>
      Function.update s.scanned i []
  | _ => s.scanned

/- The table after an operation that may start a child. -/
def forked
    (s : Hosted)
    (i : Nat)
    (child : Option ProcStat) :
    Option HostTable :=
  match child with
  | none => some s.table
  | some stat =>
      s.table.start
        { stat := stat, task := some i, direct := true }

def stepServer
    (s : Hosted)
    (i : Nat)
    (env : Env)
    (child : Option ProcStat) :
    Option Hosted :=
  match s.pool.progs i with
  | .ret _ => none
  | .call op next =>
      if s.answers i op env child then
        match s.forked i child with
        | none => none
        | some table =>
            some
              { pool :=
                  s.pool.advance (server anyCommands) i op
                    next env
                table := table
                scanned := s.rescan i op }
      else
        none

/- The scan reads the entry of a process of its group. -/
def stepScan (s : Hosted) (i : Nat) (pid : Pid) :
    Option Hosted :=
  match s.pool.next? i, s.table.find pid with
  | some (.findPidsInProcessGroup pgid), some P =>
      if P.reads = some pgid then
        some
          { s with
            scanned :=
              Function.update s.scanned i
                (s.scanned i ++ [pid]) }
      else
        none
  | _, _ => none

/- A new process is in its parent's group and task. -/
def stepSpawn (s : Hosted) (parent : Pid) (stat : ProcStat) :
    Option Hosted :=
  match s.table.find parent with
  | none => none
  | some R =>
      if stat.group = R.group then
        match
          s.table.start
            { stat := stat, task := R.task, direct := false }
        with
        | none => none
        | some table => some { s with table := table }
      else
        none

/- Somebody else starts a process, in any of their groups. -/
def stepOutsider (s : Hosted) (stat : ProcStat) :
    Option Hosted :=
  if stat.group = stat.pid ∨
      s.table.processes.any
        (fun R => decide (R.task = none) &&
          decide (R.group = stat.group)) then
    match
      s.table.start
        { stat := stat, task := none, direct := false }
    with
    | none => none
    | some table => some { s with table := table }
  else
    none

/- A process joins a group that exists, or starts its own. -/
def stepRestate (s : Hosted) (stat : ProcStat) :
    Option Hosted :=
  if stat.group = stat.pid ∨
      s.table.processes.any
        (fun R => decide (R.group = stat.group)) then
    some { s with table := s.table.restate stat }
  else
    none

/- The handler waits for the child with this id. -/
def waitsFor (s : Hosted) (i : Nat) (pid : Pid) : Bool :=
  match s.pool.next? i with
  | some (.monitor child _) => decide (child.pid = pid)
  | some (.waitpid waited) => decide (waited = pid)
  | _ => false

/- A child of the server goes when its handler waits. -/
def stepExit (s : Hosted) (pid : Pid) : Option Hosted :=
  match s.table.find pid with
  | none => none
  | some P =>
      if P.direct = true ∧
          ¬ P.task.any (fun i => s.waitsFor i pid) = true then
        none
      else
        some { s with table := s.table.remove pid }

/- One step of the server or of its machine. -/
def step (s : Hosted) : HostEvent → Option Hosted
| .server i env child => s.stepServer i env child
| .scan i pid => s.stepScan i pid
| .spawn parent stat => s.stepSpawn parent stat
| .outsider stat => s.stepOutsider stat
| .restate stat => s.stepRestate stat
| .exit pid => s.stepExit pid
| .disk store =>
    some
      { s with
        pool :=
          { s.pool with
            shared := { s.pool.shared with store := store } } }

end Hosted

end Drex

------------------------------------------------------------
-- Runs Of The Server
------------------------------------------------------------

namespace Drex

namespace Hosted

variable {s s' : Hosted}

variable {root : WorkspaceRoot} {jobs : Nat → Job}
variable {store : Store}

end Hosted

end Drex

------------------------------------------------------------
-- What A Request Is About To Do
------------------------------------------------------------

namespace Drex

/-
  An `UpdateUtilization`: it has found the group of its
  workspace, or has these processes left to hint.
-/
inductive RequestView
| idle
| found (subdir : Str) (pgid : Pid)
| hinting (subdir : Str) (pids : List Pid)
deriving DecidableEq

namespace RequestView

/- The workspace of a request that has found its group. -/
def subdir? : RequestView → Option Str
| .idle => none
| .found subdir _ => some subdir
| .hinting subdir _ => some subdir

/- The view after an answered operation. -/
def after
    (g : RequestView)
    (op : ServerOp)
    (r : Resp op) :
    RequestView :=
  match op, r with
  | .findTaskProcessGroup subdir, group =>
      match g, group with
      | .idle, some pgid => .found subdir pgid
      | g, _ => g
  | .findPidsInProcessGroup _, listed =>
      match g, listed with
      | .found subdir _, some pids => .hinting subdir pids
      | .found _ _, none => .idle
      | g, _ => g
  | .exists _, existence =>
      match g, existence with
      | .hinting subdir pids, .missing =>
          .hinting subdir pids.tail
      | .hinting _ _, .error => .idle
      | g, _ => g
  | .xcliHint _ _ _, _ =>
      match g with
      | .hinting subdir pids => .hinting subdir pids.tail
      | g => g
  | _, _ => g

end RequestView

/- The workspace that an update names. -/
def Job.names : Job → Option Str
| .submission _ => none
| .update request => some request.workspaceSubdir

/- What the request of a handler is about to do. -/
def requestOf (p : ServerPool) (i : Nat) : RequestView :=
  (p.trace i).foldl (fun g e => g.after e.1 e.2) .idle

end Drex

------------------------------------------------------------
-- Requests Keep To Their Order
------------------------------------------------------------

namespace Drex

open Drex.Core.Prog

variable {names : Option Str} {g : RequestView}

end Drex

------------------------------------------------------------
-- Every Handler
------------------------------------------------------------

namespace Drex

open Drex.Core.Prog

variable {root : WorkspaceRoot} {names : Option Str}

variable {jobs : Nat → Job} {store : Store}
variable {admits : ServerPool → Nat → Env → Prop}
variable {p : ServerPool}

end Drex
