import Drex.Server.RemoteService

/-
  Any number of handlers on one server, and what each of
  them sees of it.

  Key definitions include:
    * `Job`
    * `server`
    * `serverStart`
    * `SessionView`
    * `sessionAnswers`
    * `sessionView`

  Key theorems include:
    * `wp_call`
-/

------------------------------------------------------------
-- The Server
------------------------------------------------------------

namespace Drex

/- An RPC: its stream delivers, or it asks for. -/
inductive Job
| submission (messages : List TaskRequest)
| update (request : UpdateUtilizationRequest)

/- The handler of an RPC. -/
def Job.handler
    (root : WorkspaceRoot) :
    Job → ServerProg Status
| .submission messages => taskSubmission root messages
| .update request => do
    let reply ← updateUtilization root request
    return reply.1

/-
  The handlers interleave operation by operation; between
  two operations the running commands change the disk as
  `commands` allows.
-/
def server
    (commands : ServerState → Store → Prop) :
    Core.System Nat ServerOp Resp Env ServerState where
  ready := fun _ _ _ => True
  exec := exec
  ambient := fun s s' =>
    ∃ store, commands s store ∧ s' = { s with store := store }

/- The handlers of a server and what they share. -/
abbrev ServerPool :=
  Core.Pool Nat ServerOp Resp Status ServerState

/- Every RPC before its first operation. -/
def serverStart
    (root : WorkspaceRoot)
    (jobs : Nat → Job)
    (store : Store) :
    ServerPool :=
  Core.Pool.start
    (fun i => (jobs i).handler root) (ServerState.init store)

/- Running commands may change the disk in any way. -/
def anyCommands : ServerState → Store → Prop :=
  fun _ _ => True

/- No condition on the steps of a run. -/
def anyStep : ServerPool → Nat → Env → Prop :=
  fun _ _ _ => True

end Drex

------------------------------------------------------------
-- A Small Server
------------------------------------------------------------

namespace Drex

/- An environment in which every call succeeds. -/
def Env.granting : Env :=
  { answer := fun op =>
      match op with
      | .read _ => ()
      | .isCancelled => false
      | .send _ => ()
      | .weaklyCanonicalRoot => none
      | .status _ => .found
      | .exists _ => .found
      | .createDirectories _ => none
      | .openTrunc _ => true
      | .write _ _ _ => true
      | .close _ => true
      | .removeAll _ => true
      | .logExecutionContext _ => true
      | .acquire _ => Status.success
      | .registerCleanupTargets _ _ => ()
      | .cleanupTargets => .init
      | .clearCleanup => ()
      | .release => none
      | .getenv _ => none
      | .setenv _ _ _ => ()
      | .unsetenv _ => ()
      | .findCommandInPath _ => "<not found>".toList
      | .forkpty => some 100
      | .pipe => true
      | .fork => some 100
      | .closeFd => ()
      | .setNonBlocking => true
      | .kill _ => ()
      | .waitpid _ => ()
      | .strerror => []
      | .setpgid _ => ()
      | .chdir _ => true
      | .dup2 => true
      | .execShell _ => ()
      | .monitor _ _ =>
          some
            { status := Status.success
              chunks := [Monitor.startNotice]
              exit := some .loopEnded
              reaps := [0]
              cancelled := false }
      | .registerTaskProcessGroup _ _ => ()
      | .unregisterTaskProcessGroup _ _ => ()
      | .findTaskProcessGroup _ => none
      | .findPidsInProcessGroup _ => some [100]
      | .xcliHint _ _ _ => .finished 0
    amount := 0
    keep := fun _ => false }

/- The server of a project in the root directory. -/
def smallRoot : WorkspaceRoot :=
  { project := [], ordinary := by simp }

/- A disk with an empty workspace root and nothing else. -/
def smallStore : Store :=
  { node := fun l =>
      if l = [] ∨ l = [workspaceName] then
        some .directory
      else
        none }

/- A config that names a subdirectory and runs `true`. -/
def smallConfig (workspaceSubdir : String) : TaskConfig :=
  { TaskConfig.init with
    workspaceSubdir := workspaceSubdir.toList
    command := "true".toList }

/- A chunk that is a whole file of one byte. -/
def smallChunk (relativePath : String) : TaskFileChunk :=
  { data := [65]
    relativePath := relativePath.toList
    fileStart := true
    fileEnd := true
    fileSize := 1 }

/- So many granted steps of one handler. -/
def steps (n i : Nat) : List (Nat × Env) :=
  List.replicate n (i, Env.granting)

/- A run of the handlers on the small server. -/
def smallRun
    (jobs : Nat → Job)
    (schedule : List (Nat × Env)) :
    ServerPool :=
  (serverStart smallRoot jobs smallStore).runSchedule
    (server anyCommands) schedule

/- A small run is a run of admitted steps. -/
theorem reach_smallRun_of
    {commands : ServerState → Store → Prop}
    {admits : ServerPool → Nat → Env → Prop}
    (jobs : Nat → Job)
    (schedule : List (Nat × Env))
    (hAdmits :
      ∀ q i env, (i, env) ∈ schedule → admits q i env) :
    Core.Reach (server commands) admits
      (serverStart smallRoot jobs smallStore)
      (smallRun jobs schedule) := by
  have hRun :
      smallRun jobs schedule =
        (serverStart smallRoot jobs smallStore).runSchedule
          (server commands) schedule := by
    apply Core.runSchedule_congr
    rfl
  rw [hRun]
  exact
    Core.reach_schedule (fun _ _ _ => trivial) schedule
      hAdmits .start

theorem reach_smallRun
    (jobs : Nat → Job)
    (schedule : List (Nat × Env)) :
    Core.Reach (server anyCommands) anyStep
      (serverStart smallRoot jobs smallStore)
      (smallRun jobs schedule) :=
  reach_smallRun_of jobs schedule (fun _ _ _ _ => trivial)

end Drex

------------------------------------------------------------
-- What A Handler Has Done
------------------------------------------------------------

namespace Drex

/- One answered operation. -/
abbrev ServerEvent :=
  Core.Prog.Event ServerOp Resp

/- A message was read. -/
abbrev readOf (message : TaskRequest) : ServerEvent :=
  ⟨.read (some message), ()⟩

/- The stream has ended. -/
abbrev endOfStream : ServerEvent :=
  ⟨.read none, ()⟩

/- The call was not cancelled. -/
abbrev notCancelled : ServerEvent :=
  ⟨.isCancelled, false⟩

namespace ServerEvent

/- The path of a removal. -/
def removal? : ServerEvent → Option Path
| ⟨.removeAll p, _⟩ => some p
| _ => none

/- An `Acquire` that failed. -/
def isRefusal : ServerEvent → Bool
| ⟨.acquire _, status⟩ => !status.isOk
| _ => false

/- A `Release` that erased a key. -/
def isErasure : ServerEvent → Bool
| ⟨.release, key⟩ => key.isSome
| _ => false

end ServerEvent

/- The operations of one handler, in order. -/
def eventsOf
    (i : Nat)
    (log : List (Nat × ServerEvent)) :
    List ServerEvent :=
  log.filterMap (fun e => if e.1 = i then some e.2 else none)

@[simp] theorem eventsOf_append_self
    (i : Nat)
    (log : List (Nat × ServerEvent))
    (e : ServerEvent) :
    eventsOf i (log ++ [(i, e)]) = eventsOf i log ++ [e] := by
  simp [eventsOf]

theorem eventsOf_append_other
    {i j : Nat}
    (log : List (Nat × ServerEvent))
    (e : ServerEvent)
    (hNe : j ≠ i) :
    eventsOf j (log ++ [(i, e)]) = eventsOf j log := by
  simp [eventsOf, Ne.symm hNe]

theorem mem_eventsOf
    {i : Nat}
    {log : List (Nat × ServerEvent)}
    {e : ServerEvent} :
    e ∈ eventsOf i log ↔ (i, e) ∈ log := by
  simp [eventsOf]

end Drex

------------------------------------------------------------
-- Views
------------------------------------------------------------

namespace Drex

/-
  What a handler sees: its guard, whether its task runs, and
  what it has removed, been refused and released.
-/
@[ext] structure SessionView where
  guard : WorkspaceLockGuard
  running : Bool
  removed : List Path
  refused : Bool
  released : Bool
deriving DecidableEq

namespace SessionView

/- The view before the first operation. -/
def init : SessionView :=
  { guard := .init
    running := false
    removed := []
    refused := false
    released := false }

/- The view after an answered operation. -/
def after
    (g : SessionView)
    (op : ServerOp)
    (r : Resp op) :
    SessionView :=
  match op, r with
  | .acquire subdirKey, status =>
      if status.isOk then
        { g with
          guard :=
            { g.guard with key := subdirKey, locked := true } }
      else
        { g with refused := true }
  | .registerCleanupTargets workspaceSubdir outputSubdir, _ =>
      { g with
        guard :=
          g.guard.registerCleanupTargets
            workspaceSubdir outputSubdir }
  | .clearCleanup, _ =>
      { g with guard := g.guard.clearCleanup }
  | .release, key =>
      if key.isSome then
        { g with
          guard := { g.guard with key := [], locked := false }
          released := true }
      else
        g
  | .removeAll p, _ => { g with removed := g.removed ++ [p] }
  | .forkpty, pid =>
      { g with running := g.running || pid.isSome }
  | .fork, pid =>
      { g with running := g.running || pid.isSome }
  | .waitpid _, _ => { g with running := false }
  | .monitor _ _, _ => { g with running := false }
  | _, _ => g

/- What the guard may answer in a view. -/
def Allows
    (g : SessionView)
    (op : ServerOp)
    (r : Resp op) : Prop :=
  match op, r with
  | .acquire subdirKey, status =>
      status.isOk = true →
        (g.guard.locked = true → subdirKey = g.guard.key) ∧
          (g.guard.locked = false → subdirKey ≠ [])
  | .cleanupTargets, guard => guard = g.guard
  | .release, key =>
      key = if g.guard.locked then some g.guard.key else none
  | _, _ => True

end SessionView

/- The answers a handler may get, and its next view. -/
def sessionAnswers :
    Core.Prog.Answers ServerOp Resp SessionView :=
  fun g op r g' => g.Allows op r ∧ g' = g.after op r

/- The rule of one operation. -/
theorem wp_call
    (pre : SessionView → ServerOp → Prop)
    (op : ServerOp)
    (Q : Resp op → SessionView → Prop)
    (g : SessionView) :
    Core.Prog.wp sessionAnswers pre (perform op) Q g ↔
      pre g op ∧
        ∀ r, g.Allows op r → Q r (g.after op r) := by
  constructor
  · rintro ⟨hPre, hNext⟩
    exact ⟨hPre, fun r hAllows =>
      hNext r _ ⟨hAllows, rfl⟩⟩
  · rintro ⟨hPre, hNext⟩
    refine ⟨hPre, ?_⟩
    rintro r g' ⟨hAllows, rfl⟩
    exact hNext r hAllows

/- The view of a handler in a pool. -/
def viewOf (p : ServerPool) (i : Nat) : SessionView :=
  { guard := p.shared.guards i
    running := p.shared.running i
    removed := (eventsOf i p.log).filterMap
      ServerEvent.removal?
    refused := (eventsOf i p.log).any ServerEvent.isRefusal
    released := (eventsOf i p.log).any ServerEvent.isErasure }

/- The guard and the task after an operation of a handler. -/
theorem exec_guard_running
    (i : Nat)
    (op : ServerOp)
    (env : Env)
    (s : ServerState)
    (g : SessionView)
    (hGuard : g.guard = s.guards i)
    (hRunning : g.running = s.running i) :
    g.Allows op (exec i op env s).1 ∧
      (g.after op (exec i op env s).1).guard =
        (exec i op env s).2.guards i ∧
      (g.after op (exec i op env s).1).running =
        (exec i op env s).2.running i := by
  cases op with
  | acquire subdirKey =>
      rcases (s.guards i).acquire_cases
          s.lockedSubdirs subdirKey with
        ⟨hOk, hLocked, hKey, hRest⟩ |
        ⟨hOk, hLocked, hEmpty, hFree, hRest⟩ |
        ⟨hOk, hRest⟩
      · rcases hHeld : s.guards i with
          ⟨key, workspaceSubdir, outputSubdir, locked, reg⟩
        simp_all [exec, SessionView.Allows,
          SessionView.after, ServerState.setGuard]
      · simp_all [exec, SessionView.Allows,
          SessionView.after, ServerState.setGuard]
      · simp_all [exec, SessionView.Allows,
          SessionView.after, ServerState.setGuard]
  | release =>
      rcases (s.guards i).release_cases s.lockedSubdirs with
        ⟨hLocked, hRest⟩ | ⟨hLocked, hRest⟩
      · simp_all [exec, SessionView.Allows,
          SessionView.after, ServerState.setGuard]
      · simp_all [exec, SessionView.Allows,
          SessionView.after, ServerState.setGuard]
  | _ =>
      simp_all [exec, SessionView.Allows,
        SessionView.after, ServerState.setGuard,
        ServerState.setRunning]

/- The flags after an operation, from its event. -/
theorem after_flags
    (g : SessionView)
    (op : ServerOp)
    (r : Resp op) :
    (g.after op r).removed =
        g.removed ++
          (ServerEvent.removal? ⟨op, r⟩).toList ∧
      (g.after op r).refused =
        (g.refused || ServerEvent.isRefusal ⟨op, r⟩) ∧
      (g.after op r).released =
        (g.released || ServerEvent.isErasure ⟨op, r⟩) := by
  cases op with
  | acquire subdirKey =>
      cases hOk : r.isOk <;>
        simp [SessionView.after, hOk, ServerEvent.removal?,
          ServerEvent.isRefusal, ServerEvent.isErasure]
  | release =>
      cases hKey : r.isSome <;>
        simp [SessionView.after, hKey, ServerEvent.removal?,
          ServerEvent.isRefusal, ServerEvent.isErasure]
  | _ =>
      simp [SessionView.after, ServerEvent.removal?,
        ServerEvent.isRefusal, ServerEvent.isErasure]

/- A step moves the view of its own handler. -/
theorem viewOf_advance_self
    (commands : ServerState → Store → Prop)
    (p : ServerPool)
    (i : Nat)
    (op : ServerOp)
    (next : Resp op → ServerProg Status)
    (env : Env) :
    (viewOf p i).Allows op (exec i op env p.shared).1 ∧
      viewOf (p.advance (server commands) i op next env) i =
        (viewOf p i).after op
          (exec i op env p.shared).1 := by
  rcases exec_guard_running i op env p.shared (viewOf p i)
      rfl rfl with
    ⟨hAllows, hGuard, hRunning⟩
  rcases after_flags (viewOf p i) op
      (exec i op env p.shared).1 with
    ⟨hRemoved, hRefused, hReleased⟩
  refine ⟨hAllows, ?_⟩
  have hEvents :
      eventsOf i
          (p.advance (server commands) i op next env).log =
        eventsOf i p.log ++
          [⟨op, (exec i op env p.shared).1⟩] :=
    eventsOf_append_self i p.log _
  ext1
  · exact hGuard.symm
  · exact hRunning.symm
  · rw [hRemoved]
    unfold viewOf
    rw [hEvents]
    rw [List.filterMap_append]
    congr 1
  · rw [hRefused]
    unfold viewOf
    rw [hEvents]
    simp
  · rw [hReleased]
    unfold viewOf
    rw [hEvents]
    simp

/- A step leaves the guards of the other handlers alone. -/
theorem exec_other
    {i j : Nat}
    (op : ServerOp)
    (env : Env)
    (s : ServerState)
    (hNe : j ≠ i) :
    (exec i op env s).2.guards j = s.guards j ∧
      (exec i op env s).2.running j = s.running j := by
  cases op <;>
    simp [exec, ServerState.setGuard,
      ServerState.setRunning, hNe]

/- A run leaves the guards of unscheduled handlers alone. -/
theorem guards_runSchedule
    {commands : ServerState → Store → Prop}
    {j : Nat}
    (schedule : List (Nat × Env))
    (p : ServerPool)
    (hOther : ∀ e ∈ schedule, e.1 ≠ j) :
    (p.runSchedule (server commands)
        schedule).shared.guards j =
      p.shared.guards j := by
  induction schedule generalizing p with
  | nil => rfl
  | cons e rest ih =>
      rcases e with ⟨i, env⟩
      simp only [List.forall_mem_cons] at hOther
      unfold Core.Pool.runSchedule
      rw [ih _ hOther.2]
      unfold Core.Pool.step
      cases hProg : p.progs i with
      | ret status => rfl
      | call op next =>
          exact
            (exec_other op env p.shared
              (Ne.symm hOther.1)).1

theorem viewOf_advance_other
    (commands : ServerState → Store → Prop)
    (p : ServerPool)
    {i j : Nat}
    (op : ServerOp)
    (next : Resp op → ServerProg Status)
    (env : Env)
    (hNe : j ≠ i) :
    viewOf (p.advance (server commands) i op next env) j =
      viewOf p j := by
  rcases exec_other op env p.shared hNe with
    ⟨hGuard, hRunning⟩
  have hEvents :
      eventsOf j
          (p.advance (server commands) i op next env).log =
        eventsOf j p.log :=
    eventsOf_append_other p.log _ hNe
  ext1
  · exact hGuard
  · exact hRunning
  · simp [viewOf, hEvents]
  · simp [viewOf, hEvents]
  · simp [viewOf, hEvents]

/- The views of a server's handlers. -/
def sessionView
    (commands : ServerState → Store → Prop) :
    Core.View (server commands) Status
      (fun _ : Nat => sessionAnswers) where
  of := viewOf
  own := by
    intro p i op next env
    exact viewOf_advance_self commands p i op next env
  other := by
    intro p i j op next env hNe
    exact viewOf_advance_other commands p op next env hNe
  ambient := by
    rintro p shared j ⟨store, _, rfl⟩
    rfl

end Drex
