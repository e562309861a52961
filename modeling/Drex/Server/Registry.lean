import Drex.Server.Protocol.Parts
import Drex.Server.LockTable

/-
  The table of process groups lists the tasks whose sessions
  stand between `RegisterTaskProcessGroup` and
  `UnregisterTaskProcessGroup`, and exactly these as long as
  no constructor of a thread throws between the two.

  The table has a lock of its own, so what is proved of it
  rests on the lock of the workspace: the joint view of a
  session is its guard together with what it has started,
  registered and unregistered.

  Key definitions include:
    * `RegistryView`
    * `Stage`
    * `registryPre`
    * `positivePids`
    * `HoldsKey`
    * `StartedChild`
    * `BetweenSteps`
    * `startsThreads`
    * `RegistryMatches`

  Key theorems include:
    * `wp_registry_handler`
    * `registrySound_change`
    * `reach_registrySound`
    * `registry_invariant`
-/

------------------------------------------------------------
-- What A Session Has Registered
------------------------------------------------------------

namespace Drex

namespace ServerEvent

/- The child that a fork started. -/
def started? : ServerEvent → Option Pid
| ⟨.fork, pid⟩ => pid
| ⟨.forkpty, pid⟩ => pid
| _ => none

/- The entry of a `RegisterTaskProcessGroup`. -/
def registered? : ServerEvent → Option (Str × Pid)
| ⟨.registerTaskProcessGroup subdir pgid, _⟩ =>
    some (subdir, pgid)
| _ => none

/- The entry of an `UnregisterTaskProcessGroup`. -/
def unregistered? : ServerEvent → Option (Str × Pid)
| ⟨.unregisterTaskProcessGroup subdir pgid, _⟩ =>
    some (subdir, pgid)
| _ => none

/- A thread that `MonitorChildProcess` could not make. -/
def throws : ServerEvent → Bool
| ⟨.monitor _ _, none⟩ => true
| _ => false

end ServerEvent

/-
  What a handler has started, registered and unregistered,
  and whether its monitor has thrown.
-/
@[ext] structure RegistryView where
  children : List Pid
  registered : List (Str × Pid)
  unregistered : List (Str × Pid)
  thrown : Bool
deriving DecidableEq

namespace RegistryView

/- The view before the first operation. -/
def init : RegistryView :=
  { children := []
    registered := []
    unregistered := []
    thrown := false }

/- The view once a child was started. -/
def started (pid : Pid) : RegistryView :=
  { children := [pid]
    registered := []
    unregistered := []
    thrown := false }

/- The view between the two steps. -/
def between (key : Str) (pid : Pid) : RegistryView :=
  { children := [pid]
    registered := [(key, pid)]
    unregistered := []
    thrown := false }

/- The view after both steps. -/
def closed (key : Str) (pid : Pid) : RegistryView :=
  { children := [pid]
    registered := [(key, pid)]
    unregistered := [(key, pid)]
    thrown := false }

/- The view once an exception has skipped the second step. -/
def abandoned (key : Str) (pid : Pid) : RegistryView :=
  { RegistryView.between key pid with thrown := true }

/- The view after an answered operation. -/
def after
    (h : RegistryView)
    (op : ServerOp)
    (r : Resp op) :
    RegistryView :=
  { children :=
      h.children ++ (ServerEvent.started? ⟨op, r⟩).toList
    registered :=
      h.registered ++
        (ServerEvent.registered? ⟨op, r⟩).toList
    unregistered :=
      h.unregistered ++
        (ServerEvent.unregistered? ⟨op, r⟩).toList
    thrown := h.thrown || ServerEvent.throws ⟨op, r⟩ }

end RegistryView

/- The operations that a registry view takes no note of. -/
def ServerOp.LeavesRegistry : ServerOp → Prop
| .fork => False
| .forkpty => False
| .registerTaskProcessGroup _ _ => False
| .unregisterTaskProcessGroup _ _ => False
| .monitor _ _ => False
| _ => True

theorem RegistryView.after_leaves
    {op : ServerOp}
    (hLeaves : op.LeavesRegistry)
    (h : RegistryView)
    (r : Resp op) :
    h.after op r = h := by
  cases op with
  | fork => exact hLeaves.elim
  | forkpty => exact hLeaves.elim
  | registerTaskProcessGroup subdir pgid =>
      exact hLeaves.elim
  | unregisterTaskProcessGroup subdir pgid =>
      exact hLeaves.elim
  | monitor child config => exact hLeaves.elim
  | _ =>
      simp [after, ServerEvent.started?,
        ServerEvent.registered?, ServerEvent.unregistered?,
        ServerEvent.throws]

/- The next view of a handler. -/
def registryAnswers :
    Core.Prog.Answers ServerOp Resp RegistryView :=
  fun h op r h' => h' = h.after op r

/- What a handler has registered in a pool. -/
def registryOf (p : ServerPool) (i : Nat) : RegistryView :=
  { children :=
      (eventsOf i p.log).filterMap ServerEvent.started?
    registered :=
      (eventsOf i p.log).filterMap ServerEvent.registered?
    unregistered :=
      (eventsOf i p.log).filterMap
        ServerEvent.unregistered?
    thrown := (eventsOf i p.log).any ServerEvent.throws }

theorem registryOf_advance_self
    (commands : ServerState → Store → Prop)
    (p : ServerPool)
    (i : Nat)
    (op : ServerOp)
    (next : Resp op → ServerProg Status)
    (env : Env) :
    registryOf
        (p.advance (server commands) i op next env) i =
      (registryOf p i).after op
        (exec i op env p.shared).1 := by
  have hEvents :
      eventsOf i
          (p.advance (server commands) i op next env).log =
        eventsOf i p.log ++
          [⟨op, (exec i op env p.shared).1⟩] :=
    eventsOf_append_self i p.log _
  unfold registryOf RegistryView.after
  rw [hEvents]
  simp only [List.filterMap_append, List.any_append]
  congr 1
  simp

theorem registryOf_advance_other
    (commands : ServerState → Store → Prop)
    (p : ServerPool)
    {i j : Nat}
    (op : ServerOp)
    (next : Resp op → ServerProg Status)
    (env : Env)
    (hNe : j ≠ i) :
    registryOf
        (p.advance (server commands) i op next env) j =
      registryOf p j := by
  have hEvents :
      eventsOf j
          (p.advance (server commands) i op next env).log =
        eventsOf j p.log :=
    eventsOf_append_other p.log _ hNe
  unfold registryOf
  rw [hEvents]

/- The answers to a handler and both of its next views. -/
def jointAnswers :
    Core.Prog.Answers ServerOp Resp
      (SessionView × RegistryView) :=
  Core.Prog.both sessionAnswers registryAnswers

/- The joint views of a server's handlers. -/
def jointView
    (commands : ServerState → Store → Prop) :
    Core.View (server commands) Status
      (fun _ : Nat => jointAnswers) where
  of := fun p i => (viewOf p i, registryOf p i)
  own := by
    intro p i op next env
    constructor
    · exact viewOf_advance_self commands p i op next env
    · exact registryOf_advance_self commands p i op next env
  other := by
    intro p i j op next env hNe
    rw [viewOf_advance_other commands p op next env hNe,
      registryOf_advance_other commands p op next env hNe]
  ambient := by
    rintro p shared j ⟨store, _, rfl⟩
    rfl

end Drex

------------------------------------------------------------
-- The Stages Of A Session
------------------------------------------------------------

namespace Drex

/-
  Where a session stands with its task.  Between the two
  steps it holds the lock of the key it registered, unless
  its monitor has thrown.
-/
inductive Stage
    (g : SessionView) :
    RegistryView → Prop
| before : Stage g .init
| started (pid : Pid) : Stage g (.started pid)
| between
    {key : Str}
    (pid : Pid)
    (hLocked : g.guard.locked = true)
    (hKey : g.guard.key = key)
    (hNonempty : key ≠ []) :
    Stage g (.between key pid)
| closed (key : Str) (pid : Pid) : Stage g (.closed key pid)
| abandoned (key : Str) (pid : Pid) :
    Stage g (.abandoned key pid)

/- The precondition of an operation in the joint view. -/
def registryPre
    (gh : SessionView × RegistryView)
    (op : ServerOp) : Prop :=
  Stage gh.1 gh.2 ∧
    match op with
    | .fork => gh.2 = .init
    | .forkpty => gh.2 = .init
    | .registerTaskProcessGroup subdir pgid =>
        gh.2 = .started pgid ∧
          gh.1.guard.locked = true ∧
            gh.1.guard.key = subdir ∧ subdir ≠ []
    | .unregisterTaskProcessGroup subdir pgid =>
        gh.2 = .between subdir pgid
    | .monitor child _ =>
        ∃ key, gh.2 = .between key child.pid
    | _ => True

theorem registryPre_leaves
    {gh : SessionView × RegistryView}
    {op : ServerOp}
    (hStage : Stage gh.1 gh.2)
    (hLeaves : op.LeavesRegistry) :
    registryPre gh op := by
  constructor
  · exact hStage
  · cases op with
    | fork => exact hLeaves.elim
    | forkpty => exact hLeaves.elim
    | registerTaskProcessGroup subdir pgid =>
        exact hLeaves.elim
    | unregisterTaskProcessGroup subdir pgid =>
        exact hLeaves.elim
    | monitor child config => exact hLeaves.elim
    | _ => trivial

end Drex

------------------------------------------------------------
-- Rules Of The Joint View
------------------------------------------------------------

namespace Drex

open Drex.Core.Prog

variable {α β : Type}
variable {g : SessionView} {h : RegistryView}

/- The rule of an operation with what follows it. -/
theorem wp_joint_call
    {op : ServerOp}
    {f : Resp op → ServerProg β}
    {Q : β → SessionView × RegistryView → Prop}
    (hPre : registryPre (g, h) op)
    (hNext :
      ∀ r, g.Allows op r →
        wp jointAnswers registryPre (f r) Q
          (g.after op r, h.after op r)) :
    wp jointAnswers registryPre (perform op >>= f) Q
      (g, h) := by
  rw [wp_call_bind]
  constructor
  · exact hPre
  · rintro r ⟨g', h'⟩ ⟨⟨hAllows, hFirst⟩, hSecond⟩
    change g' = g.after op r at hFirst
    change h' = h.after op r at hSecond
    rw [hFirst, hSecond]
    exact hNext r hAllows

/- The rule of an operation that leaves the registry. -/
theorem wp_joint_leaves
    {op : ServerOp}
    {f : Resp op → ServerProg β}
    {Q : β → SessionView × RegistryView → Prop}
    (hStage : Stage g h)
    (hLeaves : op.LeavesRegistry)
    (hNext :
      ∀ r, g.Allows op r →
        wp jointAnswers registryPre (f r) Q
          (g.after op r, h)) :
    wp jointAnswers registryPre (perform op >>= f) Q
      (g, h) := by
  apply wp_joint_call (registryPre_leaves hStage hLeaves)
  intro r hAllows
  rw [RegistryView.after_leaves hLeaves h r]
  exact hNext r hAllows

/-
  Outside of the two steps, a part of a handler that leaves
  the registry alone is judged by its guard.
-/
theorem wp_joint_frame
    {preA : SessionView → ServerOp → Prop}
    {p : ServerProg α}
    {Q : α → SessionView → Prop}
    {P : ServerOp → Prop}
    (hStage : ∀ g', Stage g' h)
    (hLeaves : ∀ op, P op → op.LeavesRegistry)
    (hOnly : OnlyCalls P p)
    (hWp : wp sessionAnswers preA p Q g) :
    wp jointAnswers registryPre p
      (fun a gh => Q a gh.1 ∧ gh.2 = h) (g, h) := by
  apply wp_frame ?_ ?_ (onlyCalls_mono hLeaves hOnly) hWp
  · intro op r h' hOp hAnswer
    exact hAnswer.trans (RegistryView.after_leaves hOp h r)
  · intro g' op hOp _
    exact registryPre_leaves (hStage g') hOp

theorem transfers_leaves
    (op : ServerOp)
    (hOp : op.Transfers) :
    op.LeavesRegistry := by
  cases op <;> first | exact trivial | exact hOp.elim

theorem prepares_leaves
    (op : ServerOp)
    (hOp : op.Prepares) :
    op.LeavesRegistry := by
  cases op <;> first | exact trivial | exact hOp.elim

theorem cleans_leaves
    (op : ServerOp)
    (hOp : op.Cleans) :
    op.LeavesRegistry := by
  cases op <;> first | exact trivial | exact hOp.elim

theorem updates_leaves
    (op : ServerOp)
    (hOp : op.Updates) :
    op.LeavesRegistry := by
  cases op <;> first | exact trivial | exact hOp.elim

end Drex

------------------------------------------------------------
-- A Submission In The Joint View
------------------------------------------------------------

namespace Drex

open Drex.Core.Prog

variable {root : WorkspaceRoot}
variable {g : SessionView} {key output : Str}

/- Nothing is registered. -/
def RegistryView.Idle (h : RegistryView) : Prop :=
  h = .init ∨ ∃ pid, h = .started pid

theorem RegistryView.Idle.stage
    {h : RegistryView}
    (hIdle : h.Idle)
    (g : SessionView) :
    Stage g h := by
  rcases hIdle with rfl | ⟨pid, rfl⟩
  · exact .before
  · exact .started pid

namespace TaskExecutor

/- What a start leaves, whether it succeeded or not. -/
def Launched
    (root : WorkspaceRoot)
    (key output : Str)
    (result : Except Status ChildProcess)
    (gh : SessionView × RegistryView) : Prop :=
  gh.1.Held root key output ∧
    match result with
    | .error _ => gh.1.running = false ∧ gh.2.Idle
    | .ok child => gh.2 = .started child.pid

/- What an operation that leaves the registry leads to. -/
theorem joint_spec
    {P : SessionView × RegistryView → Prop}
    {op : ServerOp}
    {Q : Resp op → SessionView × RegistryView → Prop}
    (hStage : ∀ gh, P gh → Stage gh.1 gh.2)
    (hLeaves : op.LeavesRegistry)
    (hNext :
      ∀ g h r, P (g, h) → Q r (g.after op r, h)) :
    OpSpec jointAnswers registryPre P op Q := by
  rintro ⟨g, h⟩ hBefore
  constructor
  · exact registryPre_leaves (hStage _ hBefore) hLeaves
  · rintro r ⟨g', h'⟩ ⟨⟨_, hFirst⟩, hSecond⟩
    change g' = g.after op r at hFirst
    change h' = h.after op r at hSecond
    rw [RegistryView.after_leaves hLeaves] at hSecond
    rw [hFirst, hSecond]
    exact hNext g h r hBefore

/- The session and the registry while a child is started. -/
def jointPhases
    (root : WorkspaceRoot)
    (key output : Str) :
    StartPhases (SessionView × RegistryView) :=
  { idle := fun gh =>
      gh.1.Held root key output ∧ gh.1.running = false ∧
        gh.2 = .init
    forked := fun pid gh =>
      gh.1.Held root key output ∧ gh.2 = .started pid
    ready := fun pid gh =>
      gh.1.Held root key output ∧ gh.2 = .started pid
    killed := fun gh =>
      gh.1.Held root key output ∧ gh.2.Idle
    reaped := fun gh =>
      gh.1.Held root key output ∧ gh.1.running = false ∧
        gh.2.Idle }

/- A fork is the first thing the registry sees. -/
theorem jointPhases_forked
    {gh gh' : SessionView × RegistryView}
    (hHeld : gh.1.Held root key output)
    (hIdle : gh.1.running = false)
    {pid : Option Pid}
    (hSession :
      gh'.1 =
        { gh.1 with running := gh.1.running || pid.isSome })
    (hRegistry :
      gh'.2 =
        { RegistryView.init with children := pid.toList }) :
    (jointPhases root key output).Forked pid gh' := by
  have hAfter :=
    held_running hHeld (gh.1.running || pid.isSome)
  rw [← hSession] at hAfter
  cases pid with
  | none =>
      refine ⟨hAfter, ?_, hRegistry⟩
      rw [hSession, hIdle]
      rfl
  | some pid => exact ⟨hAfter, hRegistry⟩

theorem jointPhases_sound :
    (jointPhases root key output).Sound jointAnswers
      registryPre where
  surrounds := by
    intro op hOp
    apply joint_spec
    · intro gh hIdle
      rw [hIdle.2.2]
      exact .before
    · cases op <;> first | exact trivial | exact hOp.elim
    · intro g h r hIdle
      cases op <;> first | exact hIdle | exact hOp.elim
  forkpty := by
    rintro gh ⟨hHeld, hIdle, hInit⟩
    refine ⟨⟨?_, hInit⟩, ?_⟩
    · rw [hInit]
      exact .before
    · rintro pid gh' ⟨⟨_, hFirst⟩, hSecond⟩
      apply jointPhases_forked hHeld hIdle hFirst
      rw [show gh'.2 = gh.2.after .forkpty pid from hSecond,
        hInit]
      rfl
  fork := by
    rintro gh ⟨hHeld, hIdle, hInit⟩
    refine ⟨⟨?_, hInit⟩, ?_⟩
    · rw [hInit]
      exact .before
    · rintro pid gh' ⟨⟨_, hFirst⟩, hSecond⟩
      apply jointPhases_forked hHeld hIdle hFirst
      rw [show gh'.2 = gh.2.after .fork pid from hSecond,
        hInit]
      rfl
  closeFd := by
    intro pid
    refine joint_spec ?_ trivial (fun _ _ _ h => h)
    intro gh hForked
    rw [hForked.2]
    exact .started pid
  setNonBlocking := by
    intro pid
    refine joint_spec ?_ trivial ?_
    · intro gh hForked
      rw [hForked.2]
      exact .started pid
    · intro g h done hForked
      cases done with
      | true => exact hForked
      | false => exact hForked
  kill := by
    intro pid
    refine joint_spec ?_ trivial ?_
    · intro gh hForked
      rw [hForked.2]
      exact .started pid
    · intro g h r hForked
      exact ⟨hForked.1, Or.inr ⟨pid, hForked.2⟩⟩
  waitpid := by
    intro pid
    refine joint_spec ?_ trivial ?_
    · exact fun gh hKilled => hKilled.2.stage gh.1
    · intro g h r hKilled
      exact ⟨held_running hKilled.1 false, rfl, hKilled.2⟩
  strerror := by
    refine joint_spec ?_ trivial (fun _ _ _ h => h)
    exact fun gh hReaped => hReaped.2.2.stage gh.1

theorem wp_joint_startChildProcess
    (hHeld : g.Held root key output)
    (hIdle : g.running = false)
    (config : TaskConfig) :
    wp jointAnswers registryPre (startChildProcess config)
      (Launched root key output)
      (g, .init) := by
  refine
    wp_mono ?_
      (wp_startChildProcess_of jointPhases_sound
        ⟨hHeld, hIdle, rfl⟩ config)
  intro result gh hStarted
  cases result with
  | ok child => exact hStarted
  | error status =>
      rcases hStarted.2 with ⟨hHeld', hIdle', hInit⟩ | hEnd
      · exact ⟨hHeld', hIdle', Or.inl hInit⟩
      · exact hEnd

/-
  A command that was not started, has run between the two
  steps, or was left behind when its monitor threw.
-/
def Ran
    (root : WorkspaceRoot)
    (key output : Str)
    (gh : SessionView × RegistryView) : Prop :=
  gh.1.Held root key output ∧ gh.1.running = false ∧
    (gh.2.Idle ∨
      ∃ pid,
        gh.2 = .closed key pid ∨ gh.2 = .abandoned key pid)

/- The two steps enclose the run of the command. -/
theorem wp_joint_runCommand
    {config : TaskConfig}
    (hHeld : g.Held root config.workspaceSubdir output)
    (hIdle : g.running = false) :
    wp jointAnswers registryPre (runCommand config)
      (fun _ gh => Ran root config.workspaceSubdir output gh)
      (g, .init) := by
  unfold runCommand
  rw [wp_bind]
  refine wp_mono ?_
    (wp_joint_startChildProcess hHeld hIdle config)
  rintro started ⟨g', h'⟩ ⟨hAfter, hStarted⟩
  cases started with
  | error status =>
      exact ⟨hAfter, hStarted.1, Or.inl hStarted.2⟩
  | ok child =>
      change h' = .started child.pid at hStarted
      rw [hStarted]
      have hGuard := hAfter.guard
      refine wp_joint_leaves (.started child.pid) trivial ?_
      intro _ _
      have hRegister :
          registryPre (g', .started child.pid)
            (.registerTaskProcessGroup
              config.workspaceSubdir child.pid) := by
        refine ⟨.started child.pid, rfl, ?_, ?_, ?_⟩
        · exact hAfter.locked
        · change g'.guard.key = _
          rw [hGuard]
        · exact hAfter.nonempty
      have hBetween :
          ∀ b : Bool,
            Stage { g' with running := b }
              (.between config.workspaceSubdir child.pid) := by
        intro b
        refine Stage.between child.pid hAfter.locked ?_ ?_
        · change g'.guard.key = _
          rw [hGuard]
        · exact hAfter.nonempty
      apply wp_joint_call hRegister
      intro _ _
      unfold monitorChildProcess
      rw [LawfulMonad.bind_assoc]
      refine wp_joint_leaves (hBetween g'.running) trivial ?_
      intro idleTimeout _
      refine
        wp_joint_call
          ⟨hBetween g'.running, config.workspaceSubdir, rfl⟩ ?_
      intro monitored _
      have hDone := held_running hAfter false
      cases monitored with
      | none =>
          exact ⟨hDone, rfl, Or.inr ⟨child.pid, Or.inr rfl⟩⟩
      | some outcome =>
          refine wp_joint_call ⟨hBetween false, rfl⟩ ?_
          intro _ _
          exact ⟨hDone, rfl, Or.inr ⟨child.pid, Or.inl rfl⟩⟩

theorem wp_joint_execute
    {config : TaskConfig}
    (hHeld : g.Held root config.workspaceSubdir output)
    (hIdle : g.running = false) :
    wp jointAnswers registryPre (execute root config)
      (fun _ gh => Ran root config.workspaceSubdir output gh)
      (g, .init) := by
  unfold execute
  by_cases hCommand : config.command = []
  · simp only [hCommand, if_true]
    exact ⟨hHeld, hIdle, Or.inl (Or.inl rfl)⟩
  · simp only [hCommand, if_false]
    refine wp_joint_leaves .before trivial ?_
    intro dirError _
    split
    · exact ⟨hHeld, hIdle, Or.inl (Or.inl rfl)⟩
    · rw [wp_bind]
      have hConfigure :=
        wp_joint_frame (fun _ => Stage.before)
          prepares_leaves
          (onlyCalls_configure config
            (subdirPath root config.workspaceSubdir))
          (@wp_configureDrexRuntimeEnvironment root True
            (fun _ => True) g config.workspaceSubdir output
            hHeld (fun _ => trivial) config)
      refine wp_mono ?_ hConfigure
      rintro _ ⟨g', h'⟩ ⟨hView, hRegistry⟩
      change g' = g at hView
      change h' = .init at hRegistry
      rw [hView, hRegistry]
      refine wp_joint_leaves .before trivial ?_
      intro logged _
      cases logged with
      | false => exact ⟨hHeld, hIdle, Or.inl (Or.inl rfl)⟩
      | true =>
          simp only [if_true]
          rw [wp_bind]
          refine wp_mono ?_ (wp_joint_runCommand hHeld hIdle)
          rintro ended ⟨g'', h''⟩ hRan
          split
          · unfold emitLogChunk
            rw [if_pos (by decide), wp_bind]
            have hStage : Stage g'' h'' := by
              rcases hRan.2.2 with hEnd | ⟨pid, hEnd | hEnd⟩
              · exact RegistryView.Idle.stage hEnd g''
              · change h'' = _ at hEnd
                rw [hEnd]
                exact .closed _ pid
              · change h'' = _ at hEnd
                rw [hEnd]
                exact .abandoned _ pid
            constructor
            · exact registryPre_leaves hStage trivial
            · rintro r ⟨g₁, h₁⟩ ⟨⟨_, hFirst⟩, hSecond⟩
              change g₁ = g'' at hFirst
              have hSame : h₁ = h'' :=
                Eq.trans hSecond
                  (RegistryView.after_leaves
                    (by trivial) h'' r)
              rw [hFirst, hSame]
              exact hRan
          · exact hRan

end TaskExecutor

/-
  Outside of the two steps, which come in a pair unless the
  monitor has thrown.
-/
def RegistryView.Closed (h : RegistryView) : Prop :=
  (∀ g, Stage g h) ∧
    (h.thrown = false → h.registered = h.unregistered)

theorem RegistryView.Idle.closed
    {h : RegistryView}
    (hIdle : h.Idle) :
    h.Closed := by
  constructor
  · exact hIdle.stage
  · intro _
    rcases hIdle with rfl | ⟨pid, rfl⟩
    · rfl
    · rfl

theorem TaskExecutor.Ran.closed
    {gh : SessionView × RegistryView}
    (hRan : TaskExecutor.Ran root key output gh) :
    gh.2.Closed := by
  rcases hRan.2.2 with hIdle | ⟨pid, hOver | hOver⟩
  · exact hIdle.closed
  · rw [hOver]
    exact ⟨fun _ => .closed key pid, fun _ => rfl⟩
  · rw [hOver]
    refine ⟨fun _ => .abandoned key pid, ?_⟩
    intro hThrown
    cases hThrown

/- A failed part only sends, in whatever stage it is. -/
theorem wp_joint_failSubmission
    (root : WorkspaceRoot)
    {post : SessionView × RegistryView → Prop}
    (hSound : g.Sound)
    (hClosed : h.Closed)
    (hPost : post (g, h))
    (ending : Ending) :
    wp jointAnswers registryPre (failSubmission ending)
      (fun _ => post) (g, h) := by
  have hSend :
      ∀ response,
        ServerOp.LeavesRegistry (.send response) :=
    fun _ => trivial
  refine
    wp_mono ?_
      (wp_joint_frame hClosed.1 (fun _ hOp => hOp)
        (onlyCalls_failSubmission hSend ending)
        (@wp_failSubmission root True (fun _ => True) g
          hSound ending))
  rintro _ ⟨g', h'⟩ ⟨hView, hRegistry⟩
  change g' = g at hView
  change h' = h at hRegistry
  rw [hView, hRegistry]
  exact hPost

theorem wp_joint_submissionBody
    (hUnheld : g.Unheld)
    (hRefused : g.refused = false)
    (messages : List TaskRequest) :
    wp jointAnswers registryPre
      (submissionBody root messages)
      (fun _ gh =>
        ((∃ key output, gh.1.Held root key output ∧
          gh.1.running = false) ∨ gh.1.Unheld) ∧
            gh.2.Closed)
      (g, .init) := by
  have hInit : RegistryView.init.Closed :=
    RegistryView.Idle.closed (Or.inl rfl)
  unfold submissionBody finishSubmission
  rw [wp_bind]
  have hDownload :=
    wp_joint_frame (fun _ => Stage.before) transfers_leaves
      (onlyCalls_downloadWorkspace root messages)
      (@wp_downloadWorkspace root True (fun _ => True) g
        hUnheld hRefused messages trivial
        (fun _ _ _ _ _ => trivial))
  refine wp_mono ?_ hDownload
  rintro ⟨config, ending⟩ ⟨g', h'⟩ ⟨hSettled, hRegistry⟩
  change h' = .init at hRegistry
  rw [hRegistry]
  rcases hSettled with ⟨hHeld, hIdle⟩ | ⟨hView, hOk⟩
  · simp only []
    split
    · rw [wp_bind]
      refine wp_mono ?_
        (TaskExecutor.wp_joint_execute hHeld hIdle)
      rintro executed ⟨g'', h''⟩ hRan
      have hClosed := hRan.closed
      have hAfter := hRan.1
      rcases executed with failed | result
      · exact
          wp_joint_failSubmission root hAfter.sound hClosed
            ⟨Or.inl ⟨_, _, hAfter, hRan.2.1⟩, hClosed⟩
            failed
      · refine wp_joint_leaves (hClosed.1 g'') trivial ?_
        intro _ _
        exact
          ⟨Or.inl ⟨_, _, hAfter, hRan.2.1⟩, hClosed⟩
    · exact
        wp_joint_failSubmission root hHeld.sound hInit
          ⟨Or.inl ⟨_, _, hHeld, hIdle⟩, hInit⟩ ending
  · have hFalse : ¬ ending.isOk = true := by
      intro h
      rw [show ending.isOk = false from hOk] at h
      cases h
    simp only []
    rw [if_neg hFalse]
    exact
      wp_joint_failSubmission root
        (SessionView.Unheld.sound hView) hInit
        ⟨Or.inr hView, hInit⟩ ending

end Drex

------------------------------------------------------------
-- Handlers In The Joint View
------------------------------------------------------------

namespace Drex

open Drex.Core.Prog

variable {root : WorkspaceRoot}

theorem wp_joint_taskSubmission
    (messages : List TaskRequest) :
    wp jointAnswers registryPre
      (taskSubmission root messages)
      (fun _ gh => gh.2.Closed)
      (.init, .init) := by
  have hInit := SessionView.init_unheld
  unfold taskSubmission
  refine wp_joint_leaves .before trivial ?_
  intro rootError _
  split
  · unfold sendFailure
    refine wp_joint_leaves .before trivial ?_
    intro _ _
    exact RegistryView.Idle.closed (Or.inl rfl)
  · rw [wp_bind]
    refine wp_mono ?_
      (wp_joint_submissionBody hInit rfl messages)
    rintro status ⟨g', h'⟩ ⟨hSettled, hClosed⟩
    rw [wp_bind]
    -- The destructor leaves the registry as it found it.
    have hDestroy :
        ∀ {key output : Str},
          (g'.Held root key output ∧ g'.running = false) ∨
              g'.Unheld →
            wp jointAnswers registryPre (destroyGuard root)
              (fun _ gh => gh.1.Closed ∧ gh.2 = h')
              (g', h') := by
      intro key output hGuard
      exact
        wp_joint_frame hClosed.1 cleans_leaves
          (onlyCalls_destroyGuard root)
          (@wp_destroyGuard root True (fun _ => True) g'
            key output hGuard)
    have hEnd :
        ∀ (_ : Unit) (gh : SessionView × RegistryView),
          gh.1.Closed ∧ gh.2 = h' →
            wp jointAnswers registryPre
              (pure status : ServerProg Status)
              (fun _ gh => gh.2.Closed) gh := by
      rintro _ gh ⟨_, hSame⟩
      change gh.2.Closed
      rw [hSame]
      exact hClosed
    rcases hSettled with ⟨key, output, hHeld, hIdle⟩ | hUnheld
    · exact wp_mono hEnd (hDestroy (Or.inl ⟨hHeld, hIdle⟩))
    · have hLast :=
        @hDestroy [] [] (Or.inr hUnheld)
      exact wp_mono hEnd hLast

/- Every handler meets its preconditions in both views. -/
theorem wp_registry_handler
    (job : Job) :
    wp jointAnswers registryPre (job.handler root)
      (fun _ gh => gh.2.Closed)
      (.init, .init) := by
  cases job with
  | submission messages =>
      exact wp_joint_taskSubmission messages
  | update request =>
      unfold Job.handler
      rw [wp_bind]
      have hUpdate :=
        wp_joint_frame (fun _ => Stage.before)
          updates_leaves
          (onlyCalls_updateUtilization root request)
          (@wp_updateUtilization root request)
      refine wp_mono ?_ hUpdate
      rintro reply ⟨g', h'⟩ ⟨_, hRegistry⟩
      change h' = .init at hRegistry
      change RegistryView.Closed h'
      rw [hRegistry]
      exact RegistryView.Idle.closed (Or.inl rfl)

end Drex

------------------------------------------------------------
-- One Step Of The Table Of Process Groups
------------------------------------------------------------

namespace Drex

/- The handler is between its two steps for this entry. -/
def Active
    (p : ServerPool)
    (i : Nat)
    (key : Str)
    (pid : Pid) : Prop :=
  registryOf p i = .between key pid

/- The handler has left this entry behind. -/
def Abandoned
    (p : ServerPool)
    (i : Nat)
    (key : Str)
    (pid : Pid) : Prop :=
  registryOf p i = .abandoned key pid

/-
  The table holds the entries of the active handlers, and
  others only where a handler has left its own behind.
-/
structure RegistrySound (p : ServerPool) : Prop where
  active :
    ∀ i key pid, Active p i key pid →
      p.shared.workspaceToPgid key = some pid
  entry :
    ∀ key pid, p.shared.workspaceToPgid key = some pid →
      ∃ i, Active p i key pid ∨ Abandoned p i key pid

/- Where nothing was left behind, the entries are exact. -/
theorem RegistrySound.iff_active
    {p : ServerPool}
    (h : RegistrySound p)
    (hNone : ∀ i, (registryOf p i).thrown = false)
    (key : Str)
    (pid : Pid) :
    p.shared.workspaceToPgid key = some pid ↔
      ∃ i, Active p i key pid := by
  constructor
  · intro hEntry
    rcases h.entry key pid hEntry with
      ⟨i, hActive | hAbandoned⟩
    · exact ⟨i, hActive⟩
    · have hThrown := hNone i
      rw [show registryOf p i = .abandoned key pid from
        hAbandoned] at hThrown
      cases hThrown
  · rintro ⟨i, hActive⟩
    exact h.active i key pid hActive

/- A handler between its two steps holds its key. -/
theorem Stage.of_between
    {g : SessionView}
    {h : RegistryView}
    {key : Str}
    {pid : Pid}
    (hStage : Stage g h)
    (hBetween : h = .between key pid) :
    g.guard.locked = true ∧ g.guard.key = key ∧
      key ≠ [] := by
  cases hStage with
  | before => cases hBetween
  | started pid' => cases hBetween
  | between pid' hLocked hKey hNonempty =>
      cases hBetween
      exact ⟨hLocked, hKey, hNonempty⟩
  | closed key' pid' => cases hBetween
  | abandoned key' pid' => cases hBetween

/- What the handlers have registered is in its stage. -/
structure Staged (p : ServerPool) : Prop where
  stage : ∀ i, Stage (viewOf p i) (registryOf p i)
  table : TableSound p.shared

/- One key has one active handler. -/
theorem Staged.active_unique
    {p : ServerPool}
    (h : Staged p)
    {i j : Nat}
    {key : Str}
    {pid pid' : Pid}
    (hi : Active p i key pid)
    (hj : Active p j key pid') :
    i = j := by
  rcases (h.stage i).of_between hi with ⟨hLocked, hKey, _⟩
  rcases (h.stage j).of_between hj with ⟨hLocked', hKey', _⟩
  exact
    h.table.unique i j hLocked hLocked'
      (hKey.trans hKey'.symm)

variable {commands : ServerState → Store → Prop}
variable {p : ServerPool} {i : Nat}

/-
  A step that changes no entry of the table: nobody becomes
  active, and who was active is so still or has thrown.
-/
theorem registrySound_leaves
    {op : ServerOp}
    (hSound : RegistrySound p)
    (next : Resp op → ServerProg Status)
    (env : Env)
    (hTable :
      (exec i op env p.shared).2.workspaceToPgid =
        p.shared.workspaceToPgid)
    (hActive :
      ∀ key pid,
        (registryOf p i).after op (exec i op env p.shared).1 =
            .between key pid →
          registryOf p i = .between key pid)
    (hKept :
      ∀ key pid,
        registryOf p i = .between key pid ∨
            registryOf p i = .abandoned key pid →
          (registryOf p i).after op
              (exec i op env p.shared).1 =
              .between key pid ∨
            (registryOf p i).after op
              (exec i op env p.shared).1 =
              .abandoned key pid) :
    RegistrySound
      (p.advance (server commands) i op next env) := by
  have hSame :
      (p.advance (server commands) i op next
          env).shared.workspaceToPgid =
        p.shared.workspaceToPgid := hTable
  constructor
  · intro j key pid hAfter
    rw [hSame]
    apply hSound.active j
    unfold Active at hAfter ⊢
    by_cases hEq : j = i
    · rw [hEq, registryOf_advance_self] at hAfter
      rw [hEq]
      exact hActive key pid hAfter
    · rw [registryOf_advance_other commands p op next env
        hEq] at hAfter
      exact hAfter
  · intro key pid hEntry
    rw [hSame] at hEntry
    rcases hSound.entry key pid hEntry with ⟨j, hBefore⟩
    refine ⟨j, ?_⟩
    unfold Active Abandoned at hBefore ⊢
    by_cases hEq : j = i
    · rw [hEq] at hBefore ⊢
      rw [registryOf_advance_self]
      exact hKept key pid hBefore
    · rw [registryOf_advance_other commands p op next env hEq]
      exact hBefore

theorem registrySound_idle
    {op : ServerOp}
    (hSound : RegistrySound p)
    (hLeaves : op.LeavesRegistry)
    (next : Resp op → ServerProg Status)
    (env : Env)
    (hTable :
      (exec i op env p.shared).2.workspaceToPgid =
        p.shared.workspaceToPgid) :
    RegistrySound
      (p.advance (server commands) i op next env) := by
  apply registrySound_leaves hSound next env hTable
  · intro key pid
    rw [RegistryView.after_leaves hLeaves]
    exact id
  · intro key pid
    rw [RegistryView.after_leaves hLeaves]
    exact id

/- Starting a child comes before every entry. -/
theorem registrySound_fork
    {op : ServerOp}
    (hSound : RegistrySound p)
    (hInit : registryOf p i = .init)
    (next : Resp op → ServerProg Status)
    (env : Env)
    (hTable :
      (exec i op env p.shared).2.workspaceToPgid =
        p.shared.workspaceToPgid)
    (hRegisters :
      ServerEvent.registered?
        ⟨op, (exec i op env p.shared).1⟩ = none) :
    RegistrySound
      (p.advance (server commands) i op next env) := by
  apply registrySound_leaves hSound next env hTable
  · intro key pid hBetween
    rw [hInit] at hBetween
    have hNone :=
      congrArg RegistryView.registered hBetween
    unfold RegistryView.after at hNone
    rw [hRegisters] at hNone
    cases hNone
  · rintro key pid (hBefore | hBefore)
    · rw [hInit] at hBefore
      cases hBefore
    · rw [hInit] at hBefore
      cases hBefore

/- The monitor keeps its entry active or leaves it behind. -/
theorem registrySound_monitor
    {child : ChildProcess}
    {config : MonitorConfig}
    {key : Str}
    (hSound : RegistrySound p)
    (hBetween : registryOf p i = .between key child.pid)
    (next :
      Resp (.monitor child config) → ServerProg Status)
    (env : Env) :
    RegistrySound
      (p.advance (server commands) i
        (.monitor child config) next env) := by
  have hAfter :
      (registryOf p i).after (.monitor child config)
            (exec i (.monitor child config) env
              p.shared).1 =
          .between key child.pid ∨
        (registryOf p i).after (.monitor child config)
            (exec i (.monitor child config) env
              p.shared).1 =
          .abandoned key child.pid := by
    rw [hBetween]
    cases (exec i (.monitor child config) env p.shared).1 with
    | none => exact Or.inr rfl
    | some outcome => exact Or.inl rfl
  apply registrySound_leaves hSound next env rfl
  · intro key' pid' hActive
    rcases hAfter with hKept | hLeft
    · rw [hKept] at hActive
      rw [hBetween, hActive]
    · rw [hLeft] at hActive
      cases hActive
  · rintro key' pid' (hBefore | hBefore)
    · rw [hBetween] at hBefore
      cases hBefore
      exact hAfter
    · rw [hBetween] at hBefore
      cases hBefore

/-
  A step that changes the entry of one key: its own handler
  is active under the key exactly with the new entry, nobody
  else was, and it had and has no entry of another key.
-/
theorem registrySound_change
    {op : ServerOp}
    {key : Str}
    {entry : Option Pid}
    (hSound : RegistrySound p)
    (next : Resp op → ServerProg Status)
    (env : Env)
    (hTable :
      (p.advance (server commands) i op next
          env).shared.workspaceToPgid =
        Function.update p.shared.workspaceToPgid key entry)
    (hOther :
      ∀ j pid, j ≠ i → ¬ Active p j key pid)
    (hSelf :
      ∀ pid,
        Active (p.advance (server commands) i op next env) i
            key pid ↔
          entry = some pid)
    (hElse :
      ∀ key' pid, key' ≠ key →
        (¬ Active p i key' pid ∧ ¬ Abandoned p i key' pid) ∧
          ¬ Active
              (p.advance (server commands) i op next env) i
              key' pid) :
    RegistrySound
      (p.advance (server commands) i op next env) := by
  have hLeft :
      ∀ j, j ≠ i →
        registryOf
            (p.advance (server commands) i op next env) j =
          registryOf p j :=
    fun j hNe =>
      registryOf_advance_other commands p op next env hNe
  constructor
  · intro j key' pid hActive
    rw [hTable]
    by_cases hEq : key' = key
    · rw [hEq] at hActive ⊢
      rw [Function.update_self]
      by_cases hj : j = i
      · rw [hj] at hActive
        exact (hSelf pid).mp hActive
      · unfold Active at hActive
        rw [hLeft j hj] at hActive
        exact absurd hActive (hOther j pid hj)
    · rw [Function.update_of_ne hEq]
      by_cases hj : j = i
      · rw [hj] at hActive
        exact absurd hActive (hElse key' pid hEq).2
      · unfold Active at hActive
        rw [hLeft j hj] at hActive
        exact hSound.active j key' pid hActive
  · intro key' pid hEntry
    rw [hTable] at hEntry
    by_cases hEq : key' = key
    · rw [hEq, Function.update_self] at hEntry
      rw [hEq]
      exact ⟨i, Or.inl ((hSelf pid).mpr hEntry)⟩
    · rw [Function.update_of_ne hEq] at hEntry
      rcases hSound.entry key' pid hEntry with ⟨j, hBefore⟩
      have hNe : j ≠ i := by
        rintro rfl
        exact
          hBefore.elim (hElse key' pid hEq).1.1
            (hElse key' pid hEq).1.2
      refine ⟨j, ?_⟩
      unfold Active Abandoned at hBefore ⊢
      rw [hLeft j hNe]
      exact hBefore

theorem registrySound_register
    {key : Str}
    {pid : Pid}
    (hStaged : Staged p)
    (hSound : RegistrySound p)
    (hPre :
      registryPre (viewOf p i, registryOf p i)
        (.registerTaskProcessGroup key pid))
    (hPositive : 0 < pid)
    (next :
      Resp (.registerTaskProcessGroup key pid) →
        ServerProg Status)
    (env : Env) :
    RegistrySound
      (p.advance (server commands) i
        (.registerTaskProcessGroup key pid) next env) := by
  rcases hPre with
    ⟨_, hStarted, hLocked, hKey, hNonempty⟩
  have hTable :
      (p.advance (server commands) i
          (.registerTaskProcessGroup key pid) next
          env).shared.workspaceToPgid =
        Function.update p.shared.workspaceToPgid key
          (some pid) := by
    have hValid : ¬ (key = [] ∨ pid ≤ 0) := by
      rintro (hEmpty | hLow)
      · exact hNonempty hEmpty
      · exact absurd hPositive (Int.not_lt.mpr hLow)
    change p.shared.workspaceToPgid.register key pid = _
    unfold GroupTable.register
    rw [if_neg hValid]
  have hSelf :
      registryOf
          (p.advance (server commands) i
            (.registerTaskProcessGroup key pid) next env) i =
        .between key pid := by
    rw [registryOf_advance_self]
    rw [show registryOf p i = .started pid from hStarted]
    rfl
  apply registrySound_change hSound next env hTable
  · -- No other session is active under the key that is held.
    intro j pid' hNe hActive
    rcases (hStaged.stage j).of_between hActive with
      ⟨hLocked', hKey', _⟩
    apply hNe
    exact
      hStaged.table.unique j i hLocked' hLocked
        (Eq.trans hKey' hKey.symm)
  · intro pid'
    unfold Active
    rw [hSelf]
    constructor
    · intro hBetween
      cases hBetween
      rfl
    · intro hPid
      cases hPid
      rfl
  · intro key' pid' hNe
    unfold Active Abandoned
    rw [hSelf,
      show registryOf p i = .started pid from hStarted]
    refine ⟨⟨?_, ?_⟩, ?_⟩
    · intro hBetween
      cases hBetween
    · intro hAbandoned
      cases hAbandoned
    · intro hBetween
      cases hBetween
      exact hNe rfl

theorem registrySound_unregister
    {key : Str}
    {pid : Pid}
    (hStaged : Staged p)
    (hSound : RegistrySound p)
    (hPre :
      registryPre (viewOf p i, registryOf p i)
        (.unregisterTaskProcessGroup key pid))
    (next :
      Resp (.unregisterTaskProcessGroup key pid) →
        ServerProg Status)
    (env : Env) :
    RegistrySound
      (p.advance (server commands) i
        (.unregisterTaskProcessGroup key pid) next env) := by
  have hActive : Active p i key pid := hPre.2
  have hBetween : registryOf p i = .between key pid :=
    hActive
  rcases (hStaged.stage i).of_between hActive with
    ⟨_, _, hNonempty⟩
  have hEntry : p.shared.workspaceToPgid key = some pid :=
    hSound.active i key pid hActive
  have hTable :
      (p.advance (server commands) i
          (.unregisterTaskProcessGroup key pid) next
          env).shared.workspaceToPgid =
        Function.update p.shared.workspaceToPgid key
          none := by
    change p.shared.workspaceToPgid.unregister key pid = _
    unfold GroupTable.unregister
    rw [if_neg hNonempty, hEntry]
    exact if_pos (Or.inr rfl)
  have hSelf :
      registryOf
          (p.advance (server commands) i
            (.unregisterTaskProcessGroup key pid) next
            env) i =
        .closed key pid := by
    rw [registryOf_advance_self, hBetween]
    rfl
  apply registrySound_change hSound next env hTable
  · intro j pid' hNe hLeft
    exact hNe (hStaged.active_unique hLeft hActive)
  · intro pid'
    unfold Active
    rw [hSelf]
    constructor
    · intro hOpen
      cases hOpen
    · intro hPid
      cases hPid
  · intro key' pid' hNe
    unfold Active Abandoned
    rw [hSelf, hBetween]
    refine ⟨⟨?_, ?_⟩, ?_⟩
    · intro hOpen
      cases hOpen
      exact hNe rfl
    · intro hLeft
      cases hLeft
    · intro hOpen
      cases hOpen

end Drex

------------------------------------------------------------
-- Every Reachable Registry
------------------------------------------------------------

namespace Drex

/- A fork answers its parent with a positive pid. -/
def positivePids : ServerPool → Nat → Env → Prop :=
  fun _ _ env =>
    (∀ pid, env.answer .fork = some pid → 0 < pid) ∧
      ∀ pid, env.answer .forkpty = some pid → 0 < pid

variable {root : WorkspaceRoot} {jobs : Nat → Job}
variable {store : Store}
variable {commands : ServerState → Store → Prop}
variable {admits : ServerPool → Nat → Env → Prop}
variable {p : ServerPool}

theorem reach_joint
    (h :
      Core.Reach (server commands) admits
        (serverStart root jobs store) p)
    (i : Nat) :
    Core.Prog.wp jointAnswers registryPre (p.progs i)
      (fun _ gh => gh.2.Closed)
      (viewOf p i, registryOf p i) :=
  h.wp (jointView commands)
    (fun j => wp_registry_handler (jobs j)) i

theorem reach_staged
    (h :
      Core.Reach (server commands) admits
        (serverStart root jobs store) p) :
    Staged p where
  stage := by
    intro i
    have hWp := reach_joint h i
    cases hProg : p.progs i with
    | ret status =>
        rw [hProg] at hWp
        exact hWp.1 _
    | call op next =>
        rw [hProg] at hWp
        exact hWp.1.1
  table := reach_tableSound h

/- Every started child has a positive pid. -/
theorem reach_positive
    (h :
      Core.Reach (server commands) positivePids
        (serverStart root jobs store) p) :
    ∀ i pid, pid ∈ (registryOf p i).children → 0 < pid := by
  induction h with
  | start =>
      intro i pid hMem
      cases hMem
  | @step p i op next env hReach hOp hReady hAdmits ih =>
      intro j pid hMem
      by_cases hEq : j = i
      · rw [hEq, registryOf_advance_self] at hMem
        rcases List.mem_append.mp hMem with hOld | hNew
        · exact ih i pid hOld
        · cases op with
          | fork =>
              exact hAdmits.1 pid (Option.mem_toList.mp hNew)
          | forkpty =>
              exact hAdmits.2 pid (Option.mem_toList.mp hNew)
          | _ => cases hNew
      · rw [registryOf_advance_other commands p op next env
          hEq] at hMem
        exact ih j pid hMem
  | ambient hReach hAmbient ih =>
      rcases hAmbient with ⟨store', _, rfl⟩
      exact ih

theorem reach_registrySound
    (h :
      Core.Reach (server commands) positivePids
        (serverStart root jobs store) p) :
    RegistrySound p := by
  induction h with
  | start =>
      constructor
      · intro i key pid hActive
        cases hActive
      · intro key pid hEntry
        cases hEntry
  | @step p i op next env hReach hOp hReady hAdmits ih =>
      have hStaged := reach_staged hReach
      have hPre :
          registryPre (viewOf p i, registryOf p i) op :=
        hReach.pre_of_calls (jointView commands)
          (fun j => wp_registry_handler (jobs j))
          ⟨next, hOp⟩
      have hIdle :=
        fun hLeaves =>
          @registrySound_idle commands p i op ih hLeaves
            next env
      cases op with
      | registerTaskProcessGroup key pid =>
          have hPositive : 0 < pid := by
            apply reach_positive hReach i pid
            rw [show registryOf p i = .started pid from
              hPre.2.1]
            exact List.mem_singleton_self pid
          exact
            registrySound_register hStaged ih hPre hPositive
              next env
      | unregisterTaskProcessGroup key pid =>
          exact
            registrySound_unregister hStaged ih hPre next env
      | fork =>
          exact registrySound_fork ih hPre.2 next env rfl rfl
      | forkpty =>
          exact registrySound_fork ih hPre.2 next env rfl rfl
      | monitor child config =>
          rcases hPre.2 with ⟨key, hBetween⟩
          exact registrySound_monitor ih hBetween next env
      | _ => exact hIdle trivial rfl
  | ambient hReach hAmbient ih =>
      rcases hAmbient with ⟨store', _, rfl⟩
      exact ⟨ih.active, ih.entry⟩

end Drex

------------------------------------------------------------
-- Sessions Between Their Two Steps
------------------------------------------------------------

namespace Drex

/- Other keys keep their entries. -/
theorem GroupTable.unregister_of_ne
    (table : GroupTable)
    {key key' : Str}
    (pid : Pid)
    (hNe : key' ≠ key) :
    table.unregister key pid key' = table key' := by
  unfold unregister
  by_cases hEmpty : key = []
  · rw [if_pos hEmpty]
  · rw [if_neg hEmpty]
    cases hFound : table key with
    | none => rfl
    | some found =>
        simp only []
        split
        · exact Function.update_of_ne hNe _ _
        · rfl

/- The session holds the workspace lock of the key. -/
def HoldsKey
    (p : ServerPool)
    (i : Nat)
    (key : Str) : Prop :=
  (p.shared.guards i).locked = true ∧
    (p.shared.guards i).key = key

/- The session has started the child. -/
def StartedChild
    (p : ServerPool)
    (i : Nat)
    (pid : Pid) : Prop :=
  p.Did i .fork (some pid) ∨ p.Did i .forkpty (some pid)

/- The session has registered and not yet unregistered. -/
def BetweenSteps
    (p : ServerPool)
    (i : Nat) : Prop :=
  (∃ key pid,
    p.Did i (.registerTaskProcessGroup key pid) ()) ∧
      ∀ key pid,
        ¬ p.Did i (.unregisterTaskProcessGroup key pid) ()

theorem startedChild_iff
    (p : ServerPool)
    (i : Nat)
    (pid : Pid) :
    StartedChild p i pid ↔
      pid ∈ (registryOf p i).children := by
  unfold StartedChild Core.Pool.Did
  rw [← mem_eventsOf, ← mem_eventsOf]
  unfold registryOf
  rw [List.mem_filterMap]
  constructor
  · rintro (hFork | hPty)
    · exact ⟨_, hFork, rfl⟩
    · exact ⟨_, hPty, rfl⟩
  · rintro ⟨⟨op, r⟩, hMem, hPid⟩
    cases op with
    | fork =>
        change r = some pid at hPid
        rw [hPid] at hMem
        exact Or.inl hMem
    | forkpty =>
        change r = some pid at hPid
        rw [hPid] at hMem
        exact Or.inr hMem
    | _ => cases hPid

theorem did_register_iff
    (p : ServerPool)
    (i : Nat)
    (key : Str)
    (pid : Pid) :
    p.Did i (.registerTaskProcessGroup key pid) () ↔
      (key, pid) ∈ (registryOf p i).registered := by
  unfold Core.Pool.Did
  rw [← mem_eventsOf]
  unfold registryOf
  rw [List.mem_filterMap]
  constructor
  · intro hMem
    exact ⟨_, hMem, rfl⟩
  · rintro ⟨⟨op, r⟩, hMem, hEntry⟩
    cases op with
    | registerTaskProcessGroup key' pid' =>
        cases hEntry
        exact hMem
    | fork => cases hEntry
    | forkpty => cases hEntry
    | _ => cases hEntry

theorem did_unregister_iff
    (p : ServerPool)
    (i : Nat)
    (key : Str)
    (pid : Pid) :
    p.Did i (.unregisterTaskProcessGroup key pid) () ↔
      (key, pid) ∈ (registryOf p i).unregistered := by
  unfold Core.Pool.Did
  rw [← mem_eventsOf]
  unfold registryOf
  rw [List.mem_filterMap]
  constructor
  · intro hMem
    exact ⟨_, hMem, rfl⟩
  · rintro ⟨⟨op, r⟩, hMem, hEntry⟩
    cases op with
    | unregisterTaskProcessGroup key' pid' =>
        cases hEntry
        exact hMem
    | _ => cases hEntry

/- The session has not lost its task to an exception. -/
def Followed (p : ServerPool) (i : Nat) : Prop :=
  ∀ child config, ¬ p.Did i (.monitor child config) none

theorem followed_iff
    (p : ServerPool)
    (i : Nat) :
    Followed p i ↔ (registryOf p i).thrown = false := by
  unfold Followed Core.Pool.Did
  simp only [← mem_eventsOf]
  unfold registryOf
  rw [List.any_eq_false]
  constructor
  · rintro hNone ⟨op, r⟩ hMem hThrows
    cases op with
    | monitor child config =>
        cases r with
        | none => exact hNone child config hMem
        | some outcome => cases hThrows
    | _ => cases hThrows
  · intro hNone child config hMem
    exact hNone _ hMem rfl

/- An active handler is one with all four properties. -/
theorem active_iff
    {p : ServerPool}
    (hStaged : Staged p)
    (i : Nat)
    (key : Str)
    (pid : Pid) :
    Active p i key pid ↔
      HoldsKey p i key ∧ StartedChild p i pid ∧
        BetweenSteps p i ∧ Followed p i := by
  unfold BetweenSteps
  simp only [startedChild_iff, did_register_iff,
    did_unregister_iff, followed_iff]
  have hStage := hStaged.stage i
  unfold Active
  generalize hView : registryOf p i = h at hStage ⊢
  constructor
  · intro hBetween
    rcases hStage.of_between hBetween with
      ⟨hLocked, hKey, _⟩
    rw [hBetween]
    refine ⟨⟨hLocked, hKey⟩, List.mem_singleton_self pid,
      ⟨⟨key, pid, List.mem_singleton_self _⟩, ?_⟩, rfl⟩
    intro key' pid' hMem
    cases hMem
  · rintro
      ⟨hHolds, hChild, ⟨⟨key', pid', hMem⟩, hNone⟩,
        hThrown⟩
    cases hStage with
    | before => cases hMem
    | started pid'' => cases hMem
    | between pid'' hLocked hKey hNonempty =>
        have hSame : pid = pid'' :=
          List.mem_singleton.mp hChild
        have hKeys := Eq.trans hKey.symm hHolds.2
        rw [hSame, hKeys]
    | closed key'' pid'' =>
        exact
          absurd (List.mem_singleton_self _)
            (hNone key'' pid'')
    | abandoned key'' pid'' => cases hThrown

end Drex

------------------------------------------------------------
-- The Invariant Of The Registry
------------------------------------------------------------

namespace Drex

/- Every thread that `MonitorChildProcess` needs is made. -/
def startsThreads : ServerPool → Nat → Env → Prop :=
  fun p i env =>
    ∀ child config, p.Calls i (.monitor child config) →
      env.answer (.monitor child config) ≠ none

/- Positive pids, and every thread is made. -/
def startsTasks : ServerPool → Nat → Env → Prop :=
  fun p i env => positivePids p i env ∧ startsThreads p i env

/-
  The table maps a key to a child exactly while the one
  session that holds the key has started the child and
  stands between its two steps; such a session has not
  returned, and what an `UnregisterTaskProcessGroup` removes
  is the entry of its own session.
-/
structure RegistryMatches (p : ServerPool) : Prop where
  entries :
    ∀ key pid,
      p.shared.workspaceToPgid key = some pid ↔
        ∃ i, HoldsKey p i key ∧
          (∀ j, HoldsKey p j key → j = i) ∧
            StartedChild p i pid ∧ BetweenSteps p i
  returned :
    ∀ i status, p.progs i = .ret status → ¬ BetweenSteps p i
  owned :
    ∀ i key pid,
      p.Calls i (.unregisterTaskProcessGroup key pid) →
        ∀ key' pid',
          p.shared.workspaceToPgid key' = some pid' →
            p.shared.workspaceToPgid.unregister key pid key' ≠
                some pid' →
              HoldsKey p i key' ∧ StartedChild p i pid' ∧
                BetweenSteps p i

variable {root : WorkspaceRoot} {jobs : Nat → Job}
variable {store : Store}
variable {commands : ServerState → Store → Prop}
variable {p : ServerPool}

/- Only a monitor that throws loses its session's task. -/
theorem followed_advance
    {i : Nat}
    {op : ServerOp}
    {env : Env}
    (hMade :
      ∀ child config, op = .monitor child config →
        env.answer (.monitor child config) ≠ none)
    (next : Resp op → ServerProg Status)
    (h : ∀ j, Followed p j) :
    ∀ j,
      Followed
        (p.advance (server commands) i op next env) j := by
  intro j
  have hBefore := h j
  rw [followed_iff] at hBefore ⊢
  by_cases hEq : j = i
  · rw [hEq] at hBefore ⊢
    rw [registryOf_advance_self]
    unfold RegistryView.after
    rw [hBefore]
    cases op with
    | monitor child config =>
        change
          ServerEvent.throws
            ⟨.monitor child config,
              env.answer (.monitor child config)⟩ = false
        cases hAnswer :
            env.answer (.monitor child config) with
        | none => exact absurd hAnswer (hMade _ _ rfl)
        | some outcome => rfl
    | _ => rfl
  · rw [registryOf_advance_other commands p op next env hEq]
    exact hBefore

/- No handler has done anything at the start. -/
theorem followed_start
    (root : WorkspaceRoot)
    (jobs : Nat → Job)
    (store : Store)
    (i : Nat) :
    Followed (serverStart root jobs store) i :=
  (followed_iff _ i).mpr rfl

theorem reach_followed
    (h :
      Core.Reach (server commands) startsTasks
        (serverStart root jobs store) p) :
    ∀ i, Followed p i := by
  induction h with
  | start => exact followed_start root jobs store
  | step hReach hOp hReady hStep ih =>
      apply followed_advance ?_ _ ih
      rintro child config rfl
      exact hStep.2 child config ⟨_, hOp⟩
  | ambient hReach hAmbient ih =>
      rcases hAmbient with ⟨store', _, rfl⟩
      exact ih

/- In every run in which no constructor of a thread throws. -/
theorem registry_invariant
    (h :
      Core.Reach (server anyCommands) startsTasks
        (serverStart root jobs store) p) :
    RegistryMatches p := by
  have hPositive :
      Core.Reach (server anyCommands) positivePids
        (serverStart root jobs store) p :=
    h.mono fun _ _ _ hStep => hStep.1
  have hFollowed := reach_followed h
  have hStaged := reach_staged h
  have hSound := reach_registrySound hPositive
  have hThrown :
      ∀ i, (registryOf p i).thrown = false :=
    fun i => (followed_iff p i).mp (hFollowed i)
  constructor
  · intro key pid
    rw [hSound.iff_active hThrown]
    apply exists_congr
    intro i
    rw [active_iff hStaged]
    constructor
    · rintro ⟨hHolds, hChild, hSteps, _⟩
      refine ⟨hHolds, ?_, hChild, hSteps⟩
      intro j hOther
      exact
        hStaged.table.unique j i hOther.1 hHolds.1
          (hOther.2.trans hHolds.2.symm)
    · rintro ⟨hHolds, _, hChild, hSteps⟩
      exact ⟨hHolds, hChild, hSteps, hFollowed i⟩
  · intro i status hRet hBetween
    have hWp := reach_joint h i
    rw [hRet] at hWp
    have hPair :
        (registryOf p i).registered =
          (registryOf p i).unregistered :=
      hWp.2 (hThrown i)
    rcases hBetween with ⟨⟨key, pid, hDid⟩, hNone⟩
    rw [did_register_iff, hPair,
      ← did_unregister_iff] at hDid
    exact hNone key pid hDid
  · intro i key pid hCalls key' pid' hEntry hGone
    have hPre :
        registryPre (viewOf p i, registryOf p i)
          (.unregisterTaskProcessGroup key pid) :=
      h.pre_of_calls (jointView anyCommands)
        (fun j => wp_registry_handler (jobs j)) hCalls
    have hActive : Active p i key pid := hPre.2
    have hKey : key' = key := by
      by_contra hNe
      apply hGone
      rw [GroupTable.unregister_of_ne _ pid hNe]
      exact hEntry
    have hOwn := hSound.active i key pid hActive
    rw [hKey, hOwn] at hEntry
    have hPid : pid = pid' := Option.some.inj hEntry
    rw [hKey, ← hPid]
    rcases (active_iff hStaged i key pid).mp hActive with
      ⟨hHolds, hChild, hSteps, _⟩
    exact ⟨hHolds, hChild, hSteps⟩

end Drex

------------------------------------------------------------
-- A Running Task
------------------------------------------------------------

namespace Drex

/- A submission whose command is monitored. -/
def runningTask : ServerPool :=
  smallRun
    (fun _ => .submission [.config (smallConfig "a")])
    (steps 23 0)

/- Granted steps fork positive pids. -/
theorem positivePids_granting
    (q : ServerPool)
    (i : Nat) :
    positivePids q i Env.granting := by
  constructor
  · intro pid hPid
    cases hPid
    decide
  · intro pid hPid
    cases hPid
    decide

/- Granted steps make their threads. -/
theorem startsTasks_granting
    (q : ServerPool)
    (i : Nat) :
    startsTasks q i Env.granting := by
  refine ⟨positivePids_granting q i, ?_⟩
  intro child config _ hNone
  cases hNone

theorem reach_runningTask :
    Core.Reach (server anyCommands) startsTasks
      (serverStart smallRoot
        (fun _ => .submission [.config (smallConfig "a")])
        smallStore)
      runningTask := by
  apply reach_smallRun_of
  intro q i env hMem
  have hEnv := List.eq_of_mem_replicate hMem
  cases hEnv
  exact startsTasks_granting q 0

theorem registry_invariant_runningTask :
    ∃ i, HoldsKey runningTask i "a".toList ∧
      (∀ j, HoldsKey runningTask j "a".toList → j = i) ∧
        StartedChild runningTask i 100 ∧
          BetweenSteps runningTask i := by
  have hEntry :
      runningTask.shared.workspaceToPgid "a".toList =
        some 100 := by
    decide +kernel
  exact
    ((registry_invariant reach_runningTask).entries
      "a".toList 100).mp hEntry

end Drex

------------------------------------------------------------
-- An Entry That Is Left Behind
------------------------------------------------------------

namespace Drex

/- The thread of the monitor cannot be made. -/
def threadless : Env :=
  { Env.granting with
    answer := fun op =>
      match op with
      | .monitor _ _ => none
      | op => Env.granting.answer op }

/- The monitor throws, and the submission returns. -/
def abandonedTask : ServerPool :=
  smallRun
    (fun _ => .submission [.config (smallConfig "a")])
    (steps 23 0 ++ [(0, threadless)] ++ steps 6 0)

theorem reach_abandonedTask :
    Core.Reach (server anyCommands) positivePids
      (serverStart smallRoot
        (fun _ => .submission [.config (smallConfig "a")])
        smallStore)
      abandonedTask := by
  apply reach_smallRun_of
  intro q i env hMem
  rw [List.mem_append, List.mem_append,
    List.mem_singleton] at hMem
  rcases hMem with (hBefore | hThrows) | hAfter
  · have hEnv := List.eq_of_mem_replicate hBefore
    cases hEnv
    exact positivePids_granting q 0
  · cases hThrows
    exact positivePids_granting q 0
  · have hEnv := List.eq_of_mem_replicate hAfter
    cases hEnv
    exact positivePids_granting q 0

/- The entry is there when nobody holds a key any more. -/
theorem abandoned_entry_survives :
    ¬ ∀ (root : WorkspaceRoot) (jobs : Nat → Job)
      (store : Store) (p : ServerPool),
      Core.Reach (server anyCommands) positivePids
          (serverStart root jobs store) p →
        RegistryMatches p := by
  intro hMatches
  have hEntry :
      abandonedTask.shared.workspaceToPgid "a".toList =
        some 100 := by
    decide +kernel
  have hUnlocked :
      abandonedTask.shared.lockedSubdirs = ∅ := by
    decide +kernel
  rcases
      ((hMatches _ _ _ _ reach_abandonedTask).entries
        "a".toList 100).mp hEntry with
    ⟨i, hHolds, _⟩
  have hLocked :
      "a".toList ∈ abandonedTask.shared.lockedSubdirs :=
    ((reach_tableSound reach_abandonedTask).keys _).mpr
      ⟨i, hHolds⟩
  rw [hUnlocked] at hLocked
  exact Finset.notMem_empty _ hLocked

end Drex
