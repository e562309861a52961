import Mathlib.Data.Finset.Lattice.Basic
import Drex.Monitor.Verdict
import Drex.Core.Runs
import Drex.Server.Protocol.Parts

/-
  A submission together with the process group of its task.

  The command may start and end processes in its group at
  any time.  SIGKILL is queued: who was sent it starts no
  other process and ends at some later time, which nobody
  waits for; `waitpid` returns a child that has ended.

  Key definitions include:
    * `TaskRun`
    * `TaskRun.step`
    * `TaskRun.leavesNoOne`
    * `groupPre`
    * `TaskRun.Sound`

  Key theorems include:
    * `Monitor.killing_reaches`
    * `wp_taskSubmission_group`
    * `TaskRun.Sound.step`
    * `no_process_outlives`
-/

------------------------------------------------------------
-- The Run Of A Submission
------------------------------------------------------------

namespace Drex

/- The event says that the child was reaped. -/
def MonitorEvent.reaps : MonitorEvent → Bool
| .main (.waited (.reaped _) _) => true
| _ => false

/- The step sends SIGKILL to the group. -/
def Monitor.killsGroup
    (m : Monitor)
    (event : MonitorEvent) : Bool :=
  match event with
  | .main _ => decide (m.pc = .idleKill)
  | .watcher _ => decide (m.watcher = .sendKill)

/-
  The handler, the machine of `MonitorChildProcess` while it
  runs, the living processes of the task's group, whose
  leader is the direct child, and those of the group that
  were sent SIGKILL.
-/
structure TaskRun where
  prog : ServerProg Status
  monitor : Option Monitor
  leader : Pid
  members : Finset Pid
  doomed : Finset Pid

/-
  Who moves next: the handler, a thread of the monitor, the
  monitor that returns, or the processes of the command.
-/
inductive TaskLabel
| server (answer : (op : ServerOp) → Resp op)
| monitor (event : MonitorEvent)
| returns
| processes (members : Finset Pid)

namespace TaskRun

/- A handler that has not started. -/
def start (prog : ServerProg Status) : TaskRun :=
  { prog := prog
    monitor := none
    leader := 0
    members := ∅
    doomed := ∅ }

/- A successful fork starts a group of one process. -/
def forked
    (s : TaskRun)
    (pid : Option Pid)
    (prog : ServerProg Status) :
    TaskRun :=
  match pid with
  | none => { s with prog := prog }
  | some pid =>
      { s with
        prog := prog
        leader := pid
        members := {pid}
        doomed := ∅ }

/-
  The handler's next operation.  The answer to `.monitor`
  says here only whether the thread could be made.
-/
def stepServer
    (s : TaskRun)
    (answer : (op : ServerOp) → Resp op) :
    Option TaskRun :=
  match s.prog with
  | .ret _ => none
  | .call (.monitor child cfg) next =>
      match s.monitor, answer (.monitor child cfg) with
      | none, some _ => some { s with monitor := some .init }
      | none, none => some { s with prog := next none }
      | some _, _ => none
  | .call .fork next =>
      some (s.forked (answer .fork) (next (answer .fork)))
  | .call .forkpty next =>
      some
        (s.forked (answer .forkpty) (next (answer .forkpty)))
  | .call (.kill pid) next =>
      some
        { s with
          prog := next ()
          doomed := insert pid s.doomed }
  | .call (.waitpid pid) next =>
      if pid ∈ s.members then
        none
      else
        some { s with prog := next () }
  | .call op next =>
      some { s with prog := next (answer op) }

/- A thread of the monitor. -/
def stepMonitor
    (s : TaskRun)
    (event : MonitorEvent) :
    Option TaskRun :=
  match s.prog, s.monitor with
  | .call (.monitor child cfg) _, some m =>
      if event.reaps ∧ child.pid ∈ s.members then
        none
      else
        match m.step cfg event with
        | none => none
        | some m' =>
            some
              { s with
                monitor := some m'
                doomed :=
                  if m.killsGroup event ∧
                      child.pid = s.leader then
                    s.doomed ∪ s.members
                  else
                    s.doomed }
  | _, _ => none

/- The monitor returns to the handler. -/
def stepReturns (s : TaskRun) : Option TaskRun :=
  match s.prog, s.monitor with
  | .call (.monitor _ _) next, some m =>
      match m.pc with
      | .returned status =>
          some
            { s with
              prog := next (some (m.outcome status))
              monitor := none }
      | _ => none
  | _, _ => none

/-
  Processes of the command start and end.  Only a living one
  that was not sent SIGKILL starts others, and neither the
  leader nor who was sent SIGKILL comes back.
-/
def stepProcesses
    (s : TaskRun)
    (members : Finset Pid) :
    Option TaskRun :=
  if (members ⊆ s.members ∨ ¬ s.members ⊆ s.doomed) ∧
      (∀ p ∈ members,
        p = s.leader ∨ p ∈ s.doomed → p ∈ s.members) then
    some { s with members := members }
  else
    none

/- One step of the run. -/
def step (s : TaskRun) : TaskLabel → Option TaskRun
| .server answer => s.stepServer answer
| .monitor event => s.stepMonitor event
| .returns => s.stepReturns
| .processes members => s.stepProcesses members

/-
  The submission removes the workspace, releases the key or
  has returned.
-/
def cleansUp (s : TaskRun) : Bool :=
  match s.prog with
  | .ret _ => true
  | .call (.removeAll _) _ => true
  | .call .release _ => true
  | _ => false

/- Only this process of the group may still live. -/
def onlyAlive (s : TaskRun) (pid : Pid) : Bool :=
  decide (∀ p ∈ s.members, p = pid)

/-
  When the monitor returns, every process that was sent
  SIGKILL has ended, and where the group was not sent it (no
  cancellation was recorded and no idle timeout fired) at
  most the direct child lives and the monitor has reaped it.
  When its thread cannot be made, nobody lives; and when a
  child that was killed is waited for, nobody else lives.
-/
def leavesNoOne (s : TaskRun) : TaskLabel → Bool
| .returns =>
    match s.monitor with
    | none => true
    | some m =>
        decide (∀ p ∈ s.members, p ∉ s.doomed) &&
          (m.cancelled || decide (m.exit = some .idleTimeout) ||
            (s.onlyAlive s.leader &&
              (decide (m.reaps ≠ []) ||
                decide (s.leader ∉ s.members))))
| .server answer =>
    match s.prog with
    | .call (.monitor child cfg) _ =>
        (answer (.monitor child cfg)).isSome ||
          decide (s.members = ∅)
    | .call (.waitpid pid) _ => s.onlyAlive pid
    | _ => true
| _ => true

end TaskRun

end Drex

------------------------------------------------------------
-- Signals Of The Monitor
------------------------------------------------------------

namespace Drex

namespace Monitor

/-
  A recorded cancellation and an idle timeout send SIGKILL
  before the monitor returns.
-/
structure Killing (m : Monitor) : Prop where
  unstarted :
    m.pc = .start →
      m.watcher = .absent ∧ m.cancelled = false
  cancelled :
    m.cancelled = true →
      m.watcher = .sendTerm ∨ m.watcher = .sendKill ∨
        .kill ∈ m.signals
  idle :
    m.exit = some .idleTimeout →
      m.pc = .idleTerm ∨ m.pc = .idleKill ∨
        .kill ∈ m.signals

/- What a step adds to the signals and the reaped children. -/
structure Signalled
    (m : Monitor)
    (event : MonitorEvent)
    (m' : Monitor) : Prop where
  kill :
    .kill ∈ m'.signals →
      .kill ∈ m.signals ∨ m.killsGroup event = true
  reaps : m'.reaps ≠ [] → m.reaps ≠ [] ∨ event.reaps = true
  killing : m.Killing → m'.Killing

variable {cfg : MonitorConfig} {m m' : Monitor}

@[simp] theorem emit_signals
    (m : Monitor)
    (chunk : Str) :
    (m.emit chunk).signals = m.signals ∧
      (m.emit chunk).cancelled = m.cancelled ∧
        (m.emit chunk).watcher = m.watcher := by
  unfold emit
  split
  · exact ⟨rfl, rfl, rfl⟩
  · exact ⟨rfl, rfl, rfl⟩

/- The watcher's steps. -/
theorem signalled_watch
    {isCancelled : Bool}
    (h : m.watch isCancelled = some m') :
    m.Signalled (.watcher isCancelled) m' := by
  unfold watch at h
  have hStarted :
      m.watcher ≠ .absent → m.Killing → m.pc ≠ .start :=
    fun hRunning hKilling hPc =>
      hRunning (hKilling.unstarted hPc).1
  cases hWatcher : m.watcher with
  | absent => simp [hWatcher] at h
  | finished => simp [hWatcher] at h
  | sendTerm =>
      simp only [hWatcher, Option.some.injEq] at h
      subst h
      exact
        { kill := fun h => Or.inl (by simpa using h)
          reaps := Or.inl
          killing := fun hKilling =>
            { unstarted := fun hPc =>
                absurd hPc
                  (hStarted (by simp [hWatcher]) hKilling)
              cancelled := fun _ => Or.inr (Or.inl rfl)
              idle := fun hIdle =>
                (hKilling.idle hIdle).imp id
                  (fun h => h.imp id
                    (List.mem_append_left _)) } }
  | sendKill =>
      simp only [hWatcher, Option.some.injEq] at h
      subst h
      exact
        { kill := fun _ => Or.inr (by
            simp [killsGroup, hWatcher])
          reaps := Or.inl
          killing := fun hKilling =>
            { unstarted := fun hPc =>
                absurd hPc
                  (hStarted (by simp [hWatcher]) hKilling)
              cancelled := fun _ => by simp
              idle := fun _ => by simp } }
  | record =>
      simp only [hWatcher, Option.some.injEq] at h
      subst h
      exact
        { kill := Or.inl
          reaps := Or.inl
          killing := fun hKilling =>
            { unstarted := fun hPc =>
                absurd hPc
                  (hStarted (by simp [hWatcher]) hKilling)
              cancelled := fun _ => Or.inl rfl
              idle := hKilling.idle } }
  | _ =>
      simp only [hWatcher, Option.some.injEq] at h
      subst h
      refine
        { kill := Or.inl
          reaps := Or.inl
          killing := fun hKilling =>
            { unstarted := fun hPc =>
                absurd hPc
                  (hStarted (by simp [hWatcher]) hKilling)
              cancelled := ?_
              idle := hKilling.idle } }
      intro hCancelled
      have hBefore := hKilling.cancelled hCancelled
      rw [hWatcher] at hBefore
      have hKill : .kill ∈ m.signals := by
        simpa using hBefore
      exact Or.inr (Or.inr hKill)

/-
  A step of the main thread that sends nothing and does not
  leave a position where a signal is due.
-/
theorem signalled_quiet
    {event : MainEvent}
    (hPc : m'.pc ≠ .start)
    (hSignals : m'.signals = m.signals)
    (hCancelled : m'.cancelled = m.cancelled)
    (hWatcher : m'.watcher = m.watcher)
    (hReaps :
      m'.reaps = m.reaps ∨
        (MonitorEvent.main event).reaps = true)
    (hIdle :
      m'.exit = some .idleTimeout →
        m'.pc = .idleTerm ∨
          (m.exit = some .idleTimeout ∧
            m.pc ≠ .idleTerm ∧ m.pc ≠ .idleKill)) :
    m.Signalled (.main event) m' := by
  refine
    { kill := fun h => Or.inl (by rwa [hSignals] at h)
      reaps := ?_
      killing := fun hKilling =>
        { unstarted := fun h => absurd h hPc
          cancelled := ?_
          idle := ?_ } }
  · intro hNonempty
    rcases hReaps with hSame | hReaped
    · rw [hSame] at hNonempty
      exact Or.inl hNonempty
    · exact Or.inr hReaped
  · intro h
    rw [hCancelled] at h
    rw [hWatcher, hSignals]
    exact hKilling.cancelled h
  · intro h
    rcases hIdle h with hTerm | ⟨hBefore, hNot, hNot'⟩
    · exact Or.inl hTerm
    · rw [hSignals]
      exact
        Or.inr
          (Or.inr
            (((hKilling.idle hBefore).resolve_left
              hNot).resolve_left hNot'))

theorem signalled_mainQuiet
    {now : Nat}
    (hPc : m.pc = .quiet) :
    m.Signalled (.main (.clock now)) (m.mainQuiet cfg now) := by
  unfold mainQuiet
  split
  · split
    · apply signalled_quiet <;> simp
    · apply signalled_quiet <;> simp [hPc]
  · simp only []
    split
    · apply signalled_quiet <;> simp
    · apply signalled_quiet <;> simp [hPc]

theorem signalled_mainRead
    {result : ReadResult}
    {now : Nat}
    (hPc : m.pc = .reading) :
    m.Signalled (.main (.readDone result now))
      (m.mainRead cfg result now) := by
  cases result with
  | data first rest =>
      apply signalled_quiet <;> simp [mainRead, hPc]
  | failed errno eio =>
      unfold mainRead
      simp only []
      split
      · apply signalled_quiet <;> simp
      · apply signalled_quiet <;> simp
  | _ => apply signalled_quiet <;> simp [mainRead, hPc]

/- The main thread's steps. -/
theorem signalled_main
    {event : MainEvent}
    (hStep : m.main cfg event = some m') :
    m.Signalled (.main event) m' := by
  cases hPc : m.pc <;>
    cases event <;> simp [main, hPc] at hStep
  case start.clock now =>
      subst hStep
      exact
        { kill := fun h => Or.inl (by simpa using h)
          reaps := fun h => Or.inl (by simpa using h)
          killing := fun hKilling =>
            { unstarted := fun h => by cases h
              cancelled := fun h => by
                have hNot := (hKilling.unstarted hPc).2
                simp [hNot] at h
              idle := fun h => by
                have hBefore := hKilling.idle (by simpa using h)
                rw [hPc] at hBefore
                simpa using hBefore } }
  case top.waited result now =>
      rcases hStep with ⟨_, rfl⟩
      cases result <;> apply signalled_quiet <;>
        simp [mainWait, MonitorEvent.reaps, hPc]
  case polling.polled result =>
      subst hStep
      cases result with
      | ready readable =>
          cases readable <;> apply signalled_quiet <;>
            simp [mainPoll, hPc]
      | _ => apply signalled_quiet <;> simp [mainPoll, hPc]
  case quiet.clock now =>
      subst hStep
      exact signalled_mainQuiet hPc
  case reading.readDone result now =>
      subst hStep
      exact signalled_mainRead hPc
  case idleTerm.advance =>
      subst hStep
      exact
        { kill := fun h => Or.inl (by simpa using h)
          reaps := Or.inl
          killing := fun hKilling =>
            { unstarted := fun h => by cases h
              cancelled := fun h =>
                (hKilling.cancelled h).imp id
                  (fun h => h.imp id
                    (List.mem_append_left _))
              idle := fun _ => Or.inr (Or.inl rfl) } }
  case idleKill.advance =>
      subst hStep
      exact
        { kill := fun _ => Or.inr (by simp [killsGroup, hPc])
          reaps := Or.inl
          killing := fun _ =>
            { unstarted := fun h => by cases h
              cancelled := fun _ => by simp
              idle := fun _ => by simp } }
  case idleReap.waited result now =>
      cases result <;> simp [idleReap] at hStep <;>
        subst hStep <;> apply signalled_quiet <;>
          simp [MonitorEvent.reaps, hPc]
  case reaping.waited result now =>
      cases result <;> simp [mainReap] at hStep <;>
        subst hStep <;> apply signalled_quiet <;>
          simp [MonitorEvent.reaps, hPc]
  case joining.advance =>
      rcases hStep with ⟨_, hStep⟩
      split at hStep <;> cases hStep <;>
        apply signalled_quiet <;> simp [hPc]
  -- The other steps only move the main thread on.
  all_goals
    rcases hStep with ⟨_, rfl⟩
    apply signalled_quiet <;> simp [hPc]

theorem signalled_step
    {event : MonitorEvent}
    (h : m.step cfg event = some m') :
    m.Signalled event m' := by
  cases event with
  | main event => exact signalled_main h
  | watcher isCancelled => exact signalled_watch h

theorem killing_reaches
    (h : Core.Reaches (step cfg) init m) :
    m.Killing := by
  refine
    Core.Reaches.invariant ?_
      (fun _ _ _ hKilling hStep =>
        (signalled_step hStep).killing hKilling) h
  exact
    { unstarted := fun _ => ⟨rfl, rfl⟩
      cancelled := fun h => by cases h
      idle := fun h => by cases h }

/- A cancelled or idle task was killed before the return. -/
theorem killed_of_returned
    {status : Status}
    (hReach : Core.Reaches (step cfg) init m)
    (hPc : m.pc = .returned status)
    (hEnd :
      m.cancelled = true ∨ m.exit = some .idleTimeout) :
    .kill ∈ m.signals := by
  have hKilling := killing_reaches hReach
  have hPhase := phase_reaches hReach
  unfold Phase at hPhase
  rw [hPc] at hPhase
  have hJoinable := hPhase.1
  simp only [joinable, decide_eq_true_eq] at hJoinable
  rcases hEnd with hCancelled | hIdle
  · have hKill := hKilling.cancelled hCancelled
    rcases hJoinable with hWatcher | hWatcher
    · rw [hWatcher] at hKill
      simpa using hKill
    · rw [hWatcher] at hKill
      simpa using hKill
  · have hKill := hKilling.idle hIdle
    rw [hPc] at hKill
    simpa using hKill

end Monitor

end Drex

------------------------------------------------------------
-- The Group As The Handler Knows It
------------------------------------------------------------

namespace Drex

open Drex.Core.Prog

/-
  The leader of a group that may be alive, or none when no
  process of it can be.
-/
def groupAfter
    (g : Option Pid)
    (op : ServerOp)
    (r : Resp op) :
    Option Pid :=
  match op, r with
  | .fork, pid => pid.or g
  | .forkpty, pid => pid.or g
  | .waitpid _, _ => none
  | .monitor _ _, _ => none
  | _, _ => g

def groupAnswers : Answers ServerOp Resp (Option Pid) :=
  fun g op r g' => g' = groupAfter g op r

/-
  One group at a time is started; it is the one that is
  monitored, and it is gone before the workspace and the key
  are.
-/
def groupPre (g : Option Pid) (op : ServerOp) : Prop :=
  match op with
  | .fork => g = none
  | .forkpty => g = none
  | .monitor child _ => g = some child.pid
  | .removeAll _ => g = none
  | .release => g = none
  | _ => True

/- The operations that have nothing to do with a group. -/
def ServerOp.IgnoresGroup : ServerOp → Prop
| .fork => False
| .forkpty => False
| .waitpid _ => False
| .monitor _ _ => False
| .removeAll _ => False
| .release => False
| _ => True

theorem wp_ignoresGroup
    {α : Type}
    {p : ServerProg α}
    (hOnly : OnlyCalls ServerOp.IgnoresGroup p)
    (g : Option Pid) :
    wp groupAnswers groupPre p (fun _ g' => g' = g) g := by
  have hIdle :
      ∀ op r g', ServerOp.IgnoresGroup op →
        groupAnswers g op r g' → g' = g := by
    intro op r g' hOp hAnswer
    rw [show g' = groupAfter g op r from hAnswer]
    cases op <;> first | rfl | exact hOp.elim
  have hPre :
      ∀ op, ServerOp.IgnoresGroup op → groupPre g op := by
    intro op hOp
    cases op <;> trivial
  exact wp_of_onlyCalls hIdle hPre hOnly

/- What a started child and a failure leave of the group. -/
def GroupStarted
    (started : Except Status ChildProcess)
    (g : Option Pid) : Prop :=
  match started with
  | .ok child => g = some child.pid
  | .error _ => g = none

/- The group of a child, from the fork until it is reaped. -/
def groupPhases : StartPhases (Option Pid) :=
  { idle := fun g => g = none
    forked := fun pid g => g = some pid
    ready := fun pid g => g = some pid
    killed := fun _ => True
    reaped := fun g => g = none }

theorem groupPhases_sound :
    groupPhases.Sound groupAnswers groupPre where
  surrounds := by
    rintro op hOp _ rfl
    constructor
    · cases op <;> first | exact trivial | exact hOp.elim
    · rintro r _ rfl
      cases op <;> first | exact rfl | exact hOp.elim
  forkpty := by
    rintro _ rfl
    refine ⟨rfl, ?_⟩
    rintro pid _ rfl
    cases pid with
    | none => exact rfl
    | some pid => exact rfl
  fork := by
    rintro _ rfl
    refine ⟨rfl, ?_⟩
    rintro pid _ rfl
    cases pid with
    | none => exact rfl
    | some pid => exact rfl
  closeFd := by
    rintro pid _ rfl
    refine ⟨trivial, ?_⟩
    rintro r _ rfl
    exact rfl
  setNonBlocking := by
    rintro pid _ rfl
    refine ⟨trivial, ?_⟩
    rintro done _ rfl
    cases done with
    | true => exact rfl
    | false => exact rfl
  kill := by
    rintro pid _ rfl
    exact ⟨trivial, fun _ _ _ => trivial⟩
  waitpid := by
    intro pid g _
    refine ⟨trivial, ?_⟩
    rintro r _ rfl
    exact rfl
  strerror := by
    rintro _ rfl
    refine ⟨trivial, ?_⟩
    rintro r _ rfl
    exact rfl

theorem wp_startChildProcess_group
    (config : TaskConfig) :
    wp groupAnswers groupPre
      (TaskExecutor.startChildProcess config)
      GroupStarted none := by
  refine
    wp_mono ?_
      (TaskExecutor.wp_startChildProcess_of groupPhases_sound
        rfl config)
  intro result g hStarted
  cases result with
  | ok child => exact hStarted
  | error status => exact hStarted.2.elim id id

/- Once `RunCommand` has returned no group is left. -/
theorem wp_runCommand_group
    (config : TaskConfig) :
    wp groupAnswers groupPre
      (TaskExecutor.runCommand config)
      (fun _ g => g = none) none := by
  unfold TaskExecutor.runCommand
  rw [wp_bind]
  refine wp_mono ?_ (wp_startChildProcess_group config)
  intro started g hStarted
  cases started with
  | error status => exact hStarted
  | ok child =>
      have hLeader : g = some child.pid := hStarted
      subst hLeader
      refine ⟨trivial, ?_⟩
      rintro _ _ rfl
      refine ⟨trivial, ?_⟩
      rintro _ _ rfl
      refine ⟨trivial, ?_⟩
      rintro idleTimeout _ rfl
      refine ⟨rfl, ?_⟩
      rintro monitored _ rfl
      cases monitored with
      | none => exact rfl
      | some outcome =>
          refine ⟨trivial, ?_⟩
          rintro _ _ rfl
          exact rfl

theorem wp_execute_group
    (root : WorkspaceRoot)
    (config : TaskConfig) :
    wp groupAnswers groupPre
      (TaskExecutor.execute root config)
      (fun _ g => g = none) none := by
  have hConfigure :
      OnlyCalls ServerOp.IgnoresGroup
        (TaskExecutor.configureDrexRuntimeEnvironment config
          (subdirPath root config.workspaceSubdir)) := by
    refine
      onlyCalls_mono ?_ (TaskExecutor.onlyCalls_configure _ _)
    intro op hOp
    cases op <;> first | exact trivial | exact hOp.elim
  unfold TaskExecutor.execute
  simp only []
  by_cases hEmpty : config.command = []
  · rw [if_pos hEmpty]
    exact rfl
  · rw [if_neg hEmpty]
    refine ⟨trivial, ?_⟩
    rintro dirError _ rfl
    cases dirError with
    | some error => exact rfl
    | none =>
        change wp groupAnswers groupPre
          (TaskExecutor.configureDrexRuntimeEnvironment
            config (subdirPath root config.workspaceSubdir)
              >>= _) _ _
        rw [wp_bind]
        refine wp_mono ?_ (wp_ignoresGroup hConfigure _)
        rintro _ _ rfl
        refine ⟨trivial, ?_⟩
        rintro logged _ rfl
        cases logged with
        | false => exact rfl
        | true =>
            change wp groupAnswers groupPre
              (TaskExecutor.runCommand config >>= _) _ _
            rw [wp_bind]
            refine wp_mono ?_ (wp_runCommand_group config)
            intro ended g hGone
            by_cases hOk : ended.isOk = true
            · rw [if_pos hOk]
              refine ⟨trivial, ?_⟩
              rintro _ _ rfl
              exact hGone
            · rw [if_neg hOk]
              exact hGone

theorem wp_failSubmission_group
    (ending : Ending)
    (g : Option Pid) :
    wp groupAnswers groupPre (failSubmission ending)
      (fun _ g' => g' = g) g :=
  wp_ignoresGroup
    (onlyCalls_failSubmission (fun _ => trivial) ending) g

theorem wp_submissionBody_group
    (root : WorkspaceRoot)
    (messages : List TaskRequest) :
    wp groupAnswers groupPre (submissionBody root messages)
      (fun _ g => g = none) none := by
  have hDownload :
      OnlyCalls ServerOp.IgnoresGroup
        (downloadWorkspace root messages) := by
    refine
      onlyCalls_mono ?_ (onlyCalls_downloadWorkspace _ _)
    intro op hOp
    cases op <;> first | exact trivial | exact hOp.elim
  unfold submissionBody finishSubmission
  rw [wp_bind]
  refine wp_mono ?_ (wp_ignoresGroup hDownload none)
  rintro ⟨config, ending⟩ _ rfl
  by_cases hOk : ending.isOk = true
  · simp only [hOk, if_true]
    rw [wp_bind]
    refine wp_mono ?_ (wp_execute_group root config)
    rintro executed _ rfl
    cases executed with
    | error ending => exact wp_failSubmission_group ending none
    | ok result =>
        refine ⟨trivial, ?_⟩
        rintro _ _ rfl
        exact rfl
  · simp only [hOk]
    exact wp_failSubmission_group ending none

/- A submission cleans up once no group is left. -/
theorem wp_taskSubmission_group
    (root : WorkspaceRoot)
    (messages : List TaskRequest) :
    wp groupAnswers groupPre (taskSubmission root messages)
      (fun _ g => g = none) none := by
  have hGuard :
      wp groupAnswers groupPre (destroyGuard root)
        (fun _ g => g = none) none := by
    refine
      wp_of_onlyCalls ?_ ?_ (onlyCalls_destroyGuard root)
    · intro op r g' hOp hAnswer
      rw [show g' = groupAfter none op r from hAnswer]
      cases op <;> first | rfl | exact hOp.elim
    · intro op hOp
      cases op <;> trivial
  unfold taskSubmission
  refine ⟨trivial, ?_⟩
  rintro rootError _ rfl
  cases rootError with
  | some message =>
      refine ⟨trivial, ?_⟩
      rintro _ _ rfl
      exact rfl
  | none =>
      change wp groupAnswers groupPre
        (submissionBody root messages >>= _) _ _
      rw [wp_bind]
      refine wp_mono ?_
        (wp_submissionBody_group root messages)
      rintro status _ rfl
      rw [wp_bind]
      refine wp_mono ?_ hGuard
      rintro _ _ rfl
      exact rfl

end Drex

------------------------------------------------------------
-- The Group And The Handler
------------------------------------------------------------

namespace Drex

open Drex.Core.Prog

namespace TaskRun

/- The handler's view agrees with the living processes. -/
def Tracks (s : TaskRun) (g : Option Pid) : Prop :=
  match g with
  | none => s.members = ∅
  | some pid => s.leader = pid

/- What holds while `MonitorChildProcess` runs. -/
structure Monitored (s : TaskRun) (m : Monitor) : Prop where
  task :
    ∃ child cfg next,
      s.prog = .call (.monitor child cfg) next ∧
        child.pid = s.leader ∧
          Core.Reaches (Monitor.step cfg) Monitor.init m
  killed : .kill ∈ m.signals → s.members ⊆ s.doomed
  reaped : m.reaps ≠ [] → s.leader ∉ s.members

structure Sound (s : TaskRun) : Prop where
  handler :
    ∃ g, s.Tracks g ∧
      wp groupAnswers groupPre s.prog
        (fun _ g' => g' = none) g
  monitored : ∀ m, s.monitor = some m → s.Monitored m

variable {s s' : TaskRun}

/- Only the monitor's operation has a monitor. -/
theorem Sound.unmonitored
    {op : ServerOp}
    {next : Resp op → ServerProg Status}
    (h : s.Sound)
    (hProg : s.prog = .call op next)
    (hOp : ∀ child cfg, op ≠ .monitor child cfg) :
    s.monitor = none := by
  cases hMonitor : s.monitor with
  | none => rfl
  | some m =>
      rcases (h.monitored m hMonitor).task with
        ⟨child, cfg, next', hTask, _⟩
      rw [hProg] at hTask
      injection hTask with hSame
      exact absurd hSame (hOp child cfg)

/-
  The handler moves on, with what its operation makes of the
  group.
-/
theorem Sound.answered
    {op : ServerOp}
    {next : Resp op → ServerProg Status}
    {s' : TaskRun}
    (h : s.Sound)
    (hProg : s.prog = .call op next)
    (hOp : ∀ child cfg, op ≠ .monitor child cfg)
    (r : Resp op)
    (hNext : s'.prog = next r)
    (hMonitor : s'.monitor = s.monitor)
    (hTracks :
      ∀ g, s.Tracks g → groupPre g op →
        s'.Tracks (groupAfter g op r)) :
    s'.Sound := by
  have hFree := h.unmonitored hProg hOp
  rcases h.handler with ⟨g, hBefore, hWp⟩
  rw [hProg] at hWp
  refine
    { handler := ⟨_, hTracks g hBefore hWp.1, ?_⟩
      monitored := fun m hSome => by
        rw [hMonitor, hFree] at hSome
        cases hSome }
  rw [hNext]
  exact hWp.2 r _ rfl

/- A fork starts the group. -/
theorem tracks_forked
    {prog : ServerProg Status}
    {g : Option Pid}
    (pid : Option Pid)
    (hTracks : s.Tracks g) :
    (s.forked pid prog).Tracks (pid.or g) := by
  cases pid with
  | none => exact hTracks
  | some pid => exact rfl

/- The one process that may have been left has ended. -/
theorem members_of_onlyAlive
    {pid : Pid}
    (h : s.onlyAlive pid = true)
    (hEnded : pid ∉ s.members) :
    s.members = ∅ := by
  unfold onlyAlive at h
  rw [decide_eq_true_eq] at h
  apply Finset.eq_empty_of_forall_notMem
  intro p hMem
  apply hEnded
  rw [← h p hMem]
  exact hMem

/- The handler's steps. -/
theorem Sound.stepServer
    {answer : (op : ServerOp) → Resp op}
    (h : s.Sound)
    (hLeaves : s.leavesNoOne (.server answer) = true)
    (hStep : s.stepServer answer = some s') :
    s'.Sound := by
  unfold TaskRun.stepServer at hStep
  unfold leavesNoOne at hLeaves
  cases hProg : s.prog with
  | ret status =>
      rw [hProg] at hStep
      cases hStep
  | call op next =>
      rw [hProg] at hStep hLeaves
      cases op with
      | monitor child cfg =>
          cases hMonitor : s.monitor with
          | some m =>
              simp only [hMonitor] at hStep
              cases hStep
          | none =>
              rcases h.handler with ⟨g, hTracks, hWp⟩
              rw [hProg] at hWp
              cases hMade : answer (.monitor child cfg) with
              | none =>
                  -- The exception meets a group that is gone.
                  simp only [hMonitor, hMade,
                    Option.some.injEq] at hStep
                  subst hStep
                  simp only [hMade, Option.isSome_none,
                    Bool.false_or, decide_eq_true_eq]
                    at hLeaves
                  exact
                    { handler :=
                        ⟨none, hLeaves, hWp.2 none none rfl⟩
                      monitored := fun m hSome => by
                        cases hSome }
              | some outcome =>
                  simp only [hMonitor, hMade,
                    Option.some.injEq] at hStep
                  subst hStep
                  refine
                    { handler := ⟨g, hTracks, hWp⟩
                      monitored := ?_ }
                  intro m hSome
                  cases hSome
                  have hLeader :
                      s.Tracks (some child.pid) := by
                    rw [← show g = some child.pid from hWp.1]
                    exact hTracks
                  exact
                    { task :=
                        ⟨child, cfg, next, rfl,
                          Eq.symm hLeader, .start⟩
                      killed := fun hKill => by cases hKill
                      reaped := fun hReaps =>
                        absurd rfl hReaps }
      | fork =>
          simp only [Option.some.injEq] at hStep
          subst hStep
          refine
            h.answered hProg (by simp) (answer .fork)
              ?_ ?_ (fun g hTracks _ =>
                tracks_forked _ hTracks)
          · cases answer .fork <;> rfl
          · cases answer .fork <;> rfl
      | forkpty =>
          simp only [Option.some.injEq] at hStep
          subst hStep
          refine
            h.answered hProg (by simp) (answer .forkpty)
              ?_ ?_ (fun g hTracks _ =>
                tracks_forked _ hTracks)
          · cases answer .forkpty <;> rfl
          · cases answer .forkpty <;> rfl
      | kill pid =>
          simp only [Option.some.injEq] at hStep
          subst hStep
          exact
            h.answered hProg (by simp) () rfl rfl
              (fun g hTracks _ => hTracks)
      | waitpid pid =>
          simp only [Option.ite_none_left_eq_some,
            Option.some.injEq] at hStep
          rcases hStep with ⟨hEnded, rfl⟩
          exact
            h.answered hProg (by simp) () rfl rfl
              (fun _ _ _ =>
                members_of_onlyAlive hLeaves hEnded)
      | _ =>
          simp only [Option.some.injEq] at hStep
          subst hStep
          exact
            h.answered hProg (by simp) (answer _) rfl rfl
              (fun g hTracks _ => hTracks)

/- A child is reaped only once it has ended. -/
theorem Monitored.reaped_step
    {m m' : Monitor}
    {event : MonitorEvent}
    (h : s.Monitored m)
    (hSignalled : m.Signalled event m')
    (hReaps : ¬ (event.reaps = true ∧ s.leader ∈ s.members))
    (hNonempty : m'.reaps ≠ []) :
    s.leader ∉ s.members := by
  rcases hSignalled.reaps hNonempty with hBefore | hNow
  · exact h.reaped hBefore
  · exact fun hMem => hReaps ⟨hNow, hMem⟩

/- The threads of the monitor. -/
theorem Sound.stepMonitor
    {event : MonitorEvent}
    (h : s.Sound)
    (hStep : s.stepMonitor event = some s') :
    s'.Sound := by
  cases hMonitor : s.monitor with
  | none =>
      unfold TaskRun.stepMonitor at hStep
      rw [hMonitor] at hStep
      split at hStep
      · rename_i hSome
        cases hSome
      · cases hStep
  | some m =>
      have hMonitored := h.monitored m hMonitor
      rcases hMonitored.task with
        ⟨child, cfg, next, hProg, hLeader, hReach⟩
      unfold TaskRun.stepMonitor at hStep
      rw [hProg, hMonitor] at hStep
      simp only [Option.ite_none_left_eq_some] at hStep
      rcases hStep with ⟨hReaps, hStep⟩
      cases hNext : m.step cfg event with
      | none =>
          rw [hNext] at hStep
          cases hStep
      | some m' =>
          rw [hNext] at hStep
          simp only [Option.some.injEq] at hStep
          have hSignalled := Monitor.signalled_step hNext
          rcases h.handler with ⟨g, hTracks, hWp⟩
          rw [hProg] at hWp
          have hView : g = some child.pid := hWp.1
          by_cases hKills : m.killsGroup event = true
          · rw [if_pos ⟨hKills, hLeader⟩] at hStep
            subst hStep
            refine
              { handler := ⟨g, ?_, hWp⟩
                monitored := ?_ }
            · rw [hView]
              exact hLeader.symm
            · intro m₁ hSome
              cases hSome
              refine
                { task :=
                    ⟨child, cfg, next, rfl, hLeader,
                      .next hReach hNext⟩
                  killed := fun _ =>
                    Finset.subset_union_right
                  reaped := ?_ }
              exact
                hMonitored.reaped_step hSignalled
                  (hLeader ▸ hReaps)
          · rw [if_neg (fun hBoth => hKills hBoth.1)] at hStep
            subst hStep
            refine
              { handler := ⟨g, hTracks, hWp⟩
                monitored := ?_ }
            intro m₁ hSome
            cases hSome
            refine
              { task :=
                  ⟨child, cfg, next, rfl, hLeader,
                    .next hReach hNext⟩
                killed := fun hKill =>
                  hMonitored.killed
                    ((hSignalled.kill hKill).resolve_right
                      hKills)
                reaped := ?_ }
            exact
              hMonitored.reaped_step hSignalled
                (hLeader ▸ hReaps)

/- The monitor leaves nobody behind. -/
theorem Sound.stepReturns
    (h : s.Sound)
    (hLeaves : s.leavesNoOne .returns = true)
    (hStep : s.stepReturns = some s') :
    s'.Sound := by
  cases hMonitor : s.monitor with
  | none =>
      unfold TaskRun.stepReturns at hStep
      rw [hMonitor] at hStep
      split at hStep
      · rename_i hSome
        cases hSome
      · cases hStep
  | some m =>
      have hMonitored := h.monitored m hMonitor
      rcases hMonitored.task with
        ⟨child, cfg, next, hProg, hLeader, hReach⟩
      unfold TaskRun.stepReturns at hStep
      rw [hProg, hMonitor] at hStep
      simp only [] at hStep
      split at hStep
      · rename_i status hPc
        simp only [Option.some.injEq] at hStep
        subst hStep
        have hGone : s.members = ∅ := by
          unfold leavesNoOne at hLeaves
          rw [hMonitor] at hLeaves
          simp only [Bool.or_eq_true, Bool.and_eq_true,
            decide_eq_true_eq] at hLeaves
          rcases hLeaves with
            ⟨hDied, hEnd | ⟨hOnly, hDead⟩⟩
          · -- Everybody was sent SIGKILL, and has ended.
            have hDoomed :=
              hMonitored.killed
                (Monitor.killed_of_returned hReach hPc hEnd)
            apply Finset.eq_empty_of_forall_notMem
            intro p hMem
            exact hDied p hMem (hDoomed hMem)
          · apply members_of_onlyAlive hOnly
            rcases hDead with hReaped | hExited
            · exact hMonitored.reaped hReaped
            · exact hExited
        rcases h.handler with ⟨g, _, hWp⟩
        rw [hProg] at hWp
        exact
          { handler := ⟨none, hGone, hWp.2 _ none rfl⟩
            monitored := fun m hSome => by cases hSome }
      · cases hStep

/- The processes of the command. -/
theorem Sound.stepProcesses
    {members : Finset Pid}
    (h : s.Sound)
    (hStep : s.stepProcesses members = some s') :
    s'.Sound := by
  unfold TaskRun.stepProcesses at hStep
  simp only [Option.ite_none_right_eq_some,
    Option.some.injEq] at hStep
  rcases hStep with ⟨⟨hStarts, hGone⟩, rfl⟩
  rcases h.handler with ⟨g, hTracks, hWp⟩
  -- Where everybody was sent SIGKILL, nobody is new.
  have hShrinks
      (hDoomed : s.members ⊆ s.doomed) :
      members ⊆ s.members :=
    hStarts.resolve_right (not_not.mpr hDoomed)
  refine
    { handler := ⟨g, ?_, hWp⟩
      monitored := ?_ }
  · cases g with
    | none =>
        have hEmpty : s.members = ∅ := hTracks
        have hNone := hShrinks (by rw [hEmpty]; simp)
        rw [hEmpty] at hNone
        exact Finset.subset_empty.mp hNone
    | some pid => exact hTracks
  · intro m hSome
    have hMonitored := h.monitored m hSome
    exact
      { task := hMonitored.task
        killed := fun hKill =>
          (hShrinks (hMonitored.killed hKill)).trans
            (hMonitored.killed hKill)
        reaped := fun hReaps hMem =>
          hMonitored.reaped hReaps
            (hGone _ hMem (Or.inl rfl)) }

/- Every step that leaves no one keeps the run sound. -/
theorem Sound.step
    {label : TaskLabel}
    (h : s.Sound)
    (hLeaves : s.leavesNoOne label = true)
    (hStep : s.step label = some s') :
    s'.Sound := by
  cases label with
  | server answer => exact h.stepServer hLeaves hStep
  | monitor event => exact h.stepMonitor hStep
  | returns => exact h.stepReturns hLeaves hStep
  | processes members => exact h.stepProcesses hStep

end TaskRun

/-
  In a run whose steps leave no one, no process of the task
  is alive when its submission removes the workspace,
  releases the key or has returned.
-/
theorem no_process_outlives
    (root : WorkspaceRoot)
    (messages : List TaskRequest)
    {s : TaskRun}
    (hReach :
      Core.Reaches
        (Core.guarded TaskRun.leavesNoOne TaskRun.step)
        (TaskRun.start (taskSubmission root messages)) s)
    (hCleans : s.cleansUp = true) :
    s.members = ∅ := by
  have hSound : s.Sound := by
    refine Core.Reaches.invariant ?_ ?_ hReach
    · exact
        { handler :=
            ⟨none, rfl, wp_taskSubmission_group root messages⟩
          monitored := fun m hSome => by cases hSome }
    · intro s label s' hSound hStep
      rcases Core.guarded_eq_some_iff.mp hStep with
        ⟨hLeaves, hNext⟩
      exact hSound.step hLeaves hNext
  rcases hSound.handler with ⟨g, hTracks, hWp⟩
  have hNone : g = none := by
    unfold TaskRun.cleansUp at hCleans
    split at hCleans
    · rename_i status hProg
      rw [hProg] at hWp
      exact hWp
    · rename_i p next hProg
      rw [hProg] at hWp
      exact hWp.1
    · rename_i next hProg
      rw [hProg] at hWp
      exact hWp.1
    · cases hCleans
  rw [hNone] at hTracks
  exact hTracks

/- Every call succeeds, and the workspace is registered. -/
def grantingTask (op : ServerOp) : Resp op :=
  match op with
  | .cleanupTargets =>
      { WorkspaceLockGuard.init with
        cleanupRegistered := true
        workspaceSubdir := "job".toList }
  | op => Env.granting.answer op

/- A submission of the command `true`. -/
def trueRun : TaskRun :=
  TaskRun.start
    (taskSubmission smallRoot [.config (smallConfig "job")])

/-
  The command is started and monitored; after the first
  steps the leader is reaped and its output ends, and after
  the last ones the monitor returns.
-/
def trueLabels
    (first : List TaskLabel)
    (status : Nat)
    (last : List TaskLabel) :
    List TaskLabel :=
  List.replicate 24 (.server grantingTask) ++
    [.monitor (.main (.clock 0))] ++
    first ++
    [.monitor (.main (.waited (.reaped status) 1)),
      .monitor (.main (.polled (.ready true))),
      .monitor (.main (.readDone .endOfStream 2)),
      .monitor (.main .advance),
      .monitor (.main .advance)] ++
    last ++
    [.monitor (.main .advance), .returns] ++
    List.replicate 4 (.server grantingTask)

/-
  A command with a second process is cancelled; both die of
  the SIGKILL, and the workspace is removed.
-/
theorem no_process_outlives_cancelled :
    ∃ s,
      Core.Reaches
          (Core.guarded TaskRun.leavesNoOne TaskRun.step)
          trueRun s ∧
        s.cleansUp = true ∧ s.members = ∅ := by
  have hRun :
      (Core.runLabels
          (Core.guarded TaskRun.leavesNoOne TaskRun.step)
          (trueLabels
            ([.processes {100, 101}] ++
              List.replicate 6 (.monitor (.watcher true)) ++
              [.processes ∅])
            9 [])
          trueRun).any
        TaskRun.cleansUp = true := by
    decide +kernel
  rcases Core.reaches_of_any hRun with ⟨s, hReach, hCleans⟩
  exact
    ⟨s, hReach, hCleans,
      no_process_outlives smallRoot _ hReach hCleans⟩

/-
  The command leaves a process in the background that does
  not hold the output open: the stream ends, nothing is
  signalled, and the workspace is removed under it.
-/
theorem backgroundProcess_outlives :
    ¬ ∀ (root : WorkspaceRoot) (messages : List TaskRequest)
      (s : TaskRun),
      Core.Reaches TaskRun.step
          (TaskRun.start (taskSubmission root messages)) s →
        s.cleansUp = true →
          s.members = ∅ := by
  intro hNobody
  have hRun :
      (Core.runLabels TaskRun.step
          (trueLabels
            [.processes {100, 101}, .processes {101}]
            0 [.monitor (.watcher false)])
          trueRun).any
        (fun s => s.cleansUp && decide (s.members ≠ ∅)) =
          true := by
    decide +kernel
  rcases Core.reaches_of_any hRun with ⟨s, hReach, hCheck⟩
  rw [Bool.and_eq_true, decide_eq_true_eq] at hCheck
  exact hCheck.2 (hNobody _ _ s hReach hCheck.1)

end Drex
