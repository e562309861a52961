import Drex.Monitor.Moves

/-
  A call of `MonitorChildProcess` together with its task.

  The direct child runs, exits and is reaped; the task writes
  to its output until nobody holds it open; other processes
  join the group and leave it.  The monitor's system calls
  are answered as the kernel answers them in that state.

  Key definitions include:
    * `ChildLife`
    * `Supervised`
    * `Supervised.answers`
    * `Supervised.step`
    * `Supervised.Steady`

  Key theorems include:
    * `Supervised.step_monitor`
    * `Supervised.task_move`
    * `Supervised.step_task`
    * `Supervised.steady_step`
-/

------------------------------------------------------------
-- The Task And Its Monitor
------------------------------------------------------------

namespace Drex

/- The direct child: a zombie from its exit to its reaping. -/
inductive ChildLife
| running
| exited (status : Nat)
| reaped (status : Nat)
deriving DecidableEq

def ChildLife.isReaped : ChildLife → Bool
| .reaped _ => true
| _ => false

/-
  The monitor, the direct child, the number of the group's
  other processes (running or unreaped), and the output.

  `pipe` is what the task wrote and the monitor has not read,
  `written` and `taken` are all that was written and read,
  and `atExit` is what was written when the child exited.
  For a terminal these are the bytes as its line discipline
  passes them on.  `strays` counts the signals that were sent
  to the group's id after the group was gone.
-/
structure Supervised where
  monitor : Monitor
  life : ChildLife
  others : Nat
  outputOpen : Bool
  pipe : Str
  written : Str
  taken : Str
  atExit : Option Str
  strays : Nat
deriving DecidableEq

inductive TaskEvent
| monitor (event : MonitorEvent)
| write (first : Char) (rest : Str)
| closeOutput
| exit (status : Nat)
| join
| leave
deriving DecidableEq

/- The step sends a signal to the group. -/
def Monitor.signalsGroup
    (m : Monitor)
    (event : MonitorEvent) : Bool :=
  match event with
  | .main _ => decide (m.pc = .idleTerm ∨ m.pc = .idleKill)
  | .watcher _ =>
      decide (m.watcher = .sendTerm ∨ m.watcher = .sendKill)

/- A client's call over a pipe, without an idle timeout. -/
def MonitorConfig.pipe : MonitorConfig :=
  { hasContext := true
    usePty := false
    idleTimeoutMs := -1 }

namespace Supervised

/- A started child that has written nothing. -/
def init : Supervised :=
  { monitor := .init
    life := .running
    others := 0
    outputOpen := true
    pipe := []
    written := []
    taken := []
    atExit := none
    strays := 0 }

/- The child was reaped and the group has no other process. -/
def gone (s : Supervised) : Bool :=
  s.life.isReaped && decide (s.others = 0)

/- Everything was read and nobody holds the output open. -/
def closed (s : Supervised) : Bool :=
  !s.outputOpen && decide (s.pipe = [])

/- Nothing is to be read, but more may come. -/
def empty (s : Supervised) : Bool :=
  s.outputOpen && decide (s.pipe = [])

/-
  The results that the kernel can give in this state; errors
  and interruptions are possible in any.
-/
def answers
    (cfg : MonitorConfig)
    (s : Supervised) :
    MonitorEvent → Bool
| .main (.waited .pending _) => decide (s.life = .running)
| .main (.waited (.reaped status) _) =>
    decide (s.life = .exited status)
| .main (.polled .timeout) => s.empty
| .main (.readDone (.data first rest) _) =>
    (first :: rest).isPrefixOf s.pipe
| .main (.readDone .wouldBlock _) => s.empty
| .main (.readDone result _) => !result.ends cfg || s.closed
| _ => true

/- What the step does to the child and to the output. -/
def settle
    (s : Supervised)
    (event : MonitorEvent) :
    Supervised :=
  match event with
  | .main (.waited (.reaped status) _) =>
      { s with life := .reaped status }
  | .main (.readDone (.data first rest) _) =>
      { s with
        pipe := s.pipe.drop (first :: rest).length
        taken := s.taken ++ first :: rest }
  | _ => s

/- A step of the monitor's threads. -/
def stepMonitor
    (cfg : MonitorConfig)
    (s : Supervised)
    (event : MonitorEvent) :
    Option Supervised :=
  if s.answers cfg event then
    match s.monitor.step cfg event with
    | none => none
    | some m =>
        some
          { s.settle event with
            monitor := m
            strays :=
              if s.monitor.signalsGroup event && s.gone then
                s.strays + 1
              else
                s.strays }
  else
    none

/-
  One step of the monitor or of the task.  Once the last
  holder has closed the output, nobody can write to it, and
  only a process of the group that still runs starts another.
-/
def step
    (cfg : MonitorConfig)
    (s : Supervised) :
    TaskEvent → Option Supervised
| .monitor event => s.stepMonitor cfg event
| .write first rest =>
    if s.outputOpen then
      some
        { s with
          pipe := s.pipe ++ first :: rest
          written := s.written ++ first :: rest }
    else
      none
| .closeOutput =>
    if s.outputOpen then
      some { s with outputOpen := false }
    else
      none
| .exit status =>
    if s.life = .running then
      some
        { s with
          life := .exited status
          atExit := some s.written }
    else
      none
| .join =>
    if s.life = .running ∨ 0 < s.others then
      some { s with others := s.others + 1 }
    else
      none
| .leave =>
    if 0 < s.others then
      some { s with others := s.others - 1 }
    else
      none

end Supervised

end Drex

------------------------------------------------------------
-- Runs
------------------------------------------------------------

namespace Drex

namespace Supervised

variable {cfg : MonitorConfig} {s s' : Supervised}

/- A step of a thread is one of the monitor's own. -/
theorem step_monitor
    {event : MonitorEvent}
    (hStep : step cfg s (.monitor event) = some s') :
    s.answers cfg event = true ∧
      ∃ m, s.monitor.step cfg event = some m ∧
        s' =
          { s.settle event with
            monitor := m
            strays :=
              if s.monitor.signalsGroup event && s.gone then
                s.strays + 1
              else
                s.strays } := by
  change stepMonitor cfg s event = some s' at hStep
  unfold stepMonitor at hStep
  by_cases hAnswers : s.answers cfg event = true
  · rw [if_pos hAnswers] at hStep
    cases hNext : s.monitor.step cfg event with
    | none =>
        rw [hNext] at hStep
        cases hStep
    | some m =>
        rw [hNext] at hStep
        exact ⟨hAnswers, m, rfl, (Option.some.inj hStep).symm⟩
  · rw [if_neg hAnswers] at hStep
    cases hStep

/- The task's own moves. -/
inductive TaskMove (s : Supervised) :
    TaskEvent → Supervised → Prop
| write
    (first : Char)
    (rest : Str)
    (hOpen : s.outputOpen = true) :
    TaskMove s (.write first rest)
      { s with
        pipe := s.pipe ++ first :: rest
        written := s.written ++ first :: rest }
| closeOutput
    (hOpen : s.outputOpen = true) :
    TaskMove s .closeOutput { s with outputOpen := false }
| exit
    (status : Nat)
    (hRuns : s.life = .running) :
    TaskMove s (.exit status)
      { s with
        life := .exited status
        atExit := some s.written }
| join
    (hSomeone : s.life = .running ∨ 0 < s.others) :
    TaskMove s .join { s with others := s.others + 1 }
| leave
    (hOthers : 0 < s.others) :
    TaskMove s .leave { s with others := s.others - 1 }

theorem task_move
    {event : TaskEvent}
    (hTask : ∀ e, event ≠ .monitor e)
    (hStep : step cfg s event = some s') :
    TaskMove s event s' := by
  cases event with
  | monitor e => exact absurd rfl (hTask e)
  | _ =>
      simp only [step, Option.ite_none_right_eq_some,
        Option.some.injEq] at hStep
      rcases hStep with ⟨hMay, rfl⟩
      constructor
      exact hMay

/- The task's own steps do not touch the monitor. -/
theorem step_task
    {event : TaskEvent}
    (hTask : ∀ e, event ≠ .monitor e)
    (hStep : step cfg s event = some s') :
    s'.monitor = s.monitor := by
  cases task_move hTask hStep <;> rfl

end Supervised

end Drex

------------------------------------------------------------
-- The Child And Its Monitor
------------------------------------------------------------

namespace Drex

namespace Supervised

variable {cfg : MonitorConfig} {s s' : Supervised}

/-
  What the monitor knows of the child: it reaped it exactly
  when it is reaped, and it signals an idle one before that.
-/
structure Steady (s : Supervised) : Prop where
  phase : s.monitor.Phase
  unstarted :
    s.monitor.pc = .start → s.monitor.watcher = .absent
  reaped :
    s.monitor.reaps = [] ↔ s.life.isReaped = false
  idle :
    s.monitor.pc = .idleTerm ∨ s.monitor.pc = .idleKill →
      s.monitor.reaps = []
  running : s.life = .running ↔ s.atExit = none

theorem steady_init : init.Steady where
  phase := Monitor.phase_init
  unstarted := fun _ => rfl
  reaped := by simp [init, Monitor.init, ChildLife.isReaped]
  idle := fun _ => rfl
  running := by simp [init]

/- An exit that the monitor has seen is a reaped child. -/
theorem Steady.reaped_of_childExited
    (h : s.Steady)
    (hReaped : s.monitor.Reaped)
    (hExited : s.monitor.childExited = true) :
    s.life.isReaped = true := by
  rw [← Bool.not_eq_false]
  intro hAlive
  have hReaps := h.reaped.mpr hAlive
  unfold Monitor.Reaped at hReaped
  rw [hReaps, if_pos hExited] at hReaped
  cases hReaped

/- The main thread's steps. -/
theorem steady_main
    {e : MainEvent}
    {m : Monitor}
    {strays : Nat}
    (h : s.Steady)
    (hAnswers : s.answers cfg (.main e) = true)
    (hStep : s.monitor.main cfg e = some m) :
    Steady
      { s.settle (.main e) with
        monitor := m
        strays := strays } := by
  have hPhase := Monitor.phase_main h.phase hStep
  rcases h with ⟨hBefore, hUnstarted, hReaped, hIdle, hRunning⟩
  unfold Monitor.Phase at hBefore
  cases Monitor.main_move hStep with
  | noticed status now hPc hNoted =>
      simp only [answers, decide_eq_true_eq] at hAnswers
      constructor <;> simp_all [settle, ChildLife.isReaped]
  | idle now hPc hIdles =>
      rw [hPc] at hBefore
      have hReaps := hBefore.2
      simp only [Monitor.idles, Bool.and_eq_true,
        Bool.not_eq_true'] at hIdles
      unfold Monitor.Reaped at hReaps
      rw [hIdles.1] at hReaps
      constructor <;> simp_all [settle, ChildLife.isReaped]
  | idleReaped status now hPc =>
      simp only [answers, decide_eq_true_eq] at hAnswers
      constructor <;> simp_all [settle, ChildLife.isReaped]
  | reaped status now hPc =>
      simp only [answers, decide_eq_true_eq] at hAnswers
      constructor <;> simp_all [settle, ChildLife.isReaped]
  | _ => constructor <;> simp_all [settle, ChildLife.isReaped]

/- The watcher's steps. -/
theorem steady_watch
    {isCancelled : Bool}
    {m : Monitor}
    {strays : Nat}
    (h : s.Steady)
    (hStep : s.monitor.watch isCancelled = some m) :
    Steady { s with monitor := m, strays := strays } := by
  have hPhase := Monitor.phase_watch h.phase hStep
  have hStarted : s.monitor.pc ≠ .start := by
    intro hPc
    simp [Monitor.watch, h.unstarted hPc] at hStep
  rcases Monitor.watch_fields hStep with
    ⟨watcher, cancelled, signals, rfl⟩
  exact
    { phase := hPhase
      unstarted := fun hPc => absurd hPc hStarted
      reaped := h.reaped
      idle := h.idle
      running := h.running }

/- The task's steps. -/
theorem steady_task
    {event : TaskEvent}
    (h : s.Steady)
    (hTask : ∀ e, event ≠ .monitor e)
    (hStep : step cfg s event = some s') :
    s'.Steady := by
  rcases h with ⟨hPhase, hUnstarted, hReaped, hIdle, hRunning⟩
  cases task_move hTask hStep with
  | exit status hRuns =>
      refine ⟨hPhase, hUnstarted, ?_, hIdle, ?_⟩
      · simpa [hRuns, ChildLife.isReaped] using hReaped
      · simp
  | _ => exact ⟨hPhase, hUnstarted, hReaped, hIdle, hRunning⟩

theorem steady_step
    {event : TaskEvent}
    (h : s.Steady)
    (hStep : step cfg s event = some s') :
    s'.Steady := by
  cases event with
  | monitor e =>
      rcases step_monitor hStep with
        ⟨hAnswers, m, hNext, rfl⟩
      cases e with
      | main e => exact steady_main h hAnswers hNext
      | watcher isCancelled => exact steady_watch h hNext
  | _ => exact steady_task h (by simp) hStep

end Supervised

end Drex
