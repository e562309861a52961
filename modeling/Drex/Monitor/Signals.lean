import Drex.Monitor.Supervision

/-
  Which process group the signals of a call reach.

  The watcher sends SIGTERM and two seconds later SIGKILL
  while the main thread reaps the child by itself, so the id
  of the group can be free, or another group's, in between.

  Key definitions include:
    * `Monitor.signalling`
    * `Supervised.holdsGroup`
    * `Supervised.Aimed`
    * `Supervised.Astray`

  Key theorems include:
    * `Supervised.aimed_step`
    * `Supervised.astray_step`
    * `Supervised.signals_reach_task`
-/

------------------------------------------------------------
-- The Condition
------------------------------------------------------------

namespace Drex

/- The watcher handles a cancellation up to its SIGKILL. -/
def Monitor.signalling (m : Monitor) : Bool :=
  match m.watcher with
  | .record => true
  | .sendTerm => true
  | .sendKill => true
  | _ => false

namespace Supervised

/-
  While a cancellation is handled the group is not gone: it
  is not handled for a group that is, and until its SIGKILL
  the last process of the group is not reaped and does not
  leave.
-/
def holdsGroup (s : Supervised) : TaskEvent → Bool
| .monitor (.watcher _) =>
    decide (s.monitor.watcher ≠ .recheckStop) ||
      s.monitor.stopCancelThread || !s.gone
| .monitor (.main (.waited (.reaped _) _)) =>
    !s.monitor.signalling || decide (s.others ≠ 0)
| .leave =>
    !s.monitor.signalling || decide (s.others ≠ 1) ||
      !s.life.isReaped
| _ => true

end Supervised

end Drex

------------------------------------------------------------
-- Runs Whose Signals Hit
------------------------------------------------------------

namespace Drex

namespace Supervised

variable {cfg : MonitorConfig} {s s' : Supervised}

/- No signal went astray, and none is about to. -/
structure Aimed (s : Supervised) : Prop where
  strays : s.strays = 0
  group : s.gone = true → s.monitor.signalling = false

/- The monitor itself is not part of the group. -/
@[simp] theorem gone_monitor
    (s : Supervised)
    (m : Monitor)
    (strays : Nat) :
    gone { s with monitor := m, strays := strays } =
      s.gone :=
  rfl

/- An idle child is signalled before it is reaped. -/
theorem signalsGroup_main
    {e : MainEvent}
    (h : s.Steady)
    (hSignals : s.monitor.signalsGroup (.main e) = true) :
    s.gone = false := by
  have hPc :
      s.monitor.pc = .idleTerm ∨ s.monitor.pc = .idleKill :=
    of_decide_eq_true hSignals
  have hAlive := h.reaped.mp (h.idle hPc)
  simp [gone, hAlive]

/- Only the start of the call moves the watcher. -/
theorem signalling_main
    {e : MainEvent}
    {m : Monitor}
    (h : s.Steady)
    (hStep : s.monitor.main cfg e = some m) :
    m.signalling = s.monitor.signalling := by
  cases Monitor.main_move hStep with
  | start now hPc =>
      have hAbsent := h.unstarted hPc
      cases hContext : cfg.hasContext <;>
        simp [Monitor.signalling, hAbsent]
  | _ => rfl

/- The group is gone after a reaping of its last process. -/
theorem gone_settle
    {e : MainEvent} :
    (s.settle (.main e)).gone = true →
      s.gone = true ∨
        (s.others = 0 ∧
          ∃ status now, e = .waited (.reaped status) now) := by
  intro hGone
  unfold settle at hGone
  split at hGone
  · rename_i status now hEvent
    simp only [gone, Bool.and_eq_true,
      decide_eq_true_eq] at hGone
    cases hEvent
    exact Or.inr ⟨hGone.2, status, now, rfl⟩
  · exact Or.inl hGone
  · exact Or.inl hGone

/- The main thread's steps. -/
theorem aimed_main
    {e : MainEvent}
    {m : Monitor}
    (h : s.Aimed)
    (hSteady : s.Steady)
    (hHolds : s.holdsGroup (.monitor (.main e)) = true)
    (hStep : s.monitor.main cfg e = some m) :
    Aimed
      { s.settle (.main e) with
        monitor := m
        strays :=
          if s.monitor.signalsGroup (.main e) && s.gone then
            s.strays + 1
          else
            s.strays } := by
  constructor
  · have hMiss :
        (s.monitor.signalsGroup (.main e) && s.gone) =
          false := by
      rw [Bool.and_eq_false_imp]
      exact signalsGroup_main hSteady
    simp [hMiss, h.strays]
  · intro hGone
    change m.signalling = false
    rw [signalling_main hSteady hStep]
    rcases gone_settle (s := s) (e := e) hGone with
      hBefore | ⟨hOthers, status, now, rfl⟩
    · exact h.group hBefore
    · simpa [holdsGroup, hOthers] using hHolds

/- The watcher's steps. -/
theorem aimed_watch
    {isCancelled : Bool}
    {m : Monitor}
    (h : s.Aimed)
    (hHolds :
      s.holdsGroup (.monitor (.watcher isCancelled)) = true)
    (hStep : s.monitor.watch isCancelled = some m) :
    Aimed
      { s with
        monitor := m
        strays :=
          if s.monitor.signalsGroup (.watcher isCancelled) &&
              s.gone then
            s.strays + 1
          else
            s.strays } := by
  have hGroup := h.group
  have hStrays := h.strays
  cases Monitor.watch_move hStep <;> constructor <;>
    simp_all [Monitor.signalsGroup, Monitor.signalling,
      holdsGroup]

/- The task's steps. -/
theorem aimed_task
    {event : TaskEvent}
    (h : s.Aimed)
    (hTask : ∀ e, event ≠ .monitor e)
    (hHolds : s.holdsGroup event = true)
    (hStep : step cfg s event = some s') :
    s'.Aimed := by
  rcases h with ⟨hStrays, hGroup⟩
  cases task_move hTask hStep with
  | leave hOthers =>
      refine ⟨hStrays, ?_⟩
      intro hGone
      simp only [gone, Bool.and_eq_true,
        decide_eq_true_eq] at hGone
      have hLast : s.others = 1 := by
        omega
      simpa [holdsGroup, hGone.1, hLast] using hHolds
  | exit status hRuns =>
      refine ⟨hStrays, ?_⟩
      intro hGone
      simp [gone, ChildLife.isReaped] at hGone
  | join hSomeone =>
      refine ⟨hStrays, ?_⟩
      intro hGone
      simp [gone] at hGone
  | _ => exact ⟨hStrays, hGroup⟩

/- A step under the condition sends no signal astray. -/
theorem aimed_step
    {event : TaskEvent}
    (h : s.Aimed ∧ s.Steady)
    (hStep :
      Core.guarded holdsGroup (step cfg) s event =
        some s') :
    s'.Aimed ∧ s'.Steady := by
  rcases Core.guarded_eq_some_iff.mp hStep with
    ⟨hHolds, hNext⟩
  refine ⟨?_, steady_step h.2 hNext⟩
  cases event with
  | monitor e =>
      rcases step_monitor hNext with ⟨_, m, hMonitor, rfl⟩
      cases e with
      | main e => exact aimed_main h.1 h.2 hHolds hMonitor
      | watcher isCancelled =>
          exact aimed_watch h.1 hHolds hMonitor
  | _ => exact aimed_task h.1 (by simp) hHolds hNext

theorem aimed_reaches
    (h :
      Core.Reaches (Core.guarded holdsGroup (step cfg)) init
        s) :
    s.Aimed ∧ s.Steady :=
  h.invariant (I := fun s => s.Aimed ∧ s.Steady)
    ⟨⟨rfl, fun _ => rfl⟩, steady_init⟩
    (fun _ _ _ => aimed_step)

end Supervised

end Drex

------------------------------------------------------------
-- Runs With A Stray Signal
------------------------------------------------------------

namespace Drex

namespace Supervised

variable {cfg : MonitorConfig} {s s' : Supervised}

/-
  A signal went astray, or the group is gone and the watcher
  has yet to signal it.
-/
structure Astray (s : Supervised) : Prop where
  steady : s.Steady
  stray :
    0 < s.strays ∨
      (s.gone = true ∧ s.monitor.signalling = true)

/- No step of the monitor brings a group back. -/
theorem gone_settle_of_gone
    (event : MonitorEvent)
    (h : s.gone = true) :
    (s.settle event).gone = true := by
  unfold settle
  split
  · simp only [gone, Bool.and_eq_true,
      decide_eq_true_eq] at h
    simp [gone, ChildLife.isReaped, h.2]
  · exact h
  · exact h

/- The watcher goes on to the signals it owes. -/
theorem signalling_watch
    {isCancelled : Bool}
    {m : Monitor}
    (h : s.monitor.signalling = true)
    (hStep : s.monitor.watch isCancelled = some m) :
    m.signalling = true ∨
      s.monitor.signalsGroup (.watcher isCancelled) =
        true := by
  unfold Monitor.signalling at h
  cases Monitor.watch_move hStep <;>
    simp_all [Monitor.signalsGroup, Monitor.signalling]

/- A step of the monitor's threads. -/
theorem astray_monitor
    {event : MonitorEvent}
    {m : Monitor}
    (h : s.Astray)
    (hStep : s.monitor.step cfg event = some m) :
    0 <
        (if s.monitor.signalsGroup event && s.gone then
          s.strays + 1
        else
          s.strays) ∨
      ((s.settle event).gone = true ∧
        m.signalling = true) := by
  rcases h.stray with hStray | ⟨hGone, hSignalling⟩
  · left
    split <;> omega
  · have hStays := gone_settle_of_gone event hGone
    cases event with
    | main e =>
        right
        rw [signalling_main h.steady hStep]
        exact ⟨hStays, hSignalling⟩
    | watcher isCancelled =>
        rcases signalling_watch hSignalling hStep with
          hOwes | hSends
        · exact Or.inr ⟨hStays, hOwes⟩
        · left
          simp [hSends, hGone]

/- A group that is gone stays gone. -/
theorem gone_task
    {event : TaskEvent}
    (hTask : ∀ e, event ≠ .monitor e)
    (hStep : step cfg s event = some s')
    (hGone : s.gone = true) :
    s'.gone = true := by
  simp only [gone, Bool.and_eq_true, decide_eq_true_eq]
    at hGone ⊢
  cases task_move hTask hStep with
  | exit status hRuns =>
      simp [hRuns, ChildLife.isReaped] at hGone
  | join hSomeone =>
      rcases hSomeone with hRuns | hOthers
      · simp [hRuns, ChildLife.isReaped] at hGone
      · omega
  | leave hOthers => omega
  | _ => exact hGone

/- The task's own steps send and take back no signal. -/
theorem strays_task
    {event : TaskEvent}
    (hTask : ∀ e, event ≠ .monitor e)
    (hStep : step cfg s event = some s') :
    s'.strays = s.strays := by
  cases task_move hTask hStep <;> rfl

/- No step calls a stray signal back. -/
theorem astray_step
    {event : TaskEvent}
    (h : s.Astray)
    (hStep : step cfg s event = some s') :
    s'.Astray := by
  refine ⟨steady_step h.steady hStep, ?_⟩
  cases event with
  | monitor e =>
      rcases step_monitor hStep with ⟨_, m, hMonitor, rfl⟩
      exact astray_monitor h hMonitor
  | _ =>
      rw [strays_task (by simp) hStep,
        step_task (by simp) hStep]
      refine h.stray.imp id (fun hBoth => ?_)
      exact ⟨gone_task (by simp) hStep hBoth.1, hBoth.2⟩

/- A step that the condition excludes leaves a signal owed. -/
theorem astray_of_not_holdsGroup
    {event : TaskEvent}
    (h : s.Steady)
    (hHolds : s.holdsGroup event = false)
    (hStep : step cfg s event = some s') :
    s'.Astray := by
  refine ⟨steady_step h hStep, Or.inr ?_⟩
  cases event with
  | monitor e =>
      rcases step_monitor hStep with ⟨_, m, hMonitor, rfl⟩
      cases e with
      | watcher isCancelled =>
          have hWatch := Monitor.watch_move hMonitor
          simp only [holdsGroup, Bool.or_eq_false_iff,
            decide_eq_false_iff_not, not_not,
            Bool.not_eq_false'] at hHolds
          rcases hHolds with ⟨⟨hWatcher, hStop⟩, hGone⟩
          refine ⟨hGone, ?_⟩
          cases hWatch <;>
            simp_all [Monitor.signalling]
      | main e =>
          have hSignalling := signalling_main h hMonitor
          unfold holdsGroup at hHolds
          split at hHolds
          · rename_i hEvent
            cases hEvent
          · rename_i status now hEvent
            cases hEvent
            simp only [Bool.or_eq_false_iff,
              decide_eq_false_iff_not, not_not,
              Bool.not_eq_false'] at hHolds
            refine ⟨?_, ?_⟩
            · simp [settle, gone, ChildLife.isReaped,
                hHolds.2]
            · exact hSignalling.trans hHolds.1
          · rename_i hEvent
            cases hEvent
          · cases hHolds
  | leave =>
      cases task_move (by simp) hStep
      simp only [holdsGroup, Bool.or_eq_false_iff,
        decide_eq_false_iff_not, not_not,
        Bool.not_eq_false'] at hHolds
      rcases hHolds with ⟨⟨hSignalling, hLast⟩, hReaped⟩
      exact ⟨by simp [gone, hReaped, hLast], hSignalling⟩
  | _ => cases hHolds

/- The call does not return while a signal is owed. -/
theorem Astray.strays_of_returned
    {status : Status}
    (h : s.Astray)
    (hPc : s.monitor.pc = .returned status) :
    0 < s.strays := by
  rcases h.stray with hStray | ⟨_, hSignalling⟩
  · exact hStray
  · have hPhase := h.steady.phase
    unfold Monitor.Phase at hPhase
    rw [hPc] at hPhase
    have hJoined := of_decide_eq_true hPhase.1
    unfold Monitor.signalling at hSignalling
    rcases hJoined with hWatcher | hWatcher
    · simp [hWatcher] at hSignalling
    · simp [hWatcher] at hSignalling

/-
  While the group is held, every signal reaches the task; and
  a call that returned without a stray signal held it.
-/
theorem signals_reach_task
    (hReach : Core.Reaches (step cfg) init s) :
    (Core.Reaches (Core.guarded holdsGroup (step cfg)) init
        s →
      s.strays = 0) ∧
    (∀ status, s.monitor.pc = .returned status →
      s.strays = 0 →
        Core.Reaches (Core.guarded holdsGroup (step cfg))
          init s) := by
  constructor
  · intro hHolds
    exact (aimed_reaches hHolds).1.strays
  · intro status hPc hStrays
    have hSplit :
        Core.Reaches (Core.guarded holdsGroup (step cfg))
            init s ∨
          s.Astray :=
      hReach.guarded_or
        (fun _ _ _ hMeets =>
          astray_of_not_holdsGroup (aimed_reaches hMeets).2)
        (fun _ _ _ => astray_step)
    rcases hSplit with hHolds | hAstray
    · exact hHolds
    · have hStray := hAstray.strays_of_returned hPc
      omega

/- The client cancels, and the watcher sends SIGTERM. -/
def cancelEvents : List TaskEvent :=
  [.monitor (.main (.clock 0)), .monitor (.watcher false),
    .monitor (.watcher true), .monitor (.watcher false),
    .monitor (.watcher false), .monitor (.watcher false)]

/- A task that survives SIGTERM is hit by SIGKILL. -/
theorem signals_reach_stubborn :
    ∃ s,
      Core.Reaches
          (Core.guarded holdsGroup (step .pipe)) init s ∧
        s.monitor.signals = [.term, .kill] ∧
          s.strays = 0 := by
  have hRun :
      (Core.runLabels
          (Core.guarded holdsGroup (step .pipe))
          (cancelEvents ++ [.monitor (.watcher false)])
          init).any
        (fun s =>
          decide (s.monitor.signals = [.term, .kill])) =
          true := by
    decide +kernel
  rcases Core.reaches_of_any hRun with ⟨s, hHolds, hCheck⟩
  exact
    ⟨s, hHolds, of_decide_eq_true hCheck,
      (signals_reach_task hHolds.of_guarded).1 hHolds⟩

/-
  A task that ends on SIGTERM is reaped at once, and SIGKILL
  is sent to its former group two seconds later.
-/
theorem kill_after_reaping :
    ¬ ∀ (cfg : MonitorConfig) (s : Supervised),
      Core.Reaches (step cfg) init s →
        s.strays = 0 := by
  intro hNoStrays
  have hRun :
      (Core.runLabels (step .pipe)
          (cancelEvents ++
            [.exit 15,
              .monitor (.main (.waited (.reaped 15) 10)),
              .monitor (.watcher false)])
          init).any
        (fun s => decide (s.strays = 1)) = true := by
    decide +kernel
  rcases Core.reaches_of_any hRun with ⟨s, hReach, hCheck⟩
  have hStray := of_decide_eq_true hCheck
  rw [hNoStrays .pipe s hReach] at hStray
  cases hStray

end Supervised

end Drex
