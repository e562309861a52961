import Drex.Monitor.Moves

/-
  What `MonitorChildProcess` owns and gives back: the output
  descriptor, the direct child and the cancel thread.

  The poll and read error paths return without `waitpid`, and
  the idle timeout returns without `close`.

  Key definitions include:
    * `Owning`
    * `Owning.Released`
    * `Owning.keepsOwned`
    * `Owning.Kept`
    * `Owning.Lost`

  Key theorems include:
    * `Owning.kept_step`
    * `Owning.lost_step`
    * `Owning.released_iff_keepsOwned`
-/

------------------------------------------------------------
-- Ownership
------------------------------------------------------------

namespace Drex

/- The event is a `waitpid` that failed. -/
def MonitorEvent.waitFails : MonitorEvent → Bool
| .main (.waited .failed _) => true
| _ => false

/- The monitor, and whether some `waitpid` of it failed. -/
structure Owning where
  monitor : Monitor
  waitFailed : Bool
deriving DecidableEq

namespace Owning

def init : Owning :=
  { monitor := .init
    waitFailed := false }

def step
    (cfg : MonitorConfig)
    (s : Owning)
    (event : MonitorEvent) :
    Option Owning :=
  match s.monitor.step cfg event with
  | none => none
  | some m =>
      some
        { monitor := m
          waitFailed := s.waitFailed || event.waitFails }

/- The child was reaped once, unless `waitpid` failed. -/
def ChildReaped (s : Owning) : Prop :=
  s.monitor.reaps.length = 1 ∨ s.waitFailed = true

/-
  The descriptor was closed once, the child was reaped and
  the cancel thread was joined.
-/
def Released (s : Owning) : Prop :=
  s.monitor.closes = 1 ∧ s.ChildReaped ∧
    s.monitor.joinable = true

/-
  `poll` and `read` fail only after the child was reaped or a
  `waitpid` failed, and the idle timeout does not fire.
-/
def keepsOwned
    (cfg : MonitorConfig)
    (s : Owning) :
    MonitorEvent → Bool
| .main (.polled (.failed _)) =>
    s.monitor.childExited || s.waitFailed
| .main (.readDone (.failed errno eio) _) =>
    (ReadResult.failed errno eio).ends cfg ||
      s.monitor.childExited || s.waitFailed
| .main (.clock now) =>
    decide (s.monitor.pc ≠ .quiet) ||
      !s.monitor.idles cfg now
| _ => true

end Owning

end Drex

------------------------------------------------------------
-- Runs That Release
------------------------------------------------------------

namespace Drex

namespace Owning

variable {cfg : MonitorConfig} {s s' : Owning}

/- What a run under the condition has released so far. -/
def Kept (s : Owning) : Prop :=
  match s.monitor.pc with
  | .start => s.monitor.closes = 0
  | .top => s.monitor.closes = 0
  | .polling => s.monitor.closes = 0
  | .quiet => s.monitor.closes = 0
  | .reading => s.monitor.closes = 0
  | .failClose _ => s.monitor.closes = 0 ∧ s.ChildReaped
  | .failStop _ => s.monitor.closes = 1 ∧ s.ChildReaped
  | .failJoin _ => s.monitor.closes = 1 ∧ s.ChildReaped
  | .closing => s.monitor.closes = 0
  | .stopping => s.monitor.closes = 1
  | .joining => s.monitor.closes = 1
  | .reaping => s.monitor.closes = 1
  | .returned _ => s.Released
  | _ => False

/- A step of the machine, and what it makes of the flag. -/
theorem step_eq
    {event : MonitorEvent}
    (hStep : step cfg s event = some s') :
    ∃ m, s.monitor.step cfg event = some m ∧
      s' =
        { monitor := m
          waitFailed := s.waitFailed || event.waitFails } := by
  unfold step at hStep
  cases hNext : s.monitor.step cfg event with
  | none =>
      rw [hNext] at hStep
      cases hStep
  | some m =>
      rw [hNext] at hStep
      exact ⟨m, rfl, (Option.some.inj hStep).symm⟩

/- In the loop the child was reaped when its exit was seen. -/
theorem childReaped_of_childExited
    (hReaped : s.monitor.Reaped)
    (hExited : s.monitor.childExited = true) :
    s.ChildReaped := by
  unfold Monitor.Reaped at hReaped
  rw [if_pos hExited] at hReaped
  left
  rw [hReaped]
  rfl

/- The watcher releases nothing and closes nothing. -/
theorem watch_released
    {m : Monitor}
    {isCancelled : Bool}
    (hStep : s.monitor.watch isCancelled = some m) :
    m.pc = s.monitor.pc ∧ m.closes = s.monitor.closes ∧
      m.reaps = s.monitor.reaps ∧
        s.monitor.joinable = false := by
  have hOpen : s.monitor.joinable = false := by
    rw [Bool.eq_false_iff]
    intro hJoinable
    rw [Monitor.watch_joinable hJoinable] at hStep
    cases hStep
  rcases Monitor.watch_fields hStep with
    ⟨watcher, cancelled, signals, rfl⟩
  exact ⟨rfl, rfl, rfl, hOpen⟩

/- A step that reaps nothing loses no reaped child. -/
theorem ChildReaped.step
    {event : MonitorEvent}
    {m : Monitor}
    (h : s.ChildReaped)
    (hReaps : m.reaps = s.monitor.reaps) :
    ChildReaped
      { monitor := m
        waitFailed := s.waitFailed || event.waitFails } := by
  rcases h with hReaped | hFailed
  · left
    simpa [hReaps] using hReaped
  · right
    simp [hFailed]

/- A failed `poll` or `read` that the condition admits. -/
theorem childReaped_of_admitted
    (hReaped : s.monitor.Reaped)
    (h :
      (s.monitor.childExited || s.waitFailed) = true) :
    s.ChildReaped := by
  rw [Bool.or_eq_true] at h
  rcases h with hExited | hFailed
  · exact childReaped_of_childExited hReaped hExited
  · exact Or.inr hFailed

/- The main thread's steps. -/
theorem kept_main
    {e : MainEvent}
    {m : Monitor}
    (h : s.Kept)
    (hPhase : s.monitor.Phase)
    (hAdmits : s.keepsOwned cfg (.main e) = true)
    (hMove : s.monitor.MainMove cfg e m) :
    Kept
      { monitor := m
        waitFailed :=
          s.waitFailed || (MonitorEvent.main e).waitFails } := by
  unfold Kept at h
  unfold Monitor.Phase at hPhase
  cases hMove with
  | pollError errno hPc =>
      rw [hPc] at h hPhase
      have hReaped :=
        childReaped_of_admitted hPhase.2 hAdmits
      exact ⟨h, hReaped.step rfl⟩
  | readError errno eio now hPc hEnds =>
      rw [hPc] at h hPhase
      simp only [keepsOwned, hEnds, Bool.false_or] at hAdmits
      have hReaped :=
        childReaped_of_admitted hPhase.2 hAdmits
      exact ⟨h, hReaped.step rfl⟩
  | idle now hPc hIdle =>
      simp [keepsOwned, hPc, hIdle] at hAdmits
  | failClose status hPc =>
      rw [hPc] at h
      have hCloses : s.monitor.closes + 1 = 1 := by
        rw [h.1]
      exact ⟨hCloses, h.2.step rfl⟩
  | failStop status hPc =>
      rw [hPc] at h
      exact ⟨h.1, h.2.step rfl⟩
  | failJoin status hPc hJoinable =>
      rw [hPc] at h
      exact ⟨h.1, h.2.step rfl, hJoinable⟩
  | joinExited hPc hJoinable hExited =>
      rw [hPc] at h hPhase
      have hReaped :=
        childReaped_of_childExited hPhase.2 hExited
      exact ⟨h, hReaped.step rfl, hJoinable⟩
  | reaped status now hPc =>
      rw [hPc] at h hPhase
      rcases hPhase with ⟨_, hReaps, hJoinable⟩
      refine ⟨h, Or.inl ?_, hJoinable⟩
      simp [hReaps]
  | unreaped now hPc =>
      rw [hPc] at h hPhase
      rcases hPhase with ⟨_, _, hJoinable⟩
      refine ⟨h, Or.inr ?_, hJoinable⟩
      simp [MonitorEvent.waitFails]
  | _ => simp_all [Kept]

/- The watcher's steps. -/
theorem kept_watch
    {isCancelled : Bool}
    {m : Monitor}
    (h : s.Kept)
    (hStep : s.monitor.watch isCancelled = some m) :
    Kept
      { monitor := m
        waitFailed :=
          s.waitFailed ||
            (MonitorEvent.watcher isCancelled).waitFails } := by
  rcases watch_released hStep with
    ⟨hPc, hCloses, hReaps, hOpen⟩
  unfold Kept at h ⊢
  cases hAt : s.monitor.pc <;> rw [hAt] at h hPc <;>
    simp_all [Released, ChildReaped, MonitorEvent.waitFails]

/- What a step under the condition keeps. -/
theorem kept_step
    {event : MonitorEvent}
    (h : s.Kept ∧ s.monitor.Phase)
    (hStep :
      Core.guarded (keepsOwned cfg) (step cfg) s event =
        some s') :
    s'.Kept ∧ s'.monitor.Phase := by
  rcases Core.guarded_eq_some_iff.mp hStep with
    ⟨hAdmits, hNext⟩
  rcases step_eq hNext with ⟨m, hMonitor, rfl⟩
  refine ⟨?_, Monitor.phase_step h.2 hMonitor⟩
  cases event with
  | main e =>
      exact
        kept_main h.1 h.2 hAdmits (Monitor.main_move hMonitor)
  | watcher isCancelled => exact kept_watch h.1 hMonitor

theorem kept_reaches
    (h :
      Core.Reaches
        (Core.guarded (keepsOwned cfg) (step cfg)) init s) :
    s.Kept ∧ s.monitor.Phase :=
  h.invariant (I := fun s => s.Kept ∧ s.monitor.Phase)
    ⟨rfl, Monitor.phase_init⟩ (fun _ _ _ => kept_step)

end Owning

end Drex

------------------------------------------------------------
-- Runs That Lose
------------------------------------------------------------

namespace Drex

namespace Owning

variable {cfg : MonitorConfig} {s s' : Owning}

/- The child is not reaped and no `waitpid` has failed. -/
def Unreaped (s : Owning) : Prop :=
  s.monitor.reaps = [] ∧ s.waitFailed = false

/-
  On its way back without `waitpid`, or without `close`.
-/
def Lost (s : Owning) : Prop :=
  match s.monitor.pc with
  | .failClose _ => s.Unreaped
  | .failStop _ => s.Unreaped
  | .failJoin _ => s.Unreaped
  | .idleTerm => s.monitor.closes = 0
  | .idleKill => s.monitor.closes = 0
  | .idleStop => s.monitor.closes = 0
  | .idleJoin => s.monitor.closes = 0
  | .idleReap => s.monitor.closes = 0
  | .returned _ => s.monitor.closes = 0 ∨ s.Unreaped
  | _ => False

/- No step of the main thread gets it back. -/
theorem lost_main
    {e : MainEvent}
    {m : Monitor}
    (h : s.Lost)
    (hMove : s.monitor.MainMove cfg e m) :
    Lost
      { monitor := m
        waitFailed :=
          s.waitFailed || (MonitorEvent.main e).waitFails } := by
  unfold Lost at h
  cases hMove <;>
    simp_all [Lost, Unreaped, MonitorEvent.waitFails]

theorem lost_watch
    {isCancelled : Bool}
    {m : Monitor}
    (h : s.Lost)
    (hStep : s.monitor.watch isCancelled = some m) :
    Lost
      { monitor := m
        waitFailed :=
          s.waitFailed ||
            (MonitorEvent.watcher isCancelled).waitFails } := by
  rcases watch_released hStep with ⟨hPc, hCloses, hReaps, _⟩
  unfold Lost at h ⊢
  cases hAt : s.monitor.pc <;> rw [hAt] at h hPc <;>
    simp_all [Unreaped, MonitorEvent.waitFails]

theorem lost_step
    {event : MonitorEvent}
    (h : s.Lost)
    (hStep : step cfg s event = some s') :
    s'.Lost := by
  rcases step_eq hStep with ⟨m, hMonitor, rfl⟩
  cases event with
  | main e => exact lost_main h (Monitor.main_move hMonitor)
  | watcher isCancelled => exact lost_watch h hMonitor

/- In the loop an unseen exit is an unreaped child. -/
theorem unreaped_of_running
    {event : MonitorEvent}
    {m : Monitor}
    (hReaped : s.monitor.Reaped)
    (hRunning :
      (s.monitor.childExited || s.waitFailed) = false)
    (hEvent : event.waitFails = false)
    (hReaps : m.reaps = s.monitor.reaps) :
    Unreaped
      { monitor := m
        waitFailed := s.waitFailed || event.waitFails } := by
  rw [Bool.or_eq_false_iff] at hRunning
  unfold Monitor.Reaped at hReaped
  rw [hRunning.1] at hReaped
  refine ⟨?_, ?_⟩
  · rw [hReaps]
    exact hReaped
  · simp [hRunning.2, hEvent]

/- A step that the condition excludes loses something. -/
theorem lost_of_not_admitted
    {event : MonitorEvent}
    (h : s.Kept ∧ s.monitor.Phase)
    (hAdmits : s.keepsOwned cfg event = false)
    (hStep : step cfg s event = some s') :
    s'.Lost := by
  rcases step_eq hStep with ⟨m, hMonitor, rfl⟩
  rcases h with ⟨hKept, hPhase⟩
  unfold Kept at hKept
  unfold Monitor.Phase at hPhase
  cases event with
  | watcher isCancelled => cases hAdmits
  | main e =>
      cases Monitor.main_move hMonitor with
      | pollError errno hPc =>
          rw [hPc] at hPhase
          exact
            unreaped_of_running hPhase.2 hAdmits rfl rfl
      | readError errno eio now hPc hEnds =>
          rw [hPc] at hPhase
          simp only [keepsOwned, hEnds, Bool.false_or]
            at hAdmits
          exact
            unreaped_of_running hPhase.2 hAdmits rfl rfl
      | idle now hPc hIdle =>
          rw [hPc] at hKept
          exact hKept
      | drain now hPc hDrained =>
          simp_all [keepsOwned, Monitor.idles,
            Monitor.drained]
      | _ => simp_all [keepsOwned]

/- What is lost is not released when the call returns. -/
theorem Lost.not_released
    {status : Status}
    (h : s.Lost)
    (hPc : s.monitor.pc = .returned status) :
    ¬ s.Released := by
  unfold Lost at h
  rw [hPc] at h
  rintro ⟨hCloses, hReaped, _⟩
  rcases h with hOpen | ⟨hReaps, hFailed⟩
  · rw [hOpen] at hCloses
    cases hCloses
  · rcases hReaped with hOnce | hFails
    · rw [hReaps] at hOnce
      cases hOnce
    · rw [hFailed] at hFails
      cases hFails

/-
  A returned call has released what it owned exactly when
  every step of its run met the condition.
-/
theorem released_iff_keepsOwned
    {status : Status}
    (hReach : Core.Reaches (step cfg) init s)
    (hPc : s.monitor.pc = .returned status) :
    s.Released ↔
      Core.Reaches
        (Core.guarded (keepsOwned cfg) (step cfg)) init s := by
  constructor
  · intro hReleased
    have hSplit :
        Core.Reaches
            (Core.guarded (keepsOwned cfg) (step cfg)) init
            s ∨
          s.Lost :=
      hReach.guarded_or
        (fun _ _ _ hMeets =>
          lost_of_not_admitted (kept_reaches hMeets))
        (fun _ _ _ => lost_step)
    exact
      hSplit.resolve_right
        (fun hLost => hLost.not_released hPc hReleased)
  · intro hMeets
    have hKept := (kept_reaches hMeets).1
    unfold Kept at hKept
    rw [hPc] at hKept
    exact hKept

/- A client's call with a timeout of five milliseconds. -/
def shortIdle : MonitorConfig :=
  { hasContext := true
    usePty := false
    idleTimeoutMs := 5 }

/- A task that exits at once leaves nothing behind. -/
theorem released_quick :
    ∃ s,
      Core.Reaches (step shortIdle) init s ∧
        s.monitor.pc = .returned Status.success ∧
          s.Released := by
  have hRun :
      (Core.runLabels
          (Core.guarded (keepsOwned shortIdle)
            (step shortIdle))
          (Monitor.quickEvents shortIdle) init).any
        (fun s =>
          decide (s.monitor.pc = .returned Status.success)) =
          true := by
    decide +kernel
  rcases Core.reaches_of_any hRun with ⟨s, hMeets, hCheck⟩
  have hPc := of_decide_eq_true hCheck
  exact
    ⟨s, hMeets.of_guarded, hPc,
      (released_iff_keepsOwned hMeets.of_guarded hPc).mpr
        hMeets⟩

/-
  A task without output is killed and reaped after its idle
  timeout, and its descriptor stays open.
-/
theorem idleTimeout_keeps_descriptor :
    ¬ ∀ (cfg : MonitorConfig) (s : Owning)
      (status : Status),
      Core.Reaches (step cfg) init s →
        s.monitor.pc = .returned status →
          s.Released := by
  intro hReleases
  have hRun :
      (Core.runLabels (step shortIdle)
          [.main (.clock 0), .main (.waited .pending 0),
            .main (.polled .timeout), .main (.clock 200),
            .main .advance, .main .advance, .main .advance,
            .watcher false, .main .advance,
            .main (.waited (.reaped 9) 2200)]
          init).any
        (fun s =>
          decide
            (s.monitor.pc =
                .returned Monitor.idleTimeoutStatus ∧
              s.monitor.closes = 0)) =
          true := by
    decide +kernel
  rcases Core.reaches_of_any hRun with ⟨s, hReach, hCheck⟩
  rcases of_decide_eq_true hCheck with ⟨hPc, hOpen⟩
  have hReleased := hReleases shortIdle s _ hReach hPc
  rw [hReleased.1] at hOpen
  cases hOpen

end Owning

end Drex
