import Drex.Monitor.Interrupted

/-
  `MonitorChildProcess` does not wait for a finished task.

  Once the direct child has exited and nobody holds the
  output open, each step of the main thread uses up a part of
  what is left to do, unless a call was interrupted.  A
  thread can always go on, and a main thread that joins the
  watcher waits for a few of its steps only.

  Key definitions include:
    * `MainPc.left`
    * `WatcherPc.toEnd`
    * `Monitor.Ending`
    * `Supervised.Finished`

  Key theorems include:
    * `Supervised.finished_main`
    * `Supervised.finished_step`
    * `Supervised.Finished.goes_on`
    * `finished_task_returns`
-/

------------------------------------------------------------
-- Steps Left
------------------------------------------------------------

namespace Drex

/- The main thread's steps to its end, without the output's. -/
def MainPc.left : MainPc → Nat
| .start => 8
| .quiet => 8
| .top => 7
| .polling => 6
| .reading => 5
| .idleTerm => 5
| .idleKill => 4
| .idleStop => 3
| .idleJoin => 2
| .idleReap => 1
| .closing => 4
| .stopping => 3
| .joining => 2
| .reaping => 1
| .failClose _ => 3
| .failStop _ => 2
| .failJoin _ => 1
| .returned _ => 0

/- The main thread is at a join of the watcher. -/
def MainPc.joins : MainPc → Bool
| .failJoin _ => true
| .idleJoin => true
| .joining => true
| _ => false

/- The main thread is ending an idle task. -/
def MainPc.endsIdle : MainPc → Bool
| .idleTerm => true
| .idleKill => true
| .idleStop => true
| .idleJoin => true
| .idleReap => true
| _ => false

/- The watcher's steps to its end, once it is told to stop. -/
def WatcherPc.toEnd : WatcherPc → Nat
| .absent => 0
| .checkStop => 1
| .askCancelled => 2
| .recheckStop => 1
| .record => 3
| .sendTerm => 2
| .sendKill => 1
| .finished => 0

theorem MainPc.left_le (pc : MainPc) : pc.left ≤ 8 := by
  cases pc <;> simp [left]

theorem WatcherPc.toEnd_le (watcher : WatcherPc) :
    watcher.toEnd ≤ 3 := by
  cases watcher <;> decide

/- The call has to be made again, or had nothing to read. -/
def MainEvent.repeats : MainEvent → Bool
| .polled .interrupted => true
| .polled (.ready false) => true
| .readDone .interrupted _ => true
| _ => false

/- The call failed. -/
def MainEvent.fails : MainEvent → Bool
| .waited .failed _ => true
| .polled (.failed _) => true
| .readDone (.failed _ _) _ => true
| _ => false

/- A step that the main thread does not have to repeat. -/
def TaskEvent.works : TaskEvent → Bool
| .monitor (.main e) => !e.repeats
| _ => false

/- A step that the main thread repeats. -/
def TaskEvent.repeats : TaskEvent → Bool
| .monitor (.main e) => e.repeats
| _ => false

/- A step of a watcher that was told to stop. -/
def Supervised.lingers
    (s : Supervised) :
    TaskEvent → Bool
| .monitor (.watcher _) => s.monitor.stopCancelThread
| _ => false

end Drex

------------------------------------------------------------
-- The Way To A Return
------------------------------------------------------------

namespace Drex

namespace Monitor

/-
  A join comes after the flag is set, and an idle child is
  not reaped before the last wait for it.
-/
structure Ending (m : Monitor) : Prop where
  fresh : m.pc = .start → m.stopCancelThread = false
  told : m.pc.joins = true → m.stopCancelThread = true
  unreaped : m.pc.endsIdle = true → m.reaps = []

theorem ending_init : init.Ending where
  fresh := fun _ => rfl
  told := by simp [init, MainPc.joins]
  unreaped := by simp [init, MainPc.endsIdle]

variable {cfg : MonitorConfig} {m m' : Monitor}

theorem ending_main
    {e : MainEvent}
    (h : m.Ending)
    (hPhase : m.Phase)
    (hStep : m.main cfg e = some m') :
    m'.Ending := by
  rcases h with ⟨hFresh, hTold, hUnreaped⟩
  unfold Phase at hPhase
  cases main_move hStep with
  | idle now hPc hIdles =>
      -- An idle child has not been reaped in the loop.
      rw [hPc] at hPhase
      have hReaps := hPhase.2
      simp only [idles, Bool.and_eq_true,
        Bool.not_eq_true'] at hIdles
      unfold Reaped at hReaps
      rw [hIdles.1] at hReaps
      constructor <;> simp_all [MainPc.joins]
  | _ =>
      constructor <;>
        simp_all [MainPc.joins, MainPc.endsIdle]

theorem ending_watch
    {isCancelled : Bool}
    (h : m.Ending)
    (hStep : m.watch isCancelled = some m') :
    m'.Ending := by
  rcases watch_fields hStep with
    ⟨watcher, cancelled, signals, rfl⟩
  exact ⟨h.fresh, h.told, h.unreaped⟩

/- A watcher that was told to stop comes nearer to its end. -/
theorem watch_toEnd
    {isCancelled : Bool}
    (hTold : m.stopCancelThread = true)
    (hStep : m.watch isCancelled = some m') :
    1 + m'.watcher.toEnd ≤ m.watcher.toEnd := by
  cases watch_move hStep <;>
    simp_all [WatcherPc.toEnd]

/- A watcher that cannot be joined yet can go on. -/
theorem watch_of_not_joinable
    (hJoinable : m.joinable = false)
    (isCancelled : Bool) :
    (m.watch isCancelled).isSome = true := by
  unfold joinable at hJoinable
  unfold watch
  cases hWatcher : m.watcher with
  | absent | finished => simp [hWatcher] at hJoinable
  | checkStop | askCancelled | recheckStop | record
  | sendTerm | sendKill => rfl

end Monitor

end Drex

------------------------------------------------------------
-- A Finished Task
------------------------------------------------------------

namespace Drex

namespace Supervised

/- The child has exited, and nobody can write any more. -/
structure Finished (s : Supervised) : Prop where
  steady : s.Steady
  ending : s.monitor.Ending
  closed : s.outputOpen = false
  exited : s.life ≠ .running

/- What is left to do for the main thread. -/
def work (s : Supervised) : Nat :=
  s.monitor.pc.left + s.pipe.length

/- What is left to do for a watcher that will be stopped. -/
def watch (s : Supervised) : Nat :=
  if s.monitor.stopCancelThread then
    s.monitor.watcher.toEnd
  else
    3

variable {cfg : MonitorConfig} {s s' : Supervised}

theorem ending_step
    {event : TaskEvent}
    (hSteady : s.Steady)
    (h : s.monitor.Ending)
    (hStep : step cfg s event = some s') :
    s'.monitor.Ending := by
  cases event with
  | monitor e =>
      rcases step_monitor hStep with
        ⟨hAnswers, m, hNext, rfl⟩
      cases e with
      | main e =>
          exact Monitor.ending_main h hSteady.phase hNext
      | watcher isCancelled =>
          exact Monitor.ending_watch h hNext
  | _ =>
      rw [step_task (by simp) hStep]
      exact h

/- A finished task is not brought back. -/
theorem finished_preserved
    {event : TaskEvent}
    (h : s.Finished)
    (hStep : step cfg s event = some s') :
    s'.Finished := by
  refine
    { steady := steady_step h.steady hStep
      ending := ending_step h.steady h.ending hStep
      closed := ?_
      exited := ?_ }
  · cases event with
    | monitor e =>
        rcases step_monitor hStep with
          ⟨hAnswers, m, hNext, rfl⟩
        unfold settle
        split <;> exact h.closed
    | _ =>
        have hClosed := h.closed
        cases task_move (by simp) hStep
        simp_all
  · cases event with
    | monitor e =>
        rcases step_monitor hStep with
          ⟨hAnswers, m, hNext, rfl⟩
        unfold settle
        split
        · simp
        · exact h.exited
        · exact h.exited
    | _ =>
        have hExited := h.exited
        cases task_move (by simp) hStep
        simp_all

/- A step that reads nothing pays with the main thread's. -/
theorem work_le
    {spent earned : Nat}
    (hLeft :
      spent + s'.monitor.pc.left ≤
        s.monitor.pc.left + earned)
    (hPipe : s'.pipe = s.pipe) :
    spent + s'.work ≤ s.work + earned := by
  unfold work
  rw [hPipe]
  omega

/-
  The main thread pays for each step but the repeated ones:
  nothing more is written, and with the output closed no
  poll times out and no read would block.
-/
theorem finished_main
    {e : MainEvent}
    {m : Monitor}
    {strays : Nat}
    (h : s.Finished)
    (hAnswers : s.answers cfg (.main e) = true)
    (hStep : s.monitor.main cfg e = some m) :
    (!e.repeats).toNat +
        work
          { s.settle (.main e) with
            monitor := m
            strays := strays } ≤
      s.work + e.repeats.toNat := by
  have hClosed := h.closed
  cases Monitor.main_move hStep with
  | data first rest now hPc =>
      -- At least one byte of the output has been read.
      have hPrefix :
          (first :: rest).isPrefixOf s.pipe = true := hAnswers
      have hLength :=
        (List.isPrefixOf_iff_prefix.mp hPrefix).length_le
      simp only [List.length_cons] at hLength
      simp only [work, settle, MainEvent.repeats, hPc,
        Bool.not_false, Bool.toNat_true, Bool.toNat_false,
        List.length_drop, List.length_cons]
      omega
  | pollTimeout hPc => simp [answers, empty, hClosed] at hAnswers
  | dry now hPc => simp [answers, empty, hClosed] at hAnswers
  | _ =>
      refine work_le ?_ rfl
      simp_all [MainEvent.repeats, MainPc.left]

/- One step of a finished task and its monitor. -/
theorem finished_step
    {event : TaskEvent}
    (h : s.Finished)
    (hStep : step cfg s event = some s') :
    s'.Finished ∧
      event.works.toNat + s'.work ≤
        s.work + event.repeats.toNat := by
  refine ⟨finished_preserved h hStep, ?_⟩
  cases event with
  | monitor e =>
      rcases step_monitor hStep with
        ⟨hAnswers, m, hNext, rfl⟩
      cases e with
      | main e => exact finished_main h hAnswers hNext
      | watcher isCancelled =>
          rcases Monitor.watch_fields hNext with
            ⟨watcher, cancelled, signals, rfl⟩
          simp [TaskEvent.works, TaskEvent.repeats, work,
            settle]
  | _ =>
      have hClosed := h.closed
      have hMonitor := step_task (by simp) hStep
      refine work_le ?_ ?_
      · simp [TaskEvent.works, TaskEvent.repeats, hMonitor]
      · cases task_move (by simp) hStep
        simp_all

/- A watcher that is told to stop does not linger. -/
theorem watch_step
    {event : TaskEvent}
    (h : s.monitor.Ending)
    (hStep : step cfg s event = some s') :
    (s.lingers event).toNat + s'.watch ≤ s.watch := by
  cases event with
  | monitor e =>
      rcases step_monitor hStep with
        ⟨hAnswers, m, hNext, rfl⟩
      cases e with
      | main e =>
          change 0 + watch _ ≤ _
          have hEnd := m.watcher.toEnd_le
          rcases Monitor.main_leavesWatcher hNext with
            hStart | hLeaves
          · simp only [watch, h.fresh hStart]
            split <;> simp [hEnd]
          · cases hTold : s.monitor.stopCancelThread with
            | false =>
                simp only [watch, hTold]
                split <;> simp [hEnd]
            | true =>
                have hStays := hLeaves.stop hTold
                simp [watch, hTold, hStays, hLeaves.watcher]
      | watcher isCancelled =>
          have hTold :
              m.stopCancelThread =
                s.monitor.stopCancelThread := by
            rcases Monitor.watch_fields hNext with
              ⟨watcher, cancelled, signals, rfl⟩
            rfl
          simp only [lingers, watch, hTold]
          cases hStop : s.monitor.stopCancelThread with
          | false => simp
          | true => exact Monitor.watch_toEnd hStop hNext
  | _ =>
      have hMonitor := step_task (by simp) hStep
      simp [lingers, watch, hMonitor]

end Supervised

end Drex

------------------------------------------------------------
-- Going On
------------------------------------------------------------

namespace Drex

namespace Supervised

/- The main thread can go on, and no call needs to fail. -/
def MayWork (cfg : MonitorConfig) (s : Supervised) : Prop :=
  ∃ e s',
    e.repeats = false ∧ e.fails = false ∧
      step cfg s (.monitor (.main e)) = some s'

/- The main thread waits for a watcher that can go on. -/
structure AwaitsWatcher
    (cfg : MonitorConfig)
    (s : Supervised) : Prop where
  joins : s.monitor.pc.joins = true
  told : s.monitor.stopCancelThread = true
  watches :
    ∀ isCancelled, ∃ s',
      step cfg s (.monitor (.watcher isCancelled)) = some s'

variable {cfg : MonitorConfig} {s : Supervised}

/- A thread whose call is answered makes its step. -/
theorem step_of_answers
    {event : MonitorEvent}
    (hAnswers : s.answers cfg event = true)
    (hNext : (s.monitor.step cfg event).isSome = true) :
    ∃ s', step cfg s (.monitor event) = some s' := by
  rcases Option.isSome_iff_exists.mp hNext with ⟨m, hNext⟩
  change ∃ s', stepMonitor cfg s event = some s'
  unfold stepMonitor
  rw [if_pos hAnswers, hNext]
  exact ⟨_, rfl⟩

theorem mayWork_of_answers
    {e : MainEvent}
    (hNext : (s.monitor.main cfg e).isSome = true)
    (hAnswers : s.answers cfg (.main e) = true)
    (hOnce : e.repeats = false)
    (hSucceeds : e.fails = false) :
    MayWork cfg s := by
  rcases step_of_answers hAnswers hNext with ⟨s', hStep⟩
  exact ⟨e, s', hOnce, hSucceeds, hStep⟩

/- A step on the monitor's own data. -/
theorem mayWork_advance
    (hNext : (s.monitor.main cfg .advance).isSome = true) :
    MayWork cfg s :=
  mayWork_of_answers hNext rfl rfl rfl

/- A join is made, or it waits for a watcher that goes on. -/
theorem Finished.joins
    (h : s.Finished)
    (hJoins : s.monitor.pc.joins = true)
    (hNext :
      s.monitor.joinable = true →
        (s.monitor.main cfg .advance).isSome = true) :
    MayWork cfg s ∨ AwaitsWatcher cfg s := by
  cases hJoinable : s.monitor.joinable with
  | true => exact Or.inl (mayWork_advance (hNext hJoinable))
  | false =>
      refine Or.inr ⟨hJoins, h.ending.told hJoins, ?_⟩
      intro isCancelled
      exact
        step_of_answers rfl
          (Monitor.watch_of_not_joinable hJoinable isCancelled)

/- A child that was not reaped can be. -/
theorem Finished.mayWork_wait
    (h : s.Finished)
    (hReaps : s.monitor.reaps = [])
    (hNext :
      ∀ status,
        (s.monitor.main cfg
          (.waited (.reaped status) 0)).isSome = true) :
    MayWork cfg s := by
  have hAlive := h.steady.reaped.mp hReaps
  cases hLife : s.life with
  | running => exact absurd hLife h.exited
  | exited status =>
      have hAnswers :
          s.answers cfg (.main (.waited (.reaped status) 0)) =
            true :=
        decide_eq_true hLife
      exact
        mayWork_of_answers (hNext status) hAnswers rfl rfl
  | reaped status =>
      rw [hLife] at hAlive
      cases hAlive

/- What is left of the output can be read, or its end. -/
theorem Finished.mayWork_read
    (h : s.Finished)
    (hPc : s.monitor.pc = .reading) :
    MayWork cfg s := by
  cases hPipe : s.pipe with
  | nil =>
      have hAnswers :
          s.answers cfg (.main (.readDone .endOfStream 0)) =
            true := by
        simp [answers, Supervised.closed, h.closed, hPipe]
      exact
        mayWork_of_answers (by simp [Monitor.main, hPc])
          hAnswers rfl rfl
  | cons first rest =>
      have hAnswers :
          s.answers cfg
              (.main (.readDone (.data first rest) 0)) =
            true := by
        simp [answers, hPipe]
      exact
        mayWork_of_answers (by simp [Monitor.main, hPc])
          hAnswers rfl rfl

/- Until the monitor returns, one of its threads can go on. -/
theorem Finished.goes_on
    (h : s.Finished) :
    (∃ status, s.monitor.pc = .returned status) ∨
      MayWork cfg s ∨ AwaitsWatcher cfg s := by
  have hPhase := h.steady.phase
  have hUnreaped := h.ending.unreaped
  unfold Monitor.Phase at hPhase
  cases hPc : s.monitor.pc with
  | returned status => exact Or.inl ⟨status, rfl⟩
  | start | quiet =>
      have hNext :
          (s.monitor.main cfg (.clock 0)).isSome = true := by
        simp [Monitor.main, hPc]
      exact Or.inr (Or.inl (mayWork_of_answers hNext rfl rfl rfl))
  | top =>
      rw [hPc] at hPhase
      right; left
      cases hExited : s.monitor.childExited with
      | true =>
          apply mayWork_advance
          simp [Monitor.main, hPc, hExited]
      | false =>
          have hReaped := hPhase.2
          unfold Monitor.Reaped at hReaped
          rw [hExited] at hReaped
          apply h.mayWork_wait hReaped
          simp [Monitor.main, hPc, hExited]
  | polling =>
      have hNext :
          (s.monitor.main cfg (.polled (.ready true))).isSome =
            true := by
        simp [Monitor.main, hPc]
      exact Or.inr (Or.inl (mayWork_of_answers hNext rfl rfl rfl))
  | reading => exact Or.inr (Or.inl (h.mayWork_read hPc))
  | failClose | failStop | idleTerm | idleKill | idleStop
  | closing | stopping =>
      right; left
      apply mayWork_advance
      simp [Monitor.main, hPc]
  | failJoin | idleJoin =>
      right
      apply h.joins (by rw [hPc]; rfl)
      intro hJoinable
      simp [Monitor.main, hPc, hJoinable]
  | joining =>
      right
      apply h.joins (by rw [hPc]; rfl)
      intro hJoinable
      simp only [Monitor.main, hPc, hJoinable, if_true]
      split <;> rfl
  | idleReap =>
      right; left
      apply h.mayWork_wait (hUnreaped (by rw [hPc]; rfl))
      simp [Monitor.main, hPc, Monitor.idleReap]
  | reaping =>
      rw [hPc] at hPhase
      right; left
      apply h.mayWork_wait hPhase.2.1
      simp [Monitor.main, hPc, Monitor.mainReap]

end Supervised

end Drex

------------------------------------------------------------
-- Returning
------------------------------------------------------------

namespace Drex

open Drex.Core

namespace Supervised

variable {cfg : MonitorConfig} {s s' : Supervised}

theorem finished_of_reaches
    (h : Reaches (step cfg) .init s)
    (hClosed : s.outputOpen = false)
    (hExited : s.life ≠ .running) :
    s.Finished := by
  have hBoth : s.Steady ∧ s.monitor.Ending := by
    apply h.invariant ⟨steady_init, Monitor.ending_init⟩
    intro s event s' hBoth hStep
    exact
      ⟨steady_step hBoth.1 hStep,
        ending_step hBoth.1 hBoth.2 hStep⟩
  exact ⟨hBoth.1, hBoth.2, hClosed, hExited⟩

/- A run of a finished task. -/
theorem Finished.run
    {events : List TaskEvent}
    (h : s.Finished)
    (hRun : runLabels (step cfg) events s = some s') :
    s'.Finished ∧
      tally (step cfg) (fun _ event => event.works) events s ≤
        s.work +
          tally (step cfg) (fun _ event => event.repeats)
            events s ∧
        tally (step cfg) lingers events s ≤ s.watch := by
  have hWork :=
    @tally_le _ _ (step cfg) Finished
      (fun _ event => event.works)
      (fun _ event => event.repeats) work
      (fun _ _ _ h hStep => finished_step h hStep)
      events s s' h hRun
  have hWatch :=
    @tally_countdown _ _ (step cfg) Finished lingers watch
      (fun _ _ _ h hStep =>
        ⟨finished_preserved h hStep, watch_step h.ending hStep⟩)
      events s s' h hRun
  exact ⟨hWatch.1, by omega, by omega⟩

end Supervised

/-
  Once the child has exited and nobody holds the output open,
  the main thread makes at most as many steps as bytes are
  left to read and eight more, besides those it repeats; a
  watcher makes at most three once it is told to stop; and
  until the call returns, the main thread can go on or waits
  to join a watcher that can.
-/
theorem finished_task_returns
    {cfg : MonitorConfig}
    {s s' : Supervised}
    (h : Reaches (Supervised.step cfg) .init s)
    (hClosed : s.outputOpen = false)
    (hExited : s.life ≠ .running)
    {events : List TaskEvent}
    (hRun :
      runLabels (Supervised.step cfg) events s = some s') :
    tally (Supervised.step cfg) (fun _ event => event.works)
          events s ≤
        s.pipe.length + 8 +
          tally (Supervised.step cfg)
            (fun _ event => event.repeats) events s ∧
      tally (Supervised.step cfg) Supervised.lingers
          events s ≤ 3 ∧
        ((∃ status, s'.monitor.pc = .returned status) ∨
          s'.MayWork cfg ∨ s'.AwaitsWatcher cfg) := by
  have hFinished :=
    Supervised.finished_of_reaches h hClosed hExited
  rcases hFinished.run hRun with ⟨hEnd, hWork, hWatch⟩
  refine ⟨?_, ?_, hEnd.goes_on⟩
  · have hLeft := s.monitor.pc.left_le
    unfold Supervised.work at hWork
    omega
  · have hLeft := s.monitor.watcher.toEnd_le
    unfold Supervised.watch at hWatch
    split at hWatch <;> omega

/- A child that wrote a byte and exited. -/
def leftByte : Supervised :=
  { Supervised.init with
    monitor :=
      { Monitor.init with
        chunks := [Monitor.startNotice]
        watcher := .checkStop
        pc := .top }
    life := .exited 0
    outputOpen := false
    pipe := ['x']
    written := ['x']
    atExit := some ['x'] }

theorem leftByte_reached :
    Reaches (Supervised.step .pipe) .init leftByte :=
  reaches_runLabels
    [.monitor (.main (.clock 0)), .write 'x' [], .exit 0,
      .closeOutput] .start rfl

/- The byte is read, after an interrupted `poll`. -/
def leftByteEvents : List TaskEvent :=
  [.monitor (.main (.waited (.reaped 0) 1)),
    .monitor (.main (.polled .interrupted)),
    .monitor (.main .advance),
    .monitor (.main (.polled (.ready true))),
    .monitor (.main (.readDone (.data 'x' []) 2)),
    .monitor (.main (.readDone .endOfStream 2)),
    .monitor (.main .advance), .monitor (.main .advance),
    .monitor (.watcher false), .monitor (.main .advance)]

theorem finished_task_returns_byte :
    ∃ s',
      runLabels (Supervised.step .pipe) leftByteEvents
          leftByte =
          some s' ∧
        tally (Supervised.step .pipe)
              (fun _ event => event.works)
              leftByteEvents leftByte ≤
            1 + 8 +
              tally (Supervised.step .pipe)
                (fun _ event => event.repeats)
                leftByteEvents leftByte ∧
          tally (Supervised.step .pipe) Supervised.lingers
              leftByteEvents leftByte ≤ 3 ∧
            ((∃ status, s'.monitor.pc = .returned status) ∨
              s'.MayWork .pipe ∨ s'.AwaitsWatcher .pipe) :=
  ⟨_, rfl,
    finished_task_returns leftByte_reached rfl (by decide)
      rfl⟩

end Drex
