import Drex.Client.Interrupt
import Drex.Monitor.Supervision
import Drex.Monitor.Verdict

/-
  Ctrl+C in the client and the task on the server.

  The scope of the client's call and the monitor of the
  server run side by side; a cancelled call, or a connection
  that is lost, is what the server's context answers later.

  Key definitions include:
    * `Monitor.Blamed`
    * `Monitor.Watching`
    * `OpenCall`
    * `OpenCall.step`

  Key theorems include:
    * `Monitor.blamed_reaches`
    * `Monitor.watching_reaches`
    * `cancelled_interrupted`
    * `interrupt_reaches_task`
-/

------------------------------------------------------------
-- What The Monitor Answers For
------------------------------------------------------------

namespace Drex

/- The status the main thread is about to return. -/
def MainPc.status? : MainPc → Option Status
| .failClose status => some status
| .failStop status => some status
| .failJoin status => some status
| .returned status => some status
| _ => none

namespace Monitor

/-
  A signal was sent for a recorded cancellation or for an
  idle task, and a cancelled status has a cancellation.
-/
structure Blamed (m : Monitor) : Prop where
  phase : m.Phase
  signals :
    m.signals ≠ [] →
      m.cancelled = true ∨ m.exit = some .idleTimeout
  status :
    ∀ status, m.pc.status? = some status →
      status.code = .cancelled → m.cancelled = true
  sending :
    m.watcher = .sendTerm ∨ m.watcher = .sendKill →
      m.cancelled = true

theorem blamed_init : init.Blamed where
  phase := phase_init
  signals := fun h => absurd rfl h
  status := fun status h => by cases h
  sending := by simp [init]

/- A verdict is that of a cancellation if one is recorded. -/
theorem code_verdict
    {cancelled : Bool}
    {output : Str}
    {status : Nat}
    (h : (verdict cancelled output status).code = .cancelled) :
    cancelled = true := by
  unfold verdict at h
  split at h
  · assumption
  · split at h
    · split at h
      · cases h
      · cases h
    · split at h
      · cases h
      · cases h

variable {cfg : MonitorConfig} {m m' : Monitor}

/- The loop has not been left. -/
theorem Blamed.exit_none
    (h : m.Blamed)
    (hLoop :
      m.pc = .polling ∨ m.pc = .quiet ∨ m.pc = .reading) :
    m.exit = none := by
  have hPhase := h.phase
  unfold Phase at hPhase
  rcases hLoop with hPc | hPc | hPc
  · rw [hPc] at hPhase
    exact hPhase.1
  · rw [hPc] at hPhase
    exact hPhase.1
  · rw [hPc] at hPhase
    exact hPhase.1

/- A step that sends no signal. -/
theorem Blamed.goOn
    (h : m.Blamed)
    (hPhase : m'.Phase)
    (hSame :
      (m'.signals, m'.cancelled, m'.watcher) =
        (m.signals, m.cancelled, m.watcher))
    (hExit :
      m'.exit = m.exit ∨ m.pc = .polling ∨ m.pc = .quiet ∨
        m.pc = .reading)
    (hStatus :
      ∀ status, m'.pc.status? = some status →
        status.code = .cancelled → m.cancelled = true) :
    m'.Blamed := by
  simp only [Prod.mk.injEq] at hSame
  rcases hSame with ⟨hSignals, hCancelled, hWatcher⟩
  refine
    { phase := hPhase
      signals := ?_
      status := ?_
      sending := ?_ }
  · rw [hSignals, hCancelled]
    intro hSent
    rcases h.signals hSent with hRecorded | hIdle
    · exact Or.inl hRecorded
    · rcases hExit with hExit | hLoop
      · rw [hExit]
        exact Or.inr hIdle
      · rw [h.exit_none hLoop] at hIdle
        cases hIdle
  · rw [hCancelled]
    exact hStatus
  · rw [hWatcher, hCancelled]
    exact h.sending

/- An idle task is signalled. -/
theorem Blamed.idleSignal
    (h : m.Blamed)
    (hPhase : m'.Phase)
    (hSame :
      (m'.cancelled, m'.watcher) = (m.cancelled, m.watcher))
    (hExit : m'.exit = some .idleTimeout)
    (hStatus : m'.pc.status? = none) :
    m'.Blamed := by
  simp only [Prod.mk.injEq] at hSame
  refine
    { phase := hPhase
      signals := fun _ => Or.inr hExit
      status := ?_
      sending := ?_ }
  · rw [hStatus]
    intro status hSome
    cases hSome
  · rw [hSame.1, hSame.2]
    exact h.sending

theorem blamed_main
    {e : MainEvent}
    (h : m.Blamed)
    (hStep : m.main cfg e = some m') :
    m'.Blamed := by
  have hPhase := phase_main h.phase hStep
  cases main_move hStep with
  | start now hPc =>
      refine
        { phase := hPhase
          signals := h.signals
          status := fun _ hSome => by cases hSome
          sending := ?_ }
      dsimp only
      split
      · simp
      · simp
  | noticed | pending | waitFailed | known | interrupted
  | unreadable | pollTimeout | pollReady | wait | dry
  | idleStop | idleJoin | closing | stopping
  | joinRunning =>
      exact
        h.goOn hPhase rfl (Or.inl rfl)
          (fun _ hSome => by cases hSome)
  | data first rest now hPc =>
      refine h.goOn hPhase rfl (Or.inl rfl) ?_
      dsimp only
      rw [hPc]
      exact fun _ hSome => by cases hSome
  | readAgain now hPc => exact h
  | pollError errno hPc =>
      refine h.goOn hPhase rfl (Or.inr (Or.inl hPc)) ?_
      rintro status ⟨⟩ ⟨⟩
  | drain now hPc =>
      exact
        h.goOn hPhase rfl (Or.inr (Or.inr (Or.inl hPc)))
          (fun _ hSome => by cases hSome)
  | idle now hPc =>
      exact
        h.goOn hPhase rfl (Or.inr (Or.inr (Or.inl hPc)))
          (fun _ hSome => by cases hSome)
  | endOfStream now hPc =>
      exact
        h.goOn hPhase rfl (Or.inr (Or.inr (Or.inr hPc)))
          (fun _ hSome => by cases hSome)
  | hangup errno eio now hPc =>
      exact
        h.goOn hPhase rfl (Or.inr (Or.inr (Or.inr hPc)))
          (fun _ hSome => by cases hSome)
  | readError errno eio now hPc =>
      refine
        h.goOn hPhase rfl (Or.inr (Or.inr (Or.inr hPc))) ?_
      rintro status ⟨⟩ ⟨⟩
  | failClose status hPc =>
      refine h.goOn hPhase rfl (Or.inl rfl) ?_
      have hStatus := h.status
      rw [hPc] at hStatus
      exact hStatus
  | failStop status hPc =>
      refine h.goOn hPhase rfl (Or.inl rfl) ?_
      have hStatus := h.status
      rw [hPc] at hStatus
      exact hStatus
  | failJoin status hPc =>
      refine h.goOn hPhase rfl (Or.inl rfl) ?_
      have hStatus := h.status
      rw [hPc] at hStatus
      exact hStatus
  | idleTerm hPc =>
      exact h.idleSignal hPhase rfl hPhase rfl
  | idleKill hPc =>
      exact h.idleSignal hPhase rfl hPhase rfl
  | idleReaped status now hPc =>
      refine h.goOn hPhase rfl (Or.inl rfl) ?_
      rintro status ⟨⟩ ⟨⟩
  | idleUnreaped now hPc =>
      refine h.goOn hPhase rfl (Or.inl rfl) ?_
      rintro status ⟨⟩ ⟨⟩
  | joinExited hPc =>
      refine h.goOn hPhase rfl (Or.inl rfl) ?_
      rintro status ⟨⟩ hCode
      exact code_verdict hCode
  | reaped status now hPc =>
      refine h.goOn hPhase rfl (Or.inl rfl) ?_
      rintro status ⟨⟩ hCode
      exact code_verdict hCode
  | unreaped now hPc =>
      refine h.goOn hPhase rfl (Or.inl rfl) ?_
      rintro status ⟨⟩ ⟨⟩

theorem blamed_watch
    {isCancelled : Bool}
    (h : m.Blamed)
    (hStep : m.watch isCancelled = some m') :
    m'.Blamed := by
  have hPhase := phase_watch h.phase hStep
  cases watch_move hStep with
  | ask | stop | sleep | notice | cancel | giveUp =>
      exact
        { phase := hPhase
          signals := h.signals
          status := h.status
          sending := by simp }
  | record _ hWatcher =>
      exact
        { phase := hPhase
          signals := fun _ => Or.inl rfl
          status := fun _ _ _ => rfl
          sending := fun _ => rfl }
  | term _ hWatcher =>
      have hRecorded := h.sending (Or.inl hWatcher)
      exact
        { phase := hPhase
          signals := fun _ => Or.inl hRecorded
          status := h.status
          sending := fun _ => hRecorded }
  | kill _ hWatcher =>
      have hRecorded := h.sending (Or.inr hWatcher)
      exact
        { phase := hPhase
          signals := fun _ => Or.inl hRecorded
          status := h.status
          sending := by simp }

theorem blamed_reaches
    (h : Core.Reaches (step cfg) init m) :
    m.Blamed := by
  refine h.invariant blamed_init ?_
  intro m e m' hBlamed hStep
  cases e with
  | main e => exact blamed_main hBlamed hStep
  | watcher isCancelled => exact blamed_watch hBlamed hStep

end Monitor

end Drex

------------------------------------------------------------
-- The Watcher Of The Monitor
------------------------------------------------------------

namespace Drex

/- The steps left once the context answers yes. -/
def WatcherPc.left : WatcherPc → Nat
| .absent => 6
| .checkStop => 6
| .askCancelled => 5
| .recheckStop => 4
| .record => 3
| .sendTerm => 2
| .sendKill => 1
| .finished => 0

namespace Monitor

/- The task was cancelled, and its group signalled. -/
structure Terminated (m : Monitor) : Prop where
  cancelled : m.cancelled = true
  signals : [Signal.term, Signal.kill].Sublist m.signals

/- The watcher ends when it is told to, or after signalling. -/
structure Watching (m : Monitor) : Prop where
  absent : m.pc = .start → m.watcher = .absent
  term : m.watcher = .sendTerm → m.cancelled = true
  kill :
    m.watcher = .sendKill →
      m.cancelled = true ∧ Signal.term ∈ m.signals
  finished :
    m.watcher = .finished →
      m.stopCancelThread = true ∨ m.Terminated

theorem watching_init : init.Watching where
  absent := fun _ => rfl
  term := by simp [init]
  kill := by simp [init]
  finished := by simp [init]

variable {cfg : MonitorConfig} {m m' : Monitor}

/- What the main thread does to the watcher's part. -/
structure LeavesWatcher (m m' : Monitor) : Prop where
  watcher : m'.watcher = m.watcher
  cancelled : m'.cancelled = m.cancelled
  signals : m.signals.Sublist m'.signals
  stop : m.stopCancelThread = true → m'.stopCancelThread = true
  pc : m'.pc ≠ .start

theorem main_leavesWatcher
    {e : MainEvent}
    (hStep : m.main cfg e = some m') :
    m.pc = .start ∨ LeavesWatcher m m' := by
  cases main_move hStep with
  | start now hPc => exact Or.inl hPc
  | idleTerm hPc =>
      exact
        Or.inr ⟨rfl, rfl, List.sublist_append_left _ _, id,
          by simp⟩
  | idleKill hPc =>
      exact
        Or.inr ⟨rfl, rfl, List.sublist_append_left _ _, id,
          by simp⟩
  | failStop | idleStop | stopping =>
      exact
        Or.inr ⟨rfl, rfl, List.Sublist.refl _, fun _ => rfl,
          by simp⟩
  | data first rest now hPc =>
      exact
        Or.inr ⟨rfl, rfl, List.Sublist.refl _, id,
          by simp [hPc]⟩
  | readAgain now hPc =>
      exact
        Or.inr ⟨rfl, rfl, List.Sublist.refl _, id,
          by simp [hPc]⟩
  | noticed | pending | waitFailed | known | interrupted
  | unreadable | pollError | pollTimeout | pollReady | drain
  | idle | wait | endOfStream | hangup | dry | readError
  | failClose | failJoin | idleJoin | idleReaped
  | idleUnreaped | closing | joinExited | joinRunning
  | reaped | unreaped =>
      exact
        Or.inr ⟨rfl, rfl, List.Sublist.refl _, id, by simp⟩

theorem Terminated.mono
    (h : m.Terminated)
    (hCancelled : m'.cancelled = m.cancelled)
    (hSignals : m.signals.Sublist m'.signals) :
    m'.Terminated := by
  refine ⟨?_, h.signals.trans hSignals⟩
  rw [hCancelled]
  exact h.cancelled

/- The main thread does not bring the watcher back. -/
theorem watching_main
    {e : MainEvent}
    (h : m.Watching)
    (hStep : m.main cfg e = some m') :
    m'.Watching ∧ m'.watcher.left ≤ m.watcher.left := by
  rcases main_leavesWatcher hStep with hPc | hLeaves
  · have hAbsent := h.absent hPc
    cases main_move hStep with
    | start now hPc =>
        rw [hAbsent]
        dsimp only
        split
        · exact
            ⟨⟨by simp, by simp, by simp, by simp⟩,
              Nat.le_refl _⟩
        · exact
            ⟨⟨by simp, by simp, by simp, by simp⟩,
              Nat.le_refl _⟩
    | _ => simp_all
  · refine ⟨?_, ?_⟩
    · refine
        { absent := fun hStart => absurd hStart hLeaves.pc
          term := ?_
          kill := ?_
          finished := ?_ }
      · rw [hLeaves.watcher, hLeaves.cancelled]
        exact h.term
      · rw [hLeaves.watcher, hLeaves.cancelled]
        intro hKill
        rcases h.kill hKill with ⟨hCancelled, hTerm⟩
        exact ⟨hCancelled, hLeaves.signals.subset hTerm⟩
      · rw [hLeaves.watcher]
        intro hFinished
        rcases h.finished hFinished with hStop | hEnded
        · exact Or.inl (hLeaves.stop hStop)
        · exact
            Or.inr
              (hEnded.mono hLeaves.cancelled hLeaves.signals)
    · rw [hLeaves.watcher]

/- A context that answers yes brings the watcher to its end. -/
theorem watching_watch
    {isCancelled : Bool}
    (h : m.Watching)
    (hStep : m.watch isCancelled = some m') :
    m'.Watching ∧
      (isCancelled = true →
        1 + m'.watcher.left ≤ m.watcher.left) := by
  have hStarted :
      m.watcher ≠ .absent → m.pc ≠ .start := by
    intro hRuns hPc
    exact hRuns (h.absent hPc)
  cases watch_move hStep with
  | ask _ hWatcher hStop =>
      have hPc := hStarted (by simp [hWatcher])
      rw [hWatcher]
      exact
        ⟨⟨fun hStart => absurd hStart hPc, by simp, by simp,
          by simp⟩, fun _ => Nat.le_refl _⟩
  | stop _ hWatcher hStop =>
      have hPc := hStarted (by simp [hWatcher])
      rw [hWatcher]
      exact
        ⟨⟨fun hStart => absurd hStart hPc, by simp, by simp,
          fun _ => Or.inl hStop⟩,
          fun _ => by simp [WatcherPc.left]⟩
  | sleep hWatcher =>
      have hPc := hStarted (by simp [hWatcher])
      exact
        ⟨⟨fun hStart => absurd hStart hPc, by simp, by simp,
          by simp⟩, by simp⟩
  | notice hWatcher =>
      have hPc := hStarted (by simp [hWatcher])
      rw [hWatcher]
      exact
        ⟨⟨fun hStart => absurd hStart hPc, by simp, by simp,
          by simp⟩, fun _ => Nat.le_refl _⟩
  | cancel _ hWatcher hStop =>
      have hPc := hStarted (by simp [hWatcher])
      rw [hWatcher]
      exact
        ⟨⟨fun hStart => absurd hStart hPc, by simp, by simp,
          by simp⟩, fun _ => Nat.le_refl _⟩
  | giveUp _ hWatcher hStop =>
      have hPc := hStarted (by simp [hWatcher])
      rw [hWatcher]
      exact
        ⟨⟨fun hStart => absurd hStart hPc, by simp, by simp,
          fun _ => Or.inl hStop⟩,
          fun _ => by simp [WatcherPc.left]⟩
  | record _ hWatcher =>
      have hPc := hStarted (by simp [hWatcher])
      rw [hWatcher]
      exact
        ⟨⟨fun hStart => absurd hStart hPc, fun _ => rfl,
          by simp, by simp⟩, fun _ => Nat.le_refl _⟩
  | term _ hWatcher =>
      have hPc := hStarted (by simp [hWatcher])
      have hRecorded := h.term hWatcher
      rw [hWatcher]
      exact
        ⟨⟨fun hStart => absurd hStart hPc, by simp,
          fun _ => ⟨hRecorded, by simp⟩, by simp⟩,
          fun _ => Nat.le_refl _⟩
  | kill _ hWatcher =>
      have hPc := hStarted (by simp [hWatcher])
      rcases h.kill hWatcher with ⟨hRecorded, hTerm⟩
      have hBoth :
          [Signal.term, Signal.kill].Sublist
            (m.signals ++ [Signal.kill]) :=
        (List.singleton_sublist.mpr hTerm).append
          (List.Sublist.refl [Signal.kill])
      rw [hWatcher]
      exact
        ⟨⟨fun hStart => absurd hStart hPc, by simp, by simp,
          fun _ => Or.inr ⟨hRecorded, hBoth⟩⟩,
          fun _ => Nat.le_refl _⟩

/- A watcher that came to its end in time has signalled. -/
theorem Watching.terminated
    (h : m.Watching)
    (hLeft : m.watcher.left = 0)
    (hStop : m.stopCancelThread = false) :
    m.Terminated := by
  have hFinished : m.watcher = .finished := by
    cases hWatcher : m.watcher with
    | finished => rfl
    | absent | checkStop | askCancelled | recheckStop
    | record | sendTerm | sendKill =>
        rw [hWatcher] at hLeft
        cases hLeft
  rcases h.finished hFinished with hStopped | hEnded
  · rw [hStop] at hStopped
    cases hStopped
  · exact hEnded

theorem watching_reaches
    (h : Core.Reaches (step cfg) init m) :
    m.Watching := by
  refine h.invariant watching_init ?_
  intro m e m' hWatching hStep
  cases e with
  | main e => exact (watching_main hWatching hStep).1
  | watcher isCancelled =>
      exact (watching_watch hWatching hStep).1

end Monitor

end Drex

------------------------------------------------------------
-- A Call And Its Task
------------------------------------------------------------

namespace Drex

open Drex.Core

/-
  The scope of the client's call, whether the connection was
  lost, what the server's context answers, and the monitor.
-/
structure OpenCall where
  scope : CancelScope
  lost : Bool
  isCancelled : Bool
  monitor : Monitor

inductive CallEvent
| client (e : ScopeEvent)
| lose
-- The cancellation, or the loss, arrives at the server.
| deliver
| main (e : MainEvent)
| watcher
deriving DecidableEq

namespace OpenCall

/- The start of the call, with the monitor still to run. -/
def start (requested : Bool) : OpenCall :=
  { scope := .start requested
    lost := false
    isCancelled := false
    monitor := .init }

/- `TaskSubmit` gives the scope the context of its call. -/
def step
    (cfg : MonitorConfig)
    (c : OpenCall) :
    CallEvent → Option OpenCall
| .client e =>
    (c.scope.step true e).map fun scope =>
      { c with scope := scope }
| .lose => some { c with lost := true }
| .deliver =>
    if 0 < c.scope.cancels ∨ c.lost = true then
      some { c with isCancelled := true }
    else
      none
| .main e =>
    (c.monitor.main cfg e).map fun monitor =>
      { c with monitor := monitor }
| .watcher =>
    (c.monitor.watch c.isCancelled).map fun monitor =>
      { c with monitor := monitor }

variable {cfg : MonitorConfig} {c c' : OpenCall}

/- The scope of a call is a scope that was reached. -/
theorem scope_reaches
    {requested : Bool}
    (h : Reaches (step cfg) (start requested) c) :
    Reaches (CancelScope.step true) (.start requested)
      c.scope := by
  refine
    Reaches.invariant
      (I := fun c =>
        Reaches (CancelScope.step true) (.start requested)
          c.scope) .start ?_ h
  intro c e c' hReach hStep
  cases e with
  | client e =>
      rcases Option.map_eq_some_iff.mp hStep with
        ⟨scope, hScope, rfl⟩
      exact .next hReach hScope
  | lose =>
      rw [← Option.some.inj hStep]
      exact hReach
  | deliver =>
      rw [step] at hStep
      split at hStep
      · rw [← Option.some.inj hStep]
        exact hReach
      · cases hStep
  | main e =>
      rcases Option.map_eq_some_iff.mp hStep with
        ⟨monitor, hMonitor, rfl⟩
      exact hReach
  | watcher =>
      rcases Option.map_eq_some_iff.mp hStep with
        ⟨monitor, hMonitor, rfl⟩
      exact hReach

/- The monitor of a call is a monitor that was reached. -/
theorem monitor_reaches
    {requested : Bool}
    (h : Reaches (step cfg) (start requested) c) :
    Reaches (Monitor.step cfg) .init c.monitor := by
  refine
    Reaches.invariant
      (I := fun c =>
        Reaches (Monitor.step cfg) .init c.monitor) .start ?_
      h
  intro c e c' hReach hStep
  cases e with
  | client e =>
      rcases Option.map_eq_some_iff.mp hStep with
        ⟨scope, hScope, rfl⟩
      exact hReach
  | lose =>
      rw [← Option.some.inj hStep]
      exact hReach
  | deliver =>
      rw [step] at hStep
      split at hStep
      · rw [← Option.some.inj hStep]
        exact hReach
      · cases hStep
  | main e =>
      rcases Option.map_eq_some_iff.mp hStep with
        ⟨monitor, hMonitor, rfl⟩
      have hNext :
          Monitor.step cfg c.monitor (.main e) =
            some monitor :=
        hMonitor
      exact .next hReach hNext
  | watcher =>
      rcases Option.map_eq_some_iff.mp hStep with
        ⟨monitor, hMonitor, rfl⟩
      have hNext :
          Monitor.step cfg c.monitor
              (.watcher c.isCancelled) = some monitor :=
        hMonitor
      exact .next hReach hNext

end OpenCall

/- The task runs, and Ctrl+C was pressed. -/
def interruptedCall : OpenCall :=
  { scope :=
      { pc := .body
        watcher := .checkStop
        requested := true
        stop := false
        handler := true
        caught := 1
        passed := 0
        cancels := 0 }
    lost := false
    isCancelled := false
    monitor :=
      { Monitor.init with
        chunks := [Monitor.startNotice]
        watcher := .checkStop
        pc := .top } }

theorem interruptedCall_reached :
    Reaches (OpenCall.step MonitorConfig.pipe) (.start false)
      interruptedCall := by
  have hMonitor :
      (OpenCall.start false).step MonitorConfig.pipe
          (.main (.clock 0)) =
        some
          { OpenCall.start false with
            monitor := interruptedCall.monitor } := by
    change
      (Monitor.main MonitorConfig.pipe .init (.clock 0)).map _ = _
    rw [Monitor.main_init]
    rfl
  exact
    reaches_runLabels
      [.client .main, .client .main, .client .main,
        .client .interrupt] (.next .start hMonitor) rfl

end Drex

------------------------------------------------------------
-- Only After An Interrupt
------------------------------------------------------------

namespace Drex

open Drex.Core

/- The monitor acts on a context that answered yes. -/
def Monitor.Heard (m : Monitor) : Prop :=
  m.cancelled = true ∨ m.watcher = .recheckStop ∨
    m.watcher = .record

/- The main thread hears nothing. -/
theorem heard_main
    {cfg : MonitorConfig}
    {m m' : Monitor}
    {e : MainEvent}
    (hStep : m.main cfg e = some m')
    (hHeard : m'.Heard) :
    m.Heard := by
  rcases Monitor.main_leavesWatcher hStep with hPc | hLeaves
  · cases Monitor.main_move hStep with
    | start now hPc =>
        rcases hHeard with hCancelled | hWatcher | hWatcher
        · exact Or.inl hCancelled
        · dsimp only at hWatcher
          split at hWatcher
          · cases hWatcher
          · cases hWatcher
        · dsimp only at hWatcher
          split at hWatcher
          · cases hWatcher
          · cases hWatcher
    | _ => simp_all
  · unfold Monitor.Heard at hHeard ⊢
    rw [hLeaves.cancelled, hLeaves.watcher] at hHeard
    exact hHeard

/- The watcher hears only what the context answers. -/
theorem heard_watch
    {m m' : Monitor}
    {isCancelled : Bool}
    (hStep : m.watch isCancelled = some m')
    (hHeard : m'.Heard) :
    m.Heard ∨ isCancelled = true := by
  cases Monitor.watch_move hStep with
  | notice hWatcher => exact Or.inr rfl
  | cancel _ hWatcher hStop =>
      exact Or.inl (Or.inr (Or.inl hWatcher))
  | record _ hWatcher =>
      exact Or.inl (Or.inr (Or.inr hWatcher))
  | ask | stop | sleep | giveUp | term | kill =>
      rcases hHeard with hCancelled | hWatcher | hWatcher
      · exact Or.inl (Or.inl hCancelled)
      · cases hWatcher
      · cases hWatcher

namespace OpenCall

/- What is heard on the server was said on the client. -/
structure Answered (c : OpenCall) : Prop where
  heard : c.monitor.Heard → c.isCancelled = true
  said :
    c.isCancelled = true → 0 < c.scope.cancels ∨ c.lost = true

variable {cfg : MonitorConfig} {c c' : OpenCall}

theorem answered_step
    {e : CallEvent}
    (h : c.Answered)
    (hStep : c.step cfg e = some c') :
    c'.Answered := by
  cases e with
  | client e =>
      rcases Option.map_eq_some_iff.mp hStep with
        ⟨scope, hScope, rfl⟩
      refine ⟨h.heard, ?_⟩
      intro hCancelled
      rcases h.said hCancelled with hSaid | hLost
      · exact
          Or.inl
            (Nat.lt_of_lt_of_le hSaid (CancelScope.cancels_mono hScope))
      · exact Or.inr hLost
  | lose =>
      rw [← Option.some.inj hStep]
      exact ⟨h.heard, fun _ => Or.inr rfl⟩
  | deliver =>
      rw [step] at hStep
      split at hStep
      · rename_i hSaid
        rw [← Option.some.inj hStep]
        exact ⟨fun _ => rfl, fun _ => hSaid⟩
      · cases hStep
  | main e =>
      rcases Option.map_eq_some_iff.mp hStep with
        ⟨monitor, hMonitor, rfl⟩
      exact
        ⟨fun hHeard => h.heard (heard_main hMonitor hHeard),
          h.said⟩
  | watcher =>
      rcases Option.map_eq_some_iff.mp hStep with
        ⟨monitor, hMonitor, rfl⟩
      refine ⟨?_, h.said⟩
      intro hHeard
      rcases heard_watch hMonitor hHeard with hHeard | hYes
      · exact h.heard hHeard
      · exact hYes

theorem answered_reaches
    {requested : Bool}
    (h : Reaches (step cfg) (start requested) c) :
    c.Answered := by
  refine h.invariant ?_ fun _ _ _ => answered_step
  constructor
  · rintro (hCancelled | hWatcher | hWatcher)
    · cases hCancelled
    · cases hWatcher
    · cases hWatcher
  · intro hCancelled
    cases hCancelled

/- The user pressed Ctrl+C, or the connection was lost. -/
def Abandoned (c : OpenCall) : Prop :=
  0 < c.scope.caught ∨ c.lost = true

/-
  What is done to the task in the name of the client is done
  for the client.
-/
structure Accountable (c : OpenCall) : Prop where
  once : c.scope.cancels ≤ 1
  asked : 0 < c.scope.cancels → 0 < c.scope.caught
  alive :
    c.scope.watcher = .cancel →
      c.scope.pc = .body ∨ c.scope.pc = .storeStop ∨
        c.scope.pc = .join
  signals :
    c.monitor.signals ≠ [] →
      c.monitor.exit = some .idleTimeout ∨ c.Abandoned
  status :
    ∀ status, c.monitor.pc = .returned status →
      status.code = .cancelled → c.Abandoned

end OpenCall

/-
  However the client, the connection and the two threads of
  the server interleave, the call is cancelled at most once
  and while it is open, and a task is signalled or reported
  as cancelled only if the user asked for it, it was idle, or
  the connection was lost.
-/
theorem cancelled_interrupted
    {cfg : MonitorConfig}
    {requested : Bool}
    {c : OpenCall}
    (h :
      Reaches (OpenCall.step cfg) (.start requested) c) :
    c.Accountable := by
  have hScope :=
    CancelScope.sound_reaches (OpenCall.scope_reaches h)
  have hBlamed :=
    Monitor.blamed_reaches (OpenCall.monitor_reaches h)
  have hAnswered := OpenCall.answered_reaches h
  have hAbandoned :
      c.monitor.cancelled = true → c.Abandoned := by
    intro hCancelled
    rcases hAnswered.said (hAnswered.heard (Or.inl hCancelled))
      with hSaid | hLost
    · exact Or.inl (hScope.cancels_le.2 hSaid)
    · exact Or.inr hLost
  refine
    { once := hScope.cancels_le.1
      asked := hScope.cancels_le.2
      alive := ?_
      signals := ?_
      status := ?_ }
  · intro hCancel
    have hStep :
        c.scope.watch =
          some
            { c.scope with
              cancels := c.scope.cancels + 1
              watcher := .finished } := by
      rw [CancelScope.watch, hCancel]
    exact hScope.open_of_watch hStep
  · intro hSent
    rcases hBlamed.signals hSent with hCancelled | hIdle
    · exact Or.inr (hAbandoned hCancelled)
    · exact Or.inl hIdle
  · intro status hPc hCode
    apply hAbandoned
    apply hBlamed.status status _ hCode
    rw [hPc]
    rfl

/- The call of an interrupted task that was signalled. -/
theorem cancelled_interrupted_signalled :
    ∃ c, Reaches (OpenCall.step .pipe) (.start false) c ∧
      c.monitor.signals = [.term, .kill] ∧
        c.Accountable := by
  have hReach :=
    reaches_runLabels
      ([.client .watch, .client .watch, .client .watch,
          .deliver] ++
        List.replicate 6 .watcher) interruptedCall_reached rfl
  exact ⟨_, hReach, rfl, cancelled_interrupted hReach⟩

end Drex

------------------------------------------------------------
-- From An Interrupt To The Task
------------------------------------------------------------

namespace Drex

open Drex.Core

namespace OpenCall

/- The steps of the client's watcher. -/
def clientWatches : OpenCall → CallEvent → Bool
| _, .client .watch => true
| _, _ => false

/- The steps of the server's watcher. -/
def serverWatches : OpenCall → CallEvent → Bool
| _, .watcher => true
| _, _ => false

variable {cfg : MonitorConfig} {c c' : OpenCall}

/- Only its watcher uses up what the client has left. -/
theorem client_step
    {e : CallEvent}
    (h : c.scope.Flagged)
    (hStep : c.step cfg e = some c') :
    c'.scope.Flagged ∧
      (clientWatches c e).toNat + c'.scope.watcher.left ≤
        c.scope.watcher.left := by
  cases e with
  | client e =>
      rcases Option.map_eq_some_iff.mp hStep with
        ⟨scope, hScope, rfl⟩
      rcases h.step hScope with ⟨hFlagged, hLeft⟩
      refine ⟨hFlagged, ?_⟩
      cases e with
      | main =>
          simpa [clientWatches, CancelScope.watches] using hLeft
      | watch => exact hLeft
      | interrupt =>
          simpa [clientWatches, CancelScope.watches] using hLeft
  | lose =>
      rw [← Option.some.inj hStep]
      exact ⟨h, by simp [clientWatches]⟩
  | deliver =>
      rw [step] at hStep
      split at hStep
      · rw [← Option.some.inj hStep]
        exact ⟨h, by simp [clientWatches]⟩
      · cases hStep
  | main e =>
      rcases Option.map_eq_some_iff.mp hStep with
        ⟨monitor, hMonitor, rfl⟩
      exact ⟨h, by simp [clientWatches]⟩
  | watcher =>
      rcases Option.map_eq_some_iff.mp hStep with
        ⟨monitor, hMonitor, rfl⟩
      exact ⟨h, by simp [clientWatches]⟩

/- A cancelled call brings the server's watcher to its end. -/
theorem server_step
    {e : CallEvent}
    (h : c.isCancelled = true ∧ c.monitor.Watching)
    (hStep : c.step cfg e = some c') :
    (c'.isCancelled = true ∧ c'.monitor.Watching) ∧
      (serverWatches c e).toNat + c'.monitor.watcher.left ≤
        c.monitor.watcher.left := by
  cases e with
  | client e =>
      rcases Option.map_eq_some_iff.mp hStep with
        ⟨scope, hScope, rfl⟩
      exact ⟨h, by simp [serverWatches]⟩
  | lose =>
      rw [← Option.some.inj hStep]
      exact ⟨h, by simp [serverWatches]⟩
  | deliver =>
      rw [step] at hStep
      split at hStep
      · rw [← Option.some.inj hStep]
        exact ⟨⟨rfl, h.2⟩, by simp [serverWatches]⟩
      · cases hStep
  | main e =>
      rcases Option.map_eq_some_iff.mp hStep with
        ⟨monitor, hMonitor, rfl⟩
      rcases Monitor.watching_main h.2 hMonitor with
        ⟨hWatching, hLeft⟩
      exact
        ⟨⟨h.1, hWatching⟩,
          by simpa [serverWatches] using hLeft⟩
  | watcher =>
      rcases Option.map_eq_some_iff.mp hStep with
        ⟨monitor, hMonitor, rfl⟩
      rcases Monitor.watching_watch h.2 hMonitor with
        ⟨hWatching, hLeft⟩
      exact ⟨⟨h.1, hWatching⟩, hLeft h.1⟩

end OpenCall

theorem ScopeWatcher.left_le (w : ScopeWatcher) :
    w.left ≤ 3 := by
  cases w <;> simp [ScopeWatcher.left]

theorem WatcherPc.left_le (w : WatcherPc) :
    w.left ≤ 6 := by
  cases w <;> simp [WatcherPc.left]

/-
  Once an interrupt was caught, three steps of the client's
  watcher before the scope ends cancel the call; and once
  that has arrived, six steps of the server's watcher before
  the monitor ends signal the group of the task.
-/
theorem interrupt_reaches_task
    {cfg : MonitorConfig}
    {requested : Bool}
    {c c₁ : OpenCall}
    (h :
      Reaches (OpenCall.step cfg) (.start requested) c)
    (hLater : c.scope.pc ≠ .reset)
    (hRequested : c.scope.requested = true)
    {before : List CallEvent}
    (hRun :
      runLabels (OpenCall.step cfg) before c = some c₁)
    (hOpen : c₁.scope.stop = false)
    (hWatched :
      3 ≤
        tally (OpenCall.step cfg) OpenCall.clientWatches
          before c) :
    ∃ c₂,
      c₁.step cfg .deliver = some c₂ ∧
        ∀ after c₃,
          runLabels (OpenCall.step cfg) after c₂ =
              some c₃ →
            c₃.monitor.stopCancelThread = false →
              6 ≤
                  tally (OpenCall.step cfg)
                    OpenCall.serverWatches after c₂ →
                c₃.monitor.Terminated := by
  have hFlagged : c.scope.Flagged :=
    ⟨CancelScope.sound_reaches (OpenCall.scope_reaches h),
      hLater, hRequested⟩
  have hClient :=
    @tally_countdown _ _ (OpenCall.step cfg)
      (fun c => c.scope.Flagged) OpenCall.clientWatches
      (fun c => c.scope.watcher.left)
      (fun _ _ _ hFlagged hStep =>
        OpenCall.client_step hFlagged hStep)
      before c c₁ hFlagged hRun
  have hCancels : c₁.scope.cancels = 1 := by
    apply hClient.1.cancels _ hOpen
    have hLeft := c.scope.watcher.left_le
    have hUsed := hClient.2
    omega
  refine ⟨{ c₁ with isCancelled := true }, ?_, ?_⟩
  · rw [OpenCall.step, if_pos (Or.inl (by omega))]
  · intro after c₃ hAfter hStop hServed
    have hReach :=
      OpenCall.monitor_reaches (reaches_runLabels before h hRun)
    have hServer :=
      @tally_countdown _ _ (OpenCall.step cfg)
        (fun c => c.isCancelled = true ∧ c.monitor.Watching)
        OpenCall.serverWatches
        (fun c => c.monitor.watcher.left)
        (fun _ _ _ hWatching hStep =>
          OpenCall.server_step hWatching hStep)
        after { c₁ with isCancelled := true } c₃
        ⟨rfl, Monitor.watching_reaches hReach⟩ hAfter
    apply hServer.1.2.terminated _ hStop
    have hLeft := c₁.monitor.watcher.left_le
    have hUsed := hServer.2
    dsimp only at hUsed
    omega

/- The call that the client's watcher has cancelled. -/
def cancelledCall : OpenCall :=
  { interruptedCall with
    scope :=
      { interruptedCall.scope with
        watcher := .finished
        cancels := 1 } }

theorem interrupt_reaches_task_running :
    ∃ c₂,
      cancelledCall.step MonitorConfig.pipe .deliver = some c₂ ∧
        ∃ after c₃,
          runLabels (OpenCall.step MonitorConfig.pipe) after c₂ =
              some c₃ ∧
            c₃.monitor.Terminated := by
  rcases
      @interrupt_reaches_task MonitorConfig.pipe false
        interruptedCall cancelledCall interruptedCall_reached
        (by decide) rfl
        [.client .watch, .client .watch, .client .watch] rfl
        rfl (by decide) with
    ⟨c₂, hDeliver, hServer⟩
  have hEq := Option.some.inj hDeliver
  subst hEq
  exact
    ⟨_, rfl, List.replicate 6 .watcher, _, rfl,
      hServer (List.replicate 6 .watcher) _ rfl rfl
        (by decide)⟩

end Drex
