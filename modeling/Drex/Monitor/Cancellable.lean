import Drex.Monitor.Signals

/-
  Whether a running task can still be stopped.

  The main thread stops and joins the watcher when the output
  ends, and then waits for the child without a timeout: a
  task that closes its output and runs on cannot be cancelled
  any more.

  Key definitions include:
    * `Supervised.Stuck`
    * `Supervised.outputOutlasts`
    * `Supervised.Stoppable`

  Key theorems include:
    * `Supervised.stoppable_step`
    * `Supervised.stuck_of_not_outlasts`
    * `Supervised.running_task_cancellable`
-/

------------------------------------------------------------
-- Stuck Calls
------------------------------------------------------------

namespace Drex

namespace Monitor

/-
  The call waits for the child: it is in the loop, or on its
  way to the last `waitpid`.
-/
def awaitsChild (m : Monitor) : Bool :=
  match m.pc with
  | .start => false
  | .failClose _ => false
  | .failStop _ => false
  | .failJoin _ => false
  | .returned _ => false
  | _ => true

/- The main thread is in its loop. -/
def inLoop (m : Monitor) : Bool :=
  match m.pc with
  | .top => true
  | .polling => true
  | .quiet => true
  | .reading => true
  | _ => false

end Monitor

namespace Supervised

/- A configured idle timeout can still fire. -/
def idleArmed (cfg : MonitorConfig) (s : Supervised) : Bool :=
  decide (0 ≤ cfg.idleTimeoutMs) && s.monitor.inLoop

/-
  The child runs, the call waits for it, nothing was
  signalled, and neither the watcher nor the idle timeout
  will signal.
-/
structure Stuck
    (cfg : MonitorConfig)
    (s : Supervised) : Prop where
  running : s.life = .running
  waiting : s.monitor.awaitsChild = true
  unsignalled : s.monitor.signals = []
  unwatched : s.monitor.joinable = true
  unarmed : s.idleArmed cfg = false

/-
  The end of the output is read only when the child has
  exited, or a signal was sent or is about to be.
-/
def outputOutlasts
    (cfg : MonitorConfig)
    (s : Supervised) :
    TaskEvent → Bool
| .monitor (.main (.readDone result _)) =>
    !result.ends cfg || decide (s.life ≠ .running) ||
      decide (s.monitor.signals ≠ []) ||
        s.monitor.signalling
| _ => true

end Supervised

end Drex

------------------------------------------------------------
-- Runs Of A Task That Keeps Its Output
------------------------------------------------------------

namespace Drex

namespace Supervised

variable {cfg : MonitorConfig} {s s' : Supervised}

/- The task has ended, or is being signalled. -/
def Ending (s : Supervised) : Prop :=
  s.life ≠ .running ∨ s.monitor.signals ≠ [] ∨
    s.monitor.signalling = true

/- The watcher runs until it has sent its signals. -/
structure Watched (s : Supervised) : Prop where
  untold : s.monitor.stopCancelThread = false
  present : s.monitor.watcher ≠ .absent
  finished :
    s.monitor.watcher = .finished → s.monitor.signals ≠ []

/- What keeps the task stoppable at each position. -/
def Stoppable (s : Supervised) : Prop :=
  match s.monitor.pc with
  | .start => s.monitor.stopCancelThread = false
  | .top => s.Watched
  | .polling => s.Watched
  | .quiet => s.Watched
  | .reading => s.Watched
  | .idleTerm => s.Watched
  | .failClose _ => True
  | .failStop _ => True
  | .failJoin _ => True
  | .returned _ => True
  | _ => s.Ending

/- The child does not come back to life. -/
theorem running_settle
    {event : MonitorEvent}
    (h : (s.settle event).life = .running) :
    s.life = .running := by
  unfold settle at h
  split at h
  · cases h
  · exact h
  · exact h

/- The main thread's steps. -/
theorem ending_main
    {e : MainEvent}
    {m : Monitor}
    (strays : Nat)
    (hSteady : s.Steady)
    (hStep : s.monitor.main cfg e = some m)
    (h : s.Ending) :
    Ending
      { s.settle (.main e) with
        monitor := m
        strays := strays } := by
  have hSignals : s.monitor.signals ≠ [] → m.signals ≠ [] := by
    cases Monitor.main_move hStep <;> simp_all
  rcases h with hEnded | hSent | hOwed
  · exact Or.inl (fun hRuns => hEnded (running_settle hRuns))
  · exact Or.inr (Or.inl (hSignals hSent))
  · right
    right
    exact (signalling_main hSteady hStep).trans hOwed

/- The watcher's steps. -/
theorem ending_watch
    {isCancelled : Bool}
    {m : Monitor}
    (strays : Nat)
    (hStep : s.monitor.watch isCancelled = some m)
    (h : s.Ending) :
    Ending { s with monitor := m, strays := strays } := by
  rcases h with hEnded | hSent | hOwed
  · exact Or.inl hEnded
  · right
    left
    cases Monitor.watch_move hStep <;> simp_all
  · right
    unfold Monitor.signalling at hOwed
    cases Monitor.watch_move hStep <;>
      simp_all [Monitor.signalling]

/- The task's own steps do not revive the child. -/
theorem running_task
    {event : TaskEvent}
    (hTask : ∀ e, event ≠ .monitor e)
    (hStep : step cfg s event = some s')
    (h : s'.life = .running) :
    s.life = .running := by
  cases task_move hTask hStep with
  | exit status hRuns => exact hRuns
  | _ => exact h

/- They leave the monitor where it is. -/
theorem stoppable_task
    {event : TaskEvent}
    (h : s.Stoppable)
    (hTask : ∀ e, event ≠ .monitor e)
    (hStep : step cfg s event = some s') :
    s'.Stoppable := by
  have hMonitor := step_task hTask hStep
  have hEnding : s.Ending → s'.Ending := by
    rintro (hEnded | hSent)
    · exact
        Or.inl
          (fun hRuns => hEnded (running_task hTask hStep hRuns))
    · right
      rw [hMonitor]
      exact hSent
  have hWatched : s.Watched → s'.Watched := by
    rintro ⟨hUntold, hPresent, hFinished⟩
    rw [← hMonitor] at hUntold hPresent hFinished
    exact ⟨hUntold, hPresent, hFinished⟩
  unfold Stoppable at h ⊢
  rw [hMonitor]
  split <;> simp_all

/- The end of the output under the condition. -/
theorem ending_of_outlasts
    {result : ReadResult}
    {now : Nat}
    (hOutlasts :
      s.outputOutlasts cfg
        (.monitor (.main (.readDone result now))) = true)
    (hEnds : result.ends cfg = true) :
    s.Ending := by
  simp only [outputOutlasts, hEnds, Bool.not_true,
    Bool.false_or, Bool.or_eq_true,
    decide_eq_true_eq] at hOutlasts
  rcases hOutlasts with (hEnded | hSent) | hOwed
  · exact Or.inl hEnded
  · exact Or.inr (Or.inl hSent)
  · exact Or.inr (Or.inr hOwed)

/- The main thread's steps. -/
theorem stoppable_main
    {e : MainEvent}
    {m : Monitor}
    {strays : Nat}
    (hContext : cfg.hasContext = true)
    (h : s.Stoppable)
    (hSteady : s.Steady)
    (hOutlasts :
      s.outputOutlasts cfg (.monitor (.main e)) = true)
    (hStep : s.monitor.main cfg e = some m) :
    Stoppable
      { s.settle (.main e) with
        monitor := m
        strays := strays } := by
  have hEnding := ending_main strays hSteady hStep
  have hPhase := hSteady.phase
  unfold Stoppable at h
  unfold Monitor.Phase at hPhase
  cases Monitor.main_move hStep with
  | start now hPc =>
      rw [hPc] at h
      exact
        { untold := h
          present := by simp [hContext]
          finished := by simp [hContext] }
  | drain now hPc hDrained =>
      rw [hPc] at hPhase
      simp only [Monitor.drained, Bool.and_eq_true]
        at hDrained
      have hReaped :=
        hSteady.reaped_of_childExited hPhase.2 hDrained.1
      refine hEnding (Or.inl ?_)
      intro hRuns
      rw [hRuns] at hReaped
      cases hReaped
  | endOfStream now hPc =>
      exact hEnding (ending_of_outlasts hOutlasts rfl)
  | hangup errno eio now hPc hEnds =>
      exact hEnding (ending_of_outlasts hOutlasts hEnds)
  | idleTerm hPc =>
      exact Or.inr (Or.inl (by simp))
  | idle now hPc hIdle =>
      rw [hPc] at h
      exact ⟨h.untold, h.present, h.finished⟩
  | data first rest now hPc =>
      rw [hPc] at h
      unfold Stoppable
      simp only [hPc]
      exact ⟨h.untold, h.present, h.finished⟩
  | readAgain now hPc =>
      rw [hPc] at h
      unfold Stoppable
      simp only [hPc]
      exact ⟨h.untold, h.present, h.finished⟩
  | _ =>
      rw [‹s.monitor.pc = _›] at h
      first
      | exact ⟨h.untold, h.present, h.finished⟩
      | exact hEnding h
      | trivial

/- The watcher's steps. -/
theorem stoppable_watch
    {isCancelled : Bool}
    {m : Monitor}
    {strays : Nat}
    (h : s.Stoppable)
    (hStep : s.monitor.watch isCancelled = some m) :
    Stoppable { s with monitor := m, strays := strays } := by
  have hEnding := ending_watch strays hStep
  have hWatched : s.Watched → Watched
      { s with monitor := m, strays := strays } := by
    rintro ⟨hUntold, hPresent, hFinished⟩
    cases Monitor.watch_move hStep <;> constructor <;>
      simp_all
  have hPc : m.pc = s.monitor.pc ∧
      m.stopCancelThread = s.monitor.stopCancelThread := by
    rcases Monitor.watch_fields hStep with
      ⟨watcher, cancelled, signals, rfl⟩
    exact ⟨rfl, rfl⟩
  unfold Stoppable at h ⊢
  simp only [hPc.1, hPc.2]
  split <;> rename_i hAt <;> simp only [hAt] at h
  all_goals
    first
    | exact h
    | exact hWatched h
    | exact hEnding h

theorem stoppable_step
    {event : TaskEvent}
    (hContext : cfg.hasContext = true)
    (h : s.Stoppable ∧ s.Steady)
    (hStep :
      Core.guarded (outputOutlasts cfg) (step cfg) s event =
        some s') :
    s'.Stoppable ∧ s'.Steady := by
  rcases Core.guarded_eq_some_iff.mp hStep with
    ⟨hOutlasts, hNext⟩
  refine ⟨?_, steady_step h.2 hNext⟩
  cases event with
  | monitor e =>
      rcases step_monitor hNext with ⟨_, m, hMonitor, rfl⟩
      cases e with
      | main e =>
          exact
            stoppable_main hContext h.1 h.2 hOutlasts hMonitor
      | watcher isCancelled =>
          exact stoppable_watch h.1 hMonitor
  | _ => exact stoppable_task h.1 (by simp) hNext

theorem stoppable_reaches
    (hContext : cfg.hasContext = true)
    (h :
      Core.Reaches
        (Core.guarded (outputOutlasts cfg) (step cfg)) init
        s) :
    s.Stoppable ∧ s.Steady :=
  h.invariant (I := fun s => s.Stoppable ∧ s.Steady)
    ⟨rfl, steady_init⟩
    (fun _ _ _ => stoppable_step hContext)

/- A stoppable task is not stuck. -/
theorem Stoppable.not_stuck
    (h : s.Stoppable) :
    ¬ s.Stuck cfg := by
  intro hStuck
  have hJoined := of_decide_eq_true hStuck.unwatched
  have hEnding : ¬ s.Ending := by
    rintro (hEnded | hSent | hOwed)
    · exact hEnded hStuck.running
    · exact hSent hStuck.unsignalled
    · unfold Monitor.signalling at hOwed
      rcases hJoined with hWatcher | hWatcher
      · simp [hWatcher] at hOwed
      · simp [hWatcher] at hOwed
  have hWatched : ¬ s.Watched := by
    rintro ⟨_, hPresent, hFinished⟩
    rcases hJoined with hWatcher | hWatcher
    · exact hPresent hWatcher
    · exact hFinished hWatcher hStuck.unsignalled
  have hWaiting := hStuck.waiting
  unfold Monitor.awaitsChild at hWaiting
  unfold Stoppable at h
  cases hPc : s.monitor.pc <;> simp_all

end Supervised

end Drex

------------------------------------------------------------
-- Runs Of A Task That Closes Its Output
------------------------------------------------------------

namespace Drex

namespace Supervised

variable {cfg : MonitorConfig} {s s' : Supervised}

/- Only the watcher is different. -/
def withWatcher
    (s : Supervised)
    (watcher : WatcherPc) :
    Supervised :=
  { s with monitor := { s.monitor with watcher := watcher } }

/- A step of the watcher that sends nothing. -/
theorem step_withWatcher
    {isCancelled : Bool}
    {watcher : WatcherPc}
    (hWatch :
      s.monitor.watch isCancelled =
        some { s.monitor with watcher := watcher })
    (hSilent :
      s.monitor.signalsGroup (.watcher isCancelled) =
        false) :
    step cfg s (.monitor (.watcher isCancelled)) =
      some (s.withWatcher watcher) := by
  simp [step, stepMonitor, answers, settle, Monitor.step,
    hWatch, hSilent, withWatcher]

/- A watcher that is told to stop at its check does so. -/
theorem checkStop_stops
    (hTold : s.monitor.stopCancelThread = true)
    (hWatcher :
      s.monitor.watcher = .checkStop ∨
        s.monitor.watcher = .recheckStop) :
    step cfg s (.monitor (.watcher false)) =
      some (s.withWatcher .finished) := by
  rcases hWatcher with hCheck | hRecheck
  · apply step_withWatcher
    · simp [Monitor.watch, hCheck, hTold]
    · simp [Monitor.signalsGroup, hCheck]
  · apply step_withWatcher
    · simp [Monitor.watch, hRecheck, hTold]
    · simp [Monitor.signalsGroup, hRecheck]

/- A watcher that is told to stop can do so without signals. -/
theorem watcher_stops
    (hTold : s.monitor.stopCancelThread = true)
    (hOwes : s.monitor.signalling = false) :
    ∃ watcher,
      Core.Reaches (step cfg) s (s.withWatcher watcher) ∧
        (s.withWatcher watcher).monitor.joinable = true := by
  cases hWatcher : s.monitor.watcher with
  | absent =>
      refine ⟨.absent, ?_, rfl⟩
      rw [← hWatcher]
      exact .start
  | finished =>
      refine ⟨.finished, ?_, rfl⟩
      rw [← hWatcher]
      exact .start
  | checkStop =>
      have hStops :
          step cfg s (.monitor (.watcher false)) =
            some (s.withWatcher .finished) :=
        checkStop_stops hTold (Or.inl hWatcher)
      exact ⟨.finished, .next .start hStops, rfl⟩
  | recheckStop =>
      have hStops :
          step cfg s (.monitor (.watcher false)) =
            some (s.withWatcher .finished) :=
        checkStop_stops hTold (Or.inr hWatcher)
      exact ⟨.finished, .next .start hStops, rfl⟩
  | askCancelled =>
      have hSleeps :
          step cfg s (.monitor (.watcher false)) =
            some (s.withWatcher .checkStop) := by
        apply step_withWatcher
        · simp [Monitor.watch, hWatcher]
        · simp [Monitor.signalsGroup, hWatcher]
      have hStops :
          step cfg (s.withWatcher .checkStop)
              (.monitor (.watcher false)) =
            some (s.withWatcher .finished) :=
        checkStop_stops hTold (Or.inl rfl)
      exact
        ⟨.finished, .next (.next .start hSleeps) hStops, rfl⟩
  | record => simp [Monitor.signalling, hWatcher] at hOwes
  | sendTerm => simp [Monitor.signalling, hWatcher] at hOwes
  | sendKill => simp [Monitor.signalling, hWatcher] at hOwes

/-
  From the end of the output the main thread can go on to
  stop the watcher, and wait for a child that runs.
-/
theorem stuck_of_closing
    (hPc : s.monitor.pc = .closing)
    (hLife : s.life = .running)
    (hSignals : s.monitor.signals = [])
    (hOwes : s.monitor.signalling = false) :
    ∃ t, Core.Reaches (step cfg) s t ∧ t.Stuck cfg := by
  let closed : Supervised :=
    { s with
      monitor :=
        { s.monitor with
          closes := s.monitor.closes + 1
          pc := .stopping } }
  let told : Supervised :=
    { s with
      monitor :=
        { s.monitor with
          closes := s.monitor.closes + 1
          stopCancelThread := true
          pc := .joining } }
  have hClose :
      step cfg s (.monitor (.main .advance)) =
        some closed := by
    simp [step, stepMonitor, answers, settle, Monitor.step,
      Monitor.main, Monitor.signalsGroup, hPc, closed]
  have hTell :
      step cfg closed (.monitor (.main .advance)) =
        some told := by
    simp [step, stepMonitor, answers, settle, Monitor.step,
      Monitor.main, Monitor.signalsGroup, closed, told]
  have hWatcher :
      ∃ watcher,
        Core.Reaches (step cfg) told
            (told.withWatcher watcher) ∧
          (told.withWatcher watcher).monitor.joinable =
            true :=
    watcher_stops rfl hOwes
  rcases hWatcher with ⟨watcher, hStops, hJoinable⟩
  refine ⟨told.withWatcher watcher, ?_, ?_⟩
  · exact
      Core.Reaches.trans
        (.next (.next .start hClose) hTell) hStops
  · exact
      { running := hLife
        waiting := rfl
        unsignalled := hSignals
        unwatched := hJoinable
        unarmed := by simp [idleArmed, Monitor.inLoop,
          withWatcher, told] }

/- A step that the condition excludes can leave it stuck. -/
theorem stuck_of_not_outlasts
    {event : TaskEvent}
    (hOutlasts : s.outputOutlasts cfg event = false)
    (hStep : step cfg s event = some s') :
    ∃ t, Core.Reaches (step cfg) s' t ∧ t.Stuck cfg := by
  unfold outputOutlasts at hOutlasts
  split at hOutlasts
  · rename_i result now
    rcases step_monitor hStep with ⟨_, m, hMonitor, rfl⟩
    simp only [Bool.or_eq_false_iff, Bool.not_eq_false',
      decide_eq_false_iff_not, not_not] at hOutlasts
    rcases hOutlasts with ⟨⟨⟨hEnds, hLife⟩, hSignals⟩, hOwes⟩
    cases Monitor.main_move hMonitor with
    | endOfStream now hPc =>
        exact stuck_of_closing rfl hLife hSignals hOwes
    | hangup errno eio now hPc =>
        exact stuck_of_closing rfl hLife hSignals hOwes
    | data first rest now hPc => cases hEnds
    | readAgain now hPc => cases hEnds
    | dry now hPc => cases hEnds
    | readError errno eio now hPc hGoesOn =>
        rw [hGoesOn] at hEnds
        cases hEnds
  · cases hOutlasts

/-
  A task whose output lasts as long as it does is never out
  of reach, and any other end of the output can put it there.
-/
theorem running_task_cancellable
    (hContext : cfg.hasContext = true) :
    (∀ s,
      Core.Reaches
          (Core.guarded (outputOutlasts cfg) (step cfg)) init
          s →
        ¬ s.Stuck cfg) ∧
    (∀ s event s',
      s.outputOutlasts cfg event = false →
        step cfg s event = some s' →
          ∃ t, Core.Reaches (step cfg) s' t ∧
            t.Stuck cfg) := by
  constructor
  · intro s hReach
    exact (stoppable_reaches hContext hReach).1.not_stuck
  · intro s event s' hOutlasts hStep
    exact stuck_of_not_outlasts hOutlasts hStep

/- The task closes its output, and runs on. -/
def closingEvents : List TaskEvent :=
  [.monitor (.main (.clock 0)), .closeOutput,
    .monitor (.main (.waited .pending 0)),
    .monitor (.main (.polled (.ready true)))]

/- The monitor stops its watcher and waits. -/
def waitingEvents : List TaskEvent :=
  [.monitor (.main (.readDone .endOfStream 0)),
    .monitor (.main .advance), .monitor (.main .advance),
    .monitor (.watcher false), .monitor (.main .advance)]

/- It is in reach until the end of its output is read. -/
theorem cancellable_pipe :
    ∃ s,
      Core.Reaches
          (Core.guarded (outputOutlasts .pipe) (step .pipe))
          init s ∧
        s.outputOpen = false ∧ ¬ s.Stuck .pipe := by
  have hRun :
      (Core.runLabels
          (Core.guarded (outputOutlasts .pipe) (step .pipe))
          closingEvents init).any
        (fun s => !s.outputOpen) = true := by
    decide +kernel
  rcases Core.reaches_of_any hRun with ⟨s, hReach, hCheck⟩
  have hClosed : s.outputOpen = false := by
    simpa using hCheck
  have hPipe : MonitorConfig.pipe.hasContext = true := rfl
  exact
    ⟨s, hReach, hClosed,
      (running_task_cancellable hPipe).1 s hReach⟩

/- An idle timeout of a minute does not help. -/
theorem closed_output_uncancellable :
    ¬ ∀ (cfg : MonitorConfig) (s : Supervised),
      cfg.hasContext = true →
        Core.Reaches (step cfg) init s →
          ¬ s.Stuck cfg := by
  intro hNeverStuck
  let cfg : MonitorConfig :=
    { MonitorConfig.pipe with idleTimeoutMs := 60000 }
  have hRun :
      (Core.runLabels (step cfg)
          (closingEvents ++ waitingEvents) init).any
        (fun s =>
          decide (s.life = .running ∧ s.monitor.pc = .reaping ∧
            s.monitor.signals = []) && s.monitor.joinable) =
          true := by
    decide +kernel
  rcases Core.reaches_of_any hRun with ⟨s, hReach, hCheck⟩
  rw [Bool.and_eq_true, decide_eq_true_eq] at hCheck
  rcases hCheck with ⟨⟨hLife, hPc, hSignals⟩, hJoinable⟩
  refine hNeverStuck cfg s rfl hReach ?_
  exact
    { running := hLife
      waiting := by simp [Monitor.awaitsChild, hPc]
      unsignalled := hSignals
      unwatched := hJoinable
      unarmed := by simp [idleArmed, Monitor.inLoop, hPc] }

end Supervised

end Drex
