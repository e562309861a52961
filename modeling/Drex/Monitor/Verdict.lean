import Drex.Monitor.Machine

/-
  What the returned status of `MonitorChildProcess` says
  about the way the task ended.

  Key definitions include:
    * `Monitor.Phase`
    * `MonitorOutcome.Clean`

  Key theorems include:
    * `Monitor.phase_step`
    * `Monitor.phase_reaches`
    * `Monitor.isOk_iff_clean`
-/

------------------------------------------------------------
-- Phases
------------------------------------------------------------

namespace Drex

namespace Monitor

/- The child is reaped once, when its exit was seen. -/
def Reaped (m : Monitor) : Prop :=
  m.reaps = if m.childExited then [m.waitStatus] else []

/-
  A returned status: the verdict on the one wait status, or
  a failure.
-/
def Final (m : Monitor) (status : Status) : Prop :=
  m.joinable = true ∧
    ((m.exit = some .loopEnded ∧
        ((∃ waitStatus, m.reaps = [waitStatus] ∧
            status =
              verdict m.cancelled m.combinedOutput
                waitStatus) ∨
          (m.reaps = [] ∧ status.isOk = false))) ∨
      (m.exit ≠ some .loopEnded ∧ status.isOk = false))

/- What is known at each position of the main thread. -/
def Phase (m : Monitor) : Prop :=
  match m.pc with
  | .start => m.exit = none ∧ m.Reaped
  | .top => m.exit = none ∧ m.Reaped
  | .polling => m.exit = none ∧ m.Reaped
  | .quiet => m.exit = none ∧ m.Reaped
  | .reading => m.exit = none ∧ m.Reaped
  | .failClose status =>
      m.exit ≠ some .loopEnded ∧ status.isOk = false
  | .failStop status =>
      m.exit ≠ some .loopEnded ∧ status.isOk = false
  | .failJoin status =>
      m.exit ≠ some .loopEnded ∧ status.isOk = false
  | .idleTerm => m.exit = some .idleTimeout
  | .idleKill => m.exit = some .idleTimeout
  | .idleStop => m.exit = some .idleTimeout
  | .idleJoin => m.exit = some .idleTimeout
  | .idleReap =>
      m.exit = some .idleTimeout ∧ m.joinable = true
  | .closing => m.exit = some .loopEnded ∧ m.Reaped
  | .stopping => m.exit = some .loopEnded ∧ m.Reaped
  | .joining => m.exit = some .loopEnded ∧ m.Reaped
  | .reaping =>
      m.exit = some .loopEnded ∧ m.reaps = [] ∧
        m.joinable = true
  | .returned status => m.Final status

theorem phase_init : init.Phase := by
  exact ⟨rfl, rfl⟩

/- Writing a chunk does not matter to the phase. -/
@[simp] theorem emit_fields
    (m : Monitor)
    (chunk : Str) :
    (m.emit chunk).exit = m.exit ∧
      (m.emit chunk).reaps = m.reaps ∧
        (m.emit chunk).childExited = m.childExited ∧
          (m.emit chunk).waitStatus = m.waitStatus ∧
            (m.emit chunk).pc = m.pc := by
  unfold emit
  split <;> exact ⟨rfl, rfl, rfl, rfl, rfl⟩

end Monitor

end Drex

------------------------------------------------------------
-- Steps
------------------------------------------------------------

namespace Drex

namespace Monitor

variable {cfg : MonitorConfig} {m m' : Monitor}

/- The loop's `waitpid` reaps the child at most once. -/
theorem phase_mainWait
    {result : WaitResult}
    {now : Nat}
    (hPc : m.pc = .top)
    (h : m.Phase)
    (hRunning : m.childExited = false) :
    (m.mainWait result now).Phase := by
  unfold Phase at h
  rw [hPc] at h
  rcases h with ⟨hExit, hReaped⟩
  unfold Reaped at hReaped
  rw [hRunning] at hReaped
  cases result with
  | pending => simp [mainWait, Phase, Reaped, hExit, hReaped,
      hRunning]
  | failed => simp [mainWait, Phase, Reaped, hExit, hReaped,
      hRunning]
  | reaped status =>
      simp [mainWait, Phase, Reaped, hExit, hReaped]

theorem phase_mainPoll
    {result : PollResult}
    (hExit : m.exit = none)
    (hReaped : m.Reaped) :
    (m.mainPoll result).Phase := by
  cases result with
  | interrupted => exact ⟨hExit, hReaped⟩
  | failed errno => exact ⟨by simp [mainPoll], rfl⟩
  | timeout => exact ⟨hExit, hReaped⟩
  | ready readable =>
      cases readable with
      | true => exact ⟨hExit, hReaped⟩
      | false => exact ⟨hExit, hReaped⟩

theorem phase_mainQuiet
    {now : Nat}
    (hExit : m.exit = none)
    (hReaped : m.Reaped) :
    (m.mainQuiet cfg now).Phase := by
  unfold mainQuiet
  split
  · split
    · exact ⟨rfl, hReaped⟩
    · exact ⟨hExit, hReaped⟩
  · simp only []
    split
    · exact rfl
    · exact ⟨hExit, hReaped⟩

theorem phase_mainRead
    {result : ReadResult}
    {now : Nat}
    (hPc : m.pc = .reading)
    (hExit : m.exit = none)
    (hReaped : m.Reaped) :
    (m.mainRead cfg result now).Phase := by
  cases result with
  | data first rest =>
      unfold Reaped at hReaped
      simp [mainRead, Phase, Reaped, hPc, hExit, hReaped]
  | endOfStream => exact ⟨rfl, hReaped⟩
  | interrupted =>
      simp [mainRead, Phase, hPc, hExit, hReaped]
  | wouldBlock => exact ⟨hExit, hReaped⟩
  | failed errno eio =>
      unfold mainRead
      simp only []
      split
      · exact ⟨rfl, hReaped⟩
      · exact ⟨by simp, rfl⟩

theorem phase_mainReap
    {result : WaitResult}
    (hExit : m.exit = some .loopEnded)
    (hReaps : m.reaps = [])
    (hJoinable : m.joinable = true)
    (hStep : m.mainReap result = some m') :
    m'.Phase := by
  cases result with
  | pending => cases hStep
  | failed =>
      cases hStep
      exact ⟨hJoinable, Or.inl ⟨hExit, Or.inr ⟨hReaps, rfl⟩⟩⟩
  | reaped status =>
      cases hStep
      refine
        ⟨hJoinable,
          Or.inl ⟨hExit, Or.inl ⟨status, ?_, rfl⟩⟩⟩
      simp [hReaps]

theorem phase_idleReap
    {result : WaitResult}
    (hExit : m.exit = some .idleTimeout)
    (hJoinable : m.joinable = true)
    (hStep : m.idleReap result = some m') :
    m'.Phase := by
  have hNot : m.exit ≠ some .loopEnded := by
    rw [hExit]
    decide
  cases result with
  | pending => cases hStep
  | failed =>
      cases hStep
      exact ⟨hJoinable, Or.inr ⟨hNot, rfl⟩⟩
  | reaped status =>
      cases hStep
      exact ⟨hJoinable, Or.inr ⟨hNot, rfl⟩⟩

/- Every step of the main thread moves between phases. -/
theorem phase_main
    {e : MainEvent}
    (h : m.Phase)
    (hStep : m.main cfg e = some m') :
    m'.Phase := by
  have hPhase := h
  unfold Phase at hPhase
  cases hPc : m.pc <;> rw [hPc] at hPhase <;>
    cases e <;> simp [main, hPc] at hStep
  case start.clock now =>
      subst hStep
      rcases hPhase with ⟨hExit, hReaped⟩
      unfold Reaped at hReaped
      simp [Phase, Reaped, hExit, hReaped]
  case top.advance =>
      rcases hStep with ⟨hExited, rfl⟩
      exact hPhase
  case top.waited result now =>
      rcases hStep with ⟨hRunning, rfl⟩
      exact phase_mainWait hPc h hRunning
  case polling.polled result =>
      subst hStep
      exact phase_mainPoll hPhase.1 hPhase.2
  case quiet.clock now =>
      subst hStep
      exact phase_mainQuiet hPhase.1 hPhase.2
  case reading.readDone result now =>
      subst hStep
      exact phase_mainRead hPc hPhase.1 hPhase.2
  case failClose.advance status =>
      subst hStep
      exact hPhase
  case failStop.advance status =>
      subst hStep
      exact hPhase
  case failJoin.advance status =>
      rcases hStep with ⟨hJoinable, rfl⟩
      exact ⟨hJoinable, Or.inr hPhase⟩
  case idleTerm.advance =>
      subst hStep
      exact hPhase
  case idleKill.advance =>
      subst hStep
      exact hPhase
  case idleStop.advance =>
      subst hStep
      exact hPhase
  case idleJoin.advance =>
      rcases hStep with ⟨hJoinable, rfl⟩
      exact ⟨hPhase, hJoinable⟩
  case idleReap.waited result now =>
      exact phase_idleReap hPhase.1 hPhase.2 hStep
  case closing.advance =>
      subst hStep
      exact hPhase
  case stopping.advance =>
      subst hStep
      exact hPhase
  case joining.advance =>
      rcases hStep with ⟨hJoinable, hStep⟩
      rcases hPhase with ⟨hExit, hReaped⟩
      unfold Reaped at hReaped
      cases hExited : m.childExited
      case true =>
          simp only [hExited, if_true] at hStep hReaped
          cases hStep
          exact
            ⟨hJoinable,
              Or.inl ⟨hExit, Or.inl ⟨_, hReaped, rfl⟩⟩⟩
      case false =>
          simp [hExited] at hStep hReaped
          subst hStep
          exact ⟨hExit, hReaped, hJoinable⟩
  case reaping.waited result now =>
      exact
        phase_mainReap hPhase.1 hPhase.2.1 hPhase.2.2 hStep

/- The watcher does not move once the threads are joined. -/
theorem watch_joinable
    {isCancelled : Bool}
    (hJoinable : m.joinable = true) :
    m.watch isCancelled = none := by
  simp only [joinable, decide_eq_true_eq] at hJoinable
  rcases hJoinable with h | h <;> simp [watch, h]

/- The watcher leaves the main thread's part alone. -/
theorem watch_frame
    {isCancelled : Bool}
    (hStep : m.watch isCancelled = some m') :
    m'.pc = m.pc ∧ m'.exit = m.exit ∧
      m'.reaps = m.reaps ∧
        m'.childExited = m.childExited ∧
          m'.waitStatus = m.waitStatus := by
  cases hWatcher : m.watcher <;>
    simp [watch, hWatcher] at hStep <;>
      subst hStep <;> exact ⟨rfl, rfl, rfl, rfl, rfl⟩

/- A step of the watcher does not matter to the phase. -/
theorem phase_watch
    {isCancelled : Bool}
    (h : m.Phase)
    (hStep : m.watch isCancelled = some m') :
    m'.Phase := by
  have hOpen : m.joinable ≠ true := by
    intro hJoinable
    rw [watch_joinable hJoinable] at hStep
    cases hStep
  rcases watch_frame hStep with
    ⟨hPc, hExit, hReaps, hExited, hWait⟩
  unfold Phase at h ⊢
  rw [hPc]
  split <;> rename_i hAt <;> rw [hAt] at h <;>
    simp_all [Reaped, Final]

theorem phase_step
    {e : MonitorEvent}
    (h : m.Phase)
    (hStep : step cfg m e = some m') :
    m'.Phase := by
  cases e with
  | main event => exact phase_main h hStep
  | watcher isCancelled => exact phase_watch h hStep

/- The phase describes every state of every run. -/
theorem phase_reaches
    (h : Core.Reaches (step cfg) init m) :
    m.Phase :=
  h.invariant phase_init (fun _ _ _ => phase_step)

end Monitor

end Drex

------------------------------------------------------------
-- Verdicts
------------------------------------------------------------

namespace Drex

/-
  Monitoring ended by itself, with the child reaped, exit
  code 0 and no cancellation recorded.
-/
def MonitorOutcome.Clean (outcome : MonitorOutcome) : Prop :=
  outcome.exit = some .loopEnded ∧
    outcome.cancelled = false ∧
      ∃ status, outcome.reaps = [status] ∧
        wifexited status = true ∧ wexitstatus status = 0

namespace Monitor

/- A task that exits at once and has written nothing. -/
def quickEvents (cfg : MonitorConfig) : List MonitorEvent :=
  [.main (.clock 0), .main (.waited (.reaped 0) 0),
    .main (.polled (.ready true)),
    .main (.readDone .endOfStream 0), .main .advance,
    .main .advance] ++
  (if cfg.hasContext then [.watcher false] else []) ++
  [.main .advance]

/- The state in which it returns. -/
def quickEnd (watcher : WatcherPc) : Monitor :=
  { init with
    pc := .returned (verdict false [] 0)
    watcher := watcher
    stopCancelThread := true
    childExited := true
    chunks := [startNotice]
    closes := 1
    reaps := [0]
    exit := some .loopEnded }

theorem emit_of_ne
    (m : Monitor)
    {chunk : Str}
    (h : chunk ≠ []) :
    m.emit chunk = { m with chunks := m.chunks ++ [chunk] } :=
  if_neg h

theorem startNotice_ne : startNotice ≠ [] := by
  decide +kernel

/- The first step writes the notice. -/
theorem main_init (cfg : MonitorConfig) :
    main cfg init (.clock 0) =
      some
        { init with
          chunks := [startNotice]
          watcher :=
            if cfg.hasContext then .checkStop else .absent
          pc := .top } := by
  unfold main
  rw [emit_of_ne init startNotice_ne]
  rfl

theorem runLabels_quickEvents (cfg : MonitorConfig) :
    Core.runLabels (step cfg) (quickEvents cfg) init =
      some
        (quickEnd
          (if cfg.hasContext then .finished else .absent)) := by
  change
    (main cfg init (.clock 0)).bind
        (Core.runLabels (step cfg) (quickEvents cfg).tail) =
      _
  rw [main_init, Option.bind_some]
  rcases cfg with ⟨hasContext, usePty, idleTimeoutMs⟩
  cases hasContext <;> rfl

theorem returns_quickEnd (cfg : MonitorConfig) :
    Returns cfg
      ((quickEnd .absent).outcome Status.success) := by
  have hReach :=
    Core.reaches_runLabels _ .start
      (runLabels_quickEvents cfg)
  exact ⟨_, Status.success, hReach, rfl, rfl⟩

/- The verdict on a wait status is OK for a clean exit. -/
theorem isOk_verdict_iff
    (cancelled : Bool)
    (output : Str)
    (status : Nat) :
    (verdict cancelled output status).isOk = true ↔
      cancelled = false ∧ wifexited status = true ∧
        wexitstatus status = 0 := by
  unfold verdict
  cases cancelled with
  | true => simp [Status.isOk, Status.cancelled]
  | false =>
      by_cases hExited : wifexited status = true
      · by_cases hCode : wexitstatus status = 0
        · simp [hExited, hCode, Status.isOk, Status.success]
        · simp [hExited, hCode, Status.isOk]
      · by_cases hSignaled : wifsignaled status = true
        · simp [hExited, hSignaled, Status.isOk]
        · simp [hExited, hSignaled, Status.isOk,
            Status.internal]

/- Monitoring succeeds exactly when the task ended cleanly. -/
theorem isOk_iff_clean
    {outcome : MonitorOutcome}
    (h : Returns cfg outcome) :
    outcome.status.isOk = true ↔ outcome.Clean := by
  rcases h with ⟨m, status, hReach, hPc, rfl⟩
  have hPhase := phase_reaches hReach
  unfold Phase at hPhase
  rw [hPc] at hPhase
  rcases hPhase with
    ⟨hJoinable, ⟨hExit, hVerdict⟩ | ⟨hExit, hFailed⟩⟩
  · rcases hVerdict with
      ⟨waitStatus, hReaps, rfl⟩ | ⟨hReaps, hFailed⟩
    · simp [MonitorOutcome.Clean, outcome, hExit, hReaps,
        isOk_verdict_iff]
    · simp [MonitorOutcome.Clean, outcome, hReaps, hFailed]
  · simp [MonitorOutcome.Clean, outcome, hExit, hFailed]

end Monitor

end Drex
