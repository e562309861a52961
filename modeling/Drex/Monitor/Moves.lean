import Drex.Monitor.Verdict

/-
  What one step of a monitor thread can do.

  `MainMove` and `WatchMove` list the steps of the two
  threads, one constructor for each action and result, and
  `watch_fields` says what the watcher leaves alone.

  Key definitions include:
    * `ReadResult.ends`
    * `Monitor.idles`
    * `Monitor.MainMove`
    * `Monitor.WatchMove`

  Key theorems include:
    * `Monitor.main_move`
    * `Monitor.watch_move`
    * `Monitor.watch_fields`
-/

------------------------------------------------------------
-- Conditions Of The Loop
------------------------------------------------------------

namespace Drex

/- `reached_end_of_stream`. -/
def ReadResult.ends (cfg : MonitorConfig) : ReadResult → Bool
| .endOfStream => true
| .failed _ eio => cfg.usePty && eio
| _ => false

namespace Monitor

/- The idle timeout fires when the clock reads `now`. -/
def idles
    (cfg : MonitorConfig)
    (m : Monitor)
    (now : Nat) :
    Bool :=
  !m.childExited &&
    decide
      (0 ≤ cfg.idleTimeoutMs ∧
        cfg.idleTimeoutMs ≤ elapsedInt now m.lastOutputTime)

/- The output of an exited child was drained for 50 ms. -/
def drained (m : Monitor) (now : Nat) : Bool :=
  m.childExited &&
    decide ((50 : Int) ≤ (now : Int) - m.childExitTime)

theorem idleNotice_ne (idleMs : Int) :
    idleNotice idleMs ≠ [] := by
  unfold idleNotice
  simp

end Monitor

end Drex

------------------------------------------------------------
-- Main Thread
------------------------------------------------------------

namespace Drex

namespace Monitor

/- The moves of the main thread. -/
inductive MainMove
    (cfg : MonitorConfig)
    (m : Monitor) :
    MainEvent → Monitor → Prop
| start
    (now : Nat)
    (hPc : m.pc = .start) :
    MainMove cfg m (.clock now)
      { m with
        chunks := m.chunks ++ [startNotice]
        lastOutputTime := now
        watcher :=
          if cfg.hasContext then .checkStop else .absent
        pc := .top }
| noticed
    (status now : Nat)
    (hPc : m.pc = .top)
    (hRunning : m.childExited = false) :
    MainMove cfg m (.waited (.reaped status) now)
      { m with
        pc := .polling
        childExited := true
        waitStatus := status
        childExitTime := now
        reaps := m.reaps ++ [status] }
| pending
    (now : Nat)
    (hPc : m.pc = .top)
    (hRunning : m.childExited = false) :
    MainMove cfg m (.waited .pending now)
      { m with pc := .polling }
| waitFailed
    (now : Nat)
    (hPc : m.pc = .top)
    (hRunning : m.childExited = false) :
    MainMove cfg m (.waited .failed now)
      { m with pc := .polling }
| known
    (hPc : m.pc = .top)
    (hExited : m.childExited = true) :
    MainMove cfg m .advance { m with pc := .polling }
| interrupted
    (hPc : m.pc = .polling) :
    MainMove cfg m (.polled .interrupted) { m with pc := .top }
| unreadable
    (hPc : m.pc = .polling) :
    MainMove cfg m (.polled (.ready false))
      { m with pc := .top }
| pollError
    (errno : Str)
    (hPc : m.pc = .polling) :
    MainMove cfg m (.polled (.failed errno))
      { m with
        exit := some .pollError
        pc :=
          .failClose
            (Status.systemError "poll() failed: " errno) }
| pollTimeout
    (hPc : m.pc = .polling) :
    MainMove cfg m (.polled .timeout) { m with pc := .quiet }
| pollReady
    (hPc : m.pc = .polling) :
    MainMove cfg m (.polled (.ready true))
      { m with pc := .reading }
| drain
    (now : Nat)
    (hPc : m.pc = .quiet)
    (hDrained : m.drained now = true) :
    MainMove cfg m (.clock now)
      { m with exit := some .loopEnded, pc := .closing }
| idle
    (now : Nat)
    (hPc : m.pc = .quiet)
    (hIdle : m.idles cfg now = true) :
    MainMove cfg m (.clock now)
      { m with
        chunks :=
          m.chunks ++
            [idleNotice (elapsedInt now m.lastOutputTime)]
        exit := some .idleTimeout
        pc := .idleTerm }
| wait
    (now : Nat)
    (hPc : m.pc = .quiet)
    (hDrained : m.drained now = false)
    (hIdle : m.idles cfg now = false) :
    MainMove cfg m (.clock now) { m with pc := .top }
| data
    (first : Char)
    (rest : Str)
    (now : Nat)
    (hPc : m.pc = .reading) :
    MainMove cfg m (.readDone (.data first rest) now)
      { m with
        chunks := m.chunks ++ [first :: rest]
        combinedOutput := m.combinedOutput ++ first :: rest
        lastOutputTime := now }
| endOfStream
    (now : Nat)
    (hPc : m.pc = .reading) :
    MainMove cfg m (.readDone .endOfStream now)
      { m with exit := some .loopEnded, pc := .closing }
| hangup
    (errno : Str)
    (eio : Bool)
    (now : Nat)
    (hPc : m.pc = .reading)
    (hEnds : (ReadResult.failed errno eio).ends cfg = true) :
    MainMove cfg m (.readDone (.failed errno eio) now)
      { m with exit := some .loopEnded, pc := .closing }
| readAgain
    (now : Nat)
    (hPc : m.pc = .reading) :
    MainMove cfg m (.readDone .interrupted now) m
| dry
    (now : Nat)
    (hPc : m.pc = .reading) :
    MainMove cfg m (.readDone .wouldBlock now)
      { m with pc := .top }
| readError
    (errno : Str)
    (eio : Bool)
    (now : Nat)
    (hPc : m.pc = .reading)
    (hEnds : (ReadResult.failed errno eio).ends cfg = false) :
    MainMove cfg m (.readDone (.failed errno eio) now)
      { m with
        exit := some .readError
        pc :=
          .failClose
            (Status.systemError
              "Failed to read task output: " errno) }
| failClose
    (status : Status)
    (hPc : m.pc = .failClose status) :
    MainMove cfg m .advance
      { m with
        closes := m.closes + 1
        pc := .failStop status }
| failStop
    (status : Status)
    (hPc : m.pc = .failStop status) :
    MainMove cfg m .advance
      { m with
        stopCancelThread := true
        pc := .failJoin status }
| failJoin
    (status : Status)
    (hPc : m.pc = .failJoin status)
    (hJoinable : m.joinable = true) :
    MainMove cfg m .advance { m with pc := .returned status }
| idleTerm
    (hPc : m.pc = .idleTerm) :
    MainMove cfg m .advance
      { m with
        signals := m.signals ++ [.term]
        pc := .idleKill }
| idleKill
    (hPc : m.pc = .idleKill) :
    MainMove cfg m .advance
      { m with
        signals := m.signals ++ [.kill]
        pc := .idleStop }
| idleStop
    (hPc : m.pc = .idleStop) :
    MainMove cfg m .advance
      { m with stopCancelThread := true, pc := .idleJoin }
| idleJoin
    (hPc : m.pc = .idleJoin)
    (hJoinable : m.joinable = true) :
    MainMove cfg m .advance { m with pc := .idleReap }
| idleReaped
    (status now : Nat)
    (hPc : m.pc = .idleReap) :
    MainMove cfg m (.waited (.reaped status) now)
      { m with
        reaps := m.reaps ++ [status]
        pc := .returned idleTimeoutStatus }
| idleUnreaped
    (now : Nat)
    (hPc : m.pc = .idleReap) :
    MainMove cfg m (.waited .failed now)
      { m with pc := .returned idleTimeoutStatus }
| closing
    (hPc : m.pc = .closing) :
    MainMove cfg m .advance
      { m with closes := m.closes + 1, pc := .stopping }
| stopping
    (hPc : m.pc = .stopping) :
    MainMove cfg m .advance
      { m with stopCancelThread := true, pc := .joining }
| joinExited
    (hPc : m.pc = .joining)
    (hJoinable : m.joinable = true)
    (hExited : m.childExited = true) :
    MainMove cfg m .advance
      { m with
        pc :=
          .returned
            (verdict m.cancelled m.combinedOutput
              m.waitStatus) }
| joinRunning
    (hPc : m.pc = .joining)
    (hJoinable : m.joinable = true)
    (hRunning : m.childExited = false) :
    MainMove cfg m .advance { m with pc := .reaping }
| reaped
    (status now : Nat)
    (hPc : m.pc = .reaping) :
    MainMove cfg m (.waited (.reaped status) now)
      { m with
        waitStatus := status
        reaps := m.reaps ++ [status]
        pc :=
          .returned
            (verdict m.cancelled m.combinedOutput status) }
| unreaped
    (now : Nat)
    (hPc : m.pc = .reaping) :
    MainMove cfg m (.waited .failed now)
      { m with
        pc :=
          .returned
            (Status.internal
              "Failed to wait for task process!") }

variable {cfg : MonitorConfig} {m m' : Monitor}

/- The loop's `waitpid`. -/
theorem mainWait_move
    {result : WaitResult}
    {now : Nat}
    (hPc : m.pc = .top)
    (hRunning : m.childExited = false) :
    MainMove cfg m (.waited result now)
      (m.mainWait result now) := by
  cases result with
  | reaped status => exact .noticed status now hPc hRunning
  | pending => exact .pending now hPc hRunning
  | failed => exact .waitFailed now hPc hRunning

/- The result of `poll`. -/
theorem mainPoll_move
    {result : PollResult}
    (hPc : m.pc = .polling) :
    MainMove cfg m (.polled result) (m.mainPoll result) := by
  cases result with
  | interrupted => exact .interrupted hPc
  | failed errno => exact .pollError errno hPc
  | timeout => exact .pollTimeout hPc
  | ready readable =>
      cases readable with
      | true => exact .pollReady hPc
      | false => exact .unreadable hPc

/- A poll that timed out. -/
theorem mainQuiet_move
    {now : Nat}
    (hPc : m.pc = .quiet) :
    MainMove cfg m (.clock now) (m.mainQuiet cfg now) := by
  unfold mainQuiet
  by_cases hExited : m.childExited = true
  · have hIdle : m.idles cfg now = false := by
      simp [idles, hExited]
    rw [if_pos hExited]
    by_cases hLong :
        (50 : Int) ≤ (now : Int) - m.childExitTime
    · rw [if_pos hLong]
      exact .drain now hPc (by simp [drained, hExited, hLong])
    · rw [if_neg hLong]
      exact
        .wait now hPc (by simp [drained, hLong]) hIdle
  · have hDrained : m.drained now = false := by
      simp [drained, hExited]
    rw [if_neg hExited]
    simp only []
    by_cases hLimit :
        0 ≤ cfg.idleTimeoutMs ∧
          cfg.idleTimeoutMs ≤ elapsedInt now m.lastOutputTime
    · rw [if_pos hLimit, emit_of_ne m (idleNotice_ne _)]
      exact .idle now hPc (by simp [idles, hExited, hLimit])
    · rw [if_neg hLimit]
      refine .wait now hPc hDrained ?_
      simp only [idles, hLimit, decide_false, Bool.and_false]

/- The result of `read`. -/
theorem mainRead_move
    {result : ReadResult}
    {now : Nat}
    (hPc : m.pc = .reading) :
    MainMove cfg m (.readDone result now)
      (m.mainRead cfg result now) := by
  cases result with
  | data first rest =>
      simp only [mainRead]
      rw [emit_of_ne m (List.cons_ne_nil first rest)]
      exact .data first rest now hPc
  | endOfStream => exact .endOfStream now hPc
  | interrupted => exact .readAgain now hPc
  | wouldBlock => exact .dry now hPc
  | failed errno eio =>
      simp only [mainRead]
      by_cases hEnds : (cfg.usePty && eio) = true
      · rw [if_pos hEnds]
        exact .hangup errno eio now hPc hEnds
      · rw [if_neg hEnds]
        exact
          .readError errno eio now hPc
            (Bool.eq_false_iff.mpr hEnds)

/- Every step of the main thread is one of the moves. -/
theorem main_move
    {e : MainEvent}
    (hStep : m.main cfg e = some m') :
    MainMove cfg m e m' := by
  cases hPc : m.pc <;> cases e <;>
    simp [main, hPc] at hStep
  case start.clock now =>
      subst hStep
      rw [emit_of_ne m startNotice_ne]
      exact .start now hPc
  case top.advance =>
      rcases hStep with ⟨hExited, rfl⟩
      exact .known hPc hExited
  case top.waited result now =>
      rcases hStep with ⟨hRunning, rfl⟩
      exact mainWait_move hPc hRunning
  case polling.polled result =>
      subst hStep
      exact mainPoll_move hPc
  case quiet.clock now =>
      subst hStep
      exact mainQuiet_move hPc
  case reading.readDone result now =>
      subst hStep
      exact mainRead_move hPc
  case failClose.advance status =>
      subst hStep
      exact .failClose status hPc
  case failStop.advance status =>
      subst hStep
      exact .failStop status hPc
  case failJoin.advance status =>
      rcases hStep with ⟨hJoinable, rfl⟩
      exact .failJoin status hPc hJoinable
  case idleTerm.advance =>
      subst hStep
      exact .idleTerm hPc
  case idleKill.advance =>
      subst hStep
      exact .idleKill hPc
  case idleStop.advance =>
      subst hStep
      exact .idleStop hPc
  case idleJoin.advance =>
      rcases hStep with ⟨hJoinable, rfl⟩
      exact .idleJoin hPc hJoinable
  case idleReap.waited result now =>
      cases result with
      | pending => cases hStep
      | failed =>
          cases hStep
          exact .idleUnreaped now hPc
      | reaped status =>
          cases hStep
          exact .idleReaped status now hPc
  case closing.advance =>
      subst hStep
      exact .closing hPc
  case stopping.advance =>
      subst hStep
      exact .stopping hPc
  case joining.advance =>
      rcases hStep with ⟨hJoinable, hStep⟩
      by_cases hExited : m.childExited = true
      · rw [if_pos hExited] at hStep
        cases hStep
        exact .joinExited hPc hJoinable hExited
      · rw [if_neg hExited] at hStep
        cases hStep
        exact
          .joinRunning hPc hJoinable
            (Bool.eq_false_iff.mpr hExited)
  case reaping.waited result now =>
      cases result with
      | pending => cases hStep
      | failed =>
          cases hStep
          exact .unreaped now hPc
      | reaped status =>
          cases hStep
          exact .reaped status now hPc

end Monitor

end Drex

------------------------------------------------------------
-- Watcher Thread
------------------------------------------------------------

namespace Drex

namespace Monitor

/- The moves of the watcher thread. -/
inductive WatchMove (m : Monitor) : Bool → Monitor → Prop
| ask
    (isCancelled : Bool)
    (hWatcher : m.watcher = .checkStop)
    (hStop : m.stopCancelThread = false) :
    WatchMove m isCancelled { m with watcher := .askCancelled }
| stop
    (isCancelled : Bool)
    (hWatcher : m.watcher = .checkStop)
    (hStop : m.stopCancelThread = true) :
    WatchMove m isCancelled { m with watcher := .finished }
| sleep
    (hWatcher : m.watcher = .askCancelled) :
    WatchMove m false { m with watcher := .checkStop }
| notice
    (hWatcher : m.watcher = .askCancelled) :
    WatchMove m true { m with watcher := .recheckStop }
| cancel
    (isCancelled : Bool)
    (hWatcher : m.watcher = .recheckStop)
    (hStop : m.stopCancelThread = false) :
    WatchMove m isCancelled { m with watcher := .record }
| giveUp
    (isCancelled : Bool)
    (hWatcher : m.watcher = .recheckStop)
    (hStop : m.stopCancelThread = true) :
    WatchMove m isCancelled { m with watcher := .finished }
| record
    (isCancelled : Bool)
    (hWatcher : m.watcher = .record) :
    WatchMove m isCancelled
      { m with cancelled := true, watcher := .sendTerm }
| term
    (isCancelled : Bool)
    (hWatcher : m.watcher = .sendTerm) :
    WatchMove m isCancelled
      { m with
        signals := m.signals ++ [.term]
        watcher := .sendKill }
| kill
    (isCancelled : Bool)
    (hWatcher : m.watcher = .sendKill) :
    WatchMove m isCancelled
      { m with
        signals := m.signals ++ [.kill]
        watcher := .finished }

variable {m m' : Monitor}

/- Every step of the watcher is one of the moves. -/
theorem watch_move
    {isCancelled : Bool}
    (hStep : m.watch isCancelled = some m') :
    WatchMove m isCancelled m' := by
  unfold watch at hStep
  cases hWatcher : m.watcher with
  | absent => simp [hWatcher] at hStep
  | finished => simp [hWatcher] at hStep
  | checkStop =>
      simp only [hWatcher, Option.some.injEq] at hStep
      subst hStep
      by_cases hStop : m.stopCancelThread = true
      · rw [if_pos hStop]
        exact .stop isCancelled hWatcher hStop
      · rw [if_neg hStop]
        exact
          .ask isCancelled hWatcher (Bool.eq_false_iff.mpr hStop)
  | askCancelled =>
      simp only [hWatcher, Option.some.injEq] at hStep
      subst hStep
      cases isCancelled with
      | true => exact .notice hWatcher
      | false => exact .sleep hWatcher
  | recheckStop =>
      simp only [hWatcher, Option.some.injEq] at hStep
      subst hStep
      by_cases hStop : m.stopCancelThread = true
      · rw [if_pos hStop]
        exact .giveUp isCancelled hWatcher hStop
      · rw [if_neg hStop]
        exact
          .cancel isCancelled hWatcher
            (Bool.eq_false_iff.mpr hStop)
  | record =>
      simp only [hWatcher, Option.some.injEq] at hStep
      subst hStep
      exact .record isCancelled hWatcher
  | sendTerm =>
      simp only [hWatcher, Option.some.injEq] at hStep
      subst hStep
      exact .term isCancelled hWatcher
  | sendKill =>
      simp only [hWatcher, Option.some.injEq] at hStep
      subst hStep
      exact .kill isCancelled hWatcher

/- The watcher moves itself, signals and records. -/
theorem watch_fields
    {isCancelled : Bool}
    (hStep : m.watch isCancelled = some m') :
    ∃ watcher cancelled signals,
      m' =
        { m with
          watcher := watcher
          cancelled := cancelled
          signals := signals } := by
  cases watch_move hStep <;> exact ⟨_, _, _, rfl⟩

end Monitor

end Drex
