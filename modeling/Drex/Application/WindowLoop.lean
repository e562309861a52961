import Drex.Application.TokenThrottle

/-
  The benchmark loop that the GPU programs share: windows of
  inferences, one after the other, each with a row of the
  report.

  The programs differ in what they wait for around a window
  and before an inference.  These places are steps of their
  own, so that a program can hold its loop there; and the
  program with tokens looks at the stop flag again after it
  has waited.  The throughput of a row is left out: it is
  its iterations over its length.

  Key definitions include:
    * `LoopConfig`
    * `LoopState`
    * `LoopState.advance`
    * `loopStep`
    * `Report`
    * `ReportSound`

  Key theorems include:
    * `LoopConfig.secondsUpTo_eq`
    * `LoopState.advance_move`
    * `benchmark_report`
-/

------------------------------------------------------------
-- Windows
------------------------------------------------------------

namespace Drex

open Drex.Core

/-
  The arguments of a run that its loop depends on, and
  whether the flag is looked at before each inference.
-/
structure LoopConfig where
  durationSec : Nat
  windowSec : Nat
  rechecks : Bool
  duration_pos : 0 < durationSec
  window_pos : 0 < windowSec
  fits : durationSec + windowSec ≤ 2 ^ 63

namespace LoopConfig

variable (cfg : LoopConfig)

/- `window_count`. -/
def windowCount : Nat :=
  (cfg.durationSec + cfg.windowSec - 1) / cfg.windowSec

/- `current_window_sec`. -/
def currentWindowSec (window : Nat) : Nat :=
  min cfg.windowSec
    (cfg.durationSec - (window - 1) * cfg.windowSec)

/- The time of the first windows. -/
def secondsUpTo : Nat → Nat
| 0 => 0
| n + 1 => secondsUpTo n + cfg.currentWindowSec (n + 1)

/- Windows up to the last begin before the time is over. -/
theorem mul_lt_durationSec
    {n : Nat}
    (h : n < cfg.windowCount) :
    n * cfg.windowSec < cfg.durationSec := by
  have hDuration := cfg.duration_pos
  have hEnd :
      (n + 1) * cfg.windowSec ≤
        cfg.durationSec + cfg.windowSec - 1 :=
    (Nat.le_div_iff_mul_le cfg.window_pos).mp h
  rw [Nat.add_mul, Nat.one_mul] at hEnd
  omega

theorem durationSec_le_mul :
    cfg.durationSec ≤ cfg.windowCount * cfg.windowSec := by
  have hLess :
      cfg.durationSec + cfg.windowSec - 1 <
        (cfg.windowCount + 1) * cfg.windowSec :=
    (Nat.div_lt_iff_lt_mul cfg.window_pos).mp
      (Nat.lt_succ_self _)
  rw [Nat.add_mul, Nat.one_mul] at hLess
  omega

/- The windows leave no time out and count none twice. -/
theorem secondsUpTo_eq
    {n : Nat}
    (h : n ≤ cfg.windowCount) :
    cfg.secondsUpTo n =
      min (n * cfg.windowSec) cfg.durationSec := by
  induction n with
  | zero => rw [secondsUpTo, Nat.zero_mul, Nat.zero_min]
  | succ n ih =>
      have hLess := cfg.mul_lt_durationSec h
      rw [secondsUpTo, ih (Nat.le_of_lt h), currentWindowSec,
        Nat.add_sub_cancel, Nat.add_mul, Nat.one_mul]
      omega

theorem secondsUpTo_windowCount :
    cfg.secondsUpTo cfg.windowCount = cfg.durationSec := by
  rw [cfg.secondsUpTo_eq (Nat.le_refl _)]
  exact Nat.min_eq_right cfg.durationSec_le_mul

end LoopConfig

end Drex

------------------------------------------------------------
-- The Loop
------------------------------------------------------------

namespace Drex

/- A row of the report. -/
structure WindowRow where
  window : Nat
  elapsedMs : Int
  iterations : Nat
  windowNs : Int
deriving DecidableEq

/-
  Where the loop is.  It is held at `opening` and `closing`
  by what a program does around a window, and at `gate` by
  what it waits for before an inference.
-/
inductive LoopPc
| head
| opening
| begin
| turn
| gate
| infer
| check
| close
| closing
| done
deriving DecidableEq

/- The locals of `main`, and the rows, newest first. -/
structure LoopState where
  stop : Bool
  clock : Int
  benchmarkStart : Int
  window : Nat
  count : Nat
  windowStart : Int
  rows : List WindowRow
  infers : Nat
  pc : LoopPc

/- The start of the loop, at its reading of the clock. -/
def loopStart (now : Int) : LoopState :=
  { stop := false
    clock := now
    benchmarkStart := now
    window := 1
    count := 0
    windowStart := now
    rows := []
    infers := 0
    pc := .head }

/- A signal comes, or the loop takes a step. -/
inductive LoopEvent
| stop
| step (now : Int)

namespace LoopState

variable (cfg : LoopConfig) (s : LoopState)

/- The condition of the loop over the windows. -/
def enterWindow : LoopState :=
  if s.window ≤ cfg.windowCount ∧ s.stop = false then
    { s with pc := .opening }
  else
    { s with pc := .done }

/- The window begins. -/
def beginWindow (now : Int) : LoopState :=
  { s with
    clock := now
    count := 0
    windowStart := now
    pc := .turn }

/- The condition of the loop over the inferences. -/
def enterTurn : LoopState :=
  if s.stop then
    { s with pc := .close }
  else
    { s with pc := .gate }

/- The program with tokens looks at the flag again. -/
def leaveGate : LoopState :=
  if cfg.rechecks && s.stop then
    { s with pc := .close }
  else
    { s with pc := .infer }

/- `Infer`. -/
def inferOne : LoopState :=
  { s with
    count := s.count + 1
    infers := s.infers + 1
    pc := .check }

/- The look at the time of the window. -/
def checkTime (now : Int) : LoopState :=
  { s with
    clock := now
    pc :=
      if cfg.currentWindowSec s.window ≤
          (now - s.windowStart) / 1000000000 then
        .close
      else
        .turn }

/- The row of the window, with its end at this reading. -/
def rowAt (now : Int) : WindowRow :=
  { window := s.window
    elapsedMs := (now - s.benchmarkStart) / 1000000
    iterations := s.count
    windowNs := now - s.windowStart }

def closeWindow (now : Int) : LoopState :=
  { s with
    clock := now
    rows := s.rowAt now :: s.rows
    pc := .closing }

def nextWindow : LoopState :=
  { s with window := s.window + 1, pc := .head }

/- A step that reads the clock, which does not run back. -/
def reading
    (now : Int)
    (next : LoopState) :
    Option LoopState :=
  if s.clock ≤ now then some next else none

/- One step of the loop. -/
def advance (now : Int) : Option LoopState :=
  match s.pc with
  | .head => some (s.enterWindow cfg)
  | .opening => some { s with pc := .begin }
  | .begin => s.reading now (s.beginWindow now)
  | .turn => some s.enterTurn
  | .gate => some (s.leaveGate cfg)
  | .infer => some s.inferOne
  | .check => s.reading now (s.checkTime cfg now)
  | .close => s.reading now (s.closeWindow now)
  | .closing => some s.nextWindow
  | .done => none

end LoopState

/- One step of a loop that is held nowhere. -/
def loopStep
    (cfg : LoopConfig)
    (s : LoopState) :
    LoopEvent → Option LoopState
| .stop => some { s with stop := true }
| .step now => s.advance cfg now

end Drex

------------------------------------------------------------
-- What A Step Does
------------------------------------------------------------

namespace Drex

namespace LoopState

/- What a step of the loop does, one operation at each point. -/
inductive LoopMove
    (cfg : LoopConfig)
    (s : LoopState)
    (now : Int) :
    LoopState → Prop
| head
    (hPc : s.pc = .head) :
    LoopMove cfg s now (s.enterWindow cfg)
| opening
    (hPc : s.pc = .opening) :
    LoopMove cfg s now { s with pc := .begin }
| begin
    (hPc : s.pc = .begin)
    (hClock : s.clock ≤ now) :
    LoopMove cfg s now (s.beginWindow now)
| turn
    (hPc : s.pc = .turn) :
    LoopMove cfg s now s.enterTurn
| gate
    (hPc : s.pc = .gate) :
    LoopMove cfg s now (s.leaveGate cfg)
| infer
    (hPc : s.pc = .infer) :
    LoopMove cfg s now s.inferOne
| check
    (hPc : s.pc = .check)
    (hClock : s.clock ≤ now) :
    LoopMove cfg s now (s.checkTime cfg now)
| close
    (hPc : s.pc = .close)
    (hClock : s.clock ≤ now) :
    LoopMove cfg s now (s.closeWindow now)
| closing
    (hPc : s.pc = .closing) :
    LoopMove cfg s now s.nextWindow

theorem reading_eq_some_iff
    {s next s' : LoopState}
    {now : Int} :
    s.reading now next = some s' ↔
      s.clock ≤ now ∧ next = s' := by
  unfold reading
  split
  case isTrue hClock => simp [hClock]
  case isFalse hClock => simp [hClock]

theorem advance_move
    {cfg : LoopConfig}
    {s s' : LoopState}
    {now : Int}
    (h : s.advance cfg now = some s') :
    LoopMove cfg s now s' := by
  rw [advance] at h
  cases hPc : s.pc with
  | head =>
      rw [hPc] at h
      rw [← Option.some.inj h]
      exact .head hPc
  | opening =>
      rw [hPc] at h
      rw [← Option.some.inj h]
      exact .opening hPc
  | begin =>
      rw [hPc] at h
      rcases reading_eq_some_iff.mp h with ⟨hClock, rfl⟩
      exact .begin hPc hClock
  | turn =>
      rw [hPc] at h
      rw [← Option.some.inj h]
      exact .turn hPc
  | gate =>
      rw [hPc] at h
      rw [← Option.some.inj h]
      exact .gate hPc
  | infer =>
      rw [hPc] at h
      rw [← Option.some.inj h]
      exact .infer hPc
  | check =>
      rw [hPc] at h
      rcases reading_eq_some_iff.mp h with ⟨hClock, rfl⟩
      exact .check hPc hClock
  | close =>
      rw [hPc] at h
      rcases reading_eq_some_iff.mp h with ⟨hClock, rfl⟩
      exact .close hPc hClock
  | closing =>
      rw [hPc] at h
      rw [← Option.some.inj h]
      exact .closing hPc
  | done =>
      rw [hPc] at h
      cases h

end LoopState

end Drex

------------------------------------------------------------
-- The Report
------------------------------------------------------------

namespace Drex

/- The length of the windows of some rows. -/
def windowsNs : List WindowRow → Int
| [] => 0
| row :: rows => row.windowNs + windowsNs rows

/- The iterations of some rows. -/
def iterationsOf : List WindowRow → Nat
| [] => 0
| row :: rows => row.iterations + iterationsOf rows

/- A window that was run for its whole time. -/
structure Full
    (cfg : LoopConfig)
    (row : WindowRow) : Prop where
  iterations : 1 ≤ row.iterations
  window :
    (cfg.currentWindowSec row.window : Int) * 1000000000 ≤
      row.windowNs

/- A row that is written after some others. -/
structure RowAfter
    (cfg : LoopConfig)
    (older : List WindowRow)
    (row : WindowRow) : Prop where
  window : row.window = older.length + 1
  among : row.window ≤ cfg.windowCount
  windowNs : 0 ≤ row.windowNs
  elapsed :
    windowsNs (row :: older) / 1000000 ≤ row.elapsedMs
  later : ∀ r ∈ older, r.elapsedMs ≤ row.elapsedMs

/-
  The rows are those of the first windows in their order, at
  times that go on, and only the newest can be of a window
  that was cut short.
-/
inductive Report (cfg : LoopConfig) : List WindowRow → Prop
| none : Report cfg []
| row
    {older : List WindowRow}
    {row : WindowRow}
    (hOlder : Report cfg older)
    (hFull : ∀ r ∈ older, Full cfg r)
    (hRow : RowAfter cfg older row) :
    Report cfg (row :: older)

/- The windows whose rows are written, at each point. -/
def LoopPc.closed : LoopPc → Bool
| .closing => true
| _ => false

/- The loop is inside a window that has no row yet. -/
def LoopPc.inside : LoopPc → Bool
| .turn => true
| .gate => true
| .infer => true
| .check => true
| .close => true
| _ => false

/- The loop has a window to run or to finish. -/
def LoopPc.hasWindow : LoopPc → Bool
| .head => false
| .done => false
| _ => true

/- The inferences of the window that has no row yet. -/
def LoopState.openCount (s : LoopState) : Nat :=
  if s.pc.inside then s.count else 0

/- The window's own time is over. -/
def LoopState.TimeOver
    (cfg : LoopConfig)
    (s : LoopState) : Prop :=
  1 ≤ s.count ∧
    (cfg.currentWindowSec s.window : Int) * 1000000000 ≤
      s.clock - s.windowStart

/-
  What holds of the loop: its report, the inferences it
  counts, and what it knows of the window at each point.
-/
structure ReportSound
    (cfg : LoopConfig)
    (s : LoopState) : Prop where
  report : Report cfg s.rows
  written :
    s.rows.length + 1 =
      s.window + if s.pc.closed then 1 else 0
  counted : s.infers = iterationsOf s.rows + s.openCount
  full : s.stop = false → ∀ r ∈ s.rows, Full cfg r
  cut :
    s.pc.hasWindow = true → s.pc.closed = false →
      ∀ r ∈ s.rows, Full cfg r
  opened :
    s.pc.hasWindow = true → s.window ≤ cfg.windowCount
  elapsed :
    windowsNs s.rows +
        (if s.pc.inside then s.clock - s.windowStart else 0) ≤
      s.clock - s.benchmarkStart
  started :
    s.pc.inside = true → s.windowStart ≤ s.clock
  latest :
    ∀ r ∈ s.rows,
      r.elapsedMs ≤ (s.clock - s.benchmarkStart) / 1000000
  inferring : s.pc = .check → 1 ≤ s.count
  closing :
    s.pc = .close → s.stop = true ∨ s.TimeOver cfg
  done :
    s.pc = .done → s.stop = false →
      s.window = cfg.windowCount + 1

/- There are no more rows than windows. -/
theorem Report.length_le
    {cfg : LoopConfig}
    {rows : List WindowRow}
    (h : Report cfg rows) :
    rows.length ≤ cfg.windowCount := by
  cases h with
  | none => exact Nat.zero_le _
  | row hOlder hFull hRow =>
      have hWindow := hRow.window
      have hAmong := hRow.among
      rw [List.length_cons]
      omega

namespace ReportSound

variable {cfg : LoopConfig} {s s' : LoopState}

theorem start (cfg : LoopConfig) (now : Int) :
    ReportSound cfg (loopStart now) :=
  { report := .none
    written := rfl
    counted := rfl
    full := fun _ _ hRow => by cases hRow
    cut := fun hWindow => by cases hWindow
    opened := fun hWindow => by cases hWindow
    elapsed := by
      change (0 : Int) + 0 ≤ now - now
      omega
    started := fun hInside => by cases hInside
    latest := fun _ hRow => by cases hRow
    inferring := fun hPc => by cases hPc
    closing := fun hPc => by cases hPc
    done := fun hPc => by cases hPc }

/- A stop only lets the newest row be cut short. -/
theorem request
    (h : ReportSound cfg s) :
    ReportSound cfg { s with stop := true } :=
  { h with
    full := fun hStop => by cases hStop
    closing := fun _ => Or.inl rfl
    done := fun _ hStop => by cases hStop }

theorem enterWindow
    (h : ReportSound cfg s)
    (hPc : s.pc = .head) :
    ReportSound cfg (s.enterWindow cfg) := by
  rcases s with
    ⟨stop, clock, benchmarkStart, window, count, windowStart,
      rows, infers, pc⟩
  obtain rfl : pc = .head := hPc
  unfold LoopState.enterWindow
  split
  case isTrue hNext =>
    exact
      { h with
        cut := fun _ _ => h.full hNext.2
        opened := fun _ => hNext.1
        inferring := fun hAt => by cases hAt
        closing := fun hAt => by cases hAt
        done := fun hAt => by cases hAt }
  case isFalse hLast =>
    refine
      { h with
        inferring := fun hAt => by cases hAt
        closing := fun hAt => by cases hAt
        done := fun _ hStop => ?_ }
    have hRows := h.report.length_le
    have hWritten : rows.length + 1 = window := h.written
    have hPast : ¬ window ≤ cfg.windowCount :=
      fun hLe => hLast ⟨hLe, hStop⟩
    change rows.length ≤ cfg.windowCount at hRows
    change window = cfg.windowCount + 1
    omega

theorem beginWindow
    (h : ReportSound cfg s)
    (hPc : s.pc = .begin)
    {now : Int}
    (hClock : s.clock ≤ now) :
    ReportSound cfg (s.beginWindow now) := by
  rcases s with
    ⟨stop, clock, benchmarkStart, window, count, windowStart,
      rows, infers, pc⟩
  obtain rfl : pc = .begin := hPc
  refine
    { h with
      elapsed := ?_
      started := fun _ => Int.le_refl now
      latest := fun r hRow => ?_
      inferring := fun hAt => by cases hAt
      closing := fun hAt => by cases hAt
      done := fun hAt => by cases hAt }
  · have hElapsed : windowsNs rows + 0 ≤
        clock - benchmarkStart := h.elapsed
    change clock ≤ now at hClock
    change windowsNs rows + (now - now) ≤
      now - benchmarkStart
    omega
  · have hLatest := h.latest r hRow
    change clock ≤ now at hClock
    change r.elapsedMs ≤ (clock - benchmarkStart) / 1000000
      at hLatest
    change r.elapsedMs ≤ (now - benchmarkStart) / 1000000
    omega

theorem enterTurn
    (h : ReportSound cfg s)
    (hPc : s.pc = .turn) :
    ReportSound cfg s.enterTurn := by
  rcases s with
    ⟨stop, clock, benchmarkStart, window, count, windowStart,
      rows, infers, pc⟩
  obtain rfl : pc = .turn := hPc
  unfold LoopState.enterTurn
  split
  case isTrue hStop =>
    exact
      { h with
        inferring := fun hAt => by cases hAt
        closing := fun _ => Or.inl hStop
        done := fun hAt => by cases hAt }
  case isFalse =>
    exact
      { h with
        inferring := fun hAt => by cases hAt
        closing := fun hAt => by cases hAt
        done := fun hAt => by cases hAt }

theorem leaveGate
    (h : ReportSound cfg s)
    (hPc : s.pc = .gate) :
    ReportSound cfg (s.leaveGate cfg) := by
  rcases s with
    ⟨stop, clock, benchmarkStart, window, count, windowStart,
      rows, infers, pc⟩
  obtain rfl : pc = .gate := hPc
  unfold LoopState.leaveGate
  split
  case isTrue hStop =>
    exact
      { h with
        inferring := fun hAt => by cases hAt
        closing := fun _ =>
          Or.inl (Bool.and_eq_true_iff.mp hStop).2
        done := fun hAt => by cases hAt }
  case isFalse =>
    exact
      { h with
        inferring := fun hAt => by cases hAt
        closing := fun hAt => by cases hAt
        done := fun hAt => by cases hAt }

theorem inferOne
    (h : ReportSound cfg s)
    (hPc : s.pc = .infer) :
    ReportSound cfg s.inferOne := by
  rcases s with
    ⟨stop, clock, benchmarkStart, window, count, windowStart,
      rows, infers, pc⟩
  obtain rfl : pc = .infer := hPc
  have hCounted : infers = iterationsOf rows + count :=
    h.counted
  refine
    { h with
      counted := ?_
      inferring := fun _ => Nat.succ_pos count
      closing := fun hAt => by cases hAt
      done := fun hAt => by cases hAt }
  change infers + 1 = iterationsOf rows + (count + 1)
  omega

theorem checkTime
    (h : ReportSound cfg s)
    (hPc : s.pc = .check)
    {now : Int}
    (hClock : s.clock ≤ now) :
    ReportSound cfg (s.checkTime cfg now) := by
  rcases s with
    ⟨stop, clock, benchmarkStart, window, count, windowStart,
      rows, infers, pc⟩
  obtain rfl : pc = .check := hPc
  have hElapsed :
      windowsNs rows + (clock - windowStart) ≤
        clock - benchmarkStart := h.elapsed
  have hStarted : windowStart ≤ clock := h.started rfl
  change clock ≤ now at hClock
  have hNow :
      windowsNs rows + (now - windowStart) ≤
        now - benchmarkStart := by
    omega
  have hLatest :
      ∀ r ∈ rows,
        r.elapsedMs ≤ (now - benchmarkStart) / 1000000 := by
    intro r hRow
    have hBefore :
        r.elapsedMs ≤ (clock - benchmarkStart) / 1000000 :=
      h.latest r hRow
    omega
  unfold LoopState.checkTime
  dsimp only
  split
  case isTrue hOver =>
    refine
      { h with
        elapsed := hNow
        started := fun _ => Int.le_trans hStarted hClock
        latest := hLatest
        inferring := fun hAt => by cases hAt
        closing := fun _ => Or.inr ⟨h.inferring rfl, ?_⟩
        done := fun hAt => by cases hAt }
    change
      (cfg.currentWindowSec window : Int) * 1000000000 ≤
        now - windowStart
    omega
  case isFalse =>
    exact
      { h with
        elapsed := hNow
        started := fun _ => Int.le_trans hStarted hClock
        latest := hLatest
        inferring := fun hAt => by cases hAt
        closing := fun hAt => by cases hAt
        done := fun hAt => by cases hAt }

theorem closeWindow
    (h : ReportSound cfg s)
    (hPc : s.pc = .close)
    {now : Int}
    (hClock : s.clock ≤ now) :
    ReportSound cfg (s.closeWindow now) := by
  rcases s with
    ⟨stop, clock, benchmarkStart, window, count, windowStart,
      rows, infers, pc⟩
  obtain rfl : pc = .close := hPc
  have hWritten : rows.length + 1 = window := h.written
  have hCounted : infers = iterationsOf rows + count :=
    h.counted
  have hElapsed :
      windowsNs rows + (clock - windowStart) ≤
        clock - benchmarkStart := h.elapsed
  have hStarted : windowStart ≤ clock := h.started rfl
  change clock ≤ now at hClock
  let row : WindowRow :=
    { window := window
      elapsedMs := (now - benchmarkStart) / 1000000
      iterations := count
      windowNs := now - windowStart }
  have hSum :
      windowsNs (row :: rows) ≤ now - benchmarkStart := by
    rw [windowsNs]
    change now - windowStart + windowsNs rows ≤ _
    omega
  have hLatest :
      ∀ r ∈ rows, r.elapsedMs ≤ row.elapsedMs := by
    intro r hRow
    have hBefore :
        r.elapsedMs ≤ (clock - benchmarkStart) / 1000000 :=
      h.latest r hRow
    change r.elapsedMs ≤ (now - benchmarkStart) / 1000000
    omega
  have hRow : RowAfter cfg rows row :=
    { window := hWritten.symm
      among := h.opened rfl
      windowNs := by
        change 0 ≤ now - windowStart
        omega
      elapsed := by
        change _ ≤ (now - benchmarkStart) / 1000000
        omega
      later := hLatest }
  refine
    { report := .row h.report (h.cut rfl rfl) hRow
      written := ?_
      counted := ?_
      full := fun hStop r hMem => ?_
      cut := fun _ hOpen => by cases hOpen
      opened := h.opened
      elapsed := ?_
      started := fun hInside => by cases hInside
      latest := fun r hMem => ?_
      inferring := fun hAt => by cases hAt
      closing := fun hAt => by cases hAt
      done := fun hAt => by cases hAt }
  · change (row :: rows).length + 1 = window + 1
    rw [List.length_cons, hWritten]
  · change infers = iterationsOf (row :: rows) + 0
    rw [iterationsOf]
    change infers = count + iterationsOf rows + 0
    omega
  · rcases List.mem_cons.mp hMem with rfl | hOld
    · -- Without a stop the loop left it when it was over.
      rcases h.closing rfl with hStopped | ⟨hCount, hOver⟩
      · cases hStopped.symm.trans hStop
      · refine ⟨hCount, ?_⟩
        change
          (cfg.currentWindowSec window : Int) * 1000000000 ≤
            clock - windowStart at hOver
        change
          (cfg.currentWindowSec window : Int) * 1000000000 ≤
            now - windowStart
        omega
    · exact h.full hStop r hOld
  · change windowsNs (row :: rows) + 0 ≤ now - benchmarkStart
    omega
  · rcases List.mem_cons.mp hMem with rfl | hOld
    · exact Int.le_refl _
    · exact hLatest r hOld

theorem nextWindow
    (h : ReportSound cfg s)
    (hPc : s.pc = .closing) :
    ReportSound cfg s.nextWindow := by
  rcases s with
    ⟨stop, clock, benchmarkStart, window, count, windowStart,
      rows, infers, pc⟩
  obtain rfl : pc = .closing := hPc
  exact
    { h with
      cut := fun hWindow => by cases hWindow
      opened := fun hWindow => by cases hWindow
      inferring := fun hAt => by cases hAt
      closing := fun hAt => by cases hAt
      done := fun hAt => by cases hAt }

theorem opening
    (h : ReportSound cfg s)
    (hPc : s.pc = .opening) :
    ReportSound cfg { s with pc := .begin } := by
  rcases s with
    ⟨stop, clock, benchmarkStart, window, count, windowStart,
      rows, infers, pc⟩
  obtain rfl : pc = .opening := hPc
  exact
    { h with
      inferring := fun hAt => by cases hAt
      closing := fun hAt => by cases hAt
      done := fun hAt => by cases hAt }

/- Each step of the loop keeps its report. -/
theorem advance
    (h : ReportSound cfg s)
    {now : Int}
    (hStep : s.advance cfg now = some s') :
    ReportSound cfg s' := by
  cases LoopState.advance_move hStep with
  | head hPc => exact h.enterWindow hPc
  | opening hPc => exact h.opening hPc
  | begin hPc hClock => exact h.beginWindow hPc hClock
  | turn hPc => exact h.enterTurn hPc
  | gate hPc => exact h.leaveGate hPc
  | infer hPc => exact h.inferOne hPc
  | check hPc hClock => exact h.checkTime hPc hClock
  | close hPc hClock => exact h.closeWindow hPc hClock
  | closing hPc => exact h.nextWindow hPc

end ReportSound

end Drex

------------------------------------------------------------
-- Whole Runs
------------------------------------------------------------

namespace Drex

open Drex.Core

/- The rows of a run that was not stopped. -/
structure Complete
    (cfg : LoopConfig)
    (rows : List WindowRow) : Prop where
  windows : rows.length = cfg.windowCount
  full : ∀ r ∈ rows, Full cfg r
  elapsed :
    ∀ r ∈ rows.head?,
      (cfg.durationSec : Int) * 1000 ≤ r.elapsedMs

/- What a report says at any time, and in the end. -/
structure SoundReport
    (cfg : LoopConfig)
    (s : LoopState) : Prop where
  report : Report cfg s.rows
  counted : s.infers = iterationsOf s.rows + s.openCount
  complete :
    s.pc = .done → s.stop = false → Complete cfg s.rows

/- Full windows last as long as they should together. -/
theorem Report.secondsUpTo_le
    {cfg : LoopConfig}
    {rows : List WindowRow}
    (h : Report cfg rows)
    (hFull : ∀ r ∈ rows, Full cfg r) :
    (cfg.secondsUpTo rows.length : Int) * 1000000000 ≤
      windowsNs rows := by
  induction h with
  | none => simp [LoopConfig.secondsUpTo, windowsNs]
  | @row older row hOlder hOlderFull hRow ih =>
      have hRest := ih hOlderFull
      have hHere := (hFull row List.mem_cons_self).window
      rw [hRow.window] at hHere
      rw [windowsNs, List.length_cons,
        LoopConfig.secondsUpTo, Int.natCast_add, Int.add_mul]
      omega

/- The newest row is written when its window is over. -/
theorem Report.elapsed_le
    {cfg : LoopConfig}
    {rows : List WindowRow}
    (h : Report cfg rows)
    {r : WindowRow}
    (hRow : r ∈ rows.head?) :
    windowsNs rows / 1000000 ≤ r.elapsedMs := by
  cases h with
  | none => cases hRow
  | row hOlder hFull hLast =>
      rw [← Option.some.inj hRow]
      exact hLast.elapsed

theorem ReportSound.soundReport
    {cfg : LoopConfig}
    {s : LoopState}
    (h : ReportSound cfg s) :
    SoundReport cfg s := by
  refine ⟨h.report, h.counted, fun hPc hStop => ?_⟩
  have hFull := h.full hStop
  have hWindow := h.done hPc hStop
  have hWritten := h.written
  rw [hPc] at hWritten
  have hLength : s.rows.length = cfg.windowCount := by
    change s.rows.length + 1 = s.window + 0 at hWritten
    omega
  refine ⟨hLength, hFull, fun r hRow => ?_⟩
  have hSeconds := h.report.secondsUpTo_le hFull
  rw [hLength, cfg.secondsUpTo_windowCount] at hSeconds
  have hElapsed := h.report.elapsed_le hRow
  omega

/-
  However the clock goes on and whenever a stop comes, the
  report is that of the windows run: each inference is
  counted in one row, only the newest row can be of a window
  cut short, and without a stop the report is complete.
-/
theorem benchmark_report
    {cfg : LoopConfig}
    {now : Int}
    {s : LoopState}
    (h : Reaches (loopStep cfg) (loopStart now) s) :
    SoundReport cfg s := by
  have hSound : ReportSound cfg s := by
    refine Reaches.invariant (.start cfg now) ?_ h
    intro s e s' hSound hStep
    cases e with
    | stop =>
        rw [← Option.some.inj hStep]
        exact hSound.request
    | step now => exact hSound.advance hStep
  exact hSound.soundReport

/- Three seconds in windows of two. -/
def threeSeconds : LoopConfig :=
  { durationSec := 3
    windowSec := 2
    rechecks := false
    duration_pos := by decide
    window_pos := by decide
    fits := by decide }

/- The second window is as short as the rest of the time. -/
theorem benchmark_report_complete :
    ∃ s : LoopState,
      s.pc = .done ∧ s.rows.length = 2 ∧
        SoundReport threeSeconds s := by
  have hRun :
      (runLabels (loopStep threeSeconds)
          (List.replicate 6 (.step 0) ++
            List.replicate 9 (.step 2000000000) ++
            List.replicate 4 (.step 3000000000))
          (loopStart 0)).any
        (fun s =>
          decide (s.pc = .done ∧ s.rows.length = 2)) =
        true := by
    decide +kernel
  rcases reaches_of_any hRun with ⟨s, hReach, hCheck⟩
  rcases of_decide_eq_true hCheck with ⟨hPc, hRows⟩
  exact ⟨s, hPc, hRows, benchmark_report hReach⟩

end Drex
