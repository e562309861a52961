import Drex.Application.WindowLoop

/-
  The benchmark loop with tokens: every inference waits for
  a call of `Acquire`, so the report cannot show more
  inferences in a window than the utilization file allowed
  for.

  The loop and the throttle read one clock.  The call of
  `Acquire`, its turns and its return are steps of their
  own, and a stop signal can come between any two.

  Key definitions include:
    * `TokenLoop`
    * `tokenLoopStep`
    * `grantedSince`
    * `peakAllowance`
    * `TokenSound`

  Key theorems include:
    * `grantedSince_le`
    * `TokenSound.step`
    * `report_throttled`
-/

------------------------------------------------------------
-- The Machine
------------------------------------------------------------

namespace Drex

/- Where the loop is with its call of `Acquire`. -/
inductive GatePhase
| calling
| acquiring
| acquired
deriving DecidableEq

/- The loop, its call of `Acquire`, and the throttle. -/
structure TokenLoop where
  loop : LoopState
  gate : GatePhase
  throttle : ThrottleRun

/-
  A signal comes, the loop takes a step, or `Acquire` takes
  a turn of its own loop.
-/
inductive TokenEvent
| stop
| step (now : Int)
| turn (now later : Int) (seen : Option Str)

namespace TokenLoop

variable (s : TokenLoop)

/- A turn of `Acquire`, which first looks at the flag. -/
def turn
    (now later : Int)
    (seen : Option Str) :
    Option TokenLoop :=
  if s.loop.stop then
    some
      { s with
        gate := .acquired
        throttle := { s.throttle with acquiring := false } }
  else
    (throttleStep s.throttle (.turn now later seen)).map
      (fun throttle =>
        { loop := { s.loop with clock := throttle.clock }
          gate :=
            if throttle.acquiring then .acquiring else .acquired
          throttle := throttle })

/- A step of the loop away from its call of `Acquire`. -/
def work
    (cfg : LoopConfig)
    (now : Int) :
    Option TokenLoop :=
  (s.loop.advance cfg now).map
    (fun loop =>
      { loop := loop
        gate := .calling
        throttle := { s.throttle with clock := loop.clock } })

/- `Acquire` is called. -/
def call : Option TokenLoop :=
  (throttleStep s.throttle .acquire).map
    (fun throttle =>
      { s with gate := .acquiring, throttle := throttle })

end TokenLoop

/- One step of the program. -/
def tokenLoopStep
    (cfg : LoopConfig)
    (s : TokenLoop) :
    TokenEvent → Option TokenLoop
| .stop =>
    some { s with loop := { s.loop with stop := true } }
| .step now =>
    if s.loop.pc = .gate then
      match s.gate with
      | .calling => s.call
      | .acquiring => none
      | .acquired => s.work cfg now
    else
      s.work cfg now
| .turn now later seen =>
    if s.loop.pc = .gate ∧ s.gate = .acquiring then
      s.turn now later seen
    else
      none

/-
  The start of the loop, some time after the throttle was
  constructed.
-/
def tokenLoopStart
    (enabled : Bool)
    (settings : ThrottleSettings)
    (built : Int)
    (seen : Option Str)
    (now : Int) :
    Option TokenLoop := do
  let throttle ← throttleStart enabled settings built seen
  if built ≤ now then
    some
      { loop := loopStart now
        gate := .calling
        throttle := { throttle with clock := now } }
  else
    none

end Drex

------------------------------------------------------------
-- Grants In An Interval
------------------------------------------------------------

namespace Drex

theorem ThrottleSettings.windowNs_pos
    (settings : ThrottleSettings) :
    0 < settings.windowNs := by
  have hWindow := settings.window_pos
  unfold windowNs
  omega

/-
  The calls that were granted since a time, and those that
  the refill before it granted where it was still good then.
-/
def grantedSince
    (width start : Int) :
    List Refilled → Nat
| [] => 0
| r :: older =>
    if r.time + width ≤ start then
      0
    else if r.time < start then
      r.granted
    else
      r.granted + grantedSince width start older

/- The largest allowance of a refill. -/
def peakAllowance
    (settings : ThrottleSettings) :
    List Refilled → Int
| [] => 1
| r :: older =>
    max (allowance settings (r :: older))
      (peakAllowance settings older)

theorem one_le_peakAllowance
    (settings : ThrottleSettings)
    (refills : List Refilled) :
    1 ≤ peakAllowance settings refills := by
  induction refills with
  | nil => exact Int.le_refl 1
  | cons r older ih => exact le_max_of_le_right ih

theorem peakAllowance_grantOne
    (settings : ThrottleSettings)
    (refills : List Refilled) :
    peakAllowance settings (grantOne refills) =
      peakAllowance settings refills := by
  cases refills with
  | nil => rfl
  | cons r older => rfl

/- A grant in a window that is not over is one more. -/
theorem grantedSince_grantOne
    {width start : Int}
    {r : Refilled}
    (older : List Refilled)
    (h : start < r.time + width) :
    grantedSince width start (grantOne (r :: older)) =
      grantedSince width start (r :: older) + 1 := by
  simp only [grantOne, grantedSince]
  rw [if_neg (Int.not_le.mpr h), if_neg (Int.not_le.mpr h)]
  split <;> omega

/- Where the file never said more, the peak is no more. -/
theorem peakAllowance_le
    {settings : ThrottleSettings}
    {refills : List Refilled}
    {limit : Int}
    (h :
      ∀ r older, r :: older <:+ refills →
        lastRead settings (r :: older) ≤ limit) :
    peakAllowance settings refills ≤
      max 1 (limit * settings.quotaUnit) := by
  have hUnit := settings.quota_pos
  induction refills with
  | nil => exact le_max_left _ _
  | cons r older ih =>
      have hRest :=
        ih fun r' older' hSuffix =>
          h r' older' (hSuffix.trans (List.suffix_cons r older))
      have hHere := h r older (List.suffix_refl _)
      have hProduct :
          lastRead settings (r :: older) *
              settings.quotaUnit ≤
            limit * settings.quotaUnit :=
        Int.mul_le_mul_of_nonneg_right hHere
          (Int.le_of_lt hUnit)
      refine max_le ?_ hRest
      exact max_le_max_left 1 hProduct

/- No window grants more than the peak. -/
theorem granted_le_peak
    {settings : ThrottleSettings}
    {refills : List Refilled}
    (h :
      ∀ r older, r :: older <:+ refills →
        (r.granted : Int) ≤ allowance settings (r :: older))
    {r : Refilled}
    (hMem : r ∈ refills) :
    (r.granted : Int) ≤ peakAllowance settings refills := by
  induction refills with
  | nil => cases hMem
  | cons head older ih =>
      rcases List.mem_cons.mp hMem with rfl | hOld
      · exact
          le_max_of_le_left (h r older (List.suffix_refl _))
      · refine le_max_of_le_right (ih ?_ hOld)
        intro r' older' hSuffix
        exact
          h r' older'
            (hSuffix.trans (List.suffix_cons head older))

/-
  Windows that are apart leave room for one more than the
  quotient in an interval, and the one before it counts too.
  Only those that meet the interval have to keep to the peak.
-/
theorem grantedSince_le
    {width peak : Int}
    (hWidth : 0 < width)
    (hPeak : 0 ≤ peak)
    {refills : List Refilled}
    (hApart :
      refills.IsChain
        (fun later earlier =>
          earlier.time + width ≤ later.time))
    {start finish : Int}
    (hGranted :
      ∀ r ∈ refills, start < r.time + width →
        (r.granted : Int) ≤ peak)
    (hStart : start ≤ finish + width)
    (hFinish : ∀ r ∈ refills.head?, r.time ≤ finish) :
    (grantedSince width start refills : Int) ≤
      ((finish - start) / width + 2) * peak := by
  have hOne :
      ∀ {finish : Int}, start ≤ finish + width →
        1 ≤ (finish - start) / width + 2 := by
    intro finish hLate
    have hQuotient : -1 ≤ (finish - start) / width :=
      (Int.le_ediv_iff_mul_le hWidth).mpr (by omega)
    omega
  induction refills generalizing finish with
  | nil =>
      exact
        Int.mul_nonneg (Int.le_trans (by omega) (hOne hStart))
          hPeak
  | cons r older ih =>
      have hTime := hFinish r rfl
      have hScale :=
        Int.mul_le_mul_of_nonneg_right (hOne hStart) hPeak
      rw [grantedSince]
      split_ifs with hOver hEarlier
      case pos => omega
      case pos =>
        have hHere :=
          hGranted r List.mem_cons_self (by omega)
        omega
      case neg =>
        have hHere :=
          hGranted r List.mem_cons_self (by omega)
        have hOlder :
            ∀ r' ∈ older.head?, r'.time ≤ r.time - width := by
          intro r' hHead
          cases hApart with
          | singleton => cases hHead
          | cons_cons hFirst hRest =>
              rw [← Option.some.inj hHead]
              omega
        have hTail :
            older.IsChain
              (fun later earlier =>
                earlier.time + width ≤ later.time) := by
          cases hApart with
          | singleton => exact .nil
          | cons_cons hFirst hRest => exact hRest
        have hRest :=
          ih hTail
            (fun r' hMem =>
              hGranted r' (List.mem_cons_of_mem r hMem))
            (by omega) hOlder
        have hQuotient :
            (r.time - width - start) / width + 1 ≤
              (finish - start) / width := by
          rw [← Int.add_mul_ediv_right _ 1 (by omega)]
          exact Int.ediv_le_ediv hWidth (by omega)
        have hScale :
            ((r.time - width - start) / width + 2 + 1) *
                peak ≤
              ((finish - start) / width + 2) * peak :=
          Int.mul_le_mul_of_nonneg_right (by omega) hPeak
        rw [Int.add_mul, Int.one_mul] at hScale
        rw [Int.natCast_add]
        omega

end Drex

------------------------------------------------------------
-- The Invariant
------------------------------------------------------------

namespace Drex

/- The clock of a loop only goes on. -/
theorem LoopState.advance_clock
    {cfg : LoopConfig}
    {l l' : LoopState}
    {now : Int}
    (h : l.advance cfg now = some l') :
    l.clock ≤ l'.clock := by
  cases LoopState.advance_move h with
  | head =>
      unfold enterWindow
      split <;> exact Int.le_refl _
  | turn =>
      unfold enterTurn
      split <;> exact Int.le_refl _
  | gate =>
      unfold leaveGate
      split <;> exact Int.le_refl _
  | opening | infer | closing => exact Int.le_refl _
  | begin hPc hClock => exact hClock
  | check hPc hClock => exact hClock
  | close hPc hClock => exact hClock

/- Time that passes outside the loop. -/
theorem ReportSound.tick
    {cfg : LoopConfig}
    {l : LoopState}
    (h : ReportSound cfg l)
    {clock : Int}
    (hClock : l.clock ≤ clock) :
    ReportSound cfg { l with clock := clock } := by
  have hElapsed := h.elapsed
  refine
    { h with
      elapsed := ?_
      started := fun hInside =>
        Int.le_trans (h.started hInside) hClock
      latest := fun r hRow =>
        Int.le_trans (h.latest r hRow)
          (Int.ediv_le_ediv (by decide)
            (Int.sub_le_sub_right hClock _))
      closing := fun hPc => ?_ }
  · dsimp only
    split
    case isTrue hInside =>
      rw [if_pos hInside] at hElapsed
      omega
    case isFalse hOutside =>
      rw [if_neg hOutside] at hElapsed
      omega
  · rcases h.closing hPc with hStop | ⟨hCount, hOver⟩
    · exact Or.inl hStop
    · refine Or.inr ⟨hCount, ?_⟩
      dsimp only
      omega

/- The call of `Acquire` was granted, and is not used yet. -/
def TokenLoop.holds (s : TokenLoop) : Nat :=
  if s.loop.pc = .infer ∨
      (s.loop.pc = .gate ∧ s.gate = .acquired ∧
        s.loop.stop = false) then
    1
  else
    0

theorem TokenLoop.holds_le (s : TokenLoop) :
    s.holds ≤ 1 := by
  unfold holds
  split <;> decide

/- A row has no more inferences than its windows allow. -/
structure RowThrottled
    (settings : ThrottleSettings)
    (peak : Int)
    (row : WindowRow) : Prop where
  window : 0 ≤ row.windowNs
  iterations :
    (row.iterations : Int) ≤
      (row.windowNs / settings.windowNs + 2) * peak

/-
  What holds of the program: its report and its throttle,
  on one clock, and that each inference had its grant.
-/
structure TokenSound
    (cfg : LoopConfig)
    (settings : ThrottleSettings)
    (s : TokenLoop) : Prop where
  report : ReportSound cfg s.loop
  throttle : ThrottleSound settings s.throttle
  clock : s.throttle.clock = s.loop.clock
  latest :
    ∀ r ∈ s.throttle.refills.head?, r.time ≤ s.loop.clock
  granted :
    s.loop.pc.inside = true →
      s.loop.count + s.holds ≤
        grantedSince settings.windowNs s.loop.windowStart
          s.throttle.refills
  rows :
    ∀ row ∈ s.loop.rows,
      RowThrottled settings
        (peakAllowance settings s.throttle.refills) row

theorem RowThrottled.mono
    {settings : ThrottleSettings}
    {peak peak' : Int}
    {row : WindowRow}
    (h : RowThrottled settings peak row)
    (hPeak : peak ≤ peak') :
    RowThrottled settings peak' row := by
  have hWindow := settings.window_pos
  have hQuotient :
      0 ≤ row.windowNs / settings.windowNs :=
    Int.ediv_nonneg h.window
      (by unfold ThrottleSettings.windowNs; omega)
  exact
    ⟨h.window,
      Int.le_trans h.iterations
        (Int.mul_le_mul_of_nonneg_left hPeak (by omega))⟩

/- Fields that the invariant of the throttle leaves open. -/
theorem ThrottleSound.with_clock
    {settings : ThrottleSettings}
    {t : ThrottleRun}
    (h : ThrottleSound settings t)
    (clock : Int)
    (acquiring : Bool) :
    ThrottleSound settings
      { t with clock := clock, acquiring := acquiring } :=
  ⟨h.enabled, h.settings_eq, h.utilization, h.current,
    h.tokens, h.apart, h.within⟩

namespace TokenSound

variable {cfg : LoopConfig}
variable {settings : ThrottleSettings}
variable {s s' : TokenLoop}

/- A closed window keeps to what was granted in it. -/
theorem rowThrottled
    (h : TokenSound cfg settings s)
    (hInside : s.loop.pc.inside = true)
    {now : Int}
    (hClock : s.loop.clock ≤ now) :
    RowThrottled settings
      (peakAllowance settings s.throttle.refills)
      (s.loop.rowAt now) := by
  have hGranted := h.granted hInside
  have hStarted := h.report.started hInside
  have hWidth := settings.windowNs_pos
  have hPeak :=
    one_le_peakAllowance settings s.throttle.refills
  have hLate :
      s.loop.windowStart ≤ now + settings.windowNs := by
    omega
  have hSince :=
    grantedSince_le hWidth (Int.le_trans (by decide) hPeak)
      h.throttle.apart
      (fun r hMem _ => granted_le_peak h.throttle.within hMem)
      hLate
      (fun r hHead => Int.le_trans (h.latest r hHead) hClock)
  refine ⟨?_, ?_⟩
  · change 0 ≤ now - s.loop.windowStart
    omega
  · change
      (s.loop.count : Int) ≤
        ((now - s.loop.windowStart) / settings.windowNs + 2) *
          _
    omega

/- A step of the loop uses a grant for each inference. -/
theorem work
    (hRechecks : cfg.rechecks = true)
    (h : TokenSound cfg settings s)
    (hGate : s.loop.pc = .gate → s.gate = .acquired)
    {now : Int}
    (hStep : s.work cfg now = some s') :
    TokenSound cfg settings s' := by
  rcases Option.map_eq_some_iff.mp hStep with
    ⟨loop, hLoop, rfl⟩
  have hTime := LoopState.advance_clock hLoop
  have hGranted := h.granted
  unfold TokenLoop.holds at hGranted
  refine
    { report := h.report.advance hLoop
      throttle := h.throttle.with_clock _ _
      clock := rfl
      latest := fun r hHead =>
        Int.le_trans (h.latest r hHead) hTime
      granted := ?_
      rows := ?_ }
  · unfold TokenLoop.holds
    cases LoopState.advance_move hLoop with
    | head hPc =>
        unfold LoopState.enterWindow
        split <;> exact fun hInside => by cases hInside
    | opening hPc => exact fun hInside => by cases hInside
    | begin hPc hClock =>
        exact fun _ => Nat.zero_le _
    | turn hPc =>
        have hHere := hGranted (by rw [hPc]; rfl)
        rw [hPc] at hHere
        unfold LoopState.enterTurn
        split
        · intro _
          simpa using hHere
        · intro _
          simpa using hHere
    | gate hPc =>
        have hHere := hGranted (by rw [hPc]; rfl)
        have hAcquired := hGate hPc
        unfold LoopState.leaveGate
        rw [hRechecks, Bool.true_and]
        split
        case isTrue hStop =>
          intro _
          simp only [hPc, hAcquired, hStop] at hHere ⊢
          simpa using hHere
        case isFalse hStop =>
          intro _
          simp only [hPc, hAcquired,
            Bool.eq_false_of_not_eq_true hStop] at hHere ⊢
          simpa using hHere
    | infer hPc =>
        have hHere := hGranted (by rw [hPc]; rfl)
        intro _
        simpa [hPc, LoopState.inferOne] using hHere
    | check hPc hClock =>
        have hHere := hGranted (by rw [hPc]; rfl)
        rw [hPc] at hHere
        unfold LoopState.checkTime
        intro _
        dsimp only
        split <;> simpa using hHere
    | close hPc hClock =>
        exact fun hInside => by cases hInside
    | closing hPc => exact fun hInside => by cases hInside
  · cases LoopState.advance_move hLoop with
    | head hPc =>
        unfold LoopState.enterWindow
        split <;> exact h.rows
    | turn hPc =>
        unfold LoopState.enterTurn
        split <;> exact h.rows
    | gate hPc =>
        unfold LoopState.leaveGate
        split <;> exact h.rows
    | close hPc hClock =>
        intro row hRow
        rcases List.mem_cons.mp hRow with rfl | hOld
        · exact h.rowThrottled (by rw [hPc]; rfl) hClock
        · exact h.rows row hOld
    | opening | begin | infer | check | closing =>
        exact h.rows

/- A turn of `Acquire` grants one call, or starts a window. -/
theorem turn
    (h : TokenSound cfg settings s)
    (hPc : s.loop.pc = .gate)
    {now later : Int}
    {seen : Option Str}
    (hStep : s.turn now later seen = some s') :
    TokenSound cfg settings s' := by
  rcases s with ⟨loop, gate, throttle⟩
  dsimp only at hPc
  unfold TokenLoop.turn at hStep
  split at hStep
  case isTrue hStop =>
    rw [← Option.some.inj hStep]
    refine
      { report := h.report
        throttle := h.throttle.with_clock _ _
        clock := h.clock
        latest := h.latest
        granted := fun hInside => ?_
        rows := h.rows }
    have hGranted := Nat.le_of_add_right_le (h.granted hInside)
    unfold TokenLoop.holds
    dsimp only at hStop ⊢
    rw [hPc, hStop]
    simpa using hGranted
  case isFalse hStop =>
    rcases Option.map_eq_some_iff.mp hStep with
      ⟨throttle', hTurn, rfl⟩
    have hSound := throttleSound_step h.throttle hTurn
    have hInside : loop.pc.inside = true := by
      rw [hPc]
      rfl
    have hStarted : loop.windowStart ≤ loop.clock :=
      h.report.started hInside
    have hGranted :
        loop.count ≤
          grantedSince settings.windowNs loop.windowStart
            throttle.refills :=
      Nat.le_of_add_right_le (h.granted hInside)
    have hWidth := settings.windowNs_pos
    have hClock : throttle.clock = loop.clock := h.clock
    have hLatest := h.latest
    have hEnabled : ¬ ¬ throttle.throttle.enabled = true :=
      not_not.mpr h.throttle.enabled
    dsimp only at hStop hTurn hLatest
    rw [throttleStep] at hTurn
    by_cases hEarly :
        ¬ throttle.acquiring = true ∨ now < throttle.clock
    · rw [if_pos hEarly] at hTurn
      cases hTurn
    · rw [if_neg hEarly, if_neg hEnabled] at hTurn
      split at hTurn
      case isTrue hMust =>
        split at hTurn
        · cases hTurn
        case isFalse hOrder =>
          -- A new window has granted nothing yet.
          rcases Option.bind_eq_some_iff.mp hTurn with
            ⟨refilled, hRefill, hEq⟩
          obtain rfl := Option.some.inj hEq
          have hLater : loop.clock ≤ later := by omega
          have hSince : loop.windowStart ≤ later := by omega
          refine
            { report := h.report.tick hLater
              throttle := hSound
              clock := rfl
              latest := fun r hHead => by
                rw [← Option.some.inj hHead]
              granted := fun _ => ?_
              rows := fun row hRow =>
                (h.rows row hRow).mono (le_max_right _ _) }
          have hOpen :
              ¬ later + settings.windowNs ≤
                loop.windowStart := by
            omega
          unfold TokenLoop.holds
          dsimp only
          rw [hPc, grantedSince, if_neg hOpen,
            if_neg (Int.not_lt.mpr hSince)]
          simpa using hGranted
      case isFalse hMust =>
        obtain rfl := Option.some.inj hTurn
        have hNow : loop.clock ≤ now := by omega
        have hInTime : now < throttle.throttle.windowEnd := by
          simp only [TokenThrottle.mustRefill,
            Bool.or_eq_true, decide_eq_true_eq] at hMust
          omega
        rcases h.throttle.current with
          ⟨first, older, hRefills, hEnd, _⟩
        dsimp only at hRefills hEnd
        have hOpen :
            loop.windowStart <
              first.time + settings.windowNs := by
          omega
        refine
          { report := h.report.tick hNow
            throttle := hSound
            clock := rfl
            latest := fun r hHead => ?_
            granted := fun _ => ?_
            rows := fun row hRow => ?_ }
        · rw [hRefills] at hLatest hHead
          rw [← Option.some.inj hHead]
          exact Int.le_trans (hLatest first rfl) hNow
        · have hHolds := TokenLoop.holds_le
          refine
            Nat.le_trans
              (Nat.add_le_add hGranted (hHolds _)) ?_
          dsimp only
          rw [hRefills]
          exact
            Nat.le_of_eq (grantedSince_grantOne older hOpen).symm
        · dsimp only
          rw [peakAllowance_grantOne]
          exact h.rows row hRow

theorem step
    (hRechecks : cfg.rechecks = true)
    (h : TokenSound cfg settings s)
    {e : TokenEvent}
    (hStep : tokenLoopStep cfg s e = some s') :
    TokenSound cfg settings s' := by
  cases e with
  | stop =>
      rw [← Option.some.inj hStep]
      refine
        { h with
          report := h.report.request
          granted := fun hInside => ?_ }
      refine Nat.le_trans (Nat.add_le_add_left ?_ _)
        (h.granted hInside)
      unfold TokenLoop.holds
      split
      case isTrue hHolds =>
        rcases hHolds with hInfer | ⟨_, _, hFalse⟩
        · rw [if_pos (Or.inl hInfer)]
        · cases hFalse
      case isFalse => exact Nat.zero_le _
  | step now =>
      rw [tokenLoopStep] at hStep
      split at hStep
      case isTrue hPc =>
        cases hGate : s.gate with
        | acquiring =>
            rw [hGate] at hStep
            cases hStep
        | acquired =>
            rw [hGate] at hStep
            exact h.work hRechecks (fun _ => hGate) hStep
        | calling =>
            rw [hGate] at hStep
            rcases Option.map_eq_some_iff.mp hStep with
              ⟨throttle, hCall, rfl⟩
            have hSound := throttleSound_step h.throttle hCall
            rw [throttleStep] at hCall
            split at hCall
            case isTrue => cases hCall
            case isFalse =>
              obtain rfl := Option.some.inj hCall
              refine
                { h with
                  throttle := hSound
                  granted := fun hInside => ?_ }
              have hGranted :=
                Nat.le_of_add_right_le (h.granted hInside)
              unfold TokenLoop.holds
              dsimp only
              rw [hPc]
              simpa using hGranted
      case isFalse hPc =>
        exact
          h.work hRechecks (fun hAt => absurd hAt hPc) hStep
  | turn now later seen =>
      rw [tokenLoopStep] at hStep
      split at hStep
      case isTrue hAt => exact h.turn hAt.1 hStep
      case isFalse => cases hStep

theorem start
    {built now : Int}
    {seen : Option Str}
    (hStart :
      tokenLoopStart true settings built seen now = some s) :
    TokenSound cfg settings s := by
  rcases Option.bind_eq_some_iff.mp hStart with
    ⟨throttle, hThrottle, hRest⟩
  have hSound := throttleSound_start hThrottle
  split at hRest
  case isFalse => cases hRest
  case isTrue hTime =>
    obtain rfl := Option.some.inj hRest
    refine
      { report := .start cfg now
        throttle := hSound.with_clock _ _
        clock := rfl
        latest := fun r hHead => ?_
        granted := fun hInside => by cases hInside
        rows := fun row hRow => by cases hRow }
    rcases Option.bind_eq_some_iff.mp hThrottle with
      ⟨refilled, _, hEq⟩
    obtain rfl := Option.some.inj hEq
    rw [← Option.some.inj hHead]
    exact hTime

end TokenSound

end Drex

------------------------------------------------------------
-- Whole Runs
------------------------------------------------------------

namespace Drex

open Drex.Core

/-
  Whatever the file says over time and whenever a stop
  comes, a row reports no more inferences than the windows
  of the throttle that it meets, and one more, allow at the
  largest value of the file.
-/
theorem report_throttled
    {cfg : LoopConfig}
    (hRechecks : cfg.rechecks = true)
    {settings : ThrottleSettings}
    {built now : Int}
    {seen : Option Str}
    {start s : TokenLoop}
    (hStart :
      tokenLoopStart true settings built seen now = some start)
    (h : Reaches (tokenLoopStep cfg) start s)
    {limit : Int}
    (hLimit :
      ∀ r older, r :: older <:+ s.throttle.refills →
        lastRead settings (r :: older) ≤ limit) :
    SoundReport cfg s.loop ∧
      ∀ row ∈ s.loop.rows,
        (row.iterations : Int) ≤
          (row.windowNs / settings.windowNs + 2) *
            max 1 (limit * settings.quotaUnit) := by
  have hSound : TokenSound cfg settings s := by
    refine Reaches.invariant (.start hStart) ?_ h
    intro s e s' hSound hStep
    exact hSound.step hRechecks hStep
  refine ⟨hSound.report.soundReport, fun row hRow => ?_⟩
  exact
    ((hSound.rows row hRow).mono
      (peakAllowance_le hLimit)).iterations

/- One second, with a look at the flag before inferences. -/
def oneSecond : LoopConfig :=
  { durationSec := 1
    windowSec := 1
    rechecks := true
    duration_pos := by decide
    window_pos := by decide
    fits := by decide }

/- Two inferences, a sleep, and one more in its window. -/
def oneSecondRun : List TokenEvent :=
  [.step 1, .step 1, .step 1,
    .step 1, .step 1, .turn 2 2 none, .step 2, .step 2,
    .step 3,
    .step 3, .step 3, .turn 4 4 none, .step 4, .step 4,
    .step 5,
    .step 5, .step 5, .turn 6 1000000000 none,
    .turn 1000000000 1000000000 none, .step 0, .step 0,
    .step 1000000001,
    .step 1000000002, .step 0, .step 0]

theorem report_throttled_second :
    ∃ s : TokenLoop,
      s.loop.rows.map WindowRow.iterations = [3] ∧
        SoundReport oneSecond s.loop ∧
          ∀ row ∈ s.loop.rows,
            (row.iterations : Int) ≤
              (row.windowNs / secondSettings.windowNs + 2) *
                max 1 (2 * secondSettings.quotaUnit) := by
  have hRun :
      (tokenLoopStart true secondSettings 0
          (some "2\n".toList) 1).any
        (fun start =>
          (runLabels (tokenLoopStep oneSecond) oneSecondRun
              start).any
            (fun s =>
              decide
                (s.loop.rows.map WindowRow.iterations =
                    [3] ∧
                  ∀ refills ∈ s.throttle.refills.tails,
                    refills = [] ∨
                      lastRead secondSettings refills ≤
                        2))) =
        true := by
    decide +kernel
  rcases (Option.any_eq_true _ _).mp hRun with
    ⟨start, hStart, hAny⟩
  rcases reaches_of_any hAny with ⟨s, hReach, hCheck⟩
  rcases of_decide_eq_true hCheck with ⟨hRows, hValues⟩
  refine
    ⟨s, hRows,
      report_throttled rfl hStart hReach fun r older h => ?_⟩
  have hTail := hValues _ ((List.mem_tails _ _).mpr h)
  exact hTail.resolve_left (List.cons_ne_nil _ _)

end Drex
