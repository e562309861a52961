import Drex.Core.Runs
import Drex.Server.Discovery

/-
  The token throttle of the GPU loop: it grants as many
  calls in a window as its last reading of the utilization
  file allows, and then sleeps to the end of the window.

  Readings of the clock are nanoseconds.  A result that is
  no `long` is no behaviour of the program: there is no step
  for it.

  Key definitions include:
    * `ThrottleSettings`
    * `TokenThrottle.refill`
    * `throttleStep`
    * `lastRead`
    * `ThrottleSound`

  Key theorems include:
    * `throttleSound_step`
    * `throttle_rate`
-/

------------------------------------------------------------
-- Settings
------------------------------------------------------------

namespace Drex

/- A number where it is a `long`. -/
def long? (n : Int) : Option Int :=
  if -9223372036854775808 ≤ n ∧ n ≤ 9223372036854775807 then
    some n
  else
    none

/- `strtol`, which stops at the ends of a `long`. -/
def saturate (n : Int) : Int :=
  max (-9223372036854775808) (min 9223372036854775807 n)

/- `ParsePositiveLong`. -/
def parsePositiveLong
    (value : Option Str)
    (fallback : Int) :
    Int :=
  match value with
  | none => fallback
  | some text =>
      match strtol text with
      | none => fallback
      | some (n, rest) =>
          if rest ≠ [] ∨ saturate n ≤ 0 then
            fallback
          else
            saturate n

theorem parsePositiveLong_pos
    (value : Option Str)
    {fallback : Int}
    (h : 0 < fallback) :
    0 < parsePositiveLong value fallback := by
  unfold parsePositiveLong
  cases value with
  | none => exact h
  | some text =>
      simp only []
      rcases strtol text with _ | ⟨n, rest⟩
      · exact h
      · simp only []
        split
        · exact h
        · omega

/- What the constructor takes from the environment. -/
structure ThrottleSettings where
  quotaUnit : Int
  windowMs : Int
  utilizationFile : Str
  quota_pos : 0 < quotaUnit
  window_pos : 0 < windowMs

/- The settings for the values of three variables. -/
def throttleSettings
    (quotaUnit windowMs utilizationFile : Option Str) :
    ThrottleSettings :=
  { quotaUnit := parsePositiveLong quotaUnit 1
    windowMs := parsePositiveLong windowMs 1000
    utilizationFile := utilizationFile.getD []
    quota_pos := parsePositiveLong_pos _ (by omega)
    window_pos := parsePositiveLong_pos _ (by omega) }

/- The window in nanoseconds. -/
def ThrottleSettings.windowNs (c : ThrottleSettings) : Int :=
  c.windowMs * 1000000

end Drex

------------------------------------------------------------
-- The Throttle
------------------------------------------------------------

namespace Drex

/- `TokenThrottle`. -/
structure TokenThrottle where
  enabled : Bool
  settings : ThrottleSettings
  utilization : Int
  tokens : Int
  windowEnd : Int

namespace TokenThrottle

variable (t : TokenThrottle)

/-
  `ReadUtilization`, on the text of the file where it can be
  opened.
-/
def readUtilization (seen : Option Str) : Int :=
  if t.settings.utilizationFile = [] then
    100
  else
    match seen.bind readLong with
    | none => t.utilization
    | some (value, _) =>
        if value < 0 then
          0
        else if 100 < value then
          100
        else
          value

/- `Refill`. -/
def refill
    (now : Int)
    (seen : Option Str) :
    Option TokenThrottle :=
  if t.enabled then do
    let utilization := t.readUtilization seen
    let product ← long? (utilization * t.settings.quotaUnit)
    let window ← long? (t.settings.windowMs * 1000000)
    let windowEnd ← long? (now + window)
    return { t with
      utilization := utilization
      tokens := max 1 product
      windowEnd := windowEnd }
  else
    return t

/- The constructor, at its reading of the clock. -/
def construct
    (enabled : Bool)
    (settings : ThrottleSettings)
    (now : Int)
    (seen : Option Str) :
    Option TokenThrottle :=
  refill
    { enabled := enabled
      settings := settings
      utilization := 100
      tokens := 100
      windowEnd := now }
    now seen

/- The loop of `Acquire` refills at this reading. -/
def mustRefill (now : Int) : Bool :=
  decide (t.windowEnd ≤ now) || decide (t.tokens ≤ 0)

/- It sleeps to the end of the window before it refills. -/
def sleeps (now : Int) : Bool :=
  decide (now < t.windowEnd) && decide (t.tokens ≤ 0)

end TokenThrottle

end Drex

------------------------------------------------------------
-- Calls Of Acquire
------------------------------------------------------------

namespace Drex

/-
  A refill: when it was made, what it read of the file, and
  the calls that were granted since.
-/
structure Refilled where
  time : Int
  seen : Option Str
  granted : Nat
deriving DecidableEq

/-
  The throttle between two turns of the loop, the last
  reading of the clock, and the refills, newest first.
-/
structure ThrottleRun where
  throttle : TokenThrottle
  clock : Int
  acquiring : Bool
  refills : List Refilled

/-
  `Acquire` is called, or takes one turn of its loop, with
  two readings of the clock and a text of the file.
-/
inductive ThrottleLabel
| acquire
| turn (now later : Int) (seen : Option Str)

/- One more call was granted since the last refill. -/
def grantOne : List Refilled → List Refilled
| [] => []
| r :: older => { r with granted := r.granted + 1 } :: older

/-
  One turn of the loop without a stop.  The clock does not
  run backwards, and a sleep ends after its time point.
-/
def throttleStep
    (s : ThrottleRun) :
    ThrottleLabel → Option ThrottleRun
| .acquire =>
    if s.acquiring then
      none
    else
      some { s with acquiring := true }
| .turn now later seen =>
    if ¬ s.acquiring ∨ now < s.clock then
      none
    else if ¬ s.throttle.enabled then
      some { s with acquiring := false }
    else if s.throttle.mustRefill now then
      if later < now ∨
          (s.throttle.sleeps now ∧
            later < s.throttle.windowEnd) then
        none
      else do
        let throttle ← s.throttle.refill later seen
        return {
          throttle := throttle
          clock := later
          acquiring := true
          refills := ⟨later, seen, 0⟩ :: s.refills }
    else
      some
        { throttle :=
            { s.throttle with tokens := s.throttle.tokens - 1 }
          clock := now
          acquiring := false
          refills := grantOne s.refills }

/- A throttle that was just constructed. -/
def throttleStart
    (enabled : Bool)
    (settings : ThrottleSettings)
    (now : Int)
    (seen : Option Str) :
    Option ThrottleRun := do
  let throttle ←
    TokenThrottle.construct enabled settings now seen
  return {
    throttle := throttle
    clock := now
    acquiring := false
    refills := [⟨now, seen, 0⟩] }

end Drex

------------------------------------------------------------
-- The Rate
------------------------------------------------------------

namespace Drex

/- A well-formed text of the file, clamped to [0, 100]. -/
def Refilled.value? (r : Refilled) : Option Int :=
  (r.seen.bind readLong).map
    (fun read => max 0 (min 100 read.1))

/-
  The last well-formed value read at a refill, clamped, and
  100 if there was none.
-/
def lastRead
    (settings : ThrottleSettings)
    (refills : List Refilled) :
    Int :=
  if settings.utilizationFile = [] then
    100
  else
    (refills.filterMap Refilled.value?).head?.getD 100

/- The calls that a refill is good for. -/
def allowance
    (settings : ThrottleSettings)
    (refills : List Refilled) :
    Int :=
  max 1 (lastRead settings refills * settings.quotaUnit)

theorem lastRead_range
    (settings : ThrottleSettings)
    (refills : List Refilled) :
    0 ≤ lastRead settings refills ∧
      lastRead settings refills ≤ 100 := by
  unfold lastRead
  split
  · omega
  · cases hHead :
        (refills.filterMap Refilled.value?).head? with
    | none => exact ⟨by decide, by decide⟩
    | some u =>
        have hMem := List.mem_of_mem_head? hHead
        rcases List.mem_filterMap.mp hMem with ⟨r, _, hValue⟩
        rcases Option.map_eq_some_iff.mp hValue with
          ⟨read, _, rfl⟩
        simp only [Option.getD_some]
        omega

/- What a refill reads is the last reading after it. -/
theorem readUtilization_eq
    {t : TokenThrottle}
    {refills : List Refilled}
    (hLast : t.utilization = lastRead t.settings refills)
    (time : Int)
    (seen : Option Str) :
    t.readUtilization seen =
      lastRead t.settings (⟨time, seen, 0⟩ :: refills) := by
  unfold TokenThrottle.readUtilization
  rw [hLast]
  unfold lastRead
  by_cases hFile : t.settings.utilizationFile = []
  · rw [if_pos hFile, if_pos hFile]
  · rw [if_neg hFile, if_neg hFile]
    rcases hRead : seen.bind readLong with _ | ⟨value, rest⟩
    · have hValue :
          Refilled.value? ⟨time, seen, 0⟩ = none := by
        simp [Refilled.value?, hRead]
      rw [List.filterMap_cons_none hValue, if_neg hFile]
    · have hValue :
          Refilled.value? ⟨time, seen, 0⟩ =
            some (max 0 (min 100 value)) := by
        simp [Refilled.value?, hRead]
      rw [List.filterMap_cons_some hValue, List.head?_cons,
        Option.getD_some]
      simp only []
      split
      · omega
      · split <;> omega

/-
  What holds between two turns: the tokens and the grants
  make up what the last refill was good for, and older
  windows are over and were kept to.
-/
structure ThrottleSound
    (settings : ThrottleSettings)
    (s : ThrottleRun) : Prop where
  enabled : s.throttle.enabled = true
  settings_eq : s.throttle.settings = settings
  utilization :
    s.throttle.utilization = lastRead settings s.refills
  current :
    ∃ r older, s.refills = r :: older ∧
      s.throttle.windowEnd = r.time + settings.windowNs ∧
        s.throttle.tokens + r.granted =
          allowance settings s.refills
  tokens : 0 ≤ s.throttle.tokens
  apart :
    s.refills.IsChain
      (fun later earlier =>
        earlier.time + settings.windowNs ≤ later.time)
  within :
    ∀ r older, r :: older <:+ s.refills →
      (r.granted : Int) ≤ allowance settings (r :: older)

/- A refill that stays in range. -/
theorem refill_eq_some
    {t t' : TokenThrottle}
    {now : Int}
    {seen : Option Str}
    (hEnabled : t.enabled = true)
    (h : t.refill now seen = some t') :
    t' =
      { t with
        utilization := t.readUtilization seen
        tokens :=
          max 1
            (t.readUtilization seen * t.settings.quotaUnit)
        windowEnd := now + t.settings.windowNs } := by
  have hLong :
      ∀ {m n : Int}, long? m = some n → m = n := by
    intro m n hSome
    unfold long? at hSome
    split at hSome
    · exact Option.some.inj hSome
    · cases hSome
  unfold TokenThrottle.refill at h
  rw [if_pos hEnabled] at h
  simp only [Option.bind_eq_bind, Option.bind_eq_some_iff,
    Option.pure_def] at h
  rcases h with
    ⟨product, hProduct, window, hWindow, windowEnd, hEnd,
      hEq⟩
  rw [← Option.some.inj hEq, ← hLong hEnd, ← hLong hWindow,
    ← hLong hProduct]
  rfl

namespace ThrottleSound

variable {settings : ThrottleSettings} {s : ThrottleRun}

/- A refill starts a window with its whole allowance. -/
theorem refilled
    (h : ThrottleSound settings s)
    {later : Int}
    {seen : Option Str}
    {throttle : TokenThrottle}
    (hOver : s.throttle.windowEnd ≤ later)
    (hRefill :
      s.throttle.refill later seen = some throttle) :
    ThrottleSound settings
      { throttle := throttle
        clock := later
        acquiring := true
        refills := ⟨later, seen, 0⟩ :: s.refills } := by
  have hLast :
      s.throttle.utilization =
        lastRead s.throttle.settings s.refills := by
    rw [h.settings_eq]
    exact h.utilization
  have hRead := readUtilization_eq hLast later seen
  rw [h.settings_eq] at hRead
  have hEq := refill_eq_some h.enabled hRefill
  rw [h.settings_eq, hRead] at hEq
  rcases h.current with ⟨r, older, hRefills, hEnd, _⟩
  rw [hEq]
  refine
    { enabled := h.enabled
      settings_eq := rfl
      utilization := rfl
      current := ⟨_, _, rfl, rfl, Int.add_zero _⟩
      tokens := ?_
      apart := ?_
      within := ?_ }
  · exact le_trans Int.one_nonneg (le_max_left _ _)
  · have hApart := h.apart
    rw [hRefills] at hApart
    rw [hRefills, List.isChain_cons_cons, ← hEnd]
    exact ⟨hOver, hApart⟩
  · intro r' older' hSuffix
    rcases List.suffix_cons_iff.mp hSuffix with hHead | hTail
    · cases hHead
      exact le_trans Int.one_nonneg (le_max_left _ _)
    · exact h.within r' older' hTail

/- A grant uses one token of the window. -/
theorem granted
    (h : ThrottleSound settings s)
    (now : Int)
    (hToken : 0 < s.throttle.tokens) :
    ThrottleSound settings
      { throttle :=
          { s.throttle with tokens := s.throttle.tokens - 1 }
        clock := now
        acquiring := false
        refills := grantOne s.refills } := by
  rcases h.current with
    ⟨r, older, hRefills, hEnd, hTokens⟩
  have hGrant :
      grantOne s.refills =
        { r with granted := r.granted + 1 } :: older := by
    rw [hRefills]
    rfl
  have hAllowance :
      allowance settings
          ({ r with granted := r.granted + 1 } :: older) =
        allowance settings s.refills := by
    rw [hRefills]
    rfl
  rw [hGrant]
  refine
    { enabled := h.enabled
      settings_eq := h.settings_eq
      utilization := ?_
      current := ⟨_, _, rfl, hEnd, ?_⟩
      tokens := by
        change 0 ≤ s.throttle.tokens - 1
        omega
      apart := ?_
      within := ?_ }
  · change s.throttle.utilization = _
    rw [h.utilization, hRefills]
    rfl
  · change
      s.throttle.tokens - 1 + ((r.granted + 1 : Nat) : Int) =
        allowance settings _
    rw [hAllowance, ← hTokens]
    omega
  · have hApart := h.apart
    rw [hRefills] at hApart
    cases hApart with
    | singleton => exact .singleton _
    | cons_cons hFirst hRest => exact .cons_cons hFirst hRest
  · intro r' older' hSuffix
    rcases List.suffix_cons_iff.mp hSuffix with hHead | hTail
    · cases hHead
      change ((r.granted + 1 : Nat) : Int) ≤ allowance _ _
      rw [hAllowance, ← hTokens]
      omega
    · apply h.within r' older'
      rw [hRefills]
      exact hTail.trans (List.suffix_cons r older)

end ThrottleSound

/- One turn of the loop keeps the invariant. -/
theorem throttleSound_step
    {settings : ThrottleSettings}
    {s s' : ThrottleRun}
    {l : ThrottleLabel}
    (h : ThrottleSound settings s)
    (hStep : throttleStep s l = some s') :
    ThrottleSound settings s' := by
  cases l with
  | acquire =>
      rw [throttleStep] at hStep
      by_cases hAcquiring : s.acquiring = true
      · rw [if_pos hAcquiring] at hStep
        cases hStep
      · rw [if_neg hAcquiring] at hStep
        rw [← Option.some.inj hStep]
        exact
          ⟨h.enabled, h.settings_eq, h.utilization,
            h.current, h.tokens, h.apart, h.within⟩
  | turn now later seen =>
      have hEnabled : ¬ ¬ s.throttle.enabled = true :=
        not_not.mpr h.enabled
      rw [throttleStep] at hStep
      by_cases hLate :
          ¬ s.acquiring = true ∨ now < s.clock
      · rw [if_pos hLate] at hStep
        cases hStep
      · rw [if_neg hLate, if_neg hEnabled] at hStep
        by_cases hMust : s.throttle.mustRefill now = true
        · rw [if_pos hMust] at hStep
          by_cases hTime :
              later < now ∨
                s.throttle.sleeps now = true ∧
                  later < s.throttle.windowEnd
          · rw [if_pos hTime] at hStep
            cases hStep
          · rw [if_neg hTime] at hStep
            rcases Option.bind_eq_some_iff.mp hStep with
              ⟨throttle, hRefill, hEq⟩
            rw [← Option.some.inj hEq]
            refine h.refilled ?_ hRefill
            -- The window is over, or the sleep was to its end.
            simp only [TokenThrottle.mustRefill,
              TokenThrottle.sleeps, Bool.or_eq_true,
              Bool.and_eq_true, decide_eq_true_eq]
              at hMust hTime
            omega
        · rw [if_neg hMust] at hStep
          rw [← Option.some.inj hStep]
          refine h.granted now ?_
          simp only [TokenThrottle.mustRefill,
            Bool.or_eq_true, decide_eq_true_eq] at hMust
          omega

/- A constructed throttle has made its first refill. -/
theorem throttleSound_start
    {settings : ThrottleSettings}
    {now : Int}
    {seen : Option Str}
    {start : ThrottleRun}
    (hStart :
      throttleStart true settings now seen = some start) :
    ThrottleSound settings start := by
  rcases Option.bind_eq_some_iff.mp hStart with
    ⟨throttle, hConstruct, hEq⟩
  rw [← Option.some.inj hEq]
  have hRefill := refill_eq_some rfl hConstruct
  have hNone :
      (100 : Int) = lastRead settings [] := by
    unfold lastRead
    split <;> rfl
  have hRead :
      TokenThrottle.readUtilization
          ⟨true, settings, 100, 100, now⟩ seen =
        lastRead settings [⟨now, seen, 0⟩] :=
    readUtilization_eq hNone now seen
  rw [hRead] at hRefill
  rw [hRefill]
  refine
    { enabled := rfl
      settings_eq := rfl
      utilization := rfl
      current := ⟨_, _, rfl, rfl, Int.add_zero _⟩
      tokens :=
        le_trans Int.one_nonneg (le_max_left _ _)
      apart := .singleton _
      within := ?_ }
  intro r older hSuffix
  rcases List.suffix_cons_iff.mp hSuffix with hHead | hTail
  · cases hHead
    exact le_trans Int.one_nonneg (le_max_left _ _)
  · exact absurd (List.suffix_nil.mp hTail) (by simp)

/-
  Two refills in a row are a window apart, and the calls
  granted since a refill are no more than what the last
  well-formed value of the file allows.
-/
theorem throttle_rate
    {settings : ThrottleSettings}
    {now : Int}
    {seen : Option Str}
    {start s : ThrottleRun}
    (hStart :
      throttleStart true settings now seen = some start)
    (h : Core.Reaches throttleStep start s) :
    s.refills.IsChain
        (fun later earlier =>
          earlier.time + settings.windowNs ≤ later.time) ∧
      ∀ r older, r :: older <:+ s.refills →
        (r.granted : Int) ≤
            max 1
              (lastRead settings (r :: older) *
                settings.quotaUnit) ∧
          0 ≤ lastRead settings (r :: older) ∧
            lastRead settings (r :: older) ≤ 100 := by
  have hSound : ThrottleSound settings s :=
    h.invariant (throttleSound_start hStart)
      fun _ _ _ hSound hStep =>
        throttleSound_step hSound hStep
  refine ⟨hSound.apart, ?_⟩
  intro r older hSuffix
  exact
    ⟨hSound.within r older hSuffix,
      lastRead_range settings (r :: older)⟩

/- One token for each percent, and windows of a second. -/
def secondSettings : ThrottleSettings :=
  throttleSettings none none (some "utilization".toList)

/-
  The file says 2 and is then gone: two calls are granted,
  the third sleeps, and the value is kept.
-/
theorem throttle_rate_second :
    ∃ s : ThrottleRun,
      s.refills.map Refilled.granted = [1, 2] ∧
        s.refills.IsChain
            (fun later earlier =>
              earlier.time + secondSettings.windowNs ≤
                later.time) ∧
          ∀ r older, r :: older <:+ s.refills →
            (r.granted : Int) ≤
                max 1
                  (lastRead secondSettings (r :: older) *
                    secondSettings.quotaUnit) ∧
              0 ≤ lastRead secondSettings (r :: older) ∧
                lastRead secondSettings (r :: older) ≤
                  100 := by
  have hRun :
      (throttleStart true secondSettings 0
          (some "2\n".toList)).any
        (fun start =>
          (Core.runLabels throttleStep
              [.acquire, .turn 1 1 none,
                .acquire, .turn 2 2 none,
                .acquire, .turn 3 1000000005 none,
                .turn 1000000006 1000000006 none]
              start).any
            (fun s =>
              decide
                (s.refills.map Refilled.granted =
                  [1, 2]))) =
        true := by
    decide +kernel
  rcases (Option.any_eq_true _ _).mp hRun with
    ⟨start, hStart, hAny⟩
  rcases Core.reaches_of_any hAny with
    ⟨s, hReach, hGranted⟩
  exact
    ⟨s, of_decide_eq_true hGranted,
      throttle_rate hStart hReach⟩

end Drex
