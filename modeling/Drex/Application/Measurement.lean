import Drex.Application.TimeSlice

/-
  The counts that the time-slice driver prints.

  `MeasureSound` relates them to each other and to the
  window.  It holds in a run whose steps all meet
  `TimeSlice.drains`: a stop neither cuts a drain short nor
  lets one more kernel through a full window.

  Key definitions include:
    * `TimeSlice.drains`
    * `MeasureSound`
    * `SliceCounts`

  Key theorems include:
    * `SliceCounts.advance`
    * `SliceCounts.work`
    * `measurement_sound`
-/

------------------------------------------------------------
-- Counts
------------------------------------------------------------

namespace Drex

open Drex.Core

/- The cleanup section. -/
def Driver.cleaning : Driver → Bool
| .restore => true
| .closing => true
| .joinWorker => true
| .returned => true
| _ => false

namespace TimeSlice

variable (cfg : SliceConfig) (s : TimeSlice)

/-
  The steps that keep the counts.  A drain ends with all its
  kernels or with an error, a full window is left with an
  error, at the deadline or for the wait for tokens, and no
  counter of 64 bits comes to its end.
-/
def drains : SliceEvent → Bool
| .drive seen =>
    match s.pc with
    | .window _ =>
        decide (s.submitted + 1 < 2 ^ 64) &&
          (!s.windowFull cfg || !s.stop ||
            decide (s.workerResult ≠ .success) ||
            decide (s.deadline ≤ seen.now) ||
            s.needsToken cfg)
    | .tokensLeft _ => decide (s.submitted + 1 < 2 ^ 64)
    | .drain target =>
        decide (target ≤ s.completed) || !s.stop ||
          decide (s.workerResult ≠ .success)
    | _ => true
| _ => true

/- A slot of the window is free. -/
def HasSlot : Prop :=
  s.submitted < s.completed + cfg.window

/- The measurement began with nothing in flight. -/
def Measures (measured : Bool) : Prop :=
  measured = true →
    s.baseCompleted = s.baseSubmitted ∧
      s.baseSubmitted ≤ s.completed

/- What the samples of the measurement are. -/
def Sampled : Prop :=
  s.baseCompleted = s.baseSubmitted ∧
    s.baseSubmitted ≤ s.endCompleted ∧
      s.endCompleted ≤ s.endSubmitted ∧
        s.endSubmitted ≤ s.endCompleted + cfg.window ∧
          s.endSubmitted < 2 ^ 64

/- What the driver knows of the counts. -/
def CountsAt : Driver → Prop
| .initialise _ => s.submitted = 0
| .discover => s.submitted = 0
| .driveStart measured => s.Measures measured
| .driveTop measured => s.Measures measured
| .window measured => s.Measures measured
| .tokens measured =>
    s.Measures measured ∧ (s.HasSlot cfg ∨ s.stop = true)
| .tokensLeft measured =>
    s.Measures measured ∧ (s.HasSlot cfg ∨ s.stop = true)
| .launch measured _ => s.Measures measured
| .drainStart => True
| .drain target => target = s.submitted
| .sampleBase => s.submitted ≤ s.completed
| .sampleEnd => s.Measures true
| .print => s.Sampled cfg
| _ => True

/- A completion or a stop takes nothing away. -/
theorem countsAt_mono
    {cfg : SliceConfig}
    {s s' : TimeSlice}
    {pc : Driver}
    (h : s.CountsAt cfg pc)
    (hSubmitted : s'.submitted = s.submitted)
    (hCompleted : s.completed ≤ s'.completed)
    (hSamples :
      (s'.baseCompleted, s'.baseSubmitted, s'.endCompleted,
          s'.endSubmitted) =
        (s.baseCompleted, s.baseSubmitted, s.endCompleted,
          s.endSubmitted))
    (hStop : s.stop = true → s'.stop = true) :
    s'.CountsAt cfg pc := by
  simp only [Prod.mk.injEq] at hSamples
  rcases hSamples with ⟨hBaseC, hBaseS, hEndC, hEndS⟩
  have hMeasures :
      ∀ measured, s.Measures measured →
        s'.Measures measured := by
    intro measured hOld hOn
    rcases hOld hOn with ⟨hBase, hSince⟩
    rw [hBaseC, hBaseS]
    exact ⟨hBase, Nat.le_trans hSince hCompleted⟩
  have hSlot : s.HasSlot cfg → s'.HasSlot cfg := by
    unfold HasSlot
    rw [hSubmitted]
    omega
  cases pc with
  | initialise stage => exact hSubmitted.trans h
  | discover => exact hSubmitted.trans h
  | driveStart measured | driveTop measured | window measured =>
      exact hMeasures measured h
  | launch measured kernelId => exact hMeasures measured h
  | tokens measured | tokensLeft measured =>
      exact ⟨hMeasures measured h.1, h.2.imp hSlot hStop⟩
  | drain target => exact h.trans hSubmitted.symm
  | sampleBase =>
      change s.submitted ≤ s.completed at h
      change s'.submitted ≤ s'.completed
      omega
  | sampleEnd => exact hMeasures true h
  | print =>
      change s'.Sampled cfg
      unfold Sampled
      rw [hBaseC, hBaseS, hEndC, hEndS]
      exact h
  | _ => trivial

end TimeSlice

/-
  The printed counts are exact differences of the samples,
  and no more kernels are in flight than the window holds.
-/
def MeasureSound
    (cfg : SliceConfig)
    (s : TimeSlice) : Prop :=
  ∀ completed submitted,
    s.printed = some (completed, submitted) →
      s.baseCompleted + completed = s.endCompleted ∧
        s.baseSubmitted + submitted = s.endSubmitted ∧
          completed ≤ submitted ∧
            submitted ≤ completed + cfg.window

/-
  The counters are in order, the window is kept to, and what
  was printed is sound.
-/
structure SliceCounts
    (cfg : SliceConfig)
    (s : TimeSlice) : Prop where
  completed_le : s.completed ≤ s.submitted
  inFlight : s.submitted ≤ s.completed + cfg.window
  small : s.submitted < 2 ^ 64
  waited : s.waited = s.completed
  waiting : s.worker = .waiting → s.waited < s.submitted
  place : s.CountsAt cfg s.pc
  unprinted : s.pc.cleaning = false → s.printed = none
  sound : MeasureSound cfg s

namespace SliceCounts

variable {cfg : SliceConfig} {s : TimeSlice}

theorem windowFull_iff
    (h : SliceCounts cfg s) :
    s.windowFull cfg = true ↔
      s.completed + cfg.window ≤ s.submitted := by
  have hLe := h.completed_le
  unfold TimeSlice.windowFull
  rw [decide_eq_true_iff, wrapSub_of_le hLe h.small]
  omega

/- A step of the driver that counts and prints nothing. -/
theorem goOn
    (h : SliceCounts cfg s)
    (hBusy : s.pc.cleaning = false)
    {s' : TimeSlice}
    (hCounts :
      (s'.submitted, s'.completed, s'.waited, s'.printed) =
        (s.submitted, s.completed, s.waited, s.printed))
    (hWorker : s'.worker = .waiting → s.worker = .waiting)
    (hPlace : s'.CountsAt cfg s'.pc) :
    SliceCounts cfg s' := by
  simp only [Prod.mk.injEq] at hCounts
  rcases hCounts with
    ⟨hSubmitted, hCompleted, hWaited, hPrinted⟩
  have hNone : s'.printed = none :=
    hPrinted.trans (h.unprinted hBusy)
  refine
    { completed_le := ?_
      inFlight := ?_
      small := ?_
      waited := ?_
      waiting := ?_
      place := hPlace
      unprinted := fun _ => hNone
      sound := ?_ }
  · rw [hCompleted, hSubmitted]
    exact h.completed_le
  · rw [hCompleted, hSubmitted]
    exact h.inFlight
  · rw [hSubmitted]
    exact h.small
  · rw [hWaited, hCompleted]
    exact h.waited
  · rw [hWaited, hSubmitted]
    exact fun hWaits => h.waiting (hWorker hWaits)
  · intro completed submitted hSome
    rw [hNone] at hSome
    cases hSome

theorem leave
    (h : SliceCounts cfg s)
    (hBusy : s.pc.cleaning = false)
    (r : DocaError) :
    SliceCounts cfg (s.leave r) :=
  h.goOn hBusy rfl id trivial

theorem initialise
    (h : SliceCounts cfg s)
    (hBusy : s.pc.cleaning = false)
    (hNone : s.submitted = 0)
    (stage : SliceStage)
    (r : DocaError) :
    SliceCounts cfg (s.initialise r stage) := by
  cases stage with
  | compEvent | mutex | cond =>
      rw [TimeSlice.initialise]
      split
      · exact h.goOn hBusy rfl id hNone
      · exact h.leave hBusy _
  | worker =>
      rw [TimeSlice.initialise]
      split
      · exact
          h.goOn hBusy rfl (fun hWaits => by cases hWaits)
            hNone
      · exact h.leave hBusy _

theorem discover
    (h : SliceCounts cfg s)
    (hBusy : s.pc.cleaning = false)
    (hNone : s.submitted = 0)
    (queue : Nat) :
    SliceCounts cfg (s.discover cfg queue) := by
  unfold TimeSlice.discover
  by_cases hWarm : cfg.warmupMs = 0
  · rw [if_pos hWarm]
    refine h.goOn hBusy rfl id ?_
    change s.submitted ≤ s.completed
    omega
  · rw [if_neg hWarm]
    exact h.goOn hBusy rfl id fun hFalse => by cases hFalse

theorem endDrive
    (h : SliceCounts cfg s)
    (hBusy : s.pc.cleaning = false)
    {measured : Bool}
    (hPlace : s.Measures measured) :
    SliceCounts cfg (s.endDrive measured) := by
  cases measured with
  | true => exact h.goOn hBusy rfl id hPlace
  | false => exact h.goOn hBusy rfl id trivial

theorem enterDrive
    (h : SliceCounts cfg s)
    (hBusy : s.pc.cleaning = false)
    {measured : Bool}
    (hPlace : s.Measures measured) :
    SliceCounts cfg (s.enterDrive measured) := by
  unfold TimeSlice.enterDrive
  split
  · exact h.endDrive hBusy hPlace
  · exact h.goOn hBusy rfl id hPlace

/- A kernel takes a free slot. -/
theorem countKernel
    (h : SliceCounts cfg s)
    (hBusy : s.pc.cleaning = false)
    {measured : Bool}
    (hPlace : s.Measures measured)
    (hSlot : s.HasSlot cfg)
    (hSmall : s.submitted + 1 < 2 ^ 64) :
    SliceCounts cfg (s.countKernel measured) := by
  have hNone := h.unprinted hBusy
  unfold TimeSlice.countKernel
  rw [wrap_of_lt hSmall]
  exact
    { completed_le := Nat.le_succ_of_le h.completed_le
      inFlight := hSlot
      small := hSmall
      waited := h.waited
      waiting := fun hWaits =>
        Nat.lt_succ_of_lt (h.waiting hWaits)
      place := hPlace
      unprinted := fun _ => hNone
      sound := h.sound }

theorem awaitWindow
    (h : SliceCounts cfg s)
    (hBusy : s.pc.cleaning = false)
    {measured : Bool}
    (hPlace : s.Measures measured)
    {now : Nat}
    (hSmall : s.submitted + 1 < 2 ^ 64)
    (hDrains :
      (!s.windowFull cfg || !s.stop ||
          decide (s.workerResult ≠ .success) ||
          decide (s.deadline ≤ now) || s.needsToken cfg) =
        true) :
    SliceCounts cfg (s.awaitWindow cfg measured now) := by
  have hSlot : s.windowFull cfg = false → s.HasSlot cfg := by
    intro hFree
    have hNot : ¬ s.windowFull cfg = true := by
      rw [hFree]
      exact Bool.false_ne_true
    rw [h.windowFull_iff] at hNot
    exact Nat.lt_of_not_le hNot
  unfold TimeSlice.awaitWindow
  split
  case isTrue => exact h
  case isFalse hLeft =>
    split
    case isTrue => exact h.leave hBusy _
    case isFalse hError =>
      have hSuccess := not_not.mp hError
      have hFree : s.stop = false → s.windowFull cfg = false := by
        intro hGoes
        apply Bool.of_not_eq_true
        exact fun hFull => hLeft ⟨hFull, hSuccess, hGoes⟩
      split
      case isTrue => exact h.endDrive hBusy hPlace
      case isFalse hEarly =>
        split
        case isTrue =>
          refine h.goOn hBusy rfl id ⟨hPlace, ?_⟩
          by_cases hStop : s.stop = true
          · exact Or.inr hStop
          · have hGoes := Bool.of_not_eq_true hStop
            exact Or.inl (hSlot (hFree hGoes))
        case isFalse hPlain =>
          have hWindow : s.windowFull cfg = false := by
            simp only [hSuccess, hEarly, hPlain,
              Bool.or_eq_true, Bool.not_eq_true',
              decide_eq_true_eq, ne_eq, not_true_eq_false,
              or_false, Bool.false_eq_true] at hDrains
            exact hDrains.elim id hFree
          exact
            h.countKernel hBusy hPlace (hSlot hWindow) hSmall

theorem awaitToken
    (h : SliceCounts cfg s)
    (hBusy : s.pc.cleaning = false)
    {measured : Bool}
    (hPlace :
      s.Measures measured ∧ (s.HasSlot cfg ∨ s.stop = true))
    (now : Nat)
    (token : Bool) :
    SliceCounts cfg (s.awaitToken measured now token) := by
  unfold TimeSlice.awaitToken
  split
  · exact h
  · exact h.goOn hBusy rfl id hPlace

theorem leaveTokens
    (h : SliceCounts cfg s)
    (hBusy : s.pc.cleaning = false)
    {measured : Bool}
    (hPlace :
      s.Measures measured ∧ (s.HasSlot cfg ∨ s.stop = true))
    (now : Nat)
    (hSmall : s.submitted + 1 < 2 ^ 64) :
    SliceCounts cfg (s.leaveTokens measured now) := by
  unfold TimeSlice.leaveTokens
  split
  case isTrue => exact h.endDrive hBusy hPlace.1
  case isFalse hOn =>
    have hSlot : s.HasSlot cfg :=
      hPlace.2.resolve_right fun hStop => hOn (Or.inl hStop)
    exact h.countKernel hBusy hPlace.1 hSlot hSmall

theorem launch
    (h : SliceCounts cfg s)
    (hBusy : s.pc.cleaning = false)
    {measured : Bool}
    (hPlace : s.Measures measured)
    (kernelId : Nat)
    (seen : SliceReadings) :
    SliceCounts cfg (s.launch cfg measured kernelId seen) := by
  unfold TimeSlice.launch
  split
  · exact h.goOn hBusy rfl id hPlace
  · exact h.leave hBusy _

/- A drain ends with every kernel that was counted. -/
theorem drain
    (h : SliceCounts cfg s)
    (hBusy : s.pc.cleaning = false)
    {target : Nat}
    (hPlace : target = s.submitted)
    (hDrains :
      (decide (target ≤ s.completed) || !s.stop ||
          decide (s.workerResult ≠ .success)) =
        true) :
    SliceCounts cfg (s.drain target) := by
  unfold TimeSlice.drain
  split
  case isTrue => exact h
  case isFalse hLeft =>
    split
    case isTrue => exact h.leave hBusy _
    case isFalse hError =>
      have hSuccess := not_not.mp hError
      have hAll : target ≤ s.completed := by
        simp only [hSuccess, Bool.or_eq_true,
          Bool.not_eq_true', decide_eq_true_eq, ne_eq,
          not_true_eq_false, or_false] at hDrains
        rcases hDrains with hDone | hGoes
        · exact hDone
        · exact
            Nat.le_of_not_lt fun hMore =>
              hLeft ⟨hMore, hSuccess, hGoes⟩
      refine h.goOn hBusy rfl id ?_
      change s.submitted ≤ s.completed
      omega

/- Nothing is in flight when the measurement begins. -/
theorem sampleBase
    (h : SliceCounts cfg s)
    (hBusy : s.pc.cleaning = false)
    (hPlace : s.submitted ≤ s.completed) :
    SliceCounts cfg s.sampleBase := by
  have hLe := h.completed_le
  refine h.goOn hBusy rfl id fun _ => ⟨?_, hPlace⟩
  change s.completed = s.submitted
  omega

theorem sampleEnd
    (h : SliceCounts cfg s)
    (hBusy : s.pc.cleaning = false)
    (hPlace : s.Measures true) :
    SliceCounts cfg s.sampleEnd := by
  rcases hPlace rfl with ⟨hBase, hSince⟩
  exact
    h.goOn hBusy rfl id
      ⟨hBase, hSince, h.completed_le, h.inFlight, h.small⟩

/- The samples make sound counts. -/
theorem print
    (h : SliceCounts cfg s)
    (hPlace : s.Sampled cfg) :
    SliceCounts cfg s.print := by
  rcases hPlace with ⟨hBase, hSince, hLe, hIn, hSmall⟩
  refine
    { h with
      place := trivial
      unprinted := fun hBusy => by cases hBusy
      sound := ?_ }
  intro completed submitted hPrinted
  change
    some
        (wrapSub 64 s.endCompleted s.baseCompleted,
          wrapSub 64 s.endSubmitted s.baseSubmitted) =
      some (completed, submitted) at hPrinted
  rw [wrapSub_of_le (by omega) (by omega),
    wrapSub_of_le (by omega) hSmall] at hPrinted
  cases hPrinted
  change
    s.baseCompleted + (s.endCompleted - s.baseCompleted) =
        s.endCompleted ∧
      s.baseSubmitted + (s.endSubmitted - s.baseSubmitted) =
          s.endSubmitted ∧
        s.endCompleted - s.baseCompleted ≤
            s.endSubmitted - s.baseSubmitted ∧
          s.endSubmitted - s.baseSubmitted ≤
            s.endCompleted - s.baseCompleted + cfg.window
  omega

/- One step of the driver keeps the counts. -/
theorem advance
    (h : SliceCounts cfg s)
    {seen : SliceReadings}
    (hDrains : s.drains cfg (.drive seen) = true)
    {s' : TimeSlice}
    (hStep : s.advance cfg seen = some s') :
    SliceCounts cfg s' := by
  have hBusy :
      ∀ {pc}, s.pc = pc → pc.cleaning = false →
        s.pc.cleaning = false := by
    intro pc hAt hRest
    rw [hAt]
    exact hRest
  have hPlace := h.place
  rw [TimeSlice.drains] at hDrains
  cases TimeSlice.drive_move hStep with
  | initialise hPc =>
      rw [hPc] at hPlace
      exact h.initialise (hBusy hPc rfl) hPlace _ seen.result
  | discover hPc =>
      rw [hPc] at hPlace
      exact h.discover (hBusy hPc rfl) hPlace seen.queue
  | driveStart hPc =>
      rw [hPc] at hPlace
      exact h.goOn (hBusy hPc rfl) rfl id hPlace
  | driveTop hPc =>
      rw [hPc] at hPlace
      exact h.enterDrive (hBusy hPc rfl) hPlace
  | tokens hPc =>
      rw [hPc] at hPlace
      exact
        h.awaitToken (hBusy hPc rfl) hPlace seen.now
          seen.token
  | launch hPc =>
      rw [hPc] at hPlace
      exact h.launch (hBusy hPc rfl) hPlace _ seen
  | drainStart hPc =>
      rw [hPc] at hPlace
      exact h.goOn (hBusy hPc rfl) rfl id rfl
  | sampleBase hPc =>
      rw [hPc] at hPlace
      exact h.sampleBase (hBusy hPc rfl) hPlace
  | sampleEnd hPc =>
      rw [hPc] at hPlace
      exact h.sampleEnd (hBusy hPc rfl) hPlace
  | window hPc =>
      rw [hPc] at hPlace hDrains
      have hBoth := (Bool.and_eq_true _ _).mp hDrains
      exact
        h.awaitWindow (hBusy hPc rfl) hPlace
          (of_decide_eq_true hBoth.1) hBoth.2
  | tokensLeft hPc =>
      rw [hPc] at hPlace hDrains
      exact
        h.leaveTokens (hBusy hPc rfl) hPlace seen.now
          (of_decide_eq_true hDrains)
  | drain hPc =>
      rw [hPc] at hPlace hDrains
      exact h.drain (hBusy hPc rfl) hPlace hDrains
  | print hPc =>
      rw [hPc] at hPlace
      exact h.print hPlace
  | restore | closing =>
      exact
        { h with
          place := trivial
          unprinted := fun hBusy => by cases hBusy }
  | joinWorker hPc hExited =>
      exact
        { h with
          place := trivial
          unprinted := fun hBusy => by cases hBusy }

theorem drive
    (h : SliceCounts cfg s)
    {seen : SliceReadings}
    (hDrains : s.drains cfg (.drive seen) = true)
    {s' : TimeSlice}
    (hStep : s.drive cfg seen = some s') :
    SliceCounts cfg s' := by
  have hOn : SliceCounts cfg { s with clock := seen.now } :=
    { h with }
  have hNow :
      TimeSlice.drains cfg { s with clock := seen.now }
          (.drive seen) =
        true :=
    hDrains
  exact hOn.advance hNow (TimeSlice.drive_eq hStep)

/- A completion frees a slot. -/
theorem work
    (h : SliceCounts cfg s)
    {r : DocaError}
    {s' : TimeSlice}
    (hStep : s.work r = some s') :
    SliceCounts cfg s' := by
  unfold TimeSlice.work at hStep
  split at hStep
  · cases hStep
  · cases hPc : s.worker with
    | absent | exited =>
        rw [hPc] at hStep
        cases hStep
    | idle =>
        rw [hPc] at hStep
        rw [← Option.some.inj hStep]
        unfold TimeSlice.takeKernel
        split
        case isTrue =>
          split
          case isTrue => exact h
          case isFalse =>
            exact
              { h with waiting := fun hWaits => by cases hWaits }
        case isFalse hMore =>
          exact
            { h with
              waiting := fun _ => Nat.lt_of_not_le hMore }
    | waiting =>
        rw [hPc] at hStep
        rw [← Option.some.inj hStep]
        unfold TimeSlice.returned
        split
        case isTrue =>
          have hLess := h.waiting hPc
          have hSmall := h.small
          have hAt := h.waited
          have hNext :
              wrap 64 (s.waited + 1) = s.completed + 1 := by
            rw [hAt]
            exact wrap_of_lt (by omega)
          rw [hNext]
          refine
            { h with
              completed_le := ?_
              inFlight := ?_
              waited := rfl
              waiting := fun hWaits => by cases hWaits
              place := ?_ }
          · change s.completed + 1 ≤ s.submitted
            omega
          · have hIn := h.inFlight
            change s.submitted ≤ s.completed + 1 + cfg.window
            omega
          · exact
              TimeSlice.countsAt_mono h.place rfl
                (Nat.le_succ s.completed) rfl id
        case isFalse =>
          exact
            { h with waiting := fun hWaits => by cases hWaits }

/- A step that drains what it counts keeps the counts. -/
theorem step
    (h : SliceCounts cfg s)
    {e : SliceEvent}
    (hDrains : s.drains cfg e = true)
    {s' : TimeSlice}
    (hStep : TimeSlice.step cfg s e = some s') :
    SliceCounts cfg s' := by
  cases e with
  | stop =>
      rw [← Option.some.inj hStep]
      have hPlace :
          TimeSlice.CountsAt cfg { s with stop := true }
            s.pc :=
        TimeSlice.countsAt_mono h.place rfl (Nat.le_refl _)
          rfl fun _ => rfl
      exact { h with place := hPlace }
  | drive seen => exact h.drive hDrains hStep
  | work r => exact h.work hStep

theorem start (cfg : SliceConfig) :
    SliceCounts cfg TimeSlice.start :=
  { completed_le := Nat.le_refl _
    inFlight := Nat.zero_le _
    small := Nat.two_pow_pos 64
    waited := rfl
    waiting := fun hWaits => by cases hWaits
    place := rfl
    unprinted := fun _ => rfl
    sound := fun _ _ hPrinted => by cases hPrinted }

end SliceCounts

end Drex

------------------------------------------------------------
-- The Result Line
------------------------------------------------------------

namespace Drex

open Drex.Core

/-
  Where every drain and every wait for a slot ends as it
  should, the printed counts are sound.
-/
theorem measurement_sound
    {cfg : SliceConfig}
    {s : TimeSlice}
    (h :
      Reaches
        (guarded (TimeSlice.drains cfg) (TimeSlice.step cfg))
        TimeSlice.start s) :
    MeasureSound cfg s := by
  have hCounts : SliceCounts cfg s := by
    apply h.invariant (SliceCounts.start cfg)
    intro s₀ e s₁ hBefore hNext
    rcases guarded_eq_some_iff.mp hNext with
      ⟨hDrains, hStep⟩
    exact hBefore.step hDrains hStep
  exact hCounts.sound

/-
  A warm-up and a measurement of a second each, with one
  kernel in flight.
-/
def warmConfig : SliceConfig :=
  { warmupMs := 1000
    runtimeMs := 1000
    maxInflight := 1
    tokenMode := false
    maxInflight_lt := by decide }

/- All calls of the driver succeed, at a reading. -/
def driveAt (now : Nat) : SliceEvent :=
  .drive
    { result := .success
      now := now
      token := false
      queue := 0 }

/-
  One kernel warms up and is drained; of two that are
  measured, one completes before the stop.
-/
theorem measurement_sound_warm :
    ∃ s : TimeSlice,
      s.printed = some (1, 2) ∧ MeasureSound warmConfig s := by
  have hRun :
      (runLabels
          (guarded (TimeSlice.drains warmConfig)
            (TimeSlice.step warmConfig))
          (List.replicate 9 (driveAt 0) ++
            List.replicate 2 (.work .success) ++
            List.replicate 2 (driveAt 1000000000) ++
            List.replicate 8 (driveAt 1000000001) ++
            List.replicate 2 (.work .success) ++
            List.replicate 3 (driveAt 1000000001) ++ [.stop] ++
            List.replicate 4 (driveAt 3000000000))
          TimeSlice.start).any
        (fun s => decide (s.printed = some (1, 2))) =
        true := by
    decide +kernel
  rcases reaches_of_any hRun with ⟨s, hReach, hCheck⟩
  exact
    ⟨s, of_decide_eq_true hCheck, measurement_sound hReach⟩

/-
  A stop cuts the drain of the warm-up short.  Its kernel
  completes in the measurement, where nothing is submitted.
-/
theorem measurement_unsound_stop :
    ¬ ∀ (cfg : SliceConfig) (s : TimeSlice),
        Reaches (TimeSlice.step cfg) TimeSlice.start s →
          MeasureSound cfg s := by
  intro hAll
  have hRun :
      (runLabels (TimeSlice.step warmConfig)
          (List.replicate 9 (driveAt 0) ++ [.stop] ++
            List.replicate 6 (driveAt 1) ++
            List.replicate 2 (.work .success) ++
            List.replicate 2 (driveAt 2))
          TimeSlice.start).any
        (fun s => decide (s.printed = some (1, 0))) =
        true := by
    decide +kernel
  rcases reaches_of_any hRun with ⟨s, hReach, hCheck⟩
  have hSound :=
    hAll _ s hReach 1 0 (of_decide_eq_true hCheck)
  exact absurd hSound.2.2.1 (by decide)

/- A stop lets a second kernel through a window of one. -/
example :
    (runLabels (TimeSlice.step warmConfig)
        (List.replicate 6 (driveAt 0) ++
          List.replicate 3 (driveAt 1000000000) ++
          List.replicate 7 (driveAt 1000000001) ++ [.stop] ++
          List.replicate 5 (driveAt 1000000002))
        TimeSlice.start).any
      (fun s => decide (s.printed = some (0, 2))) =
      true := by
  decide +kernel

end Drex
