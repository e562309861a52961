import Drex.Application.Launches
import Drex.Core.Tally

/-
  The tokens of the time-slice driver.

  In token mode the driver that knows its queue takes a
  kernel only for a token, and a token is lost only where a
  drive ends.

  Key definitions include:
    * `TimeSlice.acquiresToken`
    * `TimeSlice.takesKernel`
    * `TimeSlice.held`
    * `Driver.spare`

  Key theorems include:
    * `tokens_drive`
    * `tokens_step`
    * `tokens_paid`
-/

------------------------------------------------------------
-- Tokens And Kernels
------------------------------------------------------------

namespace Drex

open Drex.Core

namespace TimeSlice

/- `XQueueTryAcquireTokens` is called and succeeds. -/
def acquiresToken (s : TimeSlice) : SliceEvent → Bool
| .drive seen =>
    match s.pc with
    | .tokens _ =>
        !s.stop && decide (seen.now < s.deadline) &&
          seen.token
    | _ => false
| _ => false

/- The driver goes on to launch another kernel. -/
def takesKernel
    (cfg : SliceConfig)
    (s : TimeSlice)
    (e : SliceEvent) :
    Bool :=
  match s.step cfg e with
  | none => false
  | some s' =>
      s.pc.launching.isNone && s'.pc.launching.isSome

/- The driver has a token that it will not throw away yet. -/
def held (s : TimeSlice) : Nat :=
  match s.pc with
  | .tokensLeft _ =>
      if s.stop = false ∧ s.clock < s.deadline then 1 else 0
  | _ => 0

end TimeSlice

/- The queue has not been looked for. -/
def Driver.discovering : Driver → Bool
| .initialise _ => true
| .discover => true
| _ => false

/- The wait for tokens is over. -/
def Driver.waited : Driver → Bool
| .tokensLeft _ => true
| _ => false

/- The driver has found its queue. -/
structure TimeSlice.Knows (s : TimeSlice) : Prop where
  handle : s.xqueueHandle ≠ 0
  found : s.pc.discovering = false

/- The tokens that may still be lost, one in each drive. -/
def Driver.spare : Driver → Nat
| .initialise _ => 2
| .discover => 2
| .driveStart measured => if measured then 1 else 2
| .driveTop measured => if measured then 1 else 2
| .window measured => if measured then 1 else 2
| .tokens measured => if measured then 1 else 2
| .tokensLeft measured => if measured then 0 else 1
| .launch measured _ => if measured then 1 else 2
| .drainStart => 1
| .drain _ => 1
| .sampleBase => 1
| .sampleEnd => 0
| .print => 0
| .restore => 0
| .closing => 0
| .joinWorker => 0
| .returned => 0

theorem Driver.spare_le (pc : Driver) : pc.spare ≤ 2 := by
  cases pc with
  | driveStart measured | driveTop measured | window measured
  | tokens measured | tokensLeft measured
  | launch measured kernelId =>
      cases measured with
      | false => simp [Driver.spare]
      | true => simp [Driver.spare]
  | initialise | discover | drainStart | drain | sampleBase
  | sampleEnd | print | restore | closing | joinWorker
  | returned =>
      simp [Driver.spare]

end Drex

------------------------------------------------------------
-- A Step
------------------------------------------------------------

namespace Drex

open Drex.Core

/-
  A step that keeps the handle, takes a kernel only for a
  token it has or acquires, and loses a token only where it
  still may.
-/
structure PaysTokens
    (cfg : SliceConfig)
    (s : TimeSlice)
    (e : SliceEvent)
    (s' : TimeSlice) : Prop where
  known : s'.Knows
  kernels :
    (s.takesKernel cfg e).toNat + s'.held ≤
      s.held + (s.acquiresToken e).toNat
  tokens :
    (s.acquiresToken e).toNat + s'.pc.spare ≤
      s.pc.spare + (s.takesKernel cfg e).toNat

namespace PaysTokens

variable {cfg : SliceConfig} {s s' : TimeSlice}
variable {e : SliceEvent}

/- A step that neither acquires a token nor takes a kernel. -/
theorem of_quiet
    (hStep : s.step cfg e = some s')
    (hKnown : s'.Knows)
    (hAcquires : s.acquiresToken e = false)
    (hLaunching : s'.pc.launching = none)
    (hHeld : s'.held ≤ s.held)
    (hSpare : s'.pc.spare ≤ s.pc.spare) :
    PaysTokens cfg s e s' := by
  have hTakes : s.takesKernel cfg e = false := by
    rw [TimeSlice.takesKernel, hStep]
    simp [hLaunching]
  refine ⟨hKnown, ?_, ?_⟩
  · rw [hTakes, hAcquires]
    simpa using hHeld
  · rw [hTakes, hAcquires]
    simpa using hSpare

end PaysTokens

namespace TimeSlice

variable {cfg : SliceConfig} {s s' : TimeSlice}

/- Elsewhere than in the wait no token is acquired or held. -/
theorem held_eq_zero
    (h : s.pc.holdsMutex = false) :
    s.held = 0 := by
  unfold held
  split
  · rename_i measured hPc
    rw [hPc] at h
    cases h
  · rfl

theorem acquiresToken_eq_false
    (h : s.pc.holdsMutex = false)
    (e : SliceEvent) :
    s.acquiresToken e = false := by
  unfold acquiresToken
  split
  · split
    · rename_i measured hPc
      rw [hPc] at h
      cases h
    · rfl
  · rfl

end TimeSlice

/- A move of the driver outside of the wait for tokens. -/
theorem PaysTokens.goOn
    {cfg : SliceConfig}
    {s s' : TimeSlice}
    {seen : SliceReadings}
    (hKnown : s.Knows)
    (hStep : s.step cfg (.drive seen) = some s')
    (hHandle : s'.xqueueHandle ≠ 0)
    {p p' : Driver}
    (hPc : s.pc = p)
    (hPc' : s'.pc = p')
    (hOutside : p.holdsMutex = false)
    (hLaunching : p'.launching = none)
    (hWaited : p'.waited = false)
    (hFound : p.discovering = false → p'.discovering = false)
    (hSpare : p'.spare ≤ p.spare) :
    PaysTokens cfg s (.drive seen) s' := by
  subst hPc hPc'
  refine
    .of_quiet hStep ⟨hHandle, hFound hKnown.found⟩
      (TimeSlice.acquiresToken_eq_false hOutside _)
      hLaunching ?_ hSpare
  unfold TimeSlice.held
  split
  · rename_i measured hPc
    rw [hPc] at hWaited
    cases hWaited
  · exact Nat.zero_le _

end Drex

------------------------------------------------------------
-- Steps Of The Driver
------------------------------------------------------------

namespace Drex

open Drex.Core

section Driving

variable {cfg : SliceConfig} {s s' : TimeSlice}
variable {seen : SliceReadings}

/- The wait for tokens ends with one, or too late. -/
theorem PaysTokens.awaitToken
    {measured : Bool}
    (hPc : s.pc = .tokens measured)
    (hKnown : s.Knows)
    (hStep : s.step cfg (.drive seen) = some s')
    (hEq :
      s' =
        TimeSlice.awaitToken { s with clock := seen.now }
          measured seen.now seen.token) :
    PaysTokens cfg s (.drive seen) s' := by
  have hNone : s.held = 0 := by
    simp [TimeSlice.held, hPc]
  have hAcquires :
      s.acquiresToken (.drive seen) =
        (!s.stop && decide (seen.now < s.deadline) &&
          seen.token) := by
    simp [TimeSlice.acquiresToken, hPc]
  rw [TimeSlice.awaitToken] at hEq
  split at hEq
  · rename_i hWaits
    simp only at hWaits
    have hPc' : s'.pc = .tokens measured := by
      rw [hEq]
      exact hPc
    apply PaysTokens.of_quiet hStep
    · rw [hEq]
      exact ⟨hKnown.handle, hKnown.found⟩
    · rw [hAcquires, hWaits.2.2, Bool.and_false]
    · rw [hPc']
      rfl
    · simp [TimeSlice.held, hPc']
    · exact
        Nat.le_of_eq
          (congrArg Driver.spare (hPc'.trans hPc.symm))
  · rename_i hDone
    simp only at hDone
    have hPc' : s'.pc = .tokensLeft measured := by
      rw [hEq]
    have hTakes :
        s.takesKernel cfg (.drive seen) = false := by
      rw [TimeSlice.takesKernel, hStep]
      simp [hPc', Driver.launching]
    have hHeld :
        s'.held =
          if s.stop = false ∧ seen.now < s.deadline then 1
          else 0 := by
      rw [hEq]
      rfl
    refine ⟨?_, ?_, ?_⟩
    · rw [hEq]
      exact ⟨hKnown.handle, rfl⟩
    · rw [hTakes, hNone, hHeld, hAcquires]
      split
      · rename_i hHolds
        have hToken : seen.token = true := by
          by_contra hNot
          exact
            hDone
              ⟨hHolds.1, hHolds.2,
                eq_false_of_ne_true hNot⟩
        simp [hHolds, hToken]
      · simp
    · rw [hTakes, hPc', hPc]
      have hOne :=
        Bool.toNat_le (s.acquiresToken (.drive seen))
      cases measured with
      | false =>
          simp only [Driver.spare]
          simpa using by omega
      | true =>
          simp only [Driver.spare]
          simpa using by omega

/- What was acquired is used, or lost with the drive. -/
theorem PaysTokens.leaveTokens
    {measured : Bool}
    (hPc : s.pc = .tokensLeft measured)
    (hKnown : s.Knows)
    (hClock : s.clock ≤ seen.now)
    (hStep : s.step cfg (.drive seen) = some s')
    (hEq :
      s' =
        TimeSlice.leaveTokens { s with clock := seen.now }
          measured seen.now) :
    PaysTokens cfg s (.drive seen) s' := by
  have hAcquires :
      s.acquiresToken (.drive seen) = false := by
    simp [TimeSlice.acquiresToken, hPc]
  rw [TimeSlice.leaveTokens] at hEq
  split at hEq
  · have hPc' :
        s'.pc = if measured then .sampleEnd else .drainStart := by
      rw [hEq]
      rfl
    apply PaysTokens.of_quiet hStep
    · refine ⟨?_, ?_⟩
      · rw [hEq]
        exact hKnown.handle
      · rw [hPc']
        cases measured with
        | false => rfl
        | true => rfl
    · exact hAcquires
    · rw [hPc']
      cases measured with
      | false => rfl
      | true => rfl
    · have hHeld : s'.held = 0 := by
        apply TimeSlice.held_eq_zero
        rw [hPc']
        cases measured with
        | false => rfl
        | true => rfl
      rw [hHeld]
      exact Nat.zero_le _
    · rw [hPc', hPc]
      cases measured with
      | false => simp [Driver.spare]
      | true => simp [Driver.spare]
  · rename_i hGoes
    simp only [not_or, Nat.not_le] at hGoes
    have hPc' : s'.pc = .launch measured s.submitted := by
      rw [hEq]
      rfl
    have hTakes :
        s.takesKernel cfg (.drive seen) = true := by
      rw [TimeSlice.takesKernel, hStep]
      simp [hPc, hPc', Driver.launching]
    have hHeld : s.held = 1 := by
      have hStop : s.stop = false :=
        eq_false_of_ne_true hGoes.1
      have hTime : s.clock < s.deadline :=
        Nat.lt_of_le_of_lt hClock hGoes.2
      simp [TimeSlice.held, hPc, hStop, hTime]
    refine ⟨?_, ?_, ?_⟩
    · rw [hEq]
      exact ⟨hKnown.handle, rfl⟩
    · rw [hTakes, hAcquires, hHeld]
      simp [TimeSlice.held, hPc']
    · rw [hTakes, hAcquires, hPc, hPc']
      cases measured with
      | false => simp [Driver.spare]
      | true => simp [Driver.spare]

/- A drive ends without a token in hand. -/
theorem PaysTokens.endDrive
    {measured : Bool}
    {p : Driver}
    (hKnown : s.Knows)
    (hStep : s.step cfg (.drive seen) = some s')
    (hEq :
      s' =
        TimeSlice.endDrive { s with clock := seen.now }
          measured)
    (hPc : s.pc = p)
    (hOutside : p.holdsMutex = false)
    (hSpare : p.spare = if measured then 1 else 2) :
    PaysTokens cfg s (.drive seen) s' := by
  have hHandle : s'.xqueueHandle ≠ 0 := by
    rw [hEq]
    exact hKnown.handle
  cases measured with
  | false =>
      have hPc' : s'.pc = .drainStart := by
        rw [hEq]
        rfl
      refine
        .goOn hKnown hStep hHandle hPc hPc' hOutside rfl
          rfl (fun _ => rfl) ?_
      rw [hSpare]
      simp [Driver.spare]
  | true =>
      have hPc' : s'.pc = .sampleEnd := by
        rw [hEq]
        rfl
      refine
        .goOn hKnown hStep hHandle hPc hPc' hOutside rfl
          rfl (fun _ => rfl) ?_
      rw [hSpare]
      simp [Driver.spare]

/- In token mode the window leads to the wait for tokens. -/
theorem PaysTokens.awaitWindow
    (hMode : cfg.tokenMode = true)
    {measured : Bool}
    (hPc : s.pc = .window measured)
    (hKnown : s.Knows)
    (hStep : s.step cfg (.drive seen) = some s')
    (hEq :
      s' =
        TimeSlice.awaitWindow cfg
          { s with clock := seen.now } measured seen.now) :
    PaysTokens cfg s (.drive seen) s' := by
  rw [TimeSlice.awaitWindow] at hEq
  split at hEq
  · subst hEq
    exact
      .goOn hKnown hStep hKnown.handle hPc hPc rfl rfl
        rfl (fun _ => rfl) (Nat.le_refl _)
  · split at hEq
    · subst hEq
      exact
        .goOn hKnown hStep hKnown.handle hPc rfl rfl rfl
          rfl (fun _ => rfl) (Nat.zero_le _)
    · split at hEq
      · exact .endDrive hKnown hStep hEq hPc rfl rfl
      · split at hEq
        · subst hEq
          exact
            .goOn hKnown hStep hKnown.handle hPc rfl rfl rfl
              rfl (fun _ => rfl) (Nat.le_refl _)
        · rename_i hNeeds
          have hNeeds' :
              TimeSlice.needsToken cfg
                { s with clock := seen.now } = true := by
            simp [TimeSlice.needsToken, hMode,
              hKnown.handle]
          exact absurd hNeeds' hNeeds

/- A launch keeps the handle. -/
theorem PaysTokens.launch
    {measured : Bool}
    {kernelId : Nat}
    (hPc : s.pc = .launch measured kernelId)
    (hKnown : s.Knows)
    (hStep : s.step cfg (.drive seen) = some s')
    (hEq :
      s' =
        TimeSlice.launch cfg { s with clock := seen.now }
          measured kernelId seen) :
    PaysTokens cfg s (.drive seen) s' := by
  rw [TimeSlice.launch] at hEq
  split at hEq
  · subst hEq
    refine
      .goOn hKnown hStep ?_ hPc rfl rfl rfl rfl
        (fun _ => rfl) (Nat.le_refl _)
    simp [hKnown.handle]
  · subst hEq
    exact
      .goOn hKnown hStep hKnown.handle hPc rfl rfl rfl
        rfl (fun _ => rfl) (Nat.zero_le _)

/- The wait for the launched kernels goes on, or ends. -/
theorem PaysTokens.drain
    {target : Nat}
    (hPc : s.pc = .drain target)
    (hKnown : s.Knows)
    (hStep : s.step cfg (.drive seen) = some s')
    (hEq :
      s' =
        TimeSlice.drain { s with clock := seen.now } target) :
    PaysTokens cfg s (.drive seen) s' := by
  rw [TimeSlice.drain] at hEq
  split at hEq
  · subst hEq
    exact
      .goOn hKnown hStep hKnown.handle hPc hPc rfl rfl
        rfl (fun _ => rfl) (Nat.le_refl _)
  · split at hEq
    · subst hEq
      exact
        .goOn hKnown hStep hKnown.handle hPc rfl rfl rfl
          rfl (fun _ => rfl) (Nat.zero_le _)
    · subst hEq
      exact
        .goOn hKnown hStep hKnown.handle hPc rfl rfl rfl
          rfl (fun _ => rfl) (Nat.le_refl _)

/- A drive begins, unless it is to stop. -/
theorem PaysTokens.enterDrive
    {measured : Bool}
    (hPc : s.pc = .driveTop measured)
    (hKnown : s.Knows)
    (hStep : s.step cfg (.drive seen) = some s')
    (hEq :
      s' =
        TimeSlice.enterDrive { s with clock := seen.now }
          measured) :
    PaysTokens cfg s (.drive seen) s' := by
  rw [TimeSlice.enterDrive] at hEq
  split at hEq
  · exact .endDrive hKnown hStep hEq hPc rfl rfl
  · subst hEq
    exact
      .goOn hKnown hStep hKnown.handle hPc rfl rfl rfl
        rfl (fun _ => rfl) (Nat.le_refl _)

end Driving

end Drex

------------------------------------------------------------
-- Runs
------------------------------------------------------------

namespace Drex

open Drex.Core

section Running

variable {cfg : SliceConfig} {s s' : TimeSlice}

/- Each step of the driver pays for its kernel. -/
theorem tokens_drive
    (hMode : cfg.tokenMode = true)
    {seen : SliceReadings}
    (hKnown : s.Knows)
    (hStep : s.step cfg (.drive seen) = some s') :
    PaysTokens cfg s (.drive seen) s' := by
  have hClock : s.clock ≤ seen.now := by
    by_contra hLate
    rw [TimeSlice.step, TimeSlice.drive,
      if_pos (Nat.lt_of_not_le hLate)] at hStep
    cases hStep
  cases TimeSlice.drive_move (TimeSlice.drive_eq hStep) with
  | initialise hPc =>
      have hFound := hKnown.found
      rw [hPc] at hFound
      cases hFound
  | discover hPc =>
      have hFound := hKnown.found
      rw [hPc] at hFound
      cases hFound
  | driveStart hPc | drainStart hPc | sampleBase hPc
  | sampleEnd hPc | print hPc | restore hPc | closing hPc =>
      exact
        .goOn hKnown hStep hKnown.handle hPc rfl rfl rfl
          rfl (fun _ => rfl) (Nat.le_refl _)
  | joinWorker hPc hExited =>
      exact
        .goOn hKnown hStep hKnown.handle hPc rfl rfl rfl
          rfl (fun _ => rfl) (Nat.le_refl _)
  | driveTop hPc => exact .enterDrive hPc hKnown hStep rfl
  | window hPc => exact .awaitWindow hMode hPc hKnown hStep rfl
  | tokens hPc => exact .awaitToken hPc hKnown hStep rfl
  | tokensLeft hPc =>
      exact .leaveTokens hPc hKnown hClock hStep rfl
  | launch hPc => exact .launch hPc hKnown hStep rfl
  | drain hPc => exact .drain hPc hKnown hStep rfl

/- A step that leaves the driver where it is. -/
theorem PaysTokens.still
    {e : SliceEvent}
    (hKnown : s.Knows)
    (hStep : s.step cfg e = some s')
    (hPc : s'.pc = s.pc)
    (hHandle : s'.xqueueHandle = s.xqueueHandle)
    (hAcquires : s.acquiresToken e = false)
    (hHeld : s'.held ≤ s.held) :
    PaysTokens cfg s e s' := by
  have hTakes : s.takesKernel cfg e = false := by
    rw [TimeSlice.takesKernel, hStep]
    simp only [hPc]
    cases s.pc.launching with
    | none => rfl
    | some kernelId => rfl
  refine ⟨⟨?_, ?_⟩, ?_, ?_⟩
  · rw [hHandle]
    exact hKnown.handle
  · rw [hPc]
    exact hKnown.found
  · rw [hTakes, hAcquires]
    simpa using hHeld
  · rw [hTakes, hAcquires, hPc]
    simp

/- The worker only runs outside of the wait for tokens. -/
theorem work_frame
    {r : DocaError}
    (h : s.work r = some s') :
    s'.pc = s.pc ∧ s'.xqueueHandle = s.xqueueHandle ∧
      s.pc.holdsMutex = false := by
  unfold TimeSlice.work at h
  split at h
  · cases h
  · rename_i hMutex
    have hFree := eq_false_of_ne_true hMutex
    split at h
    · cases h
    · rw [← Option.some.inj h]
      unfold TimeSlice.takeKernel
      split
      · split
        · exact ⟨rfl, rfl, hFree⟩
        · exact ⟨rfl, rfl, hFree⟩
      · exact ⟨rfl, rfl, hFree⟩
    · rw [← Option.some.inj h]
      unfold TimeSlice.returned
      split
      · exact ⟨rfl, rfl, hFree⟩
      · exact ⟨rfl, rfl, hFree⟩
    · cases h

/- Each step of the process pays for its kernel. -/
theorem tokens_step
    (hMode : cfg.tokenMode = true)
    {e : SliceEvent}
    (hKnown : s.Knows)
    (hStep : s.step cfg e = some s') :
    PaysTokens cfg s e s' := by
  cases e with
  | stop =>
      apply PaysTokens.still hKnown hStep
      · rw [← Option.some.inj hStep]
      · rw [← Option.some.inj hStep]
      · rfl
      · rw [← Option.some.inj hStep]
        unfold TimeSlice.held
        split
        · simp
        · exact Nat.le_refl _
  | drive seen => exact tokens_drive hMode hKnown hStep
  | work r =>
      rcases work_frame hStep with ⟨hPc, hHandle, hOutside⟩
      apply PaysTokens.still hKnown hStep hPc hHandle
      · rfl
      · rw [TimeSlice.held_eq_zero hOutside]
        rw [← hPc] at hOutside
        exact Nat.le_of_eq (TimeSlice.held_eq_zero hOutside)

/-
  In token mode, from when its queue is known, the driver
  takes no kernel without a token, and loses at most one in
  each drive.
-/
theorem tokens_paid
    (hMode : cfg.tokenMode = true)
    (hKnown : s.Knows)
    (hOutside : s.pc.holdsMutex = false)
    {events : List SliceEvent}
    (hRun :
      runLabels (TimeSlice.step cfg) events s = some s') :
    let kernels :=
      tally (TimeSlice.step cfg) (TimeSlice.takesKernel cfg)
        events s
    let tokens :=
      tally (TimeSlice.step cfg) TimeSlice.acquiresToken
        events s
    kernels ≤ tokens ∧ tokens ≤ kernels + 2 := by
  have hKernels :=
    @tally_le _ _ (TimeSlice.step cfg) TimeSlice.Knows
      (TimeSlice.takesKernel cfg) TimeSlice.acquiresToken
      TimeSlice.held
      (fun _ _ _ hKnown hStep =>
        have hPays := tokens_step hMode hKnown hStep
        ⟨hPays.known, hPays.kernels⟩)
      events s s' hKnown hRun
  have hTokens :=
    @tally_le _ _ (TimeSlice.step cfg) TimeSlice.Knows
      TimeSlice.acquiresToken (TimeSlice.takesKernel cfg)
      (fun s => s.pc.spare)
      (fun _ _ _ hKnown hStep =>
        have hPays := tokens_step hMode hKnown hStep
        ⟨hPays.known, hPays.tokens⟩)
      events s s' hKnown hRun
  rw [TimeSlice.held_eq_zero hOutside] at hKernels
  have hSpare := Driver.spare_le s.pc
  constructor
  · omega
  · omega

end Running

def tokenConfig : SliceConfig :=
  { secondConfig with tokenMode := true }

/- What the driver reads at these times. -/
def readsAt (now : Nat) (token : Bool) : SliceEvent :=
  .drive
    { result := .success, now := now, token := token, queue := 7 }

/- The driver has found its queue and begins to measure. -/
def knowing : TimeSlice :=
  { TimeSlice.start with
    workerSyncReady := true
    workerStarted := true
    deadline := 1000000000
    xqueueHandle := 7
    pc := .driveTop true
    worker := .idle }

theorem reaches_knowing :
    Reaches (TimeSlice.step tokenConfig) TimeSlice.start
      knowing :=
  reaches_runLabels (List.replicate 7 (readsAt 0 false))
    .start rfl

/-
  A token is waited for, its kernel is launched and awaited,
  and the next token comes with the deadline.
-/
def paidKernel : List SliceEvent :=
  List.replicate 3 (readsAt 0 false) ++
    [readsAt 1 true, readsAt 2 false, readsAt 3 false,
      .work .success, .work .success] ++
    List.replicate 2 (readsAt 4 false) ++
    [readsAt 5 true, readsAt 1000000000 false]

/- One kernel is paid for, and one token is lost. -/
theorem tokens_paid_knowing :
    let kernels :=
      tally (TimeSlice.step tokenConfig)
        (TimeSlice.takesKernel tokenConfig) paidKernel
        knowing
    let tokens :=
      tally (TimeSlice.step tokenConfig)
        TimeSlice.acquiresToken paidKernel knowing
    Reaches (TimeSlice.step tokenConfig) TimeSlice.start
          knowing ∧
        (kernels = 1 ∧ tokens = 2) ∧
      kernels ≤ tokens ∧ tokens ≤ kernels + 2 := by
  have hKnown : knowing.Knows := ⟨by decide, rfl⟩
  refine
    ⟨reaches_knowing, ⟨by decide +kernel, by decide +kernel⟩, ?_⟩
  exact
    @tokens_paid tokenConfig knowing _ rfl hKnown rfl
      paidKernel rfl

end Drex
