import Drex.Application.TimeSlice

/-
  The launches of the time-slice driver, and its join.

  A kernel is counted before its launch, so the worker may
  wait for one that was never launched.  `LaunchesSound`
  says that it does not, and holds in a run whose launches
  all succeed while the worker runs.

  Key definitions include:
    * `TimeSlice.launches`
    * `LaunchesSound`
    * `SliceIssued`

  Key theorems include:
    * `SliceIssued.drive`
    * `SliceIssued.ends`
    * `launches_join`
-/

------------------------------------------------------------
-- Launches
------------------------------------------------------------

namespace Drex

open Drex.Core

/- The kernel that is counted and about to be launched. -/
def Driver.launching : Driver → Option Nat
| .launch _ kernelId => some kernelId
| _ => none

namespace TimeSlice

/- The steps of a worker whose waits return. -/
def returns (s : TimeSlice) : SliceEvent → Bool
| .work r =>
    decide (r = .success) &&
      (decide (s.worker ≠ .waiting) ||
        decide (s.waited ∈ s.launched))
| _ => false

/-
  The steps that launch what they count: a launch fails only
  when the worker has stopped with an error.
-/
def launches (s : TimeSlice) : SliceEvent → Bool
| .drive seen =>
    match s.pc with
    | .launch _ _ =>
        decide (seen.result = .success) ||
          decide (s.workerResult ≠ .success)
    | _ => true
| _ => true

/- What the worker may wait for. -/
def CanWait (s : TimeSlice) (i : Nat) : Prop :=
  i ∈ s.launched ∨ s.pc.launching = some i ∨
    s.workerResult ≠ .success

end TimeSlice

namespace TimeSlice

/- What the driver knows of the worker. -/
def IssuedAt (s : TimeSlice) : Driver → Prop
| .initialise .cond =>
    s.worker = .absent ∧ s.workerSyncReady = true
| .initialise .worker =>
    s.worker = .absent ∧ s.workerSyncReady = true
| .initialise _ => s.worker = .absent
| .joinWorker =>
    s.workerStarted = true → s.accepting = false
| _ => True

end TimeSlice

/-
  When the cleanup clears `accepting`, every counted kernel
  was launched, or the worker has stopped with an error; and
  a worker that is joined reaches its end.
-/
structure LaunchesSound
    (cfg : SliceConfig)
    (s : TimeSlice) : Prop where
  launched :
    s.pc = .closing →
      (∀ i, i < s.submitted → i ∈ s.launched) ∨
        s.worker = .exited ∧ s.workerResult ≠ .success
  joins :
    s.pc = .joinWorker → s.workerStarted = true →
      ∃ s',
        Reaches
            (guarded TimeSlice.returns (TimeSlice.step cfg))
            s s' ∧
          s'.worker = .exited

/-
  The worker waits for what was launched, or is just about
  to be.
-/
structure SliceIssued (s : TimeSlice) : Prop where
  issued : ∀ i, i < s.submitted → s.CanWait i
  waiting : s.worker = .waiting → s.CanWait s.waited
  failed :
    s.workerResult ≠ .success → s.worker = .exited
  small : s.submitted < 2 ^ 64
  started :
    s.workerStarted = true →
      s.workerSyncReady = true ∧ s.worker ≠ .absent
  place : s.IssuedAt s.pc

namespace SliceIssued

variable {cfg : SliceConfig} {s : TimeSlice}

/- What can be waited for does not depend on other fields. -/
theorem canWait
    {s' : TimeSlice}
    {i : Nat}
    (h : s.CanWait i)
    (hLaunched : s'.launched = s.launched)
    (hResult : s'.workerResult = s.workerResult)
    (hNone : s.pc.launching = none) :
    s'.CanWait i := by
  unfold TimeSlice.CanWait at h ⊢
  rw [hLaunched, hResult]
  rw [hNone] at h
  rcases h with hOld | hNow | hFailed
  · exact Or.inl hOld
  · cases hNow
  · exact Or.inr (Or.inr hFailed)

/- A step of the driver that counts and launches nothing. -/
theorem goOn
    (h : SliceIssued s)
    (hNone : s.pc.launching = none)
    {s' : TimeSlice}
    (hCounts :
      (s'.launched, s'.submitted, s'.waited) =
        (s.launched, s.submitted, s.waited))
    (hThreads :
      (s'.workerResult, s'.worker, s'.workerStarted,
          s'.workerSyncReady) =
        (s.workerResult, s.worker, s.workerStarted,
          s.workerSyncReady))
    (hPlace : s'.IssuedAt s'.pc) :
    SliceIssued s' := by
  simp only [Prod.mk.injEq] at hCounts hThreads
  rcases hCounts with ⟨hLaunched, hSubmitted, hWaited⟩
  rcases hThreads with ⟨hResult, hWorker, hStarted, hSync⟩
  refine
    { issued := ?_
      waiting := ?_
      failed := ?_
      small := ?_
      started := ?_
      place := hPlace }
  · intro i hLess
    rw [hSubmitted] at hLess
    exact canWait (h.issued i hLess) hLaunched hResult hNone
  · intro hWaits
    rw [hWorker] at hWaits
    rw [hWaited]
    exact canWait (h.waiting hWaits) hLaunched hResult hNone
  · rw [hResult, hWorker]
    exact h.failed
  · rw [hSubmitted]
    exact h.small
  · rw [hStarted, hSync, hWorker]
    exact h.started

theorem leave
    (h : SliceIssued s)
    (hNone : s.pc.launching = none)
    (r : DocaError) :
    SliceIssued (s.leave r) :=
  h.goOn hNone rfl rfl trivial

theorem initialise
    (h : SliceIssued s)
    {stage : SliceStage}
    (hPc : s.pc = .initialise stage)
    (r : DocaError) :
    SliceIssued (s.initialise r stage) := by
  have hNone : s.pc.launching = none := by
    rw [hPc]
    rfl
  have hPlace := h.place
  rw [hPc] at hPlace
  cases stage with
  | compEvent | cond =>
      rw [TimeSlice.initialise]
      split
      · exact h.goOn hNone rfl rfl hPlace
      · exact h.leave hNone _
  | mutex =>
      rw [TimeSlice.initialise]
      split
      · have hOn : SliceIssued { s with pc := .restore } :=
          h.goOn hNone rfl rfl trivial
        exact
          { hOn with
            started := fun hStarted =>
              ⟨rfl, (h.started hStarted).2⟩
            place := ⟨hPlace, rfl⟩ }
      · exact h.leave hNone _
  | worker =>
      rw [TimeSlice.initialise]
      split
      · have hOn : SliceIssued { s with pc := .restore } :=
          h.goOn hNone rfl rfl trivial
        have hSuccess : ¬ s.workerResult ≠ .success := by
          intro hFailed
          have hExited := h.failed hFailed
          rw [hPlace.1] at hExited
          cases hExited
        exact
          { hOn with
            waiting := fun hWaits => by cases hWaits
            failed := fun hFailed => absurd hFailed hSuccess
            started := fun _ => ⟨hPlace.2, by simp⟩
            place := trivial }
      · exact h.leave hNone _

theorem endDrive
    (h : SliceIssued s)
    (hNone : s.pc.launching = none)
    (measured : Bool) :
    SliceIssued (s.endDrive measured) := by
  cases measured with
  | true => exact h.goOn hNone rfl rfl trivial
  | false => exact h.goOn hNone rfl rfl trivial

/- The kernel that is counted is about to be launched. -/
theorem countKernel
    (h : SliceIssued s)
    (hNone : s.pc.launching = none)
    (measured : Bool) :
    SliceIssued (s.countKernel measured) := by
  have hKeeps :
      ∀ i, s.CanWait i →
        (s.countKernel measured).CanWait i := by
    intro i hCan
    rcases hCan with hOld | hNow | hFailed
    · exact Or.inl hOld
    · rw [hNone] at hNow
      cases hNow
    · exact Or.inr (Or.inr hFailed)
  refine
    { issued := ?_
      waiting := fun hWaits => hKeeps _ (h.waiting hWaits)
      failed := h.failed
      small := wrap_lt 64 _
      started := h.started
      place := trivial }
  intro i hLess
  have hBound : i < s.submitted + 1 :=
    Nat.lt_of_lt_of_le hLess (Nat.mod_le _ _)
  rcases Nat.lt_succ_iff_lt_or_eq.mp hBound with hOld | hNew
  · exact hKeeps i (h.issued i hOld)
  · rw [hNew]
    exact Or.inr (Or.inl rfl)

theorem awaitWindow
    (h : SliceIssued s)
    (hNone : s.pc.launching = none)
    (measured : Bool)
    (now : Nat) :
    SliceIssued (s.awaitWindow cfg measured now) := by
  unfold TimeSlice.awaitWindow
  split
  · exact h
  · split
    · exact h.leave hNone _
    · split
      · exact h.endDrive hNone measured
      · split
        · exact h.goOn hNone rfl rfl trivial
        · exact h.countKernel hNone measured

/- A launch that fails leaves a worker that has stopped. -/
theorem launch
    (h : SliceIssued s)
    {measured : Bool}
    {kernelId : Nat}
    (hPc : s.pc = .launch measured kernelId)
    {seen : SliceReadings}
    (hLaunches :
      (decide (seen.result = .success) ||
          decide (s.workerResult ≠ .success)) =
        true) :
    SliceIssued (s.launch cfg measured kernelId seen) := by
  unfold TimeSlice.launch
  split
  case isTrue =>
    have hKeeps :
        ∀ i, s.CanWait i →
          i ∈ s.launched ++ [kernelId] ∨
            s.workerResult ≠ .success := by
      intro i hCan
      rcases hCan with hOld | hNow | hFailed
      · exact Or.inl (List.mem_append_left _ hOld)
      · rw [hPc] at hNow
        cases hNow
        exact Or.inl (List.mem_append_right _ (by simp))
      · exact Or.inr hFailed
    exact
      { issued := fun i hLess =>
          (hKeeps i (h.issued i hLess)).imp_right Or.inr
        waiting := fun hWaits =>
          (hKeeps _ (h.waiting hWaits)).imp_right Or.inr
        failed := h.failed
        small := h.small
        started := h.started
        place := trivial }
  case isFalse hError =>
    rw [decide_eq_false hError, Bool.false_or,
      decide_eq_true_iff] at hLaunches
    exact
      { issued := fun _ _ => Or.inr (Or.inr hLaunches)
        waiting := fun _ => Or.inr (Or.inr hLaunches)
        failed := h.failed
        small := h.small
        started := h.started
        place := trivial }

theorem discover
    (h : SliceIssued s)
    (hNone : s.pc.launching = none)
    (queue : Nat) :
    SliceIssued (s.discover cfg queue) := by
  unfold TimeSlice.discover
  by_cases hWarm : cfg.warmupMs = 0
  · rw [if_pos hWarm]
    exact h.goOn hNone rfl rfl trivial
  · rw [if_neg hWarm]
    exact h.goOn hNone rfl rfl trivial

theorem enterDrive
    (h : SliceIssued s)
    (hNone : s.pc.launching = none)
    (measured : Bool) :
    SliceIssued (s.enterDrive measured) := by
  unfold TimeSlice.enterDrive
  split
  · exact h.endDrive hNone measured
  · exact h.goOn hNone rfl rfl trivial

theorem awaitToken
    (h : SliceIssued s)
    (hNone : s.pc.launching = none)
    (measured : Bool)
    (now : Nat)
    (token : Bool) :
    SliceIssued (s.awaitToken measured now token) := by
  unfold TimeSlice.awaitToken
  split
  · exact h
  · exact h.goOn hNone rfl rfl trivial

theorem leaveTokens
    (h : SliceIssued s)
    (hNone : s.pc.launching = none)
    (measured : Bool)
    (now : Nat) :
    SliceIssued (s.leaveTokens measured now) := by
  unfold TimeSlice.leaveTokens
  split
  · exact h.endDrive hNone measured
  · exact h.countKernel hNone measured

theorem drain
    (h : SliceIssued s)
    (hNone : s.pc.launching = none)
    (target : Nat) :
    SliceIssued (s.drain target) := by
  unfold TimeSlice.drain
  split
  · exact h
  · split
    · exact h.leave hNone _
    · exact h.goOn hNone rfl rfl trivial

/- A started worker has its mutex, so it is told to end. -/
theorem close
    (h : SliceIssued s)
    (hNone : s.pc.launching = none) :
    SliceIssued s.close := by
  refine h.goOn hNone rfl rfl ?_
  intro hStarted
  change (s.accepting && !s.workerSyncReady) = false
  rw [(h.started hStarted).1]
  exact Bool.and_false _

/- One step of the driver keeps what can be waited for. -/
theorem advance
    (h : SliceIssued s)
    {seen : SliceReadings}
    (hLaunches : s.launches (.drive seen) = true)
    {s' : TimeSlice}
    (hStep : s.advance cfg seen = some s') :
    SliceIssued s' := by
  have hNone :
      ∀ {pc}, s.pc = pc → pc.launching = none →
        s.pc.launching = none := by
    intro pc hAt hRest
    rw [hAt]
    exact hRest
  rw [TimeSlice.launches] at hLaunches
  cases TimeSlice.drive_move hStep with
  | initialise hPc => exact h.initialise hPc seen.result
  | launch hPc =>
      rw [hPc] at hLaunches
      exact h.launch hPc hLaunches
  | discover hPc => exact h.discover (hNone hPc rfl) seen.queue
  | driveStart hPc =>
      exact h.goOn (hNone hPc rfl) rfl rfl trivial
  | driveTop hPc => exact h.enterDrive (hNone hPc rfl) _
  | window hPc =>
      exact h.awaitWindow (hNone hPc rfl) _ seen.now
  | tokens hPc =>
      exact
        h.awaitToken (hNone hPc rfl) _ seen.now
          seen.token
  | tokensLeft hPc =>
      exact h.leaveTokens (hNone hPc rfl) _ seen.now
  | drainStart hPc =>
      exact h.goOn (hNone hPc rfl) rfl rfl trivial
  | drain hPc => exact h.drain (hNone hPc rfl) _
  | sampleBase hPc =>
      exact h.goOn (hNone hPc rfl) rfl rfl trivial
  | sampleEnd hPc =>
      exact h.goOn (hNone hPc rfl) rfl rfl trivial
  | print hPc => exact h.goOn (hNone hPc rfl) rfl rfl trivial
  | restore hPc => exact h.goOn (hNone hPc rfl) rfl rfl trivial
  | closing hPc => exact h.close (hNone hPc rfl)
  | joinWorker hPc hExited =>
      exact h.goOn (hNone hPc rfl) rfl rfl trivial

theorem drive
    (h : SliceIssued s)
    {seen : SliceReadings}
    (hLaunches : s.launches (.drive seen) = true)
    {s' : TimeSlice}
    (hStep : s.drive cfg seen = some s') :
    SliceIssued s' := by
  have hOn : SliceIssued { s with clock := seen.now } :=
    { h with }
  have hNow :
      TimeSlice.launches { s with clock := seen.now }
          (.drive seen) =
        true :=
    hLaunches
  exact hOn.advance hNow (TimeSlice.drive_eq hStep)

/- What a running worker changes for the driver. -/
theorem place_work
    (h : SliceIssued s)
    (hRuns : s.worker ≠ .absent)
    {completed waited : Nat}
    {accepting : Bool}
    {workerResult : DocaError}
    {worker : SliceWorker}
    (hClosed : s.accepting = false → accepting = false) :
    TimeSlice.IssuedAt
      { s with
        completed := completed
        waited := waited
        accepting := accepting
        workerResult := workerResult
        worker := worker }
      s.pc := by
  have hPlace := h.place
  cases hPc : s.pc with
  | initialise stage =>
      rw [hPc] at hPlace
      cases stage with
      | cond | worker => exact absurd hPlace.1 hRuns
      | compEvent | mutex => exact absurd hPlace hRuns
  | joinWorker =>
      rw [hPc] at hPlace
      exact fun hStarted => hClosed (hPlace hStarted)
  | _ => trivial

/- The worker waits for a kernel that it may wait for. -/
theorem work
    (h : SliceIssued s)
    {r : DocaError}
    {s' : TimeSlice}
    (hStep : s.work r = some s') :
    SliceIssued s' := by
  unfold TimeSlice.work at hStep
  split at hStep
  · cases hStep
  · cases hPc : s.worker with
    | absent | exited =>
        rw [hPc] at hStep
        cases hStep
    | idle =>
        have hRuns : s.worker ≠ .absent := by simp [hPc]
        have hNone : s.workerResult = .success := by
          by_contra hFailed
          rw [h.failed hFailed] at hPc
          cases hPc
        rw [hPc] at hStep
        rw [← Option.some.inj hStep]
        unfold TimeSlice.takeKernel
        split
        case isTrue =>
          split
          case isTrue => exact h
          case isFalse =>
            exact
              { h with
                waiting := fun hWaits => by cases hWaits
                failed := fun _ => rfl
                started := fun hStarted =>
                  ⟨(h.started hStarted).1, by simp⟩
                place := h.place_work hRuns id }
        case isFalse hMore =>
          exact
            { h with
              waiting := fun _ =>
                h.issued _ (Nat.lt_of_not_le hMore)
              failed := fun hFailed => absurd hNone hFailed
              started := fun hStarted =>
                ⟨(h.started hStarted).1, by simp⟩
              place := h.place_work hRuns id }
    | waiting =>
        have hRuns : s.worker ≠ .absent := by simp [hPc]
        have hNone : s.workerResult = .success := by
          by_contra hFailed
          rw [h.failed hFailed] at hPc
          cases hPc
        rw [hPc] at hStep
        rw [← Option.some.inj hStep]
        unfold TimeSlice.returned
        split
        case isTrue =>
          exact
            { h with
              waiting := fun hWaits => by cases hWaits
              failed := fun hFailed => absurd hNone hFailed
              started := fun hStarted =>
                ⟨(h.started hStarted).1, by simp⟩
              place := h.place_work hRuns id }
        case isFalse hError =>
          exact
            { issued := fun _ _ => Or.inr (Or.inr hError)
              waiting := fun _ => Or.inr (Or.inr hError)
              failed := fun _ => rfl
              small := h.small
              started := fun hStarted =>
                ⟨(h.started hStarted).1, by simp⟩
              place := h.place_work hRuns fun _ => rfl }

/- A step that launches what it counts keeps all this. -/
theorem step
    (h : SliceIssued s)
    {e : SliceEvent}
    (hLaunches : s.launches e = true)
    {s' : TimeSlice}
    (hStep : TimeSlice.step cfg s e = some s') :
    SliceIssued s' := by
  cases e with
  | stop =>
      rw [← Option.some.inj hStep]
      exact { h with }
  | drive seen => exact h.drive hLaunches hStep
  | work r => exact h.work hStep

theorem start : SliceIssued TimeSlice.start :=
  { issued := fun _ hLess => absurd hLess (Nat.not_lt_zero _)
    waiting := fun hWaits => by cases hWaits
    failed := fun hFailed => absurd rfl hFailed
    small := Nat.two_pow_pos 64
    started := fun hStarted => by cases hStarted
    place := rfl }

/- Nothing is about to be launched in the cleanup. -/
theorem launched_or
    (h : SliceIssued s)
    (hNone : s.pc.launching = none) :
    (∀ i, i < s.submitted → i ∈ s.launched) ∨
      s.worker = .exited ∧ s.workerResult ≠ .success := by
  by_cases hFailed : s.workerResult = .success
  · apply Or.inl
    intro i hLess
    rcases h.issued i hLess with hOld | hNow | hError
    · exact hOld
    · rw [hNone] at hNow
      cases hNow
    · exact absurd hFailed hError
  · exact Or.inr ⟨h.failed hFailed, hFailed⟩

end SliceIssued

end Drex

------------------------------------------------------------
-- End Of The Worker
------------------------------------------------------------

namespace Drex

open Drex.Core

/- The worker is told to end and has launched kernels left. -/
structure SliceDraining (s : TimeSlice) : Prop where
  launched : ∀ i, i < s.submitted → i ∈ s.launched
  small : s.submitted < 2 ^ 64
  closed : s.accepting = false
  free : s.pc.holdsMutex = false

namespace SliceDraining

variable (cfg : SliceConfig) {s : TimeSlice}

/- A step of a worker whose wait returns. -/
theorem reaches_work
    {s' : TimeSlice}
    (hReturns : s.returns (.work .success) = true)
    (hStep : s.work .success = some s') :
    Reaches
      (guarded TimeSlice.returns (TimeSlice.step cfg))
      s s' := by
  have hGuarded :
      guarded TimeSlice.returns (TimeSlice.step cfg) s
          (.work .success) =
        some s' :=
    guarded_eq_some_iff.mpr ⟨hReturns, hStep⟩
  exact .next .start hGuarded

theorem waiting_step
    (h : SliceDraining s)
    (hPc : s.worker = .waiting)
    (hWaited : s.waited ∈ s.launched) :
    Reaches
      (guarded TimeSlice.returns (TimeSlice.step cfg))
      s (s.returned .success) := by
  apply reaches_work cfg
  · simp [TimeSlice.returns, hWaited]
  · simp [TimeSlice.work, h.free, hPc]

theorem idle_step
    (h : SliceDraining s)
    (hPc : s.worker = .idle) :
    Reaches
      (guarded TimeSlice.returns (TimeSlice.step cfg))
      s s.takeKernel := by
  apply reaches_work cfg
  · simp [TimeSlice.returns, hPc]
  · simp [TimeSlice.work, h.free, hPc]

/- From the head of its loop, the worker reaches its end. -/
theorem idle_ends
    (h : SliceDraining s)
    (hPc : s.worker = .idle) :
    ∃ s',
      Reaches
          (guarded TimeSlice.returns (TimeSlice.step cfg))
          s s' ∧
        s'.worker = .exited := by
  induction hLeft : s.submitted - s.waited
    generalizing s with
  | zero =>
      have hLe : s.submitted ≤ s.waited := by omega
      have hExit : s.takeKernel = { s with worker := .exited } := by
        simp [TimeSlice.takeKernel, hLe, h.closed]
      have hReach := h.idle_step cfg hPc
      rw [hExit] at hReach
      exact ⟨_, hReach, rfl⟩
  | succ n ih =>
      have hLt : s.waited < s.submitted := by omega
      have hTake :
          s.takeKernel = { s with worker := .waiting } :=
        if_neg (Nat.not_le_of_lt hLt)
      have hNext : wrap 64 (s.waited + 1) = s.waited + 1 := by
        have hSmall := h.small
        exact wrap_of_lt (by omega)
      have hFirst := h.idle_step cfg hPc
      rw [hTake] at hFirst
      have hWaits :
          SliceDraining { s with worker := .waiting } :=
        { h with }
      have hSecond :=
        hWaits.waiting_step cfg rfl (h.launched _ hLt)
      have hBack :
          SliceDraining
            (TimeSlice.returned { s with worker := .waiting }
              .success) :=
        { h with }
      have hFewer :
          s.submitted - wrap 64 (s.waited + 1) = n := by
        rw [hNext]
        omega
      rcases ih hBack rfl hFewer with ⟨s', hRest, hExited⟩
      exact
        ⟨s', hFirst.trans (hSecond.trans hRest), hExited⟩

/- The worker reaches its end from wherever it is. -/
theorem ends
    (h : SliceDraining s)
    (hStarted : s.worker ≠ .absent)
    (hWaiting : s.worker = .waiting → s.waited ∈ s.launched) :
    ∃ s',
      Reaches
          (guarded TimeSlice.returns (TimeSlice.step cfg))
          s s' ∧
        s'.worker = .exited := by
  cases hPc : s.worker with
  | absent => exact absurd hPc hStarted
  | exited => exact ⟨s, .start, hPc⟩
  | idle => exact h.idle_ends cfg hPc
  | waiting =>
      have hFirst := h.waiting_step cfg hPc (hWaiting hPc)
      have hBack : SliceDraining (s.returned .success) :=
        { h with }
      rcases hBack.idle_ends cfg rfl with
        ⟨s', hRest, hExited⟩
      exact ⟨s', hFirst.trans hRest, hExited⟩

end SliceDraining

end Drex

------------------------------------------------------------
-- The Join
------------------------------------------------------------

namespace Drex

open Drex.Core

variable {cfg : SliceConfig} {s : TimeSlice}

theorem SliceIssued.launchesSound
    (h : SliceIssued s) :
    LaunchesSound cfg s := by
  have hPlace := h.place
  refine { launched := ?_, joins := ?_ }
  · intro hPc
    apply h.launched_or
    rw [hPc]
    rfl
  · intro hPc hStarted
    have hNone : s.pc.launching = none := by
      rw [hPc]
      rfl
    rw [hPc] at hPlace
    rcases h.launched_or hNone with hLaunched | ⟨hExited, _⟩
    · have hDrain : SliceDraining s :=
        { launched := hLaunched
          small := h.small
          closed := hPlace hStarted
          free := by
            rw [hPc]
            rfl }
      apply hDrain.ends cfg (h.started hStarted).2
      intro hWaits
      rcases h.waiting hWaits with hOld | hNow | hFailed
      · exact hOld
      · rw [hNone] at hNow
        cases hNow
      · rw [h.failed hFailed] at hWaits
        cases hWaits
    · exact ⟨s, .start, hExited⟩

/-
  Where no launch fails while the worker runs, the worker
  waits for launched kernels only and is joined.
-/
theorem launches_join
    (h :
      Reaches
        (guarded TimeSlice.launches (TimeSlice.step cfg))
        TimeSlice.start s) :
    LaunchesSound cfg s := by
  have hIssued : SliceIssued s := by
    apply h.invariant SliceIssued.start
    intro s₀ e s₁ hBefore hNext
    rcases guarded_eq_some_iff.mp hNext with
      ⟨hLaunches, hStep⟩
    exact hBefore.step hLaunches hStep
  exact hIssued.launchesSound

/- No warm-up, a second of measurement, five in flight. -/
def secondConfig : SliceConfig :=
  { warmupMs := 0
    runtimeMs := 1000
    maxInflight := 5
    tokenMode := false
    maxInflight_lt := by decide }

/- The calls succeed at this reading of the clock. -/
def succeeds (now : Nat) : SliceReadings :=
  { result := .success, now := now, token := false, queue := 0 }

/- Two kernels are launched, and the worker waits for one. -/
theorem launches_join_waiting :
    ∃ s : TimeSlice,
      s.pc = .joinWorker ∧ s.submitted = 2 ∧
        s.worker = .waiting ∧
          LaunchesSound secondConfig s := by
  have hRun :
      (runLabels
          (guarded TimeSlice.launches
            (TimeSlice.step secondConfig))
          (List.replicate 13 (.drive (succeeds 0)) ++
            [.work .success, .stop] ++
            List.replicate 5 (.drive (succeeds 1)))
          TimeSlice.start).any
        (fun s =>
          decide
            (s.pc = .joinWorker ∧ s.submitted = 2 ∧
              s.worker = .waiting)) =
        true := by
    decide +kernel
  rcases reaches_of_any hRun with ⟨s, hReach, hCheck⟩
  rcases of_decide_eq_true hCheck with
    ⟨hPc, hSubmitted, hWaits⟩
  exact ⟨s, hPc, hSubmitted, hWaits, launches_join hReach⟩

/-
  The first launch fails.  Its kernel is counted when the
  cleanup clears `accepting`, and was not launched.
-/
theorem launches_join_failed :
    ¬ ∀ (cfg : SliceConfig) (s : TimeSlice),
        Reaches (TimeSlice.step cfg) TimeSlice.start s →
          LaunchesSound cfg s := by
  intro hAll
  have hRun :
      (runLabels (TimeSlice.step secondConfig)
          (List.replicate 9 (.drive (succeeds 0)) ++
            [.drive
                { succeeds 0 with result := .other 1 },
              .drive (succeeds 0)])
          TimeSlice.start).any
        (fun s =>
          decide
            (s.pc = .closing ∧ s.submitted = 1 ∧
              s.launched = [] ∧ s.worker = .idle)) =
        true := by
    decide +kernel
  rcases reaches_of_any hRun with ⟨s, hReach, hCheck⟩
  rcases of_decide_eq_true hCheck with
    ⟨hPc, hSubmitted, hNone, hWorker⟩
  rcases (hAll _ s hReach).launched hPc with
    hLaunched | ⟨hExited, _⟩
  · have hMem := hLaunched 0 (by omega)
    rw [hNone] at hMem
    exact List.not_mem_nil hMem
  · rw [hWorker] at hExited
    cases hExited

end Drex
