import Drex.Application.ProcessSync

/-
  The windows of a pair of processes: as long as one of them
  measures a window, the other is at the same window.

  A process is read as a party of a barrier with one call
  for each `Sync`, and the shared count is the arrivals with
  what the segment started with, without what its
  initialisation threw away.

  Key definitions include:
    * `SyncProcess.passed`
    * `SyncProcess.arrived`
    * `SyncRun.tally`
    * `ProcessSound`
    * `SyncSound`

  Key theorems include:
    * `ProcessSound.move`
    * `SyncSound.step`
    * `windows_overlap`
-/

------------------------------------------------------------
-- Calls Of Sync
------------------------------------------------------------

namespace Drex

open Drex.Core

/- The window was begun and is not over. -/
def LoopPc.pastOpening : LoopPc → Bool
| .head => false
| .opening => false
| .done => false
| _ => true

namespace SyncProcess

variable (p : SyncProcess)

/- The calls of `Sync` that returned. -/
def passed : Nat :=
  match p.phase with
  | .attach => 0
  | .initialise => 0
  | .built => 0
  | .warmup => 1
  | .warmed => 1
  | .openReport => 2
  | .looping =>
      2 * p.loop.window + if p.loop.pc.pastOpening then 1 else 0

/- The calls of `Sync` that were counted. -/
def arrived : Nat :=
  p.passed + if p.waiting then 1 else 0

end SyncProcess

/- The processes as the parties of a barrier. -/
def SyncRun.tally
    {ι : Type}
    (s : SyncRun ι) :
    Tally ι :=
  { arrived := fun i => (s.processes i).arrived
    passed := fun i => (s.processes i).passed }

theorem startTarget_eq
    {window : Nat}
    (h : 4 + 4 * window < 2 ^ 31) :
    startTarget window = 2 * ((2 * window : Nat) + 1) := by
  unfold startTarget toInt
  rw [Int.bmod_eq_of_le (by omega) (by omega)]
  omega

theorem stopTarget_eq
    {window : Nat}
    (h : 4 + 4 * window < 2 ^ 31) :
    stopTarget window = 2 * ((2 * window + 1 : Nat) + 1) := by
  unfold stopTarget toInt
  rw [Int.bmod_eq_of_le (by omega) (by omega)]
  omega

end Drex

------------------------------------------------------------
-- One Process
------------------------------------------------------------

namespace Drex

open Drex.Core

/-
  What holds of a process: its report, and that it only
  waits in a call of `Sync`.
-/
structure ProcessSound
    (cfg : SyncConfig)
    (p : SyncProcess) : Prop where
  report : ReportSound cfg.loop p.loop
  window : 1 ≤ p.loop.window
  waits : p.waiting = true → ∃ target, p.target? = some target

/- What a step of a process means for the barrier. -/
inductive CallMove
    (p p' : SyncProcess)
    (count count' lost : Nat) : Prop
| stay
    (hArrived : p'.arrived = p.arrived)
    (hPassed : p'.passed = p.passed)
    (hCount : count' + lost = count)
| arrive
    (hFree : p.arrived = p.passed)
    (hArrived : p'.arrived = p.arrived + 1)
    (hPassed : p'.passed = p.passed)
    (hCount : count' = count + 1)
    (hLost : lost = 0)
| through
    (hFree : p.arrived = p.passed)
    (hArrived : p'.arrived = p.arrived + 1)
    (hPassed : p'.passed = p.arrived + 1)
    (hCount : count' = count + 1)
    (hEnough : 2 * (p.arrived + 1) ≤ count')
    (hLost : lost = 0)
| wake
    (hWaits : p.arrived = p.passed + 1)
    (hArrived : p'.arrived = p.arrived)
    (hPassed : p'.passed = p.arrived)
    (hCount : count' = count)
    (hEnough : 2 * p.arrived ≤ count)
    (hLost : lost = 0)

/- What a loop step between two calls changes. -/
structure LoopKept (l l' : LoopState) : Prop where
  window : l'.window = l.window
  past : l'.pc.pastOpening = l.pc.pastOpening

theorem LoopState.advance_kept
    {cfg : LoopConfig}
    {l l' : LoopState}
    {now : Int}
    (h : l.advance cfg now = some l')
    (hOpening : l.pc ≠ .opening)
    (hClosing : l.pc ≠ .closing) :
    LoopKept l l' := by
  cases LoopState.advance_move h with
  | head hPc =>
      unfold enterWindow
      split <;> exact ⟨rfl, by rw [hPc]; rfl⟩
  | opening hPc => exact absurd hPc hOpening
  | begin hPc => exact ⟨rfl, by rw [hPc]; rfl⟩
  | turn hPc =>
      unfold enterTurn
      split <;> exact ⟨rfl, by rw [hPc]; rfl⟩
  | gate hPc =>
      unfold leaveGate
      split <;> exact ⟨rfl, by rw [hPc]; rfl⟩
  | infer hPc => exact ⟨rfl, by rw [hPc]; rfl⟩
  | check hPc =>
      refine ⟨rfl, ?_⟩
      rw [hPc]
      unfold checkTime
      dsimp only
      split <;> rfl
  | close hPc => exact ⟨rfl, by rw [hPc]; rfl⟩
  | closing hPc => exact absurd hPc hClosing

namespace ProcessSound

variable {cfg : SyncConfig} {p p' : SyncProcess}

/- A call of `Sync` and what follows it. -/
theorem leaveSync
    (h : ProcessSound cfg p)
    {target : Int}
    (hTarget : p.target? = some target) :
    ProcessSound cfg p.leaveSync ∧
      p.leaveSync.waiting = false ∧
        p.leaveSync.passed = p.passed + 1 ∧
          target = 2 * ((p.passed : Int) + 1) := by
  rcases p with ⟨phase, waiting, loop⟩
  have hReport : ReportSound cfg.loop loop := h.report
  have hFits := cfg.targets_fit
  have hKept :
      ∀ {phase : SyncPhase},
        ProcessSound cfg ⟨phase, false, loop⟩ :=
    ⟨hReport, h.window, fun hWaits => by cases hWaits⟩
  cases phase with
  | attach | initialise | warmup | openReport =>
      cases hTarget
  | built =>
      exact
        ⟨hKept, rfl, rfl, (Option.some.inj hTarget).symm⟩
  | warmed =>
      exact
        ⟨hKept, rfl, rfl, (Option.some.inj hTarget).symm⟩
  | looping =>
      cases hPc : loop.pc with
      | opening =>
          have hOpened : loop.window ≤ cfg.loop.windowCount :=
            hReport.opened (by rw [hPc]; rfl)
          have hFit : 4 + 4 * loop.window < 2 ^ 31 := by
            omega
          have hEq := startTarget_eq hFit
          simp only [SyncProcess.target?, hPc,
            Option.some.injEq] at hTarget
          simp only [SyncProcess.leaveSync, hPc,
            SyncProcess.passed]
          refine ⟨⟨hReport.opening hPc, h.window, ?_⟩, ?_⟩
          · exact fun hWaits => by cases hWaits
          · refine ⟨trivial, rfl, ?_⟩
            rw [← hTarget, hEq]
            simp [LoopPc.pastOpening]
      | closing =>
          have hOpened : loop.window ≤ cfg.loop.windowCount :=
            hReport.opened (by rw [hPc]; rfl)
          have hFit : 4 + 4 * loop.window < 2 ^ 31 := by
            omega
          have hEq := stopTarget_eq hFit
          simp only [SyncProcess.target?, hPc,
            Option.some.injEq] at hTarget
          simp only [SyncProcess.leaveSync, hPc,
            SyncProcess.passed]
          refine ⟨⟨hReport.nextWindow hPc, ?_, ?_⟩, ?_⟩
          · exact Nat.succ_pos _
          · exact fun hWaits => by cases hWaits
          · refine ⟨trivial, rfl, ?_⟩
            rw [← hTarget, hEq]
            simp [LoopPc.pastOpening]
      | _ =>
          simp only [SyncProcess.target?, hPc] at hTarget
          cases hTarget

/- A process that is in no call of `Sync` does not wait. -/
theorem not_waiting
    (h : ProcessSound cfg p)
    (hNone : p.target? = none) :
    p.waiting = false := by
  cases hWaits : p.waiting with
  | false => rfl
  | true =>
      rcases h.waits hWaits with ⟨target, hSome⟩
      rw [hNone] at hSome
      cases hSome

/- Only the initialisation of the segment throws calls away. -/
theorem discards_of_phase
    (segment : SyncSegment)
    (hPhase : p.phase ≠ .initialise) :
    p.discards segment = 0 :=
  if_neg hPhase

theorem discards_of_target
    (segment : SyncSegment)
    {target : Int}
    (hTarget : p.target? = some target) :
    p.discards segment = 0 := by
  refine discards_of_phase segment fun hPhase => ?_
  rw [SyncProcess.target?, hPhase] at hTarget
  cases hTarget

theorem arrived_of_waiting
    (hWaits : p.waiting = true) :
    p.arrived = p.passed + 1 := by
  rw [SyncProcess.arrived, hWaits]
  rfl

theorem arrived_of_free
    (hWaits : p.waiting = false) :
    p.arrived = p.passed := by
  rw [SyncProcess.arrived, hWaits]
  rfl

variable {segment : SyncSegment} {target : Int}

/- A call that has waited returns. -/
theorem wake
    (h : ProcessSound cfg p)
    (hTarget : p.target? = some target)
    (hWaits : p.waiting = true)
    (hCount : target ≤ segment.count) :
    ProcessSound cfg p.leaveSync ∧
      CallMove p p.leaveSync segment.count segment.count
        (p.discards segment) := by
  rcases h.leaveSync hTarget with
    ⟨hSound, hLeft, hPassed, hEq⟩
  have hArrived := arrived_of_waiting hWaits
  refine ⟨hSound, .wake hArrived ?_ ?_ rfl ?_ ?_⟩
  · rw [arrived_of_free hLeft, hPassed, hArrived]
  · rw [hPassed, hArrived]
  · omega
  · exact discards_of_target segment hTarget

/- A call arrives and has to wait. -/
theorem wait
    (h : ProcessSound cfg p)
    (hTarget : p.target? = some target)
    (hWaits : p.waiting = false) :
    ProcessSound cfg { p with waiting := true } ∧
      CallMove p { p with waiting := true } segment.count
        (segment.count + 1) (p.discards segment) := by
  have hArrived := arrived_of_free hWaits
  refine
    ⟨⟨h.report, h.window, fun _ => ⟨_, hTarget⟩⟩,
      .arrive hArrived ?_ rfl rfl
        (discards_of_target segment hTarget)⟩
  rw [hArrived]
  rfl

/- A call arrives and returns at once. -/
theorem pass
    (h : ProcessSound cfg p)
    (hTarget : p.target? = some target)
    (hWaits : p.waiting = false)
    (hCount : target ≤ segment.count + 1) :
    ProcessSound cfg p.leaveSync ∧
      CallMove p p.leaveSync segment.count
        (segment.count + 1) (p.discards segment) := by
  rcases h.leaveSync hTarget with
    ⟨hSound, hLeft, hPassed, hEq⟩
  have hArrived := arrived_of_free hWaits
  refine ⟨hSound, .through hArrived ?_ ?_ rfl ?_ ?_⟩
  · rw [arrived_of_free hLeft, hPassed, hArrived]
  · rw [hPassed, hArrived]
  · omega
  · exact discards_of_target segment hTarget

/- A step of the loop between two calls is none of them. -/
theorem turn
    (h : ProcessSound cfg p)
    {now : Int}
    {loop : LoopState}
    (hPhase : p.phase = .looping)
    (hNone : p.target? = none)
    (hStep : p.loop.advance cfg.loop now = some loop) :
    ProcessSound cfg { p with loop := loop } ∧
      CallMove p { p with loop := loop } segment.count
        segment.count (p.discards segment) := by
  have hWaits := h.not_waiting hNone
  have hOpening : p.loop.pc ≠ .opening := by
    intro hPc
    rw [SyncProcess.target?, hPhase] at hNone
    simp [hPc] at hNone
  have hClosing : p.loop.pc ≠ .closing := by
    intro hPc
    rw [SyncProcess.target?, hPhase] at hNone
    simp [hPc] at hNone
  have hKept := LoopState.advance_kept hStep hOpening hClosing
  have hPassed :
      SyncProcess.passed { p with loop := loop } =
        p.passed := by
    simp only [SyncProcess.passed, hPhase]
    rw [hKept.window, hKept.past]
  have hLooping : p.phase ≠ .initialise := by
    rw [hPhase]
    exact SyncPhase.noConfusion
  refine
    ⟨⟨h.report.advance hStep, ?_, fun hW => ?_⟩,
      .stay ?_ hPassed ?_⟩
  · change 1 ≤ loop.window
    rw [hKept.window]
    exact h.window
  · cases hWaits.symm.trans hW
  · simp only [SyncProcess.arrived]
    rw [hPassed]
  · rw [discards_of_phase segment hLooping, Nat.add_zero]

/- Every step of a process is one for the barrier. -/
theorem move
    (h : ProcessSound cfg p)
    {segment' : SyncSegment}
    {now : Int}
    (hMove :
      SyncProcess.SyncMove cfg p segment now segment' p') :
    ProcessSound cfg p' ∧
      CallMove p p' segment.count segment'.count
        (p.discards segment) := by
  cases hMove with
  | attach hPhase hUsed =>
      rcases p with ⟨phase, waiting, loop⟩
      obtain rfl : phase = .attach := hPhase
      obtain rfl : waiting = false := h.not_waiting rfl
      exact
        ⟨⟨h.report, h.window, fun hWaits => by cases hWaits⟩,
          .stay rfl rfl rfl⟩
  | claim hPhase hNew =>
      rcases p with ⟨phase, waiting, loop⟩
      obtain rfl : phase = .attach := hPhase
      obtain rfl : waiting = false := h.not_waiting rfl
      exact
        ⟨⟨h.report, h.window, fun hWaits => by cases hWaits⟩,
          .stay rfl rfl rfl⟩
  | initialise hPhase =>
      rcases p with ⟨phase, waiting, loop⟩
      obtain rfl : phase = .initialise := hPhase
      obtain rfl : waiting = false := h.not_waiting rfl
      exact
        ⟨⟨h.report, h.window, fun hWaits => by cases hWaits⟩,
          .stay rfl rfl (Nat.zero_add _)⟩
  | warmup hPhase =>
      rcases p with ⟨phase, waiting, loop⟩
      obtain rfl : phase = .warmup := hPhase
      obtain rfl : waiting = false := h.not_waiting rfl
      exact
        ⟨⟨h.report, h.window, fun hWaits => by cases hWaits⟩,
          .stay rfl rfl rfl⟩
  | openReport hPhase =>
      rcases p with ⟨phase, waiting, loop⟩
      obtain rfl : phase = .openReport := hPhase
      obtain rfl : waiting = false := h.not_waiting rfl
      have hStart := ReportSound.start cfg.loop now
      have hReport :
          ReportSound cfg.loop
            { loopStart now with stop := loop.stop } := by
        cases loop.stop with
        | false => exact hStart
        | true => exact hStart.request
      exact
        ⟨⟨hReport, Nat.le_refl 1,
            fun hWaits => by cases hWaits⟩,
          .stay rfl rfl rfl⟩
  | sleep hTarget hWaits hCount =>
      refine ⟨h, .stay rfl rfl ?_⟩
      rw [discards_of_target segment hTarget, Nat.add_zero]
  | wake hTarget hWaits hCount =>
      exact h.wake hTarget hWaits hCount
  | wait hTarget hWaits hCount => exact h.wait hTarget hWaits
  | pass hTarget hWaits hCount =>
      exact h.pass hTarget hWaits hCount
  | loop hPhase hNone hStep => exact h.turn hPhase hNone hStep

end ProcessSound

end Drex

------------------------------------------------------------
-- All Processes
------------------------------------------------------------

namespace Drex

open Drex.Core

section

variable {ι : Type}
variable [DecidableEq ι]

/- A run with another process in one place. -/
theorem SyncRun.tally_update
    (processes : ι → SyncProcess)
    (segment : SyncSegment)
    (lost : Nat)
    (i : ι)
    (p : SyncProcess) :
    SyncRun.tally
        ⟨segment, Function.update processes i p, lost⟩ =
      { arrived :=
          Function.update (fun j => (processes j).arrived) i
            p.arrived
        passed :=
          Function.update (fun j => (processes j).passed) i
            p.passed } := by
  unfold SyncRun.tally
  congr
  · funext j
    exact
      Function.apply_update
        (fun _ => SyncProcess.arrived) processes i p j
  · funext j
    exact
      Function.apply_update
        (fun _ => SyncProcess.passed) processes i p j

end

variable {ι : Type}
variable [Fintype ι]

/-
  The processes are sound, and the segment counts the calls
  of a barrier that they keep to.
-/
structure SyncSound
    (cfg : ι → SyncConfig)
    (left : Nat)
    (s : SyncRun ι) : Prop where
  processes : ∀ i, ProcessSound (cfg i) (s.processes i)
  counted :
    s.segment.count + s.lost = left + s.tally.arrivals
  rounds : Rounds left s.tally

namespace SyncSound

variable {cfg : ι → SyncConfig}
variable {left : Nat}
variable {s s' : SyncRun ι}

theorem start
    (cfg : ι → SyncConfig)
    (segment : SyncSegment) :
    SyncSound cfg segment.count (syncStart segment) := by
  have hTally :
      (syncStart (ι := ι) segment).tally =
        ⟨fun _ => 0, fun _ => 0⟩ := rfl
  refine
    { processes := fun i =>
        ⟨.start _ 0, Nat.le_refl 1, fun hWaits => by
          cases hWaits⟩
      counted := ?_
      rounds := ?_ }
  · rw [hTally]
    simp [syncStart, Tally.arrivals]
  · rw [hTally]
    exact .start _

variable [DecidableEq ι]

/- A signal changes nothing that the barrier is about. -/
theorem request
    (h : SyncSound cfg left s)
    {i : ι}
    (hStep : syncStep cfg s (.stop i) = some s') :
    SyncSound cfg left s' := by
  have hProcess := h.processes i
  obtain rfl := Option.some.inj hStep
  have hTally :
      SyncRun.tally
          { s with
            processes :=
              Function.update s.processes i
                { s.processes i with
                  loop :=
                    { (s.processes i).loop with
                      stop := true } } } =
        s.tally := by
    rw [SyncRun.tally_update]
    unfold SyncRun.tally
    congr
    · exact Function.update_eq_self i _
    · exact Function.update_eq_self i _
  refine
    { processes := fun j => ?_
      counted := ?_
      rounds := ?_ }
  · dsimp only
    by_cases hj : j = i
    · subst hj
      rw [Function.update_self]
      exact
        ⟨hProcess.report.request, hProcess.window,
          hProcess.waits⟩
    · rw [Function.update_of_ne hj]
      exact h.processes j
  · rw [hTally]
    exact h.counted
  · rw [hTally]
    exact h.rounds

/- Every step of a pair is one of the barrier for two. -/
theorem step
    (hPair : Fintype.card ι = 2)
    (h : SyncSound cfg left s)
    {i : ι}
    {now : Int}
    (hStep : syncStep cfg s (.step i now) = some s') :
    SyncSound cfg left s' := by
  rcases Option.map_eq_some_iff.mp hStep with
    ⟨⟨segment, p⟩, hLocal, rfl⟩
  rcases (h.processes i).move (SyncProcess.step_move hLocal)
    with ⟨hProcess, hCall⟩
  have hCounted := h.counted
  have hRounds := h.rounds
  have hProcesses :
      ∀ j,
        ProcessSound (cfg j)
          (Function.update s.processes i p j) := by
    intro j
    by_cases hj : j = i
    · subst hj
      rw [Function.update_self]
      exact hProcess
    · rw [Function.update_of_ne hj]
      exact h.processes j
  have hTally :=
    SyncRun.tally_update s.processes segment
      (s.lost + (s.processes i).discards s.segment) i p
  cases hCall with
  | stay hArrived hPassed hCount =>
      have hSame :
          SyncRun.tally
              ⟨segment, Function.update s.processes i p,
                s.lost +
                  (s.processes i).discards s.segment⟩ =
            s.tally := by
        rw [hTally, hArrived, hPassed,
          Function.update_eq_self i, Function.update_eq_self i]
        rfl
      refine ⟨hProcesses, ?_, ?_⟩
      · rw [hSame]
        dsimp only
        omega
      · rw [hSame]
        exact hRounds
  | arrive hFree hArrived hPassed hCount hLost =>
      have hSame :
          SyncRun.tally
              ⟨segment, Function.update s.processes i p,
                s.lost +
                  (s.processes i).discards s.segment⟩ =
            s.tally.arrive i := by
        rw [hTally, hArrived, hPassed,
          Function.update_eq_self i]
        rfl
      refine ⟨hProcesses, ?_, ?_⟩
      · rw [hSame, Tally.arrivals_arrive]
        dsimp only
        omega
      · rw [hSame]
        exact hRounds.arrive hFree
  | through hFree hArrived hPassed hCount hEnough hLost =>
      have hHere :
          (s.tally.arrive i).arrived i =
            (s.processes i).arrived + 1 :=
        Function.update_self i _ _
      have hSame :
          SyncRun.tally
              ⟨segment, Function.update s.processes i p,
                s.lost +
                  (s.processes i).discards s.segment⟩ =
            (s.tally.arrive i).pass i := by
        unfold Tally.pass
        rw [hTally, hArrived, hPassed, hHere]
        rfl
      have hSum := s.tally.arrivals_arrive i
      refine ⟨hProcesses, ?_, ?_⟩
      · rw [hSame, Tally.arrivals_pass, hSum]
        dsimp only
        omega
      · rw [hSame]
        refine (hRounds.arrive hFree).pass ?_ ?_
        · rw [hHere, hFree]
          rfl
        · rw [hHere, hPair, hSum]
          omega
  | wake hWaits hArrived hPassed hCount hEnough hLost =>
      have hSame :
          SyncRun.tally
              ⟨segment, Function.update s.processes i p,
                s.lost +
                  (s.processes i).discards s.segment⟩ =
            s.tally.pass i := by
        rw [hTally, hArrived, hPassed,
          Function.update_eq_self i]
        rfl
      refine ⟨hProcesses, ?_, ?_⟩
      · rw [hSame, Tally.arrivals_pass]
        dsimp only
        omega
      · rw [hSame]
        refine hRounds.pass hWaits ?_
        rw [hPair]
        change
          2 * (s.processes i).arrived ≤
            left + s.tally.arrivals
        omega

/- A pair keeps to the barrier in every run. -/
theorem reached
    (hPair : Fintype.card ι = 2)
    {segment : SyncSegment}
    (h : Reaches (syncStep cfg) (syncStart segment) s) :
    SyncSound cfg segment.count s := by
  refine Reaches.invariant (.start cfg segment) ?_ h
  intro s e s' hSound hStep
  cases e with
  | stop i => exact hSound.request hStep
  | step i now => exact hSound.step hPair hStep

end SyncSound

end Drex

------------------------------------------------------------
-- Windows
------------------------------------------------------------

namespace Drex

open Drex.Core

/- The process measures this window. -/
structure SyncProcess.Measures
    (p : SyncProcess)
    (window : Nat) : Prop where
  phase : p.phase = .looping
  window : p.loop.window = window
  begun : p.loop.pc.pastOpening = true
  free : p.waiting = false

/-
  The process is at this window: it waits to begin it, or
  has begun it and did not go on from its end.
-/
structure SyncProcess.AtWindow
    (p : SyncProcess)
    (window : Nat) : Prop where
  phase : p.phase = .looping
  window : p.loop.window = window
  place :
    p.loop.pc = .opening ∧ p.waiting = true ∨
      p.loop.pc.pastOpening = true

/- The calls that were made tell where a process is. -/
theorem ProcessSound.atWindow
    {cfg : SyncConfig}
    {p : SyncProcess}
    (h : ProcessSound cfg p)
    {window : Nat}
    (hWindow : 1 ≤ window)
    (hArrived : 2 * window + 1 ≤ p.arrived)
    (hPassed : p.passed ≤ 2 * window + 1) :
    p.AtWindow window := by
  rcases p with ⟨phase, waiting, loop⟩
  have hReport : ReportSound cfg.loop loop := h.report
  cases phase with
  | looping =>
      have hCalls :
          SyncProcess.passed ⟨.looping, waiting, loop⟩ =
            2 * loop.window +
              if loop.pc.pastOpening then 1 else 0 := rfl
      simp only [SyncProcess.arrived, hCalls] at hArrived
      rw [hCalls] at hPassed
      cases hPast : loop.pc.pastOpening with
      | true =>
          rw [hPast] at hArrived hPassed
          refine ⟨rfl, ?_, Or.inr hPast⟩
          cases waiting with
          | true =>
              simp only [if_true] at hArrived hPassed
              change loop.window = window
              omega
          | false =>
              simp only [if_true, Bool.false_eq_true, if_false]
                at hArrived hPassed
              change loop.window = window
              omega
      | false =>
          rw [hPast] at hArrived hPassed
          cases waiting with
          | true =>
              simp only [if_true, Bool.false_eq_true, if_false]
                at hArrived hPassed
              rcases h.waits rfl with ⟨target, hTarget⟩
              have hPc : loop.pc = .opening := by
                cases hPc : loop.pc with
                | opening => rfl
                | closing =>
                    rw [hPc] at hPast
                    cases hPast
                | _ =>
                    simp only [SyncProcess.target?, hPc]
                      at hTarget
                    cases hTarget
              refine ⟨rfl, ?_, Or.inl ⟨hPc, rfl⟩⟩
              change loop.window = window
              omega
          | false =>
              simp only [Bool.false_eq_true, if_false]
                at hArrived hPassed
              omega
  | attach | initialise | built | warmup | warmed =>
      simp only [SyncProcess.arrived, SyncProcess.passed]
        at hArrived
      split at hArrived <;> omega
  | openReport =>
      cases waiting with
      | true =>
          rcases h.waits rfl with ⟨target, hTarget⟩
          cases hTarget
      | false =>
          simp only [SyncProcess.arrived, SyncProcess.passed,
            Bool.false_eq_true, if_false] at hArrived
          omega

/-
  Of two processes on a new segment, while one measures a
  window the other is at the same window, however they are
  scheduled, stopped or configured.
-/
theorem windows_overlap
    {ι : Type}
    [Fintype ι] [DecidableEq ι]
    (hPair : Fintype.card ι = 2)
    {cfg : ι → SyncConfig}
    {segment : SyncSegment}
    (hNew : segment.count = 0)
    {s : SyncRun ι}
    (h : Reaches (syncStep cfg) (syncStart segment) s)
    {i : ι}
    {window : Nat}
    (hMeasures : (s.processes i).Measures window)
    (j : ι) :
    (s.processes j).AtWindow window := by
  have hSound := SyncSound.reached hPair h
  rw [hNew] at hSound
  have hPassed :
      (s.processes i).passed = 2 * window + 1 := by
    simp only [SyncProcess.passed, hMeasures.phase,
      hMeasures.window, hMeasures.begun, if_true]
  have hArrived :
      (s.processes i).arrived = 2 * window + 1 := by
    rw [SyncProcess.arrived, hPassed, hMeasures.free]
    rfl
  have hWindow : 1 ≤ window := by
    rw [← hMeasures.window]
    exact (hSound.processes i).window
  have hHere :
      (s.processes i).passed ≤ (s.processes j).arrived :=
    hSound.rounds.together i j
  have hThere :
      (s.processes j).passed ≤ (s.processes i).arrived :=
    hSound.rounds.together j i
  rw [hPassed] at hHere
  rw [hArrived] at hThere
  exact (hSound.processes j).atWindow hWindow hHere hThere

/- Three seconds in windows of two, without the recheck. -/
def threeSecondsPair (_ : Bool) : SyncConfig :=
  { loop := threeSeconds
    plain := rfl
    targets_fit := by decide }

/- One is in its first window while the other wakes up. -/
theorem windows_overlap_first :
    ∃ s : SyncRun Bool,
      (s.processes true).Measures 1 ∧
        (s.processes false).waiting = true ∧
          (s.processes false).AtWindow 1 := by
  have hRun :
      (runLabels (syncStep threeSecondsPair)
          (([false, false, true, false, true, false, true,
              false, false, true, false, false, true, false,
              true, false, true].map
              fun i => SyncEvent.step i 0))
          (syncStart ⟨false, 0⟩)).any
        (fun s =>
          decide
            ((s.processes true).phase = .looping ∧
              (s.processes true).loop.window = 1 ∧
                (s.processes true).loop.pc.pastOpening =
                    true ∧
                  (s.processes true).waiting = false ∧
                    (s.processes false).waiting = true)) =
        true := by
    decide +kernel
  rcases reaches_of_any hRun with ⟨s, hReach, hCheck⟩
  rcases of_decide_eq_true hCheck with
    ⟨hPhase, hWindow, hBegun, hFree, hWaits⟩
  have hMeasures : (s.processes true).Measures 1 :=
    ⟨hPhase, hWindow, hBegun, hFree⟩
  exact
    ⟨s, hMeasures, hWaits,
      windows_overlap (Fintype.card_bool) rfl hReach
        hMeasures false⟩

end Drex
