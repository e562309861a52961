import Drex.Application.Lockstep

/-
  When a pair of processes can come to its end: the shared
  count has to get as far as their last targets, which an
  arrival that the initialisation threw away prevents, and
  so does a process with more windows than the other.

  Key definitions include:
    * `SyncConfig.calls`
    * `SyncProcess.left`
    * `SegmentSound`
    * `SyncRun.Kept`
    * `SyncRun.Spoiled`

  Key theorems include:
    * `ProcessSound.exists_step`
    * `Spoiled.step`
    * `pair_finishes_iff`
-/

------------------------------------------------------------
-- What Is Left To Do
------------------------------------------------------------

namespace Drex

/- The calls of `Sync` of a process that is not stopped. -/
def SyncConfig.calls (cfg : SyncConfig) : Nat :=
  2 + 2 * cfg.loop.windowCount

/- The process is at the end of its loop. -/
structure SyncProcess.Finished (p : SyncProcess) : Prop where
  phase : p.phase = .looping
  pc : p.loop.pc = .done

/- The steps to the next call of `Sync`, in their order. -/
def LoopPc.ahead : LoopPc → Nat
| .begin => 9
| .turn => 8
| .gate => 7
| .infer => 6
| .check => 5
| .close => 4
| .closing => 3
| .head => 2
| .opening => 1
| .done => 0

def SyncProcess.ahead (p : SyncProcess) : Nat :=
  match p.phase with
  | .attach => 3
  | .initialise => 2
  | .built => 1
  | .warmup => 2
  | .warmed => 1
  | .openReport => 3
  | .looping => p.loop.pc.ahead

/- A bound of the steps that a process has left. -/
def SyncProcess.left
    (cfg : SyncConfig)
    (p : SyncProcess) : Nat :=
  16 * (cfg.calls - p.passed) +
    16 * (cfg.calls - p.arrived) + p.ahead

theorem SyncProcess.ahead_le (p : SyncProcess) :
    p.ahead ≤ 9 := by
  rcases p with ⟨phase, waiting, loop⟩
  cases phase with
  | looping =>
      simp only [ahead]
      cases loop.pc <;> decide
  | attach | openReport => exact (by decide : 3 ≤ 9)
  | initialise | warmup => exact (by decide : 2 ≤ 9)
  | built | warmed => exact (by decide : 1 ≤ 9)

/- Only a signal sets the flag. -/
theorem LoopState.advance_stop
    {cfg : LoopConfig}
    {l l' : LoopState}
    {now : Int}
    (h : l.advance cfg now = some l') :
    l'.stop = l.stop := by
  cases LoopState.advance_move h with
  | head => rw [enterWindow]; split <;> rfl
  | turn => rw [enterTurn]; split <;> rfl
  | gate => rw [leaveGate]; split <;> rfl
  | opening | begin | infer | check | close | closing => rfl

/-
  A loop that is not stopped goes on to its next call, if
  the clock does.
-/
theorem LoopState.exists_advance
    {cfg : LoopConfig}
    {l : LoopState}
    (hStop : l.stop = false)
    (hOpening : l.pc ≠ .opening)
    (hClosing : l.pc ≠ .closing)
    (hDone : l.pc ≠ .done) :
    ∃ now l',
      l.advance cfg now = some l' ∧
        l'.pc.ahead < l.pc.ahead := by
  cases hPc : l.pc with
  | opening => exact absurd hPc hOpening
  | closing => exact absurd hPc hClosing
  | done => exact absurd hPc hDone
  | head =>
      refine ⟨0, l.enterWindow cfg, ?_, ?_⟩
      · rw [advance, hPc]
      · unfold enterWindow
        split
        · exact (by decide : 1 < 2)
        · exact (by decide : 0 < 2)
  | begin =>
      refine
        ⟨l.clock, l.beginWindow l.clock, ?_,
          (by decide : 8 < 9)⟩
      rw [advance, hPc]
      exact reading_eq_some_iff.mpr ⟨Int.le_refl _, rfl⟩
  | turn =>
      refine ⟨0, l.enterTurn, ?_, ?_⟩
      · rw [advance, hPc]
      · simp only [enterTurn, hStop, Bool.false_eq_true,
          if_false]
        decide
  | gate =>
      refine ⟨0, l.leaveGate cfg, ?_, ?_⟩
      · rw [advance, hPc]
      · simp only [leaveGate, hStop, Bool.and_false,
          Bool.false_eq_true, if_false]
        decide
  | infer =>
      refine ⟨0, l.inferOne, ?_, (by decide : 5 < 6)⟩
      rw [advance, hPc]
  | check =>
      -- The clock goes on until the window is over.
      let now : Int :=
        max l.clock
          (l.windowStart +
            cfg.currentWindowSec l.window * 1000000000)
      refine ⟨now, l.checkTime cfg now, ?_, ?_⟩
      · rw [advance, hPc]
        exact
          reading_eq_some_iff.mpr ⟨Int.le_max_left _ _, rfl⟩
      · have hOver :
            (cfg.currentWindowSec l.window : Int) ≤
              (now - l.windowStart) / 1000000000 := by
          have hLate :
              l.windowStart +
                  cfg.currentWindowSec l.window * 1000000000 ≤
                now :=
            Int.le_max_right _ _
          omega
        simp only [checkTime, if_pos hOver]
        decide
  | close =>
      refine
        ⟨l.clock, l.closeWindow l.clock, ?_,
          (by decide : 3 < 4)⟩
      rw [advance, hPc]
      exact reading_eq_some_iff.mpr ⟨Int.le_refl _, rfl⟩

end Drex

------------------------------------------------------------
-- One Process
------------------------------------------------------------

namespace Drex

/- A process with a target is at that call of `Sync`. -/
theorem SyncProcess.step_of_target
    {cfg : SyncConfig}
    {p : SyncProcess}
    {segment : SyncSegment}
    {now target : Int}
    (hTarget : p.target? = some target) :
    p.step cfg segment now = p.sync segment target := by
  have hAdvance :
      p.advance cfg segment now = p.sync segment target := by
    rw [advance, hTarget]
  unfold step
  cases hPhase : p.phase with
  | built | warmed | looping => exact hAdvance
  | attach | initialise | warmup | openReport =>
      rw [target?, hPhase] at hTarget
      cases hTarget

namespace ProcessSound

variable {cfg : SyncConfig} {p : SyncProcess}

/- No process makes more calls than it should. -/
theorem arrived_le
    (h : ProcessSound cfg p) :
    p.arrived ≤ cfg.calls := by
  rcases p with ⟨phase, waiting, loop⟩
  have hReport : ReportSound cfg.loop loop := h.report
  have hWaits :
      waiting = true →
        ∃ target,
          SyncProcess.target? ⟨phase, waiting, loop⟩ =
            some target := h.waits
  have hOne : (if waiting = true then 1 else 0) ≤ 1 := by
    split <;> decide
  cases phase with
  | looping =>
      have hRows := hReport.report.length_le
      have hWritten := hReport.written
      have hOpened := hReport.opened
      have hCalls :
          SyncProcess.arrived ⟨.looping, waiting, loop⟩ =
            2 * loop.window +
                (if loop.pc.pastOpening then 1 else 0) +
              if waiting = true then 1 else 0 := rfl
      rw [hCalls]
      unfold SyncConfig.calls
      cases hPc : loop.pc with
      | head | done =>
          have hFree : waiting = false := by
            cases waiting with
            | false => rfl
            | true =>
                rcases hWaits rfl with ⟨target, hTarget⟩
                simp only [SyncProcess.target?, hPc] at hTarget
                cases hTarget
          rw [hPc] at hWritten
          rw [hFree]
          change loop.rows.length + 1 = loop.window + 0
            at hWritten
          change 2 * loop.window + 0 + 0 ≤ _
          omega
      | opening =>
          have hHere := hOpened (by rw [hPc]; rfl)
          change 2 * loop.window + 0 + _ ≤ _
          omega
      | _ =>
          have hHere := hOpened (by rw [hPc]; rfl)
          change 2 * loop.window + 1 + _ ≤ _
          omega
  | openReport =>
      cases waiting with
      | true =>
          rcases hWaits rfl with ⟨target, hTarget⟩
          cases hTarget
      | false => exact Nat.le_add_right 2 _
  | _ =>
      simp only [SyncProcess.arrived, SyncProcess.passed,
        SyncConfig.calls]
      omega

/- A process at its end without a stop made all its calls. -/
theorem finished_passed
    (h : ProcessSound cfg p)
    (hStop : p.loop.stop = false)
    (hEnd : p.Finished) :
    p.passed = cfg.calls := by
  have hWindow := h.report.done hEnd.pc hStop
  simp only [SyncProcess.passed, hEnd.phase, hEnd.pc,
    LoopPc.pastOpening, hWindow, SyncConfig.calls]
  simp
  omega

/- A call of `Sync` that the count lets go on leaves less. -/
theorem exists_call
    (h : ProcessSound cfg p)
    {segment : SyncSegment}
    {target : Int}
    (hTarget : p.target? = some target)
    (hFits :
      p.arrived < cfg.calls → segment.count + 1 < 2 ^ 31)
    (hReady :
      p.waiting = true → 2 * p.arrived ≤ segment.count) :
    ∃ now segment' p',
      p.step cfg segment now = some (segment', p') ∧
        p'.left cfg < p.left cfg := by
  rcases h.leaveSync hTarget with
    ⟨hSound, hLeft, hPassed, hEq⟩
  have hNext := hSound.arrived_le
  have hSmall := p.leaveSync.ahead_le
  have hArrived : p.leaveSync.arrived = p.passed + 1 := by
    rw [arrived_of_free hLeft, hPassed]
  cases hWaits : p.waiting with
  | true =>
      have hHere := arrived_of_waiting hWaits
      have hEnough := hReady hWaits
      refine ⟨0, segment, p.leaveSync, ?_, ?_⟩
      · rw [SyncProcess.step_of_target hTarget,
          SyncProcess.sync, if_pos hWaits,
          if_neg (by omega)]
      · unfold SyncProcess.left
        omega
  | false =>
      have hHere := arrived_of_free hWaits
      have hCount := hFits (by omega)
      have hFree : ¬ p.waiting = true := by
        rw [hWaits]
        decide
      by_cases hFar : (segment.count + 1 : Int) < target
      · refine
          ⟨0, { segment with count := segment.count + 1 },
            { p with waiting := true }, ?_, ?_⟩
        · rw [SyncProcess.step_of_target hTarget,
            SyncProcess.sync, if_neg hFree,
            if_neg (by omega), if_pos hFar]
        · have hThere :
              SyncProcess.arrived { p with waiting := true } =
                p.passed + 1 := rfl
          change
            16 * (cfg.calls - p.passed) +
                  16 *
                    (cfg.calls -
                      SyncProcess.arrived
                        { p with waiting := true }) +
                p.ahead <
              _
          unfold SyncProcess.left
          omega
      · refine
          ⟨0, { segment with count := segment.count + 1 },
            p.leaveSync, ?_, ?_⟩
        · rw [SyncProcess.step_of_target hTarget,
            SyncProcess.sync, if_neg hFree,
            if_neg (by omega), if_neg hFar]
        · unfold SyncProcess.left
          omega

/- So does a step of the loop between two calls. -/
theorem exists_turn
    {segment : SyncSegment}
    {waiting : Bool}
    {loop : LoopState}
    (hTarget :
      SyncProcess.target? ⟨.looping, waiting, loop⟩ = none)
    (hStop : loop.stop = false)
    (hDone : loop.pc ≠ .done) :
    ∃ now segment' p',
      SyncProcess.step cfg ⟨.looping, waiting, loop⟩ segment
            now =
          some (segment', p') ∧
        p'.left cfg <
          SyncProcess.left cfg ⟨.looping, waiting, loop⟩ := by
  have hOpening : loop.pc ≠ .opening := by
    intro hPc
    simp only [SyncProcess.target?, hPc] at hTarget
    cases hTarget
  have hClosing : loop.pc ≠ .closing := by
    intro hPc
    simp only [SyncProcess.target?, hPc] at hTarget
    cases hTarget
  have hNext :
      ∃ now l',
        loop.advance cfg.loop now = some l' ∧
          l'.pc.ahead < loop.pc.ahead :=
    LoopState.exists_advance hStop hOpening hClosing hDone
  rcases hNext with ⟨now, loop', hStep, hLess⟩
  have hKept := LoopState.advance_kept hStep hOpening hClosing
  refine ⟨now, segment, ⟨.looping, waiting, loop'⟩, ?_, ?_⟩
  · simp only [SyncProcess.step, SyncProcess.advance,
      hTarget, hStep, Option.map_some]
  · have hPassed :
        SyncProcess.passed ⟨.looping, waiting, loop'⟩ =
          SyncProcess.passed ⟨.looping, waiting, loop⟩ := by
      simp only [SyncProcess.passed, hKept.window, hKept.past]
    simp only [SyncProcess.left, SyncProcess.arrived, hPassed]
    exact Nat.add_lt_add_left hLess _

/-
  A process that is not at its end, and not held by the
  count, can take a step that leaves less to do.
-/
theorem exists_step
    (h : ProcessSound cfg p)
    {segment : SyncSegment}
    (hStop : p.loop.stop = false)
    (hOpen : ¬ p.Finished)
    (hFits :
      p.arrived < cfg.calls → segment.count + 1 < 2 ^ 31)
    (hReady :
      p.waiting = true → 2 * p.arrived ≤ segment.count) :
    ∃ now segment' p',
      p.step cfg segment now = some (segment', p') ∧
        p'.left cfg < p.left cfg := by
  cases hTarget : p.target? with
  | some target => exact h.exists_call hTarget hFits hReady
  | none =>
      rcases p with ⟨phase, waiting, loop⟩
      cases phase with
      | built => cases hTarget
      | warmed => cases hTarget
      | attach =>
          cases hUsed : segment.initialized with
          | true =>
              refine
                ⟨0, segment, ⟨.built, waiting, loop⟩, ?_, ?_⟩
              · simp only [SyncProcess.step, hUsed, if_true]
              · exact Nat.add_lt_add_left (by decide : 1 < 3) _
          | false =>
              refine
                ⟨0, { segment with initialized := true },
                  ⟨.initialise, waiting, loop⟩, ?_, ?_⟩
              · simp [SyncProcess.step, hUsed]
              · exact Nat.add_lt_add_left (by decide : 2 < 3) _
      | initialise =>
          exact
            ⟨0, { segment with count := 0 },
              ⟨.built, waiting, loop⟩, rfl,
              Nat.add_lt_add_left (by decide : 1 < 2) _⟩
      | warmup =>
          exact
            ⟨0, segment, ⟨.warmed, waiting, loop⟩, rfl,
              Nat.add_lt_add_left (by decide : 1 < 2) _⟩
      | openReport =>
          exact
            ⟨0, segment, _, rfl,
              Nat.add_lt_add_left (by decide : 2 < 3) _⟩
      | looping =>
          have hDone : loop.pc ≠ .done :=
            fun hPc => hOpen ⟨rfl, hPc⟩
          exact exists_turn hTarget hStop hDone

end ProcessSound

end Drex

------------------------------------------------------------
-- The Segment
------------------------------------------------------------

namespace Drex

open Drex.Core

/- What a step means for the initialisation and the flag. -/
structure SegmentMove
    (p p' : SyncProcess)
    (segment segment' : SyncSegment) : Prop where
  initialized :
    segment.initialized = true ∨ p.phase = .attach →
      segment'.initialized = true
  claimed :
    p'.phase = .initialise →
      segment.initialized = false ∧
        segment'.count = segment.count
  stop : p'.loop.stop = p.loop.stop

/- No call of `Sync` is followed by an initialisation. -/
theorem SyncProcess.leaveSync_move
    {p : SyncProcess}
    {segment segment' : SyncSegment}
    {target : Int}
    (hTarget : p.target? = some target)
    (hSegment : segment'.initialized = segment.initialized) :
    SegmentMove p p.leaveSync segment segment' := by
  rcases p with ⟨phase, waiting, loop⟩
  have hUsed :
      ∀ {phase : SyncPhase},
        phase ≠ .attach →
          segment.initialized = true ∨ phase = .attach →
            segment'.initialized = true := by
    intro phase hPhase hOr
    rw [hSegment]
    exact hOr.resolve_right hPhase
  cases phase with
  | attach | initialise | warmup | openReport =>
      cases hTarget
  | built =>
      exact
        ⟨hUsed SyncPhase.noConfusion,
          fun hPhase => (by cases hPhase), rfl⟩
  | warmed =>
      exact
        ⟨hUsed SyncPhase.noConfusion,
          fun hPhase => (by cases hPhase), rfl⟩
  | looping =>
      cases hPc : loop.pc with
      | opening | closing =>
          simp only [SyncProcess.leaveSync, hPc]
          exact
            ⟨hUsed SyncPhase.noConfusion,
              fun hPhase => (by cases hPhase), rfl⟩
      | _ =>
          simp only [SyncProcess.target?, hPc] at hTarget
          cases hTarget

theorem SyncProcess.SyncMove.segmentMove
    {cfg : SyncConfig}
    {p p' : SyncProcess}
    {segment segment' : SyncSegment}
    {now : Int}
    (h : SyncProcess.SyncMove cfg p segment now segment' p') :
    SegmentMove p p' segment segment' := by
  have hCalls :
      ∀ {target : Int}, p.target? = some target →
        p.phase ≠ .attach ∧ p.phase ≠ .initialise := by
    intro target hTarget
    refine ⟨fun hPhase => ?_, fun hPhase => ?_⟩
    · rw [SyncProcess.target?, hPhase] at hTarget
      cases hTarget
    · rw [SyncProcess.target?, hPhase] at hTarget
      cases hTarget
  have hStays :
      p.phase ≠ .attach →
        segment.initialized = true ∨ p.phase = .attach →
          segment.initialized = true :=
    fun hPhase hOr => hOr.resolve_right hPhase
  cases h with
  | attach hPhase hUsed =>
      exact ⟨fun _ => hUsed, fun hNext => (by cases hNext), rfl⟩
  | claim hPhase hNew =>
      exact ⟨fun _ => rfl, fun _ => ⟨hNew, rfl⟩, rfl⟩
  | initialise hPhase =>
      refine ⟨hStays ?_, fun hNext => (by cases hNext), rfl⟩
      rw [hPhase]
      exact SyncPhase.noConfusion
  | warmup hPhase =>
      refine ⟨hStays ?_, fun hNext => (by cases hNext), rfl⟩
      rw [hPhase]
      exact SyncPhase.noConfusion
  | openReport hPhase =>
      refine ⟨hStays ?_, fun hNext => (by cases hNext), rfl⟩
      rw [hPhase]
      exact SyncPhase.noConfusion
  | sleep hTarget hWaits hCount =>
      rcases hCalls hTarget with ⟨hAttach, hInitialise⟩
      exact
        ⟨hStays hAttach, fun hNext => absurd hNext hInitialise,
          rfl⟩
  | wake hTarget hWaits hCount =>
      exact SyncProcess.leaveSync_move hTarget rfl
  | wait hTarget hWaits hCount =>
      rcases hCalls hTarget with ⟨hAttach, hInitialise⟩
      exact
        ⟨hStays hAttach, fun hNext => absurd hNext hInitialise,
          rfl⟩
  | pass hTarget hWaits hCount =>
      exact SyncProcess.leaveSync_move hTarget rfl
  | loop hPhase hNone hStep =>
      refine
        ⟨hStays ?_, fun hNext => ?_,
          LoopState.advance_stop hStep⟩
      · rw [hPhase]
        exact SyncPhase.noConfusion
      · cases hPhase.symm.trans hNext

end Drex

------------------------------------------------------------
-- Kept And Spoiled
------------------------------------------------------------

namespace Drex

open Drex.Core

variable {ι : Type}

/- No arrival was thrown away, or can be. -/
structure SyncRun.Kept (s : SyncRun ι) : Prop where
  kept : s.lost = 0
  unmade :
    ∀ i, (s.processes i).phase = .initialise →
      s.segment.count = 0

/- An arrival was thrown away, or will be. -/
structure SyncRun.Spoiled (s : SyncRun ι) : Prop where
  held : ∀ i, (s.processes i).passed = 0
  thrown :
    1 ≤ s.lost ∨
      ∃ i, (s.processes i).phase = .initialise ∧
        1 ≤ s.segment.count

/- What holds of the segment in a run without a stop. -/
structure SegmentSound
    (segment : SyncSegment)
    (s : SyncRun ι) : Prop where
  unused :
    s.segment.initialized = false →
      s.segment = segment ∧
        ∀ i, (s.processes i).phase = .attach
  used :
    segment.initialized = true →
      s.segment.initialized = true ∧ s.lost = 0 ∧
        ∀ i, (s.processes i).phase ≠ .initialise
  running : ∀ i, (s.processes i).loop.stop = false

/- All processes are at their end. -/
def SyncRun.Finished (s : SyncRun ι) : Prop :=
  ∀ i, (s.processes i).Finished

/- A step without a stop signal. -/
def unsignalled (_ : SyncRun ι) : SyncEvent ι → Bool
| .stop _ => false
| .step _ _ => true

variable [DecidableEq ι]

/- One step of a run in which nobody is stopped. -/
def workStep
    (cfg : ι → SyncConfig) :
    SyncRun ι → SyncEvent ι → Option (SyncRun ι) :=
  guarded unsignalled (syncStep cfg)

/- A step in parts. -/
theorem workStep_cases
    {cfg : ι → SyncConfig}
    {s s' : SyncRun ι}
    {e : SyncEvent ι}
    (h : workStep cfg s e = some s') :
    ∃ i now segment p,
      syncStep cfg s (.step i now) = some s' ∧
        SyncProcess.SyncMove (cfg i) (s.processes i) s.segment
          now segment p ∧
        s' =
          { segment := segment
            processes := Function.update s.processes i p
            lost :=
              s.lost +
                (s.processes i).discards s.segment } := by
  rcases guarded_eq_some_iff.mp h with ⟨hAdmits, hStep⟩
  cases e with
  | stop i => cases hAdmits
  | step i now =>
      rcases Option.map_eq_some_iff.mp hStep with
        ⟨⟨segment, p⟩, hLocal, hEq⟩
      exact
        ⟨i, now, segment, p, hStep,
          SyncProcess.step_move hLocal, hEq.symm⟩

namespace SegmentSound

variable {segment : SyncSegment}
variable {s s' : SyncRun ι}
variable {cfg : ι → SyncConfig}

omit [DecidableEq ι] in
theorem start (segment : SyncSegment) :
    SegmentSound segment (syncStart (ι := ι) segment) :=
  { unused := fun _ => ⟨rfl, fun _ => rfl⟩
    used := fun hUsed => ⟨hUsed, rfl, fun _ hPhase => by
      cases hPhase⟩
    running := fun _ => rfl }

theorem step
    (h : SegmentSound segment s)
    {e : SyncEvent ι}
    (hStep : workStep cfg s e = some s') :
    SegmentSound segment s' := by
  rcases workStep_cases hStep with
    ⟨i, now, segment', p, _, hMove, rfl⟩
  have hSegment := hMove.segmentMove
  have hAfter : segment'.initialized = true := by
    apply hSegment.initialized
    cases hUsed : s.segment.initialized with
    | true => exact Or.inl rfl
    | false => exact Or.inr ((h.unused hUsed).2 i)
  refine
    { unused := fun hNew => by
        cases hAfter.symm.trans hNew
      used := fun hUsed => ?_
      running := fun j => ?_ }
  · rcases h.used hUsed with ⟨hHere, hLost, hPhases⟩
    refine ⟨hAfter, ?_, fun j => ?_⟩
    · dsimp only
      rw [hLost, SyncProcess.discards, if_neg (hPhases i)]
    · dsimp only
      by_cases hj : j = i
      · subst hj
        rw [Function.update_self]
        intro hPhase
        have hNew := (hSegment.claimed hPhase).1
        cases hHere.symm.trans hNew
      · rw [Function.update_of_ne hj]
        exact hPhases j
  · dsimp only
    by_cases hj : j = i
    · subst hj
      rw [Function.update_self, hSegment.stop]
      exact h.running j
    · rw [Function.update_of_ne hj]
      exact h.running j

end SegmentSound

end Drex

------------------------------------------------------------
-- Pairs
------------------------------------------------------------

namespace Drex

open Drex.Core

variable {ι : Type}
variable [Fintype ι]

/- What holds of a pair in a run without a stop. -/
structure PairSound
    (cfg : ι → SyncConfig)
    (segment : SyncSegment)
    (s : SyncRun ι) : Prop where
  sync : SyncSound cfg segment.count s
  use : SegmentSound segment s

namespace PairSound

variable {cfg : ι → SyncConfig}
variable {segment : SyncSegment}
variable {s s' : SyncRun ι}

theorem start
    (cfg : ι → SyncConfig)
    (segment : SyncSegment) :
    PairSound cfg segment (syncStart segment) :=
  ⟨.start cfg segment, .start segment⟩

/- A segment that gets initialised was a new one. -/
theorem left_eq_zero
    (h : PairSound cfg segment s)
    (hZero :
      segment.initialized = false → segment.count = 0)
    (hNew :
      1 ≤ s.lost ∨
        ∃ i, (s.processes i).phase = .initialise) :
    segment.count = 0 := by
  cases hUsed : segment.initialized with
  | false => exact hZero hUsed
  | true =>
      rcases h.use.used hUsed with ⟨_, hLost, hPhases⟩
      rcases hNew with hSome | ⟨i, hPhase⟩
      · omega
      · exact absurd hPhase (hPhases i)

/- Nobody waits while it initialises. -/
theorem arrived_initialise
    (h : PairSound cfg segment s)
    {i : ι}
    (hPhase : (s.processes i).phase = .initialise) :
    (s.processes i).arrived = 0 := by
  have hFree : (s.processes i).waiting = false := by
    cases hWaits : (s.processes i).waiting with
    | false => rfl
    | true =>
        rcases (h.sync.processes i).waits hWaits with
          ⟨target, hTarget⟩
        rw [SyncProcess.target?, hPhase] at hTarget
        cases hTarget
  rw [SyncProcess.arrived, SyncProcess.passed, hPhase, hFree]
  rfl

/- The first loss of an arrival finds nobody gone on. -/
theorem spoiled_of_not_kept
    (h : PairSound cfg segment s)
    (hZero :
      segment.initialized = false → segment.count = 0)
    (hLost : s.lost = 0)
    (hNot : ¬ s.Kept) :
    s.Spoiled := by
  by_cases hMade :
      ∃ i, (s.processes i).phase = .initialise ∧
        1 ≤ s.segment.count
  · rcases hMade with ⟨i, hPhase, hCount⟩
    have hLeft :=
      h.left_eq_zero hZero (Or.inr ⟨i, hPhase⟩)
    have hHere := h.arrived_initialise hPhase
    refine ⟨fun j => ?_, Or.inr ⟨i, hPhase, hCount⟩⟩
    have hTogether :
        (s.processes j).passed ≤
          (s.processes i).arrived + segment.count :=
      h.sync.rounds.together j i
    omega
  · refine absurd ⟨hLost, fun i hPhase => ?_⟩ hNot
    by_contra hCount
    exact hMade ⟨i, hPhase, by omega⟩

/- A held pair does not come to its end. -/
theorem not_finished_of_spoiled
    (h : PairSound cfg segment s)
    (hSpoiled : s.Spoiled)
    (i : ι) :
    ¬ s.Finished := by
  intro hEnd
  have hPassed :=
    (h.sync.processes i).finished_passed (h.use.running i)
      (hEnd i)
  rw [hSpoiled.held i, SyncConfig.calls] at hPassed
  omega

variable [DecidableEq ι]

theorem step
    (hPair : Fintype.card ι = 2)
    (h : PairSound cfg segment s)
    {e : SyncEvent ι}
    (hStep : workStep cfg s e = some s') :
    PairSound cfg segment s' := by
  rcases workStep_cases hStep with
    ⟨i, now, segment', p, hSync, _, _⟩
  exact ⟨h.sync.step hPair hSync, h.use.step hStep⟩

theorem reached
    (hPair : Fintype.card ι = 2)
    (h :
      Reaches (workStep cfg) (syncStart segment) s) :
    PairSound cfg segment s := by
  refine Reaches.invariant (.start cfg segment) ?_ h
  intro s e s' hSound hStep
  exact hSound.step hPair hStep

/- While nobody went on, at most one party is counted twice. -/
theorem arrivals_le_of_held
    (h : PairSound cfg segment s)
    (hPair : Fintype.card ι = 2)
    (hHeld : ∀ i, (s.processes i).passed = 0)
    (i : ι) :
    s.tally.arrivals ≤ (s.processes i).arrived + 1 := by
  have hLe : ∀ j, s.tally.arrived j ≤ 1 := by
    intro j
    have hNear := (h.sync.rounds.near j).2
    have hHere := hHeld j
    change s.tally.arrived j ≤ (s.processes j).passed + 1
      at hNear
    omega
  have hSum := Rounds.arrivals_le (j := i) hLe
  rw [hPair] at hSum
  change
    s.tally.arrivals + 1 ≤ (s.processes i).arrived + 2 * 1
    at hSum
  omega

/-
  A pair that lost an arrival stays where it is: the count
  never comes to two again.
-/
theorem spoiled_step
    (hPair : Fintype.card ι = 2)
    (hZero :
      segment.initialized = false → segment.count = 0)
    (h : PairSound cfg segment s)
    (hSpoiled : s.Spoiled)
    {e : SyncEvent ι}
    (hStep : workStep cfg s e = some s') :
    s'.Spoiled := by
  have hHeld := hSpoiled.held
  have hLeft : segment.count = 0 := by
    refine h.left_eq_zero hZero ?_
    rcases hSpoiled.thrown with hLost | ⟨i, hPhase, _⟩
    · exact Or.inl hLost
    · exact Or.inr ⟨i, hPhase⟩
  have hCounted := h.sync.counted
  rw [hLeft, Nat.zero_add] at hCounted
  rcases workStep_cases hStep with
    ⟨i, now, segment', p, _, hMove, rfl⟩
  have hCall := ((h.sync.processes i).move hMove).2
  have hHere := hHeld i
  have hArrivals := h.arrivals_le_of_held hPair hHeld i
  -- A step that does not let its process go on.
  have hStay
      (hPassed : p.passed = (s.processes i).passed)
      (hCount :
        s.segment.count ≤
          segment'.count +
            (s.processes i).discards s.segment) :
      SyncRun.Spoiled
        { segment := segment'
          processes := Function.update s.processes i p
          lost :=
            s.lost +
              (s.processes i).discards s.segment } := by
    refine ⟨fun j => ?_, ?_⟩
    · dsimp only
      by_cases hj : j = i
      · subst hj
        rw [Function.update_self, hPassed]
        exact hHere
      · rw [Function.update_of_ne hj]
        exact hHeld j
    · dsimp only
      rcases hSpoiled.thrown with hLost | ⟨k, hPhase, hSome⟩
      · exact Or.inl (by omega)
      · by_cases hk : k = i
        · subst hk
          rw [SyncProcess.discards, if_pos hPhase]
          exact Or.inl (by omega)
        · by_cases hDiscards :
              (s.processes i).discards s.segment = 0
          · refine Or.inr ⟨k, ?_, by omega⟩
            rw [Function.update_of_ne hk]
            exact hPhase
          · exact Or.inl (by omega)
  cases hCall with
  | stay hArrived hPassed hCount =>
      exact hStay hPassed (by omega)
  | arrive hFree hArrived hPassed hCount hLost =>
      exact hStay hPassed (by omega)
  | through hFree hArrived hPassed hCount hEnough hLost =>
      exfalso
      rcases hSpoiled.thrown with hGone | ⟨k, hPhase, hSome⟩
      · omega
      · have hk : i ≠ k := by
          intro hEq
          subst hEq
          rw [SyncProcess.discards, if_pos hPhase] at hLost
          omega
        have hOther := h.arrived_initialise hPhase
        have hBoth := s.tally.arrivals_pair hPair hk
        change
          s.tally.arrivals =
            (s.processes i).arrived + (s.processes k).arrived
          at hBoth
        omega
  | wake hWaits hArrived hPassed hCount hEnough hLost =>
      exfalso
      rcases hSpoiled.thrown with hGone | ⟨k, hPhase, hSome⟩
      · omega
      · have hOther := h.arrived_initialise hPhase
        have hFew := h.arrivals_le_of_held hPair hHeld k
        omega

/- A pair has kept its arrivals, or is held for good. -/
theorem kept_or_spoiled_step
    (hPair : Fintype.card ι = 2)
    (hZero :
      segment.initialized = false → segment.count = 0)
    (h : PairSound cfg segment s)
    (hHere : s.Kept ∨ s.Spoiled)
    {e : SyncEvent ι}
    (hStep : workStep cfg s e = some s') :
    s'.Kept ∨ s'.Spoiled := by
  rcases hHere with hKept | hSpoiled
  · by_cases hNext : s'.Kept
    · exact Or.inl hNext
    · refine
        Or.inr
          ((h.step hPair hStep).spoiled_of_not_kept hZero ?_
            hNext)
      rcases workStep_cases hStep with
        ⟨i, now, segment', p, _, hMove, rfl⟩
      dsimp only
      rw [hKept.kept, SyncProcess.discards]
      split
      case isTrue hPhase => rw [hKept.unmade i hPhase]
      case isFalse => rfl
  · exact Or.inr (h.spoiled_step hPair hZero hSpoiled hStep)

end PairSound

end Drex

------------------------------------------------------------
-- Whole Runs
------------------------------------------------------------

namespace Drex

open Drex.Core

variable {ι : Type}
variable [Fintype ι]

/- A bound of the steps that are left to take. -/
def SyncRun.left
    (cfg : ι → SyncConfig)
    (s : SyncRun ι) : Nat :=
  ∑ i, (s.processes i).left (cfg i)

/- The count gets as far as the last targets. -/
def Balanced
    (cfg : ι → SyncConfig)
    (segment : SyncSegment) : Prop :=
  ∀ i,
    2 * (cfg i).calls ≤ segment.count + ∑ j, (cfg j).calls

/- The count stays an int. -/
def CountFits
    (cfg : ι → SyncConfig)
    (segment : SyncSegment) : Prop :=
  segment.count + ∑ j, (cfg j).calls < 2 ^ 31

variable {cfg : ι → SyncConfig}
variable {segment : SyncSegment}
variable {s : SyncRun ι}

/- Some process that has arrived less than it should. -/
theorem PairSound.count_lt
    (h : PairSound cfg segment s)
    (hFits : CountFits cfg segment)
    {i : ι}
    (hArrived : (s.processes i).arrived < (cfg i).calls) :
    s.segment.count + 1 < 2 ^ 31 := by
  have hCounted := h.sync.counted
  have hLess : s.tally.arrivals < ∑ j, (cfg j).calls := by
    refine
      Finset.sum_lt_sum
        (fun j _ => (h.sync.processes j).arrived_le)
        ⟨i, Finset.mem_univ i, hArrived⟩
  unfold CountFits at hFits
  omega

/-
  A process that is not held: one that initialises comes
  first, and else the calls of `Sync` decide.
-/
theorem PairSound.exists_free
    (hPair : Fintype.card ι = 2)
    (h : PairSound cfg segment s)
    (hKept : s.Kept)
    (hBalanced : Balanced cfg segment)
    (hOpen : ¬ s.Finished) :
    ∃ i,
      ¬ (s.processes i).Finished ∧
        ((s.processes i).waiting = true →
          2 * (s.processes i).arrived ≤ s.segment.count) ∧
        ((∃ j, (s.processes j).phase = .initialise) →
          (s.processes i).phase = .initialise) := by
  by_cases hFirst :
      ∃ j, (s.processes j).phase = .initialise
  · rcases hFirst with ⟨i, hPhase⟩
    refine ⟨i, fun hEnd => ?_, fun hWaits => ?_, fun _ => hPhase⟩
    · cases hPhase.symm.trans hEnd.phase
    · rw [h.arrived_initialise hPhase]
      exact Nat.zero_le _
  · by_cases hCalls :
        ∃ i, s.tally.passed i < (cfg i).calls
    · have hTotal :
          ∀ i,
            Fintype.card ι * (cfg i).calls ≤
              segment.count + ∑ j, (cfg j).calls := by
        intro i
        rw [hPair]
        exact hBalanced i
      rcases
          h.sync.rounds.exists_ready hTotal
            (fun i => (h.sync.processes i).arrived_le) hCalls
        with ⟨i, hReady⟩
      refine ⟨i, fun hEnd => ?_, fun hWaits => ?_, fun hNew => ?_⟩
      · have hPassed :
            s.tally.passed i = (cfg i).calls :=
          (h.sync.processes i).finished_passed
            (h.use.running i) hEnd
        have hLe : s.tally.arrived i ≤ (cfg i).calls :=
          (h.sync.processes i).arrived_le
        rcases hReady with ⟨hFree, hLess⟩ | ⟨hHeld, _⟩
        · omega
        · omega
      · have hArrived :
            s.tally.arrived i = s.tally.passed i + 1 :=
          ProcessSound.arrived_of_waiting hWaits
        rcases hReady with ⟨hFree, _⟩ | ⟨_, hEnough⟩
        · omega
        · have hCounted := h.sync.counted
          rw [hKept.kept, Nat.add_zero] at hCounted
          rw [hPair, ← hCounted] at hEnough
          exact hEnough
      · exact absurd hNew hFirst
    · -- All calls are over, and a loop has to look at that.
      rcases not_forall.mp hOpen with ⟨i, hNot⟩
      refine ⟨i, hNot, fun hWaits => ?_, fun hNew => ?_⟩
      · have hArrived :=
          ProcessSound.arrived_of_waiting hWaits
        have hLe := (h.sync.processes i).arrived_le
        exact absurd ⟨i, by
          change (s.processes i).passed < (cfg i).calls
          omega⟩ hCalls
      · exact absurd hNew hFirst

variable [DecidableEq ι]

/- One step that keeps the arrivals and leaves less to do. -/
theorem PairSound.exists_step
    (hPair : Fintype.card ι = 2)
    (hZero :
      segment.initialized = false → segment.count = 0)
    (hFits : CountFits cfg segment)
    (h : PairSound cfg segment s)
    (hKept : s.Kept)
    (hBalanced : Balanced cfg segment)
    (hOpen : ¬ s.Finished) :
    ∃ e s',
      workStep cfg s e = some s' ∧ s'.Kept ∧
        s'.left cfg < s.left cfg := by
  rcases h.exists_free hPair hKept hBalanced hOpen with
    ⟨i, hHere, hReady, hFirst⟩
  rcases
      (h.sync.processes i).exists_step (h.use.running i) hHere
        (fun hArrived => h.count_lt hFits hArrived) hReady
    with ⟨now, segment', p, hStep, hLess⟩
  have hMove := SyncProcess.step_move hStep
  have hLost : (s.processes i).discards s.segment = 0 := by
    rw [SyncProcess.discards]
    split
    case isTrue hPhase => exact hKept.unmade i hPhase
    case isFalse => rfl
  refine
    ⟨.step i now,
      { segment := segment'
        processes := Function.update s.processes i p
        lost :=
          s.lost + (s.processes i).discards s.segment },
      ?_, ?_, ?_⟩
  · refine guarded_eq_some_iff.mpr ⟨rfl, ?_⟩
    simp only [syncStep, hStep, Option.map_some]
  · refine ⟨?_, fun j hPhase => ?_⟩
    · dsimp only
      rw [hKept.kept, hLost]
    · dsimp only at hPhase ⊢
      by_cases hj : j = i
      · subst hj
        rw [Function.update_self] at hPhase
        rcases hMove.segmentMove.claimed hPhase with
          ⟨hNew, hCount⟩
        rw [hCount, (h.use.unused hNew).1]
        apply hZero
        rw [← (h.use.unused hNew).1]
        exact hNew
      · rw [Function.update_of_ne hj] at hPhase
        have hInit := hFirst ⟨j, hPhase⟩
        rw [SyncProcess.step, hInit] at hStep
        cases hStep
        rfl
  · refine
      Finset.sum_lt_sum (fun j _ => ?_)
        ⟨i, Finset.mem_univ i, ?_⟩
    · dsimp only
      by_cases hj : j = i
      · subst hj
        rw [Function.update_self]
        exact Nat.le_of_lt hLess
      · rw [Function.update_of_ne hj]
    · dsimp only
      rw [Function.update_self]
      exact hLess

theorem PairSound.finishes
    (hPair : Fintype.card ι = 2)
    (hZero :
      segment.initialized = false → segment.count = 0)
    (hFits : CountFits cfg segment)
    (h : PairSound cfg segment s)
    (hKept : s.Kept)
    (hBalanced : Balanced cfg segment) :
    ∃ s', Reaches (workStep cfg) s s' ∧ s'.Finished := by
  -- Each step leaves less to do.
  induction hn : s.left cfg using Nat.strong_induction_on
    generalizing s with
  | _ n ih =>
      by_cases hOpen : s.Finished
      · exact ⟨s, .start, hOpen⟩
      · rcases
            h.exists_step hPair hZero hFits hKept hBalanced
              hOpen
          with ⟨e, next, hStep, hNext, hLess⟩
        rw [hn] at hLess
        rcases
            ih (next.left cfg) hLess (h.step hPair hStep)
              hNext rfl
          with ⟨s', hRest, hEnd⟩
        exact
          ⟨s', Reaches.trans (.next .start hStep) hRest, hEnd⟩

/-
  A pair of processes that are not stopped can come to its
  end, from any state it gets to, exactly when no arrival is
  lost to the initialisation of the segment and the calls of
  both bring the count to the last targets of each.
-/
theorem pair_finishes_iff
    (hPair : Fintype.card ι = 2)
    (hZero :
      segment.initialized = false → segment.count = 0)
    (hFits : CountFits cfg segment)
    (h : Reaches (workStep cfg) (syncStart segment) s) :
    (∃ s', Reaches (workStep cfg) s s' ∧ s'.Finished) ↔
      s.Kept ∧ Balanced cfg segment := by
  have hSound := PairSound.reached hPair h
  constructor
  · rintro ⟨s', hRest, hEnd⟩
    have hThere :=
      PairSound.reached hPair (Reaches.trans h hRest)
    refine ⟨?_, fun i => ?_⟩
    · have hStart : (syncStart (ι := ι) segment).Kept :=
        ⟨rfl, fun _ hPhase => by cases hPhase⟩
      have hEither : s.Kept ∨ s.Spoiled := by
        refine
          (Reaches.invariant
            (I := fun s =>
              PairSound cfg segment s ∧
                (s.Kept ∨ s.Spoiled))
            ⟨.start cfg segment, Or.inl hStart⟩ ?_ h).2
        rintro s e s' ⟨hHere, hOr⟩ hStep
        exact
          ⟨hHere.step hPair hStep,
            hHere.kept_or_spoiled_step hPair hZero hOr hStep⟩
      refine hEither.resolve_right fun hSpoiled => ?_
      have hHeld : s'.Spoiled := by
        refine
          (Reaches.invariant
            (I := fun s =>
              PairSound cfg segment s ∧ s.Spoiled)
            ⟨hSound, hSpoiled⟩ ?_ hRest).2
        rintro s e s' ⟨hHere, hOld⟩ hStep
        exact
          ⟨hHere.step hPair hStep,
            hHere.spoiled_step hPair hZero hOld hStep⟩
      have hSome : Nonempty ι := by
        rw [← Fintype.card_pos_iff, hPair]
        decide
      exact
        hThere.not_finished_of_spoiled hHeld hSome.some hEnd
    · have hTotal :=
        hThere.sync.rounds.total_le
          (fun j => (hThere.sync.processes j).arrived_le)
          (fun j =>
            (hThere.sync.processes j).finished_passed
              (hThere.use.running j) (hEnd j))
          i
      rw [hPair] at hTotal
      exact hTotal
  · rintro ⟨hKept, hBalanced⟩
    exact
      hSound.finishes hPair hZero hFits hKept hBalanced

/-
  Two equal processes can finish on a new segment, and not
  after one was counted before the other initialised it.
-/
theorem pair_finishes_unless_lost :
    (∃ s : SyncRun Bool,
      Reaches (workStep threeSecondsPair)
        (syncStart ⟨false, 0⟩) s ∧ s.Finished) ∧
      ∃ s : SyncRun Bool,
        s.lost = 1 ∧
          ¬ ∃ s', Reaches (workStep threeSecondsPair) s s' ∧
            s'.Finished := by
  have hBalanced : Balanced threeSecondsPair ⟨false, 0⟩ := by
    unfold Balanced
    decide
  have hFits : CountFits threeSecondsPair ⟨false, 0⟩ := by
    unfold CountFits
    decide
  have hRun :
      (runLabels (workStep threeSecondsPair)
          ([false, true, true, false].map
            fun i => SyncEvent.step i 0)
          (syncStart ⟨false, 0⟩)).any
        (fun s => decide (s.lost = 1)) = true := by
    decide +kernel
  rcases reaches_of_any hRun with ⟨s, hReach, hCheck⟩
  have hLost := of_decide_eq_true hCheck
  refine ⟨?_, s, hLost, fun hEnd => ?_⟩
  · exact
      (pair_finishes_iff Fintype.card_bool (fun _ => rfl)
        hFits .start).mpr
        ⟨⟨rfl, fun _ hPhase => by cases hPhase⟩, hBalanced⟩
  · have hKept :=
      ((pair_finishes_iff Fintype.card_bool (fun _ => rfl)
        hFits hReach).mp hEnd).1.kept
    omega

end Drex
