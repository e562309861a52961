import Drex.Core.Runs

/-
  Counting the steps of a run.

  Key definitions include:
    * `tally`

  Key theorems include:
    * `runLabels_invariant`
    * `tally_le`
    * `tally_countdown`
-/

------------------------------------------------------------
-- Tallies
------------------------------------------------------------

namespace Drex

namespace Core

variable {σ L : Type}

/- The steps of a run that are marked. -/
def tally
    (step : σ → L → Option σ)
    (mark : σ → L → Bool) :
    List L → σ → Nat
| [], _ => 0
| l :: ls, s =>
    (mark s l).toNat +
      match step s l with
      | none => 0
      | some s' => tally step mark ls s'

theorem tally_cons
    {step : σ → L → Option σ}
    {s s' : σ}
    {l : L}
    (mark : σ → L → Bool)
    (ls : List L)
    (hStep : step s l = some s') :
    tally step mark (l :: ls) s =
      (mark s l).toNat + tally step mark ls s' := by
  rw [tally, hStep]

/- What every step preserves, a run preserves. -/
theorem runLabels_invariant
    {step : σ → L → Option σ}
    {I : σ → Prop}
    (hStep : ∀ s l s', I s → step s l = some s' → I s')
    {labels : List L}
    {s s' : σ}
    (hStart : I s)
    (hRun : runLabels step labels s = some s') :
    I s' := by
  induction labels generalizing s with
  | nil =>
      rw [← Option.some.inj hRun]
      exact hStart
  | cons l ls ih =>
      simp only [runLabels, Option.bind_eq_some_iff] at hRun
      rcases hRun with ⟨mid, hFirst, hRest⟩
      exact ih (hStep _ _ _ hStart hFirst) hRest

/-
  Where each step pays for what it spends, from what it
  earns or from a reserve, so does a run.
-/
theorem tally_le
    {step : σ → L → Option σ}
    {I : σ → Prop}
    {spends earns : σ → L → Bool}
    {reserve : σ → Nat}
    (hStep :
      ∀ s l s', I s → step s l = some s' →
        I s' ∧
          (spends s l).toNat + reserve s' ≤
            reserve s + (earns s l).toNat)
    {labels : List L}
    {s s' : σ}
    (hStart : I s)
    (hRun : runLabels step labels s = some s') :
    tally step spends labels s + reserve s' ≤
      reserve s + tally step earns labels s := by
  induction labels generalizing s with
  | nil =>
      rw [← Option.some.inj hRun]
      simp [tally]
  | cons l ls ih =>
      simp only [runLabels, Option.bind_eq_some_iff] at hRun
      rcases hRun with ⟨mid, hFirst, hRest⟩
      rcases hStep s l mid hStart hFirst with ⟨hMid, hPays⟩
      have hLater := ih hMid hRest
      rw [tally_cons _ _ hFirst, tally_cons _ _ hFirst]
      omega

theorem tally_never
    (step : σ → L → Option σ)
    (labels : List L)
    (s : σ) :
    tally step (fun _ _ => false) labels s = 0 := by
  induction labels generalizing s with
  | nil => rfl
  | cons l ls ih =>
      rw [tally]
      cases step s l with
      | none => rfl
      | some s' => simp [ih]

/- Steps that each use up a part of what is left are few. -/
theorem tally_countdown
    {step : σ → L → Option σ}
    {I : σ → Prop}
    {mark : σ → L → Bool}
    {left : σ → Nat}
    (hStep :
      ∀ s l s', I s → step s l = some s' →
        I s' ∧ (mark s l).toNat + left s' ≤ left s)
    {labels : List L}
    {s s' : σ}
    (hStart : I s)
    (hRun : runLabels step labels s = some s') :
    I s' ∧ tally step mark labels s + left s' ≤ left s := by
  have hKept :
      ∀ s l s', I s → step s l = some s' → I s' := by
    intro s l s' hI hNext
    exact (hStep s l s' hI hNext).1
  have hPaid :=
    @tally_le σ L step I mark (fun _ _ => false) left hStep
      labels s s' hStart hRun
  rw [tally_never, Nat.add_zero] at hPaid
  exact ⟨runLabels_invariant hKept hStart hRun, hPaid⟩

end Core

end Drex
