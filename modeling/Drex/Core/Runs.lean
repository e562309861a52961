import Mathlib.Tactic.Common

/-
  Runs of a machine given by a partial step function on
  labels.

  Key definitions include:
    * `Reaches`
    * `runLabels`
    * `guarded`

  Key theorems include:
    * `Reaches.invariant`
    * `reaches_runLabels`
    * `reaches_of_any`
    * `guarded_eq_some_iff`
    * `Reaches.of_guarded`
    * `Reaches.guarded_or`
-/

------------------------------------------------------------
-- Reachable States
------------------------------------------------------------

namespace Drex

namespace Core

variable {σ L : Type}

/- States reached by any sequence of labels. -/
inductive Reaches
    (step : σ → L → Option σ)
    (s₀ : σ) :
    σ → Prop
| start : Reaches step s₀ s₀
| next
    {s s' : σ}
    {l : L}
    (hReach : Reaches step s₀ s)
    (hStep : step s l = some s') :
    Reaches step s₀ s'

theorem Reaches.trans
    {step : σ → L → Option σ}
    {s₀ s₁ s : σ}
    (hFirst : Reaches step s₀ s₁)
    (hRest : Reaches step s₁ s) :
    Reaches step s₀ s := by
  induction hRest with
  | start => exact hFirst
  | next hReach hNext ih => exact .next ih hNext

/- What every step preserves holds of every reached state. -/
theorem Reaches.invariant
    {step : σ → L → Option σ}
    {s₀ s : σ}
    {I : σ → Prop}
    (hStart : I s₀)
    (hStep : ∀ s l s', I s → step s l = some s' → I s')
    (h : Reaches step s₀ s) :
    I s := by
  induction h with
  | start => exact hStart
  | next hReach hNext ih => exact hStep _ _ _ ih hNext

/- Follow a list of labels while they are enabled. -/
def runLabels
    (step : σ → L → Option σ) :
    List L → σ → Option σ
| [], s => some s
| l :: ls, s => (step s l).bind (runLabels step ls)

theorem reaches_runLabels
    {step : σ → L → Option σ}
    {s₀ s s' : σ}
    (labels : List L)
    (h : Reaches step s₀ s)
    (hRun : runLabels step labels s = some s') :
    Reaches step s₀ s' := by
  induction labels generalizing s with
  | nil =>
      rw [← Option.some.inj hRun]
      exact h
  | cons l ls ih =>
      simp only [runLabels, Option.bind_eq_some_iff] at hRun
      rcases hRun with ⟨mid, hStep, hRest⟩
      exact ih (.next h hStep) hRest

/- Some state reached by the labels passes the check. -/
theorem reaches_of_any
    {step : σ → L → Option σ}
    {s₀ : σ}
    {labels : List L}
    {check : σ → Bool}
    (h : (runLabels step labels s₀).any check = true) :
    ∃ s, Reaches step s₀ s ∧ check s = true := by
  rcases (Option.any_eq_true _ _).mp h with
    ⟨s, hRun, hCheck⟩
  exact ⟨s, reaches_runLabels labels .start hRun, hCheck⟩

/- The steps that meet a condition. -/
def guarded
    (admits : σ → L → Bool)
    (step : σ → L → Option σ)
    (s : σ)
    (l : L) :
    Option σ :=
  if admits s l then step s l else none

theorem guarded_eq_some_iff
    {admits : σ → L → Bool}
    {step : σ → L → Option σ}
    {s s' : σ}
    {l : L} :
    guarded admits step s l = some s' ↔
      admits s l = true ∧ step s l = some s' := by
  unfold guarded
  by_cases hAdmits : admits s l = true
  · simp [hAdmits]
  · simp [hAdmits]

/- A run under a condition is a run. -/
theorem Reaches.of_guarded
    {admits : σ → L → Bool}
    {step : σ → L → Option σ}
    {s₀ s : σ}
    (h : Reaches (guarded admits step) s₀ s) :
    Reaches step s₀ s := by
  induction h with
  | start => exact .start
  | next hReach hNext ih =>
      exact .next ih (guarded_eq_some_iff.mp hNext).2

/-
  A run meets the condition at each step, or has left it for
  a property that no step ends.
-/
theorem Reaches.guarded_or
    {admits : σ → L → Bool}
    {step : σ → L → Option σ}
    {s₀ s : σ}
    {D : σ → Prop}
    (hLeave :
      ∀ s l s', Reaches (guarded admits step) s₀ s →
        admits s l = false → step s l = some s' → D s')
    (hStay : ∀ s l s', D s → step s l = some s' → D s')
    (h : Reaches step s₀ s) :
    Reaches (guarded admits step) s₀ s ∨ D s := by
  induction h with
  | start => exact Or.inl .start
  | @next s s' l hReach hNext ih =>
      rcases ih with hMeets | hLeft
      · cases hAdmits : admits s l with
        | true =>
            have hGuarded :
                guarded admits step s l = some s' :=
              guarded_eq_some_iff.mpr ⟨hAdmits, hNext⟩
            exact Or.inl (.next hMeets hGuarded)
        | false =>
            exact Or.inr (hLeave _ _ _ hMeets hAdmits hNext)
      · exact Or.inr (hStay _ _ _ hLeft hNext)

end Core

end Drex
