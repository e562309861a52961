import Mathlib.Algebra.BigOperators.Group.Finset.Piecewise
import Mathlib.Algebra.Group.Action.Defs
import Mathlib.Algebra.Order.BigOperators.Group.Finset
import Mathlib.Data.Finset.Max
import Mathlib.Tactic.Common

/-
  Barriers that are one shared counter: a party counts
  itself, and goes on from its n-th call once the counter
  has come to n arrivals of each party.

  The counter may start with a number of arrivals that no
  party made.

  Key definitions include:
    * `Tally`
    * `Rounds`

  Key theorems include:
    * `Rounds.exists_ready`
    * `Rounds.total_le`
-/

------------------------------------------------------------
-- Arrivals
------------------------------------------------------------

namespace Drex

namespace Core

/- How often each party arrived, and how often it went on. -/
structure Tally (ι : Type) where
  arrived : ι → Nat
  passed : ι → Nat

namespace Tally

variable {ι : Type}
variable [DecidableEq ι]

/- A party counts itself. -/
def arrive
    (t : Tally ι)
    (i : ι) :
    Tally ι :=
  { t with
    arrived := Function.update t.arrived i (t.arrived i + 1) }

/- A party goes on from where it waits. -/
def pass
    (t : Tally ι)
    (i : ι) :
    Tally ι :=
  { t with
    passed := Function.update t.passed i (t.arrived i) }

@[simp] theorem arrive_passed
    (t : Tally ι)
    (i : ι) :
    (t.arrive i).passed = t.passed := rfl

@[simp] theorem pass_arrived
    (t : Tally ι)
    (i : ι) :
    (t.pass i).arrived = t.arrived := rfl

variable [Fintype ι]

/- All arrivals. -/
def arrivals (t : Tally ι) : Nat :=
  ∑ i, t.arrived i

/- Passing takes no arrival back. -/
@[simp] theorem arrivals_pass
    (t : Tally ι)
    (i : ι) :
    (t.pass i).arrivals = t.arrivals := rfl

/- The arrival of a party is one arrival more. -/
theorem arrivals_arrive
    (t : Tally ι)
    (i : ι) :
    (t.arrive i).arrivals = t.arrivals + 1 := by
  have hSplit :=
    Finset.sum_erase_add Finset.univ t.arrived
      (Finset.mem_univ i)
  unfold arrivals arrive
  rw [Finset.sum_update_of_mem (Finset.mem_univ i),
    Finset.sdiff_singleton_eq_erase, ← hSplit]
  omega

/- The arrivals of two parties. -/
theorem arrivals_pair
    (hPair : Fintype.card ι = 2)
    (t : Tally ι)
    {i j : ι}
    (hNe : i ≠ j) :
    t.arrivals = t.arrived i + t.arrived j := by
  have hBoth : ({i, j} : Finset ι) = Finset.univ := by
    apply Finset.eq_univ_of_card
    rw [Finset.card_pair hNe, hPair]
  rw [arrivals, ← hBoth, Finset.sum_pair hNe]

end Tally

end Core

end Drex

------------------------------------------------------------
-- Rounds
------------------------------------------------------------

namespace Drex

namespace Core

open Tally

variable {ι : Type}
variable [Fintype ι]

/-
  A party is in one call at most, and nobody went on from
  more calls than every other party came to, up to what the
  counter started with.
-/
structure Rounds
    (left : Nat)
    (t : Tally ι) : Prop where
  near :
    ∀ i, t.passed i ≤ t.arrived i ∧
      t.arrived i ≤ t.passed i + 1
  together : ∀ i j, t.passed i ≤ t.arrived j + left
  counted :
    ∀ i, Fintype.card ι * t.passed i ≤ left + t.arrivals

namespace Rounds

variable {left : Nat} {t t' : Tally ι}

/- Nobody has arrived. -/
theorem start (left : Nat) :
    Rounds left (⟨fun _ => 0, fun _ => 0⟩ : Tally ι) :=
  { near := fun _ => ⟨Nat.le_refl 0, Nat.zero_le 1⟩
    together := fun _ _ => Nat.zero_le _
    counted := fun _ => Nat.zero_le _ }

/-
  Parties that are to make `total` calls each can all go on
  to the last of them only where the counter comes far
  enough in the end.
-/
theorem total_le
    (h : Rounds left t)
    {total : ι → Nat}
    (hLe : ∀ i, t.arrived i ≤ total i)
    (hDone : ∀ i, t.passed i = total i)
    (i : ι) :
    Fintype.card ι * total i ≤ left + ∑ j, total j := by
  have hAll : t.arrivals = ∑ j, total j := by
    apply Finset.sum_congr rfl
    intro j _
    have hNear := (h.near j).1
    have hTotal := hLe j
    have hEnd := hDone j
    omega
  have hCounted := h.counted i
  rw [hDone i, hAll] at hCounted
  exact hCounted

/-
  Where it does, there is always a party that can take a
  step, as long as one has calls left to go on from.
-/
theorem exists_ready
    (h : Rounds left t)
    {total : ι → Nat}
    (hTotal :
      ∀ i, Fintype.card ι * total i ≤ left + ∑ j, total j)
    (hLe : ∀ i, t.arrived i ≤ total i)
    (hOpen : ∃ i, t.passed i < total i) :
    ∃ i,
      t.arrived i = t.passed i ∧ t.arrived i < total i ∨
        t.arrived i = t.passed i + 1 ∧
          Fintype.card ι * t.arrived i ≤
            left + t.arrivals := by
  by_cases hFree :
      ∃ i, t.arrived i = t.passed i ∧ t.arrived i < total i
  · rcases hFree with ⟨i, hHere⟩
    exact ⟨i, Or.inl hHere⟩
  · have hWaits :
        ∀ i, t.passed i < total i →
          t.arrived i = t.passed i + 1 := by
      intro i hLess
      have hNear := h.near i
      by_contra hNot
      exact hFree ⟨i, by omega, by omega⟩
    let waiting : Finset ι :=
      Finset.univ.filter fun i => t.passed i < total i
    rcases hOpen with ⟨o, hO⟩
    have hSome : waiting.Nonempty :=
      ⟨o, Finset.mem_filter.mpr ⟨Finset.mem_univ o, hO⟩⟩
    -- The party that waits in the earliest call goes on.
    rcases Finset.exists_min_image waiting t.arrived hSome
      with ⟨i, hMem, hMin⟩
    rcases Finset.exists_max_image Finset.univ total
        ⟨o, Finset.mem_univ o⟩ with ⟨m, _, hMax⟩
    have hLess := (Finset.mem_filter.mp hMem).2
    refine ⟨i, Or.inr ⟨hWaits i hLess, ?_⟩⟩
    have hEach :
        ∀ l ∈ Finset.univ,
          total l + t.arrived i ≤ total m + t.arrived l := by
      intro l hl
      have hTop := hMax l hl
      by_cases hBehind : t.passed l < total l
      · have hLater :=
          hMin l (Finset.mem_filter.mpr ⟨hl, hBehind⟩)
        omega
      · have hNear := (h.near l).1
        have hHere := hLe i
        have hTopHere := hMax i (Finset.mem_univ i)
        omega
    have hSum := Finset.sum_le_sum hEach
    have hEnd := hTotal m
    simp only [Finset.sum_add_distrib, Finset.sum_const,
      Finset.card_univ, smul_eq_mul] at hSum
    unfold arrivals
    omega

variable [DecidableEq ι]

/- A party that waits nowhere may arrive. -/
theorem arrive
    (h : Rounds left t)
    {i : ι}
    (hFree : t.arrived i = t.passed i) :
    Rounds left (t.arrive i) := by
  have hLe : ∀ j, t.arrived j ≤ (t.arrive i).arrived j := by
    intro j
    unfold Tally.arrive
    by_cases hj : j = i
    · subst hj
      simp
    · simp [hj]
  refine
    { near := fun j => ?_
      together := fun j k =>
        Nat.le_trans (h.together j k)
          (Nat.add_le_add_right (hLe k) left)
      counted := fun j => ?_ }
  · unfold Tally.arrive
    by_cases hj : j = i
    · subst hj
      simp [hFree]
    · simpa [hj] using h.near j
  · rw [arrivals_arrive]
    exact Nat.le_succ_of_le (h.counted j)

/- The other parties' arrivals, where none is above `k`. -/
theorem arrivals_le
    {j : ι}
    {k : Nat}
    (hLe : ∀ l, t.arrived l ≤ k) :
    t.arrivals + k ≤ t.arrived j + Fintype.card ι * k := by
  have hSplit :=
    Finset.sum_erase_add Finset.univ t.arrived
      (Finset.mem_univ j)
  have hRest :
      ∑ l ∈ Finset.univ.erase j, t.arrived l ≤
        (Finset.univ.erase j).card • k :=
    Finset.sum_le_card_nsmul _ _ _ fun l _ => hLe l
  have hCard :
      (Finset.univ.erase j).card + 1 = Fintype.card ι :=
    Finset.card_erase_add_one (Finset.mem_univ j)
  rw [smul_eq_mul] at hRest
  unfold arrivals
  rw [← hSplit, ← hCard, Nat.add_mul, Nat.one_mul]
  omega

/- A party goes on once enough arrivals are counted. -/
theorem pass
    (h : Rounds left t)
    {i : ι}
    (hWaits : t.arrived i = t.passed i + 1)
    (hCount :
      Fintype.card ι * t.arrived i ≤ left + t.arrivals) :
    Rounds left (t.pass i) := by
  have hHere : ∀ j, t.arrived i ≤ t.arrived j + left := by
    intro j
    by_contra hFar
    -- A party that is behind keeps the others from going on.
    have hLe : ∀ l, t.arrived l ≤ t.arrived i := by
      intro l
      have hNear := (h.near l).2
      have hBound := h.together l j
      omega
    have hSum := arrivals_le (j := j) hLe
    omega
  refine
    { near := fun j => ?_
      together := fun j k => ?_
      counted := fun j => ?_ }
  · unfold Tally.pass
    by_cases hj : j = i
    · subst hj
      simp
    · simpa [hj] using h.near j
  · unfold Tally.pass
    by_cases hj : j = i
    · subst hj
      simpa using hHere k
    · simpa [hj] using h.together j k
  · rw [arrivals_pass]
    unfold Tally.pass
    by_cases hj : j = i
    · subst hj
      simpa using hCount
    · simpa [hj] using h.counted j

end Rounds

end Core

end Drex
