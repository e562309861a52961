import Mathlib.Data.List.Sort
import Mathlib.Order.Basic

/-
  Ranks in a list: what stands at an index of the sorted
  list is a value with so many values up to it, and so many
  from it on.

  Key definitions include:
    * `Ranked`

  Key theorems include:
    * `ranked_insertionSort`
    * `insertionSort_getElem_mono`
-/

------------------------------------------------------------
-- Ranks
------------------------------------------------------------

namespace Drex

namespace Core

variable {α : Type}
variable [LinearOrder α]

/- A value of the list that belongs at the index. -/
structure Ranked
    (values : List α)
    (index : Nat)
    (value : α) : Prop where
  among : value ∈ values
  below : index < values.countP (fun v => decide (v ≤ value))
  above :
    values.length ≤
      index + values.countP (fun v => decide (value ≤ v))

/- The sorted list goes up with its index. -/
theorem insertionSort_getElem_mono
    {values : List α}
    {i j : Nat}
    (hLe : i ≤ j)
    (hj : j < (values.insertionSort (· ≤ ·)).length) :
    (values.insertionSort (· ≤ ·))[i] ≤
      (values.insertionSort (· ≤ ·))[j] := by
  have hSorted := List.pairwise_insertionSort (· ≤ ·) values
  rcases Nat.lt_or_eq_of_le hLe with hLess | rfl
  · exact List.pairwise_iff_getElem.mp hSorted i j _ hj hLess
  · exact le_refl _

/- What stands at an index of the sorted list belongs there. -/
theorem ranked_insertionSort
    {values : List α}
    {index : Nat}
    (hIndex :
      index < (values.insertionSort (· ≤ ·)).length) :
    Ranked values index
      (values.insertionSort (· ≤ ·))[index] := by
  have hPerm := List.perm_insertionSort (· ≤ ·) values
  generalize hSorted :
    values.insertionSort (· ≤ ·) = sorted at *
  have hMono :
      ∀ {i j : Nat} (_ : i ≤ j) (hj : j < sorted.length),
        sorted[i] ≤ sorted[j] := by
    intro i j hLe hj
    subst hSorted
    exact insertionSort_getElem_mono hLe hj
  refine
    { among := hPerm.mem_iff.mp (List.getElem_mem hIndex)
      below := ?_
      above := ?_ }
  · -- All of the list up to the index is below its value.
    have hAll :
        (sorted.take (index + 1)).countP
            (fun v => decide (v ≤ sorted[index])) =
          (sorted.take (index + 1)).length := by
      rw [List.countP_eq_length]
      intro v hMem
      rcases List.mem_iff_getElem.mp hMem with ⟨i, hi, rfl⟩
      rw [List.length_take] at hi
      rw [List.getElem_take]
      exact decide_eq_true (hMono (by omega) hIndex)
    have hPart :=
      (List.take_sublist (index + 1) sorted).countP_le
        (p := fun v => decide (v ≤ sorted[index]))
    rw [hAll, List.length_take] at hPart
    rw [← hPerm.countP_eq]
    omega
  · have hAll :
        (sorted.drop index).countP
            (fun v => decide (sorted[index] ≤ v)) =
          (sorted.drop index).length := by
      rw [List.countP_eq_length]
      intro v hMem
      rcases List.mem_iff_getElem.mp hMem with ⟨i, hi, rfl⟩
      rw [List.length_drop] at hi
      rw [List.getElem_drop]
      exact decide_eq_true (hMono (by omega) (by omega))
    have hPart :=
      (List.drop_sublist index sorted).countP_le
        (p := fun v => decide (sorted[index] ≤ v))
    rw [hAll, List.length_drop] at hPart
    rw [← hPerm.countP_eq, ← hPerm.length_eq]
    omega

end Core

end Drex
