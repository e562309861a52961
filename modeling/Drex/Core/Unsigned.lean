import Mathlib.Algebra.Group.Nat.Defs
import Mathlib.Tactic.Common

/-
  Unsigned integers of a fixed width, as natural numbers
  that wrap around.

  Key definitions include:
    * `wrap`
    * `wrapSub`

  Key theorems include:
    * `wrap_of_lt`
    * `wrapSub_of_le`
-/

------------------------------------------------------------
-- Wrapping Around
------------------------------------------------------------

namespace Drex

namespace Core

/- A number at the width `w`. -/
def wrap (w n : Nat) : Nat :=
  n % 2 ^ w

/- The difference at the width `w`. -/
def wrapSub (w m n : Nat) : Nat :=
  (m + (2 ^ w - n % 2 ^ w)) % 2 ^ w

theorem wrap_of_lt
    {w n : Nat}
    (h : n < 2 ^ w) :
    wrap w n = n :=
  Nat.mod_eq_of_lt h

theorem wrap_lt (w n : Nat) : wrap w n < 2 ^ w :=
  Nat.mod_lt n (Nat.two_pow_pos w)

/- A difference that is none below zero is exact. -/
theorem wrapSub_of_le
    {w m n : Nat}
    (hLe : n ≤ m)
    (hLt : m < 2 ^ w) :
    wrapSub w m n = m - n := by
  have hMod : n % 2 ^ w = n :=
    Nat.mod_eq_of_lt (Nat.lt_of_le_of_lt hLe hLt)
  have hSplit : m + (2 ^ w - n) = m - n + 2 ^ w := by
    omega
  unfold wrapSub
  rw [hMod, hSplit, Nat.add_mod_right]
  exact Nat.mod_eq_of_lt (by omega)

end Core

end Drex
