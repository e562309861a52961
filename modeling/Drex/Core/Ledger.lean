import Drex.Core.Prog

/-
  The objects that a program has been given by its
  environment and has not given back: a view of its runs
  that says whether it ever used an object that it did not
  have.

  Key definitions include:
    * `Interface`
    * `Ledger`
    * `Interface.answers`

  Key theorems include:
    * `wp_use`
    * `wp_acquire`
    * `wp_release`
-/

------------------------------------------------------------
-- Ledgers
------------------------------------------------------------

namespace Drex

namespace Core

/-
  What the operations of a program mean for its objects.  An
  answer may also be noted.
-/
structure Interface
    (Op : Type)
    (Resp : Op → Type)
    (R N : Type) where
  uses : Op → List R
  releases : Op → Option R
  acquires : (op : Op) → Resp op → Option R
  notes : (op : Op) → Resp op → Option N
  allowed : (op : Op) → Resp op → Prop

/-
  The objects at hand, whether every operation had what it
  used, and what was noted.
-/
structure Ledger (R N : Type) where
  live : List R
  sound : Bool
  noted : List N

variable {Op : Type} {Resp : Op → Type} {R N : Type}
/- Nothing is given back where nothing is to be. -/
theorem filter_none
    (live : List R) :
    live.filter (fun x => decide ((none : Option R) ≠ some x)) =
      live :=
  List.filter_eq_self.mpr fun _ _ => rfl

variable [DecidableEq R]

namespace Interface

variable (I : Interface Op Resp R N)

/- The ledger after an answered operation. -/
def after
    (g : Ledger R N)
    (op : Op)
    (r : Resp op) :
    Ledger R N :=
  { live :=
      (I.acquires op r).toList ++
        g.live.filter
          (fun x => decide (I.releases op ≠ some x))
    sound :=
      g.sound && (I.uses op).all (fun x => decide (x ∈ g.live))
    noted := (I.notes op r).toList ++ g.noted }

/- The environment hands out only what is not out. -/
def answers : Prog.Answers Op Resp (Ledger R N) :=
  fun g op r g' =>
    I.allowed op r ∧
      (∀ x, I.acquires op r = some x → x ∉ g.live) ∧
      g' = I.after g op r

/- An answer whose object is seen to be new. -/
theorem answers_after
    {g : Ledger R N}
    {op : Op}
    {r : Resp op}
    (hAllowed : I.allowed op r)
    (hFresh :
      (I.acquires op r).all (fun x => decide (x ∉ g.live)) =
        true) :
    I.answers g op r (I.after g op r) := by
  refine ⟨hAllowed, fun x hNew => ?_, rfl⟩
  rw [hNew] at hFresh
  exact of_decide_eq_true hFresh

end Interface

/- The newest object is the one that goes. -/
theorem filter_head
    {x : R}
    {live : List R}
    (h : x ∉ live) :
    (x :: live).filter
        (fun y => decide (some x ≠ some y)) =
      live := by
  have hRest :
      live.filter (fun y => decide (some x ≠ some y)) =
        live := by
    refine List.filter_eq_self.mpr fun y hMem => ?_
    refine decide_eq_true fun hEq => h ?_
    rw [Option.some.inj hEq]
    exact hMem
  rw [List.filter_cons_of_neg, hRest]
  simp

/- What is newer than it stays. -/
theorem filter_second
    {x y : R}
    {live : List R}
    (hNe : y ≠ x)
    (h : x ∉ live) :
    (y :: x :: live).filter
        (fun z => decide (some x ≠ some z)) =
      y :: live := by
  rw [List.filter_cons_of_pos, filter_head h]
  refine decide_eq_true fun hEq => hNe ?_
  exact (Option.some.inj hEq).symm

variable {I : Interface Op Resp R N}
variable {α : Type}
variable {Q : α → Ledger R N → Prop}

/- An operation that only uses what is at hand. -/
theorem wp_use
    {op : Op}
    {f : Resp op → Prog Op Resp α}
    {g : Ledger R N}
    (hUses : ∀ x ∈ I.uses op, x ∈ g.live)
    (hReleases : I.releases op = none)
    (hAcquires : ∀ r, I.acquires op r = none)
    (h :
      ∀ r, I.allowed op r →
        Prog.wp I.answers (fun _ _ => True) (f r) Q
          { g with noted := (I.notes op r).toList ++ g.noted }) :
    Prog.wp I.answers (fun _ _ => True)
      (Prog.perform op >>= f) Q g := by
  refine Prog.wp_call_bind.mpr ⟨trivial, ?_⟩
  rintro r g' ⟨hAllowed, hFresh, rfl⟩
  have hAll :
      (I.uses op).all (fun x => decide (x ∈ g.live)) =
        true :=
    List.all_eq_true.mpr fun x hMem =>
      decide_eq_true (hUses x hMem)
  have hEq :
      I.after g op r =
        { g with noted := (I.notes op r).toList ++ g.noted } := by
    unfold Interface.after
    rw [hReleases, hAcquires, filter_none, hAll, Bool.and_true]
    rfl
  rw [hEq]
  exact h r hAllowed

/- An operation that may hand out a new object. -/
theorem wp_acquire
    {op : Op}
    {f : Resp op → Prog Op Resp α}
    {g : Ledger R N}
    (hUses : ∀ x ∈ I.uses op, x ∈ g.live)
    (hReleases : I.releases op = none)
    (hNotes : ∀ r, I.notes op r = none)
    (h :
      ∀ r, I.allowed op r →
        (∀ x, I.acquires op r = some x → x ∉ g.live) →
          Prog.wp I.answers (fun _ _ => True) (f r) Q
            { g with
              live := (I.acquires op r).toList ++ g.live }) :
    Prog.wp I.answers (fun _ _ => True)
      (Prog.perform op >>= f) Q g := by
  refine Prog.wp_call_bind.mpr ⟨trivial, ?_⟩
  rintro r g' ⟨hAllowed, hFresh, rfl⟩
  have hAll :
      (I.uses op).all (fun x => decide (x ∈ g.live)) =
        true :=
    List.all_eq_true.mpr fun x hMem =>
      decide_eq_true (hUses x hMem)
  have hEq :
      I.after g op r =
        { g with
          live := (I.acquires op r).toList ++ g.live } := by
    unfold Interface.after
    rw [hReleases, hNotes, filter_none, hAll, Bool.and_true]
    rfl
  rw [hEq]
  exact h r hAllowed hFresh

/- An operation that gives back an object. -/
theorem wp_release
    {op : Op}
    {f : Resp op → Prog Op Resp α}
    {g : Ledger R N}
    {x : R}
    {live : List R}
    (hMem : x ∈ g.live)
    (hRest :
      g.live.filter (fun y => decide (some x ≠ some y)) = live)
    (hUses : I.uses op = [x])
    (hReleases : I.releases op = some x)
    (hAcquires : ∀ r, I.acquires op r = none)
    (hNotes : ∀ r, I.notes op r = none)
    (h :
      ∀ r, I.allowed op r →
        Prog.wp I.answers (fun _ _ => True) (f r) Q
          { g with live := live }) :
    Prog.wp I.answers (fun _ _ => True)
      (Prog.perform op >>= f) Q g := by
  refine Prog.wp_call_bind.mpr ⟨trivial, ?_⟩
  rintro r g' ⟨hAllowed, _, rfl⟩
  have hEq : I.after g op r = { g with live := live } := by
    unfold Interface.after
    rw [hReleases, hAcquires, hNotes, hUses, hRest]
    simp [hMem]
  rw [hEq]
  exact h r hAllowed

/- Giving back what is not at hand is never sound. -/
theorem wp_release_again
    {op : Op}
    {f : Resp op → Prog Op Resp α}
    {g : Ledger R N}
    {x : R}
    (hGone : x ∉ g.live)
    (hUses : I.uses op = [x])
    (hReleases : I.releases op = some x)
    (hAcquires : ∀ r, I.acquires op r = none)
    (hNotes : ∀ r, I.notes op r = none)
    (h :
      ∀ r, I.allowed op r →
        Prog.wp I.answers (fun _ _ => True) (f r) Q
          { g with sound := false }) :
    Prog.wp I.answers (fun _ _ => True)
      (Prog.perform op >>= f) Q g := by
  refine Prog.wp_call_bind.mpr ⟨trivial, ?_⟩
  rintro r g' ⟨hAllowed, _, rfl⟩
  have hRest :
      g.live.filter (fun y => decide (some x ≠ some y)) =
        g.live := by
    refine List.filter_eq_self.mpr fun y hMem => ?_
    refine decide_eq_true fun hEq => hGone ?_
    rw [Option.some.inj hEq]
    exact hMem
  have hEq : I.after g op r = { g with sound := false } := by
    unfold Interface.after
    rw [hReleases, hAcquires, hNotes, hUses, hRest]
    simp [hGone]
  rw [hEq]
  exact h r hAllowed

end Core

end Drex
