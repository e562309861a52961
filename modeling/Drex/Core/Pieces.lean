import Mathlib.Data.List.Induction
import Mathlib.Logic.Function.Basic
import Mathlib.Tactic.Common

/-
  Pieces of several sequences that arrive in one order.

  A reader puts the pieces of each key together.  One reader
  starts anew only at a piece that is flagged as a start;
  another keeps a single key open and also starts anew when
  it comes back to a key.  The two agree on a key unless a
  piece that is no start finds data of its key cut off.

  Key definitions include:
    * `Piece`
    * `sinceStart`
    * `Assembly`
    * `assemble`
    * `Severed`

  Key theorems include:
    * `assemble_suffix`
    * `assemble_eq_iff`
-/

------------------------------------------------------------
-- Two Readers
------------------------------------------------------------

namespace Drex

namespace Core

variable {K D : Type}
variable [DecidableEq K]

/- A piece of the sequence of one key. -/
structure Piece (K D : Type) where
  key : K
  starts : Bool
  ends : Bool
  data : List D

/- One piece for the reader of starts. -/
def addSinceStart
    (k : K)
    (read : List D)
    (p : Piece K D) :
    List D :=
  if p.key = k then
    if p.starts then p.data else read ++ p.data
  else
    read

/- The data of a key from its last start on. -/
def sinceStart
    (k : K)
    (pieces : List (Piece K D)) :
    List D :=
  pieces.foldl (addSinceStart k) []

/- What the reader with one open key has. -/
structure Assembly (K D : Type) where
  contents : K → List D
  current : Option K

namespace Assembly

def init : Assembly K D :=
  { contents := fun _ => [], current := none }

/- The piece does not continue the key that is open. -/
def Opens (a : Assembly K D) (p : Piece K D) : Prop :=
  p.starts = true ∨ a.current ≠ some p.key

instance (a : Assembly K D) (p : Piece K D) :
    Decidable (a.Opens p) := by
  unfold Opens
  infer_instance

/- One piece for the reader with one open key. -/
def add (a : Assembly K D) (p : Piece K D) :
    Assembly K D :=
  { contents :=
      Function.update a.contents p.key
        ((if a.Opens p then [] else a.contents p.key) ++
          p.data)
    current := if p.ends then none else some p.key }

end Assembly

/- The pieces as the reader with one open key takes them. -/
def assemble (pieces : List (Piece K D)) : Assembly K D :=
  pieces.foldl Assembly.add .init

/-
  A piece that is no start comes back to its key, has data
  of the key before it, and no later piece starts the key.
-/
def Severed (k : K) (pieces : List (Piece K D)) : Prop :=
  ∃ before p after,
    pieces = before ++ p :: after ∧ p.key = k ∧
      p.starts = false ∧
        (assemble before).current ≠ some k ∧
          sinceStart k before ≠ [] ∧
            ∀ q ∈ after, q.key = k → q.starts = false

end Core

end Drex

------------------------------------------------------------
-- One More Piece
------------------------------------------------------------

namespace Drex

namespace Core

variable {K D : Type}
variable [DecidableEq K]
variable (k : K) (pieces : List (Piece K D)) (p : Piece K D)

theorem sinceStart_snoc :
    sinceStart k (pieces ++ [p]) =
      addSinceStart k (sinceStart k pieces) p := by
  unfold sinceStart
  rw [List.foldl_append]
  rfl

theorem assemble_snoc :
    assemble (pieces ++ [p]) =
      (assemble pieces).add p := by
  unfold assemble
  rw [List.foldl_append]
  rfl

omit [DecidableEq K] in
/- A piece of a longer list is the last one or an old one. -/
theorem snoc_eq_split
    {pieces before after : List (Piece K D)}
    {p q : Piece K D}
    (h : pieces ++ [p] = before ++ q :: after) :
    (pieces = before ∧ p = q ∧ after = []) ∨
      ∃ rest, after = rest ++ [p] ∧
        pieces = before ++ q :: rest := by
  rcases List.eq_nil_or_concat after with
    rfl | ⟨rest, last, rfl⟩
  · have hSame := List.append_inj' h rfl
    injection hSame.2 with hHead
    exact Or.inl ⟨hSame.1, hHead, rfl⟩
  · rw [List.concat_eq_append, ← List.cons_append,
      ← List.append_assoc] at h
    have hSame := List.append_inj' h rfl
    injection hSame.2 with hHead
    rw [List.concat_eq_append, hHead]
    exact Or.inr ⟨rest, rfl, hSame.1⟩

/- The pieces of another key sever nothing. -/
theorem severed_snoc_of_ne
    (hKey : p.key ≠ k) :
    Severed k (pieces ++ [p]) ↔ Severed k pieces := by
  constructor
  · rintro
      ⟨before, q, after, hEq, hQ, hStart, hCut, hData,
        hLater⟩
    rcases snoc_eq_split hEq with
      ⟨_, rfl, _⟩ | ⟨rest, rfl, hOld⟩
    · exact absurd hQ hKey
    · refine
        ⟨before, q, rest, hOld, hQ, hStart, hCut, hData, ?_⟩
      intro r hMem
      exact hLater r (List.mem_append_left _ hMem)
  · rintro
      ⟨before, q, after, rfl, hQ, hStart, hCut, hData,
        hLater⟩
    refine
      ⟨before, q, after ++ [p], by simp, hQ, hStart, hCut,
        hData, ?_⟩
    intro r hMem hR
    rcases List.mem_append.mp hMem with hMem | hMem
    · exact hLater r hMem hR
    · rw [List.mem_singleton.mp hMem] at hR
      exact absurd hR hKey

/- A start forgets what was severed before it. -/
theorem not_severed_snoc_of_starts
    (hKey : p.key = k)
    (hStarts : p.starts = true) :
    ¬ Severed k (pieces ++ [p]) := by
  rintro
    ⟨before, q, after, hEq, hQ, hStart, _, _, hLater⟩
  rcases snoc_eq_split hEq with
    ⟨_, rfl, _⟩ | ⟨rest, rfl, _⟩
  · rw [hStart] at hStarts
    cases hStarts
  · have hLast := hLater p (by simp) hKey
    rw [hStarts] at hLast
    cases hLast

/- A piece that is no start can sever its key. -/
theorem severed_snoc_of_continues
    (hKey : p.key = k)
    (hStarts : p.starts = false) :
    Severed k (pieces ++ [p]) ↔
      Severed k pieces ∨
        ((assemble pieces).current ≠ some k ∧
          sinceStart k pieces ≠ []) := by
  constructor
  · rintro
      ⟨before, q, after, hEq, hQ, hStart, hCut, hData,
        hLater⟩
    rcases snoc_eq_split hEq with
      ⟨rfl, _, _⟩ | ⟨rest, rfl, hOld⟩
    · exact Or.inr ⟨hCut, hData⟩
    · left
      refine
        ⟨before, q, rest, hOld, hQ, hStart, hCut, hData, ?_⟩
      intro r hMem
      exact hLater r (List.mem_append_left _ hMem)
  · rintro
      (⟨before, q, after, rfl, hQ, hStart, hCut, hData,
        hLater⟩ | ⟨hCut, hData⟩)
    · refine
        ⟨before, q, after ++ [p], by simp, hQ, hStart, hCut,
          hData, ?_⟩
      intro r hMem hR
      rcases List.mem_append.mp hMem with hMem | hMem
      · exact hLater r hMem hR
      · rw [List.mem_singleton.mp hMem]
        exact hStarts
    · exact
        ⟨pieces, p, [], rfl, hKey, hStarts, hCut, hData,
          by simp⟩

end Core

end Drex

------------------------------------------------------------
-- Where The Readers Agree
------------------------------------------------------------

namespace Drex

namespace Core

variable {K D : Type}
variable [DecidableEq K]

theorem add_contents_of_ne
    {k : K}
    (a : Assembly K D)
    {p : Piece K D}
    (hKey : p.key ≠ k) :
    (a.add p).contents k = a.contents k :=
  Function.update_of_ne (Ne.symm hKey) _ _

theorem add_contents_self
    (a : Assembly K D)
    (p : Piece K D) :
    (a.add p).contents p.key =
      (if a.Opens p then [] else a.contents p.key) ++
        p.data :=
  Function.update_self _ _ _

/-
  What the reader with one open key has of a key is a suffix
  of what the reader of starts has.
-/
theorem assemble_suffix
    (k : K)
    (pieces : List (Piece K D)) :
    (assemble pieces).contents k <:+
      sinceStart k pieces := by
  induction pieces using List.reverseRecOn with
  | nil => exact List.suffix_refl _
  | append_singleton pieces p ih =>
      rw [assemble_snoc, sinceStart_snoc]
      unfold addSinceStart
      by_cases hKey : p.key = k
      · subst hKey
        rw [if_pos rfl, add_contents_self]
        by_cases hStarts : p.starts = true
        · have hOpens : (assemble pieces).Opens p :=
            Or.inl hStarts
          rw [if_pos hStarts, if_pos hOpens]
          exact List.suffix_refl _
        · rw [if_neg hStarts]
          split
          · exact List.suffix_append _ _
          · rcases ih with ⟨lost, hLost⟩
            rw [← hLost, List.append_assoc]
            exact List.suffix_append _ _
      · rw [if_neg hKey, add_contents_of_ne _ hKey]
        exact ih

/- The two readers agree exactly on what is not severed. -/
theorem assemble_eq_iff
    (k : K)
    (pieces : List (Piece K D)) :
    (assemble pieces).contents k = sinceStart k pieces ↔
      ¬ Severed k pieces := by
  induction pieces using List.reverseRecOn with
  | nil =>
      refine iff_of_true rfl ?_
      rintro ⟨before, p, after, hEq, _⟩
      simp at hEq
  | append_singleton pieces p ih =>
      rw [assemble_snoc, sinceStart_snoc]
      unfold addSinceStart
      by_cases hKey : p.key = k
      · subst hKey
        rw [if_pos rfl, add_contents_self]
        by_cases hStarts : p.starts = true
        · have hOpens : (assemble pieces).Opens p :=
            Or.inl hStarts
          rw [if_pos hStarts, if_pos hOpens]
          exact
            iff_of_true rfl
              (not_severed_snoc_of_starts _ _ _ rfl hStarts)
        · have hNoStart : p.starts = false := by
            simpa using hStarts
          rw [if_neg hStarts,
            severed_snoc_of_continues _ _ _ rfl hNoStart,
            not_or, ← ih]
          by_cases hOpen :
              (assemble pieces).current = some p.key
          · have hKeeps : ¬ (assemble pieces).Opens p := by
              rintro (hStart | hCut)
              · exact hStarts hStart
              · exact hCut hOpen
            rw [if_neg hKeeps]
            constructor
            · intro hSame
              exact
                ⟨List.append_cancel_right hSame,
                  fun hCut => hCut.1 hOpen⟩
            · rintro ⟨hSame, _⟩
              rw [hSame]
          · have hOpens : (assemble pieces).Opens p :=
              Or.inr hOpen
            rw [if_pos hOpens]
            constructor
            · intro hSame
              have hNil : sinceStart p.key pieces = [] := by
                have hLength := congrArg List.length hSame
                simp only [List.nil_append,
                  List.length_append] at hLength
                exact
                  List.length_eq_zero_iff.mp (by omega)
              refine ⟨?_, fun hCut => hCut.2 hNil⟩
              have hSuffix := assemble_suffix p.key pieces
              rw [hNil] at hSuffix
              rw [hNil, List.suffix_nil.mp hSuffix]
            · rintro ⟨_, hKept⟩
              have hNil : sinceStart p.key pieces = [] := by
                by_contra hNe
                exact hKept ⟨hOpen, hNe⟩
              rw [hNil]
      · rw [if_neg hKey, add_contents_of_ne _ hKey,
          severed_snoc_of_ne _ _ _ hKey]
        exact ih

end Core

end Drex
