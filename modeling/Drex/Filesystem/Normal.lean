import Mathlib.Algebra.Ring.Int.Defs
import Drex.Filesystem.Path

/-
  `lexically_normal`, `lexically_relative` and the canonical
  form of a path in a tree without symbolic links.

  Key definitions include:
    * `Path.lexicallyNormal`
    * `Path.lexicallyRelative`
    * `Path.canonical`
    * `Path.place`

  Key theorems include:
    * `Path.lexicallyNormal_ordinary`
    * `Path.lexicallyNormal_names`
    * `Path.lexicallyNormal_of_ordinary`
    * `Path.lexicallyRelative_of_prefix`
    * `Path.lexicallyRelative_of_not_prefix`
    * `Path.append_relative_normal`
-/

------------------------------------------------------------
-- Lexical Normal Form
------------------------------------------------------------

namespace Drex

/-
  The normal form built so far: the names kept, the last one
  first, and whether a separator follows them.
-/
structure NormalState where
  kept : List Name
  slash : Bool
deriving DecidableEq

namespace Path

/-
  One file name of `lexically_normal`.  `..` removes the
  name before it together with its separator, stays in a
  relative path that has nothing left to remove, and is
  dropped below the root directory.
-/
def normalStep
    (absolute : Bool)
    (st : NormalState)
    (n : Name) :
    NormalState :=
  if n = .dot then
    { st with slash := true }
  else if n = .dotdot then
    match st.kept with
    | [] =>
        if absolute then
          { kept := [], slash := true }
        else
          { kept := [.dotdot], slash := false }
    | top :: rest =>
        if top = .dotdot then
          { kept := .dotdot :: top :: rest, slash := false }
        else
          { kept := rest, slash := true }
  else
    { kept := n :: st.kept, slash := false }

/-
  The path of what was kept.  Nothing kept is the root
  directory or `.`, and no separator follows a last `..`.
-/
def ofNormalState
    (absolute slash : Bool)
    (st : NormalState) :
    Path :=
  match st.kept with
  | [] => if absolute then rootDirectory else ofName .dot
  | top :: rest =>
      { absolute := absolute
        names := (top :: rest).reverse
        slash := (st.slash || slash) && decide (top ≠ .dotdot)
        slash_names := by simp }

/- `lexically_normal()`. -/
def lexicallyNormal (p : Path) : Path :=
  if p = empty then
    p
  else
    ofNormalState p.absolute p.slash
      (p.names.foldl (normalStep p.absolute)
        { kept := [], slash := false })

theorem ordinary_normalStep
    (st : NormalState)
    (n : Name)
    (h : ∀ m ∈ st.kept, m.Ordinary) :
    ∀ m ∈ (normalStep true st n).kept, m.Ordinary := by
  unfold normalStep
  by_cases hDot : n = .dot
  · simpa [hDot] using h
  · by_cases hDotdot : n = .dotdot
    · cases hKept : st.kept with
      | nil => simp [hDotdot]
      | cons top rest =>
          have hTop : top ≠ .dotdot :=
            (h top (by simp [hKept])).2
          intro m hm
          rw [if_neg hDot, if_pos hDotdot] at hm
          simp only [hTop, if_false] at hm
          exact h m (by simp [hKept, hm])
    · intro m hm
      simp only [hDot, hDotdot, if_false,
        List.mem_cons] at hm
      rcases hm with rfl | hm
      · exact ⟨hDot, hDotdot⟩
      · exact h m hm

theorem ordinary_foldl_normalStep
    (ns : List Name)
    (st : NormalState)
    (h : ∀ m ∈ st.kept, m.Ordinary) :
    ∀ m ∈ (ns.foldl (normalStep true) st).kept,
      m.Ordinary := by
  induction ns generalizing st with
  | nil => exact h
  | cons n ns ih =>
      exact ih _ (ordinary_normalStep st n h)

theorem ofNormalState_names
    (slash : Bool)
    (st : NormalState) :
    (ofNormalState true slash st).absolute = true ∧
      (ofNormalState true slash st).names =
        st.kept.reverse := by
  unfold ofNormalState
  cases st.kept with
  | nil => simp [rootDirectory]
  | cons top rest => simp

/- A kept last name that is not `..` keeps its separator. -/
theorem ofNormalState_of_ordinary
    {absolute slash : Bool}
    {st : NormalState}
    (hNe : st.kept ≠ [])
    (h : ∀ n ∈ st.kept, n.Ordinary) :
    ofNormalState absolute slash st =
      ⟨absolute, st.kept.reverse, st.slash || slash,
        by simp [hNe]⟩ := by
  rcases st with ⟨kept, last⟩
  cases kept with
  | nil => exact absurd rfl hNe
  | cons top rest =>
      have hTop : top ≠ .dotdot := (h top (by simp)).2
      apply Path.ext <;> simp [ofNormalState, hTop]

private theorem ne_empty_of_absolute
    {p : Path}
    (hAbsolute : p.absolute = true) :
    p ≠ empty := by
  intro h
  simp [h, empty] at hAbsolute

/-
  The normal form of an absolute path is absolute and holds
  neither `.` nor `..`.
-/
theorem lexicallyNormal_ordinary
    {p : Path}
    (hAbsolute : p.absolute = true) :
    p.lexicallyNormal.absolute = true ∧
      ∀ n ∈ p.lexicallyNormal.names, n.Ordinary := by
  have hKept :=
    ordinary_foldl_normalStep p.names
      { kept := [], slash := false } (by simp)
  unfold lexicallyNormal
  rw [if_neg (ne_empty_of_absolute hAbsolute), hAbsolute]
  rcases ofNormalState_names p.slash
      (p.names.foldl (normalStep true)
        { kept := [], slash := false }) with
    ⟨hResult, hNames⟩
  refine ⟨hResult, ?_⟩
  intro n hn
  rw [hNames, List.mem_reverse] at hn
  exact hKept n hn

theorem foldl_normalStep_of_ordinary
    (absolute : Bool)
    (ns : List Name)
    (st : NormalState)
    (h : ∀ n ∈ ns, n.Ordinary) :
    ns.foldl (normalStep absolute) st =
      if ns = [] then
        st
      else
        { kept := ns.reverse ++ st.kept, slash := false } := by
  induction ns generalizing st with
  | nil => rfl
  | cons n ns ih =>
      simp only [List.forall_mem_cons] at h
      have hStep :
          normalStep absolute st n =
            { kept := n :: st.kept, slash := false } := by
        simp [normalStep, h.1.1, h.1.2]
      rw [List.foldl_cons, hStep, ih _ h.2]
      cases ns <;> simp

/- An absolute path of ordinary names is its normal form. -/
theorem lexicallyNormal_of_ordinary
    {p : Path}
    (hAbsolute : p.absolute = true)
    (h : ∀ n ∈ p.names, n.Ordinary) :
    p.lexicallyNormal = p := by
  unfold lexicallyNormal
  rw [if_neg (ne_empty_of_absolute hAbsolute),
    foldl_normalStep_of_ordinary _ _ _ h]
  by_cases hNil : p.names = []
  · have hSlash : p.slash = false := by
      by_contra hs
      exact p.slash_names (by simpa using hs) hNil
    rw [if_pos hNil]
    apply Path.ext <;>
      simp [ofNormalState, hNil, hAbsolute, hSlash,
        rootDirectory]
  · rw [if_neg hNil,
      ofNormalState_of_ordinary (by simpa using hNil)
        (by simpa using h)]
    apply Path.ext <;> simp

end Path

end Drex

------------------------------------------------------------
-- Relative And Canonical Paths
------------------------------------------------------------

namespace Drex

namespace Path

/- Drop the longest common prefix of two sequences. -/
def mismatch :
    List PathElement → List PathElement →
      List PathElement × List PathElement
| a :: as, b :: bs =>
    if a = b then mismatch as bs else (a :: as, b :: bs)
| as, bs => (as, bs)

/- The levels an element of the base has to be climbed. -/
def climb : PathElement → Int
| .rootDirectory => 1
| .empty => 0
| .name n =>
    if n = .dotdot then -1 else if n = .dot then 0 else 1

/- `lexically_relative(base)`. -/
def lexicallyRelative (p base : Path) : Path :=
  if p.absolute ≠ base.absolute then
    empty
  else
    let rest := mismatch p.elements base.elements
    let n := (rest.2.map climb).sum
    if rest.1 = [] ∧ rest.2 = [] then
      ofName .dot
    else if n = 0 ∧
        (rest.1 = [] ∨ rest.1.head? = some .empty) then
      ofName .dot
    else if 0 ≤ n then
      (List.replicate n.toNat (PathElement.name .dotdot) ++
          rest.1).foldl
        (fun q e => q / ofElement e) empty
    else
      empty

/-
  `canonical`, for an existing absolute path in a tree
  without symbolic links.
-/
def canonical (p : Path) : Path :=
  { p.lexicallyNormal with
    slash := false
    slash_names := by simp }

theorem mismatch_append
    (as bs : List PathElement) :
    mismatch (as ++ bs) as = (bs, []) := by
  induction as with
  | nil => cases bs <;> rfl
  | cons a as ih => simpa [mismatch] using ih

theorem foldl_append_names
    (ns : List Name)
    (q : Path)
    (hSlash : q.slash = false) :
    (ns.map PathElement.name).foldl
        (fun q e => q / ofElement e) q =
      ⟨q.absolute, q.names ++ ns, false, by simp⟩ := by
  induction ns generalizing q with
  | nil => apply Path.ext <;> simp [hSlash]
  | cons n ns ih =>
      have hStep :
          q / ofElement (.name n) =
            ⟨q.absolute, q.names ++ [n], false, by simp⟩ :=
        append_of_names rfl (by simp [ofElement, ofName])
      rw [List.map_cons, List.foldl_cons, hStep,
        ih _ rfl]
      simp

/- Appending the elements of a relative path builds it. -/
theorem foldl_append_elements
    (ns : List Name)
    (hNe : ns ≠ [])
    (slash : Bool) :
    (ns.map PathElement.name ++
          (if slash then [PathElement.empty] else [])).foldl
        (fun q e => q / ofElement e) empty =
      ⟨false, ns, slash, fun _ => hNe⟩ := by
  have hNames :
      (ns.map PathElement.name).foldl
          (fun q e => q / ofElement e) empty =
        ⟨false, ns, false, by simp⟩ :=
    foldl_append_names ns empty rfl
  rw [List.foldl_append, hNames]
  cases slash with
  | false => rfl
  | true =>
      change append _ empty = _
      apply Path.ext <;> simp [append, empty, hNe]

/-
  A path below a base that ends in a file name is the base
  and the rest of its names.
-/
theorem lexicallyRelative_of_prefix
    {p base : Path}
    {tail : List Name}
    (hAbsolute : p.absolute = base.absolute)
    (hBase : base.slash = false)
    (hNames : p.names = base.names ++ tail) :
    p.lexicallyRelative base =
      if hTail : tail = [] then
        ofName .dot
      else
        ⟨false, tail, p.slash, fun _ => hTail⟩ := by
  have hMismatch :
      mismatch p.elements base.elements =
        (tail.map PathElement.name ++
          (if p.slash then [PathElement.empty] else []), []) := by
    have hElements :
        p.elements =
          base.elements ++
            (tail.map PathElement.name ++
              (if p.slash then [PathElement.empty] else [])) := by
      simp [elements, hAbsolute, hBase, hNames]
    rw [hElements, mismatch_append]
  unfold lexicallyRelative
  rw [if_neg (by simp [hAbsolute]), hMismatch]
  cases tail with
  | nil => cases p.slash <;> simp
  | cons n ns =>
      have hFold :=
        foldl_append_elements (n :: ns) (by simp) p.slash
      simpa using hFold

theorem mismatch_names (as bs : List Name) :
    ∃ common as' bs',
      as = common ++ as' ∧ bs = common ++ bs' ∧
        mismatch (as.map PathElement.name)
            (bs.map PathElement.name) =
          (as'.map PathElement.name,
            bs'.map PathElement.name) := by
  induction as generalizing bs with
  | nil =>
      refine ⟨[], [], bs, rfl, rfl, ?_⟩
      cases bs with
      | nil => rfl
      | cons b bs => rfl
  | cons a as ih =>
      cases bs with
      | nil => exact ⟨[], a :: as, [], rfl, rfl, rfl⟩
      | cons b bs =>
          by_cases hEq : a = b
          · subst hEq
            rcases ih bs with
              ⟨common, as', bs', rfl, rfl, hMismatch⟩
            refine
              ⟨a :: common, as', bs', rfl, rfl, ?_⟩
            simpa [mismatch] using hMismatch
          · refine
              ⟨[], a :: as, b :: bs, rfl, rfl, ?_⟩
            simp [mismatch, hEq]

/- Every ordinary name of the base has to be climbed. -/
theorem sum_climb_names
    {ns : List Name}
    (h : ∀ n ∈ ns, n.Ordinary) :
    ((ns.map PathElement.name).map climb).sum =
      (ns.length : Int) := by
  induction ns with
  | nil => rfl
  | cons n ns ih =>
      rw [List.forall_mem_cons] at h
      have hClimb : climb (.name n) = 1 := by
        simp [climb, h.1.1, h.1.2]
      rw [List.map_cons, List.map_cons, List.sum_cons,
        hClimb, ih h.2, List.length_cons]
      omega

/- A path that is not below the base climbs out of it. -/
theorem lexicallyRelative_of_not_prefix
    {p base : Path}
    (hAbsolute : p.absolute = true)
    (hBaseAbsolute : base.absolute = true)
    (hSlash : p.slash = false)
    (hBaseSlash : base.slash = false)
    (hBase : ∀ n ∈ base.names, n.Ordinary)
    (hNot : ¬base.names <+: p.names) :
    ∃ rest,
      p.lexicallyRelative base =
        ⟨false, .dotdot :: rest, false, by simp⟩ := by
  rcases mismatch_names p.names base.names with
    ⟨common, ps, bs, hNames, hBaseNames, hMismatch⟩
  cases bs with
  | nil =>
      apply absurd _ hNot
      rw [hNames, hBaseNames, List.append_nil]
      exact List.prefix_append _ _
  | cons b bs =>
      have hElements :
          mismatch p.elements base.elements =
            (ps.map PathElement.name,
              (b :: bs).map PathElement.name) := by
        simpa [elements, hAbsolute, hBaseAbsolute, hSlash,
          hBaseSlash, mismatch] using hMismatch
      have hSum :
          (((b :: bs).map PathElement.name).map climb).sum =
            ((b :: bs).length : Int) := by
        apply sum_climb_names
        intro n hMem
        apply hBase
        rw [hBaseNames]
        exact List.mem_append_right _ hMem
      have hFold :=
        foldl_append_names
          (List.replicate (bs.length + 1) .dotdot ++ ps)
          empty rfl
      refine
        ⟨List.replicate bs.length .dotdot ++ ps, ?_⟩
      unfold lexicallyRelative
      rw [if_neg (by simp [hAbsolute, hBaseAbsolute]),
        hElements]
      simp only [hSum]
      rw [if_neg (by simp), if_neg (by simp; omega),
        if_pos (by omega)]
      rw [List.map_append, List.map_replicate] at hFold
      rw [Int.toNat_natCast, List.length_cons, hFold]
      apply Path.ext
      · rfl
      · simp [empty, List.replicate_succ]
      · rfl

/-
  A relative path of ordinary names under an absolute path
  of ordinary names is appended as it is.
-/
theorem append_relative_normal
    {base : Path}
    {tail : List Name}
    {slash : Bool}
    (hAbsolute : base.absolute = true)
    (hBase : ∀ n ∈ base.names, n.Ordinary)
    (hTail : ∀ n ∈ tail, n.Ordinary)
    (hNe : tail ≠ []) :
    (base / ⟨false, tail, slash,
        fun _ => hNe⟩).lexicallyNormal =
      ⟨true, base.names ++ tail, slash,
        by simp [hNe]⟩ := by
  have hAppend :
      base / ⟨false, tail, slash, fun _ => hNe⟩ =
        ⟨base.absolute, base.names ++ tail, slash,
          by simp [hNe]⟩ :=
    append_of_names rfl hNe
  have hOrdinary :
      ∀ n ∈ base.names ++ tail, n.Ordinary := by
    intro n hn
    rcases List.mem_append.mp hn with hn | hn
    · exact hBase n hn
    · exact hTail n hn
  rw [hAppend,
    lexicallyNormal_of_ordinary
      (p := ⟨base.absolute, base.names ++ tail, slash, _⟩)
      hAbsolute hOrdinary]
  apply Path.ext <;> simp [hAbsolute]

/- `base / "."` is the base with a trailing separator. -/
theorem append_dot_normal
    {base : Path}
    (hAbsolute : base.absolute = true)
    (hBase : ∀ n ∈ base.names, n.Ordinary)
    (hNe : base.names ≠ []) :
    (base / ofName .dot).lexicallyNormal =
      ⟨true, base.names, true, fun _ => hNe⟩ := by
  have hAppend :
      base / ofName .dot =
        ⟨base.absolute, base.names ++ [.dot], false,
          by simp⟩ :=
    append_of_names rfl (by simp [ofName])
  rw [hAppend]
  unfold lexicallyNormal
  rw [if_neg (by simp [empty])]
  simp only [List.foldl_append, List.foldl_cons,
    List.foldl_nil]
  rw [foldl_normalStep_of_ordinary _ _ _ hBase, if_neg hNe]
  simp only [normalStep, if_true]
  rw [ofNormalState_of_ordinary (by simpa using hNe)
    (by simpa using hBase)]
  apply Path.ext <;> simp [hAbsolute]

end Path

end Drex

------------------------------------------------------------
-- Places
------------------------------------------------------------

namespace Drex

namespace Path

/- Go from a directory to what one file name leads to. -/
def enter (l : List Name) (n : Name) : List Name :=
  if n = .dot then
    l
  else if n = .dotdot then
    l.dropLast
  else
    l ++ [n]

/- Where the names of an absolute path lead, one by one. -/
def place (p : Path) : List Name :=
  p.names.foldl enter []

/- What is kept of the names is where they lead. -/
theorem reverse_kept_normalStep
    {st : NormalState}
    (n : Name)
    (h : ∀ m ∈ st.kept, m.Ordinary) :
    (normalStep true st n).kept.reverse =
      enter st.kept.reverse n := by
  unfold normalStep enter
  by_cases hDot : n = .dot
  · rw [if_pos hDot, if_pos hDot]
  · rw [if_neg hDot, if_neg hDot]
    by_cases hDotdot : n = .dotdot
    · rw [if_pos hDotdot, if_pos hDotdot]
      cases hKept : st.kept with
      | nil => rfl
      | cons top rest =>
          have hTop : top ≠ .dotdot :=
            (h top (by simp [hKept])).2
          simp [hTop]
    · rw [if_neg hDotdot, if_neg hDotdot]
      exact List.reverse_cons

theorem reverse_kept_foldl
    (ns : List Name)
    {st : NormalState}
    (h : ∀ m ∈ st.kept, m.Ordinary) :
    (ns.foldl (normalStep true) st).kept.reverse =
      ns.foldl enter st.kept.reverse := by
  induction ns generalizing st with
  | nil => rfl
  | cons n ns ih =>
      rw [List.foldl_cons, List.foldl_cons,
        ih (ordinary_normalStep st n h),
        reverse_kept_normalStep n h]

/- The normal form of an absolute path names its place. -/
theorem lexicallyNormal_names
    {p : Path}
    (hAbsolute : p.absolute = true) :
    p.lexicallyNormal.names = p.place := by
  unfold lexicallyNormal
  rw [if_neg (ne_empty_of_absolute hAbsolute), hAbsolute,
    (ofNormalState_names _ _).2]
  exact reverse_kept_foldl p.names (by simp)

end Path

end Drex
