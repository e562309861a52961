import Mathlib.Data.List.Basic
import Mathlib.Tactic.Common

/-
  Paths of `std::filesystem` on a POSIX system.

  A path is a root flag, its file names and a flag for a
  trailing separator.  The grammar collapses repeated
  separators, so two spellings with the same elements are
  the same path here.

  Key definitions include:
    * `NulFree`
    * `Name`
    * `Path`
    * `Path.ofString`
    * `Path.toString`
    * `Path.append`
    * `Path.elements`
    * `Path.parentPath`

  Key theorems include:
    * `Path.ofString_toString`
-/

------------------------------------------------------------
-- Strings And File Names
------------------------------------------------------------

namespace Drex

/- A `std::string`, as its characters. -/
abbrev Str :=
  List Char

/-
  The string has no U+0000.  Each call of the filesystem
  reads `c_str()`, which ends there; the paths below do not
  follow this, so what is proved about places on the disk
  names the strings that have to be free of it.
-/
def NulFree (s : Str) : Prop :=
  '\x00' ∉ s

instance (s : Str) : Decidable (NulFree s) :=
  inferInstanceAs (Decidable ('\x00' ∉ s))

/-
  A file name: not empty, and without a slash.  U+0000 is a
  character like others here.
-/
structure Name where
  chars : Str
  nonempty : chars ≠ []
  noSlash : '/' ∉ chars
deriving DecidableEq

namespace Name

/- The file name `.`. -/
def dot : Name :=
  ⟨['.'], by decide, by decide⟩

/- The file name `..`. -/
def dotdot : Name :=
  ⟨['.', '.'], by decide, by decide⟩

/- A string as a file name, if it is one. -/
def ofString? (s : Str) : Option Name :=
  if h : s ≠ [] ∧ '/' ∉ s then
    some ⟨s, h.1, h.2⟩
  else
    none

/- Neither `.` nor `..`. -/
def Ordinary (n : Name) : Prop :=
  n ≠ dot ∧ n ≠ dotdot

instance (n : Name) : Decidable n.Ordinary := by
  unfold Ordinary
  infer_instance

@[simp] theorem ofString?_chars
    (n : Name) :
    ofString? n.chars = some n := by
  simp [ofString?, n.nonempty, n.noSlash]

@[simp] theorem ofString?_nil :
    ofString? [] = none := by
  simp [ofString?]

end Name

end Drex

------------------------------------------------------------
-- Paths
------------------------------------------------------------

namespace Drex

/- What iterating over a path yields. -/
inductive PathElement
| rootDirectory
| name (n : Name)
| empty
deriving DecidableEq

/-
  A path.  Only a path with a file name can end in a
  separator of its own.
-/
structure Path where
  absolute : Bool
  names : List Name
  slash : Bool
  slash_names : slash = true → names ≠ []
deriving DecidableEq

namespace Path

@[ext] theorem ext
    {p q : Path}
    (hAbsolute : p.absolute = q.absolute)
    (hNames : p.names = q.names)
    (hSlash : p.slash = q.slash) :
    p = q := by
  cases p
  cases q
  simp_all

/- The path of the empty string. -/
def empty : Path :=
  ⟨false, [], false, by simp⟩

/- The root directory. -/
def rootDirectory : Path :=
  ⟨true, [], false, by simp⟩

/- A path of one relative file name. -/
def ofName (n : Name) : Path :=
  ⟨false, [n], false, by simp⟩

/- The elements in the order of `begin()` to `end()`. -/
def elements (p : Path) : List PathElement :=
  (if p.absolute then [.rootDirectory] else []) ++
    p.names.map .name ++
    (if p.slash then [.empty] else [])

/- One element as a path of its own. -/
def ofElement : PathElement → Path
| .rootDirectory => rootDirectory
| .name n => ofName n
| .empty => empty

/-
  `operator/`: an absolute right side replaces the left one,
  and an empty right side adds a trailing separator.
-/
def append (p q : Path) : Path :=
  if q.absolute then
    q
  else if hNames : q.names = [] then
    ⟨p.absolute, p.names, decide (p.names ≠ []), by simp⟩
  else
    ⟨p.absolute, p.names ++ q.names, q.slash,
      by simp [hNames]⟩

instance : Div Path := ⟨append⟩

/- `parent_path()`. -/
def parentPath (p : Path) : Path :=
  if p.slash then
    ⟨p.absolute, p.names, false, by simp⟩
  else
    ⟨p.absolute, p.names.dropLast, false, by simp⟩

/-
  The place an absolute path without `..` names: its file
  names, less the ones that stay where they are.
-/
def loc (p : Path) : List Name :=
  p.names.filter (· ≠ .dot)

/- Appending a path with file names joins the names. -/
theorem append_of_names
    {p q : Path}
    (hRelative : q.absolute = false)
    (hNames : q.names ≠ []) :
    p / q =
      ⟨p.absolute, p.names ++ q.names, q.slash,
        by simp [hNames]⟩ := by
  change append p q = _
  simp [append, hRelative, hNames]

/- Appending keeps the root of the left side. -/
theorem append_absolute
    {p : Path}
    (q : Path)
    (hAbsolute : p.absolute = true) :
    (p / q).absolute = true := by
  change (append p q).absolute = true
  unfold append
  split
  · assumption
  · split <;> exact hAbsolute

theorem loc_of_ordinary
    {p : Path}
    (h : ∀ n ∈ p.names, n.Ordinary) :
    p.loc = p.names := by
  unfold loc
  rw [List.filter_eq_self]
  intro n hn
  simpa using (h n hn).1

end Path

end Drex

------------------------------------------------------------
-- Spelling And Parsing
------------------------------------------------------------

namespace Drex

/- The pieces between slashes, the empty ones included. -/
def splitSlash : Str → List Str
| [] => [[]]
| c :: cs =>
    if c = '/' then
      [] :: splitSlash cs
    else
      match splitSlash cs with
      | [] => [[c]]
      | piece :: pieces => (c :: piece) :: pieces

/- File names joined by slashes. -/
def joinNames : List Name → Str
| [] => []
| [n] => n.chars
| n :: ns => n.chars ++ '/' :: joinNames ns

namespace Path

/- The path a string spells. -/
def ofString (s : Str) : Path :=
  let names := (splitSlash s).filterMap Name.ofString?
  { absolute := decide (s.head? = some '/')
    names := names
    slash := decide (names ≠ [] ∧ s.getLast? = some '/')
    slash_names := by simp +contextual }

/- `generic_string()`. -/
def toString (p : Path) : Str :=
  (if p.absolute then ['/'] else []) ++
    joinNames p.names ++
    (if p.slash then ['/'] else [])

end Path

theorem splitSlash_of_noSlash
    {s : Str}
    (h : '/' ∉ s) :
    splitSlash s = [s] := by
  induction s with
  | nil => rfl
  | cons c cs ih =>
      simp only [List.mem_cons, not_or] at h
      simp [splitSlash, Ne.symm h.1, ih h.2]

theorem splitSlash_append
    {a : Str}
    (b : Str)
    (h : '/' ∉ a) :
    splitSlash (a ++ '/' :: b) = a :: splitSlash b := by
  induction a with
  | nil => rfl
  | cons c cs ih =>
      simp only [List.mem_cons, not_or] at h
      simp [splitSlash, Ne.symm h.1, ih h.2]

/- Splitting a spelled path gives the names back. -/
theorem filterMap_splitSlash_joinNames
    (ns : List Name)
    (tail : Str)
    (hTail : tail = [] ∨ (tail = ['/'] ∧ ns ≠ [])) :
    (splitSlash (joinNames ns ++ tail)).filterMap
        Name.ofString? = ns := by
  induction ns with
  | nil =>
      rcases hTail with rfl | ⟨_, hNe⟩
      · rfl
      · exact absurd rfl hNe
  | cons n ns ih =>
      cases ns with
      | nil =>
          rcases hTail with rfl | ⟨rfl, _⟩
          · simp [joinNames,
              splitSlash_of_noSlash n.noSlash]
          · simp [joinNames, splitSlash_append [] n.noSlash,
              splitSlash]
      | cons m ms =>
          have hRest :
              tail = [] ∨ (tail = ['/'] ∧ m :: ms ≠ []) := by
            rcases hTail with h | h
            · exact Or.inl h
            · exact Or.inr ⟨h.1, by simp⟩
          have hJoin :
              joinNames (n :: m :: ms) ++ tail =
                n.chars ++
                  '/' :: (joinNames (m :: ms) ++ tail) := by
            simp [joinNames]
          rw [hJoin, splitSlash_append _ n.noSlash,
            List.filterMap_cons, Name.ofString?_chars,
            ih hRest]

/- A spelled relative path does not start with a slash. -/
theorem head?_joinNames_ne
    (ns : List Name) :
    (joinNames ns).head? ≠ some '/' := by
  cases ns with
  | nil => simp [joinNames]
  | cons n ns =>
      have hHead :
          (joinNames (n :: ns)).head? = n.chars.head? := by
        cases hChars : n.chars with
        | nil => exact absurd hChars n.nonempty
        | cons c cs =>
            cases ns <;> simp [joinNames, hChars]
      rw [hHead]
      intro h
      exact n.noSlash (List.mem_of_mem_head? h)

/- A spelled path does not end in a slash of its names. -/
theorem getLast?_joinNames_ne
    (ns : List Name) :
    (joinNames ns).getLast? ≠ some '/' := by
  induction ns with
  | nil => simp [joinNames]
  | cons n ns ih =>
      cases ns with
      | nil =>
          intro h
          exact n.noSlash (List.mem_of_getLast? h)
      | cons m ms =>
          have hJoin :
              joinNames (m :: ms) ≠ [] := by
            cases ms <;> simp [joinNames, m.nonempty]
          intro h
          apply ih
          rw [← h]
          simp only [joinNames]
          rw [List.getLast?_append_of_ne_nil _ (by simp),
            List.getLast?_cons,
            List.getLast?_eq_getLast_of_ne_nil hJoin]
          simp

theorem joinNames_ne_nil
    {ns : List Name}
    (h : ns ≠ []) :
    joinNames ns ≠ [] := by
  cases ns with
  | nil => exact absurd rfl h
  | cons n ns => cases ns <;> simp [joinNames, n.nonempty]

namespace Path

private theorem ofString_toString_names
    (p : Path) :
    (ofString p.toString).names = p.names := by
  have hTail :
      (if p.slash then ['/'] else []) = ([] : Str) ∨
        ((if p.slash then ['/'] else []) = ['/'] ∧
          p.names ≠ []) := by
    by_cases hSlash : p.slash
    · exact Or.inr ⟨by simp [hSlash], p.slash_names hSlash⟩
    · exact Or.inl (by simp [hSlash])
  have hSplit :=
    filterMap_splitSlash_joinNames p.names _ hTail
  cases hAbsolute : p.absolute with
  | true =>
      simpa [ofString, toString, hAbsolute, splitSlash]
        using hSplit
  | false =>
      simpa [ofString, toString, hAbsolute] using hSplit

private theorem ofString_toString_absolute
    (p : Path) :
    (ofString p.toString).absolute = p.absolute := by
  cases hAbsolute : p.absolute with
  | true => simp [ofString, toString, hAbsolute]
  | false =>
      cases hNames : p.names with
      | nil =>
          have hSlash : p.slash = false := by
            by_contra h
            exact p.slash_names (by simpa using h) hNames
          simp [ofString, toString, hAbsolute, hNames,
            hSlash, joinNames]
      | cons n ns =>
          have hHead := head?_joinNames_ne (n :: ns)
          have hNe :
              joinNames (n :: ns) ≠ [] :=
            joinNames_ne_nil (by simp)
          simp [ofString, toString, hAbsolute, hNames,
            List.head?_append_of_ne_nil _ hNe, hHead]

private theorem ofString_toString_slash
    (p : Path) :
    (ofString p.toString).slash = p.slash := by
  have hNames := ofString_toString_names p
  have hUnfold :
      (ofString p.toString).slash =
        decide ((ofString p.toString).names ≠ [] ∧
          p.toString.getLast? = some '/') :=
    rfl
  rw [hUnfold, hNames]
  cases hSlash : p.slash with
  | true =>
      simp [toString, hSlash, p.slash_names hSlash]
  | false =>
      by_cases hNil : p.names = []
      · simp [hNil]
      · have hLast := getLast?_joinNames_ne p.names
        simp [toString, hSlash, hLast,
          List.getLast?_append_of_ne_nil _
            (joinNames_ne_nil hNil)]

/- A path is recovered from its spelling. -/
theorem ofString_toString
    (p : Path) :
    ofString p.toString = p :=
  Path.ext
    (ofString_toString_absolute p)
    (ofString_toString_names p)
    (ofString_toString_slash p)

end Path

end Drex
