import Drex.Filesystem.Normal
import Drex.Filesystem.Store
import Drex.Proto.Messages

/-
  The paths of a submission under the workspace root.

  Key definitions include:
    * `WorkspaceRoot`
    * `isSubPath`
    * `lexicallyNormalized`
    * `relativeSubdir`
    * `subdirPath`
    * `Contained`

  Key theorems include:
    * `isSubPath_root_iff`
    * `subdirPath_relativeSubdir`
-/

------------------------------------------------------------
-- The Workspace Root
------------------------------------------------------------

namespace Drex

/-
  `kProjectRoot`, the directory two levels above the source
  file of the server, without links and in normal form.
-/
structure WorkspaceRoot where
  project : List Name
  ordinary : ∀ n ∈ project, n.Ordinary

/- The file name `workspace`. -/
def workspaceName : Name :=
  ⟨"workspace".toList, by decide, by decide⟩

namespace WorkspaceRoot

/- `weakly_canonical(kWorkspaceRoot)`. -/
def path (root : WorkspaceRoot) : Path :=
  { absolute := true
    names := root.project ++ [workspaceName]
    slash := false
    slash_names := by simp }

@[simp] theorem path_absolute
    (root : WorkspaceRoot) :
    root.path.absolute = true :=
  rfl

@[simp] theorem path_slash
    (root : WorkspaceRoot) :
    root.path.slash = false :=
  rfl

theorem path_names_ne_nil
    (root : WorkspaceRoot) :
    root.path.names ≠ [] := by
  simp [path]

theorem path_ordinary
    (root : WorkspaceRoot) :
    ∀ n ∈ root.path.names, n.Ordinary := by
  intro n hn
  rcases List.mem_append.mp hn with hn | hn
  · exact root.ordinary n hn
  · rw [List.mem_singleton.mp hn]
    decide

end WorkspaceRoot

end Drex

------------------------------------------------------------
-- Path Helpers Of The Server
------------------------------------------------------------

namespace Drex

/- `IsSubPath`: the elements of the base come first. -/
def isSubPath (base candidate : Path) : Bool :=
  base.elements.isPrefixOf candidate.elements

/- `LexicallyNormalized`. -/
def lexicallyNormalized (base suffix : Path) : Path :=
  (base / suffix).lexicallyNormal

/- `DefaultIfEmpty`. -/
def defaultIfEmpty (value fallback : Str) : Str :=
  if value = [] then fallback else value

/- The file name `.drex_utilization`. -/
def utilizationName : Name :=
  ⟨".drex_utilization".toList, by decide, by decide⟩

/- `RuntimeUtilizationPath`. -/
def runtimeUtilizationPath (workspaceDir : Path) : Path :=
  workspaceDir / Path.ofName utilizationName

/-
  `fs::relative(path, workspace_root)` as a string, where an
  existing path is canonical and a missing one stays as it
  is.  This holds of paths without U+0000, at which the
  system would cut an existing path off.
-/
def relativeSubdir
    (root : WorkspaceRoot)
    (isThere : Bool)
    (p : Path) :
    Str :=
  let q := if isThere then p.canonical else p
  (q.lexicallyRelative root.path).toString

/- `(workspace_root / relative).lexically_normal()`. -/
def subdirPath
    (root : WorkspaceRoot)
    (subdir : Str) :
    Path :=
  lexicallyNormalized root.path (Path.ofString subdir)

/- The place of a subdirectory of the workspace root. -/
def subdirLoc
    (root : WorkspaceRoot)
    (subdir : Str) :
    Loc :=
  (subdirPath root subdir).loc

end Drex

------------------------------------------------------------
-- Containment
------------------------------------------------------------

namespace Drex

/-
  The path lexically lies under the workspace root and has
  no `..` in it.
-/
def Contained (root : WorkspaceRoot) (p : Path) : Prop :=
  isSubPath root.path p = true ∧
    PathElement.name .dotdot ∉ p.elements

instance (root : WorkspaceRoot) (p : Path) :
    Decidable (Contained root p) := by
  unfold Contained
  infer_instance

theorem isSubPath_iff
    (base candidate : Path) :
    isSubPath base candidate = true ↔
      base.elements <+: candidate.elements := by
  simp [isSubPath]

/- The elements of two names compare as the names do. -/
theorem map_name_prefix_iff
    (as bs : List Name)
    (tail : List PathElement)
    (hTail : ∀ n, PathElement.name n ∉ tail) :
    as.map PathElement.name <+:
        bs.map PathElement.name ++ tail ↔
      as <+: bs := by
  induction as generalizing bs with
  | nil => simp
  | cons a as ih =>
      cases bs with
      | nil =>
          constructor
          · intro h
            have hHead : PathElement.name a ∈ tail :=
              h.subset (by simp)
            exact absurd hHead (hTail a)
          · intro h
            exact absurd (List.prefix_nil.mp h) (by simp)
      | cons b bs => simp [List.cons_prefix_cons, ih]

/- A base without a last separator compares by its names. -/
theorem isSubPath_of_slash_false
    {base candidate : Path}
    (hBase : base.absolute = true)
    (hSlash : base.slash = false) :
    isSubPath base candidate = true ↔
      candidate.absolute = true ∧
        base.names <+: candidate.names := by
  rw [isSubPath_iff]
  unfold Path.elements
  cases hCandidate : candidate.absolute with
  | true =>
      have hTail :
          ∀ n, PathElement.name n ∉
            (if candidate.slash then
              [PathElement.empty] else []) := by
        intro n
        cases candidate.slash <;> simp
      simpa [hBase, hSlash, List.cons_prefix_cons] using
        map_name_prefix_iff base.names candidate.names _ hTail
  | false =>
      constructor
      · intro h
        have hMem := h.subset
          (show PathElement.rootDirectory ∈ _ by
            simp [hBase])
        cases hs : candidate.slash <;> simp [hs] at hMem
      · rintro ⟨h, _⟩
        exact absurd h (by simp)

theorem isSubPath_root_iff
    (root : WorkspaceRoot)
    (p : Path) :
    isSubPath root.path p = true ↔
      p.absolute = true ∧ root.path.names <+: p.names :=
  isSubPath_of_slash_false rfl rfl

/- Any base's names come first in a path below it. -/
theorem names_prefix_of_isSubPath
    {base candidate : Path}
    (hBase : base.absolute = true)
    (h : isSubPath base candidate = true) :
    candidate.absolute = true ∧
      base.names <+: candidate.names := by
  rw [isSubPath_iff] at h
  let trimmed : Path :=
    { base with slash := false, slash_names := by simp }
  have hTrim : trimmed.elements <+: candidate.elements := by
    refine List.IsPrefix.trans ?_ h
    simp [trimmed, Path.elements]
  have hAbsolute : trimmed.absolute = true := hBase
  exact
    (isSubPath_of_slash_false hAbsolute rfl).mp
      ((isSubPath_iff _ _).mpr hTrim)

theorem dotdot_notMem_elements
    {p : Path}
    (h : ∀ n ∈ p.names, n.Ordinary) :
    PathElement.name .dotdot ∉ p.elements := by
  intro hMem
  have hName : Name.dotdot ∈ p.names := by
    unfold Path.elements at hMem
    cases hAbsolute : p.absolute <;>
      cases hSlash : p.slash <;>
        simpa [hAbsolute, hSlash] using hMem
  exact (h _ hName).2 rfl

/- A path of ordinary names below the root is contained. -/
theorem contained_of_names
    {root : WorkspaceRoot}
    {p : Path}
    (hAbsolute : p.absolute = true)
    (hOrdinary : ∀ n ∈ p.names, n.Ordinary)
    (hPrefix : root.path.names <+: p.names) :
    Contained root p :=
  ⟨(isSubPath_root_iff root p).mpr ⟨hAbsolute, hPrefix⟩,
    dotdot_notMem_elements hOrdinary⟩

/- A normalized path is absolute, of ordinary names. -/
theorem lexicallyNormalized_ordinary
    {base : Path}
    (suffix : Path)
    (hBase : base.absolute = true) :
    (lexicallyNormalized base suffix).absolute = true ∧
      ∀ n ∈ (lexicallyNormalized base suffix).names,
        n.Ordinary :=
  Path.lexicallyNormal_ordinary
    (Path.append_absolute suffix hBase)

/- A subdirectory path is absolute, of ordinary names. -/
theorem subdirPath_ordinary
    (root : WorkspaceRoot)
    (subdir : Str) :
    (subdirPath root subdir).absolute = true ∧
      ∀ n ∈ (subdirPath root subdir).names, n.Ordinary :=
  lexicallyNormalized_ordinary _ rfl

theorem subdirLoc_eq
    (root : WorkspaceRoot)
    (subdir : Str) :
    subdirLoc root subdir = (subdirPath root subdir).names :=
  Path.loc_of_ordinary (subdirPath_ordinary root subdir).2

end Drex

------------------------------------------------------------
-- Relative Names And Back
------------------------------------------------------------

namespace Drex

/- An absolute path of ordinary names below the root. -/
structure Path.Below (p : Path) (root : WorkspaceRoot) :
    Prop where
  absolute : p.absolute = true
  ordinary : ∀ n ∈ p.names, n.Ordinary
  names : root.path.names <+: p.names

theorem Path.Below.contained
    {root : WorkspaceRoot}
    {p : Path}
    (h : p.Below root) :
    Contained root p :=
  contained_of_names h.absolute h.ordinary h.names

theorem below_of_isSubPath
    {root : WorkspaceRoot}
    {base suffix : Path}
    (hBase : base.absolute = true)
    (h :
      isSubPath root.path
        (lexicallyNormalized base suffix) = true) :
    (lexicallyNormalized base suffix).Below root := by
  rcases lexicallyNormalized_ordinary suffix hBase with
    ⟨hAbsolute, hOrdinary⟩
  exact ⟨hAbsolute, hOrdinary,
    ((isSubPath_root_iff root _).mp h).2⟩

/- The canonical form only drops the last separator. -/
theorem canonical_of_ordinary
    {p : Path}
    (hAbsolute : p.absolute = true)
    (hOrdinary : ∀ n ∈ p.names, n.Ordinary) :
    p.canonical =
      ⟨true, p.names, false, by simp⟩ := by
  have hNormal :=
    Path.lexicallyNormal_of_ordinary hAbsolute hOrdinary
  apply Path.ext <;> simp [Path.canonical, hNormal, hAbsolute]

/-
  The relative name of a path below the root spells the rest
  of its names, or `.` for the root itself.
-/
theorem ofString_relativeSubdir
    {root : WorkspaceRoot}
    {p : Path}
    (isThere : Bool)
    (h : p.Below root) :
    ∃ tail slash,
      root.path.names ++ tail = p.names ∧
        Path.ofString (relativeSubdir root isThere p) =
          if hNil : tail = [] then
            Path.ofName .dot
          else
            ⟨false, tail, slash, fun _ => hNil⟩ := by
  rcases h.names with ⟨tail, hTail⟩
  have hForm :
      ∃ slash,
        (if isThere then p.canonical else p) =
          ⟨true, p.names, slash,
            fun _ => by
              simp [← hTail, root.path_names_ne_nil]⟩ := by
    cases isThere with
    | true =>
        exact ⟨false,
          canonical_of_ordinary h.absolute h.ordinary⟩
    | false =>
        refine ⟨p.slash, ?_⟩
        apply Path.ext <;> simp [h.absolute]
  rcases hForm with ⟨slash, hForm⟩
  refine ⟨tail, slash, hTail, ?_⟩
  unfold relativeSubdir
  simp only [Path.ofString_toString]
  rw [hForm]
  exact
    Path.lexicallyRelative_of_prefix
      (p := ⟨true, p.names, slash, _⟩) rfl rfl hTail.symm

/- The tail of a path below the root is ordinary. -/
theorem Path.Below.tail_ordinary
    {root : WorkspaceRoot}
    {p : Path}
    {tail : List Name}
    (h : p.Below root)
    (hTail : root.path.names ++ tail = p.names) :
    ∀ n ∈ tail, n.Ordinary := by
  intro n hn
  apply h.ordinary
  rw [← hTail]
  exact List.mem_append_right _ hn

/-
  The relative name of a path below the root names the same
  place again when it is put under the root.
-/
theorem subdirPath_relativeSubdir
    {root : WorkspaceRoot}
    {p : Path}
    (isThere : Bool)
    (h : p.Below root) :
    (subdirPath root
          (relativeSubdir root isThere p)).names = p.names ∧
      relativeSubdir root isThere p ≠ [] := by
  rcases ofString_relativeSubdir isThere h with
    ⟨tail, slash, hTail, hSpelled⟩
  have hNonempty : relativeSubdir root isThere p ≠ [] := by
    intro hEmpty
    rw [hEmpty] at hSpelled
    have hNames := congrArg Path.names hSpelled
    by_cases hNil : tail = []
    · rw [dif_pos hNil] at hNames
      cases hNames
    · rw [dif_neg hNil] at hNames
      exact hNil hNames.symm
  refine ⟨?_, hNonempty⟩
  unfold subdirPath
  rw [hSpelled, lexicallyNormalized]
  by_cases hNil : tail = []
  · rw [dif_pos hNil,
      Path.append_dot_normal rfl root.path_ordinary
        root.path_names_ne_nil]
    simpa [hNil] using hTail
  · rw [dif_neg hNil,
      Path.append_relative_normal rfl root.path_ordinary
        (h.tail_ordinary hTail) hNil]
    exact hTail

end Drex
