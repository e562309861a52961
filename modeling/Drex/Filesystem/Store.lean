import Drex.Filesystem.Path
import Mathlib.Data.List.Infix
import Mathlib.Logic.Function.Basic

/-
  A tree of directories and files without symbolic links.

  The tree is a partial map from locations to nodes.  Every
  operation says which locations it may change, and the
  lemmas below are the frame conditions later proofs use.

  Key definitions include:
    * `Store`
    * `Store.createDirectories`
    * `Store.openTrunc`
    * `Store.writeAt`
    * `Store.dropTail`
    * `Store.removeAll`

  Key theorems include:
    * `Store.createDirectories_file_iff`
    * `Store.node_openTrunc`
    * `Store.node_mapFile_of_ne`
    * `Store.node_removeAll_of_not_prefix`
-/

------------------------------------------------------------
-- Locations And Nodes
------------------------------------------------------------

namespace Drex

/- The file names from the root directory down. -/
abbrev Loc :=
  List Name

abbrev Bytes :=
  List UInt8

inductive Node
| directory
| file (data : Bytes)
deriving DecidableEq

structure Store where
  node : Loc → Option Node

/- One location lies in the tree of the other. -/
def Loc.Overlaps (l m : Loc) : Prop :=
  l <+: m ∨ m <+: l

instance (l m : Loc) : Decidable (Loc.Overlaps l m) := by
  unfold Loc.Overlaps
  infer_instance

/- Two locations above a third one overlap. -/
theorem Loc.overlaps_of_prefix
    {l m q : Loc}
    (hl : l <+: q)
    (hm : m <+: q) :
    l.Overlaps m :=
  List.prefix_or_prefix_of_prefix hl hm

/- What overlaps a location also overlaps what is above. -/
theorem Loc.Overlaps.of_prefix
    {l m q : Loc}
    (h : q.Overlaps m)
    (hl : l <+: q) :
    l.Overlaps m := by
  rcases h with h | h
  · exact Or.inl (hl.trans h)
  · exact Loc.overlaps_of_prefix hl h

end Drex

------------------------------------------------------------
-- Operations
------------------------------------------------------------

namespace Drex

/-
  Write at an offset of a file.  Bytes between the end of
  the file and the offset read as zero.
-/
def overwrite
    (content : Bytes)
    (offset : Nat)
    (data : Bytes) :
    Bytes :=
  (content ++
      List.replicate (offset - content.length) 0).take
        offset ++
    data ++ content.drop (offset + data.length)

@[simp] theorem overwrite_length
    (content data : Bytes) :
    overwrite content content.length data =
      content ++ data := by
  simp [overwrite]

namespace Store

/- A regular file with these bytes is at the location. -/
def HasFile
    (s : Store)
    (l : Loc)
    (data : Bytes) : Prop :=
  s.node l = some (.file data)

/- No node on the way to the location is a file. -/
def Passable (s : Store) (l : Loc) : Prop :=
  ∀ q, q <+: l → ∀ data, s.node q ≠ some (.file data)

/- The decision procedure of `Passable`. -/
def passable (s : Store) (l : Loc) : Bool :=
  l.inits.all fun q =>
    match s.node q with
    | some (.file _) => false
    | _ => true

theorem passable_iff
    (s : Store)
    (l : Loc) :
    s.passable l = true ↔ s.Passable l := by
  simp only [passable, List.all_eq_true, List.mem_inits,
    Passable]
  constructor
  · intro h q hq data hNode
    have hAll := h q hq
    simp [hNode] at hAll
  · intro h q hq
    cases hNode : s.node q with
    | none => rfl
    | some node =>
        cases node with
        | directory => rfl
        | file data => exact absurd hNode (h q hq data)

/- Make a directory of every free location on the way. -/
def createDirectories (s : Store) (l : Loc) : Store :=
  { node := fun q =>
      if q <+: l ∧ s.node q = none then
        some .directory
      else
        s.node q }

/- Open a file for writing, empty, in a directory. -/
def openTrunc (s : Store) (l : Loc) : Option Store :=
  if s.node l ≠ some .directory ∧
      s.node l.dropLast = some .directory then
    some { node := Function.update s.node l (some (.file [])) }
  else
    none

/- Change the bytes of the file at a location, if any. -/
def mapFile
    (s : Store)
    (l : Loc)
    (f : Bytes → Bytes) :
    Store :=
  match s.node l with
  | some (.file data) =>
      { node :=
          Function.update s.node l (some (.file (f data))) }
  | _ => s

/- Write to the file that was opened at a location. -/
def writeAt
    (s : Store)
    (l : Loc)
    (offset : Nat)
    (data : Bytes) :
    Store :=
  s.mapFile l (fun content => overwrite content offset data)

/- The last bytes of a file never reach the disk. -/
def dropTail
    (s : Store)
    (l : Loc)
    (lost : Nat) :
    Store :=
  s.mapFile l (fun content =>
    content.take (content.length - lost))

/- Remove a tree, less the nodes that resist. -/
def removeAll
    (s : Store)
    (l : Loc)
    (keep : Loc → Bool) :
    Store :=
  { node := fun q =>
      if l <+: q ∧ keep q = false then none else s.node q }

end Store

end Drex

------------------------------------------------------------
-- Frame Conditions
------------------------------------------------------------

namespace Drex

namespace Store

/- Creating directories neither makes nor changes a file. -/
@[simp] theorem createDirectories_file_iff
    (s : Store)
    (l q : Loc)
    (data : Bytes) :
    (s.createDirectories l).HasFile q data ↔
      s.HasFile q data := by
  unfold HasFile createDirectories
  by_cases h : q <+: l ∧ s.node q = none
  · simp [h]
  · simp [h]

theorem node_createDirectories_of_not_prefix
    (s : Store)
    {l q : Loc}
    (h : ¬ q <+: l) :
    (s.createDirectories l).node q = s.node q := by
  simp [createDirectories, h]

/- Every node on the way is a directory afterwards. -/
theorem node_createDirectories_of_prefix
    {s : Store}
    {l q : Loc}
    (hPassable : s.Passable l)
    (h : q <+: l) :
    (s.createDirectories l).node q = some .directory := by
  simp only [createDirectories, h, true_and]
  cases hNode : s.node q with
  | none => simp
  | some node =>
      cases node with
      | directory => simp
      | file data => exact absurd hNode (hPassable q h data)

/- Opening a file changes its own location only. -/
theorem node_openTrunc
    {s s' : Store}
    {l : Loc}
    (h : s.openTrunc l = some s') :
    s'.node = Function.update s.node l (some (.file [])) := by
  unfold openTrunc at h
  split at h
  · exact congrArg Store.node (Option.some.inj h).symm
  · cases h

theorem openTrunc_of_parent
    {s : Store}
    {l : Loc}
    (hFree : s.node l ≠ some .directory)
    (hParent : s.node l.dropLast = some .directory) :
    s.openTrunc l =
      some { node :=
        Function.update s.node l (some (.file [])) } := by
  simp [openTrunc, hFree, hParent]

theorem node_mapFile_of_ne
    (s : Store)
    {l q : Loc}
    (f : Bytes → Bytes)
    (h : q ≠ l) :
    (s.mapFile l f).node q = s.node q := by
  unfold mapFile
  split <;> simp [h]

/- Changing bytes leaves the kind of every node alone. -/
theorem node_mapFile_of_file
    {s : Store}
    {l : Loc}
    {data : Bytes}
    (f : Bytes → Bytes)
    (h : s.HasFile l data) :
    (s.mapFile l f).node =
      Function.update s.node l (some (.file (f data))) := by
  unfold HasFile at h
  simp [mapFile, h]

/- Changing bytes makes no file where there was none. -/
theorem exists_hasFile_mapFile
    {s : Store}
    {l q : Loc}
    {f : Bytes → Bytes}
    {data : Bytes}
    (h : (s.mapFile l f).HasFile q data) :
    ∃ data', s.HasFile q data' := by
  by_cases hEq : q = l
  · subst hEq
    cases hNode : s.node q with
    | none => simp [HasFile, mapFile, hNode] at h
    | some node =>
        cases node with
        | directory => simp [HasFile, mapFile, hNode] at h
        | file content => exact ⟨content, hNode⟩
  · unfold HasFile at h
    rw [node_mapFile_of_ne s f hEq] at h
    exact ⟨data, h⟩

theorem node_removeAll_of_not_prefix
    (s : Store)
    {l q : Loc}
    (keep : Loc → Bool)
    (h : ¬ l <+: q) :
    (s.removeAll l keep).node q = s.node q := by
  simp [removeAll, h]

/- Nothing is left of a tree whose removal succeeds. -/
theorem node_removeAll_of_prefix
    (s : Store)
    {l q : Loc}
    (h : l <+: q) :
    (s.removeAll l (fun _ => false)).node q = none := by
  simp [removeAll, h]

/- Removal makes no file. -/
theorem hasFile_of_removeAll
    {s : Store}
    {l q : Loc}
    {keep : Loc → Bool}
    {data : Bytes}
    (h : (s.removeAll l keep).HasFile q data) :
    s.HasFile q data := by
  unfold HasFile removeAll at h
  by_cases hGone : l <+: q ∧ keep q = false
  · simp [hGone] at h
  · simpa [hGone, HasFile] using h

end Store

end Drex
