import Drex.Client.Upload
import Drex.Filesystem.Links
import Drex.Filesystem.Normal
import Mathlib.Data.List.Forall2

/-
  The files the client collects for an upload.

  The traversal goes into directories that are reached
  through links, while the relative path of a file is taken
  after the links in it were followed.

  Key definitions include:
    * `LinkTree.walk`
    * `LinkTree.collectEntries`
    * `collectDirectoryFiles`
    * `OwnPaths`

  Key theorems include:
    * `walk_walked`
    * `collectEntries_spec`
    * `joined_iff`
    * `collectDirectoryFiles_mono`
    * `ownPaths_iff_not_throughLink`
-/

------------------------------------------------------------
-- The Traversal
------------------------------------------------------------

namespace Drex

/- The path that spells a location. -/
def pathOf (l : Loc) : Path :=
  ⟨true, l, false, by simp⟩

/-
  An entry of the traversal: its names below the base, and
  what its directory says it is.
-/
structure DirEntry where
  names : Loc
  type : LinkNode
deriving DecidableEq

namespace LinkTree

/- Whether the traversal goes on below an entry. -/
def shouldRecurse (t : LinkTree) (p : Path) : LinkNode → Bool
| .directory => true
| .symlink _ =>
    match t.stat [] p with
    | .ok l => t.node l = some .directory
    | .error _ => false
| .regular => false
| .other => false

/- What is met below an entry. -/
def entriesBelow
    (t : LinkTree)
    (descend : Loc → Option (List DirEntry))
    (base names : Loc)
    (type : LinkNode) :
    Option (List DirEntry) :=
  if t.shouldRecurse (pathOf (base ++ names)) type then
    descend names
  else
    some []

/-
  The entries of an open directory, each followed by what
  is below it.
-/
def entriesOf
    (t : LinkTree)
    (descend : Loc → Option (List DirEntry))
    (base place names : Loc) :
    List Name → Option (List DirEntry)
| [] => some []
| n :: rest => do
    let type ← t.node (place ++ [n])
    let below ←
      t.entriesBelow descend base (names ++ [n]) type
    let others ← t.entriesOf descend base place names rest
    return ⟨names ++ [n], type⟩ :: below ++ others

/-
  `recursive_directory_iterator` with
  `follow_directory_symlink`, from the directory of these
  names on.  It throws where a directory cannot be opened,
  and does not end within the fuel where links form a cycle.
-/
def walk
    (t : LinkTree)
    (base : Loc) :
    Nat → Loc → Option (List DirEntry)
| 0, _ => none
| fuel + 1, names =>
    match t.stat [] (pathOf (base ++ names)) with
    | .error _ => none
    | .ok place =>
        t.entriesOf (t.walk base fuel) base place names
          (t.listing place)

end LinkTree

end Drex

------------------------------------------------------------
-- Collecting
------------------------------------------------------------

namespace Drex

namespace LinkTree

/- `entry.is_regular_file()`, or none where it throws. -/
def isRegularFile
    (t : LinkTree)
    (p : Path) :
    LinkNode → Option Bool
| .regular => some true
| .directory => some false
| .other => some false
| .symlink _ =>
    match t.stat [] p with
    | .ok l => some (t.node l = some .regular)
    | .error .missing => some false
    | .error .tooManyLinks => none

/- `weakly_canonical`, for a path that exists. -/
def weaklyCanonical (t : LinkTree) (p : Path) : Option Path :=
  match t.stat [] p with
  | .ok l => some (pathOf l)
  | .error _ => none

/- `relative(p, base, ec)`, or none where `ec` is set. -/
def relative
    (t : LinkTree)
    (p base : Path) :
    Option Path := do
  let p ← t.weaklyCanonical p
  let base ← t.weaklyCanonical base
  return p.lexicallyRelative base

/- The loop of `CollectDirectoryFiles` over the entries. -/
def collectEntries
    (t : LinkTree)
    (base : Loc) :
    List DirEntry → Option (List UploadFileSpec)
| [] => some []
| entry :: entries => do
    let p := pathOf (base ++ entry.names)
    let regular ← t.isRegularFile p entry.type
    if regular then
      match t.relative p (pathOf base) with
      | none => t.collectEntries base entries
      | some rel =>
          let files ← t.collectEntries base entries
          return ⟨p.toString, rel.toString⟩ :: files
    else
      t.collectEntries base entries

end LinkTree

/-
  `CollectDirectoryFiles`, or none where it throws or does
  not return.
-/
def collectDirectoryFiles
    (t : LinkTree)
    (cwd : Loc)
    (fuel : Nat)
    (rootDir : Str) :
    Option (Bool × List UploadFileSpec) :=
  match t.stat cwd (Path.ofString rootDir) with
  | .error _ => some (false, [])
  | .ok base =>
      if t.node base ≠ some .directory then
        some (false, [])
      else do
        let entries ← t.walk base fuel []
        let files ← t.collectEntries base entries
        return (decide (files ≠ []), files)

/- The regular files the traversal meets, in its order. -/
def regularMet
    (t : LinkTree)
    (base : Loc)
    (entries : List DirEntry) :
    List Loc :=
  (entries.filter fun entry =>
    t.isRegularFile (pathOf (base ++ entry.names))
      entry.type = some true).map DirEntry.names

/-
  The collected files are the tree's own: one for each file
  that was met, each under the names it has in the tree.
-/
structure OwnPaths
    (base : Loc)
    (met : List Loc)
    (files : List UploadFileSpec) : Prop where
  listed :
    files.map UploadFileSpec.localPath =
      met.map fun names => (pathOf (base ++ names)).toString
  noClimb : ∀ file ∈ files,
    Name.dotdot ∉ (Path.ofString file.relativePath).names
  joined : ∀ file ∈ files,
    (pathOf base /
        Path.ofString file.relativePath).toString =
      file.localPath
  distinct :
    (files.map UploadFileSpec.relativePath).Nodup

end Drex

------------------------------------------------------------
-- What The Traversal Meets
------------------------------------------------------------

namespace Drex

theorem stat_pathOf (t : LinkTree) (cwd l : Loc) :
    t.stat cwd (pathOf l) =
      t.resolve LinkTree.maxLinks [] l := by
  unfold LinkTree.stat
  rw [if_neg (by simp [pathOf, Path.empty])]
  simp [pathOf]

/-
  An entry was found in a directory the traversal opened,
  where it is what the entry says.
-/
def FoundBelow
    (t : LinkTree)
    (base : Loc)
    (entry : DirEntry) : Prop :=
  ∃ names n place,
    entry.names = names ++ [n] ∧
      t.stat [] (pathOf (base ++ names)) = .ok place ∧
        t.node (place ++ [n]) = some entry.type

/- One name of an open directory, as the loop takes it. -/
theorem entriesOf_cons
    {t : LinkTree}
    {descend : Loc → Option (List DirEntry)}
    {base place names : Loc}
    {n : Name}
    {rest : List Name}
    {entries : List DirEntry}
    (h :
      t.entriesOf descend base place names (n :: rest) =
        some entries) :
    ∃ type below others,
      t.node (place ++ [n]) = some type ∧
        (below = [] ∨
          descend (names ++ [n]) = some below) ∧
          t.entriesOf descend base place names rest =
              some others ∧
            entries =
              ⟨names ++ [n], type⟩ :: below ++ others := by
  rw [LinkTree.entriesOf] at h
  simp only [Option.bind_eq_bind,
    Option.bind_eq_some_iff] at h
  rcases h with
    ⟨type, hNode, below, hBelow, others, hOthers, hEntries⟩
  refine
    ⟨type, below, others, hNode, ?_, hOthers,
      (Option.some.inj hEntries).symm⟩
  unfold LinkTree.entriesBelow at hBelow
  split at hBelow
  · exact Or.inr hBelow
  · exact Or.inl (Option.some.inj hBelow).symm

/-
  What a traversal from these names on meets: entries below
  them, each where the tree has it, and none twice.
-/
structure Walked
    (t : LinkTree)
    (base names : Loc)
    (entries : List DirEntry) : Prop where
  found : ∀ entry ∈ entries, FoundBelow t base entry
  ordinary : ∀ entry ∈ entries,
    (∀ n ∈ names, n.Ordinary) →
      ∀ n ∈ entry.names, n.Ordinary
  below : ∀ entry ∈ entries, ∃ n tail,
    entry.names = names ++ n :: tail
  nodup : (entries.map DirEntry.names).Nodup

theorem Walked.nil
    (t : LinkTree)
    (base names : Loc) :
    Walked t base names [] :=
  ⟨by simp, by simp, by simp, by simp⟩

/- Below the directory, the entries start with these names. -/
def StartsIn
    (names : Loc)
    (listing : List Name)
    (entries : List DirEntry) : Prop :=
  ∀ entry ∈ entries, ∃ n ∈ listing, ∃ tail,
    entry.names = names ++ n :: tail

theorem StartsIn.append
    {names : Loc}
    {listing listing' : List Name}
    {entries entries' : List DirEntry}
    (h : StartsIn names listing entries)
    (h' : StartsIn names listing' entries') :
    StartsIn names (listing ++ listing')
      (entries ++ entries') := by
  intro entry hMem
  rcases List.mem_append.mp hMem with hMem | hMem
  · rcases h entry hMem with ⟨n, hn, hTail⟩
    exact ⟨n, List.mem_append_left _ hn, hTail⟩
  · rcases h' entry hMem with ⟨n, hn, hTail⟩
    exact ⟨n, List.mem_append_right _ hn, hTail⟩

/- One entry and what is below it start with its name. -/
theorem Walked.startsIn
    {t : LinkTree}
    {base names : Loc}
    {n : Name}
    {type : LinkNode}
    {below : List DirEntry}
    (h : Walked t base (names ++ [n]) below) :
    StartsIn names [n] (⟨names ++ [n], type⟩ :: below) := by
  intro entry hMem
  refine ⟨n, List.mem_singleton_self n, ?_⟩
  rcases List.mem_cons.mp hMem with rfl | hMem
  · exact ⟨[], rfl⟩
  · rcases h.below entry hMem with ⟨m, tail, hNames⟩
    exact ⟨m :: tail, by rw [hNames]; simp⟩

/- An entry is met before what is below it. -/
theorem Walked.entry
    {t : LinkTree}
    {base place names : Loc}
    {n : Name}
    {type : LinkNode}
    {below : List DirEntry}
    (hPlace : t.stat [] (pathOf (base ++ names)) = .ok place)
    (hNode : t.node (place ++ [n]) = some type)
    (hBelow : Walked t base (names ++ [n]) below) :
    Walked t base names (⟨names ++ [n], type⟩ :: below) where
  found := by
    intro entry hMem
    rcases List.mem_cons.mp hMem with rfl | hMem
    · exact ⟨names, n, place, rfl, hPlace, hNode⟩
    · exact hBelow.found entry hMem
  ordinary := by
    intro entry hMem hNames
    have hInner : ∀ m ∈ names ++ [n], m.Ordinary := by
      intro m hm
      rcases List.mem_append.mp hm with hm | hm
      · exact hNames m hm
      · rw [List.mem_singleton.mp hm]
        exact LinkTree.node_ordinary hNode n (by simp)
    rcases List.mem_cons.mp hMem with rfl | hMem
    · exact hInner
    · exact hBelow.ordinary entry hMem hInner
  below := by
    intro entry hMem
    rcases hBelow.startsIn entry hMem with
      ⟨m, _, tail, hNames⟩
    exact ⟨m, tail, hNames⟩
  nodup := by
    rw [List.map_cons, List.nodup_cons]
    refine ⟨?_, hBelow.nodup⟩
    rw [List.mem_map]
    rintro ⟨entry, hMem, hNames⟩
    rcases hBelow.below entry hMem with ⟨m, tail, hEntry⟩
    rw [hEntry] at hNames
    simp at hNames

/- Entries under different names are not the same. -/
theorem Walked.append
    {t : LinkTree}
    {base names : Loc}
    {listing listing' : List Name}
    {entries entries' : List DirEntry}
    (h : Walked t base names entries)
    (h' : Walked t base names entries')
    (hIn : StartsIn names listing entries)
    (hIn' : StartsIn names listing' entries')
    (hApart : listing.Disjoint listing') :
    Walked t base names (entries ++ entries') where
  found := by
    intro entry hMem
    rcases List.mem_append.mp hMem with hMem | hMem
    · exact h.found entry hMem
    · exact h'.found entry hMem
  ordinary := by
    intro entry hMem
    rcases List.mem_append.mp hMem with hMem | hMem
    · exact h.ordinary entry hMem
    · exact h'.ordinary entry hMem
  below := by
    intro entry hMem
    rcases List.mem_append.mp hMem with hMem | hMem
    · exact h.below entry hMem
    · exact h'.below entry hMem
  nodup := by
    rw [List.map_append]
    refine List.Nodup.append h.nodup h'.nodup ?_
    intro l hFirst hSecond
    rcases List.mem_map.mp hFirst with ⟨entry, hMem, rfl⟩
    rcases List.mem_map.mp hSecond with
      ⟨entry', hMem', hSame⟩
    rcases hIn entry hMem with ⟨n, hn, tail, hNames⟩
    rcases hIn' entry' hMem' with ⟨m, hm, tail', hNames'⟩
    rw [hNames, hNames'] at hSame
    have hCons := List.append_cancel_left hSame
    rw [(List.cons.inj hCons).1] at hm
    exact hApart hn hm

/- The entries of a directory are walked one by one. -/
theorem entriesOf_walked
    {t : LinkTree}
    {descend : Loc → Option (List DirEntry)}
    {base place names : Loc}
    (hDescend : ∀ names entries,
      descend names = some entries →
        Walked t base names entries)
    (hPlace : t.stat [] (pathOf (base ++ names)) = .ok place)
    {listing : List Name}
    (hListing : listing.Nodup)
    {entries : List DirEntry}
    (h :
      t.entriesOf descend base place names listing =
        some entries) :
    Walked t base names entries ∧
      StartsIn names listing entries := by
  induction listing generalizing entries with
  | nil =>
      rw [← Option.some.inj h]
      exact ⟨.nil t base names, by simp [StartsIn]⟩
  | cons n rest ih =>
      rw [List.nodup_cons] at hListing
      rcases entriesOf_cons h with
        ⟨type, below, others, hNode, hBelow, hOthers, rfl⟩
      rcases ih hListing.2 hOthers with ⟨hRest, hIn⟩
      have hInner :
          Walked t base (names ++ [n]) below := by
        rcases hBelow with rfl | hBelow
        · exact .nil t base _
        · exact hDescend _ _ hBelow
      have hFirst := Walked.entry hPlace hNode hInner
      have hStarts :
          StartsIn names [n]
            (⟨names ++ [n], type⟩ :: below) :=
        hInner.startsIn
      constructor
      · apply hFirst.append hRest hStarts hIn
        rw [List.singleton_disjoint]
        exact hListing.1
      · exact hStarts.append hIn

/- What the whole traversal meets. -/
theorem walk_walked
    {t : LinkTree}
    {base : Loc}
    (fuel : Nat)
    {names : Loc}
    {entries : List DirEntry}
    (h : t.walk base fuel names = some entries) :
    Walked t base names entries := by
  induction fuel generalizing names entries with
  | zero => cases h
  | succ fuel ih =>
      rw [LinkTree.walk] at h
      split at h
      · cases h
      · rename_i place hPlace
        exact
          (entriesOf_walked (fun _ _ => ih) hPlace
            (t.nodup_listing place) h).1

end Drex

------------------------------------------------------------
-- One Collected File
------------------------------------------------------------

namespace Drex

/- A regular file that was met exists. -/
theorem stat_of_isRegularFile
    {t : LinkTree}
    {base : Loc}
    {entry : DirEntry}
    (hFound : FoundBelow t base entry)
    (hRegular :
      t.isRegularFile (pathOf (base ++ entry.names))
        entry.type = some true) :
    ∃ l, t.stat [] (pathOf (base ++ entry.names)) = .ok l ∧
      t.node l = some .regular := by
  cases hType : entry.type with
  | directory =>
      rw [hType] at hRegular
      cases hRegular
  | other =>
      rw [hType] at hRegular
      cases hRegular
  | symlink target =>
      rw [hType, LinkTree.isRegularFile] at hRegular
      cases hStat :
          t.stat [] (pathOf (base ++ entry.names)) with
      | ok l =>
          rw [hStat] at hRegular
          exact ⟨l, rfl, by simpa using hRegular⟩
      | error e =>
          rw [hStat] at hRegular
          cases e with
          | missing => cases hRegular
          | tooManyLinks => cases hRegular
  | regular =>
      rcases hFound with
        ⟨names, n, place, hNames, hPlace, hNode⟩
      rw [hType] at hNode
      rw [stat_pathOf] at hPlace
      rcases LinkTree.resolve_append hPlace with
        ⟨left, hLeft⟩
      have hHolds : t.Holds (place ++ [n]) :=
        ⟨.regular, hNode, by simp⟩
      refine ⟨place ++ [n], ?_, hNode⟩
      rw [stat_pathOf, hNames, ← List.append_assoc, hLeft]
      exact LinkTree.resolve_direct left hHolds

/- A file with what was found of it. -/
structure CollectedFrom
    (t : LinkTree)
    (base : Loc)
    (names : Loc)
    (file : UploadFileSpec) : Prop where
  localPath :
    file.localPath = (pathOf (base ++ names)).toString
  relativePath : ∃ l,
    t.resolve LinkTree.maxLinks [] (base ++ names) = .ok l ∧
      t.node l = some .regular ∧
        file.relativePath =
          ((pathOf l).lexicallyRelative
            (pathOf base)).toString

/- The loop collects each regular file that was met. -/
theorem collectEntries_spec
    {t : LinkTree}
    {base : Loc}
    (hBase : t.Holds base)
    {entries : List DirEntry}
    (hFound : ∀ entry ∈ entries, FoundBelow t base entry)
    {files : List UploadFileSpec}
    (h : t.collectEntries base entries = some files) :
    List.Forall₂ (CollectedFrom t base)
      (regularMet t base entries) files := by
  induction entries generalizing files with
  | nil =>
      rw [← Option.some.inj h]
      exact .nil
  | cons entry entries ih =>
      rw [List.forall_mem_cons] at hFound
      rw [LinkTree.collectEntries] at h
      cases hRegular :
          t.isRegularFile (pathOf (base ++ entry.names))
            entry.type with
      | none =>
          rw [hRegular] at h
          cases h
      | some regular =>
          rw [hRegular] at h
          unfold regularMet at ih ⊢
          rw [List.filter_cons, hRegular]
          cases regular with
          | false => exact ih hFound.2 h
          | true =>
              rcases stat_of_isRegularFile hFound.1
                  hRegular with
                ⟨l, hStat, hNode⟩
              have hBaseStat :
                  t.stat [] (pathOf base) = .ok base := by
                rw [stat_pathOf]
                exact LinkTree.resolve_direct _ hBase
              have hRelative :
                  t.relative (pathOf (base ++ entry.names))
                      (pathOf base) =
                    some
                      ((pathOf l).lexicallyRelative
                        (pathOf base)) := by
                simp [LinkTree.relative,
                  LinkTree.weaklyCanonical, hStat, hBaseStat]
              simp only [Option.bind_eq_bind,
                Option.bind_some, if_true, hRelative,
                Option.bind_eq_some_iff] at h
              rcases h with ⟨rest, hRest, hFiles⟩
              rw [← Option.some.inj hFiles]
              rw [stat_pathOf] at hStat
              exact
                .cons
                  ⟨rfl, l, hStat, hNode, rfl⟩
                  (ih hFound.2 hRest)

/- Two paths with one spelling are one path. -/
theorem Path.toString_injective :
    Function.Injective Path.toString :=
  Function.LeftInverse.injective Path.ofString_toString

/- The names of an entry, as a relative path. -/
def relativeOf (names : Loc) : Path :=
  ⟨false, names, false, by simp⟩

/- A file below the base is named by the rest of its place. -/
theorem lexicallyRelative_below
    {t : LinkTree}
    {base tail : Loc}
    (hBase : t.node base = some .directory)
    (hNode : t.node (base ++ tail) = some .regular) :
    (pathOf (base ++ tail)).lexicallyRelative (pathOf base) =
        relativeOf tail ∧
      tail ≠ [] := by
  have hTail : tail ≠ [] := by
    rintro rfl
    rw [List.append_nil, hBase] at hNode
    cases hNode
  have hRelative :=
    @Path.lexicallyRelative_of_prefix
      (pathOf (base ++ tail)) (pathOf base) tail rfl rfl rfl
  rw [dif_neg hTail] at hRelative
  exact ⟨hRelative, hTail⟩

/-
  The relative path of a file, joined to the base, spells
  the file exactly when no name of it is that of a link.
-/
theorem joined_iff
    {t : LinkTree}
    {base names : Loc}
    {file : UploadFileSpec}
    (hBase : t.node base = some .directory)
    (hNames : ∀ n ∈ names, n.Ordinary)
    (h : CollectedFrom t base names file) :
    (pathOf base /
        Path.ofString file.relativePath).toString =
          file.localPath ↔
      ¬t.ThroughLink base names := by
  rcases h.relativePath with ⟨l, hResolve, hNode, hRelative⟩
  rw [hRelative, h.localPath, Path.ofString_toString,
    Path.toString_injective.eq_iff,
    ← LinkTree.resolve_eq_self_iff (.of_directory hBase)
      hNames hResolve]
  by_cases hPrefix : base <+: l
  · rcases hPrefix with ⟨tail, rfl⟩
    rcases lexicallyRelative_below hBase hNode with
      ⟨hTail, hNe⟩
    rw [hTail, Path.append_of_names rfl hNe]
    constructor
    · intro hEq
      exact congrArg Path.names hEq
    · intro hEq
      apply Path.ext
      · rfl
      · exact hEq
      · rfl
  · rcases
      @Path.lexicallyRelative_of_not_prefix
        (pathOf l) (pathOf base) rfl rfl rfl rfl
        (LinkTree.node_ordinary hBase) hPrefix
    with ⟨rest, hRest⟩
    rw [hRest, Path.append_of_names rfl (by simp)]
    constructor
    · intro hEq
      have hClimbs :
          base ++ Name.dotdot :: rest = base ++ names :=
        congrArg Path.names hEq
      have hMem : Name.dotdot ∈ names := by
        rw [← List.append_cancel_left hClimbs]
        exact List.mem_cons_self
      exact absurd rfl (hNames _ hMem).2
    · rintro rfl
      exact absurd (List.prefix_append _ _) hPrefix

/- A file that is reached through no link keeps its names. -/
theorem relativePath_of_not_throughLink
    {t : LinkTree}
    {base names : Loc}
    {file : UploadFileSpec}
    (hBase : t.node base = some .directory)
    (hNames : ∀ n ∈ names, n.Ordinary)
    (h : CollectedFrom t base names file)
    (hThrough : ¬t.ThroughLink base names) :
    file.relativePath = (relativeOf names).toString := by
  rcases h.relativePath with ⟨l, hResolve, hNode, hRelative⟩
  have hDirect :=
    (LinkTree.resolve_eq_self_iff (.of_directory hBase)
      hNames hResolve).mpr hThrough
  subst hDirect
  rw [hRelative, (lexicallyRelative_below hBase hNode).1]

end Drex

------------------------------------------------------------
-- The Whole List
------------------------------------------------------------

namespace Drex

/- Lists that are related member by member. -/
theorem map_eq_of_forall₂
    {α β γ : Type}
    {R : α → β → Prop}
    {f : α → γ}
    {g : β → γ}
    {as : List α}
    {bs : List β}
    (hEq : ∀ a b, a ∈ as → R a b → g b = f a)
    (h : List.Forall₂ R as bs) :
    bs.map g = as.map f := by
  have hMembers :
      List.Forall₂ (fun a b => a ∈ as ∧ R a b) as bs :=
    (List.forall₂_and_left (p := (· ∈ as)) as bs).mpr
      ⟨fun _ hMem => hMem, h⟩
  have hImages : List.Forall₂ Eq (as.map f) (bs.map g) := by
    rw [List.forall₂_map_left_iff, List.forall₂_map_right_iff]
    exact
      hMembers.imp fun a b hBoth =>
        (hEq a b hBoth.1 hBoth.2).symm
  rw [List.forall₂_eq_eq_eq] at hImages
  exact hImages.symm

theorem forall_mem_iff_of_forall₂
    {α β : Type}
    {R : α → β → Prop}
    {P : α → Prop}
    {Q : β → Prop}
    {as : List α}
    {bs : List β}
    (hIff : ∀ a b, a ∈ as → R a b → (Q b ↔ P a))
    (h : List.Forall₂ R as bs) :
    (∀ b ∈ bs, Q b) ↔ ∀ a ∈ as, P a := by
  have hImages : bs.map Q = as.map P :=
    map_eq_of_forall₂
      (fun a b hMem hR => propext (hIff a b hMem hR)) h
  calc
    (∀ b ∈ bs, Q b) ↔ ∀ q ∈ bs.map Q, q := by
      simp only [List.forall_mem_map]
    _ ↔ ∀ p ∈ as.map P, p := by
      rw [hImages]
    _ ↔ ∀ a ∈ as, P a := by
      simp only [List.forall_mem_map]

/- The collected files of the regular files that were met. -/
theorem ownPaths_iff
    {t : LinkTree}
    {base : Loc}
    {met : List Loc}
    {files : List UploadFileSpec}
    (hBase : t.node base = some .directory)
    (hOrdinary : ∀ names ∈ met, ∀ n ∈ names, n.Ordinary)
    (hNodup : met.Nodup)
    (h : List.Forall₂ (CollectedFrom t base) met files) :
    OwnPaths base met files ↔
      ∀ names ∈ met, ¬t.ThroughLink base names := by
  have hJoined :
      (∀ file ∈ files,
          (pathOf base /
              Path.ofString file.relativePath).toString =
            file.localPath) ↔
        ∀ names ∈ met, ¬t.ThroughLink base names :=
    forall_mem_iff_of_forall₂
      (fun names file hMem hFrom =>
        joined_iff hBase (hOrdinary names hMem) hFrom) h
  constructor
  · intro hOwn
    exact hJoined.mp hOwn.joined
  · intro hThrough
    have hRelative :
        files.map UploadFileSpec.relativePath =
          met.map fun names =>
            (relativeOf names).toString :=
      map_eq_of_forall₂
        (fun names file hMem hFrom =>
          relativePath_of_not_throughLink hBase
            (hOrdinary names hMem) hFrom
            (hThrough names hMem)) h
    refine ⟨?_, ?_, hJoined.mpr hThrough, ?_⟩
    · exact
        map_eq_of_forall₂ (fun _ _ _ hFrom => hFrom.localPath)
          h
    · intro file hMem
      have hIn :
          file.relativePath ∈
            met.map fun names =>
              (relativeOf names).toString := by
        rw [← hRelative]
        exact List.mem_map_of_mem hMem
      rcases List.mem_map.mp hIn with ⟨names, hNames, hEq⟩
      rw [← hEq, Path.ofString_toString]
      intro hClimb
      exact absurd rfl (hOrdinary names hNames _ hClimb).2
    · rw [hRelative]
      apply List.Nodup.map _ hNodup
      intro names names' hEq
      exact congrArg Path.names
        (Path.toString_injective hEq)

/- More fuel does not change what a traversal meets. -/
theorem entriesOf_mono
    {t : LinkTree}
    {descend descend' : Loc → Option (List DirEntry)}
    (hMono : ∀ names entries,
      descend names = some entries →
        descend' names = some entries)
    {base place names : Loc}
    {listing : List Name}
    {entries : List DirEntry}
    (h :
      t.entriesOf descend base place names listing =
        some entries) :
    t.entriesOf descend' base place names listing =
      some entries := by
  induction listing generalizing entries with
  | nil => exact h
  | cons n rest ih =>
      rw [LinkTree.entriesOf] at h ⊢
      simp only [Option.bind_eq_bind,
        Option.bind_eq_some_iff] at h ⊢
      rcases h with
        ⟨type, hNode, below, hBelow, others, hOthers, hEq⟩
      refine
        ⟨type, hNode, below, ?_, others, ih hOthers, hEq⟩
      unfold LinkTree.entriesBelow at hBelow ⊢
      split at hBelow
      · rename_i hRecurse
        rw [if_pos hRecurse]
        exact hMono _ _ hBelow
      · rename_i hRecurse
        rw [if_neg hRecurse]
        exact hBelow

theorem walk_mono
    {t : LinkTree}
    {base : Loc}
    {fuel more : Nat}
    (hMore : fuel ≤ more)
    {names : Loc}
    {entries : List DirEntry}
    (h : t.walk base fuel names = some entries) :
    t.walk base more names = some entries := by
  induction fuel generalizing more names entries with
  | zero => cases h
  | succ fuel ih =>
      cases more with
      | zero => omega
      | succ more =>
          rw [LinkTree.walk] at h ⊢
          split at h
          · cases h
          · exact
              entriesOf_mono
                (fun _ _ => ih (Nat.le_of_succ_le_succ hMore))
                h

/- What is collected does not depend on the fuel. -/
theorem collectDirectoryFiles_mono
    {t : LinkTree}
    {cwd : Loc}
    {fuel more : Nat}
    (hMore : fuel ≤ more)
    {rootDir : Str}
    {result : Bool × List UploadFileSpec}
    (h :
      collectDirectoryFiles t cwd fuel rootDir =
        some result) :
    collectDirectoryFiles t cwd more rootDir =
      some result := by
  unfold collectDirectoryFiles at h ⊢
  cases hRoot : t.stat cwd (Path.ofString rootDir) with
  | error e =>
      rw [hRoot] at h
      exact h
  | ok base =>
      rw [hRoot] at h
      simp only at h ⊢
      split at h
      · rename_i hBase
        rw [if_pos hBase]
        exact h
      · rename_i hBase
        rw [if_neg hBase]
        simp only [Option.bind_eq_bind,
          Option.bind_eq_some_iff] at h ⊢
        rcases h with ⟨entries, hWalk, hRest⟩
        exact ⟨entries, walk_mono hMore hWalk, hRest⟩

/-
  Where the client collects a directory, the list is the
  tree's own exactly when no regular file it met is a link or
  lies behind one.
-/
theorem ownPaths_iff_not_throughLink
    {t : LinkTree}
    {cwd base : Loc}
    {fuel : Nat}
    {rootDir : Str}
    {entries : List DirEntry}
    {files : List UploadFileSpec}
    (hRoot : t.stat cwd (Path.ofString rootDir) = .ok base)
    (hWalk : t.walk base fuel [] = some entries)
    (hReturns :
      collectDirectoryFiles t cwd fuel rootDir =
        some (true, files)) :
    OwnPaths base (regularMet t base entries) files ↔
      ∀ names ∈ regularMet t base entries,
        ¬t.ThroughLink base names := by
  rw [collectDirectoryFiles, hRoot] at hReturns
  simp only at hReturns
  split at hReturns
  · cases hReturns
  · rename_i hBase
    rw [ne_eq, not_not] at hBase
    rw [hWalk] at hReturns
    simp only [Option.bind_eq_bind, Option.bind_some,
      Option.bind_eq_some_iff] at hReturns
    rcases hReturns with ⟨collected, hCollect, hFiles⟩
    have hEq : collected = files :=
      (Prod.mk.inj (Option.some.inj hFiles)).2
    subst hEq
    have hWalked := walk_walked fuel hWalk
    refine
      ownPaths_iff hBase ?_ ?_
        (collectEntries_spec (.of_directory hBase)
          hWalked.found hCollect)
    · intro names hMem
      rcases List.mem_map.mp hMem with ⟨entry, hEntry, rfl⟩
      exact
        hWalked.ordinary entry (List.mem_filter.mp hEntry).1
          (by simp)
    · exact
        hWalked.nodup.sublist
          (List.Sublist.map _ List.filter_sublist)

/- The names `w`, `a` and `b`. -/
def nameW : Name := ⟨['w'], by decide, by decide⟩

def nameA : Name := ⟨['a'], by decide, by decide⟩

def nameB : Name := ⟨['b'], by decide, by decide⟩

/- Files in a directory and in two directories below it. -/
def nestedDirectories : LinkTree :=
  { entries :=
      [([nameW], .directory), ([nameW, nameA], .regular),
        ([nameW, nameB], .directory),
        ([nameW, nameB, nameA], .regular),
        ([nameW, nameB, nameB], .directory),
        ([nameW, nameB, nameB, nameW], .regular)]
    nodup := by decide
    named := by decide
    ordinary := by decide
    parents := by decide }

/- A file and a link to it beside it. -/
def fileAndLink : LinkTree :=
  { entries :=
      [([nameW], .directory), ([nameW, nameA], .regular),
        ([nameW, nameB], .symlink (Path.ofName nameA))]
    nodup := by decide
    named := by decide
    ordinary := by decide
    parents := by decide }

/- Directories without links are collected as they are. -/
theorem ownPaths_nestedDirectories :
    OwnPaths [nameW]
        [[nameA], [nameB, nameA], [nameB, nameB, nameW]]
        [⟨"/w/a".toList, "a".toList⟩,
          ⟨"/w/b/a".toList, "b/a".toList⟩,
          ⟨"/w/b/b/w".toList, "b/b/w".toList⟩] ∧
      ∀ names ∈
        [[nameA], [nameB, nameA], [nameB, nameB, nameW]],
        ¬nestedDirectories.ThroughLink [nameW] names := by
  have hOwn :
      OwnPaths [nameW]
        [[nameA], [nameB, nameA], [nameB, nameB, nameW]]
        [⟨"/w/a".toList, "a".toList⟩,
          ⟨"/w/b/a".toList, "b/a".toList⟩,
          ⟨"/w/b/b/w".toList, "b/b/w".toList⟩] :=
    ⟨by decide, by decide, by decide, by decide⟩
  have hDirect :=
    (@ownPaths_iff_not_throughLink nestedDirectories []
      [nameW] 4 "/w".toList
      [⟨[nameA], .regular⟩, ⟨[nameB], .directory⟩,
        ⟨[nameB, nameA], .regular⟩,
        ⟨[nameB, nameB], .directory⟩,
        ⟨[nameB, nameB, nameW], .regular⟩]
      _ rfl rfl rfl).mp hOwn
  exact ⟨hOwn, hDirect⟩

/- A link and its target are collected under one name. -/
theorem not_ownPaths_fileAndLink :
    ¬∀ (t : LinkTree) (cwd base : Loc) (fuel : Nat)
        (rootDir : Str) (entries : List DirEntry)
        (files : List UploadFileSpec),
      t.stat cwd (Path.ofString rootDir) = .ok base →
        t.walk base fuel [] = some entries →
          collectDirectoryFiles t cwd fuel rootDir =
              some (true, files) →
            OwnPaths base (regularMet t base entries)
              files := by
  intro hAllOwn
  have hOwn :=
    hAllOwn fileAndLink [] [nameW] 2 "/w".toList
      [⟨[nameA], .regular⟩,
        ⟨[nameB], .symlink (Path.ofName nameA)⟩]
      [⟨"/w/a".toList, "a".toList⟩,
        ⟨"/w/b".toList, "a".toList⟩]
      rfl rfl rfl
  exact absurd hOwn.distinct (by decide)

end Drex
