import Drex.Filesystem.Store
import Mathlib.Data.List.Nodup

/-
  A tree of directories, files and symbolic links.

  A location lists the names from the root directory down
  without going through a link; a path is resolved to one by
  following the links in it.

  Key definitions include:
    * `LinkTree`
    * `LinkTree.resolve`
    * `LinkTree.stat`
    * `LinkTree.ThroughLink`

  Key theorems include:
    * `LinkTree.resolve_holds`
    * `LinkTree.resolve_append`
    * `LinkTree.resolve_direct`
    * `LinkTree.resolve_eq_self_iff`
-/

------------------------------------------------------------
-- Trees With Links
------------------------------------------------------------

namespace Drex

/- What a location holds. -/
inductive LinkNode
| directory
| regular
| other
| symlink (target : Path)
deriving DecidableEq

/-
  The locations below the root directory, each directory's
  in the order in which it is read.
-/
structure LinkTree where
  entries : List (Loc × LinkNode)
  nodup : (entries.map Prod.fst).Nodup
  named : ∀ e ∈ entries, e.1 ≠ []
  ordinary : ∀ e ∈ entries, ∀ n ∈ e.1, n.Ordinary
  parents : ∀ e ∈ entries,
    e.1.dropLast = [] ∨
      (e.1.dropLast, LinkNode.directory) ∈ entries

namespace LinkTree

/- The node at a location. -/
def node (t : LinkTree) (l : Loc) : Option LinkNode :=
  if l = [] then some .directory else t.entries.lookup l

/- The name of a location in its directory. -/
def nameIn (l m : Loc) : Option Name :=
  if m.dropLast = l then m.getLast? else none

/- The names in a directory, in the order they are read. -/
def listing (t : LinkTree) (l : Loc) : List Name :=
  (t.entries.map Prod.fst).filterMap (nameIn l)

@[simp] theorem node_nil (t : LinkTree) :
    t.node [] = some .directory :=
  rfl

/- The tree holds each location once. -/
theorem node_eq_some_iff
    (t : LinkTree)
    {l : Loc}
    (hNe : l ≠ [])
    (d : LinkNode) :
    t.node l = some d ↔ (l, d) ∈ t.entries := by
  have hLookup :
      ∀ entries : List (Loc × LinkNode),
        (entries.map Prod.fst).Nodup →
          (entries.lookup l = some d ↔
            (l, d) ∈ entries) := by
    intro entries hNodup
    induction entries with
    | nil => simp
    | cons e entries ih =>
        rcases e with ⟨l', d'⟩
        rw [List.map_cons, List.nodup_cons] at hNodup
        by_cases hEq : l = l'
        · subst hEq
          have hNot : (l, d) ∉ entries := by
            intro hMem
            apply hNodup.1
            exact List.mem_map.mpr ⟨_, hMem, rfl⟩
          simp [hNot, eq_comm]
        · have hBeq : (l == l') = false := by
            simpa using hEq
          simp [List.lookup_cons, hBeq, ih hNodup.2, hEq]
  unfold node
  rw [if_neg hNe]
  exact hLookup t.entries t.nodup

theorem node_dropLast
    {t : LinkTree}
    {l : Loc}
    {d : LinkNode}
    (hNode : t.node l = some d) :
    t.node l.dropLast = some .directory := by
  by_cases hNil : l = []
  · rw [hNil]
    rfl
  · have hMem := (t.node_eq_some_iff hNil d).mp hNode
    rcases t.parents _ hMem with hRoot | hParent
    · rw [hRoot]
      rfl
    · by_cases hRoot : l.dropLast = []
      · rw [hRoot]
        rfl
      · exact (t.node_eq_some_iff hRoot _).mpr hParent

/- Whatever lies above a location is a directory. -/
theorem node_above
    {t : LinkTree}
    {l m : Loc}
    {d : LinkNode}
    (hNode : t.node (l ++ m) = some d)
    (hNe : m ≠ []) :
    t.node l = some .directory := by
  induction m using List.reverseRecOn generalizing d with
  | nil => exact absurd rfl hNe
  | append_singleton m n ih =>
      have hParent := node_dropLast hNode
      rw [← List.append_assoc, List.dropLast_concat]
        at hParent
      by_cases hNil : m = []
      · rw [hNil, List.append_nil] at hParent
        exact hParent
      · exact ih hParent hNil

/- Every name of a location is an ordinary one. -/
theorem node_ordinary
    {t : LinkTree}
    {l : Loc}
    {d : LinkNode}
    (hNode : t.node l = some d) :
    ∀ n ∈ l, n.Ordinary := by
  by_cases hNil : l = []
  · simp [hNil]
  · exact t.ordinary _ ((t.node_eq_some_iff hNil d).mp hNode)

theorem nameIn_eq_some_iff
    {l m : Loc}
    {n : Name} :
    nameIn l m = some n ↔ m = l ++ [n] := by
  unfold nameIn
  constructor
  · intro hName
    split at hName
    · rename_i hDrop
      rcases List.getLast?_eq_some_iff.mp hName with
        ⟨l', rfl⟩
      rw [List.dropLast_concat] at hDrop
      rw [hDrop]
    · cases hName
  · rintro rfl
    simp

theorem nodup_listing
    (t : LinkTree)
    (l : Loc) :
    (t.listing l).Nodup := by
  apply List.Nodup.filterMap _ t.nodup
  intro m m' n hName hName'
  rw [Option.mem_def, nameIn_eq_some_iff] at hName hName'
  rw [hName, hName']

end LinkTree

end Drex

------------------------------------------------------------
-- Resolving A Path
------------------------------------------------------------

namespace Drex

/- Why a path leads nowhere. -/
inductive ResolveError
| missing
| tooManyLinks
deriving DecidableEq

namespace LinkTree

/- Where one name leads from a location. -/
inductive Lead
| missing
| place (l : Loc)
| link (target : Path)

/- Look one name up in a directory. -/
def lead (t : LinkTree) (l : Loc) (n : Name) : Lead :=
  if t.node l ≠ some .directory then
    .missing
  else if n = .dot then
    .place l
  else if n = .dotdot then
    .place l.dropLast
  else
    match t.node (l ++ [n]) with
    | none => .missing
    | some (.symlink target) => .link target
    | some _ => .place (l ++ [n])

/-
  Follow names from a location.  A link goes on at its
  target, with the names that are left after those of it.
-/
def resolveWith
    (t : LinkTree)
    (follow : Loc → List Name → Except ResolveError Loc) :
    Loc → List Name → Except ResolveError Loc
| l, [] => .ok l
| l, n :: names =>
    match t.lead l n with
    | .missing => .error .missing
    | .place l' => t.resolveWith follow l' names
    | .link target =>
        follow
          (if target.absolute then [] else l)
          (target.names ++
            ((if target.slash then [.dot] else []) ++ names))

/- Resolve a path through at most so many links. -/
def resolve
    (t : LinkTree) :
    Nat → Loc → List Name → Except ResolveError Loc
| 0 => t.resolveWith fun _ _ => .error .tooManyLinks
| links + 1 => t.resolveWith (t.resolve links)

/- The links one path may go through. -/
def maxLinks : Nat :=
  40

/- `stat`, and `realpath`: where a path leads. -/
def stat
    (t : LinkTree)
    (cwd : Loc)
    (p : Path) :
    Except ResolveError Loc :=
  if p = Path.empty then
    .error .missing
  else
    t.resolve maxLinks (if p.absolute then [] else cwd)
      (p.names ++ (if p.slash then [.dot] else []))

/- Some name of the path is that of a link below the base. -/
def ThroughLink
    (t : LinkTree)
    (base names : Loc) : Prop :=
  ∃ q, q <+: names ∧
    ∃ target, t.node (base ++ q) = some (.symlink target)

/- A location that holds something other than a link. -/
def Holds (t : LinkTree) (l : Loc) : Prop :=
  ∃ d, t.node l = some d ∧ ∀ target, d ≠ .symlink target

theorem Holds.of_directory
    {t : LinkTree}
    {l : Loc}
    (h : t.node l = some .directory) :
    t.Holds l :=
  ⟨.directory, h, by simp⟩

/- A name that leads to a place leads to no link. -/
theorem holds_of_lead
    {t : LinkTree}
    {l l' : Loc}
    {n : Name}
    (h : t.lead l n = .place l') :
    t.Holds l' := by
  unfold lead at h
  split at h
  · cases h
  · rename_i hDirectory
    rw [ne_eq, not_not] at hDirectory
    split at h
    · rw [← Lead.place.inj h]
      exact .of_directory hDirectory
    · split at h
      · rw [← Lead.place.inj h]
        exact .of_directory (node_dropLast hDirectory)
      · split at h
        · cases h
        · cases h
        · rename_i d hNotLink hNode
          rw [← Lead.place.inj h]
          refine ⟨d, hNode, ?_⟩
          rintro target rfl
          exact hNotLink target rfl

theorem directory_of_lead_link
    {t : LinkTree}
    {l : Loc}
    {n : Name}
    {target : Path}
    (h : t.lead l n = .link target) :
    t.node l = some .directory := by
  by_contra hNot
  rw [lead, if_pos hNot] at h
  cases h

/- An ordinary name of a node that is no link is entered. -/
theorem lead_of_holds
    {t : LinkTree}
    {l : Loc}
    {n : Name}
    (hHolds : t.Holds (l ++ [n])) :
    t.lead l n = .place (l ++ [n]) := by
  rcases hHolds with ⟨d, hNode, hNotLink⟩
  have hDirectory : t.node l = some .directory :=
    node_above hNode (by simp)
  have hOrdinary : n.Ordinary :=
    node_ordinary hNode n (by simp)
  unfold lead
  rw [if_neg (not_not.mpr hDirectory), if_neg hOrdinary.1,
    if_neg hOrdinary.2, hNode]
  cases d with
  | symlink target => exact absurd rfl (hNotLink target)
  | directory => rfl
  | regular => rfl
  | other => rfl

/- The start of the target of a link. -/
theorem directory_target
    {t : LinkTree}
    {l : Loc}
    (hDirectory : t.node l = some .directory)
    (target : Path) :
    t.node (if target.absolute then [] else l) =
      some .directory := by
  split
  · rfl
  · exact hDirectory

/- A path leads to something that is no link. -/
theorem resolveWith_holds
    {t : LinkTree}
    {follow : Loc → List Name → Except ResolveError Loc}
    (hFollow : ∀ l names l', t.Holds l →
      follow l names = .ok l' → t.Holds l')
    {l l' : Loc}
    {names : List Name}
    (hStart : t.Holds l)
    (h : t.resolveWith follow l names = .ok l') :
    t.Holds l' := by
  induction names generalizing l with
  | nil =>
      rw [← Except.ok.inj h]
      exact hStart
  | cons n names ih =>
      rw [resolveWith] at h
      split at h
      · cases h
      · rename_i hLead
        exact ih (holds_of_lead hLead) h
      · rename_i target hLead
        have hDirectory := directory_of_lead_link hLead
        exact
          hFollow _ _ _
            (.of_directory (directory_target hDirectory _)) h

theorem resolve_holds
    {t : LinkTree}
    {links : Nat}
    {l l' : Loc}
    {names : List Name}
    (hStart : t.Holds l)
    (h : t.resolve links l names = .ok l') :
    t.Holds l' := by
  induction links generalizing l l' names with
  | zero =>
      refine resolveWith_holds ?_ hStart h
      intro _ _ _ _ hOk
      cases hOk
  | succ links ih =>
      refine resolveWith_holds ?_ hStart h
      intro _ _ _ hHolds hOk
      exact ih hHolds hOk

/-
  A path that leads to a place goes on from there, through
  the links that are left.
-/
theorem resolve_append
    {t : LinkTree}
    {links : Nat}
    {l l' : Loc}
    {names : List Name}
    (h : t.resolve links l names = .ok l') :
    ∃ left, ∀ rest,
      t.resolve links l (names ++ rest) =
        t.resolve left l' rest := by
  induction links generalizing l names with
  | zero =>
      refine ⟨0, ?_⟩
      intro rest
      induction names generalizing l with
      | nil =>
          rw [← Except.ok.inj h]
          rfl
      | cons n names ih =>
          rw [resolve, List.cons_append, resolveWith]
          rw [resolve, resolveWith] at h
          cases hLead : t.lead l n with
          | missing =>
              rw [hLead] at h
              cases h
          | link target =>
              rw [hLead] at h
              cases h
          | place m =>
              rw [hLead] at h
              exact ih h
  | succ links ihLinks =>
      induction names generalizing l with
      | nil =>
          refine ⟨links + 1, ?_⟩
          intro rest
          rw [← Except.ok.inj h]
          rfl
      | cons n names ih =>
          rw [resolve, resolveWith] at h
          cases hLead : t.lead l n with
          | missing =>
              rw [hLead] at h
              cases h
          | link target =>
              rw [hLead] at h
              rcases ihLinks h with ⟨left, hLeft⟩
              refine ⟨left, ?_⟩
              intro rest
              rw [resolve, List.cons_append, resolveWith,
                hLead, ← hLeft]
              simp only [List.append_assoc]
          | place m =>
              rw [hLead] at h
              rcases ih h with ⟨left, hLeft⟩
              refine ⟨left, ?_⟩
              intro rest
              rw [← hLeft, resolve, List.cons_append,
                resolveWith, hLead]

/- Names that meet no link lead where they say. -/
theorem resolve_direct
    {t : LinkTree}
    (links : Nat)
    {l names : Loc}
    (hHolds : t.Holds (l ++ names)) :
    t.resolve links l names = .ok (l ++ names) := by
  have hWith :
      ∀ follow,
        t.resolveWith follow l names = .ok (l ++ names) := by
    intro follow
    induction names generalizing l with
    | nil =>
        rw [List.append_nil]
        rfl
    | cons n names ih =>
        rw [List.append_cons] at hHolds ⊢
        have hFirst : t.Holds (l ++ [n]) := by
          by_cases hNil : names = []
          · rw [hNil, List.append_nil] at hHolds
            exact hHolds
          · rcases hHolds with ⟨d, hNode, hNotLink⟩
            exact .of_directory (node_above hNode hNil)
        rw [resolveWith, lead_of_holds hFirst]
        exact ih hHolds
  cases links with
  | zero => exact hWith _
  | succ links => exact hWith _

/- What an ordinary name may lead to. -/
theorem lead_ordinary
    {t : LinkTree}
    (l : Loc)
    {n : Name}
    (hOrdinary : n.Ordinary) :
    t.lead l n = .missing ∨
      (∃ target, t.lead l n = .link target ∧
        t.node (l ++ [n]) = some (.symlink target)) ∨
      t.lead l n = .place (l ++ [n]) := by
  unfold lead
  rw [if_neg hOrdinary.1, if_neg hOrdinary.2]
  split
  · exact Or.inl rfl
  · cases hNode : t.node (l ++ [n]) with
    | none => exact Or.inl rfl
    | some d =>
        cases d with
        | symlink target =>
            exact Or.inr (Or.inl ⟨target, rfl, rfl⟩)
        | directory => exact Or.inr (Or.inr rfl)
        | regular => exact Or.inr (Or.inr rfl)
        | other => exact Or.inr (Or.inr rfl)

/- Without a link a path leads only where it says. -/
theorem resolveWith_of_not_throughLink
    {t : LinkTree}
    {follow : Loc → List Name → Except ResolveError Loc}
    {base names l : Loc}
    (hOrdinary : ∀ n ∈ names, n.Ordinary)
    (hThrough : ¬t.ThroughLink base names)
    (h : t.resolveWith follow base names = .ok l) :
    l = base ++ names := by
  induction names generalizing base with
  | nil =>
      rw [List.append_nil]
      exact (Except.ok.inj h).symm
  | cons n names ih =>
      rw [List.forall_mem_cons] at hOrdinary
      rw [resolveWith] at h
      rcases t.lead_ordinary base hOrdinary.1 with
        hLead | ⟨target, hLead, hNode⟩ | hLead
      · rw [hLead] at h
        cases h
      · exact
          absurd ⟨[n], by simp, target, hNode⟩ hThrough
      · rw [hLead] at h
        rw [List.append_cons]
        apply ih hOrdinary.2 _ h
        rintro ⟨q, hPrefix, target, hNode⟩
        apply hThrough
        refine ⟨n :: q, ?_, target, ?_⟩
        · exact List.cons_prefix_cons.mpr ⟨rfl, hPrefix⟩
        · rw [List.append_cons]
          exact hNode

/-
  A path below a directory leads to the place it spells
  exactly when no name of it is that of a link.
-/
theorem resolve_eq_self_iff
    {t : LinkTree}
    {links : Nat}
    {base names l : Loc}
    (hBase : t.Holds base)
    (hOrdinary : ∀ n ∈ names, n.Ordinary)
    (h : t.resolve links [] (base ++ names) = .ok l) :
    l = base ++ names ↔ ¬t.ThroughLink base names := by
  have hBaseOk :
      t.resolve links [] base = .ok base :=
    resolve_direct links hBase
  rcases resolve_append hBaseOk with ⟨left, hLeft⟩
  rw [hLeft] at h
  constructor
  · rintro rfl ⟨q, ⟨rest, rfl⟩, target, hLink⟩
    rcases resolve_holds hBase h with ⟨d, hNode, hNotLink⟩
    rw [← List.append_assoc] at hNode
    by_cases hNil : rest = []
    · rw [hNil, List.append_nil, hLink] at hNode
      exact hNotLink target (Option.some.inj hNode).symm
    · rw [node_above hNode hNil] at hLink
      cases hLink
  · intro hThrough
    cases left with
    | zero =>
        exact
          resolveWith_of_not_throughLink hOrdinary hThrough h
    | succ left =>
        exact
          resolveWith_of_not_throughLink hOrdinary hThrough h

end LinkTree

end Drex
