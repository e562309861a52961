import Drex.Server.LockTable

/-
  A submission that holds its lock owns its tree, as long as
  the trees of the other live submissions stay apart from
  it.

  Key definitions include:
    * `OwnsTree`
    * `TreeApart`

  Key theorems include:
    * `affects_near`
    * `ownsTree_of_apart`
-/

------------------------------------------------------------
-- Ownership
------------------------------------------------------------

namespace Drex

/- Every RPC of the server is a submission. -/
def submissions
    (streams : Nat → List TaskRequest) :
    Nat → Job :=
  fun i => .submission (streams i)

/- The tree of a handler's key. -/
def keyLoc
    (root : WorkspaceRoot)
    (s : ServerState)
    (i : Nat) :
    Loc :=
  subdirLoc root (s.guards i).key

/- The tree of a handler's output subdirectory. -/
def outputLoc
    (root : WorkspaceRoot)
    (s : ServerState)
    (i : Nat) :
    Loc :=
  subdirLoc root (s.guards i).outputSubdir

/-
  No step of another handler makes, changes or removes a
  node in the tree of the handler's key.
-/
def OwnsTree
    (root : WorkspaceRoot)
    (p : ServerPool)
    (i : Nat) : Prop :=
  ∀ j op env q, j ≠ i → p.Calls j op →
    keyLoc root p.shared i <+: q →
      (exec j op env p.shared).2.store.node q =
        p.shared.store.node q

/-
  The tree of one handler's key overlaps neither the tree of
  the key another handler holds nor the output tree it has
  registered.
-/
def Apart
    (root : WorkspaceRoot)
    (s : ServerState)
    (i j : Nat) : Prop :=
  (s.guards j).locked = true →
    ¬ (keyLoc root s i).Overlaps (keyLoc root s j) ∧
      ((s.guards j).cleanupRegistered = true →
        ¬ (keyLoc root s i).Overlaps (outputLoc root s j))

/-
  No other live submission has a tree that overlaps the tree
  of the handler's key; among each other they may overlap.
-/
def TreeApart
    (root : WorkspaceRoot)
    (s : ServerState)
    (i : Nat) : Prop :=
  ∀ j, j ≠ i → Apart root s i j

/- What a submission changes lies near one of its trees. -/
theorem affects_near
    {root : WorkspaceRoot}
    {R : Prop}
    {U : Path → Prop}
    {g : SessionView}
    {op : ServerOp}
    {q l : Loc}
    (hPermits : g.Permits root R U op)
    (hAffects : op.Affects q)
    (hTree : l <+: q) :
    g.guard.locked = true ∧
      (l.Overlaps (subdirLoc root g.guard.key) ∨
        (g.guard.cleanupRegistered = true ∧
          l.Overlaps
            (subdirLoc root g.guard.outputSubdir))) := by
  have hFile :
      ∀ p : Path, q = p.loc →
        g.guard.locked = true ∧ g.removed = [] ∧
          subdirLoc root g.guard.key <+: p.loc →
        g.guard.locked = true ∧
          l.Overlaps (subdirLoc root g.guard.key) := by
    rintro p rfl ⟨hLocked, _, hPrefix⟩
    exact ⟨hLocked, Loc.overlaps_of_prefix hTree hPrefix⟩
  cases op with
  | createDirectories p =>
      rcases hPermits with ⟨hLocked, _, hNear, _⟩
      exact
        ⟨hLocked,
          Or.inl (hNear.of_prefix (hTree.trans hAffects))⟩
  | openTrunc p =>
      rcases hPermits with ⟨hLocked, hRemoved, hPrefix, _⟩
      rcases hFile p hAffects ⟨hLocked, hRemoved, hPrefix⟩
        with ⟨_, hOverlaps⟩
      exact ⟨hLocked, Or.inl hOverlaps⟩
  | write p offset data =>
      rcases hFile p hAffects hPermits with
        ⟨hLocked, hOverlaps⟩
      exact ⟨hLocked, Or.inl hOverlaps⟩
  | close p =>
      rcases hFile p hAffects hPermits with
        ⟨hLocked, hOverlaps⟩
      exact ⟨hLocked, Or.inl hOverlaps⟩
  | removeAll p =>
      rcases hPermits with
        ⟨hLocked, hRegistered, _, _, hPath⟩
      have hOverlaps := Loc.overlaps_of_prefix hTree hAffects
      rcases hPath with rfl | rfl
      · exact ⟨hLocked, Or.inl hOverlaps⟩
      · exact ⟨hLocked, Or.inr ⟨hRegistered, hOverlaps⟩⟩
  | _ => exact absurd hAffects id

/-
  In every reachable state in which the trees of the other
  live submissions stay apart from the tree of a submission
  that holds its lock, it owns its tree.
-/
theorem ownsTree_of_apart
    {root : WorkspaceRoot}
    {streams : Nat → List TaskRequest}
    (_hNul : ∀ i, NulFreeStream (streams i))
    {store : Store}
    {p : ServerPool}
    (h :
      Core.Reach (server anyCommands) anyStep
        (serverStart root (submissions streams) store) p) :
    ∀ i, (p.shared.guards i).locked = true →
      TreeApart root p.shared i →
        OwnsTree root p i := by
  intro i _ hApart j op env q hNe hCalls hTree
  apply exec_node
  intro hAffects
  have hPre : sessionPre root True (fun _ => True)
      (viewOf p j) op :=
    reach_calls h hCalls
  rcases affects_near hPre.2 hAffects hTree with
    ⟨hHolds, hOverlaps⟩
  rcases hApart j hNe hHolds with ⟨hKey, hOutput⟩
  rcases hOverlaps with hOverlaps | ⟨hRegistered, hOverlaps⟩
  · exact hKey hOverlaps
  · exact hOutput hRegistered hOverlaps

/- One tree for itself, and one in the other. -/
def apartStreams (i : Nat) : List TaskRequest :=
  match i with
  | 0 => [.config (smallConfig "a")]
  | 1 => [.config (smallConfig "b")]
  | _ => [.config (smallConfig "b/c")]

/- All three submissions are under way. -/
def apartRun : ServerPool :=
  smallRun (submissions apartStreams)
    (steps 9 0 ++ steps 9 1 ++ steps 9 2)

/- A config that spells its one directory without NUL. -/
theorem nulFree_smallConfig
    {subdir : String}
    (h : NulFree subdir.toList) :
    NulFreeStream [.config (smallConfig subdir)] := by
  intro message hMem
  rw [List.mem_singleton] at hMem
  rw [hMem]
  exact ⟨h, List.not_mem_nil⟩

theorem ownsTree_of_apart_apartRun :
    OwnsTree smallRoot apartRun 0 := by
  have hNul : ∀ i, NulFreeStream (apartStreams i) := by
    intro i
    unfold apartStreams
    split
    · exact nulFree_smallConfig (by decide)
    · exact nulFree_smallConfig (by decide)
    · exact nulFree_smallConfig (by decide)
  have hApart : TreeApart smallRoot apartRun.shared 0 := by
    intro j hNe hLocked
    by_cases hFirst : j = 1
    · rw [hFirst]
      exact ⟨by decide +kernel, fun _ => by decide +kernel⟩
    · by_cases hSecond : j = 2
      · rw [hSecond]
        exact
          ⟨by decide +kernel, fun _ => by decide +kernel⟩
      · have hGuard :
            apartRun.shared.guards j = .init := by
          apply guards_runSchedule
          intro e hMem
          rw [List.mem_append, List.mem_append] at hMem
          rcases hMem with (hMem | hMem) | hMem
          · rw [List.eq_of_mem_replicate hMem]
            exact Ne.symm hNe
          · rw [List.eq_of_mem_replicate hMem]
            exact Ne.symm hFirst
          · rw [List.eq_of_mem_replicate hMem]
            exact Ne.symm hSecond
        rw [hGuard] at hLocked
        cases hLocked
  exact
    ownsTree_of_apart hNul (reach_smallRun _ _) 0
      (by decide +kernel) hApart

/- The second submission names the first one's subdirectory. -/
def sharedOutputStreams (i : Nat) : List TaskRequest :=
  if i = 0 then
    [.config (smallConfig "a"), .fileChunk (smallChunk "f")]
  else
    [.config
        { smallConfig "b" with outputSubdir := "a".toList },
      .missing]

/-
  The first submission has uploaded a file, and the second
  one is about to remove its output tree.
-/
def sharedOutputRun : ServerPool :=
  smallRun (submissions sharedOutputStreams)
    (steps 15 0 ++ steps 14 1)

/- The file that the first submission has uploaded. -/
def uploadedLoc : Loc :=
  (Path.ofString "/workspace/a/f".toList).loc

theorem sharedOutput_not_ownsTree :
    ¬ ∀ p : ServerPool,
        Core.Reach (server anyCommands) anyStep
            (serverStart smallRoot
              (submissions sharedOutputStreams)
              smallStore) p →
          ∀ i, (p.shared.guards i).locked = true →
            OwnsTree smallRoot p i := by
  intro hOwns
  have hTree :=
    hOwns sharedOutputRun (reach_smallRun _ _) 0
      (by decide +kernel)
  have hCalls :
      sharedOutputRun.Calls 1
        (.removeAll (subdirPath smallRoot "a".toList)) := by
    rw [Core.Pool.calls_iff]
    decide +kernel
  have hSame :=
    hTree 1 _ Env.granting uploadedLoc (by decide) hCalls
      (by decide +kernel)
  have hGone :
      (exec 1
          (.removeAll (subdirPath smallRoot "a".toList))
          Env.granting
          sharedOutputRun.shared).2.store.node uploadedLoc =
        none := by
    decide +kernel
  have hThere :
      sharedOutputRun.shared.store.node uploadedLoc ≠
        none := by
    decide +kernel
  rw [hGone] at hSame
  exact hThere hSame.symm

end Drex
