import Drex.Server.LockTable

/-
  A submission starts in a workspace without files, as long
  as no update creates its file outside a live tree and no
  key is acquired next to an overlapping live tree.

  Key definitions include:
    * `SessionView.Covers`
    * `FilesCovered`
    * `commandsStayHome`
    * `FreshStep`

  Key theorems include:
    * `covers_after`
    * `filesCovered_advance`
    * `reach_filesCovered`
    * `fresh_at_acquire`
-/

------------------------------------------------------------
-- Files And Live Trees
------------------------------------------------------------

namespace Drex

/- No file lies under the workspace root. -/
def EmptyRoot (root : WorkspaceRoot) (s : Store) : Prop :=
  ∀ q data, root.path.names <+: q → ¬ s.HasFile q data

namespace SessionView

/- The key is held and its tree was not removed. -/
def Live (root : WorkspaceRoot) (g : SessionView) : Prop :=
  g.guard.locked = true ∧
    subdirPath root g.guard.key ∉ g.removed

/- The location lies in the tree of a live handler. -/
def Covers
    (root : WorkspaceRoot)
    (g : SessionView)
    (q : Loc) : Prop :=
  g.Live root ∧ subdirLoc root g.guard.key <+: q

end SessionView

/- Every file under the root lies in a live tree. -/
def FilesCovered
    (root : WorkspaceRoot)
    (p : ServerPool) : Prop :=
  ∀ q data, root.path.names <+: q →
    p.shared.store.HasFile q data →
      ∃ j, (viewOf p j).Covers root q

/- Running commands only change their own workspaces. -/
def commandsStayHome
    (root : WorkspaceRoot)
    (s : ServerState)
    (store : Store) : Prop :=
  ∀ q, store.node q ≠ s.store.node q →
    ∃ i, s.running i = true ∧
      subdirLoc root (s.guards i).key <+: q

/- Every removal of the run succeeds. -/
def removalsSucceed
    (p : ServerPool)
    (i : Nat)
    (env : Env) : Prop :=
  ∀ q, p.Calls i (.removeAll q) →
    env.answer (.removeAll q) = true

/-
  The condition of a step: a free key that is acquired does
  not overlap a live tree, and an update opens its file in a
  live tree.
-/
structure FreshStep
    (root : WorkspaceRoot)
    (jobs : Nat → Job)
    (p : ServerPool)
    (i : Nat) : Prop where
  acquires :
    ∀ key, p.Calls i (.acquire key) →
      key ∉ p.shared.lockedSubdirs →
        ∀ j, (viewOf p j).Live root →
          ¬ (subdirLoc root key).Overlaps
            (subdirLoc root (p.shared.guards j).key)
  opens :
    ∀ request q, jobs i = .update request →
      p.Calls i (.openTrunc q) →
        ∃ j, (viewOf p j).Covers root q.loc

/- The steps the property is about. -/
def freshSteps
    (root : WorkspaceRoot)
    (jobs : Nat → Job)
    (p : ServerPool)
    (i : Nat)
    (env : Env) : Prop :=
  removalsSucceed p i env ∧ FreshStep root jobs p i

end Drex

------------------------------------------------------------
-- One Step
------------------------------------------------------------

namespace Drex

/- Only opening makes a file where there was none. -/
theorem hasFile_exec
    {i : Nat}
    {op : ServerOp}
    {env : Env}
    {s : ServerState}
    {q : Loc}
    {data : Bytes}
    (h : (exec i op env s).2.store.HasFile q data) :
    (∃ data', s.store.HasFile q data') ∨
      ∃ p, op = .openTrunc p ∧ q = p.loc := by
  by_cases hAffects : op.Affects q
  · cases op with
    | openTrunc p => exact Or.inr ⟨p, rfl, hAffects⟩
    | createDirectories p =>
        refine Or.inl ⟨data, ?_⟩
        simp only [exec, Store.tryCreateDirectories] at h
        split at h
        · split at h
          · exact (Store.createDirectories_file_iff
              _ _ _ _).mp h
          · exact h
        · split at h
          · exact (Store.createDirectories_file_iff
              _ _ _ _).mp h
          · exact h
    | write p offset bytes =>
        simp only [exec, Store.tryWrite, Store.writeAt] at h
        split at h
        · exact Or.inl (Store.exists_hasFile_mapFile h)
        · exact Or.inl (Store.exists_hasFile_mapFile h)
    | close p =>
        simp only [exec, Store.tryClose, Store.dropTail] at h
        split at h
        · exact Or.inl ⟨data, h⟩
        · exact Or.inl (Store.exists_hasFile_mapFile h)
    | removeAll p =>
        simp only [exec, Store.tryRemoveAll] at h
        split at h
        · exact Or.inl ⟨data, Store.hasFile_of_removeAll h⟩
        · exact Or.inl ⟨data, Store.hasFile_of_removeAll h⟩
    | _ => exact absurd hAffects id
  · unfold Store.HasFile at h
    rw [exec_node i env s hAffects] at h
    exact Or.inl ⟨data, h⟩

/- A removal that succeeds leaves no file in its tree. -/
theorem not_hasFile_removed
    (i : Nat)
    {p : Path}
    {env : Env}
    {s : ServerState}
    {q : Loc}
    {data : Bytes}
    (hOk : env.answer (.removeAll p) = true)
    (hTree : p.loc <+: q) :
    ¬ (exec i (.removeAll p) env s).2.store.HasFile
      q data := by
  intro h
  unfold Store.HasFile at h
  simp only [exec, Store.tryRemoveAll, hOk, if_true] at h
  rw [Store.node_removeAll_of_prefix s.store hTree] at h
  cases h

variable {root : WorkspaceRoot}

/-
  A handler stays live until it removes its tree, and it
  does not give its key back before that.
-/
theorem covers_after
    {job : Job}
    {g : SessionView}
    {op : ServerOp}
    {r : Resp op}
    {q : Loc}
    (hPre : jobPre root job g op)
    (hCovers : g.Covers root q)
    (hKeeps :
      op ≠ .removeAll (subdirPath root g.guard.key)) :
    (g.after op r).Covers root q := by
  rcases hCovers with ⟨⟨hLocked, hThere⟩, hTree⟩
  cases job with
  | update request =>
      rw [hPre.1] at hLocked
      cases hLocked
  | submission messages =>
      have hPermits :
          g.Permits root True (fun _ => True) op :=
        hPre.2
      cases op with
      | acquire key =>
          rw [hPermits.1.guard] at hLocked
          cases hLocked
      | release =>
          exact absurd (hPermits.2 hLocked) hThere
      | removeAll p =>
          refine ⟨⟨hLocked, ?_⟩, hTree⟩
          intro hMem
          rcases List.mem_append.mp hMem with hMem | hMem
          · exact hThere hMem
          · have hPath : subdirPath root g.guard.key = p :=
              List.mem_singleton.mp hMem
            apply hKeeps
            rw [hPath]
      | _ => exact ⟨⟨hLocked, hThere⟩, hTree⟩

/- What a handler opens is in its own tree, or admitted. -/
theorem covers_opened
    {jobs : Nat → Job}
    {p : ServerPool}
    {i : Nat}
    {path : Path}
    (hPre :
      jobPre root (jobs i) (viewOf p i) (.openTrunc path))
    (hCalls : p.Calls i (.openTrunc path))
    (hStep : FreshStep root jobs p i) :
    ∃ j, (viewOf p j).Covers root path.loc := by
  cases hJob : jobs i with
  | update request =>
      exact hStep.opens request path hJob hCalls
  | submission messages =>
      rw [hJob] at hPre
      rcases hPre.2 with ⟨hLocked, hRemoved, hPrefix, _⟩
      refine ⟨i, ⟨hLocked, ?_⟩, hPrefix⟩
      rw [hRemoved]
      exact List.not_mem_nil

/- An admitted step keeps the files covered. -/
theorem filesCovered_advance
    {jobs : Nat → Job}
    {commands : ServerState → Store → Prop}
    {p : ServerPool}
    {i : Nat}
    {op : ServerOp}
    {next : Resp op → ServerProg Status}
    {env : Env}
    (hCovered : FilesCovered root p)
    (hOp : p.progs i = .call op next)
    (hPre : jobPre root (jobs i) (viewOf p i) op)
    (hStep : freshSteps root jobs p i env) :
    FilesCovered root
      (p.advance (server commands) i op next env) := by
  intro q data hRoot hFile
  have hCalls : p.Calls i op := ⟨next, hOp⟩
  have hBefore : ∃ j, (viewOf p j).Covers root q := by
    rcases hasFile_exec hFile with
      ⟨data', hOld⟩ | ⟨path, rfl, rfl⟩
    · exact hCovered q data' hRoot hOld
    · exact covers_opened hPre hCalls hStep.2
  rcases hBefore with ⟨j, hCovers⟩
  refine ⟨j, ?_⟩
  by_cases hEq : j = i
  · subst hEq
    rw [(viewOf_advance_self commands p j op next env).2]
    apply covers_after hPre hCovers
    rintro rfl
    have hOk := hStep.1 _ hCalls
    exact not_hasFile_removed j hOk hCovers.2 hFile
  · rw [viewOf_advance_other commands p op next env hEq]
    exact hCovers

end Drex

------------------------------------------------------------
-- Every Run
------------------------------------------------------------

namespace Drex

variable {root : WorkspaceRoot} {jobs : Nat → Job}
variable {store : Store} {p : ServerPool}

theorem reach_filesCovered
    (hEmpty : EmptyRoot root store)
    (h :
      Core.Reach (server (commandsStayHome root))
        (freshSteps root jobs)
        (serverStart root jobs store) p) :
    FilesCovered root p := by
  induction h with
  | start =>
      intro q data hRoot hFile
      exact absurd hFile (hEmpty q data hRoot)
  | step hReach hOp hReady hAdmits ih =>
      exact
        filesCovered_advance ih hOp
          (reach_calls hReach ⟨_, hOp⟩) hAdmits
  | @ambient p shared hReach hAmbient ih =>
      rcases hAmbient with ⟨store', hHome, rfl⟩
      intro q data hRoot hFile
      by_cases hSame : store'.node q = p.shared.store.node q
      · have hOld : p.shared.store.HasFile q data := by
          unfold Store.HasFile at hFile ⊢
          rw [← hSame]
          exact hFile
        exact ih q data hRoot hOld
      · rcases hHome q hSame with ⟨i, hRunning, hTree⟩
        rcases (reach_sound hReach i).running hRunning with
          ⟨hLocked, hRemoved⟩
        refine ⟨i, ⟨hLocked, ?_⟩, hTree⟩
        change _ ∉ (viewOf p i).removed
        rw [hRemoved]
        exact List.not_mem_nil

/-
  In a run of admitted steps, no file lies in the tree of a
  key at the moment it is acquired.
-/
theorem fresh_at_acquire
    (hEmpty : EmptyRoot root store)
    (h :
      Core.Reach (server (commandsStayHome root))
        (freshSteps root jobs)
        (serverStart root jobs store) p)
    {i : Nat}
    {key : Str}
    {env : Env}
    (hCalls : p.Calls i (.acquire key))
    (hStep : FreshStep root jobs p i)
    (hOk :
      (exec i (.acquire key) env p.shared).1.isOk = true) :
    ∀ q data, subdirLoc root key <+: q →
      ¬ p.shared.store.HasFile q data := by
  intro q data hTree hFile
  have hPre := reach_calls h hCalls
  unfold jobPre at hPre
  cases hJob : jobs i with
  | update request =>
      rw [hJob] at hPre
      exact absurd hPre.2 id
  | submission messages =>
      rw [hJob] at hPre
      rcases hPre.2 with ⟨hUnheld, _, hBelow⟩
      have hUnlocked : (p.shared.guards i).locked = false := by
        have hGuard : p.shared.guards i = .init :=
          hUnheld.guard
        rw [hGuard]
        rfl
      have hFree : key ∉ p.shared.lockedSubdirs := by
        rcases (p.shared.guards i).acquire_cases
            p.shared.lockedSubdirs key with
          ⟨_, hLocked, _⟩ | ⟨_, _, _, hFree, _⟩ | ⟨hFailed, _⟩
        · rw [hUnlocked] at hLocked
          cases hLocked
        · exact hFree
        · rw [show (exec i (.acquire key) env p.shared).1 =
            ((p.shared.guards i).acquire
              p.shared.lockedSubdirs key).1 from rfl,
            hFailed] at hOk
          cases hOk
      have hRoot : root.path.names <+: q := by
        rw [subdirLoc_eq] at hTree
        exact hBelow.names.trans hTree
      rcases reach_filesCovered hEmpty h q data hRoot hFile
        with ⟨j, hLive, hCovers⟩
      exact
        hStep.acquires key hCalls hFree j hLive
          (Loc.overlaps_of_prefix hTree hCovers)

/- The small disk has no files. -/
theorem smallStore_emptyRoot :
    EmptyRoot smallRoot smallStore := by
  intro q data _ hFile
  unfold Store.HasFile smallStore at hFile
  simp only at hFile
  split at hFile <;> cases hFile

/-
  A submission takes admitted steps while it is the only one
  that can hold a key.
-/
theorem freshSteps_of_others
    {root : WorkspaceRoot}
    {jobs : Nat → Job}
    {store : Store}
    {p : ServerPool}
    {i : Nat}
    {messages : List TaskRequest}
    (hJob : jobs i = .submission messages)
    (h :
      Core.Reach (server (commandsStayHome root))
        (freshSteps root jobs) (serverStart root jobs store) p)
    (hOthers :
      ∀ j, j ≠ i → (p.shared.guards j).locked = false) :
    freshSteps root jobs p i Env.granting := by
  refine ⟨fun _ _ => rfl, ?_, ?_⟩
  · intro key hCalls _ j hLive
    have hLocked : (p.shared.guards j).locked = true := hLive.1
    by_cases hSame : j = i
    · have hPre := reach_calls h hCalls
      unfold jobPre at hPre
      rw [hJob] at hPre
      have hGuard : p.shared.guards i = .init :=
        hPre.2.1.guard
      rw [hSame, hGuard] at hLocked
      cases hLocked
    · rw [hOthers j hSame] at hLocked
      cases hLocked
  · intro request q hUpdate
    rw [hJob] at hUpdate
    cases hUpdate

/- Two submissions under one key; the first uploads `f`. -/
def successiveJobs (i : Nat) : Job :=
  .submission
    (.config (smallConfig "k") ::
      if i = 0 then [.fileChunk (smallChunk "f")] else [])

/- The first submission alone. -/
def firstRun (n : Nat) : ServerPool :=
  smallRun successiveJobs (steps n 0)

/- The second one after it. -/
def secondRun (n : Nat) : ServerPool :=
  smallRun successiveJobs (steps 50 0 ++ steps n 1)

theorem reach_firstRun (n : Nat) :
    Core.Reach (server (commandsStayHome smallRoot))
      (freshSteps smallRoot successiveJobs)
      (serverStart smallRoot successiveJobs smallStore)
      (firstRun n) := by
  induction n with
  | zero => exact .start
  | succ n ih =>
      have hStep :
          firstRun (n + 1) =
            (firstRun n).step (server anyCommands) 0
              Env.granting := by
        unfold firstRun smallRun steps
        rw [List.replicate_succ', Core.runSchedule_append]
        rfl
      rw [hStep]
      refine
        Core.reach_step (fun _ _ _ => trivial)
          (freshSteps_of_others rfl ih ?_) ih
      intro j hNe
      have hGuard : (firstRun n).shared.guards j = .init := by
        apply guards_runSchedule
        intro e hMem
        rw [List.eq_of_mem_replicate hMem]
        exact Ne.symm hNe
      rw [hGuard]
      rfl

theorem reach_secondRun (n : Nat) :
    Core.Reach (server (commandsStayHome smallRoot))
        (freshSteps smallRoot successiveJobs)
        (serverStart smallRoot successiveJobs smallStore)
        (secondRun n) ∧
      freshSteps smallRoot successiveJobs (secondRun n) 1
        Env.granting := by
  have hOthers :
      ∀ n j, j ≠ 1 →
        ((secondRun n).shared.guards j).locked = false := by
    intro n j hNe
    have hKept :
        (secondRun n).shared.guards j =
          (firstRun 50).shared.guards j := by
      unfold secondRun firstRun smallRun
      rw [Core.runSchedule_append]
      apply guards_runSchedule
      intro e hMem
      rw [List.eq_of_mem_replicate hMem]
      exact Ne.symm hNe
    rw [hKept]
    by_cases hZero : j = 0
    · -- the first submission has given its key back
      rw [hZero]
      decide +kernel
    · have hGuard : (firstRun 50).shared.guards j = .init := by
        apply guards_runSchedule
        intro e hMem
        rw [List.eq_of_mem_replicate hMem]
        exact Ne.symm hZero
      rw [hGuard]
      rfl
  have hReach :
      Core.Reach (server (commandsStayHome smallRoot))
        (freshSteps smallRoot successiveJobs)
        (serverStart smallRoot successiveJobs smallStore)
        (secondRun n) := by
    induction n with
    | zero =>
        have hStart : secondRun 0 = firstRun 50 := by
          unfold secondRun firstRun
          rw [show steps 0 1 = [] from rfl, List.append_nil]
        rw [hStart]
        exact reach_firstRun 50
    | succ n ih =>
        have hStep :
            secondRun (n + 1) =
              (secondRun n).step (server anyCommands) 1
                Env.granting := by
          have hSteps :
              steps (n + 1) 1 =
                steps n 1 ++ [(1, Env.granting)] :=
            List.replicate_succ'
          unfold secondRun smallRun
          rw [hSteps, ← List.append_assoc,
            Core.runSchedule_append]
          rfl
        rw [hStep]
        exact
          Core.reach_step (fun _ _ _ => trivial)
            (freshSteps_of_others rfl ih (hOthers n)) ih
  exact ⟨hReach, freshSteps_of_others rfl hReach (hOthers n)⟩

/- The file that the first submission uploads. -/
def firstFile : Loc :=
  (Path.ofString "/workspace/k/f".toList).loc

/- The second submission does not find the first one's file. -/
theorem fresh_at_acquire_second :
    (firstRun 14).shared.store.HasFile firstFile [65] ∧
      ∀ data,
        ¬ (secondRun 7).shared.store.HasFile firstFile
          data := by
  refine ⟨by unfold Store.HasFile; decide +kernel, ?_⟩
  rcases reach_secondRun 7 with ⟨hReach, hSteps⟩
  have hCalls :
      (secondRun 7).Calls 1 (.acquire "k".toList) := by
    rw [Core.Pool.calls_iff]
    decide +kernel
  have hOk :
      (exec 1 (.acquire "k".toList) Env.granting
        (secondRun 7).shared).1.isOk = true := by
    decide +kernel
  intro data
  exact
    fresh_at_acquire smallStore_emptyRoot hReach hCalls
      hSteps.2 hOk _ data (by decide +kernel)

/-
  An update of a subdirectory without a task, and then a
  submission that acquires it.
-/
def staleJobs (i : Nat) : Job :=
  if i = 0 then
    .update
      { workspaceSubdir := "k".toList, utilization := 50 }
  else
    .submission [.config (smallConfig "k")]

def staleRun : ServerPool :=
  smallRun staleJobs (steps 6 0 ++ steps 7 1)

/- The file the update has left. -/
def staleLoc : Loc :=
  (Path.ofString "/workspace/k/.drex_utilization".toList).loc

theorem stale_at_acquire :
    ¬ ∀ p : ServerPool,
        Core.Reach (server (commandsStayHome smallRoot))
            removalsSucceed
            (serverStart smallRoot staleJobs smallStore) p →
          ∀ i key env, p.Calls i (.acquire key) →
            (exec i (.acquire key) env p.shared).1.isOk =
                true →
              ∀ q data, subdirLoc smallRoot key <+: q →
                ¬ p.shared.store.HasFile q data := by
  intro hFresh
  have hReach :
      Core.Reach (server (commandsStayHome smallRoot))
        removalsSucceed
        (serverStart smallRoot staleJobs smallStore)
        staleRun := by
    apply reach_smallRun_of
    intro q i env hMem r _
    rcases List.mem_append.mp hMem with hMem | hMem
    · cases List.eq_of_mem_replicate hMem
      rfl
    · cases List.eq_of_mem_replicate hMem
      rfl
  have hCalls : staleRun.Calls 1 (.acquire "k".toList) := by
    rw [Core.Pool.calls_iff]
    decide +kernel
  refine
    hFresh staleRun hReach 1 "k".toList Env.granting hCalls
      (by decide +kernel) staleLoc (utilizationText 50)
      (by decide +kernel) ?_
  unfold Store.HasFile
  decide +kernel

end Drex
