import Drex.Server.Protocol.Submission

/-
  The table of locked subdirectories and the guards agree in
  every reachable state of the server.

  Key definitions include:
    * `TableSound`

  Key theorems include:
    * `tableSound_exec`
    * `reach_tableSound`
    * `reach_sound`
    * `lockTable_invariant`
-/

------------------------------------------------------------
-- One Step Of The Table
------------------------------------------------------------

namespace Drex

/- The table holds the keys of the locking guards. -/
structure TableSound (s : ServerState) : Prop where
  keys :
    ∀ key, key ∈ s.lockedSubdirs ↔
      ∃ i, (s.guards i).locked = true ∧
        (s.guards i).key = key
  unique :
    ∀ i j, (s.guards i).locked = true →
      (s.guards j).locked = true →
        (s.guards i).key = (s.guards j).key → i = j

theorem tableSound_init (store : Store) :
    TableSound (.init store) where
  keys := by
    intro key
    simp [ServerState.init, WorkspaceLockGuard.init]
  unique := by
    intro i j hi
    simp [ServerState.init, WorkspaceLockGuard.init] at hi

/- Other fields of a guard do not matter to the table. -/
theorem TableSound.of_same
    {s s' : ServerState}
    (h : TableSound s)
    (hTable : s'.lockedSubdirs = s.lockedSubdirs)
    (hGuards :
      ∀ i, (s'.guards i).locked = (s.guards i).locked ∧
        (s'.guards i).key = (s.guards i).key) :
    TableSound s' where
  keys := by
    intro key
    rw [hTable, h.keys key]
    simp only [(hGuards _).1, (hGuards _).2]
  unique := by
    intro i j hi hj hKeys
    rw [(hGuards i).1] at hi
    rw [(hGuards j).1] at hj
    rw [(hGuards i).2, (hGuards j).2] at hKeys
    exact h.unique i j hi hj hKeys

/- A free key enters the table with the guard that locks. -/
theorem TableSound.locked
    {s s' : ServerState}
    {i : Nat}
    {key : Str}
    (h : TableSound s)
    (hFree : key ∉ s.lockedSubdirs)
    (hUnlocked : (s.guards i).locked = false)
    (hTable : s'.lockedSubdirs = insert key s.lockedSubdirs)
    (hSelf :
      (s'.guards i).locked = true ∧ (s'.guards i).key = key)
    (hOther : ∀ j, j ≠ i → s'.guards j = s.guards j) :
    TableSound s' := by
  have hNoHolder :
      ∀ j, (s.guards j).locked = true →
        (s.guards j).key ≠ key := by
    intro j hj hKey
    exact hFree ((h.keys key).mpr ⟨j, hj, hKey⟩)
  refine ⟨?_, ?_⟩
  · intro key'
    rw [hTable, Finset.mem_insert, h.keys key']
    constructor
    · rintro (rfl | ⟨j, hj, hKey⟩)
      · exact ⟨i, hSelf⟩
      · have hNe : j ≠ i := by
          rintro rfl
          rw [hUnlocked] at hj
          cases hj
        exact ⟨j, by rw [hOther j hNe]; exact ⟨hj, hKey⟩⟩
    · rintro ⟨j, hj, hKey⟩
      by_cases hEq : j = i
      · subst hEq
        exact Or.inl (hKey.symm.trans hSelf.2)
      · rw [hOther j hEq] at hj hKey
        exact Or.inr ⟨j, hj, hKey⟩
  · intro a b ha hb hKeys
    by_cases hA : a = i
    · by_cases hB : b = i
      · rw [hA, hB]
      · subst hA
        rw [hOther b hB] at hb hKeys
        exact absurd (hKeys.symm.trans hSelf.2)
          (hNoHolder b hb)
    · rw [hOther a hA] at ha hKeys
      by_cases hB : b = i
      · subst hB
        exact absurd (hKeys.trans hSelf.2)
          (hNoHolder a ha)
      · rw [hOther b hB] at hb hKeys
        exact h.unique a b ha hb hKeys

/- A released key leaves the table with its guard. -/
theorem TableSound.released
    {s s' : ServerState}
    {i : Nat}
    (h : TableSound s)
    (hLocked : (s.guards i).locked = true)
    (hTable :
      s'.lockedSubdirs =
        s.lockedSubdirs.erase (s.guards i).key)
    (hSelf : (s'.guards i).locked = false)
    (hOther : ∀ j, j ≠ i → s'.guards j = s.guards j) :
    TableSound s' := by
  have hNe :
      ∀ j, (s'.guards j).locked = true → j ≠ i := by
    rintro j hj rfl
    rw [hSelf] at hj
    cases hj
  refine ⟨?_, ?_⟩
  · intro key
    rw [hTable, Finset.mem_erase, h.keys key]
    constructor
    · rintro ⟨hKey, j, hj, hEq⟩
      have hji : j ≠ i := by
        rintro rfl
        exact hKey hEq.symm
      exact ⟨j, by rw [hOther j hji]; exact ⟨hj, hEq⟩⟩
    · rintro ⟨j, hj, hEq⟩
      have hji := hNe j hj
      rw [hOther j hji] at hj hEq
      refine ⟨?_, j, hj, hEq⟩
      intro hKey
      exact hji (h.unique j i hj hLocked
        (hEq.trans hKey))
  · intro a b ha hb hKeys
    have hA := hNe a ha
    have hB := hNe b hb
    rw [hOther a hA] at ha hKeys
    rw [hOther b hB] at hb hKeys
    exact h.unique a b ha hb hKeys

/- Every operation of every handler keeps the table sound. -/
theorem tableSound_exec
    {s : ServerState}
    (i : Nat)
    (op : ServerOp)
    (env : Env)
    (h : TableSound s) :
    TableSound (exec i op env s).2 := by
  cases op with
  | acquire subdirKey =>
      rcases (s.guards i).acquire_cases
          s.lockedSubdirs subdirKey with
        ⟨_, _, _, hRest⟩ |
        ⟨_, hUnlocked, _, hFree, hRest⟩ |
        ⟨_, hRest⟩
      · apply h.of_same <;>
          simp [exec, hRest, ServerState.setGuard]
      · apply h.locked hFree hUnlocked
        · simp [exec, hRest]
        · simp [exec, hRest, ServerState.setGuard]
        · intro j hNe
          simp [exec, ServerState.setGuard, hNe]
      · apply h.of_same <;>
          simp [exec, hRest, ServerState.setGuard]
  | release =>
      rcases (s.guards i).release_cases s.lockedSubdirs with
        ⟨hLocked, hRest⟩ | ⟨_, hRest⟩
      · apply h.released hLocked
        · simp [exec, hRest]
        · simp [exec, hRest, ServerState.setGuard]
        · intro j hNe
          simp [exec, ServerState.setGuard, hNe]
      · apply h.of_same <;>
          simp [exec, hRest, ServerState.setGuard]
  | registerCleanupTargets workspaceSubdir outputSubdir =>
      apply h.of_same
      · rfl
      · intro j
        by_cases hEq : j = i
        · subst hEq
          simp [exec, ServerState.setGuard,
            WorkspaceLockGuard.registerCleanupTargets]
        · simp [exec, ServerState.setGuard, hEq]
  | clearCleanup =>
      apply h.of_same
      · rfl
      · intro j
        by_cases hEq : j = i
        · subst hEq
          simp [exec, ServerState.setGuard,
            WorkspaceLockGuard.clearCleanup]
        · simp [exec, ServerState.setGuard, hEq]
  | _ => exact h.of_same rfl (fun _ => ⟨rfl, rfl⟩)

end Drex

------------------------------------------------------------
-- Every Reachable State
------------------------------------------------------------

namespace Drex

variable {root : WorkspaceRoot} {jobs : Nat → Job}
variable {store : Store}
variable {commands : ServerState → Store → Prop}
variable {admits : ServerPool → Nat → Env → Prop}
variable {p : ServerPool}

theorem reach_tableSound
    (h :
      Core.Reach (server commands) admits
        (serverStart root jobs store) p) :
    TableSound p.shared := by
  induction h with
  | start => exact tableSound_init store
  | step hReach hOp hReady hAdmits ih =>
      exact tableSound_exec _ _ _ ih
  | ambient hReach hAmbient ih =>
      rcases hAmbient with ⟨store', _, rfl⟩
      exact ih.of_same rfl (fun _ => ⟨rfl, rfl⟩)

/- What a handler sees is sound in every reachable state. -/
theorem reach_sound
    (h :
      Core.Reach (server commands) admits
        (serverStart root jobs store) p)
    (i : Nat) :
    (viewOf p i).Sound := by
  have hWp := reach_handler h i
  cases hProg : p.progs i with
  | ret status =>
      rw [hProg] at hWp
      exact SessionView.Closed.sound hWp
  | call op next =>
      have hPre := reach_calls h ⟨next, hProg⟩
      unfold jobPre at hPre
      cases hJob : jobs i with
      | submission messages =>
          rw [hJob] at hPre
          exact hPre.1
      | update request =>
          rw [hJob] at hPre
          rw [hPre.1]
          exact SessionView.init_unheld.sound

theorem refused_of_did
    {i : Nat}
    {key : Str}
    {status : Status}
    (h : p.Did i (.acquire key) status)
    (hFailed : status.isOk = false) :
    (viewOf p i).refused = true := by
  unfold viewOf
  rw [List.any_eq_true]
  exact ⟨_, mem_eventsOf.mpr h, by
    simp [ServerEvent.isRefusal, hFailed]⟩

theorem removed_of_did
    {i : Nat}
    {q : Path}
    {ok : Bool}
    (h : p.Did i (.removeAll q) ok) :
    q ∈ (viewOf p i).removed := by
  unfold viewOf
  rw [List.mem_filterMap]
  exact ⟨_, mem_eventsOf.mpr h, rfl⟩

theorem released_of_did
    {i : Nat}
    {key : Str}
    (h : p.Did i .release (some key)) :
    (viewOf p i).released = true := by
  unfold viewOf
  rw [List.any_eq_true]
  exact ⟨_, mem_eventsOf.mpr h, rfl⟩

/-
  The table is the set of the held keys, a key has one
  holder, a refused submission removes and releases nothing,
  a removal runs under the lock, and a handler that returned
  holds no key.
-/
theorem lockTable_invariant
    (h :
      Core.Reach (server anyCommands) anyStep
        (serverStart root jobs store) p) :
    (∀ key, key ∈ p.shared.lockedSubdirs ↔
      ∃ i, (p.shared.guards i).locked = true ∧
        (p.shared.guards i).key = key) ∧
    (∀ i j, (p.shared.guards i).locked = true →
      (p.shared.guards j).locked = true →
        (p.shared.guards i).key = (p.shared.guards j).key →
          i = j) ∧
    (∀ i key status, p.Did i (.acquire key) status →
      status.isOk = false →
        (∀ q ok, ¬ p.Did i (.removeAll q) ok) ∧
          ∀ erased, ¬ p.Did i .release (some erased)) ∧
    (∀ i q, p.Calls i (.removeAll q) →
      (p.shared.guards i).locked = true ∧
        (p.shared.guards i).key ∈ p.shared.lockedSubdirs) ∧
    (∀ i status, p.progs i = .ret status →
      (p.shared.guards i).locked = false) := by
  have hTable := reach_tableSound h
  refine ⟨hTable.keys, hTable.unique, ?_, ?_, ?_⟩
  · intro i key status hDid hFailed
    rcases (reach_sound h i).refused
        (refused_of_did hDid hFailed) with
      ⟨_, hRemoved, hReleased⟩
    refine ⟨?_, ?_⟩
    · intro q ok hRemoval
      have hMem := removed_of_did hRemoval
      rw [hRemoved] at hMem
      cases hMem
    · intro erased hErased
      rw [released_of_did hErased] at hReleased
      cases hReleased
  · intro i q hCalls
    have hPre := reach_calls h hCalls
    unfold jobPre at hPre
    have hLocked : (p.shared.guards i).locked = true := by
      cases hJob : jobs i with
      | submission messages =>
          rw [hJob] at hPre
          exact hPre.2.1
      | update request =>
          rw [hJob] at hPre
          exact absurd hPre.2 (by simp)
    exact ⟨hLocked, (hTable.keys _).mpr ⟨i, hLocked, rfl⟩⟩
  · intro i status hRet
    have hWp := reach_handler h i
    rw [hRet] at hWp
    exact SessionView.Closed.unlocked hWp

/- Two submissions that ask for one subdirectory. -/
def twoSubmissions : ServerPool :=
  smallRun
    (fun _ => .submission [.config (smallConfig "a")])
    (steps 8 0 ++ steps 8 1)

theorem lockTable_invariant_twoSubmissions :
    "a".toList ∈ twoSubmissions.shared.lockedSubdirs ∧
      (twoSubmissions.shared.guards 1).locked = false := by
  have hReach :
      Core.Reach (server anyCommands) anyStep
        (serverStart smallRoot _ smallStore)
        twoSubmissions :=
    reach_smallRun _ _
  have hTable := (lockTable_invariant hReach).1 "a".toList
  exact
    ⟨hTable.mpr ⟨0, by decide +kernel, by decide +kernel⟩,
      by decide +kernel⟩

end Drex
