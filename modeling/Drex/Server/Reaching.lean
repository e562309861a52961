import Drex.Server.Updating

/-
  An update that names a running task as its submission did
  writes the utilization file of the task's workspace, and
  finds the task where the name is spelled as the key.

  Key definitions include:
    * `RunningAs`
    * `LiveTask`

  Key theorems include:
    * `produces_update_live`
    * `update_reaches_task`
-/

------------------------------------------------------------
-- Updates Of A Live Task
------------------------------------------------------------

namespace Drex

open Drex.Core.Prog

/-
  The answers an update gets while a task is live: no scan
  of `/proc` throws, some process listed for the group of the
  task is hintable, and no call for the file fails.
-/
def LiveTask
    (table : GroupTable)
    (group : Pid)
    (hintable : Pid → Prop)
    (op : ServerOp)
    (r : Resp op) : Prop :=
  match op, r with
  | .findTaskProcessGroup subdir, found =>
      found = table subdir
  | .findPidsInProcessGroup pgid, listed =>
      ∃ pids, listed = some pids ∧
        (pgid = group → ∃ pid ∈ pids, hintable pid)
  | .exists _, existence => existence = .found
  | .xcliHint _ pid _, result =>
      hintable pid →
        ∃ status, result = .finished status ∧
          exitedCleanly status = true
  | .weaklyCanonicalRoot, error => error = none
  | .createDirectories _, error => error = none
  | .openTrunc _, ok => ok = true
  | .write _ _ _, ok => ok = true
  | _, _ => True

variable {table : GroupTable} {group : Pid}
variable {hintable : Pid → Prop}

/- A hintable process is hinted without an error. -/
theorem produces_runXcliHint_live
    (pid : Pid)
    (utilization : Int) :
    Produces (LiveTask table group hintable)
      (runXcliHint pid utilization)
      (fun hinted _ =>
        hinted ≠ none ∧
          (hintable pid → hinted = some none)) := by
  unfold runXcliHint
  refine produces_bind produces_getXcliPath ?_
  intro xcli first _
  apply produces_call
  intro xcliFound hFound
  rw [show xcliFound = .found from hFound]
  apply produces_call
  intro result hResult
  cases result with
  | forkFailed =>
      apply produces_call
      intro errno _
      apply produces_pure
      refine ⟨Option.some_ne_none _, ?_⟩
      intro hLive
      rcases hResult hLive with ⟨status, hStatus, _⟩
      cases hStatus
  | waitFailed =>
      apply produces_call
      intro errno _
      apply produces_pure
      refine ⟨Option.some_ne_none _, ?_⟩
      intro hLive
      rcases hResult hLive with ⟨status, hStatus, _⟩
      cases hStatus
  | finished status =>
      simp only []
      by_cases hClean : exitedCleanly status = true
      · rw [if_pos hClean]
        apply produces_pure
        exact ⟨Option.some_ne_none _, fun _ => rfl⟩
      · rw [if_neg hClean]
        apply produces_pure
        refine ⟨Option.some_ne_none _, ?_⟩
        intro hLive
        rcases hResult hLive with ⟨status', hStatus, hOk⟩
        cases hStatus
        exact absurd hOk hClean

/- The loop lists a process if one of them is hintable. -/
theorem produces_hintAll_live
    (utilization : Int)
    (pids updated : List Pid)
    (lastError : Str) :
    Produces (LiveTask table group hintable)
      (hintAll utilization pids updated lastError)
      (fun hinted _ =>
        ∃ listed error, hinted = some (listed, error) ∧
          updated <+: listed ∧
            ((∃ pid ∈ pids, hintable pid) →
              listed ≠ [])) := by
  induction pids generalizing updated lastError with
  | nil =>
      apply produces_pure
      refine ⟨updated, lastError, rfl, List.prefix_rfl, ?_⟩
      rintro ⟨pid, hMem, _⟩
      cases hMem
  | cons pid pids ih =>
      unfold hintAll
      refine
        produces_bind
          (produces_runXcliHint_live pid utilization) ?_
      rintro hinted first ⟨hSome, hLive⟩
      rcases hinted with _ | _ | error
      · exact absurd rfl hSome
      · refine produces_mono ?_ (ih (updated ++ [pid]) _)
        rintro hinted second ⟨listed, error, hEq, hPrefix, _⟩
        refine ⟨listed, error, hEq, ?_, ?_⟩
        · exact (List.prefix_append _ _).trans hPrefix
        · intro _ hNil
          rw [hNil, List.prefix_nil] at hPrefix
          exact absurd hPrefix (by simp)
      · refine produces_mono ?_ (ih updated error)
        rintro hinted second
          ⟨listed, error', hEq, hPrefix, hListed⟩
        refine ⟨listed, error', hEq, hPrefix, ?_⟩
        rintro ⟨pid', hMem, hHintable⟩
        rcases List.mem_cons.mp hMem with hHead | hTail
        · rw [hHead] at hHintable
          cases hLive hHintable
        · exact hListed ⟨pid', hTail, hHintable⟩

/- The file of the workspace is opened and written. -/
def WritesUtilization
    (file : Path)
    (utilization : Int)
    (trace : List ServerEvent) : Prop :=
  (⟨.openTrunc file, true⟩ : ServerEvent) ∈ trace ∧
    (⟨.write file 0 (utilizationText utilization), true⟩ :
      ServerEvent) ∈ trace

theorem produces_file_live
    {root : WorkspaceRoot}
    {workspaceSubdir : Str}
    {utilization : Int}
    (hNonempty : workspaceSubdir ≠ [])
    (hRange : 0 ≤ utilization ∧ utilization ≤ 100)
    (hBelow :
      isSubPath root.path
        (subdirPath root workspaceSubdir) = true) :
    Produces (LiveTask table group hintable)
      (writeRuntimeUtilizationFile root
        workspaceSubdir utilization)
      (fun error trace =>
        error = none ∧
          WritesUtilization
            (runtimeUtilizationPath
              (subdirPath root workspaceSubdir))
            utilization trace) := by
  have hValid :
      ¬ (utilization < 0 ∨ 100 < utilization) := by
    omega
  unfold writeRuntimeUtilizationFile
  simp only [hNonempty, hValid, if_false]
  apply produces_call
  intro rootError hRoot
  rw [show rootError = none from hRoot]
  simp only [hBelow, Bool.true_eq_false, if_false]
  apply produces_call
  intro dirError hDir
  rw [show dirError = none from hDir]
  apply produces_call
  intro isOpen hOpen
  rw [show isOpen = true from hOpen]
  simp only [if_true]
  apply produces_call
  intro good hGood
  rw [show good = true from hGood]
  apply produces_call
  intro _ _
  simp only [if_true]
  apply produces_pure
  refine ⟨rfl, ?_, ?_⟩
  · simp
  · simp

/-
  While a task is live an update of any workspace returns
  from its hints, and has hinted a process where the table
  has the task under the name of the workspace.
-/
theorem produces_hints_live
    {workspaceSubdir : Str}
    {utilization : Int}
    (hNonempty : workspaceSubdir ≠ [])
    (hRange : 0 ≤ utilization ∧ utilization ≤ 100) :
    Produces (LiveTask table group hintable)
      (updateTaskProcessUtilization
        workspaceSubdir utilization)
      (fun updated _ =>
        ∃ result, updated = some result ∧
          (table workspaceSubdir = some group →
            result.success = true ∧ result.pids ≠ [])) := by
  have hValid :
      ¬ (utilization < 0 ∨ 100 < utilization) := by
    omega
  unfold updateTaskProcessUtilization
  simp only [hNonempty, hValid, if_false]
  apply produces_call
  intro found hLookup
  rw [show found = table workspaceSubdir from hLookup]
  cases hFound : table workspaceSubdir with
  | none =>
      apply produces_pure
      refine ⟨_, rfl, ?_⟩
      intro hGroup
      cases hGroup
  | some pgid =>
      simp only []
      apply produces_call
      intro listed hListed
      rcases hListed with ⟨pids, hPids, hLive⟩
      rw [hPids]
      cases pids with
      | nil =>
          apply produces_pure
          refine ⟨_, rfl, ?_⟩
          intro hGroup
          rcases hLive (Option.some.inj hGroup) with
            ⟨pid, hMem, _⟩
          cases hMem
      | cons first rest =>
          refine
            produces_bind
              (produces_hintAll_live _ _ _ _) ?_
          rintro hinted trace ⟨done, error, hEq, _, hDone⟩
          rw [hEq]
          simp only []
          by_cases hNone : done = []
          · rw [if_pos hNone]
            apply produces_pure
            refine ⟨_, rfl, ?_⟩
            intro hGroup
            exact
              absurd hNone
                (hDone (hLive (Option.some.inj hGroup)))
          · rw [if_neg hNone]
            apply produces_pure
            exact ⟨_, rfl, fun _ => ⟨rfl, hNone⟩⟩

/-
  While a task is live an update of a workspace writes its
  file, and is a success that lists a process where the
  table has the task under the name of the workspace.
-/
theorem produces_update_live
    {root : WorkspaceRoot}
    {request : UpdateUtilizationRequest}
    (hNonempty : request.workspaceSubdir ≠ [])
    (hRange :
      0 ≤ request.utilization ∧ request.utilization ≤ 100)
    (hBelow :
      isSubPath root.path
        (subdirPath root request.workspaceSubdir) = true) :
    Produces (LiveTask table group hintable)
      (updateUtilization root request)
      (fun reply trace =>
        WritesUtilization (request.file root)
            request.utilization trace ∧
          (table request.workspaceSubdir = some group →
            reply.1 = Status.success ∧
              ∃ response, reply.2 = some response ∧
                response.success = true ∧
                  response.pids ≠ [])) := by
  unfold updateUtilization
  refine
    produces_bind
      (produces_hints_live hNonempty hRange) ?_
  rintro updated first ⟨result, hEq, hHinted⟩
  rw [hEq]
  refine
    produces_bind
      (produces_file_live hNonempty hRange hBelow) ?_
  rintro fileError second ⟨hNone, hOpened, hWritten⟩
  apply produces_pure
  rw [hNone, List.append_nil]
  refine ⟨⟨?_, ?_⟩, ?_⟩
  · exact List.mem_append_right _ hOpened
  · exact List.mem_append_right _ hWritten
  · intro hFound
    rcases hHinted hFound with ⟨hSuccess, hPids⟩
    have hReply :
        updateReply result none =
          (Status.success,
            (updateReply result none).2) := by
      unfold updateReply
      rw [if_neg (by rw [hSuccess]; decide)]
    refine
      ⟨congrArg Prod.fst hReply, _, rfl, ?_, ?_⟩
    · unfold updateReply
      rw [if_neg (by rw [hSuccess]; decide)]
      exact hSuccess
    · rw [(updateReply_cases result none).1]
      exact hPids

end Drex

------------------------------------------------------------
-- An Update Of A Running Task
------------------------------------------------------------

namespace Drex

variable {root : WorkspaceRoot} {jobs : Nat → Job}
variable {store : Store}
variable {p : ServerPool}

/-
  The submission of this config was accepted, its session
  follows its command, and the subdirectory is a name that
  the system reads whole.
-/
structure RunningAs
    (root : WorkspaceRoot)
    (jobs : Nat → Job)
    (p : ServerPool)
    (i : Nat)
    (config : TaskConfig) : Prop where
  submitted :
    ∃ messages,
      jobs i = .submission (.config config :: messages)
  accepted : staysInRoot root config = true
  running : BetweenSteps p i
  followed : Followed p i
  nulFree : NulFree config.workspaceSubdir

/- A session that runs its command has an active entry. -/
theorem RunningAs.active
    {i : Nat}
    {config : TaskConfig}
    (h : RunningAs root jobs p i config)
    (hStaged : Staged p) :
    ∃ key pid, Active p i key pid := by
  rcases h.running with ⟨⟨key, pid, hDid⟩, hNone⟩
  have hThrown := (followed_iff p i).mp h.followed
  rw [did_register_iff] at hDid
  simp only [did_unregister_iff] at hNone
  have hStage := hStaged.stage i
  unfold Active
  generalize registryOf p i = view at *
  cases hStage with
  | before => cases hDid
  | started pid' => cases hDid
  | between pid' hLocked hKey hNonempty =>
      exact ⟨_, pid', rfl⟩
  | closed key' pid' =>
      exact
        absurd (List.mem_singleton_self _)
          (hNone key' pid')
  | abandoned key' pid' => cases hThrown

/-
  An update with the string a running task was submitted
  with writes the file of the task's workspace, and where
  the string is spelled as the task's key it finds the task
  and succeeds while some process of it is hintable.
-/
theorem update_reaches_task
    (h :
      Core.Reach (server anyCommands) positivePids
        (serverStart root jobs store) p)
    {i : Nat}
    {config : TaskConfig}
    (hTask : RunningAs root jobs p i config)
    (_hNul : NulFree config.workspaceSubdir)
    (hNonempty : config.workspaceSubdir ≠ [])
    {utilization : Int}
    (hRange : 0 ≤ utilization ∧ utilization ≤ 100)
    (hintable : Pid → Prop) :
    ∃ pid, StartedChild p i pid ∧
      p.shared.workspaceToPgid (p.shared.guards i).key =
          some pid ∧
        Core.Prog.Produces
          (LiveTask p.shared.workspaceToPgid pid hintable)
          (updateUtilization root
            ⟨config.workspaceSubdir, utilization⟩)
          (fun reply trace =>
            WritesUtilization
                (runtimeUtilizationPath
                  (resolvedWorkspacePath root config))
                utilization trace ∧
              ((p.shared.guards i).key =
                  config.workspaceSubdir →
                reply.1 = Status.success ∧
                  ∃ response, reply.2 = some response ∧
                    response.success = true ∧
                      response.pids ≠ [])) := by
  have hStaged := reach_staged h
  have hSound := reach_registrySound h
  rcases hTask.active hStaged with ⟨key, pid, hActive⟩
  have hKey : (p.shared.guards i).key = key :=
    ((hStaged.stage i).of_between hActive).2.1
  have hEntry := hSound.active i key pid hActive
  have hPath :
      subdirPath root config.workspaceSubdir =
        resolvedWorkspacePath root config := by
    unfold subdirPath resolvedWorkspacePath requestedSubdir
      defaultIfEmpty
    rw [if_neg hNonempty]
  have hBelow :
      isSubPath root.path
        (subdirPath root config.workspaceSubdir) = true := by
    have hBoth := hTask.accepted
    unfold staysInRoot at hBoth
    rw [Bool.and_eq_true, ← hPath] at hBoth
    exact hBoth.1
  refine
    ⟨pid, ((active_iff hStaged i key pid).mp hActive).2.1,
      by rw [hKey, hEntry], ?_⟩
  rw [← hPath]
  refine
    Core.Prog.produces_mono ?_
      (produces_update_live hNonempty hRange hBelow)
  rintro reply trace ⟨hWrites, hFinds⟩
  refine ⟨hWrites, ?_⟩
  intro hSpelled
  apply hFinds
  rw [← hSpelled, hKey, hEntry]

end Drex

------------------------------------------------------------
-- Small Updates
------------------------------------------------------------

namespace Drex

/- A submission and an update that spell one subdirectory. -/
def spelledJobs (spelled : String) : Nat → Job
| 0 => .submission [.config (smallConfig spelled)]
| _ => .update ⟨spelled.toList, 50⟩

/- The update runs while the command does. -/
def spelledPool (spelled : String) : ServerPool :=
  smallRun (spelledJobs spelled) (steps 23 0 ++ steps 10 1)

theorem reach_spelledPool
    (spelled : String) :
    Core.Reach (server anyCommands) positivePids
      (serverStart smallRoot (spelledJobs spelled) smallStore)
      (spelledPool spelled) := by
  apply reach_smallRun_of
  intro q i env hMem
  have hEnv : env = Env.granting := by
    rcases List.mem_append.mp hMem with hFirst | hSecond
    · exact (Prod.ext_iff.mp (List.eq_of_mem_replicate
        hFirst)).2
    · exact (Prod.ext_iff.mp (List.eq_of_mem_replicate
        hSecond)).2
  rw [hEnv]
  exact positivePids_granting q i

theorem runningAs_spelledPool
    {spelled : String}
    {key : Str}
    (hStays :
      staysInRoot smallRoot (smallConfig spelled) = true)
    (hNul : NulFree spelled.toList)
    (hActive : Active (spelledPool spelled) 0 key 100) :
    RunningAs smallRoot (spelledJobs spelled)
      (spelledPool spelled) 0 (smallConfig spelled) := by
  rcases
      (active_iff (reach_staged (reach_spelledPool spelled))
        0 key 100).mp hActive with
    ⟨_, _, hSteps, hFollowed⟩
  exact ⟨⟨[], rfl⟩, hStays, hSteps, hFollowed, hNul⟩

/- The handler has returned this code. -/
def returnedCode
    (p : ServerPool)
    (i : Nat) :
    Option StatusCode :=
  match p.progs i with
  | .ret status => some status.code
  | .call _ _ => none

/- With another spelling the file is written all the same. -/
theorem update_reaches_task_spelled :
    ∃ pid, StartedChild (spelledPool "./a") 0 pid ∧
      Core.Prog.Produces
        (LiveTask
          (spelledPool "./a").shared.workspaceToPgid pid
          (fun pid => pid = 100))
        (updateUtilization smallRoot ⟨"./a".toList, 50⟩)
        (fun _ trace =>
          WritesUtilization
            (runtimeUtilizationPath
              (resolvedWorkspacePath smallRoot
                (smallConfig "./a")))
            50 trace) := by
  have hActive :
      Active (spelledPool "./a") 0 "a".toList 100 := by
    unfold Active
    decide +kernel
  have hTask :=
    runningAs_spelledPool (by decide) (by decide) hActive
  rcases
      update_reaches_task (reach_spelledPool "./a") hTask
        (by decide) (by decide)
        (show (0 : Int) ≤ 50 ∧ (50 : Int) ≤ 100 by decide)
        (fun pid => pid = 100) with
    ⟨pid, hStarted, _, hProduces⟩
  exact
    ⟨pid, hStarted,
      Core.Prog.produces_mono (fun _ _ h => h.1) hProduces⟩

/-
  The task that was submitted with this string runs, and the
  update with the same string has missed it.
-/
def MissesTask (spelled : String) : Prop :=
  Core.Reach (server anyCommands) positivePids
      (serverStart smallRoot (spelledJobs spelled) smallStore)
      (spelledPool spelled) ∧
    RunningAs smallRoot (spelledJobs spelled)
      (spelledPool spelled) 0 (smallConfig spelled) ∧
    returnedCode (spelledPool spelled) 1 =
      some .failedPrecondition

/- The empty string and another spelling miss their task. -/
theorem spelled_update_misses_task :
    MissesTask "" ∧ MissesTask "./a" := by
  constructor
  · have hActive :
        Active (spelledPool "") 0
          "uploaded_task".toList 100 := by
      unfold Active
      decide +kernel
    exact
      ⟨reach_spelledPool _,
        runningAs_spelledPool (by decide) (by decide) hActive,
        by decide +kernel⟩
  · have hActive :
        Active (spelledPool "./a") 0 "a".toList 100 := by
      unfold Active
      decide +kernel
    exact
      ⟨reach_spelledPool _,
        runningAs_spelledPool (by decide) (by decide) hActive,
        by decide +kernel⟩

end Drex
