import Drex.Server.Stores

/-
  The utilizations that the server hands to a task: in the
  environment of its command, in the utilization file, and in
  the hints of updates.

  The file and the hints are bounded wherever they are
  written.  The variable is only as good as the submitted
  config.

  Key definitions include:
    * `ServerOp.HandsInRange`
    * `UpdatedTask.handing`
    * `UpdatedTask.HintFits`

  Key theorems include:
    * `onlyCalls_updateUtilization_inRange`
    * `TaskExecutor.onlyCalls_childProcess_inRange`
    * `UpdatedTask.not_started_of_empty`
    * `UpdatedTask.inRange_of_reach`
-/

------------------------------------------------------------
-- What Is Handed Out
------------------------------------------------------------

namespace Drex

/- The variable that a task's queues are configured from. -/
def utilizationVariable : String :=
  "XSCHED_AUTO_XQUEUE_UTILIZATION"

def InPercent (utilization : Int) : Prop :=
  0 ≤ utilization ∧ utilization ≤ 100

/-
  A utilization in the variable, the file or a hint is a
  number in [0, 100].  The programs below write no other
  file.
-/
def ServerOp.HandsInRange : ServerOp → Prop
| .setenv name value _ =>
    name = utilizationVariable →
      ∃ u, InPercent u ∧ value = decimal u
| .write _ _ data =>
    ∃ u, InPercent u ∧ data = utilizationText u
| .xcliHint _ _ u => InPercent u
| _ => True

open Drex.Core.Prog

theorem starts_inRange
    (op : ServerOp)
    (hOp : op.Starts) :
    op.HandsInRange := by
  cases op <;> first | exact trivial | exact hOp.elim

/- The other variables carry no utilization. -/
theorem setenv_inRange
    {name : String}
    (value : Str)
    (overwrite : Bool)
    (h : name ≠ utilizationVariable) :
    (ServerOp.setenv name value overwrite).HandsInRange :=
  fun hName => absurd hName h

namespace TaskExecutor

/- The writer of the executor checks its bound. -/
theorem onlyCalls_writeFile_inRange
    (workspaceDir : Path)
    (utilization : Int) :
    OnlyCalls ServerOp.HandsInRange
      (writeRuntimeUtilizationFile workspaceDir
        utilization) := by
  unfold writeRuntimeUtilizationFile
  apply onlyCalls_ite
  · exact fun _ => onlyCalls_pure _
  · intro hRange
    apply onlyCalls_call trivial
    intro isOpen
    apply onlyCalls_ite
    · intro _
      refine
        onlyCalls_call
          ⟨utilization, ⟨by omega, by omega⟩, rfl⟩ ?_
      intro _
      apply onlyCalls_call trivial
      intro _
      exact onlyCalls_pure _
    · exact fun _ => onlyCalls_pure _

theorem onlyCalls_configure_inRange
    (config : TaskConfig)
    (workspaceDir : Path) :
    OnlyCalls ServerOp.HandsInRange
      (configureDrexRuntimeEnvironment config
        workspaceDir) := by
  unfold configureDrexRuntimeEnvironment
  refine onlyCalls_call (setenv_inRange _ _ (by decide)) ?_
  intro _
  apply onlyCalls_ite
  · exact fun _ => onlyCalls_writeFile_inRange _ _
  · exact fun _ => onlyCalls_pure _

/- The parent hands out what its writer lets through. -/
theorem onlyCalls_execute_inRange
    (root : WorkspaceRoot)
    (config : TaskConfig) :
    OnlyCalls ServerOp.HandsInRange
      (execute root config) := by
  unfold execute
  apply onlyCalls_ite
  · exact fun _ => onlyCalls_pure _
  · intro _
    apply onlyCalls_call trivial
    intro dirError
    apply onlyCalls_ite
    · exact fun _ => onlyCalls_pure _
    · intro _
      apply onlyCalls_bind (onlyCalls_configure_inRange _ _)
      intro _
      apply onlyCalls_call trivial
      intro logged
      apply onlyCalls_ite
      · intro _
        apply onlyCalls_bind
          (onlyCalls_mono starts_inRange
            (onlyCalls_runCommand config))
        intro runStatus
        apply onlyCalls_ite
        · intro _
          have hChunk :
              OnlyCalls ServerOp.HandsInRange
                (emitLogChunk
                  "Command finished.\n".toList) := by
            unfold emitLogChunk
            apply onlyCalls_ite
            · exact fun _ => onlyCalls_perform trivial
            · exact fun _ => onlyCalls_pure _
          apply onlyCalls_bind hChunk
          exact fun _ => onlyCalls_pure _
        · exact fun _ => onlyCalls_pure _
      · exact fun _ => onlyCalls_pure _

/- The variable is set to whatever the config has. -/
theorem onlyCalls_xsched_inRange
    {config : TaskConfig}
    (hConfig :
      config.xschedEnabled = true →
        config.xschedUtilization ≤ 100) :
    OnlyCalls ServerOp.HandsInRange
      (configureXSchedEnvironment config) := by
  unfold configureXSchedEnvironment
  apply onlyCalls_ite
  · intro hEnabled
    refine onlyCalls_call (setenv_inRange _ _ (by decide)) ?_
    intro _
    refine onlyCalls_call (setenv_inRange _ _ (by decide)) ?_
    intro _
    apply onlyCalls_call trivial
    intro _
    apply onlyCalls_ite
    · intro hPositive
      refine onlyCalls_perform ?_
      intro _
      exact
        ⟨config.xschedUtilization,
          ⟨hPositive, hConfig hEnabled⟩, rfl⟩
    · exact fun _ => onlyCalls_pure _
  · exact fun _ => onlyCalls_pure _

theorem onlyCalls_childProcess_inRange
    {config : TaskConfig}
    (hConfig :
      config.xschedEnabled = true →
        config.xschedUtilization ≤ 100)
    (root : WorkspaceRoot)
    (wantPty : Bool)
    (execCommand : Str) :
    OnlyCalls ServerOp.HandsInRange
      (childProcess root config wantPty execCommand) := by
  have hChild :
      OnlyCalls ServerOp.HandsInRange
        (configureChildEnvironment wantPty) := by
    unfold configureChildEnvironment
    refine onlyCalls_call (setenv_inRange _ _ (by decide)) ?_
    intro _
    apply onlyCalls_ite
    · intro _
      exact onlyCalls_perform (setenv_inRange _ _ (by decide))
    · exact fun _ => onlyCalls_pure _
  unfold childProcess
  simp only []
  apply onlyCalls_call trivial
  intro _
  apply onlyCalls_bind hChild
  intro _
  apply onlyCalls_bind (onlyCalls_configure_inRange _ _)
  intro _
  apply onlyCalls_bind (onlyCalls_xsched_inRange hConfig)
  intro _
  exact
    onlyCalls_entering _ _ _ trivial trivial trivial trivial

end TaskExecutor

/- The hints of an update are bounded before any is given. -/
theorem onlyCalls_updateTask_inRange
    (workspaceSubdir : Str)
    (utilization : Int) :
    OnlyCalls ServerOp.HandsInRange
      (updateTaskProcessUtilization
        workspaceSubdir utilization) := by
  by_cases hRange : InPercent utilization
  · refine
      onlyCalls_mono ?_ (onlyCalls_updateTask_hintsWith _ _)
    intro op hOp
    cases op with
    | xcliHint xcli pid u =>
        have hSame : u = utilization := hOp
        rw [hSame]
        exact hRange
    | _ => first | exact trivial | exact hOp.elim
  · unfold updateTaskProcessUtilization
    apply onlyCalls_ite
    · exact fun _ => onlyCalls_pure _
    · intro _
      have hOut : utilization < 0 ∨ 100 < utilization := by
        unfold InPercent at hRange
        omega
      rw [if_pos hOut]
      exact onlyCalls_pure _

/- So is the file of an update. -/
theorem onlyCalls_writeRuntime_inRange
    (root : WorkspaceRoot)
    (workspaceSubdir : Str)
    (utilization : Int) :
    OnlyCalls ServerOp.HandsInRange
      (writeRuntimeUtilizationFile root
        workspaceSubdir utilization) := by
  unfold writeRuntimeUtilizationFile
  apply onlyCalls_ite
  · exact fun _ => onlyCalls_pure _
  · intro _
    apply onlyCalls_ite
    · exact fun _ => onlyCalls_pure _
    · intro hRange
      apply onlyCalls_call trivial
      intro rootError
      cases rootError with
      | some message => exact onlyCalls_pure _
      | none =>
          apply onlyCalls_ite
          · exact fun _ => onlyCalls_pure _
          · intro _
            apply onlyCalls_call trivial
            intro dirError
            cases dirError with
            | some message => exact onlyCalls_pure _
            | none =>
                apply onlyCalls_call trivial
                intro isOpen
                apply onlyCalls_ite
                · intro _
                  refine
                    onlyCalls_call
                      ⟨utilization, ⟨by omega, by omega⟩,
                        rfl⟩ ?_
                  intro good
                  apply onlyCalls_call trivial
                  intro _
                  apply onlyCalls_ite
                  · exact fun _ => onlyCalls_pure _
                  · exact fun _ => onlyCalls_pure _
                · exact fun _ => onlyCalls_pure _

/- No update hands out anything else. -/
theorem onlyCalls_updateUtilization_inRange
    (root : WorkspaceRoot)
    (request : UpdateUtilizationRequest) :
    OnlyCalls ServerOp.HandsInRange
      (updateUtilization root request) := by
  unfold updateUtilization
  apply onlyCalls_bind (onlyCalls_updateTask_inRange _ _)
  intro updated
  cases updated with
  | none => exact onlyCalls_pure _
  | some result =>
      apply onlyCalls_bind
        (onlyCalls_writeRuntime_inRange root _ _)
      exact fun _ => onlyCalls_pure _

end Drex

------------------------------------------------------------
-- The Task And Any Updates
------------------------------------------------------------

namespace Drex

open Drex.Core.Prog

namespace UpdatedTask

variable (t : UpdatedTask)

/- The task, beside updates that name any workspace. -/
def handing
    (requests : List UpdateUtilizationRequest) :
    Actor → ServerProg Bool
| .parent => t.program .parent
| .child => t.program .child
| .update j =>
    match requests[j]? with
    | none => return true
    | some request => do
        let reply ← updateUtilization t.root request
        return reply.1.isOk

/- All of them before their first operation. -/
def handingStart
    (requests : List UpdateUtilizationRequest)
    (store : Store) :
    TaskPool :=
  Core.Pool.start (t.handing requests) (ServerState.init store)

/- The config's hint fits where the command is started. -/
def HintFits : Prop :=
  t.config.command ≠ [] → t.config.xschedEnabled = true →
    t.config.xschedUtilization ≤ 100

variable {t}
variable {requests : List UpdateUtilizationRequest}
variable {store : Store} {p : TaskPool}
variable {admits : TaskPool → Actor → Env → Prop}

theorem onlyCalls_parent_inRange
    (requests : List UpdateUtilizationRequest) :
    OnlyCalls ServerOp.HandsInRange
      (t.handing requests .parent) := by
  apply onlyCalls_bind
    (TaskExecutor.onlyCalls_execute_inRange _ _)
  exact fun _ => onlyCalls_pure _

theorem onlyCalls_update_inRange
    (requests : List UpdateUtilizationRequest)
    (j : Nat) :
    OnlyCalls ServerOp.HandsInRange
      (t.handing requests (.update j)) := by
  simp only [handing]
  cases requests[j]? with
  | none => exact onlyCalls_pure _
  | some request =>
      apply onlyCalls_bind
        (onlyCalls_updateUtilization_inRange _ _)
      exact fun _ => onlyCalls_pure _

theorem onlyCalls_child_inRange
    (requests : List UpdateUtilizationRequest)
    (hConfig :
      t.config.xschedEnabled = true →
        t.config.xschedUtilization ≤ 100) :
    OnlyCalls ServerOp.HandsInRange
      (t.handing requests .child) := by
  apply onlyCalls_bind
    (TaskExecutor.onlyCalls_childProcess_inRange hConfig
      _ _ _)
  exact fun _ => onlyCalls_pure _

/- Only the parent's own operations start its task. -/
theorem running_of_other
    {a : Actor}
    (hOther : a ≠ .parent)
    (op : ServerOp)
    (env : Env)
    (s : ServerState) :
    (exec a.handler op env s).2.running
        Actor.parent.handler =
      s.running Actor.parent.handler := by
  have hNe : Actor.parent.handler ≠ a.handler := by
    cases a with
    | parent => exact absurd rfl hOther
    | child => simp [Actor.handler]
    | update j => simp [Actor.handler]
  cases op <;>
    first
      | rfl
      | exact Function.update_of_ne hNe _ _

/- Without a command nothing is started. -/
theorem not_started_of_empty
    (hCommand : t.config.command = [])
    (h :
      Core.Reach t.system admits
        (t.handingStart requests store) p) :
    p.progs .child = t.handing requests .child ∧
      p.shared.running Actor.parent.handler = false ∧
      (∀ j, OnlyCalls ServerOp.HandsInRange
        (p.progs (.update j))) ∧
      ∀ e ∈ p.log, e.2.1.HandsInRange := by
  have hParent :
      ∃ ok, (t.handingStart requests store).progs .parent =
        .ret ok := by
    refine ⟨false, ?_⟩
    change t.program .parent = _
    simp only [program, TaskExecutor.execute, hCommand,
      if_true]
    rfl
  rcases hParent with ⟨ok, hParent⟩
  induction h with
  | start =>
      refine ⟨rfl, rfl, ?_, fun e hMem => by cases hMem⟩
      exact fun j => onlyCalls_update_inRange requests j
  | @step p a op next env hReach hOp hReady hAdmits ih =>
      rcases ih with ⟨hChild, hRunning, hUpdates, hLog⟩
      cases a with
      | parent =>
          have hReturned := hReach.returned hParent
          rw [hReturned] at hOp
          cases hOp
      | child =>
          have hReadyChild :
              p.shared.running Actor.parent.handler = true :=
            hReady
          rw [hRunning] at hReadyChild
          cases hReadyChild
      | update j =>
          have hCall := hUpdates j
          rw [hOp] at hCall
          refine ⟨?_, ?_, ?_, ?_⟩
          · rw [Core.Pool.advance_progs_other _ _ _ _ _
              (by simp)]
            exact hChild
          · have hSame :=
              running_of_other
                (fun hEq => Actor.noConfusion hEq :
                  Actor.update j ≠ .parent) op env p.shared
            exact hSame.trans hRunning
          · intro k
            by_cases hSame : k = j
            · rw [hSame, Core.Pool.advance_progs_same]
              exact hCall.2 _
            · rw [Core.Pool.advance_progs_other _ _ _ _ _
                (by simp [hSame])]
              exact hUpdates k
          · intro e hMem
            rcases List.mem_append.mp hMem with hOld | hNew
            · exact hLog e hOld
            · rw [List.mem_singleton.mp hNew]
              exact hCall.1
  | @ambient p shared hReach hAmbient ih =>
      rcases ih with ⟨hChild, hRunning, hUpdates, hLog⟩
      refine ⟨hChild, ?_, hUpdates, hLog⟩
      exact hAmbient.2.1.trans hRunning

/- Where the hint fits, all that is handed out is bounded. -/
theorem inRange_of_reach
    (hFits : t.HintFits)
    (h :
      Core.Reach t.system admits
        (t.handingStart requests store) p) :
    ∀ e ∈ p.log, e.2.1.HandsInRange := by
  by_cases hCommand : t.config.command = []
  · exact (not_started_of_empty hCommand h).2.2.2
  · refine (h.onlyCalls ?_ ?_).2
    · intro a
      cases a with
      | parent => exact onlyCalls_parent_inRange requests
      | child =>
          exact
            onlyCalls_child_inRange requests (hFits hCommand)
      | update j => exact onlyCalls_update_inRange requests j
    · intro e hMem
      cases hMem

end UpdatedTask

end Drex
