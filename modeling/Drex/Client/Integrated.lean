import Drex.Client.Verdict
import Drex.Proto.ResourceControl
import Drex.Server.Updating

/-
  The integrated client: it reserves resources from the
  controller, submits the task to the node it is given, and
  releases the reservation; or it updates the utilization of
  a running task on the node and at the controller.

  Key definitions include:
    * `IntegratedOp`
    * `applyResourceAndGetAllocation`
    * `updateRunningTaskUtilization`
    * `runIntegratedClient`
    * `GivenBack`
    * `Utilizations`

  Key theorems include:
    * `produces_applyResourceAndGetAllocation`
    * `givenBack_iff`
    * `NodeAnswers.processes`
    * `update_stores`
-/

------------------------------------------------------------
-- Operations
------------------------------------------------------------

namespace Drex

/- The calls a channel to the controller is opened for. -/
inductive ControllerCall
| applyResource
| queryResource
| releaseResource
| updateResource
deriving DecidableEq

/- What the integrated client does outside its process. -/
inductive IntegratedOp
| collectDirectoryFiles (srcDir : Str)
| isRegularFile (localPath : Str)
| fileSize (localPath : Str)
| initChannel (call : ControllerCall) (controllerAddr : Str)
| applyResource (request : ApplyResourceRequest)
| queryResource (taskId : Str)
| releaseResource (taskId : Str)
| updateResource (taskId : Str) (utilization : Int)
| updateUtilization
    (target : Str)
    (request : UpdateUtilizationRequest)
| stream (target : Str) (op : ClientOp)
deriving DecidableEq

/- The answer to each operation. -/
@[reducible] def IntegratedResp : IntegratedOp → Type
-- An exception of the iterator, no files, or the files.
| .collectDirectoryFiles _ =>
    Except Str (Option (List UploadFileSpec))
| .isRegularFile _ => Bool
| .fileSize _ => Option Nat
| .initChannel _ _ => Bool
| .applyResource _ => ControllerReply Str
| .queryResource _ => ControllerReply (List ResourceInfo)
| .releaseResource _ => ControllerReply Unit
| .updateResource _ _ => ControllerReply Unit
| .updateUtilization _ _ =>
    Status × UpdateUtilizationResponse
| .stream _ op => ClientResp op

/- A function of the integrated client. -/
abbrev IntegratedProg :=
  Core.Prog IntegratedOp IntegratedResp

/- Call one operation. -/
abbrev integratedPerform
    (op : IntegratedOp) :
    IntegratedProg (IntegratedResp op) :=
  Core.Prog.perform op

end Drex

------------------------------------------------------------
-- Calls To The Controller
------------------------------------------------------------

namespace Drex

/- The text thrown or printed for a reply, if it failed. -/
def replyError
    {α : Type}
    (what : String)
    (reply : ControllerReply α) :
    Except Str α :=
  match reply with
  | .error errorText => .error (what.toList ++ errorText)
  | .ok response =>
      if response.errcode ≠ 0 then
        .error (what.toList ++ response.errmsg)
      else
        .ok response.answer

/- The reply has a status, and its code is 0. -/
def replyDone (reply : ControllerReply Unit) : Bool :=
  match reply with
  | .error _ => false
  | .ok response =>
      match response.status with
      | none => false
      | some status => decide (status.errcode = 0)

/- `ReleaseResource`. -/
def releaseResource
    (controllerAddr taskId : Str) :
    IntegratedProg Bool := do
  if taskId = [] then
    return true
  else
    let ready ←
      integratedPerform
        (.initChannel .releaseResource controllerAddr)
    if ready = false then
      return false
    else
      let reply ← integratedPerform (.releaseResource taskId)
      return replyDone reply

/- `UpdateResourceUtilization`. -/
def updateResourceUtilization
    (controllerAddr taskId : Str)
    (utilization : Int) :
    IntegratedProg Bool := do
  let ready ←
    integratedPerform
      (.initChannel .updateResource controllerAddr)
  if ready = false then
    return false
  else
    let reply ←
      integratedPerform (.updateResource taskId utilization)
    return replyDone reply

structure ResourceAllocation where
  ip : Str
  port : Int
  cgroupPath : Str
  cpuCores : List Int
deriving DecidableEq

/- `BuildAllocation`. -/
def buildAllocation
    (resource : ResourceInfo) :
    Except Str ResourceAllocation :=
  match resource.node with
  | none => .error "No node information returned.".toList
  | some node =>
      .ok
        { ip := node.ip
          port := node.port
          cgroupPath := resource.cgroupPath.getD []
          cpuCores := resource.cpuCores }

/- What the query's resources allocate. -/
def allocationOf
    (rinfos : List ResourceInfo) :
    Except Str ResourceAllocation :=
  match rinfos with
  | [] => .error "No resource information returned.".toList
  | resource :: _ => buildAllocation resource

/- `QueryResourceAllocation`. -/
def queryResourceAllocation
    (controllerAddr taskId : Str) :
    IntegratedProg (Except Str ResourceAllocation) := do
  let ready ←
    integratedPerform
      (.initChannel .queryResource controllerAddr)
  if ready = false then
    return .error
      "Failed to initialize brpc channel.".toList
  else
    let reply ← integratedPerform (.queryResource taskId)
    return replyError "Query resource failed: " reply >>=
      allocationOf

/- `FormatNodeTarget`. -/
def formatNodeTarget
    (node : ResourceAllocation) :
    Except Str Str :=
  if node.ip = [] then
    .error "Controller returned an empty node IP.".toList
  else
    .ok (node.ip ++ ":".toList ++ decimal node.port)

end Drex

------------------------------------------------------------
-- The Program
------------------------------------------------------------

namespace Drex

/- The options the client reads once they are parsed. -/
structure ProgramOptions where
  controllerAddr : Str
  srcDir : Str
  workspaceSubdir : Str
  command : Str
  resourceType : Str
  resourceCount : Int
  memReq : Int
  coreReq : Int
  pid : Int
  pty : Bool
  updateUtilization : Bool
  taskId : Str
  xsched : XSchedConfig
deriving DecidableEq

/- A requirement is sent when it is positive. -/
def positive? (n : Int) : Option Int :=
  if 0 < n then some n else none

/- The request of `ApplyResourceAndGetAllocation`. -/
def applyRequestOf
    (opts : ProgramOptions) :
    ApplyResourceRequest :=
  { resourceType := opts.resourceType
    nums := opts.resourceCount
    memreq := positive? opts.memReq
    corereq := positive? opts.coreReq
    pid := positive? opts.pid
    utilizationreq :=
      if opts.xsched.enabled then
        some opts.xsched.xschedUtilization
      else
        none }

/-
  `ApplyResourceAndGetAllocation`, with the id it stores for
  its caller.
-/
def applyResourceAndGetAllocation
    (opts : ProgramOptions) :
    IntegratedProg
      (Except Str (Str × ResourceAllocation)) := do
  let ready ←
    integratedPerform
      (.initChannel .applyResource opts.controllerAddr)
  if ready = false then
    return .error
      "Failed to initialize brpc channel.".toList
  else
    let reply ←
      integratedPerform (.applyResource (applyRequestOf opts))
    match replyError "Apply resource failed: " reply with
    | .error error => return .error error
    | .ok taskId =>
        let allocation ←
          queryResourceAllocation opts.controllerAddr taskId
        return allocation.map (fun node => (taskId, node))

/- `ValidateUploadFiles`. -/
def validateUploadFiles :
    List UploadFileSpec → IntegratedProg Status
| [] => return Status.success
| file :: files => do
    let regular ←
      integratedPerform (.isRegularFile file.localPath)
    if regular then
      validateUploadFiles files
    else
      return ⟨.invalidArgument,
        "Local file missing or not readable: ".toList ++
          file.localPath⟩

/- `ComputeUploadStats`, as to whether it succeeds. -/
def computeUploadStats :
    List UploadFileSpec → IntegratedProg Bool
| [] => return true
| file :: files => do
    let size ← integratedPerform (.fileSize file.localPath)
    match size with
    | none => return false
    | some _ => computeUploadStats files

/- `PrepareWorkspace`: an exception, false, or the files. -/
def prepareWorkspace
    (opts : ProgramOptions) :
    IntegratedProg
      (Except Str (Option (List UploadFileSpec))) := do
  let collected ←
    integratedPerform (.collectDirectoryFiles opts.srcDir)
  match collected with
  | .error error => return .error error
  | .ok none => return .ok none
  | .ok (some files) =>
      let validation ← validateUploadFiles files
      if validation.isOk = false then
        return .ok none
      else
        let computed ← computeUploadStats files
        if computed = false then
          return .ok none
        else
          return .ok (some files)

/- `ExecuteTask`, with its stream to the node. -/
def executeOn
    (target : Str)
    (task : ClientProg Nat) :
    IntegratedProg Nat :=
  Core.Prog.lift (IntegratedOp.stream target)
    (fun _ r => r) task

/- `RemoteServiceClient::UpdateUtilization`. -/
def updateUtilizationOn
    (target workspaceSubdir : Str)
    (utilization : Int) :
    IntegratedProg (Status × UpdateUtilizationResponse) := do
  if workspaceSubdir = [] then
    return (Status.invalidArgument
      "workspace_subdir must not be empty.", ⟨false, [], []⟩)
  else if utilization < 0 ∨ 100 < utilization then
    return (Status.invalidArgument
      "utilization must be in [0, 100].", ⟨false, [], []⟩)
  else
    integratedPerform
      (.updateUtilization target
        ⟨workspaceSubdir, utilization⟩)

/- `UpdateRunningTaskUtilization`. -/
def updateRunningTaskUtilization
    (opts : ProgramOptions) :
    IntegratedProg (Except Str Nat) := do
  let allocation ←
    queryResourceAllocation opts.controllerAddr opts.taskId
  match allocation >>= formatNodeTarget with
  | .error error => return .error error
  | .ok target =>
      let reply ←
        updateUtilizationOn target opts.workspaceSubdir
          opts.xsched.xschedUtilization
      if reply.1.isOk = false then
        return .ok 1
      else if reply.2.success = false then
        return .ok 1
      else
        let updated ←
          updateResourceUtilization opts.controllerAddr
            opts.taskId opts.xsched.xschedUtilization
        return .ok (if updated then 0 else 1)

/- `RunIntegratedClient`. -/
def runIntegratedClient
    (disk : LocalDisk)
    (opts : ProgramOptions) :
    IntegratedProg (Except Str Nat) := do
  if opts.updateUtilization then
    updateRunningTaskUtilization opts
  else
    let prepared ← prepareWorkspace opts
    match prepared with
    | .error error => return .error error
    | .ok none => return .ok 1
    | .ok (some files) =>
        let applied ← applyResourceAndGetAllocation opts
        match applied with
        | .error error => return .error error
        | .ok (taskId, allocation) =>
            match formatNodeTarget allocation with
            | .error error => return .error error
            | .ok target =>
                let code ←
                  executeOn target
                    (executeTask disk files
                      opts.workspaceSubdir opts.command
                      opts.pty (some opts.xsched))
                let _ ←
                  releaseResource opts.controllerAddr taskId
                return .ok code

/- `main` after the arguments were parsed. -/
def integratedMain
    (disk : LocalDisk)
    (opts : ProgramOptions) :
    IntegratedProg Nat := do
  let result ← runIntegratedClient disk opts
  match result with
  | .error _ => return 1
  | .ok code => return code

end Drex

------------------------------------------------------------
-- Reservations
------------------------------------------------------------

namespace Drex

/- One answered operation of the integrated client. -/
abbrev IntegratedEvent :=
  Core.Prog.Event IntegratedOp IntegratedResp

namespace IntegratedEvent

/- The task id of a successful `apply_resource`. -/
def applied? : IntegratedEvent → Option Str
| ⟨.applyResource _, .ok response⟩ =>
    if response.errcode = 0 then
      some response.answer
    else
      none
| _ => none

/- The task id passed to `release_resource`. -/
def released? : IntegratedEvent → Option Str
| ⟨.releaseResource taskId, _⟩ => some taskId
| _ => none

end IntegratedEvent

def appliedIds (trace : List IntegratedEvent) : List Str :=
  trace.filterMap IntegratedEvent.applied?

def releasedIds (trace : List IntegratedEvent) : List Str :=
  trace.filterMap IntegratedEvent.released?

/-
  Each task id obtained by a successful `apply_resource` is
  passed to `release_resource` exactly once.
-/
def GivenBack (trace : List IntegratedEvent) : Prop :=
  ∀ taskId ∈ appliedIds trace,
    (releasedIds trace).count taskId = 1

/-
  The outcomes of the calls up to the release.  The calls of
  the node and the release itself may end in any way.
-/
structure Outcomes where
  collected : Except Str (Option (List UploadFileSpec))
  regular : Str → Bool
  size : Str → Option Nat
  channel : ControllerCall → Bool
  applied : ControllerReply Str
  queried : ControllerReply (List ResourceInfo)

namespace Outcomes

/- The answers with these outcomes. -/
def answers
    (o : Outcomes) :
    (op : IntegratedOp) → IntegratedResp op → Prop
| .collectDirectoryFiles _, r => r = o.collected
| .isRegularFile localPath, r => r = o.regular localPath
| .fileSize localPath, r => r = o.size localPath
| .initChannel call _, r => r = o.channel call
| .applyResource _, r => r = o.applied
| .queryResource _, r => r = o.queried
| _, _ => True

/- The workspace is prepared. -/
def Prepares (o : Outcomes) : Prop :=
  ∃ files, o.collected = .ok (some files) ∧
    (∀ file ∈ files, o.regular file.localPath = true) ∧
      ∀ file ∈ files, o.size file.localPath ≠ none

/- The controller reserves resources under this id. -/
def Reserves (o : Outcomes) (taskId : Str) : Prop :=
  o.Prepares ∧ o.channel .applyResource = true ∧
    ∃ response, o.applied = .ok response ∧
      response.errcode = 0 ∧ response.answer = taskId

/- The query names a node with an address. -/
def NamesNode (o : Outcomes) : Prop :=
  o.channel .queryResource = true ∧
    ∃ response, o.queried = .ok response ∧
      response.errcode = 0 ∧
        ∃ resource rest node,
          response.answer = resource :: rest ∧
            resource.node = some node ∧ node.ip ≠ []

/- The outcome of `QueryResourceAllocation`. -/
def allocation
    (o : Outcomes) :
    Except Str ResourceAllocation :=
  if o.channel .queryResource = false then
    .error "Failed to initialize brpc channel.".toList
  else
    replyError "Query resource failed: " o.queried >>=
      allocationOf

end Outcomes

theorem replyError_eq_ok_iff
    {α : Type}
    (what : String)
    (reply : ControllerReply α)
    (answer : α) :
    replyError what reply = .ok answer ↔
      ∃ response, reply = .ok response ∧
        response.errcode = 0 ∧ response.answer = answer := by
  cases reply with
  | error errorText =>
      constructor
      · intro h
        cases h
      · rintro ⟨response, h, _⟩
        cases h
  | ok response =>
      unfold replyError
      by_cases hCode : response.errcode = 0
      · simp [hCode]
      · simp [hCode]

theorem exceptBind_eq_ok_iff
    {ε α β : Type}
    (x : Except ε α)
    (f : α → Except ε β)
    (b : β) :
    x >>= f = .ok b ↔ ∃ a, x = .ok a ∧ f a = .ok b := by
  cases x with
  | error e => simp [bind, Except.bind]
  | ok a => simp [bind, Except.bind]

theorem allocationOf_eq_ok_iff
    (rinfos : List ResourceInfo)
    (allocation : ResourceAllocation) :
    allocationOf rinfos = .ok allocation ↔
      ∃ resource rest node, rinfos = resource :: rest ∧
        resource.node = some node ∧
          allocation =
            ⟨node.ip, node.port, resource.cgroupPath.getD [],
              resource.cpuCores⟩ := by
  cases rinfos with
  | nil => simp [allocationOf]
  | cons resource rest =>
      cases hNode : resource.node with
      | none => simp [allocationOf, buildAllocation, hNode]
      | some node =>
          simp [allocationOf, buildAllocation, hNode, eq_comm]

theorem formatNodeTarget_ok_iff
    (node : ResourceAllocation) :
    (∃ target, formatNodeTarget node = .ok target) ↔
      node.ip ≠ [] := by
  unfold formatNodeTarget
  by_cases hIp : node.ip = []
  · simp [hIp]
  · simp [hIp]

/- A target is found exactly when the query names a node. -/
theorem Outcomes.namesNode_iff
    (o : Outcomes) :
    o.NamesNode ↔
      ∃ target,
        o.allocation >>= formatNodeTarget = .ok target := by
  unfold NamesNode allocation
  by_cases hChannel : o.channel .queryResource = false
  · simp [hChannel, exceptBind_eq_ok_iff]
  · rw [if_neg hChannel]
    simp only [exceptBind_eq_ok_iff, replyError_eq_ok_iff,
      allocationOf_eq_ok_iff]
    constructor
    · rintro ⟨_, response, hQueried, hCode, resource, rest,
        node, hAnswer, hNode, hIp⟩
      rcases
          (formatNodeTarget_ok_iff
            ⟨node.ip, node.port, resource.cgroupPath.getD [],
              resource.cpuCores⟩).mpr hIp with
        ⟨target, hTarget⟩
      exact
        ⟨target, _,
          ⟨response.answer,
            ⟨response, hQueried, hCode, rfl⟩,
            resource, rest, node, hAnswer, hNode, rfl⟩,
          hTarget⟩
    · rintro ⟨target, allocation,
        ⟨answer, ⟨response, hQueried, hCode, hAnswer⟩,
          resource, rest, node, hInfos, hNode, hAllocation⟩,
        hTarget⟩
      have hIp :=
        (formatNodeTarget_ok_iff allocation).mp
          ⟨target, hTarget⟩
      rw [hAllocation] at hIp
      refine
        ⟨Bool.eq_true_of_not_eq_false hChannel, response,
          hQueried, hCode, resource, rest, node, ?_, hNode,
          hIp⟩
      rw [hAnswer, hInfos]

end Drex

------------------------------------------------------------
-- What Is Applied For And Released
------------------------------------------------------------

namespace Drex

open Drex.Core.Prog

@[simp] theorem appliedIds_append
    (first second : List IntegratedEvent) :
    appliedIds (first ++ second) =
      appliedIds first ++ appliedIds second :=
  List.filterMap_append

@[simp] theorem releasedIds_append
    (first second : List IntegratedEvent) :
    releasedIds (first ++ second) =
      releasedIds first ++ releasedIds second :=
  List.filterMap_append

/- Nothing is applied for or released. -/
def Unreserved (trace : List IntegratedEvent) : Prop :=
  appliedIds trace = [] ∧ releasedIds trace = []

/- The operations that leave the reservations alone. -/
def IntegratedOp.LeavesReservations : IntegratedOp → Prop
| .applyResource _ => False
| .releaseResource _ => False
| _ => True

/- The operations of a query of the controller. -/
def IntegratedOp.Queries : IntegratedOp → Prop
| .initChannel _ _ => True
| .queryResource _ => True
| _ => False

theorem unreserved_of_leaves
    {trace : List IntegratedEvent}
    (h : ∀ e ∈ trace, e.1.LeavesReservations) :
    Unreserved trace := by
  constructor
  · apply List.filterMap_eq_nil_iff.mpr
    rintro ⟨op, r⟩ hMem
    have hOp := h _ hMem
    cases op with
    | applyResource request => exact hOp.elim
    | _ => rfl
  · apply List.filterMap_eq_nil_iff.mpr
    rintro ⟨op, r⟩ hMem
    have hOp := h _ hMem
    cases op with
    | releaseResource taskId => exact hOp.elim
    | _ => rfl

variable {allowed :
  (op : IntegratedOp) → IntegratedResp op → Prop}

/- A program without such operations reserves nothing. -/
theorem produces_unreserved
    {α : Type}
    {p : IntegratedProg α}
    (h : OnlyCalls IntegratedOp.LeavesReservations p) :
    Produces allowed p (fun _ trace => Unreserved trace) :=
  produces_mono (fun _ _ => unreserved_of_leaves)
    (produces_of_onlyCalls h)

theorem onlyCalls_queryResourceAllocation
    (controllerAddr taskId : Str) :
    OnlyCalls IntegratedOp.Queries
      (queryResourceAllocation controllerAddr taskId) := by
  unfold queryResourceAllocation
  apply onlyCalls_call trivial
  intro ready
  apply onlyCalls_ite
  · intro _
    exact onlyCalls_pure _
  · intro _
    apply onlyCalls_call trivial
    intro reply
    exact onlyCalls_pure _

theorem leavesReservations_of_queries
    (op : IntegratedOp)
    (hOp : op.Queries) :
    op.LeavesReservations := by
  cases op <;> first | exact trivial | exact hOp.elim

theorem onlyCalls_validateUploadFiles
    (files : List UploadFileSpec) :
    OnlyCalls IntegratedOp.LeavesReservations
      (validateUploadFiles files) := by
  induction files with
  | nil => exact onlyCalls_pure _
  | cons file files ih =>
      apply onlyCalls_call trivial
      intro regular
      apply onlyCalls_ite
      · exact fun _ => ih
      · exact fun _ => onlyCalls_pure _

theorem onlyCalls_computeUploadStats
    (files : List UploadFileSpec) :
    OnlyCalls IntegratedOp.LeavesReservations
      (computeUploadStats files) := by
  induction files with
  | nil => exact onlyCalls_pure _
  | cons file files ih =>
      apply onlyCalls_call trivial
      intro size
      cases size with
      | none => exact onlyCalls_pure _
      | some size => exact ih

theorem onlyCalls_prepareWorkspace
    (opts : ProgramOptions) :
    OnlyCalls IntegratedOp.LeavesReservations
      (prepareWorkspace opts) := by
  apply onlyCalls_call trivial
  intro collected
  rcases collected with error | _ | files
  · exact onlyCalls_pure _
  · exact onlyCalls_pure _
  · apply onlyCalls_bind (onlyCalls_validateUploadFiles files)
    intro validation
    apply onlyCalls_ite
    · exact fun _ => onlyCalls_pure _
    · intro _
      apply onlyCalls_bind (onlyCalls_computeUploadStats files)
      intro computed
      apply onlyCalls_ite
      · exact fun _ => onlyCalls_pure _
      · exact fun _ => onlyCalls_pure _

end Drex

------------------------------------------------------------
-- The Reservation Of A Run
------------------------------------------------------------

namespace Drex

open Drex.Core.Prog

variable {o : Outcomes}

theorem produces_validateUploadFiles
    (files : List UploadFileSpec) :
    Produces o.answers (validateUploadFiles files)
      (fun status _ =>
        status.isOk = true ↔
          ∀ file ∈ files,
            o.regular file.localPath = true) := by
  induction files with
  | nil =>
      apply produces_pure
      simp [Status.isOk, Status.success]
  | cons file files ih =>
      apply produces_call
      intro regular hRegular
      rw [show regular = o.regular file.localPath
        from hRegular]
      simp only [List.forall_mem_cons]
      by_cases hFile : o.regular file.localPath = true
      · rw [if_pos hFile]
        refine produces_mono ?_ ih
        intro status _ hStatus
        rw [hStatus]
        exact (and_iff_right hFile).symm
      · rw [if_neg hFile]
        apply produces_pure
        constructor
        · intro hOk
          cases hOk
        · intro hAll
          exact absurd hAll.1 hFile

theorem produces_computeUploadStats
    (files : List UploadFileSpec) :
    Produces o.answers (computeUploadStats files)
      (fun computed _ =>
        computed = true ↔
          ∀ file ∈ files, o.size file.localPath ≠ none) := by
  induction files with
  | nil =>
      apply produces_pure
      simp
  | cons file files ih =>
      apply produces_call
      intro size hSize
      rw [show size = o.size file.localPath from hSize]
      simp only [List.forall_mem_cons]
      cases hFile : o.size file.localPath with
      | none =>
          apply produces_pure
          simp
      | some bytes =>
          refine produces_mono ?_ ih
          intro computed _ hComputed
          rw [hComputed]
          simp

/- The files are returned if the workspace is prepared. -/
theorem produces_prepareWorkspace
    (opts : ProgramOptions) :
    Produces o.answers (prepareWorkspace opts)
      (fun prepared _ =>
        (∃ files, prepared = .ok (some files)) ↔
          o.Prepares) := by
  unfold prepareWorkspace
  apply produces_call
  intro collected hCollected
  have hEq : o.collected = collected := Eq.symm hCollected
  have hNone :
      (∀ files, collected ≠ .ok (some files)) →
        ¬ o.Prepares := by
    rintro hNot ⟨files, hFiles, _⟩
    exact hNot files (hEq.symm.trans hFiles)
  rcases collected with error | _ | files
  · apply produces_pure
    have hNot := hNone (by simp)
    simp [hNot]
  · apply produces_pure
    have hNot := hNone (by simp)
    simp [hNot]
  · have hPrepares :
        o.Prepares ↔
          (∀ file ∈ files,
              o.regular file.localPath = true) ∧
            ∀ file ∈ files,
              o.size file.localPath ≠ none := by
      unfold Outcomes.Prepares
      rw [hEq]
      simp
    refine
      produces_bind (produces_validateUploadFiles files) ?_
    intro validation _ hValidation
    by_cases hOk : validation.isOk = false
    · rw [if_pos hOk]
      apply produces_pure
      rw [hPrepares, ← hValidation, hOk]
      simp
    · rw [if_neg hOk]
      have hRegular :=
        hValidation.mp (Bool.eq_true_of_not_eq_false hOk)
      refine
        produces_bind (produces_computeUploadStats files) ?_
      intro computed _ hComputed
      cases computed with
      | false =>
          apply produces_pure
          rw [hPrepares, ← hComputed]
          simp
      | true =>
          apply produces_pure
          rw [hPrepares, ← hComputed]
          simp only [and_true]
          exact ⟨fun _ => hRegular, fun _ => ⟨files, rfl⟩⟩

theorem produces_queryResourceAllocation
    (controllerAddr taskId : Str) :
    Produces o.answers
      (queryResourceAllocation controllerAddr taskId)
      (fun allocation _ => allocation = o.allocation) := by
  unfold queryResourceAllocation Outcomes.allocation
  apply produces_call
  intro ready hReady
  rw [show ready = o.channel .queryResource from hReady]
  by_cases hChannel : o.channel .queryResource = false
  · rw [if_pos hChannel, if_pos hChannel]
    exact produces_pure rfl
  · rw [if_neg hChannel, if_neg hChannel]
    apply produces_call
    intro reply hReply
    rw [show reply = o.queried from hReply]
    exact produces_pure rfl

/- The ids applied for are those of the good replies. -/
theorem appliedIds_of_ok
    {what : String}
    {reply : ControllerReply Str}
    {taskId : Str}
    (request : ApplyResourceRequest)
    (h : replyError what reply = .ok taskId) :
    appliedIds
        ([⟨.applyResource request, reply⟩] :
          List IntegratedEvent) =
      [taskId] := by
  rcases (replyError_eq_ok_iff _ _ _).mp h with
    ⟨response, rfl, hCode, rfl⟩
  simp [appliedIds, IntegratedEvent.applied?, hCode]

theorem appliedIds_of_error
    {what : String}
    {reply : ControllerReply Str}
    {error : Str}
    (request : ApplyResourceRequest)
    (h : replyError what reply = .error error) :
    appliedIds
        ([⟨.applyResource request, reply⟩] :
          List IntegratedEvent) =
      [] := by
  cases reply with
  | error errorText => rfl
  | ok response =>
      have hCode : ¬ response.errcode = 0 := by
        intro hZero
        simp [replyError, hZero] at h
      simp [appliedIds, IntegratedEvent.applied?, hCode]

theorem Outcomes.not_reserves_of_error
    {what : String}
    {error : Str}
    (h : replyError what o.applied = .error error)
    (taskId : Str) :
    ¬ o.Reserves taskId := by
  rintro ⟨_, _, hOk⟩
  rw [(replyError_eq_ok_iff what o.applied taskId).mpr hOk]
    at h
  cases h

/-
  Resources are applied for once; the id is returned with
  what the query allocates.
-/
theorem produces_applyResourceAndGetAllocation
    (opts : ProgramOptions)
    (hPrepares : o.Prepares) :
    Produces o.answers (applyResourceAndGetAllocation opts)
      (fun applied trace =>
        releasedIds trace = [] ∧
          ((∃ taskId, o.Reserves taskId ∧
              appliedIds trace = [taskId] ∧
                applied =
                  o.allocation.map
                    (fun node => (taskId, node))) ∨
            ((∀ taskId, ¬ o.Reserves taskId) ∧
              appliedIds trace = [] ∧
                ∃ error, applied = .error error))) := by
  unfold applyResourceAndGetAllocation
  apply produces_call
  intro ready hReady
  have hChannel : o.channel .applyResource = ready :=
    Eq.symm hReady
  cases ready with
  | false =>
      apply produces_pure
      refine ⟨rfl, Or.inr ⟨?_, rfl, _, rfl⟩⟩
      rintro taskId ⟨_, hOpen, _⟩
      rw [hChannel] at hOpen
      cases hOpen
  | true =>
      simp only [Bool.true_eq_false, if_false]
      apply produces_call
      intro reply hReply
      have hApplied : o.applied = reply := Eq.symm hReply
      cases hError :
          replyError "Apply resource failed: " reply with
      | error error =>
          apply produces_pure
          have hIds :=
            appliedIds_of_error (applyRequestOf opts) hError
          rw [← hApplied] at hError
          exact
            ⟨rfl,
              Or.inr
                ⟨Outcomes.not_reserves_of_error hError, hIds,
                  error, rfl⟩⟩
      | ok taskId =>
          have hIds :=
            appliedIds_of_ok (applyRequestOf opts) hError
          have hOk :=
            (replyError_eq_ok_iff _ _ _).mp hError
          have hQuery :=
            produces_and
              (produces_queryResourceAllocation (o := o)
                opts.controllerAddr taskId)
              (produces_unreserved
                (onlyCalls_mono leavesReservations_of_queries
                  (onlyCalls_queryResourceAllocation
                    opts.controllerAddr taskId)))
          refine produces_bind hQuery ?_
          rintro allocation trace ⟨hAllocation, hQuiet⟩
          apply produces_pure
          have hTrace :
              ∀ rest : List IntegratedEvent,
                (⟨.initChannel .applyResource
                    opts.controllerAddr, true⟩ ::
                  ⟨.applyResource (applyRequestOf opts),
                    reply⟩ :: rest : List IntegratedEvent) =
                  [⟨.initChannel .applyResource
                      opts.controllerAddr, true⟩] ++
                    ([⟨.applyResource (applyRequestOf opts),
                      reply⟩] ++ rest) :=
            fun _ => rfl
          rw [List.append_nil, hTrace]
          refine ⟨?_, Or.inl ⟨taskId, ?_, ?_, ?_⟩⟩
          · rw [releasedIds_append, releasedIds_append,
              hQuiet.2]
            rfl
          · rw [← hApplied] at hOk
            exact ⟨hPrepares, hChannel, hOk⟩
          · rw [appliedIds_append, appliedIds_append, hIds,
              hQuiet.1]
            rfl
          · rw [hAllocation]

/- The id is released if it is set and the channel opens. -/
theorem produces_releaseResource
    (controllerAddr taskId : Str) :
    Produces o.answers (releaseResource controllerAddr taskId)
      (fun _ trace =>
        appliedIds trace = [] ∧
          releasedIds trace =
            if taskId ≠ [] ∧
                o.channel .releaseResource = true then
              [taskId]
            else
              []) := by
  unfold releaseResource
  by_cases hEmpty : taskId = []
  · rw [if_pos hEmpty]
    apply produces_pure
    simp [hEmpty, appliedIds, releasedIds]
  · rw [if_neg hEmpty]
    apply produces_call
    intro ready hReady
    rw [show ready = o.channel .releaseResource from hReady]
    by_cases hChannel : o.channel .releaseResource = false
    · rw [if_pos hChannel]
      apply produces_pure
      rw [hChannel]
      simp [appliedIds, releasedIds,
        IntegratedEvent.applied?, IntegratedEvent.released?]
    · rw [if_neg hChannel]
      apply produces_call
      intro reply _
      apply produces_pure
      have hOpen := Bool.eq_true_of_not_eq_false hChannel
      rw [if_pos ⟨hEmpty, hOpen⟩]
      exact ⟨rfl, rfl⟩

end Drex

------------------------------------------------------------
-- Reservations Are Given Back
------------------------------------------------------------

namespace Drex

open Drex.Core.Prog

/- The run returns whatever it applied for. -/
def Outcomes.ReturnsReserved (o : Outcomes) : Prop :=
  ∀ taskId, o.Reserves taskId →
    o.NamesNode ∧ taskId ≠ [] ∧
      o.channel .releaseResource = true

variable {o : Outcomes}

theorem givenBack_of_unreserved
    {trace : List IntegratedEvent}
    (h : appliedIds trace = []) :
    GivenBack trace := by
  intro taskId hMem
  rw [h] at hMem
  cases hMem

theorem givenBack_single_iff
    {trace : List IntegratedEvent}
    {taskId : Str}
    (h : appliedIds trace = [taskId]) :
    GivenBack trace ↔
      (releasedIds trace).count taskId = 1 := by
  unfold GivenBack
  rw [h]
  simp

theorem Outcomes.Reserves.unique
    {first second : Str}
    (hFirst : o.Reserves first)
    (hSecond : o.Reserves second) :
    first = second := by
  rcases hFirst with ⟨_, _, response, hEq, _, hFirst⟩
  rcases hSecond with ⟨_, _, response', hEq', _, hSecond⟩
  rw [hEq] at hEq'
  cases hEq'
  exact hFirst.symm.trans hSecond

/- One reserved id decides. -/
theorem Outcomes.returnsReserved_iff
    {taskId : Str}
    (hReserves : o.Reserves taskId) :
    o.ReturnsReserved ↔
      o.NamesNode ∧ taskId ≠ [] ∧
        o.channel .releaseResource = true := by
  constructor
  · exact fun h => h taskId hReserves
  · intro h other hOther
    rw [hOther.unique hReserves]
    exact h

/- What is left to do once the id is obtained. -/
theorem givenBack_append_iff
    {taskId : Str}
    {first rest : List IntegratedEvent}
    (hApplied : appliedIds first = [taskId])
    (hReleased : releasedIds first = [])
    (hRest : appliedIds rest = []) :
    GivenBack (first ++ rest) ↔
      (releasedIds rest).count taskId = 1 := by
  have hIds : appliedIds (first ++ rest) = [taskId] := by
    rw [appliedIds_append, hApplied, hRest, List.append_nil]
  rw [givenBack_single_iff hIds, releasedIds_append,
    hReleased, List.nil_append]

/- The task is executed, and its id released. -/
theorem produces_executeAndRelease
    (disk : LocalDisk)
    (opts : ProgramOptions)
    (files : List UploadFileSpec)
    (target taskId : Str) :
    Produces o.answers
      (do
        let code ←
          executeOn target
            (executeTask disk files opts.workspaceSubdir
              opts.command opts.pty (some opts.xsched))
        let _ ← releaseResource opts.controllerAddr taskId
        return .ok code :
        IntegratedProg (Except Str Nat))
      (fun _ trace =>
        appliedIds trace = [] ∧
          releasedIds trace =
            if taskId ≠ [] ∧
                o.channel .releaseResource = true then
              [taskId]
            else
              []) := by
  have hStream :
      Produces o.answers
        (executeOn target
          (executeTask disk files opts.workspaceSubdir
            opts.command opts.pty (some opts.xsched)))
        (fun _ trace => Unreserved trace) := by
    apply produces_unreserved
    apply onlyCalls_lift
    intro op
    trivial
  refine produces_bind hStream ?_
  intro code first hFirst
  refine
    produces_bind
      (produces_releaseResource opts.controllerAddr taskId) ?_
  rintro released second ⟨hQuiet, hSecond⟩
  apply produces_pure
  constructor
  · rw [appliedIds_append, appliedIds_append, hFirst.1,
      hQuiet]
    rfl
  · rw [releasedIds_append, List.append_nil, hFirst.2,
      hSecond]
    rfl

/- A submission up to its end, once files are prepared. -/
theorem produces_reservation
    (disk : LocalDisk)
    (opts : ProgramOptions)
    (files : List UploadFileSpec)
    (hPrepares : o.Prepares) :
    Produces o.answers
      (do
        let applied ← applyResourceAndGetAllocation opts
        match applied with
        | .error error => return .error error
        | .ok (taskId, allocation) =>
            match formatNodeTarget allocation with
            | .error error => return .error error
            | .ok target =>
                let code ←
                  executeOn target
                    (executeTask disk files
                      opts.workspaceSubdir opts.command
                      opts.pty (some opts.xsched))
                let _ ←
                  releaseResource opts.controllerAddr taskId
                return .ok code :
        IntegratedProg (Except Str Nat))
      (fun _ trace =>
        GivenBack trace ↔ o.ReturnsReserved) := by
  refine
    produces_bind
      (produces_applyResourceAndGetAllocation opts
        hPrepares) ?_
  rintro applied first ⟨hReleased,
    ⟨taskId, hReserves, hApplied, hResult⟩ |
    ⟨hNot, hApplied, error, hResult⟩⟩
  · have hEarly :
        ∀ error : Str,
          o.allocation >>= formatNodeTarget =
              .error error →
            (GivenBack (first ++ []) ↔
              o.ReturnsReserved) := by
      intro error hError
      rw [givenBack_append_iff hApplied hReleased rfl,
        Outcomes.returnsReserved_iff hReserves,
        o.namesNode_iff, hError]
      simp [releasedIds]
    rw [hResult]
    cases hAllocation : o.allocation with
    | error error =>
        apply produces_pure
        apply hEarly error
        rw [hAllocation]
        rfl
    | ok allocation =>
        simp only [Except.map]
        cases hTarget : formatNodeTarget allocation with
        | error error =>
            apply produces_pure
            apply hEarly error
            rw [hAllocation]
            exact hTarget
        | ok target =>
            have hNode : o.NamesNode := by
              apply o.namesNode_iff.mpr
              rw [hAllocation]
              exact ⟨target, hTarget⟩
            refine
              produces_mono ?_
                (produces_executeAndRelease disk opts files
                  target taskId)
            rintro code second ⟨hQuiet, hSecond⟩
            rw [givenBack_append_iff hApplied hReleased hQuiet,
              Outcomes.returnsReserved_iff hReserves, hSecond]
            split
            · rename_i hBoth
              simp [hNode, hBoth]
            · rename_i hNeither
              simp [hNeither]
  · rw [hResult]
    apply produces_pure
    rw [List.append_nil]
    constructor
    · intro _ taskId hReserves
      exact absurd hReserves (hNot taskId)
    · exact fun _ => givenBack_of_unreserved hApplied

/- A whole submission, and how it may end early. -/
theorem produces_integratedMain
    (disk : LocalDisk)
    (opts : ProgramOptions)
    (hMode : opts.updateUtilization = false) :
    Produces o.answers (integratedMain disk opts)
      (fun _ trace =>
        GivenBack trace ↔ o.ReturnsReserved) := by
  have hClient :
      Produces o.answers (runIntegratedClient disk opts)
        (fun _ trace =>
          GivenBack trace ↔ o.ReturnsReserved) := by
    unfold runIntegratedClient
    rw [if_neg (by rw [hMode]; decide)]
    have hPrepared :=
      produces_and
        (produces_prepareWorkspace (o := o) opts)
        (produces_unreserved
          (onlyCalls_prepareWorkspace opts))
    refine produces_bind hPrepared ?_
    rintro prepared first ⟨hFiles, hQuiet⟩
    have hStop :
        (∀ files, prepared ≠ .ok (some files)) →
          (GivenBack (first ++ []) ↔
            o.ReturnsReserved) := by
      intro hNot
      rw [List.append_nil]
      constructor
      · intro _ taskId hReserves
        rcases hFiles.mpr hReserves.1 with ⟨files, hEq⟩
        exact absurd hEq (hNot files)
      · exact fun _ => givenBack_of_unreserved hQuiet.1
    rcases prepared with error | _ | files
    · apply produces_pure
      apply hStop
      simp
    · apply produces_pure
      apply hStop
      simp
    · have hPrepares := hFiles.mp ⟨files, rfl⟩
      refine
        produces_mono ?_
          (produces_reservation disk opts files hPrepares)
      intro _ second hSecond
      rw [← hSecond]
      unfold GivenBack
      rw [appliedIds_append, releasedIds_append,
        hQuiet.1, hQuiet.2]
      rfl
  unfold integratedMain
  refine produces_bind hClient ?_
  intro result first hFirst
  rcases result with error | code
  · apply produces_pure
    rw [List.append_nil]
    exact hFirst
  · apply produces_pure
    rw [List.append_nil]
    exact hFirst

/-
  Every id obtained is released exactly once, unless the run
  stops on its way: the query fails or names no node with an
  address, the id is empty, or no channel is opened for the
  release.
-/
theorem givenBack_iff
    (disk : LocalDisk)
    (opts : ProgramOptions)
    (hMode : opts.updateUtilization = false)
    {trace : List IntegratedEvent}
    {code : Nat}
    (hRun :
      Finishes o.answers (integratedMain disk opts)
        trace code) :
    GivenBack trace ↔ o.ReturnsReserved :=
  produces_integratedMain disk opts hMode trace code hRun

/- A submission of one file. -/
def oneFileOptions : ProgramOptions :=
  { controllerAddr := "pool:9000".toList
    srcDir := "job".toList
    workspaceSubdir := "job".toList
    command := "run".toList
    resourceType := "gpu".toList
    resourceCount := 1
    memReq := -1
    coreReq := -1
    pid := -1
    pty := false
    updateUtilization := false
    taskId := []
    xsched := ⟨false, -1⟩ }

/- The controller reserves `t1`, and the query ends so. -/
def reservedOutcomes
    (queried : ControllerReply (List ResourceInfo)) :
    Outcomes :=
  { collected := .ok (some [⟨"job/f".toList, "f".toList⟩])
    regular := fun _ => true
    size := fun _ => some 1
    channel := fun _ => true
    applied := .ok ⟨some ⟨0, []⟩, "t1".toList⟩
    queried := queried }

/- The calls before the outcome of the query is judged. -/
def reservedTrace
    (queried : ControllerReply (List ResourceInfo)) :
    List IntegratedEvent :=
  [⟨.collectDirectoryFiles "job".toList,
      .ok (some [⟨"job/f".toList, "f".toList⟩])⟩,
    ⟨.isRegularFile "job/f".toList, true⟩,
    ⟨.fileSize "job/f".toList, some 1⟩,
    ⟨.initChannel .applyResource "pool:9000".toList, true⟩,
    ⟨.applyResource (applyRequestOf oneFileOptions),
      .ok ⟨some ⟨0, []⟩, "t1".toList⟩⟩,
    ⟨.initChannel .queryResource "pool:9000".toList, true⟩,
    ⟨.queryResource "t1".toList, queried⟩]

/- One file of one byte. -/
def oneByteDisk : LocalDisk :=
  fun _ => ⟨true, some 1, [0], none⟩

/- A node is named, and the stream to it breaks at once. -/
theorem givenBack_iff_brokenStream :
    ∃ trace,
      Finishes
          (reservedOutcomes
            (.ok ⟨some ⟨0, []⟩,
              [⟨some ⟨"n1".toList, 80⟩, none, []⟩]⟩)).answers
          (integratedMain oneByteDisk oneFileOptions)
          trace 1 ∧
        releasedIds trace = ["t1".toList] ∧
          GivenBack trace := by
  have hRun :
      Finishes
        (reservedOutcomes
          (.ok ⟨some ⟨0, []⟩,
            [⟨some ⟨"n1".toList, 80⟩, none, []⟩]⟩)).answers
        (integratedMain oneByteDisk oneFileOptions)
        (reservedTrace
            (.ok ⟨some ⟨0, []⟩,
              [⟨some ⟨"n1".toList, 80⟩, none, []⟩]⟩) ++
          [⟨.stream "n1:80".toList
              (.write
                (.config
                  (taskConfigOf "job".toList "run".toList
                    "job/output".toList false
                    (some ⟨false, -1⟩)))),
              false⟩,
            ⟨.stream "n1:80".toList .writesDone, ()⟩,
            ⟨.stream "n1:80".toList .finish,
              Status.cancelled⟩,
            ⟨.initChannel .releaseResource
              "pool:9000".toList, true⟩,
            ⟨.releaseResource "t1".toList,
              .ok ⟨some ⟨0, []⟩, ()⟩⟩])
        1 := by
    iterate 12 refine finishes_call (by trivial) ?_
    exact .ret () 1
  refine ⟨_, hRun, rfl, ?_⟩
  rw [givenBack_iff oneByteDisk oneFileOptions rfl hRun]
  intro taskId hReserves
  rcases hReserves with ⟨_, _, response, hApplied, _, hId⟩
  cases hApplied
  rw [← hId]
  refine ⟨?_, by decide, rfl⟩
  exact
    ⟨rfl, _, rfl, rfl, _, _, _, rfl, rfl, by decide⟩

/-
  The query fails after the resources were reserved, and the
  program exits without releasing them.
-/
theorem failedQuery_not_givenBack :
    ¬ ∀ (o : Outcomes) (disk : LocalDisk)
      (opts : ProgramOptions)
      (trace : List IntegratedEvent) (code : Nat),
      opts.updateUtilization = false →
        Finishes o.answers (integratedMain disk opts)
            trace code →
          GivenBack trace := by
  intro hGivesBack
  have hRun :
      Finishes
        (reservedOutcomes (.error "timeout".toList)).answers
        (integratedMain oneByteDisk oneFileOptions)
        (reservedTrace (.error "timeout".toList)) 1 := by
    iterate 7 refine finishes_call (by trivial) ?_
    exact .ret () 1
  have hBack := hGivesBack _ _ _ _ _ rfl hRun
  have hCount := hBack "t1".toList (by decide)
  revert hCount
  decide

end Drex

------------------------------------------------------------
-- The Utilization At The Node And At The Controller
------------------------------------------------------------

namespace Drex

open Drex.Core.Prog

/-
  What every process on the node holds, and the controller's
  record of the task.
-/
structure Utilizations where
  node : Pid → Int
  controller : Int

/- The processes of the task and the record hold a value. -/
def Utilizations.Holds
    (task : List Pid)
    (value : Int)
    (g : Utilizations) : Prop :=
  (∀ pid ∈ task, g.node pid = value) ∧ g.controller = value

/-
  The effect of a call that sets a value.  A call that does
  not report success may have taken effect or not.
-/
def Sets
    (reported : Bool)
    (value before after : Int) : Prop :=
  after = value ∨ (reported = false ∧ after = before)

/- The node reports that it updated the task. -/
def nodeReports
    (reply : Status × UpdateUtilizationResponse) : Bool :=
  reply.1.isOk && reply.2.success

/-
  A call of the node: its handler has run on the processes of
  the task, or the call did not get there.  What the handler
  replied is received, or else the call fails.
-/
def NodeAnswers
    (root : WorkspaceRoot)
    (task : List Pid)
    (request : UpdateUtilizationRequest)
    (reply : Status × UpdateUtilizationResponse)
    (u u' : Pid → Int) : Prop :=
  (reply.1.isOk = false ∧ u' = u) ∨
    ∃ trace handled,
      Runs (hintAnswers task) u
          (updateUtilization root request) trace handled u' ∧
        (reply.1.isOk = false ∨
          (reply.1 = handled.1 ∧ handled.2 = some reply.2))

/- The answers to an update, and what is held after them. -/
def storeAnswers
    (root : WorkspaceRoot)
    (task : List Pid) :
    Answers IntegratedOp IntegratedResp Utilizations :=
  fun g op r g' =>
    match op, r with
    | .updateUtilization _ request, reply =>
        NodeAnswers root task request reply g.node g'.node ∧
          g'.controller = g.controller
    | .updateResource _ utilization, reply =>
        g'.node = g.node ∧
          Sets (replyDone reply) utilization
            g.controller g'.controller
    | _, _ => g' = g

/- What the handler of the node leaves, and what it lists. -/
theorem NodeAnswers.processes
    {root : WorkspaceRoot}
    {task : List Pid}
    {request : UpdateUtilizationRequest}
    {reply : Status × UpdateUtilizationResponse}
    {u u' : Pid → Int}
    (h : NodeAnswers root task request reply u u') :
    (∀ pid, u' pid = u pid ∨ u' pid = request.utilization) ∧
      (nodeReports reply = true →
        reply.2.pids ≠ [] ∧
          ∀ pid ∈ reply.2.pids,
            pid ∈ task ∧ u' pid = request.utilization) := by
  have hNoSuccess :
      reply.1.isOk = false → ¬ nodeReports reply = true := by
    intro hFailed hReports
    unfold nodeReports at hReports
    rw [hFailed] at hReports
    cases hReports
  rcases h with ⟨hFailed, rfl⟩ | ⟨trace, handled, hRun, hCase⟩
  · exact
      ⟨fun _ => Or.inl rfl,
        fun hReports => absurd hReports (hNoSuccess hFailed)⟩
  · have hProcesses := updateUtilization_processes hRun
    refine ⟨hProcesses.1, ?_⟩
    intro hReports
    rcases hCase with hFailed | ⟨hStatus, hResponse⟩
    · exact absurd hReports (hNoSuccess hFailed)
    · have hOk : handled.1.isOk = true := by
        unfold nodeReports at hReports
        rw [Bool.and_eq_true, hStatus] at hReports
        exact hReports.1
      rcases hProcesses.2 hOk with
        ⟨response, hSome, hNonempty, hListed⟩
      have hSame : response = reply.2 := by
        rw [hResponse] at hSome
        exact (Option.some.inj hSome).symm
      rw [← hSame]
      exact ⟨hNonempty, hListed⟩

/-
  For each call of the node, the processes it lists as
  updated if it reported success.
-/
def IntegratedEvent.nodeReply? :
    IntegratedEvent → Option (Option (List Pid))
| ⟨.updateUtilization _ _, reply⟩ =>
    some (if nodeReports reply then some reply.2.pids else none)
| _ => none

def nodeReplies (trace : List IntegratedEvent) :
    List (Option (List Pid)) :=
  trace.filterMap IntegratedEvent.nodeReply?

@[simp] theorem nodeReplies_append
    (first second : List IntegratedEvent) :
    nodeReplies (first ++ second) =
      nodeReplies first ++ nodeReplies second :=
  List.filterMap_append

/- How an update to a new value ends. -/
structure UpdateEnds
    (task : List Pid)
    (old new : Int)
    (g : Utilizations)
    (result : Except Str Nat)
    (replies : List (Option (List Pid)))
    (g' : Utilizations) : Prop where
  values :
    ∀ pid ∈ task, g'.node pid = old ∨ g'.node pid = new
  recorded : g'.controller = old ∨ g'.controller = new
  unasked : replies = [] → g' = g
  refused :
    (∀ pids, some pids ∉ replies) → g'.controller = old
  listed :
    ∀ pids, some pids ∈ replies →
      pids ≠ [] ∧
        ∀ pid ∈ pids, pid ∈ task ∧ g'.node pid = new
  updated :
    result = .ok 0 →
      g'.controller = new ∧ ∃ pids, some pids ∈ replies
  agreed :
    result = .ok 0 →
      (∀ pids, some pids ∈ replies →
        ∀ pid ∈ task, pid ∈ pids) →
          g'.Holds task new

/- The operations that leave both stores alone. -/
def IntegratedOp.LeavesStores : IntegratedOp → Prop
| .updateUtilization _ _ => False
| .updateResource _ _ => False
| _ => True

variable {root : WorkspaceRoot} {task : List Pid}
variable {g g' : Utilizations}
variable {trace : List IntegratedEvent}

theorem runs_leavesStores
    {α : Type}
    {p : IntegratedProg α}
    {a : α}
    (hOnly : OnlyCalls IntegratedOp.LeavesStores p)
    (hRun : Runs (storeAnswers root task) g p trace a g') :
    g' = g ∧ nodeReplies trace = [] := by
  have hLeaves := onlyCalls_of_mem hOnly hRun
  constructor
  · refine runs_frame (f := id) ?_ hRun
    rintro ⟨op, r⟩ hMem u u' hAnswer
    have hOp := hLeaves _ hMem
    cases op with
    | updateUtilization target request => exact hOp.elim
    | updateResource taskId utilization => exact hOp.elim
    | _ => exact hAnswer
  · apply List.filterMap_eq_nil_iff.mpr
    rintro ⟨op, r⟩ hMem
    have hOp := hLeaves _ hMem
    cases op with
    | updateUtilization target request => exact hOp.elim
    | _ => rfl

theorem leavesStores_of_queries
    (op : IntegratedOp)
    (hOp : op.Queries) :
    op.LeavesStores := by
  cases op <;> first | exact trivial | exact hOp.elim

/- The controller's record, and what the caller is told. -/
theorem runs_updateResourceUtilization
    {controllerAddr taskId : Str}
    {utilization : Int}
    {updated : Bool}
    (hRun :
      Runs (storeAnswers root task) g
        (updateResourceUtilization controllerAddr taskId
          utilization)
        trace updated g') :
    nodeReplies trace = [] ∧ g'.node = g.node ∧
      Sets updated utilization g.controller
        g'.controller := by
  unfold updateResourceUtilization at hRun
  cases hRun with
  | @call _ mid _ _ _ ready rest _ hReady hRest =>
      have hMid : mid = g := hReady
      rw [hMid] at hRest
      cases ready with
      | false =>
          rcases runs_pure_iff.mp hRest with
            ⟨rfl, rfl, rfl⟩
          exact ⟨rfl, rfl, Or.inr ⟨rfl, rfl⟩⟩
      | true =>
          cases hRest with
          | @call _ after _ _ _ reply _ _ hReply hDone =>
              rcases runs_pure_iff.mp hDone with
                ⟨rfl, rfl, rfl⟩
              exact ⟨rfl, hReply.1, hReply.2⟩

/- The node's value, and what the caller is told. -/
theorem runs_updateUtilizationOn
    {target workspaceSubdir : Str}
    {utilization : Int}
    {reply : Status × UpdateUtilizationResponse}
    (hRun :
      Runs (storeAnswers root task) g
        (updateUtilizationOn target workspaceSubdir
          utilization)
        trace reply g') :
    (nodeReplies trace = [] ∧ nodeReports reply = false ∧
        g' = g) ∨
      (nodeReplies trace =
          [if nodeReports reply then some reply.2.pids
            else none] ∧
        NodeAnswers root task
            { workspaceSubdir, utilization } reply g.node
            g'.node ∧
          g'.controller = g.controller) := by
  unfold updateUtilizationOn at hRun
  by_cases hEmpty : workspaceSubdir = []
  · rw [if_pos hEmpty] at hRun
    rcases runs_pure_iff.mp hRun with ⟨rfl, rfl, rfl⟩
    exact Or.inl ⟨rfl, rfl, rfl⟩
  · rw [if_neg hEmpty] at hRun
    by_cases hRange : utilization < 0 ∨ 100 < utilization
    · rw [if_pos hRange] at hRun
      rcases runs_pure_iff.mp hRun with ⟨rfl, rfl, rfl⟩
      exact Or.inl ⟨rfl, rfl, rfl⟩
    · rw [if_neg hRange] at hRun
      rcases runs_perform_iff.mp hRun with ⟨rfl, hAnswer⟩
      exact Or.inr ⟨rfl, hAnswer.1, hAnswer.2⟩

theorem Sets.old_or_new
    {told : Bool}
    {new old value : Int}
    (h : Sets told new old value) :
    value = old ∨ value = new := by
  rcases h with hNew | ⟨_, hOld⟩
  · exact Or.inr hNew
  · exact Or.inl hOld

theorem Sets.eq_new
    {new old value : Int}
    (h : Sets true new old value) :
    value = new := by
  rcases h with hNew | ⟨hNot, _⟩
  · exact hNew
  · cases hNot

section
variable {old new : Int}
variable {result : Except Str Nat}

/- The three ways an update ends. -/
theorem UpdateEnds.of_unasked
    (hStart : g.Holds task old)
    (hResult : result ≠ .ok 0) :
    UpdateEnds task old new g result [] g where
  values pid hMem := Or.inl (hStart.1 pid hMem)
  recorded := Or.inl hStart.2
  unasked _ := rfl
  refused _ := hStart.2
  listed := nofun
  updated h := absurd h hResult
  agreed h := absurd h hResult

theorem UpdateEnds.of_refused
    (hStart : g.Holds task old)
    (hResult : result ≠ .ok 0)
    (hNode :
      ∀ pid, g'.node pid = g.node pid ∨ g'.node pid = new)
    (hController : g'.controller = g.controller) :
    UpdateEnds task old new g result [none] g' where
  values pid hMem := by
    rw [← hStart.1 pid hMem]
    exact hNode pid
  recorded := Or.inl (hController.trans hStart.2)
  unasked h := by cases h
  refused _ := hController.trans hStart.2
  listed pids h := by simp at h
  updated h := absurd h hResult
  agreed h := absurd h hResult

theorem UpdateEnds.of_accepted
    {pids : List Pid}
    {recorded : Bool}
    (hStart : g.Holds task old)
    (hNode :
      ∀ pid, g'.node pid = g.node pid ∨ g'.node pid = new)
    (hNonempty : pids ≠ [])
    (hListed :
      ∀ pid ∈ pids, pid ∈ task ∧ g'.node pid = new)
    (hController : Sets recorded new old g'.controller) :
    UpdateEnds task old new g
      (.ok (if recorded then 0 else 1)) [some pids] g' := by
  have hRecorded :
      (Except.ok (if recorded then 0 else 1) :
          Except Str Nat) = .ok 0 →
        g'.controller = new := by
    intro h
    cases recorded with
    | false => cases h
    | true => exact hController.eq_new
  have hOnly :
      ∀ pids', some pids' ∈ [some pids] → pids' = pids := by
    intro pids' hMem
    exact Option.some.inj (List.mem_singleton.mp hMem)
  refine
    { values := fun pid hMem => ?_
      recorded := hController.old_or_new
      unasked := nofun
      refused := fun h =>
        absurd (List.mem_singleton_self _) (h pids)
      listed := fun pids' hMem => ?_
      updated := fun h =>
        ⟨hRecorded h, pids, List.mem_singleton_self _⟩
      agreed := fun h hAll => ⟨fun pid hMem => ?_, hRecorded h⟩ }
  · rw [← hStart.1 pid hMem]
    exact hNode pid
  · rw [hOnly pids' hMem]
    exact ⟨hNonempty, hListed⟩
  · exact
      (hListed pid
        (hAll pids (List.mem_singleton_self _) pid hMem)).2

end

/-
  From a common value, an update that returns 0 leaves the
  new value at the controller and in every process that the
  node lists, which is one at least.  Otherwise the
  controller keeps the old value unless the node reported
  success.  No process gets a third value.
-/
theorem update_stores
    (root : WorkspaceRoot)
    (task : List Pid)
    (opts : ProgramOptions)
    {old : Int}
    {g g' : Utilizations}
    {trace : List IntegratedEvent}
    {result : Except Str Nat}
    (hStart : g.Holds task old)
    (hRun :
      Runs (storeAnswers root task) g
        (updateRunningTaskUtilization opts)
        trace result g') :
    UpdateEnds task old opts.xsched.xschedUtilization g result
      (nodeReplies trace) g' := by
  unfold updateRunningTaskUtilization at hRun
  rcases runs_bind_iff.mp hRun with
    ⟨first, allocation, mid, second, rfl, hQuery, hRest⟩
  rcases
      runs_leavesStores
        (onlyCalls_mono leavesStores_of_queries
          (onlyCalls_queryResourceAllocation _ _))
        hQuery
    with ⟨rfl, hFirst⟩
  rw [nodeReplies_append, hFirst, List.nil_append]
  cases hTarget : allocation >>= formatNodeTarget with
  | error error =>
      rw [hTarget] at hRest
      rcases runs_pure_iff.mp hRest with ⟨rfl, rfl, rfl⟩
      exact UpdateEnds.of_unasked hStart nofun
  | ok target =>
      rw [hTarget] at hRest
      rcases runs_bind_iff.mp hRest with
        ⟨called, reply, mid, recorded, rfl, hNode, hRest⟩
      rw [nodeReplies_append]
      have hCase := runs_updateUtilizationOn hNode
      cases hReports : nodeReports reply with
      | false =>
          have hOver :
              Runs (storeAnswers root task) mid
                (pure (.ok 1) : IntegratedProg
                  (Except Str Nat))
                recorded result g' := by
            unfold nodeReports at hReports
            rw [Bool.and_eq_false_iff] at hReports
            by_cases hOk : reply.1.isOk = false
            · rw [if_pos hOk] at hRest
              exact hRest
            · rw [if_neg hOk,
                if_pos (hReports.resolve_left hOk)] at hRest
              exact hRest
          rcases runs_pure_iff.mp hOver with ⟨rfl, rfl, rfl⟩
          have hNil : nodeReplies [] = [] := rfl
          rw [hNil, List.append_nil]
          rcases hCase with
            ⟨hNone, _, rfl⟩ | ⟨hSome, hNode, hSame⟩
          · rw [hNone]
            exact UpdateEnds.of_unasked hStart (by simp)
          · rw [hSome, hReports]
            exact
              UpdateEnds.of_refused hStart (by simp)
                hNode.processes.1 hSame
      | true =>
          have hBoth := hReports
          unfold nodeReports at hBoth
          rw [Bool.and_eq_true] at hBoth
          rw [if_neg (by rw [hBoth.1]; decide),
            if_neg (by rw [hBoth.2]; decide)] at hRest
          rcases runs_bind_iff.mp hRest with
            ⟨third, updated, last, rest, rfl, hRecord,
              hPure⟩
          rcases runs_pure_iff.mp hPure with ⟨rfl, rfl, rfl⟩
          rcases runs_updateResourceUtilization hRecord with
            ⟨hThird, hKept, hRecorded⟩
          rcases hCase with
            ⟨_, hNot, _⟩ | ⟨hSome, hNode, hSame⟩
          · rw [hReports] at hNot
            cases hNot
          · rw [hSome, List.append_nil, hThird,
              List.append_nil, hReports, if_pos rfl]
            rcases hNode.processes with ⟨hValues, hListed⟩
            rcases hListed hReports with ⟨hNonempty, hPids⟩
            rw [← hKept] at hValues hPids
            rw [hSame, hStart.2] at hRecorded
            exact
              UpdateEnds.of_accepted hStart hValues hNonempty
                hPids hRecorded

end Drex

------------------------------------------------------------
-- An Update That Is Not Recorded
------------------------------------------------------------

namespace Drex

open Drex.Core.Prog

/- An update of the task `t1` to 80. -/
def updateOptions : ProgramOptions :=
  { oneFileOptions with
    updateUtilization := true
    taskId := "t1".toList
    xsched := ⟨true, 80⟩ }

/-
  The handler of the node, where the group holds these
  processes and `xcli` fails for some of them.
-/
def nodeHandler (task failing : List Pid) :
    Handler ServerOp Resp (Pid → Int) :=
  fun op u =>
    let r : Resp op :=
      match op with
      | .findTaskProcessGroup _ => some 7
      | .findPidsInProcessGroup _ => some task
      | .xcliHint _ pid _ =>
          .finished (if pid ∈ failing then 256 else 0)
      | op => Env.granting.answer op
    (r, applyHints (ServerEvent.hint? ⟨op, r⟩).toList u)

theorem nodeHandler_follows (task failing : List Pid) :
    Follows (hintAnswers task) (nodeHandler task failing) := by
  intro op u
  refine ⟨?_, hintEffect_applyHints op _ u⟩
  cases op with
  | findPidsInProcessGroup pgid =>
      exact fun pids hEq => (Option.some.inj hEq).symm
  | _ => exact trivial

/- The update of processes that hold 50 to 80. -/
def nodeRun (task failing : List Pid) :
    (Status × Option UpdateUtilizationResponse) ×
      (Pid → Int) :=
  run (nodeHandler task failing)
    (updateUtilization smallRoot ⟨"job".toList, 80⟩)
    (fun _ => 50)

/- The reply that lists these processes. -/
def nodeReply (pids : List Pid) :
    Status × UpdateUtilizationResponse :=
  (Status.success,
    { success := true
      message :=
        "utilization updated for workspace_subdir='job'".toList
      pids := pids })

/- The node is updated, and the controller replies so. -/
def updateTrace
    (pids : List Pid)
    (errcode : Int) :
    List IntegratedEvent :=
  [⟨.initChannel .queryResource "pool:9000".toList, true⟩,
    ⟨.queryResource "t1".toList,
      .ok ⟨some ⟨0, []⟩,
        [⟨some ⟨"n1".toList, 80⟩, none, []⟩]⟩⟩,
    ⟨.updateUtilization "n1:80".toList
        ⟨"job".toList, 80⟩,
      nodeReply pids⟩,
    ⟨.initChannel .updateResource "pool:9000".toList, true⟩,
    ⟨.updateResource "t1".toList 80,
      .ok ⟨some ⟨errcode, []⟩, ()⟩⟩]

/- The node's part of such a run. -/
theorem nodeAnswers_nodeRun
    {task failing pids : List Pid}
    (hReply :
      (nodeRun task failing).1 =
        ((nodeReply pids).1, some (nodeReply pids).2)) :
    NodeAnswers smallRoot task ⟨"job".toList, 80⟩
      (nodeReply pids) (fun _ => 50)
      (nodeRun task failing).2 := by
  have hRun :=
    runs_history (nodeHandler_follows task failing)
      (updateUtilization smallRoot ⟨"job".toList, 80⟩)
      (fun _ => 50)
  refine Or.inr ⟨_, _, hRun, Or.inr ⟨?_, ?_⟩⟩
  · exact (congrArg Prod.fst hReply).symm
  · exact congrArg Prod.snd hReply

/- The controller records the update. -/
theorem runs_recorded_update
    {task failing pids : List Pid}
    (hReply :
      (nodeRun task failing).1 =
        ((nodeReply pids).1, some (nodeReply pids).2)) :
    Runs (storeAnswers smallRoot task) ⟨fun _ => 50, 50⟩
      (updateRunningTaskUtilization updateOptions)
      (updateTrace pids 0) (.ok 0)
      ⟨(nodeRun task failing).2, 80⟩ := by
  have hNode := nodeAnswers_nodeRun hReply
  refine runs_call ⟨fun _ => 50, 50⟩ (by trivial) ?_
  refine runs_call ⟨fun _ => 50, 50⟩ (by trivial) ?_
  refine
    runs_call ⟨(nodeRun task failing).2, 50⟩
      (by exact ⟨hNode, rfl⟩) ?_
  refine
    runs_call ⟨(nodeRun task failing).2, 50⟩ (by trivial) ?_
  refine
    runs_call ⟨(nodeRun task failing).2, 80⟩
      (by exact ⟨rfl, Or.inl rfl⟩) ?_
  exact .ret _ _

/- Both are updated. -/
theorem update_stores_both :
    UpdateEnds [7, 8] 50 80 ⟨fun _ => 50, 50⟩ (.ok 0)
      [some [7, 8]] ⟨(nodeRun [7, 8] []).2, 80⟩ :=
  update_stores smallRoot [7, 8] updateOptions
    ⟨fun _ _ => rfl, rfl⟩
    (runs_recorded_update (by decide +kernel))

/-
  A process that could not be hinted keeps the old value
  although the update returns 0.  And where the controller
  refuses what the node has already done, the update returns
  1 and the two disagree.
-/
theorem update_stores_disagree :
    (¬ ∀ (task : List Pid) (opts : ProgramOptions)
      (old : Int) (trace : List IntegratedEvent)
      (g g' : Utilizations),
      g.Holds task old →
        Runs (storeAnswers smallRoot task) g
            (updateRunningTaskUtilization opts)
            trace (.ok 0) g' →
          g'.Holds task opts.xsched.xschedUtilization) ∧
    (¬ ∀ (task : List Pid) (opts : ProgramOptions)
      (old : Int) (trace : List IntegratedEvent)
      (result : Except Str Nat) (g g' : Utilizations),
      g.Holds task old →
        Runs (storeAnswers smallRoot task) g
            (updateRunningTaskUtilization opts)
            trace result g' →
          result ≠ .ok 0 → g'.Holds task old) := by
  constructor
  · intro hAgree
    have hReply :
        (nodeRun [7, 8] [8]).1 =
          ((nodeReply [7]).1, some (nodeReply [7]).2) := by
      decide +kernel
    have hBoth :=
      hAgree [7, 8] updateOptions 50 _ _ _
        ⟨fun _ _ => rfl, rfl⟩ (runs_recorded_update hReply)
    have hKept := hBoth.1 8 (by decide)
    revert hKept
    decide +kernel
  · intro hAgree
    have hReply :
        (nodeRun [7] []).1 =
          ((nodeReply [7]).1, some (nodeReply [7]).2) := by
      decide +kernel
    have hNode := nodeAnswers_nodeRun hReply
    have hRun :
        Runs (storeAnswers smallRoot [7]) ⟨fun _ => 50, 50⟩
          (updateRunningTaskUtilization updateOptions)
          (updateTrace [7] 1) (.ok 1)
          ⟨(nodeRun [7] []).2, 50⟩ := by
      refine runs_call ⟨fun _ => 50, 50⟩ (by trivial) ?_
      refine runs_call ⟨fun _ => 50, 50⟩ (by trivial) ?_
      refine
        runs_call ⟨(nodeRun [7] []).2, 50⟩
          (by exact ⟨hNode, rfl⟩) ?_
      refine runs_call ⟨(nodeRun [7] []).2, 50⟩ (by trivial) ?_
      refine
        runs_call ⟨(nodeRun [7] []).2, 50⟩
          (by exact ⟨rfl, Or.inr ⟨rfl, rfl⟩⟩) ?_
      exact .ret _ _
    have hBoth :=
      hAgree [7] updateOptions 50 _ _ _ _
        ⟨fun _ _ => rfl, rfl⟩ hRun (by simp)
    have hKept := hBoth.1 7 (by decide)
    revert hKept
    decide +kernel

end Drex
