import Drex.Server.TaskExecutor

/-
  The two RPC handlers of `RemoteServiceImplement`.

  Key definitions include:
    * `cleanup`
    * `taskSubmission`
    * `updateTaskProcessUtilization`
    * `writeRuntimeUtilizationFile`
    * `updateUtilization`
-/

------------------------------------------------------------
-- TaskSubmission
------------------------------------------------------------

namespace Drex

/- `SendFailure`. -/
def sendFailure (message : Str) : ServerProg Unit :=
  perform
    (.send (.result
      { status := .kFailed
        message := message
        outputArchive := []
        archiveSize := 0 }))

/- `remove_path` of `Cleanup`. -/
def removePath
    (root : WorkspaceRoot)
    (relative : Str) :
    ServerProg Unit := do
  if relative ≠ [] then
    let _ ← perform (.removeAll (subdirPath root relative))

/- `WorkspaceLockGuard::Cleanup`. -/
def cleanup (root : WorkspaceRoot) : ServerProg Unit := do
  let guard ← perform .cleanupTargets
  if guard.cleanupRegistered then
    removePath root guard.workspaceSubdir
    if guard.outputSubdir ≠ guard.workspaceSubdir then
      removePath root guard.outputSubdir
    perform .clearCleanup

/- `~WorkspaceLockGuard`. -/
def destroyGuard (root : WorkspaceRoot) : ServerProg Unit := do
  cleanup root
  let _ ← perform .release

/- What the runtime returns for an exception of a handler. -/
def Status.exception : Status :=
  ⟨.unknown,
    "Unexpected error in RPC handling".toList⟩

/-
  A failed part of the submission: a cancelled call and an
  exception send no result.
-/
def failSubmission (ending : Ending) : ServerProg Status := do
  match ending with
  | .thrown => return Status.exception
  | .status status =>
      if status.code = .cancelled then
        return status
      else
        sendFailure status.message
        return status

/- `TaskSubmission` from where `DownloadWorkspace` ends. -/
def finishSubmission
    (root : WorkspaceRoot)
    (config : TaskConfig)
    (ending : Ending) :
    ServerProg Status := do
  if ending.isOk then
    let executed ← TaskExecutor.execute root config
    match executed with
    | .error ending => failSubmission ending
    | .ok result =>
        perform (.send (.result result))
        return Status.success
  else
    failSubmission ending

/- `TaskSubmission` while the guard is alive. -/
def submissionBody
    (root : WorkspaceRoot)
    (messages : List TaskRequest) :
    ServerProg Status := do
  let (config, ending) ← downloadWorkspace root messages
  finishSubmission root config ending

def workspaceFailure : String :=
  "Failed to determine server workspace!"

/- `TaskSubmission` on a stream with these messages. -/
def taskSubmission
    (root : WorkspaceRoot)
    (messages : List TaskRequest) :
    ServerProg Status := do
  let rootError ← perform .weaklyCanonicalRoot
  if rootError.isSome then
    sendFailure workspaceFailure.toList
    return Status.internal workspaceFailure
  else
    let status ← submissionBody root messages
    destroyGuard root
    return status

end Drex

------------------------------------------------------------
-- UpdateUtilization
------------------------------------------------------------

namespace Drex

structure UtilizationUpdateResult where
  success : Bool
  message : Str
  pids : List Pid
deriving DecidableEq

namespace UtilizationUpdateResult

/- A result of a failed update. -/
def failure (message : Str) : UtilizationUpdateResult :=
  { success := false, message := message, pids := [] }

end UtilizationUpdateResult

structure UpdateUtilizationResponse where
  success : Bool
  message : Str
  pids : List Pid
deriving DecidableEq

/- `GetXcliPath`. -/
def getXcliPath : ServerProg Str := do
  let env ← perform (.getenv "XSCHED_XCLI")
  match env with
  | none =>
      return "/home/wyl/xsched/output/bin/xcli".toList
  | some value =>
      if value = [] then
        return "/home/wyl/xsched/output/bin/xcli".toList
      else
        return value

/- `WIFEXITED(status) && WEXITSTATUS(status) == 0`. -/
def exitedCleanly (status : Nat) : Bool :=
  wifexited status && decide (wexitstatus status = 0)

/-
  `RunXcliHint`: none when `fs::exists` throws, otherwise no
  error or its text.
-/
def runXcliHint
    (pid : Pid)
    (utilization : Int) :
    ServerProg (Option ErrorCode) := do
  let xcli ← getXcliPath
  let xcliFound ← perform (.exists xcli)
  match xcliFound with
  | .error => return none
  | .missing =>
      return some (some ("xcli not found: ".toList ++ xcli))
  | .found =>
      let result ← perform (.xcliHint xcli pid utilization)
      match result with
      | .forkFailed =>
          let errno ← perform .strerror
          return some (some ("fork failed: ".toList ++ errno))
      | .waitFailed =>
          let errno ← perform .strerror
          return some
            (some ("waitpid failed: ".toList ++ errno))
      | .finished status =>
          if exitedCleanly status then
            return some none
          else
            return some
              (some ("xcli hint failed for pid ".toList ++
                decimal pid ++ " with status ".toList ++
                decimal status))

/-
  The loop over the processes of the group: the hinted ones
  and the last error, or none after an exception.
-/
def hintAll
    (utilization : Int) :
    List Pid → List Pid → Str →
      ServerProg (Option (List Pid × Str))
| [], updated, lastError => return some (updated, lastError)
| pid :: pids, updated, lastError => do
    let hinted ← runXcliHint pid utilization
    match hinted with
    | none => return none
    | some none =>
        hintAll utilization pids (updated ++ [pid]) lastError
    | some (some error) =>
        hintAll utilization pids updated error

/- `UpdateTaskProcessUtilization`, none after an exception. -/
def updateTaskProcessUtilization
    (workspaceSubdir : Str)
    (utilization : Int) :
    ServerProg (Option UtilizationUpdateResult) := do
  if workspaceSubdir = [] then
    return some (.failure
      "workspace_subdir must not be empty".toList)
  else if utilization < 0 ∨ 100 < utilization then
    return some (.failure
      "utilization must be in [0, 100]".toList)
  else
    let group ←
      perform (.findTaskProcessGroup workspaceSubdir)
    match group with
    | none =>
        return some (.failure
          ("no running task found for workspace_subdir: ".toList
            ++ workspaceSubdir))
    | some pgid =>
        let listed ← perform (.findPidsInProcessGroup pgid)
        match listed with
        | none => return none
        | some [] =>
            return some (.failure
              (("no live process found in " ++
                "task process group: ").toList ++
                decimal pgid))
        | some (pid :: pids) =>
            let hinted ←
              hintAll utilization (pid :: pids) [] []
            match hinted with
            | none => return none
            | some (updated, lastError) =>
                if updated = [] then
                  return some (.failure
                    (defaultIfEmpty lastError
                      ("failed to update utilization for " ++
                        "task process group").toList))
                else
                  return some
                    { success := true
                      pids := updated
                      message :=
                        ("utilization updated for " ++
                          "workspace_subdir='").toList ++
                          workspaceSubdir ++ ['\''] }

/-
  `WriteRuntimeUtilizationFile` of the service: no error, or
  its text.  The destructor of the stream closes the file.
-/
def writeRuntimeUtilizationFile
    (root : WorkspaceRoot)
    (workspaceSubdir : Str)
    (utilization : Int) :
    ServerProg ErrorCode := do
  let workspacePath := subdirPath root workspaceSubdir
  let file := runtimeUtilizationPath workspacePath
  if workspaceSubdir = [] then
    return some "workspace_subdir must not be empty".toList
  else if utilization < 0 ∨ 100 < utilization then
    return some "utilization must be in [0, 100]".toList
  else
    let rootError ← perform .weaklyCanonicalRoot
    match rootError with
    | some message =>
        return some
          ("failed to determine server workspace: ".toList ++
            message)
    | none =>
        if isSubPath root.path workspacePath = false then
          return some
            "workspace_subdir escapes server workspace".toList
        else
          let dirError ←
            perform (.createDirectories workspacePath)
          match dirError with
          | some message =>
              return some
                (("failed to prepare workspace " ++
                  "directory: ").toList ++ message)
          | none =>
              let isOpen ← perform (.openTrunc file)
              if isOpen then
                let good ←
                  perform
                    (.write file 0
                      (utilizationText utilization))
                let _ ← perform (.close file)
                if good then
                  return none
                else
                  return some
                    ("failed to write runtime " ++
                      "utilization file").toList
              else
                return some
                  ("failed to open runtime " ++
                    "utilization file").toList

/- The reply once both stores were tried. -/
def updateReply
    (result : UtilizationUpdateResult)
    (fileError : ErrorCode) :
    Status × UpdateUtilizationResponse :=
  let response : UpdateUtilizationResponse :=
    { success := result.success
      message :=
        match fileError with
        | none => result.message
        | some message =>
            result.message ++ "; ".toList ++ message
      pids := result.pids }
  if result.success = false then
    (⟨.failedPrecondition, result.message⟩, response)
  else
    match fileError with
    | some message => (⟨.internal, message⟩, response)
    | none => (Status.success, response)

/- `UpdateUtilization`, with no response on an exception. -/
def updateUtilization
    (root : WorkspaceRoot)
    (request : UpdateUtilizationRequest) :
    ServerProg
      (Status × Option UpdateUtilizationResponse) := do
  let updated ←
    updateTaskProcessUtilization
      request.workspaceSubdir request.utilization
  match updated with
  | none => return (Status.exception, none)
  | some result =>
      let fileError ←
        writeRuntimeUtilizationFile root
          request.workspaceSubdir request.utilization
      let reply := updateReply result fileError
      return (reply.1, some reply.2)

end Drex
