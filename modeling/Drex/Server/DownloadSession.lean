import Drex.Server.Interface
import Drex.Server.TaskPaths

/-
  `WorkspaceDownloadSession`: the stream of a submission
  becomes files under the workspace root.

  Key definitions include:
    * `Ending`
    * `ResolvedTaskPaths`
    * `resolveTaskPaths`
    * `DownloadSession`
    * `DownloadSession.handleConfig`
    * `DownloadSession.handleFileChunk`
    * `DownloadSession.run`
    * `downloadWorkspace`
-/

------------------------------------------------------------
-- Endings
------------------------------------------------------------

namespace Drex

/- How a function ends: with a status or an exception. -/
inductive Ending
| status (s : Status)
| thrown
deriving DecidableEq

namespace Ending

/- The function returned an OK status. -/
def isOk : Ending → Bool
| .status s => s.isOk
| .thrown => false

def success : Ending :=
  .status Status.success

end Ending

end Drex

------------------------------------------------------------
-- Resolved Paths
------------------------------------------------------------

namespace Drex

structure ResolvedTaskPaths where
  workspaceSubdir : Str
  outputSubdir : Str
  workspacePath : Path
  outputPath : Path
deriving DecidableEq

/- A default-constructed value. -/
def ResolvedTaskPaths.init : ResolvedTaskPaths :=
  { workspaceSubdir := []
    outputSubdir := []
    workspacePath := .empty
    outputPath := .empty }

/-
  `fs::relative(path, workspace_root)`, which throws when
  the status of either path cannot be determined.
-/
def fsRelative
    (root : WorkspaceRoot)
    (p : Path) :
    ServerProg (Option Str) := do
  let pathFound ← perform (.status p)
  let rootFound ← perform (.status root.path)
  if pathFound = .error ∨ rootFound = .error then
    return none
  else
    return some
      (relativeSubdir root (decide (pathFound = .found)) p)

/- The subdirectory a config asks for. -/
def requestedSubdir (config : TaskConfig) : Str :=
  defaultIfEmpty config.workspaceSubdir
    "uploaded_task".toList

/- The output subdirectory a config asks for. -/
def requestedOutput (config : TaskConfig) : Str :=
  defaultIfEmpty config.outputSubdir
    (Path.ofString (requestedSubdir config) /
      Path.ofString "output".toList).toString

/- `workspace_path` of `ResolveTaskPaths`. -/
def resolvedWorkspacePath
    (root : WorkspaceRoot)
    (config : TaskConfig) :
    Path :=
  lexicallyNormalized root.path
    (Path.ofString (requestedSubdir config))

/- `output_path` of `ResolveTaskPaths`. -/
def resolvedOutputPath
    (root : WorkspaceRoot)
    (config : TaskConfig) :
    Path :=
  lexicallyNormalized root.path
    (Path.ofString (requestedOutput config))

/- Neither path escapes the workspace root. -/
def staysInRoot
    (root : WorkspaceRoot)
    (config : TaskConfig) :
    Bool :=
  isSubPath root.path (resolvedWorkspacePath root config) &&
    isSubPath root.path (resolvedOutputPath root config)

/- `ResolveTaskPaths`. -/
def resolveTaskPaths
    (root : WorkspaceRoot)
    (config : TaskConfig) :
    ServerProg (Except Ending ResolvedTaskPaths) := do
  if staysInRoot root config then
    let workspaceSubdir ←
      fsRelative root (resolvedWorkspacePath root config)
    let outputSubdir ←
      fsRelative root (resolvedOutputPath root config)
    match workspaceSubdir, outputSubdir with
    | some workspaceSubdir, some outputSubdir =>
        return .ok
          { workspaceSubdir := workspaceSubdir
            outputSubdir := outputSubdir
            workspacePath := resolvedWorkspacePath root config
            outputPath := resolvedOutputPath root config }
    | _, _ => return .error .thrown
  else
    return .error (.status (Status.permissionDenied
      ("Workspace or output directory escapes " ++
        "server workspace!")))

end Drex

------------------------------------------------------------
-- The Session
------------------------------------------------------------

namespace Drex

/- An open `ofstream`: its file and the next position. -/
structure OutputFile where
  path : Path
  offset : Nat
deriving DecidableEq

/- The private fields that change. -/
structure DownloadSession where
  config : TaskConfig
  paths : ResolvedTaskPaths
  outfile : Option OutputFile
  currentFilePath : Path
  receivedConfig : Bool
deriving DecidableEq

/- A default-constructed `TaskConfig`. -/
def TaskConfig.init : TaskConfig :=
  { workspaceSubdir := []
    command := []
    outputSubdir := []
    enablePty := false
    xschedEnabled := false
    xschedUtilization := 0 }

namespace DownloadSession

def init : DownloadSession :=
  { config := .init
    paths := .init
    outfile := none
    currentFilePath := .empty
    receivedConfig := false }

/- `CloseCurrentFile`, which ignores a failing close. -/
def closeCurrentFile
    (s : DownloadSession) :
    ServerProg DownloadSession :=
  match s.outfile with
  | none => return { s with currentFilePath := .empty }
  | some file => do
      let _ ← perform (.close file.path)
      pure
        { s with
          outfile := none
          currentFilePath := .empty }

/- `need_new_file` of `EnsureOutputFile`. -/
def needNewFile
    (s : DownloadSession)
    (targetPath : Path)
    (fileStart : Bool) :
    Bool :=
  s.outfile.isNone || fileStart ||
    decide (targetPath ≠ s.currentFilePath)

/- The part of `EnsureOutputFile` that opens a file. -/
def openOutputFile
    (s : DownloadSession)
    (targetPath : Path) :
    ServerProg (DownloadSession × Status) := do
  let s ← s.closeCurrentFile
  let dirError ←
    perform (.createDirectories targetPath.parentPath)
  if dirError.isSome then
    return (s, Status.internal
      "Failed to prepare workspace directory!")
  else
    let isOpen ← perform (.openTrunc targetPath)
    if isOpen then
      pure
        ({ s with
            outfile := some ⟨targetPath, 0⟩
            currentFilePath := targetPath },
          Status.success)
    else
      return (s, Status.internal
        "Failed to open file for writing!")

/- `EnsureOutputFile`. -/
def ensureOutputFile
    (s : DownloadSession)
    (targetPath : Path)
    (fileStart : Bool) :
    ServerProg (DownloadSession × Status) :=
  if s.needNewFile targetPath fileStart then
    s.openOutputFile targetPath
  else
    return (s, Status.success)

/- `outfile_.write` and the check of `good()`. -/
def writeData
    (s : DownloadSession)
    (data : Bytes) :
    ServerProg (DownloadSession × Status) :=
  match s.outfile with
  | none =>
      return (s, Status.internal "Failed to write file chunk!")
  | some file => do
      let good ← perform (.write file.path file.offset data)
      if good then
        pure
          ({ s with
              outfile :=
                some
                  { file with
                    offset := file.offset + data.length } },
            Status.success)
      else
        return (s, Status.internal "Failed to write file chunk!")

/- A chunk without data is not written. -/
def writeChunkData
    (s : DownloadSession)
    (data : Bytes) :
    ServerProg (DownloadSession × Status) :=
  if data = [] then
    return (s, Status.success)
  else
    s.writeData data

/- The part of `HandleFileChunk` after the file is open. -/
def storeChunk
    (s : DownloadSession)
    (chunk : TaskFileChunk) :
    ServerProg (DownloadSession × Status) := do
  let (s, status) ← s.writeChunkData chunk.data
  if status.isOk then
    if chunk.fileEnd then
      let s ← s.closeCurrentFile
      return (s, Status.success)
    else
      return (s, Status.success)
  else
    return (s, status)

/- `target_path` of `HandleFileChunk`. -/
def targetPath
    (workspacePath : Path)
    (chunk : TaskFileChunk) :
    Path :=
  lexicallyNormalized workspacePath
    (Path.ofString chunk.relativePath)

/- `HandleFileChunk`. -/
def handleFileChunk
    (s : DownloadSession)
    (chunk : TaskFileChunk) :
    ServerProg (DownloadSession × Status) := do
  let target := targetPath s.paths.workspacePath chunk
  if s.receivedConfig = false then
    return (s, Status.failedPrecondition
      "TaskConfig must be sent before file chunks!")
  else if chunk.relativePath = [] then
    return (s, Status.invalidArgument
      "File chunk missing relative path!")
  else if isSubPath s.paths.workspacePath target = false then
    return (s, Status.permissionDenied
      "File path escapes uploaded workspace!")
  else
    let (s, openStatus) ←
      s.ensureOutputFile target chunk.fileStart
    if openStatus.isOk then
      s.storeChunk chunk
    else
      return (s, openStatus)

/- `HandleConfig`. -/
def handleConfig
    (root : WorkspaceRoot)
    (s : DownloadSession)
    (config : TaskConfig) :
    ServerProg (DownloadSession × Ending) := do
  if s.receivedConfig then
    return (s, .status (Status.invalidArgument
      "Duplicate TaskConfig payload!"))
  else
    let resolved ← resolveTaskPaths root config
    match resolved with
    | .error ending =>
        return ({ s with config := config }, ending)
    | .ok paths =>
        let s :=
          { s with
            paths := paths
            config :=
              { config with
                workspaceSubdir := paths.workspaceSubdir
                outputSubdir := paths.outputSubdir } }
        let lockStatus ←
          perform (.acquire paths.workspaceSubdir)
        if lockStatus.isOk then
          perform
            (.registerCleanupTargets
              paths.workspaceSubdir paths.outputSubdir)
          pure
            ({ s with receivedConfig := true },
              Ending.success)
        else
          return (s, .status lockStatus)

/- What `Run` does with a message that arrived. -/
def handleMessage
    (root : WorkspaceRoot)
    (s : DownloadSession)
    (message : TaskRequest) :
    ServerProg (DownloadSession × Ending) :=
  match message with
  | .config config => s.handleConfig root config
  | .fileChunk chunk => do
      let (s, status) ← s.handleFileChunk chunk
      return (s, .status status)
  | .missing =>
      return (s, .status (Status.invalidArgument
        "TaskRequest payload is missing!"))

/- `Run` after `Read` has returned false. -/
def finish
    (s : DownloadSession) :
    ServerProg (DownloadSession × Ending) := do
  let isCancelled ← perform .isCancelled
  if isCancelled then
    return (s, .status Status.cancelled)
  else if s.receivedConfig = false then
    return (s, .status (Status.invalidArgument
      "TaskConfig payload is missing!"))
  else
    let s ← s.closeCurrentFile
    return (s, Ending.success)

/- `Run` on a stream that delivers these messages. -/
def run
    (root : WorkspaceRoot)
    (s : DownloadSession) :
    List TaskRequest → ServerProg (DownloadSession × Ending)
| [] => do
    perform (.read none)
    s.finish
| message :: messages => do
    perform (.read (some message))
    let isCancelled ← perform .isCancelled
    if isCancelled then
      return (s, .status Status.cancelled)
    else
      let (s, ending) ← s.handleMessage root message
      if ending.isOk then
        run root s messages
      else
        return (s, ending)

end DownloadSession

/-
  `DownloadWorkspace`: `Run` and the destructor of the
  session, which closes a file that is still open.
-/
def downloadWorkspace
    (root : WorkspaceRoot)
    (messages : List TaskRequest) :
    ServerProg (TaskConfig × Ending) := do
  let (s, ending) ←
    DownloadSession.run root DownloadSession.init messages
  let s ← s.closeCurrentFile
  return (s.config, ending)

end Drex
