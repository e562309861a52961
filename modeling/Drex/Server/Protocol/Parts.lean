import Drex.Core.Frame
import Drex.Server.Protocol.Submission

/-
  The kinds of operations the parts of a handler can call,
  whatever they are answered.

  Key definitions include:
    * `ServerOp.WritesFile`
    * `ServerOp.Stores`
    * `ServerOp.Configures`
    * `ServerOp.Transfers`
    * `ServerOp.Prepares`
    * `ServerOp.SetsVariables`
    * `ServerOp.Starts`
    * `ServerOp.Executes`
    * `ServerOp.Cleans`
    * `ServerOp.Hints`
    * `ServerOp.HintsWith`
    * `ServerOp.HintsAmong`
    * `ServerOp.TouchesUtilization`
    * `ServerOp.Updates`

  Key theorems include:
    * `onlyCalls_downloadWorkspace`
    * `TaskExecutor.onlyCalls_configure`
    * `TaskExecutor.onlyCalls_runCommand`
    * `TaskExecutor.onlyCalls_execute`
    * `onlyCalls_destroyGuard`
    * `onlyCalls_update_parts`
    * `onlyCalls_updateUtilization`
-/

------------------------------------------------------------
-- Kinds Of Operations
------------------------------------------------------------

namespace Drex

namespace ServerOp

/- The operations on the open file. -/
def WritesFile : ServerOp → Prop
| .write _ _ _ => True
| .close _ => True
| _ => False

/- The operations that store a chunk. -/
def Stores : ServerOp → Prop
| .createDirectories _ => True
| .openTrunc _ => True
| .write _ _ _ => True
| .close _ => True
| _ => False

/- The operations that accept a config. -/
def Configures : ServerOp → Prop
| .status _ => True
| .acquire _ => True
| .registerCleanupTargets _ _ => True
| _ => False

/- The operations of an upload. -/
def Transfers : ServerOp → Prop
| .read _ => True
| .isCancelled => True
| .status _ => True
| .createDirectories _ => True
| .openTrunc _ => True
| .write _ _ _ => True
| .close _ => True
| .acquire _ => True
| .registerCleanupTargets _ _ => True
| _ => False

/- The operations between the upload and the command. -/
def Prepares : ServerOp → Prop
| .createDirectories _ => True
| .openTrunc _ => True
| .write _ _ _ => True
| .close _ => True
| .getenv _ => True
| .setenv _ _ _ => True
| .findCommandInPath _ => True
| .logExecutionContext _ => True
| _ => False

/- The operations on the environment variables. -/
def SetsVariables : ServerOp → Prop
| .setenv _ _ _ => True
| .unsetenv _ => True
| _ => False

/- The operations that start and watch a command. -/
def Starts : ServerOp → Prop
| .getenv _ => True
| .findCommandInPath _ => True
| .forkpty => True
| .pipe => True
| .fork => True
| .closeFd => True
| .setNonBlocking => True
| .kill _ => True
| .waitpid _ => True
| .strerror => True
| .setpgid _ => True
| .monitor _ _ => True
| .registerTaskProcessGroup _ _ => True
| .unregisterTaskProcessGroup _ _ => True
| _ => False

/- The operations of the run of a command. -/
def Executes : ServerOp → Prop
| .createDirectories _ => True
| .openTrunc _ => True
| .write _ _ _ => True
| .close _ => True
| .getenv _ => True
| .setenv _ _ _ => True
| .findCommandInPath _ => True
| .logExecutionContext _ => True
| .forkpty => True
| .pipe => True
| .fork => True
| .closeFd => True
| .setNonBlocking => True
| .kill _ => True
| .waitpid _ => True
| .strerror => True
| .setpgid _ => True
| .monitor _ _ => True
| .registerTaskProcessGroup _ _ => True
| .unregisterTaskProcessGroup _ _ => True
| .send (.logChunk _) => True
| _ => False

/- The operations of the guard's destructor. -/
def Cleans : ServerOp → Prop
| .cleanupTargets => True
| .removeAll _ => True
| .clearCleanup => True
| .release => True
| _ => False

/- The operations that find and hint a task. -/
def Hints : ServerOp → Prop
| .exists _ => True
| .getenv _ => True
| .strerror => True
| .findTaskProcessGroup _ => True
| .findPidsInProcessGroup _ => True
| .xcliHint _ _ _ => True
| _ => False

/- The operations that hint one utilization. -/
def HintsWith (utilization : Int) : ServerOp → Prop
| .xcliHint _ _ value => value = utilization
| op => op.Hints

/- The operations that hint it to one of these processes. -/
def HintsAmong
    (pids : List Pid)
    (utilization : Int) :
    ServerOp → Prop
| .xcliHint _ pid value => pid ∈ pids ∧ value = utilization
| op => op.Hints

/- The operations on the utilization file of a workspace. -/
def TouchesUtilization
    (root : WorkspaceRoot)
    (workspaceSubdir : Str) :
    ServerOp → Prop
| .weaklyCanonicalRoot => True
| .createDirectories p =>
    p = subdirPath root workspaceSubdir
| .openTrunc p =>
    p = runtimeUtilizationPath
      (subdirPath root workspaceSubdir)
| .write p _ _ =>
    p = runtimeUtilizationPath
      (subdirPath root workspaceSubdir)
| .close p =>
    p = runtimeUtilizationPath
      (subdirPath root workspaceSubdir)
| _ => False

/- The operations of an update. -/
def Updates : ServerOp → Prop
| .weaklyCanonicalRoot => True
| .exists _ => True
| .createDirectories _ => True
| .openTrunc _ => True
| .write _ _ _ => True
| .close _ => True
| .getenv _ => True
| .strerror => True
| .findTaskProcessGroup _ => True
| .findPidsInProcessGroup _ => True
| .xcliHint _ _ _ => True
| _ => False

end ServerOp

end Drex

------------------------------------------------------------
-- The Upload
------------------------------------------------------------

namespace Drex

open Drex.Core.Prog

/- Writing and closing are part of storing a chunk. -/
theorem stores_of_writesFile
    (op : ServerOp)
    (hOp : op.WritesFile) :
    op.Stores := by
  cases op <;> first | exact trivial | exact hOp.elim

/- Storing chunks is part of an upload. -/
theorem transfers_of_stores
    (op : ServerOp)
    (hOp : op.Stores) :
    op.Transfers := by
  cases op <;> first | exact trivial | exact hOp.elim

/- Writing to the open file is part of it, too. -/
theorem transfers_of_writesFile
    (op : ServerOp)
    (hOp : op.WritesFile) :
    op.Transfers :=
  transfers_of_stores op (stores_of_writesFile op hOp)

/- So is accepting a config. -/
theorem transfers_of_configures
    (op : ServerOp)
    (hOp : op.Configures) :
    op.Transfers := by
  cases op <;> first | exact trivial | exact hOp.elim

namespace DownloadSession

/- Closing a file calls nothing when none is open. -/
theorem onlyCalls_closeCurrentFile
    (s : DownloadSession) :
    OnlyCalls ServerOp.WritesFile s.closeCurrentFile := by
  unfold closeCurrentFile
  cases s.outfile with
  | none => exact onlyCalls_pure _
  | some file =>
      apply onlyCalls_call trivial
      intro _
      exact onlyCalls_pure _

/-
  A file is opened after the old one was closed and its
  directory made.
-/
theorem onlyCalls_ensureOutputFile
    (s : DownloadSession)
    (target : Path)
    (fileStart : Bool) :
    OnlyCalls ServerOp.Stores
      (s.ensureOutputFile target fileStart) := by
  unfold ensureOutputFile
  apply onlyCalls_ite
  · intro _
    unfold openOutputFile
    apply onlyCalls_bind
      (onlyCalls_mono stores_of_writesFile
        (onlyCalls_closeCurrentFile s))
    intro s'
    apply onlyCalls_call trivial
    intro dirError
    apply onlyCalls_ite
    · exact fun _ => onlyCalls_pure _
    · intro _
      apply onlyCalls_call trivial
      intro isOpen
      apply onlyCalls_ite
      · exact fun _ => onlyCalls_pure _
      · exact fun _ => onlyCalls_pure _
  · exact fun _ => onlyCalls_pure _

/- An empty chunk writes nothing. -/
theorem onlyCalls_writeChunkData
    (s : DownloadSession)
    (data : Bytes) :
    OnlyCalls ServerOp.WritesFile
      (s.writeChunkData data) := by
  unfold writeChunkData
  apply onlyCalls_ite
  · exact fun _ => onlyCalls_pure _
  · intro _
    unfold writeData
    cases s.outfile with
    | none => exact onlyCalls_pure _
    | some file =>
        apply onlyCalls_call trivial
        intro good
        apply onlyCalls_ite
        · exact fun _ => onlyCalls_pure _
        · exact fun _ => onlyCalls_pure _

/- The chunk is written, and its end closes the file. -/
theorem onlyCalls_storeChunk
    (s : DownloadSession)
    (chunk : TaskFileChunk) :
    OnlyCalls ServerOp.WritesFile (s.storeChunk chunk) := by
  unfold storeChunk
  apply onlyCalls_bind (onlyCalls_writeChunkData s chunk.data)
  rintro ⟨s', status⟩
  apply onlyCalls_ite
  · intro _
    apply onlyCalls_ite
    · intro _
      apply onlyCalls_bind (onlyCalls_closeCurrentFile s')
      intro _
      exact onlyCalls_pure _
    · exact fun _ => onlyCalls_pure _
  · exact fun _ => onlyCalls_pure _

/- A chunk that is refused calls nothing. -/
theorem onlyCalls_handleFileChunk
    (s : DownloadSession)
    (chunk : TaskFileChunk) :
    OnlyCalls ServerOp.Stores
      (s.handleFileChunk chunk) := by
  unfold handleFileChunk
  simp only []
  apply onlyCalls_ite
  · exact fun _ => onlyCalls_pure _
  · intro _
    apply onlyCalls_ite
    · exact fun _ => onlyCalls_pure _
    · intro _
      apply onlyCalls_ite
      · exact fun _ => onlyCalls_pure _
      · intro _
        apply onlyCalls_bind
          (onlyCalls_ensureOutputFile s _ _)
        rintro ⟨s', openStatus⟩
        apply onlyCalls_ite
        · exact fun _ =>
            onlyCalls_mono stores_of_writesFile
              (onlyCalls_storeChunk s' chunk)
        · exact fun _ => onlyCalls_pure _

end DownloadSession

/- `fs::relative` looks up both of its paths. -/
theorem onlyCalls_fsRelative
    (root : WorkspaceRoot)
    (p : Path) :
    OnlyCalls ServerOp.Configures (fsRelative root p) := by
  unfold fsRelative
  apply onlyCalls_call trivial
  intro pathFound
  apply onlyCalls_call trivial
  intro rootFound
  apply onlyCalls_ite
  · exact fun _ => onlyCalls_pure _
  · exact fun _ => onlyCalls_pure _

/- Resolving the paths only looks at the file system. -/
theorem onlyCalls_resolveTaskPaths
    (root : WorkspaceRoot)
    (config : TaskConfig) :
    OnlyCalls ServerOp.Configures
      (resolveTaskPaths root config) := by
  unfold resolveTaskPaths
  apply onlyCalls_ite
  · intro _
    apply onlyCalls_bind (onlyCalls_fsRelative root _)
    intro workspaceSubdir
    apply onlyCalls_bind (onlyCalls_fsRelative root _)
    intro outputSubdir
    cases workspaceSubdir with
    | none => exact onlyCalls_pure _
    | some workspaceSubdir =>
        cases outputSubdir with
        | none => exact onlyCalls_pure _
        | some outputSubdir => exact onlyCalls_pure _
  · exact fun _ => onlyCalls_pure _

namespace DownloadSession

/- A config locks its key and registers what to remove. -/
theorem onlyCalls_handleConfig
    (root : WorkspaceRoot)
    (s : DownloadSession)
    (config : TaskConfig) :
    OnlyCalls ServerOp.Configures
      (s.handleConfig root config) := by
  unfold handleConfig
  apply onlyCalls_ite
  · exact fun _ => onlyCalls_pure _
  · intro _
    apply onlyCalls_bind
      (onlyCalls_resolveTaskPaths root config)
    intro resolved
    cases resolved with
    | error ending => exact onlyCalls_pure _
    | ok paths =>
        apply onlyCalls_call trivial
        intro lockStatus
        apply onlyCalls_ite
        · intro _
          apply onlyCalls_call trivial
          intro _
          exact onlyCalls_pure _
        · exact fun _ => onlyCalls_pure _

/- A message is a config, a chunk or empty. -/
theorem onlyCalls_handleMessage
    (root : WorkspaceRoot)
    (s : DownloadSession)
    (message : TaskRequest) :
    OnlyCalls ServerOp.Transfers
      (s.handleMessage root message) := by
  cases message with
  | config config =>
      exact
        onlyCalls_mono transfers_of_configures
          (onlyCalls_handleConfig root s config)
  | fileChunk chunk =>
      apply onlyCalls_bind
        (onlyCalls_mono transfers_of_stores
          (onlyCalls_handleFileChunk s chunk))
      intro _
      exact onlyCalls_pure _
  | missing => exact onlyCalls_pure _

/- The end of the stream looks for a cancellation. -/
theorem onlyCalls_finish
    (s : DownloadSession) :
    OnlyCalls ServerOp.Transfers s.finish := by
  unfold finish
  apply onlyCalls_call trivial
  intro isCancelled
  apply onlyCalls_ite
  · exact fun _ => onlyCalls_pure _
  · intro _
    apply onlyCalls_ite
    · exact fun _ => onlyCalls_pure _
    · intro _
      apply onlyCalls_bind
        (onlyCalls_mono transfers_of_writesFile
          (onlyCalls_closeCurrentFile s))
      intro _
      exact onlyCalls_pure _

/- Every message of the stream is one step. -/
theorem onlyCalls_run
    (root : WorkspaceRoot)
    (s : DownloadSession)
    (messages : List TaskRequest) :
    OnlyCalls ServerOp.Transfers (run root s messages) := by
  induction messages generalizing s with
  | nil =>
      unfold run
      apply onlyCalls_call trivial
      intro _
      exact onlyCalls_finish s
  | cons message messages ih =>
      unfold run
      apply onlyCalls_call trivial
      intro _
      apply onlyCalls_call trivial
      intro isCancelled
      apply onlyCalls_ite
      · exact fun _ => onlyCalls_pure _
      · intro _
        apply onlyCalls_bind
          (onlyCalls_handleMessage root s message)
        rintro ⟨s', ending⟩
        apply onlyCalls_ite
        · exact fun _ => ih s'
        · exact fun _ => onlyCalls_pure _

end DownloadSession

/-
  `DownloadWorkspace` closes the last file, however it ended.
-/
theorem onlyCalls_downloadWorkspace
    (root : WorkspaceRoot)
    (messages : List TaskRequest) :
    OnlyCalls ServerOp.Transfers
      (downloadWorkspace root messages) := by
  unfold downloadWorkspace
  apply onlyCalls_bind
    (DownloadSession.onlyCalls_run root _ messages)
  rintro ⟨s, ending⟩
  apply onlyCalls_bind
    (onlyCalls_mono transfers_of_writesFile
      (DownloadSession.onlyCalls_closeCurrentFile s))
  intro _
  exact onlyCalls_pure _

end Drex

------------------------------------------------------------
-- Before The Command And After It
------------------------------------------------------------

namespace Drex

open Drex.Core.Prog

namespace TaskExecutor

/- The executor writes its utilization file unchecked. -/
theorem onlyCalls_writeRuntimeUtilizationFile
    (workspaceDir : Path)
    (utilization : Int) :
    OnlyCalls ServerOp.Prepares
      (writeRuntimeUtilizationFile
        workspaceDir utilization) := by
  unfold writeRuntimeUtilizationFile
  apply onlyCalls_ite
  · exact fun _ => onlyCalls_pure _
  · intro _
    apply onlyCalls_call trivial
    intro isOpen
    apply onlyCalls_ite
    · intro _
      apply onlyCalls_call trivial
      intro _
      apply onlyCalls_call trivial
      intro _
      exact onlyCalls_pure _
    · exact fun _ => onlyCalls_pure _

/- The file is only written with a utilization in the config. -/
theorem onlyCalls_configure
    (config : TaskConfig)
    (workspaceDir : Path) :
    OnlyCalls ServerOp.Prepares
      (configureDrexRuntimeEnvironment
        config workspaceDir) := by
  unfold configureDrexRuntimeEnvironment
  apply onlyCalls_call trivial
  intro _
  apply onlyCalls_ite
  · intro _
    exact onlyCalls_writeRuntimeUtilizationFile _ _
  · exact fun _ => onlyCalls_pure _

end TaskExecutor

namespace TaskExecutor

/- The child sets `PYTHONUNBUFFERED`, and `TERM` for a PTY. -/
theorem onlyCalls_configureChildEnvironment
    (wantPty : Bool) :
    OnlyCalls ServerOp.SetsVariables
      (configureChildEnvironment wantPty) := by
  unfold configureChildEnvironment
  apply onlyCalls_call trivial
  intro _
  apply onlyCalls_ite
  · exact fun _ => onlyCalls_perform trivial
  · exact fun _ => onlyCalls_pure _

/- Without the scheduler its variables are left alone. -/
theorem onlyCalls_configureXSchedEnvironment
    (config : TaskConfig) :
    OnlyCalls ServerOp.SetsVariables
      (configureXSchedEnvironment config) := by
  unfold configureXSchedEnvironment
  apply onlyCalls_ite
  · intro _
    apply onlyCalls_call trivial
    intro _
    apply onlyCalls_call trivial
    intro _
    apply onlyCalls_call trivial
    intro _
    apply onlyCalls_ite
    · exact fun _ => onlyCalls_perform trivial
    · exact fun _ => onlyCalls_pure _
  · exact fun _ => onlyCalls_pure _

/- The last steps of the child, after its variables. -/
theorem onlyCalls_entering
    {P : ServerOp → Prop}
    (directory : Path)
    (wantPty : Bool)
    (execCommand : Str)
    (hChdir : P (.chdir directory))
    (hClose : P .closeFd)
    (hDup : P .dup2)
    (hExec : P (.execShell execCommand)) :
    OnlyCalls P
      (do
        let entered ← perform (.chdir directory)
        if entered then
          if wantPty then
            perform (.execShell execCommand)
          else
            perform .closeFd
            let redirected ← perform .dup2
            if redirected then
              perform .closeFd
              perform (.execShell execCommand)) := by
  apply onlyCalls_call hChdir
  intro entered
  apply onlyCalls_ite
  · intro _
    apply onlyCalls_ite
    · exact fun _ => onlyCalls_perform hExec
    · intro _
      apply onlyCalls_call hClose
      intro _
      apply onlyCalls_call hDup
      intro redirected
      apply onlyCalls_ite
      · intro _
        apply onlyCalls_call hClose
        exact fun _ => onlyCalls_perform hExec
      · exact fun _ => onlyCalls_pure _
  · exact fun _ => onlyCalls_pure _

end TaskExecutor

/- Looking up `stdbuf` is all the building of it calls. -/
theorem onlyCalls_buildCommand_finds
    (command : Str)
    (wantPty : Bool) :
    OnlyCalls (fun op => op = .findCommandInPath "stdbuf")
      (buildCommandForExecution command wantPty) := by
  unfold buildCommandForExecution
  apply onlyCalls_ite
  · exact fun _ => onlyCalls_pure _
  · intro _
    refine onlyCalls_call rfl ?_
    intro path
    apply onlyCalls_ite
    · exact fun _ => onlyCalls_pure _
    · exact fun _ => onlyCalls_pure _

/- What comes before the command is part of its run. -/
theorem prepares_executes
    (op : ServerOp)
    (hOp : op.Prepares) :
    op.Executes := by
  cases op <;> first | exact trivial | exact hOp.elim

/- So is what starts it. -/
theorem starts_executes
    (op : ServerOp)
    (hOp : op.Starts) :
    op.Executes := by
  cases op <;> first | exact trivial | exact hOp.elim

namespace TaskExecutor

/- A child whose output cannot be read is killed and reaped. -/
theorem onlyCalls_configureReadFd
    (pid : Pid)
    (usePty : Bool)
    (failure : String) :
    OnlyCalls ServerOp.Starts
      (configureReadFd pid usePty failure) := by
  unfold configureReadFd
  apply onlyCalls_call trivial
  intro nonBlocking
  apply onlyCalls_ite
  · exact fun _ => onlyCalls_pure _
  · intro _
    apply onlyCalls_call trivial
    intro _
    apply onlyCalls_call trivial
    intro _
    apply onlyCalls_call trivial
    intro _
    apply onlyCalls_call trivial
    intro _
    exact onlyCalls_pure _

/- A failed `forkpty` only asks for the error's text. -/
theorem onlyCalls_startWithPty :
    OnlyCalls ServerOp.Starts startWithPty := by
  unfold startWithPty
  apply onlyCalls_call trivial
  intro pid
  cases pid with
  | none =>
      apply onlyCalls_call trivial
      intro _
      exact onlyCalls_pure _
  | some pid => exact onlyCalls_configureReadFd pid _ _

/- The pipe is closed again when the fork fails. -/
theorem onlyCalls_startWithPipe :
    OnlyCalls ServerOp.Starts startWithPipe := by
  unfold startWithPipe
  apply onlyCalls_call trivial
  intro hasPipe
  apply onlyCalls_ite
  · intro _
    apply onlyCalls_call trivial
    intro pid
    cases pid with
    | none =>
        apply onlyCalls_call trivial
        intro _
        apply onlyCalls_call trivial
        intro _
        apply onlyCalls_call trivial
        intro _
        exact onlyCalls_pure _
    | some pid =>
        apply onlyCalls_call trivial
        intro _
        exact onlyCalls_configureReadFd pid _ _
  · intro _
    apply onlyCalls_call trivial
    intro _
    exact onlyCalls_pure _

/- The command is built, and started in one of two ways. -/
theorem onlyCalls_startChildProcess
    (config : TaskConfig) :
    OnlyCalls ServerOp.Starts
      (startChildProcess config) := by
  unfold startChildProcess
  apply onlyCalls_call trivial
  intro disablePty
  have hBuild :
      OnlyCalls ServerOp.Starts
        (buildCommandForExecution config.command
          (config.enablePty && disablePty.isNone)) := by
    refine
      onlyCalls_mono ?_ (onlyCalls_buildCommand_finds _ _)
    rintro op rfl
    trivial
  apply onlyCalls_bind hBuild
  intro _
  apply onlyCalls_ite
  · exact fun _ => onlyCalls_startWithPty
  · exact fun _ => onlyCalls_startWithPipe

/- The group is registered, watched and unregistered. -/
theorem onlyCalls_runCommand
    (config : TaskConfig) :
    OnlyCalls ServerOp.Starts (runCommand config) := by
  unfold runCommand
  apply onlyCalls_bind (onlyCalls_startChildProcess config)
  intro started
  cases started with
  | error status => exact onlyCalls_pure _
  | ok child =>
      apply onlyCalls_call trivial
      intro _
      apply onlyCalls_call trivial
      intro _
      have hMonitor :
          OnlyCalls ServerOp.Starts
            (monitorChildProcess child) := by
        unfold monitorChildProcess
        apply onlyCalls_call trivial
        intro _
        exact onlyCalls_perform trivial
      apply onlyCalls_bind hMonitor
      intro monitored
      cases monitored with
      | none => exact onlyCalls_pure _
      | some outcome =>
          apply onlyCalls_call trivial
          intro _
          exact onlyCalls_pure _

/- `Execute` itself sends only its last line. -/
theorem onlyCalls_execute
    (root : WorkspaceRoot)
    (config : TaskConfig) :
    OnlyCalls ServerOp.Executes (execute root config) := by
  unfold execute
  apply onlyCalls_ite
  · exact fun _ => onlyCalls_pure _
  · intro _
    apply onlyCalls_call trivial
    intro dirError
    apply onlyCalls_ite
    · exact fun _ => onlyCalls_pure _
    · intro _
      apply onlyCalls_bind
        (onlyCalls_mono prepares_executes
          (onlyCalls_configure config _))
      intro _
      apply onlyCalls_call trivial
      intro logged
      apply onlyCalls_ite
      · intro _
        apply onlyCalls_bind
          (onlyCalls_mono starts_executes
            (onlyCalls_runCommand config))
        intro ended
        apply onlyCalls_ite
        · intro _
          have hChunk :
              ∀ chunk : Str,
                OnlyCalls ServerOp.Executes
                  (emitLogChunk chunk) := by
            intro chunk
            unfold emitLogChunk
            apply onlyCalls_ite
            · exact fun _ => onlyCalls_perform trivial
            · exact fun _ => onlyCalls_pure _
          apply onlyCalls_bind (hChunk _)
          intro _
          exact onlyCalls_pure _
        · exact fun _ => onlyCalls_pure _
      · exact fun _ => onlyCalls_pure _

end TaskExecutor

/- Only a path inside the workspace is removed. -/
theorem onlyCalls_removePath
    (root : WorkspaceRoot)
    (relative : Str) :
    OnlyCalls ServerOp.Cleans
      (removePath root relative) := by
  unfold removePath
  apply onlyCalls_ite
  · intro _
    apply onlyCalls_call trivial
    intro _
    exact onlyCalls_pure _
  · exact fun _ => onlyCalls_pure _

/-
  The destructor removes its targets and gives the lock back.
-/
theorem onlyCalls_destroyGuard
    (root : WorkspaceRoot) :
    OnlyCalls ServerOp.Cleans (destroyGuard root) := by
  unfold destroyGuard
  have hCleanup :
      OnlyCalls ServerOp.Cleans (cleanup root) := by
    unfold cleanup
    apply onlyCalls_call trivial
    intro guard
    apply onlyCalls_ite
    · intro _
      apply onlyCalls_bind (onlyCalls_removePath root _)
      intro _
      have hClear :
          OnlyCalls ServerOp.Cleans
            (perform .clearCleanup) :=
        onlyCalls_perform trivial
      apply onlyCalls_ite
      · intro _
        apply onlyCalls_bind (onlyCalls_removePath root _)
        exact fun _ => hClear
      · exact fun _ => hClear
    · exact fun _ => onlyCalls_pure _
  apply onlyCalls_bind hCleanup
  intro _
  apply onlyCalls_call trivial
  intro _
  exact onlyCalls_pure _

/- A failed part of a submission only sends. -/
theorem onlyCalls_failSubmission
    {P : ServerOp → Prop}
    (hSend : ∀ response, P (.send response))
    (ending : Ending) :
    OnlyCalls P (failSubmission ending) := by
  unfold failSubmission
  cases ending with
  | thrown => exact onlyCalls_pure _
  | status status =>
      apply onlyCalls_ite
      · exact fun _ => onlyCalls_pure _
      · intro _
        unfold sendFailure
        apply onlyCalls_call (hSend _)
        intro _
        exact onlyCalls_pure _

/-
  After the download a submission runs the command and sends.
-/
theorem onlyCalls_finishSubmission
    {P : ServerOp → Prop}
    (hExecutes : ∀ op : ServerOp, op.Executes → P op)
    (hSend : ∀ response, P (.send response))
    (root : WorkspaceRoot)
    (config : TaskConfig)
    (ending : Ending) :
    OnlyCalls P (finishSubmission root config ending) := by
  unfold finishSubmission
  apply onlyCalls_ite
  · intro _
    apply onlyCalls_bind
      (onlyCalls_mono hExecutes
        (TaskExecutor.onlyCalls_execute root config))
    intro executed
    cases executed with
    | error failed => exact onlyCalls_failSubmission hSend failed
    | ok result =>
        apply onlyCalls_call (hSend _)
        exact fun _ => onlyCalls_pure _
  · exact fun _ => onlyCalls_failSubmission hSend ending

end Drex

------------------------------------------------------------
-- Updates
------------------------------------------------------------

namespace Drex

open Drex.Core.Prog

/- Hints of these processes are hints of more of them. -/
theorem hintsAmong_mono
    {pids pids' : List Pid}
    {utilization : Int}
    (hSubset : ∀ pid ∈ pids, pid ∈ pids')
    (op : ServerOp)
    (hOp : op.HintsAmong pids utilization) :
    op.HintsAmong pids' utilization := by
  cases op with
  | xcliHint xcli pid value => exact ⟨hSubset pid hOp.1, hOp.2⟩
  | _ => exact hOp

/- They all hint the same utilization. -/
theorem hintsWith_of_among
    {pids : List Pid}
    {utilization : Int}
    (op : ServerOp)
    (hOp : op.HintsAmong pids utilization) :
    op.HintsWith utilization := by
  cases op with
  | xcliHint xcli pid value => exact hOp.2
  | _ => exact hOp

/- One run of `xcli` hints one process. -/
theorem onlyCalls_runXcliHint
    (pid : Pid)
    (utilization : Int) :
    OnlyCalls (ServerOp.HintsAmong [pid] utilization)
      (runXcliHint pid utilization) := by
  have hPath :
      OnlyCalls (ServerOp.HintsAmong [pid] utilization)
        getXcliPath := by
    unfold getXcliPath
    apply onlyCalls_call trivial
    intro env
    cases env with
    | none => exact onlyCalls_pure _
    | some value =>
        apply onlyCalls_ite
        · exact fun _ => onlyCalls_pure _
        · exact fun _ => onlyCalls_pure _
  unfold runXcliHint
  apply onlyCalls_bind hPath
  intro xcli
  apply onlyCalls_call trivial
  intro xcliFound
  cases xcliFound with
  | error => exact onlyCalls_pure _
  | missing => exact onlyCalls_pure _
  | found =>
      refine
        onlyCalls_call ⟨List.mem_singleton_self pid, rfl⟩ ?_
      intro result
      cases result with
      | forkFailed =>
          apply onlyCalls_call trivial
          exact fun _ => onlyCalls_pure _
      | waitFailed =>
          apply onlyCalls_call trivial
          exact fun _ => onlyCalls_pure _
      | finished status =>
          apply onlyCalls_ite
          · exact fun _ => onlyCalls_pure _
          · exact fun _ => onlyCalls_pure _

/- The loop hints the listed processes and no other. -/
theorem onlyCalls_hintAll
    (utilization : Int)
    (pids updated : List Pid)
    (lastError : Str) :
    OnlyCalls (ServerOp.HintsAmong pids utilization)
      (hintAll utilization pids updated lastError) := by
  induction pids generalizing updated lastError with
  | nil => exact onlyCalls_pure _
  | cons pid pids ih =>
      have hRest :
          ∀ updated' error',
            OnlyCalls
              (ServerOp.HintsAmong (pid :: pids) utilization)
              (hintAll utilization pids updated' error') :=
        fun updated' error' =>
          onlyCalls_mono
            (hintsAmong_mono fun _ => List.mem_cons_of_mem pid)
            (ih updated' error')
      unfold hintAll
      apply onlyCalls_bind
        (onlyCalls_mono
          (hintsAmong_mono fun other hMem => by
            rw [List.mem_singleton.mp hMem]
            exact List.mem_cons_self)
          (onlyCalls_runXcliHint pid utilization))
      intro hinted
      rcases hinted with _ | _ | error
      · exact onlyCalls_pure _
      · exact hRest _ _
      · exact hRest _ _

/- An update hints no other utilization than its own. -/
theorem onlyCalls_updateTask_hintsWith
    (workspaceSubdir : Str)
    (utilization : Int) :
    OnlyCalls (ServerOp.HintsWith utilization)
      (updateTaskProcessUtilization
        workspaceSubdir utilization) := by
  unfold updateTaskProcessUtilization
  apply onlyCalls_ite
  · exact fun _ => onlyCalls_pure _
  · intro _
    apply onlyCalls_ite
    · exact fun _ => onlyCalls_pure _
    · intro _
      apply onlyCalls_call trivial
      intro group
      cases group with
      | none => exact onlyCalls_pure _
      | some pgid =>
          apply onlyCalls_call trivial
          intro listed
          rcases listed with _ | _ | ⟨pid, pids⟩
          · exact onlyCalls_pure _
          · exact onlyCalls_pure _
          · apply onlyCalls_bind
              (onlyCalls_mono hintsWith_of_among
                (onlyCalls_hintAll utilization _ _ _))
            intro hinted
            rcases hinted with _ | ⟨updated, lastError⟩
            · exact onlyCalls_pure _
            · apply onlyCalls_ite
              · exact fun _ => onlyCalls_pure _
              · exact fun _ => onlyCalls_pure _

/- Finding and hinting a task touches no file. -/
theorem onlyCalls_updateTaskProcessUtilization
    (workspaceSubdir : Str)
    (utilization : Int) :
    OnlyCalls ServerOp.Hints
      (updateTaskProcessUtilization
        workspaceSubdir utilization) := by
  refine
    onlyCalls_mono ?_ (onlyCalls_updateTask_hintsWith _ _)
  intro op hOp
  cases op <;> first | exact trivial | exact hOp.elim

/- The request's file is the only one that is opened. -/
theorem onlyCalls_writeRuntimeUtilizationFile
    (root : WorkspaceRoot)
    (workspaceSubdir : Str)
    (utilization : Int) :
    OnlyCalls
      (ServerOp.TouchesUtilization root workspaceSubdir)
      (writeRuntimeUtilizationFile root
        workspaceSubdir utilization) := by
  unfold writeRuntimeUtilizationFile
  apply onlyCalls_ite
  · exact fun _ => onlyCalls_pure _
  · intro _
    apply onlyCalls_ite
    · exact fun _ => onlyCalls_pure _
    · intro _
      apply onlyCalls_call trivial
      intro rootError
      cases rootError with
      | some message => exact onlyCalls_pure _
      | none =>
          apply onlyCalls_ite
          · exact fun _ => onlyCalls_pure _
          · intro _
            refine onlyCalls_call rfl ?_
            intro dirError
            cases dirError with
            | some message => exact onlyCalls_pure _
            | none =>
                refine onlyCalls_call rfl ?_
                intro isOpen
                apply onlyCalls_ite
                · intro _
                  refine onlyCalls_call rfl ?_
                  intro good
                  refine onlyCalls_call rfl ?_
                  intro _
                  apply onlyCalls_ite
                  · exact fun _ => onlyCalls_pure _
                  · exact fun _ => onlyCalls_pure _
                · exact fun _ => onlyCalls_pure _

/- An update hints, or reaches the file of its workspace. -/
theorem onlyCalls_update_parts
    (root : WorkspaceRoot)
    (request : UpdateUtilizationRequest) :
    OnlyCalls
      (fun op =>
        op.Hints ∨
          op.TouchesUtilization root request.workspaceSubdir)
      (updateUtilization root request) := by
  unfold updateUtilization
  apply onlyCalls_bind
    (onlyCalls_mono (fun _ hOp => Or.inl hOp)
      (onlyCalls_updateTaskProcessUtilization _ _))
  intro updated
  cases updated with
  | none => exact onlyCalls_pure _
  | some result =>
      apply onlyCalls_bind
        (onlyCalls_mono (fun _ hOp => Or.inr hOp)
          (onlyCalls_writeRuntimeUtilizationFile root _ _))
      intro _
      exact onlyCalls_pure _

/- An update takes no lock and sends nothing. -/
theorem onlyCalls_updateUtilization
    (root : WorkspaceRoot)
    (request : UpdateUtilizationRequest) :
    OnlyCalls ServerOp.Updates
      (updateUtilization root request) := by
  refine onlyCalls_mono ?_ (onlyCalls_update_parts root _)
  rintro op (hOp | hOp)
  · cases op <;> first | exact trivial | exact hOp.elim
  · cases op <;> first | exact trivial | exact hOp.elim

end Drex
