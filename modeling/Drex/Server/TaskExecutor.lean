import Drex.Server.DownloadSession

/-
  `TaskExecutor`: prepare the workspace of a submission,
  start its command and wait for the end.

  Key definitions include:
    * `parseEnvMillis`
    * `shellEscape`
    * `buildCommandForExecution`
    * `configureDrexRuntimeEnvironment`
    * `startChildProcess`
    * `childProcess`
    * `runCommand`
    * `execute`
-/

------------------------------------------------------------
-- Texts
------------------------------------------------------------

namespace Drex

/- One character inside single quotes. -/
def escapeChar (c : Char) : Str :=
  if c = '\'' then "'\\''".toList else [c]

/- `ShellEscape`. -/
def shellEscape (input : Str) : Str :=
  '\'' :: input.flatMap escapeChar ++ ['\'']

/- `isspace` in the C locale. -/
def isSpace (c : Char) : Bool :=
  c = ' ' || (decide (9 ≤ c.toNat) && decide (c.toNat ≤ 13))

/-
  `strtol(value, &end, 10)`: the number and what is left, or
  none where no digit was found.
-/
def strtol (value : Str) : Option (Int × Str) :=
  let text := value.dropWhile isSpace
  let negative := decide (text.head? = some '-')
  let unsigned :=
    if text.head? = some '-' ∨ text.head? = some '+' then
      text.tail
    else
      text
  let digits := unsigned.takeWhile Char.isDigit
  if digits = [] then
    none
  else
    let n : Int := Nat.ofDigitChars 10 digits 0
    some
      (if negative then -n else n,
        unsigned.dropWhile Char.isDigit)

/- `ParseEnvMillis`, on the value of the variable. -/
def parseEnvMillis
    (value : Option Str)
    (defaultMs : Int) :
    Int :=
  match value with
  | none => defaultMs
  | some text =>
      match strtol text with
      | none => defaultMs
      | some (parsed, rest) =>
          if rest ≠ [] then
            defaultMs
          else if parsed < 0 then
            -1
          else
            min parsed (24 * 60 * 60 * 1000)

/- `BuildCommandForExecution`. -/
def buildCommandForExecution
    (command : Str)
    (wantPty : Bool) :
    ServerProg Str := do
  if wantPty then
    return command
  else
    let stdbufPath ← perform (.findCommandInPath "stdbuf")
    if stdbufPath = "<not found>".toList ∨
        stdbufPath = "<PATH unset>".toList then
      return command
    else
      return shellEscape stdbufPath ++
        " -oL -eL /bin/sh -c ".toList ++ shellEscape command

end Drex

------------------------------------------------------------
-- The Environment Of A Task
------------------------------------------------------------

namespace Drex

/- `file << utilization << std::endl`. -/
def utilizationText (utilization : Int) : Bytes :=
  (decimal utilization ++ ['\n']).map
    (fun c => c.toNat.toUInt8)

namespace TaskExecutor

/- `ConfigureChildEnvironment`. -/
def configureChildEnvironment
    (wantPty : Bool) :
    ServerProg Unit := do
  perform (.setenv "PYTHONUNBUFFERED" "1".toList false)
  if wantPty then
    perform (.setenv "TERM" "xterm-256color".toList false)

/-
  `WriteRuntimeUtilizationFile` of the executor, which
  reports no failure.
-/
def writeRuntimeUtilizationFile
    (workspaceDir : Path)
    (utilization : Int) :
    ServerProg Unit := do
  if utilization < 0 ∨ 100 < utilization then
    return ()
  else
    let file := runtimeUtilizationPath workspaceDir
    let isOpen ← perform (.openTrunc file)
    if isOpen then
      let _ ←
        perform (.write file 0 (utilizationText utilization))
      let _ ← perform (.close file)
      return ()
    else
      return ()

/- `ConfigureDrexRuntimeEnvironment`. -/
def configureDrexRuntimeEnvironment
    (config : TaskConfig)
    (workspaceDir : Path) :
    ServerProg Unit := do
  perform
    (.setenv "DREX_UTILIZATION_FILE"
      (runtimeUtilizationPath workspaceDir).toString true)
  if config.xschedEnabled ∧ 0 ≤ config.xschedUtilization then
    writeRuntimeUtilizationFile workspaceDir
      config.xschedUtilization

/- `ConfigureXSchedEnvironment`. -/
def configureXSchedEnvironment
    (config : TaskConfig) :
    ServerProg Unit := do
  if config.xschedEnabled then
    perform (.setenv "XSCHED_SCHEDULER" "GLB".toList true)
    perform (.setenv "XSCHED_AUTO_XQUEUE" "ON".toList true)
    perform (.unsetenv "XSCHED_POLICY")
    if 0 ≤ config.xschedUtilization then
      perform
        (.setenv "XSCHED_AUTO_XQUEUE_UTILIZATION"
          (decimal config.xschedUtilization) true)

end TaskExecutor

end Drex

------------------------------------------------------------
-- Starting And Running The Command
------------------------------------------------------------

namespace Drex

namespace TaskExecutor

/- The parent's end of the output is made non-blocking. -/
def configureReadFd
    (pid : Pid)
    (usePty : Bool)
    (failure : String) :
    ServerProg (Except Status ChildProcess) := do
  let nonBlocking ← perform .setNonBlocking
  if nonBlocking then
    return .ok { pid := pid, usePty := usePty }
  else
    perform .closeFd
    perform (.kill pid)
    perform (.waitpid pid)
    let errno ← perform .strerror
    return .error (Status.systemError failure errno)

/- `StartChildProcess` with a terminal. -/
def startWithPty :
    ServerProg (Except Status ChildProcess) := do
  let pid ← perform .forkpty
  match pid with
  | none =>
      let errno ← perform .strerror
      return .error
        (Status.systemError "forkpty failed: " errno)
  | some pid =>
      configureReadFd pid true "Failed to configure PTY fd: "

/- `StartChildProcess` with a pipe. -/
def startWithPipe :
    ServerProg (Except Status ChildProcess) := do
  let hasPipe ← perform .pipe
  if hasPipe then
    let pid ← perform .fork
    match pid with
    | none =>
        perform .closeFd
        perform .closeFd
        let errno ← perform .strerror
        return .error
          (Status.systemError "Fork failed: " errno)
    | some pid =>
        perform .closeFd
        configureReadFd pid false
          "Failed to configure pipe fd: "
  else
    let errno ← perform .strerror
    return .error
      (Status.systemError "Failed to create pipe: " errno)

/- `StartChildProcess`, in the parent. -/
def startChildProcess
    (config : TaskConfig) :
    ServerProg (Except Status ChildProcess) := do
  let disablePty ← perform (.getenv "RPC_WORK_DISABLE_PTY")
  let wantPty := config.enablePty && disablePty.isNone
  let _ ← buildCommandForExecution config.command wantPty
  if wantPty then
    startWithPty
  else
    startWithPipe

/- `StartChildProcess`, in the child, up to the shell. -/
def childProcess
    (root : WorkspaceRoot)
    (config : TaskConfig)
    (wantPty : Bool)
    (execCommand : Str) :
    ServerProg Unit := do
  let directory :=
    root.path / Path.ofString config.workspaceSubdir
  perform (.setpgid 0)
  configureChildEnvironment wantPty
  configureDrexRuntimeEnvironment config directory
  configureXSchedEnvironment config
  let entered ← perform (.chdir directory)
  if entered then
    if wantPty then
      perform (.execShell execCommand)
    else
      perform .closeFd
      let redirected ← perform .dup2
      if redirected then
        perform .closeFd
        perform (.execShell execCommand)

/-
  `MonitorChildProcess`, whose threads are the machine
  `Monitor`. Its second thread is made after the starting
  notice; where `std::thread` throws there is no outcome.
-/
def monitorChildProcess
    (child : ChildProcess) :
    ServerProg (Option MonitorOutcome) := do
  let idleTimeout ←
    perform (.getenv "RPC_WORK_IDLE_TIMEOUT_MS")
  perform
    (.monitor child
      { hasContext := true
        usePty := child.usePty
        idleTimeoutMs := parseEnvMillis idleTimeout (-1) })

/-
  `RunCommand`. An exception of the monitor passes through
  it, since no guard unregisters the group.
-/
def runCommand (config : TaskConfig) : ServerProg Ending := do
  let started ← startChildProcess config
  match started with
  | .error status => return .status status
  | .ok child =>
      perform (.setpgid child.pid)
      perform
        (.registerTaskProcessGroup
          config.workspaceSubdir child.pid)
      let monitored ← monitorChildProcess child
      match monitored with
      | none => return .thrown
      | some outcome =>
          perform
            (.unregisterTaskProcessGroup
              config.workspaceSubdir child.pid)
          return .status outcome.status

/- `EmitLogChunk`: an empty chunk is not written. -/
def emitLogChunk (chunk : Str) : ServerProg Unit := do
  if chunk ≠ [] then
    perform (.send (.logChunk chunk))

/- The result `Execute` sets on success. -/
def successResult : TaskResult :=
  { status := .kSuccess
    message := "Task executed successfully.".toList
    outputArchive := []
    archiveSize := 0 }

/- `Execute`. -/
def execute
    (root : WorkspaceRoot)
    (config : TaskConfig) :
    ServerProg (Except Ending TaskResult) := do
  let runDir := subdirPath root config.workspaceSubdir
  if config.command = [] then
    return .error (.status (Status.invalidArgument
      "Command must not be empty!"))
  else
    let dirError ← perform (.createDirectories runDir)
    if dirError.isSome then
      return .error (.status (Status.internal
        ("Failed to prepare workspace directory " ++
          "for execution!")))
    else
      configureDrexRuntimeEnvironment config runDir
      let logged ← perform (.logExecutionContext runDir)
      if logged then
        let ended ← runCommand config
        if ended.isOk then
          emitLogChunk "Command finished.\n".toList
          return .ok successResult
        else
          return .error ended
      else
        return .error .thrown

end TaskExecutor

end Drex
