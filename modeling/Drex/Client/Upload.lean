import Drex.Core.Prog
import Drex.Proto.Messages

/-
  The client's side of a submission: `SendTaskConfig`,
  `StreamWorkspaceFiles` and `TaskSubmit`.

  Reading a local file depends on nothing the stream does,
  so it is a function of the file; the stream is reached by
  operations.

  Key definitions include:
    * `ClientOp`
    * `LocalFile`
    * `LocalFile.read`
    * `sendTaskConfig`
    * `streamChunks`
    * `streamWorkspaceFiles`
    * `streamWorkspaceFilesProgress`
    * `taskSubmit`
-/

------------------------------------------------------------
-- The Stream
------------------------------------------------------------

namespace Drex

/- What the client does with its stream. -/
inductive ClientOp
| write (request : TaskRequest)
| writesDone
| drainServerResponses
| finish
deriving DecidableEq

/- The answer to each operation. -/
@[reducible] def ClientResp : ClientOp → Type
| .write _ => Bool
| .writesDone => Unit
-- The result the server has sent, or a default one.
| .drainServerResponses => TaskResult
| .finish => Status

/- A function of the client. -/
abbrev ClientProg :=
  Core.Prog ClientOp ClientResp

/- Call one operation. -/
abbrev clientPerform
    (op : ClientOp) :
    ClientProg (ClientResp op) :=
  Core.Prog.perform op

end Drex

------------------------------------------------------------
-- Local Files
------------------------------------------------------------

namespace Drex

structure UploadFileSpec where
  localPath : Str
  relativePath : Str
deriving DecidableEq

structure XSchedConfig where
  enabled : Bool
  xschedUtilization : Int
deriving DecidableEq

/-
  A local file as the client finds it: whether it can be
  opened, what `fs::file_size` answers, the bytes before its
  end, and the offset at which reading fails.
-/
structure LocalFile where
  opens : Bool
  size : Option Nat
  data : Bytes
  fault : Option Nat
deriving DecidableEq

/- The local files by their paths. -/
abbrev LocalDisk :=
  Str → LocalFile

/- `kChunkSize`. -/
def kChunkSize : Nat :=
  1024 * 1024

/- The bytes of a `read`, and the state of the stream. -/
structure ReadState where
  bytes : Bytes
  eof : Bool
  good : Bool
deriving DecidableEq

namespace LocalFile

/- Reading these bytes meets the fault of the file. -/
def failsIn (f : LocalFile) (offset count : Nat) : Bool :=
  match f.fault with
  | none => false
  | some position =>
      decide
        (offset ≤ position ∧ position < offset + count ∧
          position ≤ f.data.length)

/-
  `infile.read`.  A failing read sets `badbit` and extracts
  nothing; a short one sets `eofbit` and `failbit`.
-/
def read
    (f : LocalFile)
    (offset count : Nat) :
    ReadState :=
  let bytes := (f.data.drop offset).take count
  if f.failsIn offset count then
    { bytes := [], eof := false, good := false }
  else if bytes.length < count then
    { bytes := bytes, eof := true, good := false }
  else
    { bytes := bytes, eof := false, good := true }

end LocalFile

end Drex

------------------------------------------------------------
-- Streaming The Files
------------------------------------------------------------

namespace Drex

/- The config message of `SendTaskConfig`. -/
def taskConfigOf
    (workspaceSubdir command outputSubdir : Str)
    (enablePty : Bool)
    (xschedConfig : Option XSchedConfig) :
    TaskConfig :=
  { workspaceSubdir := workspaceSubdir
    command := command
    outputSubdir := outputSubdir
    enablePty := enablePty
    xschedEnabled :=
      match xschedConfig with
      | none => false
      | some xsched => xsched.enabled
    xschedUtilization :=
      match xschedConfig with
      | none => 0
      | some xsched =>
          if xsched.enabled ∧ 0 ≤ xsched.xschedUtilization then
            xsched.xschedUtilization
          else
            0 }

/- `SendTaskConfig`. -/
def sendTaskConfig
    (workspaceSubdir command outputSubdir : Str)
    (enablePty : Bool)
    (xschedConfig : Option XSchedConfig) :
    ClientProg Bool :=
  clientPerform
    (.write
      (.config
        (taskConfigOf workspaceSubdir command outputSubdir
          enablePty xschedConfig)))

/- One message of the loop over a file. -/
def chunkOf
    (f : LocalFile)
    (relativePath : Str)
    (firstChunk : Bool)
    (state : ReadState) :
    TaskFileChunk :=
  { data := state.bytes
    relativePath := relativePath
    fileStart := firstChunk
    fileEnd := state.eof
    fileSize :=
      match f.size with
      | none => 0
      | some size => if firstChunk then size else 0 }

theorem LocalFile.read_progress
    {f : LocalFile}
    {offset count : Nat}
    (h : (f.read offset count).bytes ≠ []) :
    offset < f.data.length ∧
      0 < (f.read offset count).bytes.length := by
  have hPos := List.length_pos_of_ne_nil h
  refine ⟨?_, hPos⟩
  by_contra hEnd
  have hNil : (f.data.drop offset).take count = [] := by
    rw [List.drop_eq_nil_of_le (by omega), List.take_nil]
  apply h
  unfold LocalFile.read
  simp only [hNil]
  split
  · rfl
  · split <;> rfl

/- The loop of `StreamWorkspaceFiles` over one open file. -/
def streamChunks
    (f : LocalFile)
    (relativePath : Str)
    (offset : Nat)
    (firstChunk : Bool) :
    ClientProg Status :=
  let state := f.read offset kChunkSize
  if _hRead : state.bytes = [] then
    return Status.success
  else do
    let sent ←
      clientPerform
        (.write
          (.fileChunk
            (chunkOf f relativePath firstChunk state)))
    if sent = false then
      return ⟨.aborted,
        ("Failed to stream file contents " ++
          "to the server.").toList⟩
    else if state.good then
      streamChunks f relativePath
        (offset + state.bytes.length) false
    else
      return Status.success
termination_by f.data.length - offset
decreasing_by
  have hProgress := LocalFile.read_progress _hRead
  omega

/- The loop ends on a read without bytes. -/
theorem streamChunks_done
    {f : LocalFile}
    {offset : Nat}
    (relativePath : Str)
    (firstChunk : Bool)
    (hRead : (f.read offset kChunkSize).bytes = []) :
    streamChunks f relativePath offset firstChunk =
      pure Status.success := by
  rw [streamChunks]
  exact dif_pos hRead

/- The loop sends what it read and goes on while it may. -/
theorem streamChunks_send
    {f : LocalFile}
    {offset : Nat}
    {state : ReadState}
    (relativePath : Str)
    (firstChunk : Bool)
    (hRead : f.read offset kChunkSize = state)
    (hNonempty : state.bytes ≠ []) :
    streamChunks f relativePath offset firstChunk =
      clientPerform
          (.write
            (.fileChunk
              (chunkOf f relativePath firstChunk state))) >>=
        fun sent =>
          if sent = false then
            pure ⟨.aborted,
              ("Failed to stream file contents " ++
                "to the server.").toList⟩
          else if state.good then
            streamChunks f relativePath
              (offset + state.bytes.length) false
          else
            pure Status.success := by
  subst hRead
  rw [streamChunks]
  exact dif_neg hNonempty

/- One file of `StreamWorkspaceFiles`. -/
def streamFile
    (disk : LocalDisk)
    (file : UploadFileSpec) :
    ClientProg Status :=
  let f := disk file.localPath
  if f.opens then
    streamChunks f file.relativePath 0 true
  else
    return ⟨.invalidArgument,
      "Cannot open file: ".toList ++ file.localPath⟩

/- `StreamWorkspaceFiles`. -/
def streamWorkspaceFiles
    (disk : LocalDisk) :
    List UploadFileSpec → ClientProg Status
| [] => return Status.success
| file :: files => do
    let status ← streamFile disk file
    if status.isOk then
      streamWorkspaceFiles disk files
    else
      return status

end Drex

------------------------------------------------------------
-- Counting What Is Sent
------------------------------------------------------------

namespace Drex

/-
  The loop over one open file with `progress->bytes_sent`,
  which grows before each message is written.
-/
def streamChunksProgress
    (f : LocalFile)
    (relativePath : Str)
    (offset : Nat)
    (firstChunk : Bool)
    (bytesSent : Nat) :
    ClientProg (Status × Nat) :=
  let state := f.read offset kChunkSize
  if _hRead : state.bytes = [] then
    return (Status.success, bytesSent)
  else do
    let total := bytesSent + state.bytes.length
    let sent ←
      clientPerform
        (.write
          (.fileChunk
            (chunkOf f relativePath firstChunk state)))
    if sent = false then
      return (⟨.aborted,
        ("Failed to stream file contents " ++
          "to the server.").toList⟩, total)
    else if state.good then
      streamChunksProgress f relativePath
        (offset + state.bytes.length) false total
    else
      return (Status.success, total)
termination_by f.data.length - offset
decreasing_by
  have hProgress := LocalFile.read_progress _hRead
  omega

theorem streamChunksProgress_done
    {f : LocalFile}
    {offset : Nat}
    (relativePath : Str)
    (firstChunk : Bool)
    (bytesSent : Nat)
    (hRead : (f.read offset kChunkSize).bytes = []) :
    streamChunksProgress f relativePath offset firstChunk
        bytesSent =
      pure (Status.success, bytesSent) := by
  rw [streamChunksProgress]
  exact dif_pos hRead

theorem streamChunksProgress_send
    {f : LocalFile}
    {offset : Nat}
    {state : ReadState}
    (relativePath : Str)
    (firstChunk : Bool)
    (bytesSent : Nat)
    (hRead : f.read offset kChunkSize = state)
    (hNonempty : state.bytes ≠ []) :
    streamChunksProgress f relativePath offset firstChunk
        bytesSent =
      clientPerform
          (.write
            (.fileChunk
              (chunkOf f relativePath firstChunk state))) >>=
        fun sent =>
          if sent = false then
            pure (⟨.aborted,
              ("Failed to stream file contents " ++
                "to the server.").toList⟩,
                bytesSent + state.bytes.length)
          else if state.good then
            streamChunksProgress f relativePath
              (offset + state.bytes.length) false
              (bytesSent + state.bytes.length)
          else
            pure
              (Status.success,
                bytesSent + state.bytes.length) := by
  subst hRead
  rw [streamChunksProgress]
  exact dif_neg hNonempty

/- One file of `StreamWorkspaceFiles`, with the count. -/
def streamFileProgress
    (disk : LocalDisk)
    (file : UploadFileSpec)
    (bytesSent : Nat) :
    ClientProg (Status × Nat) :=
  let f := disk file.localPath
  if f.opens then
    streamChunksProgress f file.relativePath 0 true bytesSent
  else
    return (⟨.invalidArgument,
      "Cannot open file: ".toList ++ file.localPath⟩,
        bytesSent)

/- `StreamWorkspaceFiles`, with the count. -/
def streamWorkspaceFilesProgress
    (disk : LocalDisk) :
    List UploadFileSpec → Nat → ClientProg (Status × Nat)
| [], bytesSent => return (Status.success, bytesSent)
| file :: files, bytesSent => do
    let result ← streamFileProgress disk file bytesSent
    if result.1.isOk then
      streamWorkspaceFilesProgress disk files result.2
    else
      return result

/- The loop is the one with the count, without the count. -/
theorem streamChunks_eq
    (f : LocalFile)
    (relativePath : Str)
    (offset : Nat)
    (firstChunk : Bool)
    (bytesSent : Nat) :
    Prod.fst <$>
        streamChunksProgress f relativePath offset firstChunk
          bytesSent =
      streamChunks f relativePath offset firstChunk := by
  induction offset, firstChunk using streamChunks.induct f
      generalizing bytesSent with
  | case1 offset firstChunk state hRead =>
      rw [streamChunks_done _ _ hRead,
        streamChunksProgress_done _ _ _ hRead, map_pure]
  | case2 offset firstChunk state hRead ih =>
      rw [streamChunks_send _ _ rfl hRead,
        streamChunksProgress_send _ _ _ rfl hRead, map_bind]
      congr 1
      funext sent
      cases sent with
      | false => rfl
      | true =>
          simp only [Bool.true_eq_false, if_false]
          split
          · exact ih _
          · rfl

end Drex

------------------------------------------------------------
-- Submitting A Task
------------------------------------------------------------

namespace Drex

/- `effective_output_subdir`. -/
def effectiveOutputSubdir (workspaceSubdir : Str) : Str :=
  (Path.ofString workspaceSubdir /
    Path.ofString "output".toList).toString

/- The status `TaskSubmit` returns once the call finished. -/
def submitStatus
    (uploadStatus : Status)
    (finalResult : TaskResult)
    (status : Status) :
    Status :=
  if status.isOk then
    if uploadStatus.isOk then
      Status.success
    else
      uploadStatus
  else if finalResult.status = .kFailed ∧
      finalResult.message ≠ [] then
    ⟨status.code, finalResult.message⟩
  else
    status

/- `TaskSubmit`. -/
def taskSubmit
    (disk : LocalDisk)
    (files : List UploadFileSpec)
    (workspaceSubdir command : Str)
    (enablePty : Bool)
    (xschedConfig : Option XSchedConfig) :
    ClientProg Status := do
  if files = [] then
    return Status.invalidArgument
      "No files specified for upload."
  else if command = [] then
    return Status.invalidArgument
      "Command must not be empty."
  else
    let sent ←
      sendTaskConfig workspaceSubdir command
        (effectiveOutputSubdir workspaceSubdir)
        enablePty xschedConfig
    if sent = false then
      clientPerform .writesDone
      let _ ← clientPerform .finish
      return ⟨.aborted,
        ("Failed to send task configuration " ++
          "to the server.").toList⟩
    else
      let uploadStatus ← streamWorkspaceFiles disk files
      clientPerform .writesDone
      let finalResult ← clientPerform .drainServerResponses
      let status ← clientPerform .finish
      return submitStatus uploadStatus finalResult status

end Drex
