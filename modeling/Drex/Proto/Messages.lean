import Drex.Filesystem.Store

/-
  The messages of `remote_service.proto` and the status of
  an RPC, with the fields the client and server read.

  Key definitions include:
    * `Status`
    * `TaskConfig`
    * `TaskFileChunk`
    * `TaskRequest`
    * `TaskResponse`
    * `NulFreeStream`
-/

------------------------------------------------------------
-- RPC Status
------------------------------------------------------------

namespace Drex

/- The codes the repository or its RPC runtime returns. -/
inductive StatusCode
| ok
| cancelled
| unknown
| invalidArgument
| deadlineExceeded
| permissionDenied
| resourceExhausted
| failedPrecondition
| aborted
| internal
| unavailable
deriving DecidableEq

/- `grpc::Status`. -/
structure Status where
  code : StatusCode
  message : Str
deriving DecidableEq

namespace Status

/- `grpc::Status::OK`. -/
def success : Status :=
  ⟨.ok, []⟩

/- `status.ok()`. -/
def isOk (s : Status) : Bool :=
  decide (s.code = .ok)

/- The status of a cancelled request. -/
def cancelled : Status :=
  ⟨.cancelled, "Client cancelled request.".toList⟩

/- A request that is malformed in itself. -/
def invalidArgument (message : String) : Status :=
  ⟨.invalidArgument, message.toList⟩

/- A path that leaves its directory. -/
def permissionDenied (message : String) : Status :=
  ⟨.permissionDenied, message.toList⟩

/- A workspace that another submission holds. -/
def resourceExhausted (message : String) : Status :=
  ⟨.resourceExhausted, message.toList⟩

/- A request that comes at the wrong time. -/
def failedPrecondition (message : String) : Status :=
  ⟨.failedPrecondition, message.toList⟩

/- A failure on the server's own side. -/
def internal (message : String) : Status :=
  ⟨.internal, message.toList⟩

/- An internal error with the text of `strerror(errno)`. -/
def systemError (what : String) (errno : Str) : Status :=
  ⟨.internal, what.toList ++ errno⟩

end Status

end Drex

------------------------------------------------------------
-- Requests And Responses
------------------------------------------------------------

namespace Drex

/- `TaskConfig`. -/
structure TaskConfig where
  workspaceSubdir : Str
  command : Str
  outputSubdir : Str
  enablePty : Bool
  xschedEnabled : Bool
  xschedUtilization : Int
deriving DecidableEq

/- `TaskFileChunk`, a piece of one uploaded file. -/
structure TaskFileChunk where
  data : Bytes
  relativePath : Str
  fileStart : Bool
  fileEnd : Bool
  fileSize : Int
deriving DecidableEq

/- `TaskRequest`: its payload, or none. -/
inductive TaskRequest
| config (config : TaskConfig)
| fileChunk (chunk : TaskFileChunk)
| missing
deriving DecidableEq

/- `TaskStatus`. -/
inductive TaskStatus
| kSuccess
| kFailed
deriving DecidableEq

/- `TaskResult`. -/
structure TaskResult where
  status : TaskStatus
  message : Str
  outputArchive : Str
  archiveSize : Int
deriving DecidableEq

/- `TaskResponse`: a piece of output, or the result. -/
inductive TaskResponse
| logChunk (data : Str)
| result (result : TaskResult)
deriving DecidableEq

/- `UpdateUtilizationRequest`. -/
structure UpdateUtilizationRequest where
  workspaceSubdir : Str
  utilization : Int
deriving DecidableEq

end Drex

------------------------------------------------------------
-- Strings That Name Paths
------------------------------------------------------------

namespace Drex

/- The system reads both directories of the config whole. -/
structure TaskConfig.NulFree (config : TaskConfig) :
    Prop where
  workspace : Drex.NulFree config.workspaceSubdir
  output : Drex.NulFree config.outputSubdir

instance (config : TaskConfig) : Decidable config.NulFree :=
  decidable_of_iff
    (Drex.NulFree config.workspaceSubdir ∧
      Drex.NulFree config.outputSubdir)
    ⟨fun h => ⟨h.1, h.2⟩, fun h => ⟨h.1, h.2⟩⟩

/- The system reads every path of the message whole. -/
def TaskRequest.NulFree : TaskRequest → Prop
| .config sent => sent.NulFree
| .fileChunk chunk => Drex.NulFree chunk.relativePath
| .missing => True

instance :
    (message : TaskRequest) → Decidable message.NulFree
| .config sent => inferInstanceAs (Decidable sent.NulFree)
| .fileChunk chunk =>
    inferInstanceAs (Decidable (Drex.NulFree chunk.relativePath))
| .missing => isTrue trivial

/- The system reads every path of the stream whole. -/
def NulFreeStream (messages : List TaskRequest) : Prop :=
  ∀ message ∈ messages, message.NulFree

instance (messages : List TaskRequest) :
    Decidable (NulFreeStream messages) :=
  inferInstanceAs
    (Decidable (∀ message ∈ messages, message.NulFree))

end Drex

------------------------------------------------------------
-- Numbers In Texts
------------------------------------------------------------

namespace Drex

/- `pid_t`. -/
abbrev Pid :=
  Int

/- `std::to_string` of an integer. -/
def decimal (n : Int) : Str :=
  match n with
  | .ofNat n => Nat.toDigits 10 n
  | .negSucc n => '-' :: Nat.toDigits 10 (n + 1)

end Drex
