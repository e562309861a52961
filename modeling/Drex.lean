import Drex.Core.Prog
import Drex.Core.Pool
import Drex.Core.Barrier
import Drex.Core.Ranks
import Drex.Core.Ledger
import Drex.Core.Runs
import Drex.Core.Unsigned
import Drex.Core.Pieces
import Drex.Core.Frame
import Drex.Core.Shell
import Drex.Filesystem.Path
import Drex.Filesystem.Normal
import Drex.Filesystem.Store
import Drex.Filesystem.Links
import Drex.Proto.Messages
import Drex.Client.Upload
import Drex.Client.Stream
import Drex.Client.Framing
import Drex.Client.Collect
import Drex.Client.Verdict
import Drex.Client.Terminal
import Drex.Proto.ResourceControl
import Drex.Monitor.Machine
import Drex.Monitor.Verdict
import Drex.Monitor.Moves
import Drex.Monitor.Supervision
import Drex.Monitor.Release
import Drex.Monitor.Signals
import Drex.Monitor.Cancellable
import Drex.Monitor.Output
import Drex.Server.LockGuard
import Drex.Server.TaskPaths
import Drex.Server.Interface
import Drex.Server.DownloadSession
import Drex.Server.Reassembly
import Drex.Upload.Files
import Drex.Upload.Workspace
import Drex.Server.TaskExecutor
import Drex.Server.CommandLine
import Drex.Server.RemoteService
import Drex.Server.Sessions
import Drex.Server.Grammar
import Drex.Server.Responses
import Drex.Upload.RoundTrip
import Drex.Upload.Interleaving
import Drex.Upload.Truncation
import Drex.Upload.Agreement
import Drex.Upload.Channel
import Drex.Server.Protocol.Starting
import Drex.Server.Protocol.Phases
import Drex.Server.Protocol.Upload
import Drex.Server.Protocol.Submission
import Drex.Server.Protocol.Parts
import Drex.Server.ProcessGroup
import Drex.Server.LockTable
import Drex.Server.Registry
import Drex.Server.Updating
import Drex.Server.Discovery
import Drex.Server.Hosting
import Drex.Server.Hinting
import Drex.Server.Reaching
import Drex.Client.Integrated
import Drex.Server.Containment
import Drex.Server.Stores
import Drex.Client.Arguments
import Drex.Client.Forms
import Drex.Server.StoresAgree
import Drex.Server.Handing
import Drex.Server.Launch
import Drex.Server.Ownership
import Drex.Server.Freshness
import Drex.Upload.Spelling
import Drex.Application.TokenThrottle
import Drex.Application.Doca
import Drex.Application.Pipeline
import Drex.Application.Counters
import Drex.Application.Window
import Drex.Application.Shutdown
import Drex.Application.TimeSlice
import Drex.Application.Launches
import Drex.Application.Measurement
import Drex.Application.WindowLoop
import Drex.Application.TokenLoop
import Drex.Application.ProcessSync
import Drex.Application.Lockstep
import Drex.Application.Finishing
import Drex.Application.Completion
import Drex.Application.HighPriority
import Drex.Application.Lifetimes
import Drex.Application.HintedLoop
import Drex.Core.Tally
import Drex.Upload.Mirror
import Drex.Application.TokenWait
import Drex.Client.Interrupt
import Drex.Monitor.Interrupted
import Drex.Monitor.Returning
import Drex.Core.Format
import Drex.Client.Resource
import Drex.Client.Printed
import Drex.Upload.Shown
