import AsterKV.Core.Bytes
import AsterKV.Core.Status
import AsterKV.Core.Decimal
import AsterKV.Core.FromChars
import AsterKV.Theory.Lines
import AsterKV.Theory.Machine
import AsterKV.Theory.Linearizability
import AsterKV.Theory.Deliveries
import AsterKV.Theory.Durability
import AsterKV.Theory.Journal
import AsterKV.Theory.KeyedLog
import AsterKV.Theory.Decimal
import AsterKV.Theory.Ownership
import AsterKV.Theory.PrefixCode
import AsterKV.Theory.Settings
import AsterKV.Theory.Slots
import AsterKV.Theory.Words
import AsterKV.Theory.Epochs
import AsterKV.Theory.Progress
import AsterKV.Theory.SharedRuns
import AsterKV.Theory.VisibleSteps
import AsterKV.Storage.StorageEngine
import AsterKV.Storage.InMemoryStorage
import AsterKV.Command.Command
import AsterKV.Execution.CommandDispatcher
import AsterKV.Protocol.Parser
import AsterKV.Protocol.CommandWords
import AsterKV.Protocol.ResponseSerializer
import AsterKV.Protocol.PipelinedResponses
import AsterKV.Protocol.CommandLayouts
import AsterKV.Pipeline.LocalPipeline
import AsterKV.Pipeline.MapMachine
import AsterKV.Pipeline.LoggedPipeline
import AsterKV.Client.ResponseRenderer
import AsterKV.Client.DecodedResponses
import AsterKV.Client.BulkGrammar
import AsterKV.Client.CutResponses
import AsterKV.Client.WireRoundTrip
import AsterKV.Client.PrettyResponses
import AsterKV.Client.CutAnswers
import AsterKV.Wal.FileSystem
import AsterKV.Wal.Record
import AsterKV.Wal.RecordCodec
import AsterKV.Wal.FileReader
import AsterKV.Wal.FileWriter
import AsterKV.Wal.WriterRuns
import AsterKV.Wal.SyncPolicy
import AsterKV.Wal.RoundTrip
import AsterKV.Wal.TornLines
import AsterKV.Wal.RecordGrammar
import AsterKV.Wal.NormalForm
import AsterKV.Wal.Replay
import AsterKV.Wal.ReplaySemantics
import AsterKV.Wal.BackedStorage
import AsterKV.Wal.Node
import AsterKV.Wal.CleanRuns
import AsterKV.Wal.Followers
import AsterKV.Wal.AppendedLogs
import AsterKV.Wal.TruncatedLogs
import AsterKV.Wal.FailedAppends
import AsterKV.Wal.AcknowledgedMutations
import AsterKV.Wal.RejectedMutations
import AsterKV.Wal.MemoryRuns
import AsterKV.Wal.SequenceNumbers
import AsterKV.Wal.Recovery
import AsterKV.Wal.Interchange
import AsterKV.Wal.WriterLifecycle
import AsterKV.Wal.DescriptorOwnership
import AsterKV.Wal.PowerLoss
import AsterKV.Wal.RecoveryErrors
import AsterKV.Concurrent.Clients
import AsterKV.Concurrent.Transitions
import AsterKV.Concurrent.Alone
import AsterKV.Concurrent.Histories
import AsterKV.Concurrent.Removals
import AsterKV.Concurrent.Linearizable
import AsterKV.Concurrent.WriteAhead
import AsterKV.Concurrent.LineClients
import AsterKV.Concurrent.LineHistories
import AsterKV.Concurrent.DurableLines
import AsterKV.Network.Socket
import AsterKV.Network.TcpServer
import AsterKV.Network.Framing
import AsterKV.Network.ResponseStream
import AsterKV.Network.ExecutionOrder
import AsterKV.Network.AcceptLoop
import AsterKV.Network.SingleClient
import AsterKV.Network.Chunking
import AsterKV.Network.TcpClient
import AsterKV.Network.RequestResponse
import AsterKV.Network.ServeSteps
import AsterKV.Network.Workers
import AsterKV.Network.WorkerCounts
import AsterKV.Network.WorkerLines
import AsterKV.Network.WorkerLimit
import AsterKV.Network.AcceptFailures
import AsterKV.Network.RunStatus
import AsterKV.Network.TcpEndpoint
import AsterKV.Network.SessionEnds
import AsterKV.Network.WorkerResponses
import AsterKV.Network.ConcurrentRequests
import AsterKV.Network.RealTime
import AsterKV.Network.Shutdown
import AsterKV.Logging.LogLevel
import AsterKV.Server.TcpServerOptions
import AsterKV.Config.ServerConfig
import AsterKV.Config.ConfigLines
import AsterKV.Config.ConfigFile
import AsterKV.Asterd.ListenMode
import AsterKV.Asterd.OptionSources
import AsterKV.Asterd.StartOptions
import AsterKV.Asterd.Main
import AsterKV.Asterd.LocalMode
import AsterKV.Astercli.Modes
import AsterKV.Astercli.Sessions
import AsterKV.Astercli.ExitStatus
import AsterKV.Astercli.Main
import AsterKV.Astercli.ConcurrentSessions
import AsterKV.Server.TcpServerRuntime
import AsterKV.Server.Lifetimes
import AsterKV.Server.LogGrowth
import AsterKV.Concurrent.LineProgress
import AsterKV.Network.AcceptProgress
import AsterKV.Network.ServedClients
