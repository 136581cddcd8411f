/-
# AsterKV.Server.TcpServerRuntime -- a server process

The pipeline refers to one of two storages.  `run` recovers it when it is the logged one,
installs the signal handlers, and hands over to the accept loop; each of these can end it
before a client is served.

A life is one process with everything that the kernel, its clients and its signals do to
it; it is over between any two turns of its threads.  `lifetime` is what a life leaves on the
disk.
-/
import AsterKV.Network.Workers
import AsterKV.Pipeline.LocalPipeline
import AsterKV.Server.TcpServerOptions
import AsterKV.Wal.Node

namespace AsterKV.Server

open AsterKV.Core AsterKV.Network AsterKV.Pipeline AsterKV.Storage AsterKV.Wal

set_option autoImplicit false

/-! ## Signals -/

/-- How the calls of `installHandlerForSignal` end. -/
structure InstallOutcomes where
  sigemptyset : SetupOutcome := .done
  sigaction : SetupOutcome := .done

def installHandlerForSignal (signalName : Bytes) (outcomes : InstallOutcomes) : Status :=
  match outcomes.sigemptyset with
  | .failed description =>
      .unavailable (bytes "failed to initialize signal mask: " ++ description)
  | .done =>
      match outcomes.sigaction with
      | .failed description =>
          .unavailable (bytes "failed to install " ++ signalName ++ bytes " handler: " ++ description)
      | .done => .ok

structure SignalOutcomes where
  sigint : InstallOutcomes := {}
  sigterm : InstallOutcomes := {}

/-- `SignalShutdownController::install`.  The flag that it resets is only set from then on:
it is the stop callback of the life. -/
def install (outcomes : SignalOutcomes) : Status :=
  let sigintStatus := installHandlerForSignal (bytes "SIGINT") outcomes.sigint
  if !sigintStatus.isOk then sigintStatus
  else
    let sigtermStatus := installHandlerForSignal (bytes "SIGTERM") outcomes.sigterm
    if !sigtermStatus.isOk then sigtermStatus else .ok

/-! ## The storage of the pipeline -/

/-- The engine that the pipeline refers to. -/
inductive PipelineStorage where
  | memory (storage : InMemoryStorage)
  | wal (node : Node)

namespace PipelineStorage

/-- Dispatch on the engine. -/
instance : StorageEngine PipelineStorage where
  set engine key value :=
    match engine with
    | .memory storage =>
        let (status, storage) := StorageEngine.set storage key value
        (status, .memory storage)
    | .wal node =>
        let (status, node) := StorageEngine.set node key value
        (status, .wal node)
  get engine key :=
    match engine with
    | .memory storage => StorageEngine.get storage key
    | .wal node => StorageEngine.get node key
  remove engine key :=
    match engine with
    | .memory storage =>
        let (status, storage) := StorageEngine.remove storage key
        (status, .memory storage)
    | .wal node =>
        let (status, node) := StorageEngine.remove node key
        (status, .wal node)
  exists? engine key :=
    match engine with
    | .memory storage => StorageEngine.exists? storage key
    | .wal node => StorageEngine.exists? node key

end PipelineStorage

def isWalEnabled (options : TcpServerOptions) : Bool := !options.walFilePath.isEmpty

/-- `makeWalStorage` and `selectPipelineStorage`. -/
def makePipelineStorage (options : TcpServerOptions) (fs : FileSystem) : PipelineStorage :=
  if !isWalEnabled options then .memory .empty
  else
    .wal ⟨WalBackedStorage.create .empty options.walFilePath
      { writerOptions := { syncPolicy := options.walSyncPolicy } }, fs⟩

/-! ## The runtime -/

/-- How far `run` gets: it returns before it serves, or it is in the accept loop. -/
inductive Run where
  | returned (status : Status) (storage : PipelineStorage)
  | serving (system : Workers PipelineStorage)

structure TcpServerRuntime where
  options : TcpServerOptions
  storage : PipelineStorage

namespace TcpServerRuntime

/-- The constructor, on the file system that the process finds. -/
def create (options : TcpServerOptions) (fs : FileSystem) : TcpServerRuntime :=
  ⟨options, makePipelineStorage options fs⟩

/-- The options of its server. -/
def lineServerOptions (options : TcpServerOptions) : TcpLineServerOptions where
  maxClientWorkers := options.maxClientWorkers
  clientIdleTimeoutSeconds := options.clientIdleTimeoutSeconds

def recoverStorage : PipelineStorage → Status × PipelineStorage
  | .memory storage => (.ok, .memory storage)
  | .wal node =>
      let (recoveryStatus, engine, fs) := node.engine.recover node.fs
      (recoveryStatus, .wal ⟨engine, fs⟩)

/-- `run` up to the accept loop. -/
def run (runtime : TcpServerRuntime) (signals : SignalOutcomes) (listening : ListenOutcomes)
    (stop : StopRequested) : Run :=
  let (recoveryStatus, storage) := recoverStorage runtime.storage
  if !recoveryStatus.isOk then .returned recoveryStatus storage
  else
    let signalStatus := install signals
    if !signalStatus.isOk then .returned signalStatus storage
    else
      let optionsStatus := validateOptions (lineServerOptions runtime.options)
      if !optionsStatus.isOk then .returned optionsStatus storage
      else match createListeningSocket listening with
        | .error failure => .returned failure.val storage
        | .ok _ => .serving (.initial storage stop)

end TcpServerRuntime

/-! ## Lives -/

/-- All that happens to a process from its start to its end. -/
structure Life where
  /-- What the kernel answers to the calls on the log file. -/
  kernel : Outcomes := {}
  signals : SignalOutcomes := {}
  listening : ListenOutcomes := {}
  stop : StopRequested := .never
  /-- The turns of the accept loop and of the workers, up to the end. -/
  schedule : List WorkerTurn := []
  /-- The process returns from `run` and its destructors run; else it is killed. -/
  orderly : Bool := false

namespace Run

def storage : Run → PipelineStorage
  | .returned _ storage => storage
  | .serving system => system.storage

/-- The lines that were executed, with the clients they are from. -/
def executed : Run → List (Nat × Bytes)
  | .returned _ _ => []
  | .serving system => system.executed

end Run

/-- The file system once the process is over. -/
def PipelineStorage.ended (fs : FileSystem) (orderly : Bool) : PipelineStorage → FileSystem
  | .memory _ => fs
  | .wal node => if orderly then node.engine.writer.destroy node.fs else node.fs

/-- One process: what it comes to, and the file system it leaves. -/
def lifetime (options : TcpServerOptions) (disk : FileSystem) (life : Life) : Run × FileSystem :=
  let fs := { disk with pending := life.kernel }
  let runtime := TcpServerRuntime.create options fs
  match runtime.run life.signals life.listening life.stop with
  | .returned status storage => (.returned status storage, storage.ended fs life.orderly)
  | .serving system =>
      let system := system.after (localPipeline PipelineStorage)
        (TcpServerRuntime.lineServerOptions options) life.schedule
      (.serving system, system.storage.ended fs life.orderly)

end AsterKV.Server
