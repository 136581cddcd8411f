/-
# AsterKV.Network.AcceptLoop -- runOnce and run

Both modes open a listening socket and take clients from it with `acceptClient`.
`runOnce` serves the first one itself; `run` starts a worker thread for each client, up
to `maxClientWorkers` at a time, and refuses the others.

The list of arrivals is what the calls of `accept` are going to answer; when it runs
out, `accept` waits.  A worker's thread is run to its end when it is started: its
client has the storage to itself.  It keeps its place in the count until the schedule
lets it finish.
-/
import AsterKV.Network.TcpServer

namespace AsterKV.Network

open AsterKV.Core AsterKV.Pipeline

set_option autoImplicit false

/-! ## Sockets -/

/-- How one call that sets a socket up ends. -/
inductive SetupOutcome where
  | done
  | failed (description : Bytes)
  deriving DecidableEq

/-- How the calls that make the listening socket end. -/
structure ListenOutcomes where
  /-- `inet_pton` reads the host as an IPv4 address. -/
  hostIsAddress : Bool := true
  socket : SetupOutcome := .done
  setsockopt : SetupOutcome := .done
  bind : SetupOutcome := .done
  listen : SetupOutcome := .done

/-- A call whose failure ends a function with `systemUnavailableError`. -/
def SetupOutcome.check (outcome : SetupOutcome) (context : Bytes) : Result Unit :=
  match outcome with
  | .done => .success ()
  | .failed description => .failure (systemUnavailableError context description)

def createListeningSocket (outcomes : ListenOutcomes) : Result Unit :=
  if !outcomes.hostIsAddress then
    .failure (.invalidArgument (bytes "listen host must be a valid IPv4 address"))
  else do
    outcomes.socket.check (bytes "failed to create server socket")
    outcomes.setsockopt.check (bytes "failed to configure server socket")
    outcomes.bind.check (bytes "failed to bind server socket")
    outcomes.listen.check (bytes "failed to listen on server socket")

/-- A client that connects: how its two timeouts are set, and its socket. -/
structure Client where
  receiveTimeout : SetupOutcome := .done
  sendTimeout : SetupOutcome := .done
  socket : Socket

def configureClientSocket (client : Client) : Status :=
  match client.receiveTimeout with
  | .failed description =>
      systemUnavailableError (bytes "failed to configure client receive timeout") description
  | .done =>
      match client.sendTimeout with
      | .failed description =>
          systemUnavailableError (bytes "failed to configure client send timeout") description
      | .done => .ok

/-! ## Accepting -/

/-- How one `accept` ends. -/
inductive AcceptOutcome where
  | accepted (client : Client)
  | interrupted
  | failed (description : Bytes)

inductive AcceptClientResultType where
  | accepted
  | stopped
  | failed
  deriving DecidableEq

structure AcceptClientResult where
  type : AcceptClientResultType
  clientFd : Socket
  status : Status

namespace AcceptClientResult

def accepted (clientFd : Socket) : AcceptClientResult := ⟨.accepted, clientFd, .ok⟩

def stopped : AcceptClientResult := ⟨.stopped, .invalid, .ok⟩

def failed (status : Status) : AcceptClientResult := ⟨.failed, .invalid, status⟩

end AcceptClientResult

def acceptFailure (description : Bytes) : Status :=
  systemUnavailableError (bytes "failed to accept client connection") description

/-- The result with the answers left of the callback and of `accept`, or `none` while
`accept` waits. -/
def acceptClient : StopRequested → List AcceptOutcome →
    Option (AcceptClientResult × StopRequested × List AcceptOutcome)
  | stop, [] => if stop.poll.1 then some (.stopped, stop.poll.2, []) else none
  | stop, outcome :: arrivals =>
      if stop.poll.1 then some (.stopped, stop.poll.2, outcome :: arrivals)
      else match outcome with
        | .interrupted =>
            if stop.poll.2.poll.1 then some (.stopped, stop.poll.2.poll.2, arrivals)
            else acceptClient stop.poll.2.poll.2 arrivals
        | .failed description => some (.failed (acceptFailure description), stop.poll.2, arrivals)
        | .accepted client =>
            let configureStatus := configureClientSocket client
            if !configureStatus.isOk then some (.failed configureStatus, stop.poll.2, arrivals)
            else some (.accepted client.socket, stop.poll.2, arrivals)

/-! ## One client -/

variable {σ : Type} (pipeline : LinePipeline σ) (options : TcpLineServerOptions)

/-- What `runOnce` comes to: its status, `none` while `accept` waits, the storage, and
the session of its call of `serveClient`, if any. -/
structure Service (σ : Type) where
  returned : Option Status
  storage : σ
  session : Option (Session σ)

namespace Service

/-- The function returns without serving. -/
def refused (storage : σ) (status : Status) : Service σ := ⟨some status, storage, none⟩

def lines (service : Service σ) : List Bytes := service.session.elim [] Session.lines

def output (service : Service σ) : Bytes := service.session.elim [] Session.output

end Service

def acceptAndServeOneClient (storage : σ) (stop : StopRequested) (arrivals : List AcceptOutcome) :
    Service σ :=
  match acceptClient stop arrivals with
  | none => ⟨none, storage, none⟩
  | some (clientResult, stop, _) =>
      if clientResult.type = .stopped then .refused storage .ok
      else if clientResult.type = .accepted then .refused storage clientResult.status
      else
        let (status, session) := serveClient pipeline options storage clientResult.clientFd stop
        ⟨some status, session.storage, some session⟩

def runOnce (listening : ListenOutcomes) (storage : σ) (arrivals : List AcceptOutcome) : Service σ :=
  let optionsStatus := validateOptions options
  if !optionsStatus.isOk then .refused storage optionsStatus
  else match createListeningSocket listening with
    | .error failure => .refused storage failure.val
    | .ok _ => acceptAndServeOneClient pipeline options storage .never arrivals

/-! ## A worker for each client -/

def clientLimitResponse : Bytes :=
  bytes "-ERR unavailable maximum client worker limit reached\r\n"

/-- A worker and what its thread did: the status and the session of its `serveClient`. -/
structure ClientWorkerSlot (σ : Type) where
  status : Status
  session : Session σ
  finished : Bool
  joined : Bool

structure Server (σ : Type) where
  storage : σ
  stop : StopRequested
  /-- All the workers started so far; the joined ones have left the vector of the code. -/
  workers : List (ClientWorkerSlot σ)
  activeClientWorkers : Nat
  /-- What each refused client was sent. -/
  refusals : List Bytes

namespace Server

def initial (storage : σ) (stop : StopRequested) : Server σ := ⟨storage, stop, [], 0, []⟩

def joinClientWorkers (server : Server σ) : Server σ :=
  { server with workers := server.workers.map ({ · with joined := true }) }

def joinFinishedClientWorkers (server : Server σ) : Server σ :=
  { server with workers := server.workers.map fun worker =>
      if worker.finished then { worker with joined := true } else worker }

/-- The end of a worker's thread: it leaves the count and sets its flag. -/
def finish (server : Server σ) (index : Nat) : Server σ :=
  match server.workers[index]? with
  | none => server
  | some worker =>
      if worker.finished then server
      else
        { server with
            activeClientWorkers := server.activeClientWorkers - 1
            workers := server.workers.set index { worker with finished := true } }

/-- The callback is asked. -/
def polled (server : Server σ) : Server σ := { server with stop := server.stop.poll.2 }

/-- `accept` was waited for; meanwhile these workers finished. -/
def waited (server : Server σ) (stop : StopRequested) (finishing : List Nat) : Server σ :=
  finishing.foldl finish { server with stop := stop }

def hasWorkerCapacity (server : Server σ) : Bool :=
  server.activeClientWorkers < options.maxClientWorkers.toNat

def rejectClientBecauseLimitReached (server : Server σ) (clientFd : Socket) : Server σ :=
  let delivery := sendAll clientFd.sends server.stop clientLimitResponse
  { server with stop := delivery.stop, refusals := server.refusals ++ [delivery.sent] }

/-- The worker's thread, run to its end. -/
def startWorker (server : Server σ) (clientFd : Socket) : Server σ :=
  let (status, session) := serveClient pipeline options server.storage clientFd server.stop
  { server with
      storage := session.storage
      stop := session.stop
      activeClientWorkers := server.activeClientWorkers + 1
      workers := server.workers ++ [⟨status, session, false, false⟩] }

def takeIn (server : Server σ) (clientFd : Socket) : Server σ :=
  if !server.hasWorkerCapacity options then server.rejectClientBecauseLimitReached clientFd
  else server.startWorker pipeline options clientFd

end Server

/-- The passes of the accept loop.  `finishing` tells for each pass which workers, by the
order of their start, finish before a client is counted.  A pass takes an arrival, stops
or waits, so one pass more than there are arrivals is enough. -/
def acceptLoop : Nat → Server σ → List AcceptOutcome → List (List Nat) →
    Option Status × Server σ
  | 0, server, _, _ => (none, server)
  | passes + 1, server, arrivals, finishing =>
      if server.stop.poll.1 then (some .ok, server.polled.joinClientWorkers)
      else
        let server := server.polled.joinFinishedClientWorkers
        match acceptClient server.stop arrivals with
        | none => (none, server)
        | some (clientResult, stop, arrivals) =>
            let server := server.waited stop (finishing.headD [])
            match clientResult.type with
            | .stopped => (some .ok, server.joinClientWorkers)
            | .failed => (some clientResult.status, server.joinClientWorkers)
            | .accepted =>
                acceptLoop passes (server.takeIn pipeline options clientResult.clientFd) arrivals
                  finishing.tail

/-- The status, `none` while `run` goes on, and what the server did. -/
def run (listening : ListenOutcomes) (storage : σ) (stop : StopRequested)
    (arrivals : List AcceptOutcome) (finishing : List (List Nat)) : Option Status × Server σ :=
  let optionsStatus := validateOptions options
  if !optionsStatus.isOk then (some optionsStatus, .initial storage stop)
  else match createListeningSocket listening with
    | .error failure => (some failure.val, .initial storage stop)
    | .ok _ =>
        acceptLoop pipeline options (arrivals.length + 1) (.initial storage stop) arrivals finishing

end AsterKV.Network
