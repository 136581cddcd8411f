/-
# AsterKV.Network.TcpServer -- serving one connection

Three nested loops: `serveClient` receives chunks, `processBufferedLines` answers the
lines that are complete in the buffer, `sendAll` puts one response on the socket.
Each may be cut short by a stop request or by a failed call.

`Session` is the state of the serving thread.  `exchanges` is not a variable of the
code: it records what was asked of the pipeline and what reached the socket.
-/
import AsterKV.Network.Socket
import AsterKV.Pipeline.LocalPipeline

namespace AsterKV.Network

open AsterKV.Core AsterKV.Pipeline

set_option autoImplicit false

def defaultMaxClientWorkers : UInt64 := 128

def defaultClientIdleTimeoutSeconds : UInt32 := 300

structure TcpLineServerOptions where
  maxClientWorkers : UInt64 := defaultMaxClientWorkers
  clientIdleTimeoutSeconds : UInt32 := defaultClientIdleTimeoutSeconds
  deriving DecidableEq, Repr

def validateOptions (options : TcpLineServerOptions) : Status :=
  if options.maxClientWorkers = 0 then
    .invalidArgument (bytes "max client workers must be greater than zero")
  else if options.clientIdleTimeoutSeconds = 0 then
    .invalidArgument (bytes "client idle timeout seconds must be greater than zero")
  else .ok

theorem validateOptions_default : validateOptions {} = .ok := rfl

def isClientIdleTimedOut (options : TcpLineServerOptions) (now lastActivity : TimePoint) : Bool :=
  now - lastActivity ≥ options.clientIdleTimeoutSeconds.toNat * 1000000000

/-- `systemUnavailableError`, given the text of `errno`. -/
def systemUnavailableError (context description : Bytes) : Status :=
  .unavailable (context ++ bytes ": " ++ description)

@[simp] theorem isOk_systemUnavailableError (context description : Bytes) :
    (systemUnavailableError context description).isOk = false := rfl

/-! ## Sending -/

/-- How `sendAll` ends: what it returns, which bytes `send` took, and what is left of
the socket's answers and of the callback's. -/
structure Delivery where
  status : Status
  sent : Bytes
  sends : List SendOutcome
  stop : StopRequested
  deriving DecidableEq

/-- The recursion is on the answers of `send`; `rest` is what is still to be sent. -/
def sendAll : List SendOutcome → StopRequested → Bytes → Delivery
  | sends, stop, [] => ⟨.ok, [], sends, stop⟩
  | [], stop, rest => ⟨.ok, rest, [], stop⟩
  | .sent more :: sends, stop, rest =>
      let delivery := sendAll sends stop (rest.drop (more + 1))
      { delivery with sent := rest.take (more + 1) ++ delivery.sent }
  | .temporary _ :: sends, stop, rest =>
      if stop.poll.1 then ⟨.ok, [], sends, stop.poll.2⟩ else sendAll sends stop.poll.2 rest
  | .wroteNothing :: sends, stop, _ =>
      ⟨.unavailable (bytes "failed to write client connection: zero bytes written"), [], sends,
        stop⟩
  | .failed description :: sends, stop, _ =>
      ⟨systemUnavailableError (bytes "failed to write client connection") description, [], sends,
        stop⟩

theorem sent_prefix (sends : List SendOutcome) (stop : StopRequested) (data : Bytes) :
    (sendAll sends stop data).sent <+: data := by
  induction sends generalizing stop data with
  | nil => cases data <;> simp [sendAll]
  | cons outcome sends ih =>
      cases data with
      | nil => simp [sendAll]
      | cons b data =>
          cases outcome with
          | sent more =>
              obtain ⟨left, split⟩ := ih stop ((b :: data).drop (more + 1))
              refine ⟨left, ?_⟩
              rw [sendAll, List.append_assoc, split, List.take_append_drop]
              simp
          | wroteNothing => simp [sendAll]
          | temporary error =>
              simp only [sendAll]
              split
              · exact List.nil_prefix
              · exact ih _ _
          | failed description => simp [sendAll]

/-- A stop that was requested before a response stays requested after it. -/
theorem sendAll_stop {stop : StopRequested} (requested : stop.poll.1 = true)
    (sends : List SendOutcome) (data : Bytes) : (sendAll sends stop data).stop = stop := by
  have same := StopRequested.poll_of_requested requested
  induction sends generalizing data with
  | nil => cases data <;> rfl
  | cons outcome sends ih =>
      cases data with
      | nil => rfl
      | cons b data =>
          cases outcome with
          | sent more => exact ih _
          | wroteNothing => rfl
          | failed description => rfl
          | temporary error => simp [sendAll, requested, same]

/-! ## Lines and responses -/

/-- One line as the pipeline got it, its response, and the part of it that was sent. -/
structure Exchange where
  line : Bytes
  response : Bytes
  sent : Bytes
  part : sent <+: response
  deriving DecidableEq

structure Session (σ : Type) where
  storage : σ
  sends : List SendOutcome
  stop : StopRequested
  pendingInput : Bytes
  lastActivity : TimePoint
  exchanges : List Exchange
  deriving DecidableEq

variable {σ : Type}

namespace Session

/-- The thread starts. -/
def opened (storage : σ) (socket : Socket) (stop : StopRequested) : Session σ :=
  ⟨storage, socket.sends, stop, [], socket.openedAt, []⟩

/-- The bytes put on the socket. -/
def output (session : Session σ) : Bytes := (session.exchanges.map (·.sent)).flatten

/-- The lines that were executed. -/
def lines (session : Session σ) : List Bytes := session.exchanges.map (·.line)

def responses (session : Session σ) : List Bytes := session.exchanges.map (·.response)

/-- A chunk arrives. -/
def received (session : Session σ) (chunk : Chunk) (now : TimePoint) : Session σ :=
  { session with lastActivity := now, pendingInput := session.pendingInput ++ chunk.data }

/-- The callback is asked. -/
def polled (session : Session σ) : Session σ := { session with stop := session.stop.poll.2 }

end Session

/-- One carriage return at the end of a line belongs to the line break. -/
def stripCarriageReturn (rawLine : Bytes) : Bytes :=
  if endsWith rawLine carriageReturn then rawLine.dropLast else rawLine

variable (pipeline : LinePipeline σ)

def processLineAndSendResponse (session : Session σ) (rawLine : Bytes) : Status × Session σ :=
  let line := stripCarriageReturn rawLine
  let (response, storage) := pipeline.processLine session.storage line
  let delivery := sendAll session.sends session.stop response
  (delivery.status,
    { session with
        storage := storage
        sends := delivery.sends
        stop := delivery.stop
        exchanges := session.exchanges ++ [⟨line, response, delivery.sent, sent_prefix _ _ _⟩] })

/-- The rounds of the loop.  Each erases a line feed, so as many rounds as the buffer
has bytes are enough. -/
def processBufferedRounds : Nat → Session σ → Status × Session σ
  | 0, session => (.ok, session)
  | rounds + 1, session =>
      if lineFeed ∈ session.pendingInput then
        let newlinePosition := session.pendingInput.idxOf lineFeed
        let line := session.pendingInput.take newlinePosition
        let (status, session) := processLineAndSendResponse pipeline session line
        if !status.isOk then (status, session)
        else
          processBufferedRounds rounds
            { session with pendingInput := session.pendingInput.drop (newlinePosition + 1) }
      else (.ok, session)

def processBufferedLines (session : Session σ) : Status × Session σ :=
  processBufferedRounds pipeline session.pendingInput.length session

/-! ## The receive loop -/

/-- How one pass of the receive loop ends. -/
inductive Turn where
  | next
  | leave
  | finish (status : Status)
  deriving DecidableEq

variable (options : TcpLineServerOptions)

/-- One pass of the loop after its condition held: a `recv` and what follows it. -/
def serveTurn (session : Session σ) : RecvOutcome → Turn × Session σ
  | .received chunk now =>
      let (status, session) := processBufferedLines pipeline (session.received chunk now)
      if !status.isOk then (.finish status, session) else (.next, session)
  | .closed => (.leave, session)
  | .interrupted =>
      if session.stop.poll.1 then (.finish .ok, session.polled) else (.next, session.polled)
  | .again now =>
      if session.stop.poll.1 then (.finish .ok, session.polled)
      else if isClientIdleTimedOut options now session.lastActivity then
        (.finish .ok, session.polled)
      else (.next, session.polled)
  | .failed description =>
      (.finish (systemUnavailableError (bytes "failed to read client connection") description),
        session)

/-- The loop: `some status` when the function returns from within, `none` when the
code after the loop is reached. -/
def serveLoop : Session σ → List RecvOutcome → Option Status × Session σ
  | session, [] => (none, session.polled)
  | session, outcome :: incoming =>
      if session.stop.poll.1 then (none, session.polled)
      else match serveTurn pipeline options session.polled outcome with
        | (.next, session) => serveLoop session incoming
        | (.leave, session) => (none, session)
        | (.finish status, session) => (some status, session)

/-- What follows the loop: an unterminated end of the input is a line as well. -/
def serveRest (session : Session σ) : Status × Session σ :=
  if session.pendingInput.isEmpty then (.ok, session)
  else if session.stop.poll.1 then (.ok, session.polled)
  else processLineAndSendResponse pipeline session.polled session.pendingInput

/-- The loop and what follows it. -/
def serveSession (session : Session σ) (incoming : List RecvOutcome) : Status × Session σ :=
  match serveLoop pipeline options session incoming with
  | (some status, session) => (status, session)
  | (none, session) => serveRest pipeline session

def serveClient (storage : σ) (socket : Socket) (stop : StopRequested) : Status × Session σ :=
  serveSession pipeline options (.opened storage socket stop) socket.incoming

end AsterKV.Network
