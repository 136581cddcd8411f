/-
# AsterKV.Network.TcpClient -- one request of the line client

`sendCommandLine` connects, sends its line and a line feed, shuts its side down and
reads until the server closes.  The client has no stop callback: a `send` or `recv`
that is interrupted or times out is tried again.
-/
import AsterKV.Network.AcceptLoop

namespace AsterKV.Network

open AsterKV.Core

set_option autoImplicit false

def defaultTcpClientIOTimeoutSeconds : UInt32 := 5

def defaultTcpClientMaxResponseBytes : UInt64 := 1024 * 1024

structure TcpLineClientOptions where
  ioTimeoutSeconds : UInt32 := defaultTcpClientIOTimeoutSeconds
  maxResponseBytes : UInt64 := defaultTcpClientMaxResponseBytes
  deriving DecidableEq, Repr

/-- How the calls end that connect the client. -/
structure ConnectOutcomes where
  /-- `inet_pton` reads the host as an IPv4 address. -/
  hostIsAddress : Bool := true
  socket : SetupOutcome := .done
  receiveTimeout : SetupOutcome := .done
  sendTimeout : SetupOutcome := .done
  connect : SetupOutcome := .done
  deriving DecidableEq

/-- What the calls on the client's side of a connection are going to answer. -/
structure ClientSocket where
  connecting : ConnectOutcomes := {}
  sends : List SendOutcome := []
  shutdown : SetupOutcome := .done
  incoming : List RecvOutcome := []

namespace TcpClient

def validateCommandLine (commandLine : Bytes) : Status :=
  if commandLine.isEmpty then .invalidArgument (bytes "TCP command line must not be empty")
  else if lineFeed ∈ commandLine ∨ carriageReturn ∈ commandLine then
    .invalidArgument (bytes "TCP command line must not contain newline characters")
  else .ok

def validateOptions (options : TcpLineClientOptions) : Status :=
  if options.ioTimeoutSeconds = 0 then
    .invalidArgument (bytes "TCP client I/O timeout seconds must be greater than zero")
  else if options.maxResponseBytes = 0 then
    .invalidArgument (bytes "TCP client max response bytes must be greater than zero")
  else .ok

theorem validateOptions_default : validateOptions {} = .ok := rfl

def connectSocket (outcomes : ConnectOutcomes) : Result Unit :=
  if !outcomes.hostIsAddress then
    .failure (.invalidArgument (bytes "connect host must be a valid IPv4 address"))
  else do
    outcomes.socket.check (bytes "failed to create TCP client socket")
    outcomes.receiveTimeout.check (bytes "failed to configure TCP client receive timeout")
    outcomes.sendTimeout.check (bytes "failed to configure TCP client send timeout")
    outcomes.connect.check (bytes "failed to connect TCP server")

/-! ## Sending -/

/-- How `sendAll` ends: its status, the bytes that `send` took, the answers left. -/
structure Sent where
  status : Status
  sent : Bytes
  sends : List SendOutcome
  deriving DecidableEq

def sendAll : List SendOutcome → Bytes → Sent
  | sends, [] => ⟨.ok, [], sends⟩
  | [], rest => ⟨.ok, rest, []⟩
  | .sent more :: sends, rest =>
      let later := sendAll sends (rest.drop (more + 1))
      { later with sent := rest.take (more + 1) ++ later.sent }
  | .temporary _ :: sends, rest => sendAll sends rest
  | .wroteNothing :: sends, _ =>
      ⟨.unavailable (bytes "failed to write TCP client request: zero bytes written"), [], sends⟩
  | .failed description :: sends, _ =>
      ⟨systemUnavailableError (bytes "failed to write TCP client request") description, [], sends⟩

/-- The status, and the bytes of the request that were sent. -/
def sendCommand (socket : ClientSocket) (commandLine : Bytes) : Status × Bytes :=
  let line := sendAll socket.sends commandLine
  if !line.status.isOk then (line.status, line.sent)
  else
    let ending := sendAll line.sends (bytes "\n")
    if !ending.status.isOk then (ending.status, line.sent ++ ending.sent)
    else match socket.shutdown with
      | .failed description =>
          (systemUnavailableError (bytes "failed to shutdown TCP client write side") description,
            line.sent ++ ending.sent)
      | .done => (.ok, line.sent ++ ending.sent)

/-! ## Reading -/

def responseTooLargeStatus : Status :=
  .unavailable (bytes "TCP client response exceeds maximum size")

/-- After the loop: the server closed the connection. -/
def finishResponse (response : Bytes) : Result Bytes :=
  if response.isEmpty then .failure (.unavailable (bytes "TCP client received empty response"))
  else .success response

/-- The loop, on what `recv` is going to answer; `response` is what was read so far. -/
def readResponse (maxResponseBytes : UInt64) : List RecvOutcome → Bytes → Result Bytes
  | [], response => finishResponse response
  | .closed :: _, response => finishResponse response
  | .interrupted :: incoming, response => readResponse maxResponseBytes incoming response
  | .again _ :: incoming, response => readResponse maxResponseBytes incoming response
  | .failed description :: _, _ =>
      .failure (systemUnavailableError (bytes "failed to read TCP client response") description)
  | .received chunk _ :: incoming, response =>
      if (response ++ chunk.data).length > maxResponseBytes.toNat then
        .failure responseTooLargeStatus
      else readResponse maxResponseBytes incoming (response ++ chunk.data)

/-- The result, and the bytes that were sent. -/
def sendCommandLine (options : TcpLineClientOptions) (socket : ClientSocket) (commandLine : Bytes) :
    Result Bytes × Bytes :=
  let optionsStatus := validateOptions options
  if !optionsStatus.isOk then (.failure optionsStatus, [])
  else
    let commandStatus := validateCommandLine commandLine
    if !commandStatus.isOk then (.failure commandStatus, [])
    else match connectSocket socket.connecting with
      | .error failure => (.failure failure.val, [])
      | .ok _ =>
          let (sendStatus, sent) := sendCommand socket commandLine
          if !sendStatus.isOk then (.failure sendStatus, sent)
          else (readResponse options.maxResponseBytes socket.incoming [], sent)

/-! ## Accepted lines -/

theorem validateCommandLine_isOk {commandLine : Bytes} :
    (validateCommandLine commandLine).isOk = true ↔
      commandLine ≠ [] ∧ lineFeed ∉ commandLine ∧ carriageReturn ∉ commandLine := by
  unfold validateCommandLine
  split
  · next empty =>
      have nothing : commandLine = [] := by simpa using empty
      simp [nothing]
  · next filled =>
      have some : commandLine ≠ [] := by simpa using filled
      split
      · next broken =>
          simp only [Status.isOk_invalidArgument, Bool.false_eq_true, false_iff]
          rintro ⟨_, noFeed, noReturn⟩
          exact broken.elim noFeed noReturn
      · next whole =>
          rw [not_or] at whole
          simp [some, whole]

end TcpClient

end AsterKV.Network
