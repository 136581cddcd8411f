/-
# AsterKV.Network.RequestResponse -- one request, one response, end to end

The client's line cannot hold a line end, so the server sees one line and its line
feed, and executes it once.  The client reads until the server closes and compares the
size of what it has read with its limit after every chunk, which comes to comparing the
size of the whole response (`readResponse_eq`).
-/
import AsterKV.Network.Chunking
import AsterKV.Network.TcpClient

namespace AsterKV.Network

open AsterKV.Core AsterKV.Pipeline AsterKV.Storage
open Theory

set_option autoImplicit false

namespace TcpClient

/-! ## The client's side -/

/-- No `recv` fails before the server closes. -/
def Reading : List RecvOutcome → Prop
  | [] => True
  | .closed :: _ => True
  | .failed _ :: _ => False
  | .interrupted :: incoming => Reading incoming
  | .again _ :: incoming => Reading incoming
  | .received _ _ :: incoming => Reading incoming

instance Reading.decidable : ∀ incoming, Decidable (Reading incoming)
  | [] => inferInstanceAs (Decidable True)
  | .closed :: _ => inferInstanceAs (Decidable True)
  | .failed _ :: _ => inferInstanceAs (Decidable False)
  | .interrupted :: incoming => Reading.decidable incoming
  | .again _ :: incoming => Reading.decidable incoming
  | .received _ _ :: incoming => Reading.decidable incoming

/-- No call of the client fails. -/
structure Healthy (socket : ClientSocket) : Prop where
  connecting : connectSocket socket.connecting = .success ()
  sending : Sending socket.sends
  shutdown : socket.shutdown = .done
  reading : Reading socket.incoming

/-- The loop sends what the server's does while no stop is requested; only the texts of its
failures are others. -/
theorem sendAll_unstopped (sends : List SendOutcome) (data : Bytes) :
    (sendAll sends data).sent = (Network.sendAll sends .never data).sent ∧
      (sendAll sends data).sends = (Network.sendAll sends .never data).sends ∧
      (sendAll sends data).status.isOk = (Network.sendAll sends .never data).status.isOk := by
  induction sends generalizing data with
  | nil => cases data <;> exact ⟨rfl, rfl, rfl⟩
  | cons outcome sends ih =>
      cases data with
      | nil => exact ⟨rfl, rfl, rfl⟩
      | cons b data =>
          cases outcome with
          | sent more =>
              obtain ⟨sent, left, ok⟩ := ih ((b :: data).drop (more + 1))
              refine ⟨?_, left, ok⟩
              rw [sendAll, Network.sendAll, sent]
              · simp
              · simp
          | temporary error => exact ih (b :: data)
          | wroteNothing => simp [sendAll, Network.sendAll]
          | failed description =>
              simp [sendAll, Network.sendAll, systemUnavailableError]

theorem sent_of_sending {sends : List SendOutcome} (sending : Sending sends) (data : Bytes) :
    (sendAll sends data).status.isOk = true ∧ (sendAll sends data).sent = data ∧
      Sending (sendAll sends data).sends := by
  obtain ⟨sent, left, ok⟩ := sendAll_unstopped sends data
  obtain ⟨status, whole, still, -⟩ := sendAll_sending sending data
  rw [sent, left, ok, status]
  exact ⟨rfl, whole, still⟩

theorem sendCommand_healthy {socket : ClientSocket} (healthy : Healthy socket)
    (commandLine : Bytes) : sendCommand socket commandLine = (.ok, commandLine ++ [lineFeed]) := by
  obtain ⟨ok, line, left⟩ := sent_of_sending healthy.sending commandLine
  obtain ⟨endOk, ending, _⟩ := sent_of_sending left (bytes "\n")
  simp only [sendCommand, ok, line, endOk, ending, healthy.shutdown, Bool.not_true,
    Bool.false_eq_true, if_false]
  rfl

/-- **The size test after every chunk is a test of the whole response.** -/
theorem readResponse_eq (maxResponseBytes : UInt64) {incoming : List RecvOutcome}
    (reading : Reading incoming) {response : Bytes}
    (inLimit : response.length ≤ maxResponseBytes.toNat) :
    readResponse maxResponseBytes incoming response =
      if (response ++ clientStream incoming).length ≤ maxResponseBytes.toNat then
        finishResponse (response ++ clientStream incoming)
      else .failure responseTooLargeStatus := by
  induction incoming generalizing response with
  | nil => simp [readResponse, clientStream, inLimit]
  | cons outcome incoming ih =>
      cases outcome with
      | closed => simp [readResponse, clientStream, inLimit]
      | failed description => exact reading.elim
      | interrupted => exact ih reading inLimit
      | again now => exact ih reading inLimit
      | received chunk now =>
          rw [readResponse, clientStream, ← List.append_assoc]
          split
          · next tooLong =>
              have longer : (response ++ chunk.data).length ≤
                  (response ++ chunk.data ++ clientStream incoming).length := by simp
              rw [if_neg (by omega)]
          · next fits => exact ih reading (by omega)

/-- What a healthy client sends for an accepted line, and what it makes of the answer. -/
theorem sendCommandLine_healthy {options : TcpLineClientOptions}
    (validOptions : (validateOptions options).isOk = true) {commandLine : Bytes}
    (accepted : (validateCommandLine commandLine).isOk = true) {socket : ClientSocket}
    (healthy : Healthy socket) :
    sendCommandLine options socket commandLine =
      (if (clientStream socket.incoming).length ≤ options.maxResponseBytes.toNat then
          finishResponse (clientStream socket.incoming)
        else .failure responseTooLargeStatus,
        commandLine ++ [lineFeed]) := by
  have read := @readResponse_eq options.maxResponseBytes _ healthy.reading [] (Nat.zero_le _)
  rw [List.nil_append] at read
  simp only [sendCommandLine, validOptions, accepted, healthy.connecting, Result.success,
    sendCommand_healthy healthy, read, Status.isOk_ok, Bool.not_true, Bool.false_eq_true, if_false]

end TcpClient

open TcpClient (sendCommandLine validateCommandLine responseTooLargeStatus)

/-! ## The server's side -/

/-- A request is one line. -/
theorem commandLines_request {commandLine : Bytes}
    (accepted : (validateCommandLine commandLine).isOk = true) :
    commandLines (commandLine ++ [lineFeed]) = [commandLine] := by
  obtain ⟨_, noFeed, noReturn⟩ := TcpClient.validateCommandLine_isOk.1 accepted
  have noEnding : endsWith commandLine carriageReturn = false := by
    rw [Bool.eq_false_iff, ne_eq, endsWith_iff]
    exact fun last => noReturn (List.mem_of_getLast? last)
  rw [commandLines, Lines.lines_line lineFeed noFeed, Lines.lines_nil, List.map_singleton,
    stripCarriageReturn, if_neg (by simp [noEnding])]

variable {σ : Type} (pipeline : LinePipeline σ) (options : TcpLineServerOptions)

/-- **One request, one response.**  A server with a free worker takes the connection in,
and both ends carry the bytes of the other, cut in any way.  Then the worker executes the
client's line once and nothing else, and the client returns the response, or a failure
when the response is longer than its limit. -/
theorem one_request_one_response {server : Server σ}
    (free : server.hasWorkerCapacity options = true) (never : server.stop = .never)
    {connection : Socket} (undisturbed : Undisturbed options connection)
    {clientOptions : TcpLineClientOptions}
    (validOptions : (TcpClient.validateOptions clientOptions).isOk = true) {commandLine : Bytes}
    (accepted : (validateCommandLine commandLine).isOk = true) {client : ClientSocket}
    (healthy : TcpClient.Healthy client)
    (request : clientStream connection.incoming =
      (sendCommandLine clientOptions client commandLine).2) :
    let after := server.takeIn pipeline options connection
    let response := (pipeline.processLine server.storage commandLine).1
    ∃ worker, after.workers = server.workers ++ [worker] ∧
      worker.session.lines = [commandLine] ∧
      after.storage = (pipeline.processLine server.storage commandLine).2 ∧
      (clientStream client.incoming = worker.session.output →
        (sendCommandLine clientOptions client commandLine).1 =
          if response.length ≤ clientOptions.maxResponseBytes.toNat then .success response
          else .failure responseTooLargeStatus) := by
  intro after response
  have exchange := TcpClient.sendCommandLine_healthy validOptions accepted healthy
  rw [exchange] at request ⊢
  obtain ⟨lines, output, storage⟩ := undisturbed.serveClient options pipeline server.storage
  rw [request, commandLines_request accepted] at lines output storage
  have taken : after = server.startWorker pipeline options connection := by
    simp only [after, Server.takeIn, free, Bool.not_true, Bool.false_eq_true, if_false]
  rw [taken, Server.startWorker, never]
  refine ⟨_, rfl, lines, storage, ?_⟩
  intro reply
  have whole : clientStream client.incoming = response := by
    rw [reply, output]
    simp [response]
  have answered : response ≠ [] := pipeline.answers _ _
  have finished : TcpClient.finishResponse response = .success response := by
    rw [TcpClient.finishResponse, if_neg (by simpa using answered)]
  simp only [whole, finished]

/-- A connection that brings the client's request in two chunks, and a client that sends it
in three pieces and gets the response in two. -/
def requestInChunks : Socket where
  incoming := [.received ⟨bytes "PIN", by decide, by decide⟩ 0, .interrupted,
    .received ⟨bytes "G\n", by decide, by decide⟩ 1, .closed]
  sends := [.sent 3]

def clientInPieces : ClientSocket where
  sends := [.sent 0, .temporary .again, .sent 1]
  incoming := [.received ⟨bytes "+PON", by decide, by decide⟩ 0, .again 1,
    .received ⟨bytes "G\r\n", by decide, by decide⟩ 2]

theorem one_request_one_response_ping :
    (sendCommandLine {} clientInPieces (bytes "PING")).1 = .success (bytes "+PONG\r\n") := by
  have undisturbed : Undisturbed {} requestInChunks := ⟨by decide, by decide⟩
  have healthy : TcpClient.Healthy clientInPieces := ⟨by decide, by decide, by decide, by decide⟩
  obtain ⟨worker, started, _, _, answered⟩ :=
    @one_request_one_response _ (localPipeline InMemoryStorage) {} (.initial .empty .never)
      (by decide) rfl _ undisturbed {} (by decide) (bytes "PING") (by decide) _ healthy (by decide)
  have outputs := congrArg (List.map fun slot => slot.session.output) started
  have output : [bytes "+PONG\r\n"] = [worker.session.output] := outputs
  rw [answered (by rw [← List.head_eq_of_cons_eq output]; decide)]
  decide

end AsterKV.Network
