/-
# AsterKV.Astercli.ExitStatus -- what a connected command's exit status says

The client takes what it has read when the connection ends for the response, be it cut.
All the same, when `astercli --connect` exits with success, the server has executed the
command, once, and it succeeded: the request was sent whole, a response that does not
begin is an error, and a part of an error is not taken for a success
(`exit_status_sound`).

Nothing is assumed of either end: `send` and `recv` may stop anywhere, on both sides.
-/
import AsterKV.Astercli.Modes
import AsterKV.Client.CutAnswers
import AsterKV.Network.ConcurrentRequests

namespace AsterKV.Network.TcpClient

open AsterKV.Core
open Theory

set_option autoImplicit false

/-! ## Requests that succeed -/

/-- A `sendAll` that returns OK has sent everything. -/
theorem sent_of_isOk {sends : List SendOutcome} {data : Bytes}
    (ok : (sendAll sends data).status.isOk = true) : (sendAll sends data).sent = data := by
  obtain ⟨sent, -, same⟩ := sendAll_unstopped sends data
  rw [sent]
  exact sent_of_not_abandoned (abandoned_never sends data) (same ▸ ok)

theorem sendCommand_of_isOk {socket : ClientSocket} {commandLine : Bytes}
    (ok : (sendCommand socket commandLine).1.isOk = true) :
    (sendCommand socket commandLine).2 = commandLine ++ [lineFeed] := by
  unfold sendCommand at ok ⊢
  dsimp only at ok ⊢
  split at ok
  · next failed => simp [ok] at failed
  · next line =>
      rw [if_neg line]
      have sentLine := sent_of_isOk (by simpa using line)
      split at ok
      · next failed => simp [ok] at failed
      · next ending =>
          rw [if_neg ending]
          have sentEnding := sent_of_isOk (by simpa using ending)
          split at ok
          · cases ok
          · simp only [sentLine, sentEnding]
            rfl

/-- A response that is returned is what was received, and not empty. -/
theorem readResponse_success {maxResponseBytes : UInt64} {incoming : List RecvOutcome}
    {response raw : Bytes} (read : readResponse maxResponseBytes incoming response = .success raw) :
    raw = response ++ clientStream incoming ∧ raw ≠ [] := by
  have finished : ∀ {response : Bytes}, finishResponse response = .success raw →
      raw = response ∧ raw ≠ [] := by
    intro response finish
    unfold finishResponse at finish
    split at finish
    · cases finish
    · next filled =>
        obtain rfl := Except.ok.inj finish
        exact ⟨rfl, by simpa using filled⟩
  induction incoming generalizing response with
  | nil =>
      obtain ⟨same, filled⟩ := finished read
      exact ⟨by rw [same, clientStream, List.append_nil], filled⟩
  | cons outcome incoming ih =>
      cases outcome with
      | closed =>
          obtain ⟨same, filled⟩ := finished read
          exact ⟨by rw [same, clientStream, List.append_nil], filled⟩
      | interrupted => exact ih read
      | again now => exact ih read
      | failed description => cases read
      | received chunk now =>
          rw [readResponse] at read
          split at read
          · cases read
          · obtain ⟨same, filled⟩ := ih read
            exact ⟨by rw [same, clientStream, List.append_assoc], filled⟩

/-- **A request that succeeds** was a command line, sent whole, and answered. -/
theorem sendCommandLine_success {options : TcpLineClientOptions} {socket : ClientSocket}
    {commandLine raw : Bytes} (succeeds : (sendCommandLine options socket commandLine).1 = .success raw) :
    (validateCommandLine commandLine).isOk = true ∧
      (sendCommandLine options socket commandLine).2 = commandLine ++ [lineFeed] ∧
      raw = clientStream socket.incoming ∧ raw ≠ [] := by
  unfold sendCommandLine at succeeds ⊢
  dsimp only at succeeds ⊢
  split at succeeds
  · cases succeeds
  · next valid =>
      rw [if_neg valid]
      split at succeeds
      · cases succeeds
      · next accepted =>
          rw [if_neg accepted]
          refine ⟨by simpa using accepted, ?_⟩
          cases connected : connectSocket socket.connecting with
          | error failure =>
              rw [connected] at succeeds
              cases succeeds
          | ok _ =>
              simp only [connected] at succeeds ⊢
              split at succeeds
              · cases succeeds
              · next sent =>
                  rw [if_neg sent]
                  refine ⟨sendCommand_of_isOk (by simpa using sent), ?_⟩
                  have read := readResponse_success succeeds
                  rwa [List.nil_append] at read

end AsterKV.Network.TcpClient

namespace AsterKV.Astercli

open AsterKV.Core AsterKV.Client AsterKV.Network AsterKV.Pipeline AsterKV.Storage
open Theory
open TcpClient (sendCommandLine)

set_option autoImplicit false

/-! ## Exit status -/

theorem printUserResponse_succeeds {raw : Bytes} (succeeded : (printUserResponse raw).failed = false) :
    ∃ response, parseProtocolResponse raw = .success response ∧ response.kind ≠ .error ∧
      printUserResponse raw = .toOut (renderPrettyResponse response) := by
  unfold printUserResponse at succeeded ⊢
  cases parsed : parseProtocolResponse raw with
  | error failure =>
      rw [parsed] at succeeded
      cases succeeded
  | ok response =>
      simp only [parsed] at succeeded ⊢
      refine ⟨response, rfl, ?_⟩
      split at succeeded
      · cases succeeded
      · next noError =>
          rw [if_neg noError]
          exact ⟨noError, rfl⟩

/-- A connected command that succeeds shows what it received. -/
theorem runConnectSingleCommandMode_succeeds {socket : ClientSocket} {command : Bytes}
    (succeeded : (runConnectSingleCommandMode socket command).failed = false) :
    ∃ raw, (sendCommandLine {} socket command).1 = .success raw ∧
      runConnectSingleCommandMode socket command = printUserResponse raw := by
  unfold runConnectSingleCommandMode at succeeded ⊢
  cases sent : (sendCommandLine {} socket command).1 with
  | error failure =>
      rw [sent] at succeeded
      cases succeeded
  | ok raw => exact ⟨raw, rfl, rfl⟩

/-- What a session with at most one line has sent is a part of its response. -/
theorem output_of_one {σ : Type} {session : Session σ} {line : Bytes}
    (lines : session.lines <+: [line]) {part : Bytes} (isPart : part <+: session.output)
    (filled : part ≠ []) :
    ∃ response, session.answers = [(line, response)] ∧ part <+: response := by
  rw [Session.lines] at lines
  rw [Session.output] at isPart
  cases exchanges : session.exchanges with
  | nil =>
      rw [exchanges] at isPart
      exact absurd (List.prefix_nil.1 isPart) filled
  | cons exchange more =>
      rw [exchanges] at lines isPart
      obtain ⟨same, nothing⟩ := List.cons_prefix_cons.1 lines
      obtain rfl : more = [] := by simpa using List.prefix_nil.1 nothing
      refine ⟨exchange.response, by rw [Session.answers, exchanges, ← same]; rfl, ?_⟩
      rw [List.map_singleton, List.flatten_singleton] at isPart
      exact isPart.trans exchange.part

variable {options : TcpLineServerOptions}

/-- **Success is never a mistake.**  In every state of `run` with its workers, and wherever
the connection stops once the command has arrived: when the client exits with success, its
worker has executed the command, once, at its place among the lines of all clients, the answer there
is no error, and what is shown is the answer, or a part of its word for a `PING` or a
`SET`. -/
theorem exit_status_sound {start : InMemoryStorage} {stop : StopRequested}
    {schedule : List WorkerTurn} {system : Workers InMemoryStorage}
    (reached : system =
      (Workers.initial start stop).after (localPipeline InMemoryStorage) options schedule)
    {worker : ClientWorker InMemoryStorage} (thread : worker ∈ system.threads)
    {connection : Socket} (connected : system.accepted[worker.client]? = some connection)
    {client : ClientSocket} {command : Bytes}
    (request : clientStream connection.incoming = (sendCommandLine {} client command).2)
    (response : clientStream client.incoming <+: worker.serving.session.output)
    (succeeded : (runConnectSingleCommandMode client command).failed = false) :
    ∃ answer,
      Machine.told MapMachine.step worker.client start.values system.executed =
        [(command, answer)] ∧
      answer.fails = false ∧ (runConnectSingleCommandMode client command).err = [] ∧
      answer.ShownAs (runConnectSingleCommandMode client command).out := by
  obtain ⟨raw, sent, shown⟩ := runConnectSingleCommandMode_succeeds succeeded
  obtain ⟨accepted, whole, received, filled⟩ := TcpClient.sendCommandLine_success sent
  rw [shown] at succeeded ⊢
  obtain ⟨decoded, read, noError, printed⟩ := printUserResponse_succeeds succeeded
  obtain ⟨index, found⟩ := List.mem_iff_getElem?.1 thread
  have recorded :=
    (Workers.after_sound (localPipeline InMemoryStorage) options start stop schedule).recorded
  have answered := Workers.after_answered (localPipeline InMemoryStorage) options start stop schedule
  rw [← reached] at recorded answered
  obtain ⟨socket, serves⟩ := recorded.serves index worker found
  obtain rfl : socket = connection := Option.some.inj (serves.accepted.symm.trans connected)
  have lines := serves.lines
  rw [request, whole, commandLines_request accepted] at lines
  rw [← received] at response
  obtain ⟨text, one, isPart⟩ := output_of_one lines response filled
  have told := (answered index worker found).trans
    (Workers.told_localPipeline worker.client start system.executed).1
  rw [one] at told
  obtain ⟨⟨line, answer⟩, single, same⟩ := List.map_eq_singleton_iff.1 told.symm
  obtain ⟨rfl, rfl⟩ := Prod.mk.inj same
  obtain ⟨kind, shownAs⟩ := MapMachine.Answer.parse_part isPart read
  have succeeds : answer.fails = false := by
    rw [← Bool.not_eq_true, ← kind]
    exact noError
  refine ⟨answer, single, succeeds, ?_, ?_⟩
  · rw [printed]
    rfl
  · rw [printed]
    exact shownAs succeeds

/-- The get whose connection is lost before the last line end. -/
def lostGet : ClientSocket where
  incoming := [.received ⟨bytes "$1", by decide, by decide⟩ 0, .again 1,
    .received ⟨bytes "\r\nv", by decide, by decide⟩ 2]

theorem exit_status_sound_lost :
    (runConnectSingleCommandMode lostGet (bytes "GET k")).failed = false ∧
      ∃ answer, Machine.told MapMachine.step 1 ∅ afterBoth.executed = [(bytes "GET k", answer)] ∧
        answer.fails = false := by
  have thread : afterBoth.threads[1]? = some getWorker := (Option.some_get _).symm
  have succeeded : (runConnectSingleCommandMode lostGet (bytes "GET k")).failed = false := by
    decide
  obtain ⟨answer, told, succeeds, -⟩ := @exit_status_sound {} .empty .never setOvertakes afterBoth
    rfl getWorker (List.mem_of_getElem? thread) getRequest.socket (by rfl) lostGet (bytes "GET k")
    (by decide) (by decide) succeeded
  exact ⟨succeeded, answer, told, succeeds⟩

end AsterKV.Astercli
