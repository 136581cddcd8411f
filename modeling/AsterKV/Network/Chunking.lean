/-
# AsterKV.Network.Chunking -- a connection that nothing disturbs

No stop is requested, the client is never idle for too long and no call on the socket
fails (`Undisturbed`); `recv` may still cut the stream anywhere and be interrupted, and
`send` may take any number of bytes.  Then every line of the stream is executed and
every response is sent whole, so what a session does depends on the bytes of its
stream alone (`chunking_irrelevant`).

The invariant is `Flowing`: nothing stood in the way of a response so far, and nothing
will.
-/
import AsterKV.Network.ResponseStream
import AsterKV.Network.SingleClient

namespace AsterKV.Network

open AsterKV.Core AsterKV.Pipeline AsterKV.Storage
open Theory
open Theory.Lines (Terminated body tail)

set_option autoImplicit false

/-! ## Sockets -/

/-- The `send` takes bytes or is tried again. -/
def SendOutcome.persists : SendOutcome → Bool
  | .sent _ => true
  | .temporary _ => true
  | .wroteNothing => false
  | .failed _ => false

/-- Every `send` takes bytes or is tried again. -/
def Sending (sends : List SendOutcome) : Prop := ∀ outcome ∈ sends, outcome.persists = true

instance (sends : List SendOutcome) : Decidable (Sending sends) :=
  List.decidableBAll _ sends

variable (options : TcpLineServerOptions)

/-- No `recv` fails, and none that found nothing came too long after the last chunk. -/
def Receiving : TimePoint → List RecvOutcome → Prop
  | _, [] => True
  | _, .closed :: _ => True
  | _, .failed _ :: _ => False
  | lastActivity, .interrupted :: incoming => Receiving lastActivity incoming
  | lastActivity, .again now :: incoming =>
      isClientIdleTimedOut options now lastActivity = false ∧ Receiving lastActivity incoming
  | _, .received _ now :: incoming => Receiving now incoming

instance Receiving.decidable : ∀ lastActivity incoming,
    Decidable (Receiving options lastActivity incoming)
  | _, [] => inferInstanceAs (Decidable True)
  | _, .closed :: _ => inferInstanceAs (Decidable True)
  | _, .failed _ :: _ => inferInstanceAs (Decidable False)
  | lastActivity, .interrupted :: incoming => Receiving.decidable lastActivity incoming
  | lastActivity, .again now :: incoming =>
      have := Receiving.decidable lastActivity incoming
      inferInstanceAs (Decidable (isClientIdleTimedOut options now lastActivity = false ∧
        Receiving options lastActivity incoming))
  | _, .received _ now :: incoming => Receiving.decidable now incoming

structure Undisturbed (socket : Socket) : Prop where
  sending : Sending socket.sends
  receiving : Receiving options socket.openedAt socket.incoming

/-! ## Responses -/

theorem goesOn_of_sendAll {sends : List SendOutcome} {stop : StopRequested} {data : Bytes}
    (later : (sendAll sends stop data).stop.poll.1 = false) : stop.poll.1 = false := by
  cases requested : stop.poll.1 with
  | false => rfl
  | true =>
      rw [sendAll_stop requested, requested] at later
      cases later

/-- A response that is not given up is sent whole. -/
theorem sendAll_running {sends : List SendOutcome} (sending : Sending sends)
    {stop : StopRequested} (data : Bytes) (running : (sendAll sends stop data).stop.poll.1 = false) :
    (sendAll sends stop data).status = .ok ∧ (sendAll sends stop data).sent = data ∧
      Sending (sendAll sends stop data).sends := by
  have goesOn := goesOn_of_sendAll running
  induction sends generalizing stop data with
  | nil => cases data <;> exact ⟨rfl, rfl, sending⟩
  | cons outcome sends ih =>
      have persists := sending outcome List.mem_cons_self
      have left : Sending sends := fun other member => sending other (List.mem_cons_of_mem _ member)
      cases data with
      | nil => exact ⟨rfl, rfl, sending⟩
      | cons b data =>
          cases outcome with
          | sent more =>
              obtain ⟨ok, whole, still⟩ := ih left ((b :: data).drop (more + 1)) running goesOn
              refine ⟨ok, ?_, still⟩
              rw [sendAll, whole, List.take_append_drop]
              simp
          | temporary error =>
              simp only [sendAll, goesOn, Bool.false_eq_true, if_false] at running ⊢
              exact ih left (b :: data) running (goesOn_of_sendAll running)
          | wroteNothing => cases persists
          | failed description => cases persists

theorem sendAll_never (sends : List SendOutcome) (data : Bytes) :
    (sendAll sends .never data).stop = .never := by
  induction sends generalizing data with
  | nil => cases data <;> rfl
  | cons outcome sends ih =>
      cases data with
      | nil => rfl
      | cons b data =>
          cases outcome with
          | sent more => exact ih _
          | temporary error => exact ih _
          | wroteNothing | failed description => rfl

/-- Without stops and failures, `sendAll` sends everything. -/
theorem sendAll_sending {sends : List SendOutcome} (sending : Sending sends) (data : Bytes) :
    (sendAll sends .never data).status = .ok ∧ (sendAll sends .never data).sent = data ∧
      Sending (sendAll sends .never data).sends ∧
      (sendAll sends .never data).stop = .never := by
  have never := sendAll_never sends data
  obtain ⟨ok, whole, left⟩ := sendAll_running sending data (by rw [never]; rfl)
  exact ⟨ok, whole, left, never⟩

variable {σ : Type} (pipeline : LinePipeline σ)

/-- Nothing stood in the way of a response, and nothing will. -/
structure Session.Flowing (session : Session σ) : Prop where
  sending : Sending session.sends
  never : session.stop = .never
  whole : session.Whole

theorem Session.Flowing.answered {session : Session σ} (flowing : session.Flowing)
    (rawLine : Bytes) :
    (session.deliver pipeline rawLine).status = .ok ∧
      (session.answered pipeline rawLine).Flowing := by
  have sent := sendAll_sending flowing.sending (session.response pipeline rawLine)
  rw [← flowing.never] at sent
  obtain ⟨ok, whole, sending, never⟩ := sent
  exact ⟨ok, sending, never.trans flowing.never, flowing.whole.snoc whole⟩

/-- All the lines in the buffer are answered. -/
theorem Session.Flowing.answerLines {session : Session σ} (flowing : session.Flowing)
    (rawLines : List Bytes) :
    (answerLines pipeline rawLines session).1 = .ok ∧
      (answerLines pipeline rawLines session).2.Flowing ∧
      (answerLines pipeline rawLines session).2.lastActivity = session.lastActivity := by
  induction rawLines generalizing session with
  | nil => exact ⟨rfl, flowing, rfl⟩
  | cons rawLine more ih =>
      obtain ⟨ok, next⟩ := flowing.answered pipeline rawLine
      have erased : ((session.answered pipeline rawLine).erase rawLine).Flowing :=
        ⟨next.sending, next.never, next.whole⟩
      rw [Network.answerLines, if_pos (by rw [ok]; rfl)]
      exact ih erased

/-! ## The stream -/

/-- After the receive loop, the lines of the whole stream are executed. -/
theorem Session.Flowing.serveRest {received : Bytes} {session : Session σ}
    (flowing : session.Flowing) (known : Framed received session) :
    (serveRest pipeline session).1 = .ok ∧ (serveRest pipeline session).2.Flowing ∧
      (serveRest pipeline session).2.lines = commandLines received := by
  obtain ⟨goesOn, same⟩ := polled_of_never flowing.never
  unfold Network.serveRest
  by_cases empty : session.pendingInput = []
  · have all : body lineFeed received = received := by
      have whole := Lines.body_append_tail lineFeed received
      rwa [← known.pending, empty, List.append_nil] at whole
    rw [if_pos (by simp [empty])]
    exact ⟨rfl, flowing, by rw [known.executed, all]⟩
  · obtain ⟨ok, next⟩ := flowing.answered pipeline session.pendingInput
    rw [if_neg (by simpa using empty), goesOn, same, if_neg Bool.false_ne_true,
      processLineAndSendResponse_eq]
    exact ⟨ok, next, by rw [lines_answered, known.commandLines_eq empty]⟩

/-- A session that nothing disturbs executes the whole stream, however it is cut. -/
theorem Session.Flowing.serveSession {received : Bytes} {session : Session σ}
    (flowing : session.Flowing) (known : Framed received session) (incoming : List RecvOutcome)
    (receiving : Receiving options session.lastActivity incoming) :
    (serveSession pipeline options session incoming).1 = .ok ∧
      (serveSession pipeline options session incoming).2.Flowing ∧
      (serveSession pipeline options session incoming).2.lines =
        commandLines (received ++ clientStream incoming) := by
  induction incoming generalizing received session with
  | nil =>
      obtain ⟨_, same⟩ := polled_of_never flowing.never
      have atEnd := flowing.serveRest pipeline known
      rw [clientStream, List.append_nil]
      simp only [Network.serveSession, serveLoop, same]
      exact atEnd
  | cons outcome incoming ih =>
      obtain ⟨goesOn, same⟩ := polled_of_never flowing.never
      rw [serveSession_cons pipeline options flowing.never]
      cases outcome with
      | received chunk now =>
          obtain ⟨_, framed⟩ := known.received pipeline chunk now
          have filled : (session.received chunk now).Flowing :=
            ⟨flowing.sending, flowing.never, flowing.whole⟩
          have answered := filled.answerLines pipeline
            (completeLines (session.received chunk now).pendingInput)
          rw [← processBufferedLines_eq] at answered
          obtain ⟨ok, next, active⟩ := answered
          have isOk : (processBufferedLines pipeline (session.received chunk now)).1.isOk = true := by
            rw [ok]
            rfl
          have later := ih next (framed isOk) (by rw [active]; exact receiving)
          simp only [Network.serveTurn, isOk, Bool.not_true, Bool.false_eq_true, if_false]
          rw [clientStream, ← List.append_assoc]
          exact later
      | closed =>
          rw [clientStream, List.append_nil]
          exact flowing.serveRest pipeline known
      | interrupted =>
          simp only [Network.serveTurn, goesOn, same, Bool.false_eq_true, if_false]
          exact ih flowing known receiving
      | again now =>
          obtain ⟨inTime, receiving⟩ := receiving
          simp only [Network.serveTurn, goesOn, same, inTime, Bool.false_eq_true, if_false]
          exact ih flowing known receiving
      | failed description => exact receiving.elim

theorem Undisturbed.flowing {socket : Socket} (undisturbed : Undisturbed options socket)
    (start : σ) : (Session.opened start socket .never).Flowing where
  sending := undisturbed.sending
  never := rfl
  whole := by
    intro exchange member
    cases member

/-- The pipeline is called on the lines of the whole stream, and all responses are sent. -/
theorem Undisturbed.serveClient {socket : Socket} (undisturbed : Undisturbed options socket)
    (start : σ) :
    (serveClient pipeline options start socket .never).2.lines =
        commandLines (clientStream socket.incoming) ∧
      (serveClient pipeline options start socket .never).2.output =
        (Machine.run pipeline.processLine start
          (commandLines (clientStream socket.incoming))).1.flatten ∧
      (serveClient pipeline options start socket .never).2.storage =
        Machine.after pipeline.processLine start
          (commandLines (clientStream socket.incoming)) := by
  obtain ⟨_, flowing, lines⟩ := (undisturbed.flowing options start).serveSession options pipeline
    (framed_opened start socket .never) socket.incoming undisturbed.receiving
  have lines : (Network.serveClient pipeline options start socket .never).2.lines =
      commandLines (clientStream socket.incoming) := lines
  have run := serveClient_responses pipeline options start socket .never
  rw [lines] at run
  refine ⟨lines, ?_, ?_⟩
  · rw [run]
    exact congrArg List.flatten (List.map_congr_left flowing.whole)
  · rw [Machine.after, run]

/-- The command lines are the parts of the stream between line feeds, the last one only
if it has bytes. -/
theorem commandLines_eq_splitOn (stream : Bytes) :
    commandLines stream =
      (Lines.withoutLastEmpty (stream.splitOn lineFeed)).map stripCarriageReturn := by
  rw [commandLines, Lines.lines_eq_splitOn]

/-- **Framing does not depend on packet boundaries.**  The pipeline is called once on each
part of the stream, in order, and what is sent are its responses; another way to cut the
stream gives the same output and the same storage. -/
theorem chunking_irrelevant (start : σ) (socket : Socket) (undisturbed : Undisturbed options socket) :
    let commands :=
      (Lines.withoutLastEmpty ((clientStream socket.incoming).splitOn lineFeed)).map
        stripCarriageReturn
    let session := (serveClient pipeline options start socket .never).2
    session.lines = commands ∧
      session.output = (Machine.run pipeline.processLine start commands).1.flatten ∧
      session.storage = Machine.after pipeline.processLine start commands ∧
      ∀ other : Socket, Undisturbed options other →
        clientStream other.incoming = clientStream socket.incoming →
        (serveClient pipeline options start other .never).2.output = session.output ∧
          (serveClient pipeline options start other .never).2.storage = session.storage := by
  intro commands session
  obtain ⟨lines, output, storage⟩ := undisturbed.serveClient options pipeline start
  have same : commands = commandLines (clientStream socket.incoming) :=
    (commandLines_eq_splitOn _).symm
  rw [same]
  refine ⟨lines, output, storage, fun other alsoUndisturbed stream => ?_⟩
  obtain ⟨_, otherOutput, otherStorage⟩ := alsoUndisturbed.serveClient options pipeline start
  rw [otherOutput, otherStorage, stream]
  exact ⟨output.symm, storage.symm⟩

/-- A line feed and a carriage return on either side of a cut, interruptions, a last line
without its line feed, and a response sent in pieces. -/
def cutPings : Socket where
  incoming := [.received ⟨bytes "PI", by decide, by decide⟩ 0, .interrupted,
    .received ⟨bytes "NG\r", by decide, by decide⟩ 1, .again 2,
    .received ⟨bytes "\nping", by decide, by decide⟩ 3, .closed]
  sends := [.sent 2, .temporary .again, .sent 0]

/-- The same stream in one chunk. -/
def wholePings : Socket where
  incoming := [.received ⟨bytes "PING\r\nping", by decide, by decide⟩ 0]

theorem chunking_irrelevant_pings :
    (serveClient (localPipeline InMemoryStorage) {} .empty wholePings .never).2.output =
        (serveClient (localPipeline InMemoryStorage) {} .empty cutPings .never).2.output ∧
      (serveClient (localPipeline InMemoryStorage) {} .empty cutPings .never).2.output =
        bytes "+PONG\r\n+PONG\r\n" := by
  have cut : Undisturbed {} cutPings := ⟨by decide, by decide⟩
  have whole : Undisturbed {} wholePings := ⟨by decide, by decide⟩
  obtain ⟨_, _, _, same⟩ :=
    chunking_irrelevant {} (localPipeline InMemoryStorage) .empty cutPings cut
  exact ⟨(same wholePings whole (by decide)).1, by decide⟩

end AsterKV.Network
