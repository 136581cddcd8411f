/-
# AsterKV.Network.SessionEnds -- how a connection ends, and what was executed by then

A client may close its side, fall silent for too long or be lost to a failing `recv`.
`sessionEnd` reads off the answers of `recv` which of these comes first and what had
arrived by then; neither the pipeline nor the cut into lines has a part in it.

The bytes behind the last line feed are a command only when the client closed its side:
an idle or a failing connection drops them (`session_semantics`).
-/
import AsterKV.Network.Chunking

namespace AsterKV.Network

open AsterKV.Core AsterKV.Pipeline AsterKV.Storage
open Theory
open Theory.Lines (body tail)

set_option autoImplicit false

/-- What ends the receive loop. -/
inductive SessionEnd where
  | closed
  | idle
  | failed (description : Bytes)
  deriving DecidableEq, Repr

namespace SessionEnd

/-- What `serveClient` returns. -/
def status : SessionEnd → Status
  | .closed => .ok
  | .idle => .ok
  | .failed description =>
      systemUnavailableError (bytes "failed to read client connection") description

/-- The commands in what had arrived. -/
def commands (ending : SessionEnd) (received : Bytes) : List Bytes :=
  match ending with
  | .closed => commandLines received
  | .idle => commandLines (body lineFeed received)
  | .failed _ => commandLines (body lineFeed received)

/-- Only a client that closed its side gets its last unterminated line executed. -/
theorem commands_eq_iff (ending : SessionEnd) (received : Bytes) :
    ending.commands received = commandLines received ↔
      ending = .closed ∨ tail lineFeed received = [] := by
  have dropped : commandLines (body lineFeed received) = commandLines received ↔
      tail lineFeed received = [] := by
    have whole := Lines.body_append_tail lineFeed received
    constructor
    · intro same
      by_contra unterminated
      have split : commandLines received = commandLines (body lineFeed received) ++
          [stripCarriageReturn (tail lineFeed received)] := by
        conv_lhs => rw [← whole]
        rw [commandLines, commandLines,
          Lines.lines_append lineFeed (Lines.body_terminated lineFeed received),
          Lines.lines_unterminated lineFeed (Lines.sep_notMem_tail lineFeed received) unterminated,
          List.map_append]
        rfl
      have longer := congrArg List.length (same.trans split)
      simp at longer
    · intro empty
      rw [empty, List.append_nil] at whole
      rw [whole]
  cases ending with
  | closed => simp [commands]
  | idle => simpa [commands] using dropped
  | failed description => simpa [commands] using dropped

end SessionEnd

variable (options : TcpLineServerOptions)

/-- What arrives before the loop ends, and what ends it.  Silence counts from the last
chunk, or from the start. -/
def sessionEnd : TimePoint → List RecvOutcome → Bytes × SessionEnd
  | _, [] => ([], .closed)
  | _, .closed :: _ => ([], .closed)
  | _, .failed description :: _ => ([], .failed description)
  | lastActivity, .interrupted :: incoming => sessionEnd lastActivity incoming
  | lastActivity, .again now :: incoming =>
      if isClientIdleTimedOut options now lastActivity then ([], .idle)
      else sessionEnd lastActivity incoming
  | _, .received chunk now :: incoming =>
      (chunk.data ++ (sessionEnd now incoming).1, (sessionEnd now incoming).2)

variable {σ : Type} (pipeline : LinePipeline σ)

/-- The loop returns from within: what it buffers is not executed. -/
theorem Framed.dropped {received : Bytes} {session : Session σ} (known : Framed received session)
    {ending : SessionEnd} (fromWithin : ending ≠ .closed) :
    session.lines = ending.commands received := by
  cases ending with
  | closed => exact absurd rfl fromWithin
  | idle => exact known.executed
  | failed description => exact known.executed

/-- From any point of the receive loop. -/
theorem Session.Flowing.ends {received : Bytes} {session : Session σ} (flowing : session.Flowing)
    (known : Framed received session) (incoming : List RecvOutcome) :
    let seen := sessionEnd options session.lastActivity incoming
    (Network.serveSession pipeline options session incoming).1 = seen.2.status ∧
      (Network.serveSession pipeline options session incoming).2.Flowing ∧
      (Network.serveSession pipeline options session incoming).2.lines =
        seen.2.commands (received ++ seen.1) := by
  induction incoming generalizing received session with
  | nil =>
      obtain ⟨_, same⟩ := polled_of_never flowing.never
      have atEnd := flowing.serveRest pipeline known
      simp only [sessionEnd, List.append_nil, SessionEnd.status, SessionEnd.commands,
        Network.serveSession, serveLoop, same]
      exact atEnd
  | cons outcome incoming ih =>
      obtain ⟨goesOn, same⟩ := polled_of_never flowing.never
      rw [serveSession_cons pipeline options flowing.never]
      cases outcome with
      | received chunk now =>
          obtain ⟨_, framed⟩ := known.received pipeline chunk now
          have filled : (session.received chunk now).Flowing :=
            ⟨flowing.sending, flowing.never, flowing.whole⟩
          have answered := filled.answerLines pipeline
            (completeLines (session.received chunk now).pendingInput)
          rw [← processBufferedLines_eq] at answered
          obtain ⟨ok, next, active⟩ := answered
          have isOk : (processBufferedLines pipeline (session.received chunk now)).1.isOk = true := by
            rw [ok]
            rfl
          have later := ih next (framed isOk)
          rw [active] at later
          simp only [Network.serveTurn, isOk, Bool.not_true, Bool.false_eq_true, if_false]
          rw [sessionEnd, ← List.append_assoc]
          exact later
      | closed =>
          simp only [sessionEnd, List.append_nil]
          exact flowing.serveRest pipeline known
      | interrupted =>
          simp only [Network.serveTurn, goesOn, same, Bool.false_eq_true, if_false]
          exact ih flowing known
      | again now =>
          rw [sessionEnd]
          by_cases silent : isClientIdleTimedOut options now session.lastActivity = true
          · simp only [Network.serveTurn, goesOn, same, silent, Bool.false_eq_true, if_false,
              if_true, List.append_nil]
            exact ⟨rfl, flowing, known.dropped (by simp)⟩
          · simp only [Network.serveTurn, goesOn, same, silent, Bool.false_eq_true, if_false]
            exact ih flowing known
      | failed description =>
          simp only [sessionEnd, List.append_nil]
          exact ⟨rfl, flowing, known.dropped (by simp)⟩

/-- **What a connection does, whatever ends it.**  No stop is requested and every `send`
takes bytes or is tried again; `recv` may do anything.  All lines that arrived are
executed exactly when the client closed its side or nothing was left unterminated. -/
theorem session_semantics (start : σ) {socket : Socket} (sending : Sending socket.sends) :
    let seen := sessionEnd options socket.openedAt socket.incoming
    let commands := seen.2.commands seen.1
    let served := serveClient pipeline options start socket .never
    served.1 = seen.2.status ∧ served.2.lines = commands ∧
      served.2.output = (Machine.run pipeline.processLine start commands).1.flatten ∧
      served.2.storage = Machine.after pipeline.processLine start commands ∧
      (served.2.lines = commandLines seen.1 ↔ seen.2 = .closed ∨ tail lineFeed seen.1 = []) := by
  intro seen commands served
  have opened : (Session.opened start socket .never).Flowing :=
    ⟨sending, rfl, fun exchange member => by cases member⟩
  obtain ⟨status, flowing, lines⟩ :=
    opened.ends options pipeline (framed_opened start socket .never) socket.incoming
  have lines : served.2.lines = commands := by
    rw [List.nil_append] at lines
    exact lines
  have run := serveClient_responses pipeline options start socket .never
  rw [show (serveClient pipeline options start socket .never).2.lines = commands from lines] at run
  refine ⟨status, lines, ?_, ?_, ?_⟩
  · rw [run]
    exact congrArg List.flatten (List.map_congr_left flowing.whole)
  · rw [Machine.after, run]
  · rw [lines]
    exact seen.2.commands_eq_iff seen.1

/-- A client that falls silent within its second line. -/
def silentPing : Socket where
  incoming := [.received ⟨bytes "PING\nPI", by decide, by decide⟩ 0, .again 1,
    .again 300000000000, .received ⟨bytes "NG\n", by decide, by decide⟩ 300000000001]
  sends := [.sent 2]

theorem session_semantics_silent :
    (serveClient (localPipeline InMemoryStorage) {} .empty silentPing .never).1 = .ok ∧
      (serveClient (localPipeline InMemoryStorage) {} .empty silentPing .never).2.lines =
        [bytes "PING"] := by
  obtain ⟨status, lines, _⟩ := session_semantics {} (localPipeline InMemoryStorage) .empty
    (show Sending silentPing.sends by decide)
  exact ⟨status.trans (by decide), lines.trans (by decide)⟩

end AsterKV.Network
