/-
# AsterKV.Network.ExecutionOrder -- what had been executed at each moment

`serveHistory` is what happens in a call of `serveClient`, in order: chunks arrive, the
client's end of stream is seen, lines are handed to the pipeline.  A moment is a front of
this history.  At every moment the lines executed are the first ones of the complete lines
received until then; only when the end of the stream was seen, and all of these are
executed, an unterminated rest is executed as well (`executes_in_order`).
-/
import AsterKV.Network.Framing

namespace AsterKV.Network

open AsterKV.Core AsterKV.Pipeline
open Theory.Lines (Terminated body tail)
open Theory

set_option autoImplicit false

/-! ## Histories -/

inductive Happening where
  | received (data : Bytes)
  | endOfStream
  | executed (line : Bytes)
  deriving DecidableEq

namespace Happening

def data : Happening → Bytes
  | .received data => data
  | .endOfStream => []
  | .executed _ => []

def line? : Happening → Option Bytes
  | .received _ => none
  | .endOfStream => none
  | .executed line => some line

end Happening

def receivedBytes (history : List Happening) : Bytes := history.flatMap Happening.data

def executedLines (history : List Happening) : List Bytes := history.filterMap Happening.line?

/-- What one answer of `recv` shows of the client. -/
def RecvOutcome.happening : RecvOutcome → List Happening
  | .received chunk _ => [.received chunk.data]
  | .closed => [.endOfStream]
  | .interrupted => []
  | .again _ => []
  | .failed _ => []

variable {σ : Type} (pipeline : LinePipeline σ) (options : TcpLineServerOptions)

/-- The lines executed between two moments of a session. -/
def newLines (before after : Session σ) : List Bytes := after.lines.drop before.lines.length

/-- What happens in the receive loop: in each pass an answer of `recv`, and behind it the
lines it made complete. -/
def loopHistory : Session σ → List RecvOutcome → List Happening
  | session, [] => if session.stop.poll.1 then [] else [.endOfStream]
  | session, outcome :: incoming =>
      if session.stop.poll.1 then []
      else
        let (turn, after) := serveTurn pipeline options session.polled outcome
        outcome.happening ++ (newLines session after).map .executed ++
          (if turn = .next then loopHistory after incoming else [])

/-- What happens in `serveClient`: the loop, and what is executed behind it. -/
def serveHistory (start : σ) (socket : Socket) (stop : StopRequested) : List Happening :=
  let opened := Session.opened start socket stop
  let (_, last) := serveLoop pipeline options opened socket.incoming
  loopHistory pipeline options opened socket.incoming ++
    (newLines last (serveClient pipeline options start socket stop).2).map .executed

/-- The executed lines are the first complete lines received, or all of them and, behind
the end of the stream, the unterminated rest. -/
def InOrder (history : List Happening) : Prop :=
  executedLines history <+: commandLines (body lineFeed (receivedBytes history)) ∨
    (.endOfStream ∈ history ∧ tail lineFeed (receivedBytes history) ≠ [] ∧
      executedLines history = commandLines (body lineFeed (receivedBytes history)) ++
        [stripCarriageReturn (tail lineFeed (receivedBytes history))])

/-! ## Reading a history -/

@[simp] theorem receivedBytes_append (first second : List Happening) :
    receivedBytes (first ++ second) = receivedBytes first ++ receivedBytes second :=
  List.flatMap_append

@[simp] theorem executedLines_append (first second : List Happening) :
    executedLines (first ++ second) = executedLines first ++ executedLines second :=
  List.filterMap_append

@[simp] theorem receivedBytes_executed (lines : List Bytes) :
    receivedBytes (lines.map .executed) = [] := by
  induction lines with
  | nil => rfl
  | cons line rest ih => exact ih

@[simp] theorem executedLines_executed (lines : List Bytes) :
    executedLines (lines.map .executed) = lines := by
  induction lines with
  | nil => rfl
  | cons line rest ih => exact congrArg (line :: ·) ih

@[simp] theorem executedLines_happening (outcome : RecvOutcome) :
    executedLines outcome.happening = [] := by
  cases outcome <;> rfl

theorem append_newLines {before after : Session σ} (grows : before.lines <+: after.lines) :
    before.lines ++ newLines before after = after.lines := by
  obtain ⟨more, split⟩ := grows
  rw [newLines, ← split, List.drop_left]

/-- A front of two parts lies in the first, or covers it. -/
theorem front_cases {α : Type} {front first second : List α} (isFront : front <+: first ++ second) :
    front <+: first ∨ ∃ rest, front = first ++ rest ∧ rest <+: second := by
  rcases List.prefix_or_prefix_of_prefix isFront (List.prefix_append first second) with
    inside | ⟨rest, rfl⟩
  · exact Or.inl inside
  · exact Or.inr ⟨rest, rfl, (List.prefix_append_right_inj first).1 isFront⟩

/-- Executing lines that are next in order stays in order at every moment. -/
theorem inOrder_executing {past : List Happening} {lines : List Bytes}
    (next : executedLines past ++ lines <+: commandLines (body lineFeed (receivedBytes past)))
    {front : List Happening} (isFront : front <+: lines.map .executed) :
    InOrder (past ++ front) := by
  obtain ⟨count, -, rfl⟩ : ∃ count, count ≤ lines.length ∧
      front = (lines.take count).map .executed := by
    refine ⟨front.length, by simpa using isFront.length_le, ?_⟩
    rw [List.map_take]
    exact List.prefix_iff_eq_take.1 isFront
  left
  rw [executedLines_append, executedLines_executed, receivedBytes_append, receivedBytes_executed,
    List.append_nil]
  exact ((List.prefix_append_right_inj _).2 (List.take_prefix count lines)).trans next

/-! ## The receive loop -/

/-- One pass of the loop: the lines it executes are next in order, and when it goes on, or
to what follows the loop, all complete lines are executed. -/
structure Passed (received : Bytes) (session : Session σ) (outcome : RecvOutcome)
    (result : Turn × Session σ) : Prop where
  grows : session.lines <+: result.2.lines
  inOrder : result.2.lines <+:
    commandLines (body lineFeed (received ++ receivedBytes outcome.happening))
  next : result.1 = .next → Framed (received ++ receivedBytes outcome.happening) result.2
  leave : result.1 = .leave →
    Framed (received ++ receivedBytes outcome.happening) result.2 ∧
      .endOfStream ∈ outcome.happening

/-- A pass that received nothing executes nothing. -/
theorem Passed.idle {received : Bytes} {session : Session σ} {outcome : RecvOutcome}
    {result : Turn × Session σ} (known : Framed received session)
    (framed : Framed received result.2)
    (nothing : receivedBytes outcome.happening = [])
    (ended : result.1 = .leave → .endOfStream ∈ outcome.happening) :
    Passed received session outcome result := by
  have same : result.2.lines = session.lines := framed.executed.trans known.executed.symm
  have now : received ++ receivedBytes outcome.happening = received := by
    rw [nothing, List.append_nil]
  refine ⟨?_, ?_, ?_, ?_⟩
  · rw [same]
  · rw [now, framed.executed]
  · intro _
    rw [now]
    exact framed
  · intro leaves
    rw [now]
    exact ⟨framed, ended leaves⟩

theorem Framed.passed {received : Bytes} {session : Session σ} (known : Framed received session)
    (outcome : RecvOutcome) :
    Passed received session outcome (Network.serveTurn pipeline options session outcome) := by
  cases outcome with
  | received chunk now =>
      obtain ⟨inOrder, framed⟩ := known.received pipeline chunk now
      have grows : session.lines <+:
          (processBufferedLines pipeline (session.received chunk now)).2.lines := by
        rw [processBufferedLines_eq]
        obtain ⟨done, -, lines⟩ := answerLines_lines pipeline
          (completeLines (session.received chunk now).pendingInput) (session.received chunk now)
        exact ⟨done.map stripCarriageReturn, lines.symm⟩
      have data : receivedBytes (RecvOutcome.received chunk now).happening = chunk.data :=
        List.append_nil _
      rw [← data] at inOrder framed
      simp only [Network.serveTurn]
      cases ok : (processBufferedLines pipeline (session.received chunk now)).1.isOk with
      | true => exact ⟨grows, inOrder, fun _ => framed ok, fun leaves => by cases leaves⟩
      | false =>
          exact ⟨grows, inOrder, fun goesOn => (by cases goesOn), fun leaves => by cases leaves⟩
  | closed => exact .idle known known rfl fun _ => List.mem_singleton_self _
  | interrupted =>
      simp only [Network.serveTurn]
      cases session.stop.poll.1 with
      | true => exact .idle known known.polled rfl fun leaves => by cases leaves
      | false => exact .idle known known.polled rfl fun leaves => by cases leaves
  | again now =>
      simp only [Network.serveTurn]
      cases session.stop.poll.1 with
      | true => exact .idle known known.polled rfl fun leaves => by cases leaves
      | false =>
          cases isClientIdleTimedOut options now session.lastActivity with
          | true => exact .idle known known.polled rfl fun leaves => by cases leaves
          | false => exact .idle known known.polled rfl fun leaves => by cases leaves
  | failed description => exact .idle known known rfl fun leaves => by cases leaves

/-- What is known behind some history in which the loop ran to an end. -/
structure LoopEnded (history : List Happening) (result : Option Status × Session σ) : Prop where
  executed : executedLines history = result.2.lines
  framed : result.1 = none → Framed (receivedBytes history) result.2 ∧
    (result.2.stop.poll.1 = true ∨ .endOfStream ∈ history)

theorem inOrder_of_framed {past : List Happening} {session : Session σ}
    (known : Framed (receivedBytes past) session) (executed : executedLines past = session.lines) :
    InOrder past := by
  left
  rw [executed, known.executed]

/-- The moments of one pass: before the answer of `recv`, at it, and in the lines behind it. -/
theorem Passed.inOrder_fronts {past : List Happening} {session : Session σ} {outcome : RecvOutcome}
    {result : Turn × Session σ} (known : Framed (receivedBytes past) session)
    (executed : executedLines past = session.lines)
    (passed : Passed (receivedBytes past) session outcome result) {front : List Happening}
    (isFront : front <+: outcome.happening ++ (newLines session result.2).map .executed) :
    InOrder (past ++ front) := by
  have inOrder := passed.inOrder
  rcases front_cases isFront with inAnswer | ⟨rest, rfl, inLines⟩
  · rcases List.eq_nil_or_concat front with rfl | ⟨_, _, rfl⟩
    · rw [List.append_nil]
      exact inOrder_of_framed known executed
    · -- an answer is one happening, so this front is all of it
      have whole : _ = outcome.happening := inAnswer.eq_of_length_le (by
        rw [List.length_concat]
        cases outcome <;> simp [RecvOutcome.happening])
      rw [whole]
      left
      rw [executedLines_append, executedLines_happening, List.append_nil, executed,
        receivedBytes_append]
      exact passed.grows.trans inOrder
  · rw [← List.append_assoc]
    refine inOrder_executing ?_ inLines
    rw [executedLines_append, executedLines_happening, List.append_nil, executed,
      append_newLines passed.grows, receivedBytes_append]
    exact inOrder

/-- **In the receive loop every moment is in order.** -/
theorem loopHistory_inOrder {past : List Happening} {session : Session σ}
    (known : Framed (receivedBytes past) session) (executed : executedLines past = session.lines)
    (incoming : List RecvOutcome) :
    (∀ front, front <+: loopHistory pipeline options session incoming → InOrder (past ++ front)) ∧
      LoopEnded (past ++ loopHistory pipeline options session incoming)
        (serveLoop pipeline options session incoming) := by
  induction incoming generalizing past session with
  | nil =>
      have now := inOrder_of_framed known executed
      simp only [loopHistory, serveLoop]
      cases stopped : session.stop.poll.1 with
      | true =>
          simp only [if_true, List.append_nil, List.prefix_nil]
          refine ⟨fun front empty => by rw [empty, List.append_nil]; exact now, executed, ?_⟩
          refine fun _ => ⟨known.polled, Or.inl ?_⟩
          show session.stop.poll.2.poll.1 = true
          rw [StopRequested.poll_of_requested stopped, stopped]
      | false =>
          have bytes : receivedBytes (past ++ [.endOfStream]) = receivedBytes past := by
            rw [receivedBytes_append]
            exact List.append_nil _
          have lines : executedLines (past ++ [.endOfStream]) = session.lines := by
            rw [executedLines_append, executed]
            exact List.append_nil _
          rw [← bytes] at known
          simp only [Bool.false_eq_true, if_false]
          refine ⟨fun front isFront => ?_, lines, fun _ => ⟨known.polled, Or.inr (by simp)⟩⟩
          rcases List.prefix_concat_iff.1 (show front <+: [] ++ [.endOfStream] from isFront) with
            rfl | empty
          · exact inOrder_of_framed known lines
          · rw [List.prefix_nil.1 empty, List.append_nil]
            exact now
  | cons outcome incoming ih =>
      simp only [loopHistory, serveLoop]
      cases stopped : session.stop.poll.1 with
      | true =>
          simp only [if_true, List.append_nil, List.prefix_nil]
          refine ⟨fun front empty => ?_, executed, fun _ => ⟨known.polled, Or.inl ?_⟩⟩
          · rw [empty, List.append_nil]
            exact inOrder_of_framed known executed
          · show session.stop.poll.2.poll.1 = true
            rw [StopRequested.poll_of_requested stopped, stopped]
      | false =>
          have passed := known.polled.passed pipeline options outcome
          generalize Network.serveTurn pipeline options session.polled outcome = result at passed ⊢
          have lines : executedLines past = session.polled.lines := executed
          have moments : ∀ front, front <+: outcome.happening ++
              (newLines session result.2).map .executed → InOrder (past ++ front) :=
            fun front isFront => passed.inOrder_fronts known.polled lines isFront
          have done : executedLines (past ++ (outcome.happening ++
              (newLines session result.2).map .executed)) = result.2.lines := by
            rw [executedLines_append, executedLines_append, executedLines_happening,
              executedLines_executed, executed, List.nil_append]
            exact append_newLines passed.grows
          have bytes : receivedBytes (past ++ (outcome.happening ++
              (newLines session result.2).map .executed)) =
                receivedBytes past ++ receivedBytes outcome.happening := by
            rw [receivedBytes_append, receivedBytes_append, receivedBytes_executed, List.append_nil]
          simp only [Bool.false_eq_true, if_false]
          obtain ⟨_ | _ | status, after⟩ := result
          · obtain ⟨later, ended⟩ := ih (bytes ▸ passed.next rfl) done
            simp only [if_true]
            refine ⟨fun front isFront => ?_, by rw [← List.append_assoc]; exact ended⟩
            rcases front_cases isFront with inPass | ⟨rest, rfl, behind⟩
            · exact moments front inPass
            · rw [← List.append_assoc]
              exact later rest behind
          · obtain ⟨framed, seen⟩ := passed.leave rfl
            simp only [reduceCtorEq, if_false, List.append_nil]
            refine ⟨moments, done, fun _ => ⟨bytes ▸ framed, Or.inr ?_⟩⟩
            exact List.mem_append_right _ (List.mem_append_left _ seen)
          · simp only [reduceCtorEq, if_false, List.append_nil]
            exact ⟨moments, done, fun inside => by cases inside⟩

/-- What the loop receives is a front of the client's stream. -/
theorem receivedBytes_loopHistory (incoming : List RecvOutcome) (session : Session σ) :
    receivedBytes (loopHistory pipeline options session incoming) <+: clientStream incoming := by
  induction incoming generalizing session with
  | nil =>
      simp only [loopHistory]
      split <;> exact List.nil_prefix
  | cons outcome incoming ih =>
      have answer : receivedBytes outcome.happening <+: clientStream (outcome :: incoming) := by
        cases outcome with
        | received chunk now =>
            rw [RecvOutcome.happening, receivedBytes, List.flatMap_singleton]
            exact List.prefix_append chunk.data (clientStream incoming)
        | closed => exact List.nil_prefix
        | interrupted => exact List.nil_prefix
        | again now => exact List.nil_prefix
        | failed description => exact List.nil_prefix
      have goesOn : (serveTurn pipeline options session.polled outcome).1 = .next →
          receivedBytes outcome.happening ++ clientStream incoming =
            clientStream (outcome :: incoming) := by
        intro next
        cases outcome with
        | received chunk now =>
            rw [RecvOutcome.happening, receivedBytes, List.flatMap_singleton]
            rfl
        | closed => cases next
        | interrupted => rfl
        | again now => rfl
        | failed description => cases next
      simp only [loopHistory]
      split
      · exact List.nil_prefix
      · rw [receivedBytes_append, receivedBytes_append, receivedBytes_executed, List.append_nil]
        split
        · next next =>
            rw [← goesOn next, List.prefix_append_right_inj]
            exact ih _
        · rw [show receivedBytes [] = [] from rfl, List.append_nil]
          exact answer

/-! ## The connection -/

/-- What follows the loop executes nothing, or, behind the end of the stream, the rest. -/
theorem serveRest_lines {history : List Happening} {last : Session σ}
    (ending : last.stop.poll.1 = true ∨ .endOfStream ∈ history) :
    (serveRest pipeline last).2.lines = last.lines ∨
      (.endOfStream ∈ history ∧ last.pendingInput ≠ [] ∧
        (serveRest pipeline last).2.lines =
          last.lines ++ [stripCarriageReturn last.pendingInput]) := by
  unfold serveRest
  split
  · exact Or.inl rfl
  · next pending =>
      split
      · exact Or.inl rfl
      · next goesOn =>
          have some : last.pendingInput ≠ [] := by simpa using pending
          exact Or.inr ⟨ending.resolve_left goesOn, some,
            lines_answered pipeline last.polled last.pendingInput⟩

/-- The executed lines are those of the history, and every moment of it is in order. -/
theorem serveHistory_inOrder (start : σ) (socket : Socket) (stop : StopRequested) :
    executedLines (serveHistory pipeline options start socket stop) =
        (serveClient pipeline options start socket stop).2.lines ∧
      ∀ front, front <+: serveHistory pipeline options start socket stop → InOrder front := by
  have opened : Framed (receivedBytes []) (Session.opened start socket stop) :=
    framed_opened start socket stop
  obtain ⟨moments, ended⟩ :=
    @loopHistory_inOrder σ pipeline options [] _ opened rfl socket.incoming
  simp only [List.nil_append] at moments ended
  unfold serveHistory serveClient serveSession
  simp only
  generalize serveLoop pipeline options (.opened start socket stop) socket.incoming = result
    at ended ⊢
  generalize loopHistory pipeline options (.opened start socket stop) socket.incoming = history
    at moments ended ⊢
  have executed := ended.executed
  -- what follows the loop adds nothing, or one line
  have quiet : ∀ after : Session σ, after.lines = result.2.lines →
      executedLines (history ++ (newLines result.2 after).map .executed) = after.lines ∧
        ∀ front, front <+: history ++ (newLines result.2 after).map .executed → InOrder front := by
    intro after same
    have none : newLines result.2 after = [] := by
      rw [newLines, same, List.drop_length]
    rw [none, List.map_nil, List.append_nil, same]
    exact ⟨executed, moments⟩
  rcases result with ⟨_ | status, last⟩
  · obtain ⟨known, ending⟩ := ended.framed rfl
    rcases serveRest_lines pipeline ending with same | ⟨seen, some, one⟩
    · exact quiet _ same
    · have rest : newLines last (serveRest pipeline last).2 =
          [stripCarriageReturn last.pendingInput] := by
        rw [newLines, one, List.drop_left]
      simp only [rest]
      refine ⟨?_, fun front isFront => ?_⟩
      · rw [executedLines_append, executedLines_executed, executed, one]
      · rcases List.prefix_concat_iff.1 isFront with rfl | before
        · right
          have bytes : receivedBytes (history ++ [.executed (stripCarriageReturn
              last.pendingInput)]) = receivedBytes history := by
            rw [receivedBytes_append]
            exact List.append_nil _
          rw [bytes, ← known.pending, ← known.executed]
          refine ⟨List.mem_append_left _ seen, some, ?_⟩
          rw [executedLines_append, executed]
          rfl
        · exact moments front before
  · exact quiet last rfl

/-- **Lines are executed at most once and in order.**  The lines handed to the pipeline are
those of the history, what it receives is a front of the client's stream, and at every
moment the executed lines are the first complete lines received, or, once the end of the
stream was seen, all of them and the unterminated rest. -/
theorem executes_in_order (start : σ) (socket : Socket) (stop : StopRequested) :
    executedLines (serveHistory pipeline options start socket stop) =
        (serveClient pipeline options start socket stop).2.lines ∧
      receivedBytes (serveHistory pipeline options start socket stop) <+:
        clientStream socket.incoming ∧
      ∀ front, front <+: serveHistory pipeline options start socket stop → InOrder front := by
  obtain ⟨executed, moments⟩ := serveHistory_inOrder pipeline options start socket stop
  refine ⟨executed, ?_, moments⟩
  rw [serveHistory, receivedBytes_append, receivedBytes_executed, List.append_nil]
  exact receivedBytes_loopHistory pipeline options socket.incoming _

end AsterKV.Network
