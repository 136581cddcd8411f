/-
# AsterKV.Network.Framing -- which lines a connection executes, whatever the chunks

The buffer's complete lines are the pieces of its body (`processBufferedLines_eq`).
From this, what a session knows of its client's stream is an invariant of the receive
loop (`Framed`): the stream received is the lines executed, in order and with their
line feeds, followed by the buffer.

* `serveClient_lines` -- the executed lines are the first lines of the stream, for every
  chunking, every answer of the kernel and every stop;
* `serveClient_responses` -- the responses are the pipeline's to these lines, one after
  another.
-/
import AsterKV.Network.TcpServer
import AsterKV.Theory.Lines
import AsterKV.Theory.Machine

namespace AsterKV.Network

open AsterKV.Core AsterKV.Pipeline
open Theory.Lines (Terminated body tail)
open Theory

set_option autoImplicit false

/-- The command lines of a client's stream. -/
def commandLines (stream : Bytes) : List Bytes :=
  (Lines.lines lineFeed stream).map stripCarriageReturn

/-- The lines of a buffer whose line feed has arrived, still with their carriage returns. -/
def completeLines (input : Bytes) : List Bytes := Lines.lines lineFeed (body lineFeed input)

theorem commandLines_prefix {received stream : Bytes} (terminated : Terminated lineFeed received)
    (isPrefix : received <+: stream) : commandLines received <+: commandLines stream := by
  obtain ⟨rest, rfl⟩ := isPrefix
  rw [commandLines, commandLines, Lines.lines_append lineFeed terminated, List.map_append]
  exact List.prefix_append _ _

variable {σ : Type} (pipeline : LinePipeline σ)

/-! ## One line -/

/-- The response to the next line. -/
def Session.response (session : Session σ) (rawLine : Bytes) : Bytes :=
  (pipeline.processLine session.storage (stripCarriageReturn rawLine)).1

def Session.deliver (session : Session σ) (rawLine : Bytes) : Delivery :=
  sendAll session.sends session.stop (session.response pipeline rawLine)

/-- The session after the next line. -/
def Session.answered (session : Session σ) (rawLine : Bytes) : Session σ :=
  (processLineAndSendResponse pipeline session rawLine).2

/-- The line and its line feed leave the buffer. -/
def Session.erase (session : Session σ) (rawLine : Bytes) : Session σ :=
  { session with pendingInput := session.pendingInput.drop (rawLine.length + 1) }

theorem processLineAndSendResponse_eq (session : Session σ) (rawLine : Bytes) :
    processLineAndSendResponse pipeline session rawLine =
      ((session.deliver pipeline rawLine).status, session.answered pipeline rawLine) := rfl

theorem exchanges_answered (session : Session σ) (rawLine : Bytes) :
    (session.answered pipeline rawLine).exchanges = session.exchanges ++
      [⟨stripCarriageReturn rawLine, session.response pipeline rawLine,
        (session.deliver pipeline rawLine).sent, sent_prefix _ _ _⟩] := rfl

theorem lines_answered (session : Session σ) (rawLine : Bytes) :
    (session.answered pipeline rawLine).lines =
      session.lines ++ [stripCarriageReturn rawLine] := by
  simp [Session.lines, exchanges_answered]

@[simp] theorem pendingInput_answered (session : Session σ) (rawLine : Bytes) :
    (session.answered pipeline rawLine).pendingInput = session.pendingInput := rfl

@[simp] theorem lines_erase (session : Session σ) (rawLine : Bytes) :
    (session.erase rawLine).lines = session.lines := rfl

/-! ## The lines in the buffer -/

/-- Lines answered one after another, up to a failure. -/
def answerLines : List Bytes → Session σ → Status × Session σ
  | [], session => (.ok, session)
  | rawLine :: more, session =>
      if (session.deliver pipeline rawLine).status.isOk then
        answerLines more ((session.answered pipeline rawLine).erase rawLine)
      else ((session.deliver pipeline rawLine).status, session.answered pipeline rawLine)

theorem completeLines_of_clean {input : Bytes} (clean : lineFeed ∉ input) :
    completeLines input = [] := by
  rw [completeLines, Lines.body_of_clean lineFeed clean]
  rfl

theorem completeLines_line {rawLine : Bytes} (clean : lineFeed ∉ rawLine) (rest : Bytes) :
    completeLines (rawLine ++ lineFeed :: rest) = rawLine :: completeLines rest := by
  have terminated : Terminated lineFeed (rawLine ++ [lineFeed]) := by simp
  have split : rawLine ++ lineFeed :: rest = (rawLine ++ [lineFeed]) ++ rest := by simp
  rw [completeLines, split, Lines.body_append lineFeed terminated, List.append_assoc,
    List.singleton_append, Lines.lines_line lineFeed clean]
  rfl

/-- `find`, `substr` and `erase` cut a buffer at its first line feed. -/
theorem cut_at_lineFeed {input : Bytes} (present : lineFeed ∈ input) :
    lineFeed ∉ input.take (input.idxOf lineFeed) ∧
      input = input.take (input.idxOf lineFeed) ++
        lineFeed :: input.drop (input.idxOf lineFeed + 1) := by
  have inside := List.idxOf_lt_length_of_mem present
  constructor
  · intro member
    obtain ⟨i, bound, found⟩ := List.getElem_of_mem member
    rw [List.length_take] at bound
    rw [List.getElem_take] at found
    have early : i < input.idxOf lineFeed := by omega
    have later := List.not_of_lt_findIdx early
    simp [found] at later
  · have here : input[input.idxOf lineFeed] = lineFeed := List.getElem_idxOf inside
    calc input = input.take (input.idxOf lineFeed) ++ input.drop (input.idxOf lineFeed) :=
          (List.take_append_drop _ _).symm
      _ = _ := by rw [List.drop_eq_getElem_cons inside, here]

theorem processBufferedRounds_eq (rounds : Nat) (session : Session σ)
    (enough : session.pendingInput.length ≤ rounds) :
    processBufferedRounds pipeline rounds session =
      answerLines pipeline (completeLines session.pendingInput) session := by
  induction rounds generalizing session with
  | zero =>
      have empty : session.pendingInput = [] := List.length_eq_zero_iff.1 (by omega)
      rw [empty, completeLines_of_clean (by simp)]
      rfl
  | succ rounds ih =>
      by_cases present : lineFeed ∈ session.pendingInput
      · obtain ⟨clean, cut⟩ := cut_at_lineFeed present
        have inside := List.idxOf_lt_length_of_mem present
        have width : (session.pendingInput.take (session.pendingInput.idxOf lineFeed)).length =
            session.pendingInput.idxOf lineFeed := List.length_take_of_le (by omega)
        have shape := completeLines_line clean
          (session.pendingInput.drop (session.pendingInput.idxOf lineFeed + 1))
        rw [← cut] at shape
        rw [shape, answerLines, processBufferedRounds, if_pos present]
        simp only [processLineAndSendResponse_eq]
        by_cases ok : (session.deliver pipeline
            (session.pendingInput.take (session.pendingInput.idxOf lineFeed))).status.isOk = true
        · have next := ih ((session.answered pipeline (session.pendingInput.take
              (session.pendingInput.idxOf lineFeed))).erase (session.pendingInput.take
              (session.pendingInput.idxOf lineFeed)))
            (by simp only [Session.erase, pendingInput_answered, List.length_drop, width]; omega)
          simp only [ok, if_true]
          simp only [Session.erase, pendingInput_answered, width] at next ⊢
          exact next
        · simp only [ok]
          rfl
      · rw [processBufferedRounds, if_neg present, completeLines_of_clean present]
        rfl

/-- **The loop over the buffer answers its complete lines.** -/
theorem processBufferedLines_eq (session : Session σ) :
    processBufferedLines pipeline session =
      answerLines pipeline (completeLines session.pendingInput) session :=
  processBufferedRounds_eq pipeline _ session (Nat.le_refl _)

/-- A failure stops after some of the lines. -/
theorem answerLines_lines (rawLines : List Bytes) (session : Session σ) :
    ∃ done, done <+: rawLines ∧ (answerLines pipeline rawLines session).2.lines =
      session.lines ++ done.map stripCarriageReturn := by
  induction rawLines generalizing session with
  | nil => exact ⟨[], List.nil_prefix, by simp [answerLines]⟩
  | cons rawLine more ih =>
      simp only [answerLines]
      split
      · obtain ⟨done, isPrefix, executed⟩ :=
          ih ((session.answered pipeline rawLine).erase rawLine)
        refine ⟨rawLine :: done, List.cons_prefix_cons.2 ⟨rfl, isPrefix⟩, ?_⟩
        rw [executed, lines_erase, lines_answered, List.map_cons, List.append_assoc]
        rfl
      · refine ⟨[rawLine], List.cons_prefix_cons.2 ⟨rfl, List.nil_prefix⟩, ?_⟩
        rw [lines_answered]
        rfl

/-- Success means that all the lines were executed and erased. -/
theorem answerLines_ok {rawLines : List Bytes} {session : Session σ}
    (ok : (answerLines pipeline rawLines session).1.isOk = true) :
    (answerLines pipeline rawLines session).2.lines =
        session.lines ++ rawLines.map stripCarriageReturn ∧
      ∀ rest, session.pendingInput = (rawLines.map (· ++ [lineFeed])).flatten ++ rest →
        (answerLines pipeline rawLines session).2.pendingInput = rest := by
  induction rawLines generalizing session with
  | nil =>
      refine ⟨by simp [answerLines], fun rest shape => ?_⟩
      simpa [answerLines] using shape
  | cons rawLine more ih =>
      simp only [answerLines] at ok ⊢
      split at ok
      · next sent =>
          rw [if_pos sent]
          obtain ⟨executed, left⟩ := ih ok
          constructor
          · rw [executed, lines_erase, lines_answered, List.map_cons, List.append_assoc]
            rfl
          · intro rest shape
            refine left rest ?_
            rw [List.map_cons, List.flatten_cons, List.append_assoc] at shape
            have width : rawLine.length + 1 = (rawLine ++ [lineFeed]).length := by simp
            rw [Session.erase, pendingInput_answered, shape, width, List.drop_left]
      · next failed => exact absurd ok failed

/-! ## The stream -/

/-- The session has executed the complete lines of what it received, and buffers the rest. -/
structure Framed (received : Bytes) (session : Session σ) : Prop where
  pending : session.pendingInput = tail lineFeed received
  executed : session.lines = commandLines (body lineFeed received)

theorem framed_opened (start : σ) (socket : Socket) (stop : StopRequested) :
    Framed [] (.opened start socket stop) :=
  ⟨rfl, rfl⟩

theorem Framed.polled {received : Bytes} {session : Session σ} (known : Framed received session) :
    Framed received session.polled :=
  ⟨known.pending, known.executed⟩

theorem Framed.lines_prefix {received stream : Bytes} {session : Session σ}
    (known : Framed received session) (isPrefix : received <+: stream) :
    session.lines <+: commandLines stream := by
  have bodyPrefix : body lineFeed received <+: received :=
    ⟨tail lineFeed received, Lines.body_append_tail lineFeed received⟩
  rw [known.executed]
  exact commandLines_prefix (Lines.body_terminated lineFeed received) (bodyPrefix.trans isPrefix)

/-- The buffer is the last line when nothing follows it. -/
theorem Framed.commandLines_eq {received : Bytes} {session : Session σ}
    (known : Framed received session) (some : session.pendingInput ≠ []) :
    commandLines received = session.lines ++ [stripCarriageReturn session.pendingInput] := by
  have clean := Lines.sep_notMem_tail lineFeed received
  rw [← known.pending] at clean
  calc commandLines received
      = commandLines (body lineFeed received ++ session.pendingInput) := by
        rw [known.pending, Lines.body_append_tail]
    _ = session.lines ++ [stripCarriageReturn session.pendingInput] := by
        rw [known.executed, commandLines, commandLines,
          Lines.lines_append lineFeed (Lines.body_terminated lineFeed received),
          Lines.lines_unterminated lineFeed clean some, List.map_append]
        rfl

/-- A received chunk executes lines that became complete, and all of them unless it fails. -/
theorem Framed.received {received : Bytes} {session : Session σ}
    (known : Framed received session) (chunk : Chunk) (now : TimePoint) :
    (processBufferedLines pipeline (session.received chunk now)).2.lines <+:
        commandLines (body lineFeed (received ++ chunk.data)) ∧
      ((processBufferedLines pipeline (session.received chunk now)).1.isOk = true →
        Framed (received ++ chunk.data)
          (processBufferedLines pipeline (session.received chunk now)).2) := by
  have terminated := Lines.body_terminated lineFeed received
  have pending : (session.received chunk now).pendingInput = tail lineFeed received ++ chunk.data :=
    congrArg (· ++ chunk.data) known.pending
  have lines : (session.received chunk now).lines = session.lines := rfl
  generalize session.received chunk now = more at pending lines ⊢
  have regroup : received ++ chunk.data = body lineFeed received ++ more.pendingInput := by
    rw [pending, ← List.append_assoc, Lines.body_append_tail]
  have newLines : commandLines (body lineFeed (received ++ chunk.data)) =
      session.lines ++ (completeLines more.pendingInput).map stripCarriageReturn := by
    rw [regroup, Lines.body_append lineFeed terminated, known.executed, commandLines,
      Lines.lines_append lineFeed terminated, List.map_append]
    rfl
  rw [processBufferedLines_eq]
  constructor
  · obtain ⟨done, isPrefix, executed⟩ :=
      answerLines_lines pipeline (completeLines more.pendingInput) more
    rw [newLines, executed, lines, List.prefix_append_right_inj]
    exact isPrefix.map stripCarriageReturn
  · intro ok
    obtain ⟨executed, left⟩ := answerLines_ok pipeline ok
    refine ⟨?_, by rw [newLines, executed, lines]⟩
    rw [regroup, Lines.tail_append_terminated lineFeed terminated]
    refine left _ ?_
    rw [completeLines, Lines.flatten_lines lineFeed (Lines.body_terminated lineFeed _),
      Lines.body_append_tail]

variable (options : TcpLineServerOptions)

/-- One pass of the receive loop: what goes on is framed, and an end has executed first
lines of the stream. -/
theorem Framed.serveTurn {received : Bytes} {session : Session σ}
    (known : Framed received session) (outcome : RecvOutcome) (incoming : List RecvOutcome) :
    match serveTurn pipeline options session outcome with
    | (.next, after) => ∃ now, Framed now after ∧
        now ++ clientStream incoming = received ++ clientStream (outcome :: incoming)
    | (.leave, after) => Framed received after ∧ clientStream (outcome :: incoming) = []
    | (.finish _, after) =>
        after.lines <+: commandLines (received ++ clientStream (outcome :: incoming)) := by
  have before : session.lines <+:
      commandLines (received ++ clientStream (outcome :: incoming)) :=
    known.lines_prefix (List.prefix_append _ _)
  cases outcome with
  | received chunk now =>
      obtain ⟨isPrefix, framed⟩ := known.received pipeline chunk now
      have whole : received ++ chunk.data ++ clientStream incoming =
          received ++ clientStream (.received chunk now :: incoming) := List.append_assoc _ _ _
      simp only [Network.serveTurn]
      cases ok : (processBufferedLines pipeline (session.received chunk now)).1.isOk with
      | true => exact ⟨received ++ chunk.data, framed ok, whole⟩
      | false =>
          show (processBufferedLines pipeline (session.received chunk now)).2.lines <+: _
          refine isPrefix.trans ?_
          rw [← whole]
          refine commandLines_prefix (Lines.body_terminated lineFeed _) ?_
          exact List.IsPrefix.trans ⟨_, Lines.body_append_tail lineFeed _⟩
            (List.prefix_append _ _)
  | closed => exact ⟨known, rfl⟩
  | interrupted =>
      simp only [Network.serveTurn]
      cases session.stop.poll.1 with
      | true => exact before
      | false => exact ⟨received, known.polled, rfl⟩
  | again now =>
      simp only [Network.serveTurn]
      cases session.stop.poll.1 with
      | true => exact before
      | false =>
          cases isClientIdleTimedOut options now session.lastActivity with
          | true => exact before
          | false => exact ⟨received, known.polled, rfl⟩
  | failed description => exact before

/-- The receive loop ends framed, with the whole stream received unless a stop was
requested, or it returns and has executed first lines of the stream. -/
theorem Framed.serveLoop {received : Bytes} {session : Session σ}
    (known : Framed received session) (incoming : List RecvOutcome) :
    match serveLoop pipeline options session incoming with
    | (some _, last) => last.lines <+: commandLines (received ++ clientStream incoming)
    | (none, last) => ∃ now, Framed now last ∧ now <+: received ++ clientStream incoming ∧
        (last.stop.poll.1 = true ∨ now = received ++ clientStream incoming) := by
  induction incoming generalizing received session with
  | nil =>
      have all : received = received ++ clientStream [] := (List.append_nil _).symm
      exact ⟨received, known.polled, all ▸ List.prefix_refl _, .inr all⟩
  | cons outcome incoming ih =>
      simp only [Network.serveLoop]
      cases stopped : session.stop.poll.1 with
      | true =>
          refine ⟨received, known.polled, List.prefix_append _ _, .inl ?_⟩
          show session.stop.poll.2.poll.1 = true
          rw [StopRequested.poll_of_requested stopped, stopped]
      | false =>
          have turn := known.polled.serveTurn pipeline options outcome incoming
          generalize Network.serveTurn pipeline options session.polled outcome = result at turn ⊢
          rcases result with ⟨_ | _ | status, after⟩
          · obtain ⟨now, framed, same⟩ := turn
            have rest := ih framed
            rw [same] at rest
            exact rest
          · obtain ⟨framed, ended⟩ := turn
            refine ⟨received, framed, List.prefix_append _ _, .inr ?_⟩
            rw [ended, List.append_nil]
          · exact turn

/-- **A connection executes the first lines of its client's stream, in order**, for every
chunking, every answer of the kernel and every stop. -/
theorem serveClient_lines (start : σ) (socket : Socket) (stop : StopRequested) :
    (serveClient pipeline options start socket stop).2.lines <+:
      commandLines (clientStream socket.incoming) := by
  have loop := (framed_opened start socket stop).serveLoop pipeline options socket.incoming
  unfold serveClient serveSession
  generalize serveLoop pipeline options (.opened start socket stop) socket.incoming = result
    at loop ⊢
  rcases result with ⟨_ | status, last⟩
  · obtain ⟨now, framed, isPrefix, ending⟩ := loop
    show (serveRest pipeline last).2.lines <+: commandLines ([] ++ clientStream socket.incoming)
    have before := framed.lines_prefix isPrefix
    unfold serveRest
    split
    · exact before
    · next pending =>
        cases stopped : last.stop.poll.1 with
        | true => exact before
        | false =>
            have all : now = [] ++ clientStream socket.incoming := by simpa [stopped] using ending
            have some : last.pendingInput ≠ [] := by simpa using pending
            rw [← all, framed.commandLines_eq some]
            exact (lines_answered pipeline last.polled last.pendingInput).symm ▸
              List.prefix_refl _
  · exact loop

/-! ## What answering a line preserves -/

section Invariant

variable {P : σ → List Exchange → Prop}

/-- Answering a line keeps `P`. -/
def KeptByLines (P : σ → List Exchange → Prop) : Prop :=
  ∀ (session : Session σ) (rawLine : Bytes), P session.storage session.exchanges →
    P (session.answered pipeline rawLine).storage (session.answered pipeline rawLine).exchanges

variable {pipeline}

theorem KeptByLines.answerLines (kept : KeptByLines pipeline P) (rawLines : List Bytes)
    (session : Session σ) (start : P session.storage session.exchanges) :
    P (answerLines pipeline rawLines session).2.storage
      (answerLines pipeline rawLines session).2.exchanges := by
  induction rawLines generalizing session with
  | nil => exact start
  | cons rawLine more ih =>
      simp only [Network.answerLines]
      split
      · exact ih _ (kept session rawLine start)
      · exact kept session rawLine start

theorem KeptByLines.serveTurn (kept : KeptByLines pipeline P) (session : Session σ)
    (start : P session.storage session.exchanges) (outcome : RecvOutcome) :
    P (serveTurn pipeline options session outcome).2.storage
      (serveTurn pipeline options session outcome).2.exchanges := by
  cases outcome with
  | received chunk now =>
      have answered := kept.answerLines (completeLines (session.received chunk now).pendingInput)
        (session.received chunk now) start
      simp only [Network.serveTurn, processBufferedLines_eq]
      split <;> exact answered
  | closed => exact start
  | interrupted =>
      simp only [Network.serveTurn]
      split <;> exact start
  | again now =>
      simp only [Network.serveTurn]
      split
      · exact start
      · split <;> exact start
  | failed description => exact start

theorem KeptByLines.serveLoop (kept : KeptByLines pipeline P) (incoming : List RecvOutcome)
    (session : Session σ) (start : P session.storage session.exchanges) :
    P (serveLoop pipeline options session incoming).2.storage
      (serveLoop pipeline options session incoming).2.exchanges := by
  induction incoming generalizing session with
  | nil => exact start
  | cons outcome incoming ih =>
      simp only [Network.serveLoop]
      split
      · exact start
      · have turn := kept.serveTurn options session.polled start outcome
        generalize Network.serveTurn pipeline options session.polled outcome = result at turn ⊢
        rcases result with ⟨_ | _ | status, after⟩
        · exact ih _ turn
        · exact turn
        · exact turn

/-- **Invariants of connections**: what every answered line keeps holds at the end. -/
theorem KeptByLines.serveSession (kept : KeptByLines pipeline P) (incoming : List RecvOutcome)
    (session : Session σ) (start : P session.storage session.exchanges) :
    P (serveSession pipeline options session incoming).2.storage
      (serveSession pipeline options session incoming).2.exchanges := by
  have loop := kept.serveLoop options incoming session start
  unfold Network.serveSession
  generalize Network.serveLoop pipeline options session incoming = result at loop ⊢
  rcases result with ⟨_ | status, last⟩
  · show P (serveRest pipeline last).2.storage (serveRest pipeline last).2.exchanges
    unfold serveRest
    split
    · exact loop
    · split
      · exact loop
      · exact kept last.polled last.pendingInput loop
  · exact loop

end Invariant

/-- **The responses are the pipeline's**, to the executed lines one after another, and
the storage is what these lines leave. -/
theorem serveClient_responses (start : σ) (socket : Socket) (stop : StopRequested) :
    Machine.run pipeline.processLine start (serveClient pipeline options start socket stop).2.lines =
      ((serveClient pipeline options start socket stop).2.responses,
        (serveClient pipeline options start socket stop).2.storage) := by
  refine KeptByLines.serveSession options
    (P := fun storage exchanges =>
      Machine.run pipeline.processLine start (exchanges.map (·.line)) =
        (exchanges.map (·.response), storage)) ?_ socket.incoming (.opened start socket stop) rfl
  intro session rawLine known
  have last : Machine.after pipeline.processLine start (session.exchanges.map (·.line)) =
      session.storage := congrArg Prod.snd known
  rw [exchanges_answered, List.map_append, Machine.run_append, last, known]
  simp [Session.response, Session.answered, processLineAndSendResponse]

end AsterKV.Network
