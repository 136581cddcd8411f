/-
# AsterKV.Network.ServeSteps -- serveClient, cut where other threads can come between

A worker's thread shares the storage and the stop callback with all others.  `serveStep`
is `serveClient` up to the next moment at which another thread may change them: a test of
the loop, a `recv`, one line with its response, the code behind the loop.

* `serveStep_session` -- a step executes no line or one line;
* `Serving.Follows.serveStep` -- whatever the others do to storage and callback, the lines
  executed are first lines of the client's stream;
* `serveStep_alone` -- a thread that nobody interrupts does what `serveClient` does.
-/
import AsterKV.Network.ExecutionOrder

namespace AsterKV.Network

open AsterKV.Core AsterKV.Pipeline
open Theory.Lines (Terminated body tail)
open Theory

set_option autoImplicit false

/-- Where a thread stands in `serveClient`. -/
inductive ServePoint where
  | loopTest
  | receiving
  /-- `processBufferedLines`, before it looks for a line feed. -/
  | answering
  /-- Behind the loop. -/
  | rest
  | returned (status : Status)
  deriving DecidableEq

structure Serving (σ : Type) where
  point : ServePoint
  session : Session σ
  incoming : List RecvOutcome

variable {σ : Type} (pipeline : LinePipeline σ) (options : TcpLineServerOptions)

/-- The call of `serveClient`. -/
def Serving.opened (storage : σ) (socket : Socket) (stop : StopRequested) : Serving σ :=
  ⟨.loopTest, .opened storage socket stop, socket.incoming⟩

/-- The thread comes back and finds the storage and the callback as others left them. -/
def Serving.resumed (serving : Serving σ) (storage : σ) (stop : StopRequested) : Serving σ :=
  { serving with session := { serving.session with storage := storage, stop := stop } }

/-- One answer of `recv`. -/
def receiveStep (session : Session σ) : List RecvOutcome → Serving σ
  | [] => ⟨.rest, session, []⟩
  | .received chunk now :: incoming => ⟨.answering, session.received chunk now, incoming⟩
  | outcome :: incoming =>
      match serveTurn pipeline options session outcome with
      | (.next, session) => ⟨.loopTest, session, incoming⟩
      | (.leave, session) => ⟨.rest, session, incoming⟩
      | (.finish status, session) => ⟨.returned status, session, incoming⟩

/-- One round of `processBufferedLines`. -/
def answerStep (session : Session σ) (incoming : List RecvOutcome) : Serving σ :=
  if lineFeed ∈ session.pendingInput then
    let newlinePosition := session.pendingInput.idxOf lineFeed
    let line := session.pendingInput.take newlinePosition
    let (status, session) := processLineAndSendResponse pipeline session line
    if !status.isOk then ⟨.returned status, session, incoming⟩
    else
      ⟨.answering,
        { session with pendingInput := session.pendingInput.drop (newlinePosition + 1) }, incoming⟩
  else ⟨.loopTest, session, incoming⟩

def serveStep (serving : Serving σ) : Serving σ :=
  let session := serving.session
  match serving.point with
  | .loopTest =>
      if session.stop.poll.1 then ⟨.rest, session.polled, serving.incoming⟩
      else ⟨.receiving, session.polled, serving.incoming⟩
  | .receiving => receiveStep pipeline options session serving.incoming
  | .answering => answerStep pipeline session serving.incoming
  | .rest =>
      let (status, session) := serveRest pipeline session
      ⟨.returned status, session, serving.incoming⟩
  | .returned _ => serving

/-! ## What a step executes -/

/-- A session after no line or one line more. -/
inductive OneLine (before after : Session σ) : Prop where
  | none (lines : after.lines = before.lines) (storage : after.storage = before.storage)
  | one (line : Bytes) (lines : after.lines = before.lines ++ [line])
      (storage : after.storage = (pipeline.processLine before.storage line).2)

theorem oneLine_answered (session : Session σ) (rawLine : Bytes) :
    OneLine pipeline session (session.answered pipeline rawLine) :=
  .one _ (lines_answered pipeline session rawLine) rfl

/-- An answer of `recv` brings a chunk, makes the thread ask the callback, or neither. -/
theorem receiveStep_session (session : Session σ) (incoming : List RecvOutcome) :
    (receiveStep pipeline options session incoming).session = session ∨
      (receiveStep pipeline options session incoming).session = session.polled ∨
        ∃ chunk now, (receiveStep pipeline options session incoming).session =
          session.received chunk now := by
  cases incoming with
  | nil => exact Or.inl rfl
  | cons outcome incoming =>
      cases outcome with
      | received chunk now => exact Or.inr (Or.inr ⟨chunk, now, rfl⟩)
      | closed => exact Or.inl rfl
      | interrupted =>
          simp only [receiveStep, serveTurn]
          cases session.stop.poll.1 <;> exact Or.inr (Or.inl rfl)
      | again now =>
          simp only [receiveStep, serveTurn]
          cases session.stop.poll.1 with
          | true => exact Or.inr (Or.inl rfl)
          | false =>
              cases isClientIdleTimedOut options now session.lastActivity <;>
                exact Or.inr (Or.inl rfl)
      | failed description => exact Or.inl rfl

theorem oneLine_receiveStep (session : Session σ) (incoming : List RecvOutcome) :
    OneLine pipeline session (receiveStep pipeline options session incoming).session := by
  rcases receiveStep_session pipeline options session incoming with
    same | same | ⟨chunk, now, same⟩
  · rw [same]
    exact .none rfl rfl
  · rw [same]
    exact .none rfl rfl
  · rw [same]
    exact .none rfl rfl

/-- What `find` and `substr` cut off the buffer. -/
def Session.nextLine (session : Session σ) : Bytes :=
  session.pendingInput.take (session.pendingInput.idxOf lineFeed)

theorem Session.length_nextLine {session : Session σ} (present : lineFeed ∈ session.pendingInput) :
    session.nextLine.length = session.pendingInput.idxOf lineFeed := by
  have inside := List.idxOf_lt_length_of_mem present
  exact List.length_take_of_le (by omega)

/-- The line that is cut off is the first complete one. -/
theorem completeLines_nextLine {session : Session σ} (present : lineFeed ∈ session.pendingInput) :
    completeLines session.pendingInput = session.nextLine ::
      completeLines (session.pendingInput.drop (session.nextLine.length + 1)) := by
  obtain ⟨clean, cut⟩ := cut_at_lineFeed present
  have shape := completeLines_line clean
    (session.pendingInput.drop (session.pendingInput.idxOf lineFeed + 1))
  rw [← cut] at shape
  rw [session.length_nextLine present]
  exact shape

theorem answerStep_line {session : Session σ} (present : lineFeed ∈ session.pendingInput)
    (incoming : List RecvOutcome) :
    answerStep pipeline session incoming =
      if (session.deliver pipeline session.nextLine).status.isOk then
        ⟨.answering, (session.answered pipeline session.nextLine).erase session.nextLine, incoming⟩
      else
        ⟨.returned (session.deliver pipeline session.nextLine).status,
          session.answered pipeline session.nextLine, incoming⟩ := by
  rw [answerStep, if_pos present]
  show (if (!(session.deliver pipeline session.nextLine).status.isOk) = true then _ else _) = _
  by_cases ok : (session.deliver pipeline session.nextLine).status.isOk = true
  · rw [if_pos ok, if_neg (by simpa using ok), Session.erase, Session.length_nextLine present]
    rfl
  · rw [if_neg ok, if_pos (by simpa using ok)]
    rfl

theorem oneLine_answerStep (session : Session σ) (incoming : List RecvOutcome) :
    OneLine pipeline session (answerStep pipeline session incoming).session := by
  by_cases present : lineFeed ∈ session.pendingInput
  · rw [answerStep_line pipeline present]
    split
    · exact .one _ (lines_answered pipeline session _) rfl
    · exact oneLine_answered pipeline session _
  · rw [answerStep, if_neg present]
    exact .none rfl rfl

theorem oneLine_serveRest (session : Session σ) :
    OneLine pipeline session (serveRest pipeline session).2 := by
  unfold serveRest
  split
  · exact .none rfl rfl
  · split
    · exact .none rfl rfl
    · rw [processLineAndSendResponse_eq]
      exact .one _ (lines_answered pipeline session.polled session.pendingInput) rfl

/-- **A step executes at most one line.** -/
theorem serveStep_session (serving : Serving σ) :
    OneLine pipeline serving.session (serveStep pipeline options serving).session := by
  obtain ⟨point, session, incoming⟩ := serving
  cases point with
  | loopTest =>
      simp only [serveStep]
      cases session.stop.poll.1 <;> exact .none rfl rfl
  | receiving => exact oneLine_receiveStep pipeline options session incoming
  | answering => exact oneLine_answerStep pipeline session incoming
  | rest => exact oneLine_serveRest pipeline session
  | returned status => exact .none rfl rfl

theorem OneLine.grows {before after : Session σ} (effect : OneLine pipeline before after) :
    before.lines <+: after.lines := by
  cases effect with
  | none lines storage => rw [lines]
  | one line lines storage => exact ⟨[line], lines.symm⟩

/-- The storage is what the pipeline makes of the new lines. -/
theorem OneLine.storage {before after : Session σ} (effect : OneLine pipeline before after) :
    after.storage =
      Machine.after pipeline.processLine before.storage (newLines before after) := by
  cases effect with
  | none lines storage =>
      rw [newLines, lines, List.drop_length]
      exact storage
  | one line lines storage =>
      rw [newLines, lines, List.drop_left]
      exact storage

/-- A stop request lasts. -/
theorem serveStep_stop {serving : Serving σ} (requested : serving.session.stop.poll.1 = true) :
    (serveStep pipeline options serving).session.stop = serving.session.stop := by
  obtain ⟨point, session, incoming⟩ := serving
  have polled : session.polled.stop = session.stop := StopRequested.poll_of_requested requested
  have answered : ∀ rawLine, (session.answered pipeline rawLine).stop = session.stop :=
    fun rawLine => sendAll_stop requested _ _
  cases point with
  | loopTest =>
      simp only [serveStep]
      split <;> exact polled
  | receiving =>
      show (receiveStep pipeline options session incoming).session.stop = session.stop
      rcases receiveStep_session pipeline options session incoming with
        same | same | ⟨chunk, now, same⟩
      · rw [same]
      · rw [same]
        exact polled
      · rw [same]
        rfl
  | answering =>
      simp only [serveStep]
      by_cases present : lineFeed ∈ session.pendingInput
      · rw [answerStep_line pipeline present]
        split <;> exact answered _
      · rw [answerStep, if_neg present]
  | rest =>
      simp only [serveStep, serveRest]
      split
      · rfl
      · exact polled
  | returned status => rfl

/-! ## What a thread executes, whatever the others do -/

/-- The session has executed the lines of some of what it received, and buffers the rest. -/
def Cut (received : Bytes) (session : Session σ) : Prop :=
  ∃ done, Terminated lineFeed done ∧ received = done ++ session.pendingInput ∧
    session.lines = commandLines done

theorem Framed.cut {received : Bytes} {session : Session σ} (known : Framed received session) :
    Cut received session := by
  refine ⟨body lineFeed received, Lines.body_terminated lineFeed received, ?_, known.executed⟩
  rw [known.pending, Lines.body_append_tail]

theorem Cut.framed {received : Bytes} {session : Session σ} (known : Cut received session)
    (clean : lineFeed ∉ session.pendingInput) : Framed received session := by
  obtain ⟨done, terminated, rfl, executed⟩ := known
  refine ⟨(Lines.tail_append lineFeed terminated clean).symm, ?_⟩
  rw [Lines.body_append_clean lineFeed clean, Lines.body_of_terminated lineFeed terminated]
  exact executed

theorem Cut.received {received : Bytes} {session : Session σ} (known : Cut received session)
    (chunk : Chunk) (now : TimePoint) :
    Cut (received ++ chunk.data) (session.received chunk now) := by
  obtain ⟨done, terminated, rfl, executed⟩ := known
  exact ⟨done, terminated, List.append_assoc _ _ _, executed⟩

theorem Cut.lines_prefix {received stream : Bytes} {session : Session σ}
    (known : Cut received session) (isPrefix : received <+: stream) :
    session.lines <+: commandLines stream := by
  obtain ⟨done, terminated, rfl, executed⟩ := known
  rw [executed]
  exact commandLines_prefix terminated ((List.prefix_append _ _).trans isPrefix)

/-- The next line is executed and leaves the buffer. -/
theorem Cut.answered {received : Bytes} {session : Session σ} (known : Cut received session)
    (present : lineFeed ∈ session.pendingInput) :
    Cut received ((session.answered pipeline session.nextLine).erase session.nextLine) := by
  obtain ⟨done, terminated, rfl, executed⟩ := known
  obtain ⟨clean, cut⟩ := cut_at_lineFeed present
  have next : Terminated lineFeed (session.nextLine ++ [lineFeed]) := by simp
  have one : Lines.lines lineFeed (session.nextLine ++ [lineFeed]) = [session.nextLine] :=
    Lines.lines_line lineFeed clean []
  refine ⟨done ++ (session.nextLine ++ [lineFeed]),
    Lines.terminated_append _ terminated next, ?_, ?_⟩
  · show done ++ session.pendingInput = _ ++ session.pendingInput.drop (session.nextLine.length + 1)
    rw [session.length_nextLine present, List.append_assoc, List.append_assoc]
    exact congrArg (done ++ ·) cut
  · rw [lines_erase, lines_answered, executed, commandLines, commandLines,
      Lines.lines_append lineFeed terminated, one, List.map_append]
    rfl

/-- What is known of a thread that serves a client with this stream. -/
def Serving.Follows (stream : Bytes) (stopped : Bool) (serving : Serving σ) : Prop :=
  match serving.point with
  | .loopTest => ∃ received, Framed received serving.session ∧
      received ++ clientStream serving.incoming = stream
  | .receiving => ∃ received, Framed received serving.session ∧
      received ++ clientStream serving.incoming = stream
  | .answering => ∃ received, Cut received serving.session ∧
      received ++ clientStream serving.incoming = stream
  | .rest => ∃ received, Framed received serving.session ∧ received <+: stream ∧
      (stopped = true ∨ received = stream)
  | .returned _ => serving.session.lines <+: commandLines stream

theorem follows_opened (storage : σ) (socket : Socket) (stop : StopRequested) (stopped : Bool) :
    (Serving.opened storage socket stop).Follows (clientStream socket.incoming) stopped :=
  ⟨[], framed_opened storage socket stop, List.nil_append _⟩

namespace Serving.Follows

variable {pipeline options} {stream : Bytes} {stopped : Bool} {serving : Serving σ}

/-- A stop request lasts. -/
theorem mono (known : serving.Follows stream stopped) {later : Bool}
    (lasts : stopped = true → later = true) : serving.Follows stream later := by
  obtain ⟨point, session, incoming⟩ := serving
  cases point with
  | rest =>
      obtain ⟨received, framed, isPrefix, ending⟩ := known
      exact ⟨received, framed, isPrefix, ending.imp_left lasts⟩
  | _ => exact known

theorem resumed (known : serving.Follows stream stopped) (storage : σ) (stop : StopRequested) :
    (serving.resumed storage stop).Follows stream stopped := by
  obtain ⟨point, session, incoming⟩ := serving
  cases point with
  | loopTest =>
      obtain ⟨received, framed, whole⟩ := known
      exact ⟨received, ⟨framed.pending, framed.executed⟩, whole⟩
  | receiving =>
      obtain ⟨received, framed, whole⟩ := known
      exact ⟨received, ⟨framed.pending, framed.executed⟩, whole⟩
  | answering =>
      obtain ⟨received, cut, whole⟩ := known
      exact ⟨received, cut, whole⟩
  | rest =>
      obtain ⟨received, framed, ending⟩ := known
      exact ⟨received, ⟨framed.pending, framed.executed⟩, ending⟩
  | returned status => exact known

/-- At every moment the executed lines are first lines of the stream. -/
theorem lines_prefix (known : serving.Follows stream stopped) :
    serving.session.lines <+: commandLines stream := by
  obtain ⟨point, session, incoming⟩ := serving
  cases point with
  | loopTest =>
      obtain ⟨received, framed, rfl⟩ := known
      exact framed.lines_prefix (List.prefix_append _ _)
  | receiving =>
      obtain ⟨received, framed, rfl⟩ := known
      exact framed.lines_prefix (List.prefix_append _ _)
  | answering =>
      obtain ⟨received, cut, rfl⟩ := known
      exact cut.lines_prefix (List.prefix_append _ _)
  | rest =>
      obtain ⟨received, framed, isPrefix, -⟩ := known
      exact framed.lines_prefix isPrefix
  | returned status => exact known

theorem receiveStep {received : Bytes} {session : Session σ} {incoming : List RecvOutcome}
    (framed : Framed received session) (whole : received ++ clientStream incoming = stream) :
    (receiveStep pipeline options session incoming).Follows stream stopped := by
  -- all but a chunk is a pass of the receive loop
  have pass : ∀ outcome later, received ++ clientStream (outcome :: later) = stream →
      (match serveTurn pipeline options session outcome with
        | (.next, after) => (⟨.loopTest, after, later⟩ : Serving σ)
        | (.leave, after) => ⟨.rest, after, later⟩
        | (.finish status, after) => ⟨.returned status, after, later⟩).Follows stream stopped := by
    intro outcome later same
    have turn := framed.serveTurn pipeline options outcome later
    generalize serveTurn pipeline options session outcome = result at turn ⊢
    rcases result with ⟨_ | _ | status, after⟩
    · obtain ⟨now, known, rest⟩ := turn
      exact ⟨now, known, rest.trans same⟩
    · obtain ⟨known, ended⟩ := turn
      rw [ended, List.append_nil] at same
      exact ⟨received, known, by rw [same], Or.inr same⟩
    · rw [same] at turn
      exact turn
  cases incoming with
  | nil =>
      have all : received = stream := (List.append_nil _).symm.trans whole
      exact ⟨received, framed, by rw [all], Or.inr all⟩
  | cons outcome later =>
      cases outcome with
      | received chunk now =>
          refine ⟨received ++ chunk.data, framed.cut.received chunk now, ?_⟩
          rw [← whole]
          exact List.append_assoc _ _ _
      | closed => exact pass _ _ whole
      | interrupted => exact pass _ _ whole
      | again now => exact pass _ _ whole
      | failed description => exact pass _ _ whole

theorem answerStep {received : Bytes} {session : Session σ} {incoming : List RecvOutcome}
    (known : Cut received session) (whole : received ++ clientStream incoming = stream) :
    (answerStep pipeline session incoming).Follows stream stopped := by
  by_cases present : lineFeed ∈ session.pendingInput
  · have answered := known.answered pipeline present
    rw [answerStep_line pipeline present]
    split
    · exact ⟨received, answered, whole⟩
    · exact answered.lines_prefix ⟨_, whole⟩
  · rw [Network.answerStep, if_neg present]
    exact ⟨received, known.framed present, whole⟩

theorem serveRest {received : Bytes} {session : Session σ} (framed : Framed received session)
    (isPrefix : received <+: stream) (ending : session.stop.poll.1 = true ∨ received = stream) :
    (serveRest pipeline session).2.lines <+: commandLines stream := by
  have before := framed.lines_prefix isPrefix
  unfold Network.serveRest
  split
  · exact before
  · next pending =>
      split
      · exact before
      · next running =>
          obtain rfl : received = stream := ending.resolve_left running
          rw [framed.commandLines_eq (by simpa using pending)]
          rw [processLineAndSendResponse_eq]
          exact (lines_answered pipeline session.polled session.pendingInput).symm ▸
            List.prefix_refl _

/-- **A step keeps to the client's stream.** -/
theorem serveStep (known : serving.Follows stream serving.session.stop.poll.1) :
    (serveStep pipeline options serving).Follows stream
      (serveStep pipeline options serving).session.stop.poll.1 := by
  obtain ⟨point, session, incoming⟩ := serving
  cases point with
  | loopTest =>
      obtain ⟨received, framed, whole⟩ := known
      simp only [Network.serveStep]
      cases requested : session.stop.poll.1 with
      | true =>
          refine ⟨received, framed.polled, ⟨_, whole⟩, Or.inl ?_⟩
          show session.stop.poll.2.poll.1 = true
          rw [StopRequested.poll_of_requested requested, requested]
      | false => exact ⟨received, framed.polled, whole⟩
  | receiving =>
      obtain ⟨received, framed, whole⟩ := known
      exact Follows.receiveStep framed whole
  | answering =>
      obtain ⟨received, cut, whole⟩ := known
      exact Follows.answerStep cut whole
  | rest =>
      obtain ⟨received, framed, isPrefix, ending⟩ := known
      exact Follows.serveRest framed isPrefix ending
  | returned status => exact known

end Serving.Follows

/-! ## A thread alone -/

/-- Undisturbed, the thread gets from one place to the other. -/
def Reaches (first last : Serving σ) : Prop :=
  ∃ steps, (serveStep pipeline options)^[steps] first = last

variable {pipeline options}

theorem Reaches.refl (serving : Serving σ) : Reaches pipeline options serving serving := ⟨0, rfl⟩

theorem Reaches.step {first last : Serving σ}
    (later : Reaches pipeline options (serveStep pipeline options first) last) :
    Reaches pipeline options first last := by
  obtain ⟨steps, same⟩ := later
  exact ⟨steps + 1, same⟩

theorem Reaches.trans {first second last : Serving σ} (h : Reaches pipeline options first second)
    (later : Reaches pipeline options second last) : Reaches pipeline options first last := by
  obtain ⟨steps, rfl⟩ := h
  obtain ⟨more, rfl⟩ := later
  refine ⟨more + steps, ?_⟩
  rw [Function.iterate_add_apply]

variable (pipeline options)

/-- Where `processBufferedLines` leaves the thread. -/
def Serving.behindLines (result : Status × Session σ) (incoming : List RecvOutcome) : Serving σ :=
  if !result.1.isOk then ⟨.returned result.1, result.2, incoming⟩
  else ⟨.loopTest, result.2, incoming⟩

theorem reaches_lines {session : Session σ} {rawLines : List Bytes}
    (complete : completeLines session.pendingInput = rawLines) (incoming : List RecvOutcome) :
    Reaches pipeline options ⟨.answering, session, incoming⟩
      (.behindLines (answerLines pipeline rawLines session) incoming) := by
  induction rawLines generalizing session with
  | nil =>
      have clean : lineFeed ∉ session.pendingInput := by
        intro present
        rw [completeLines_nextLine present] at complete
        cases complete
      refine .step ?_
      show Reaches pipeline options (answerStep pipeline session incoming) _
      rw [answerStep, if_neg clean]
      exact .refl _
  | cons rawLine more ih =>
      have present : lineFeed ∈ session.pendingInput := by
        by_contra clean
        rw [completeLines_of_clean clean] at complete
        cases complete
      rw [completeLines_nextLine present] at complete
      obtain ⟨rfl, later⟩ := List.cons.inj complete
      refine .step ?_
      show Reaches pipeline options (answerStep pipeline session incoming) _
      rw [answerStep_line pipeline present, answerLines]
      by_cases ok : (session.deliver pipeline session.nextLine).status.isOk = true
      · rw [if_pos ok, if_pos ok]
        exact ih later
      · rw [if_neg ok, if_neg ok, Serving.behindLines, if_pos (by simpa using ok)]
        exact .refl _

theorem reaches_turn (session : Session σ) (outcome : RecvOutcome) (incoming : List RecvOutcome) :
    Reaches pipeline options ⟨.receiving, session, outcome :: incoming⟩
      (match serveTurn pipeline options session outcome with
        | (.next, session) => ⟨.loopTest, session, incoming⟩
        | (.leave, session) => ⟨.rest, session, incoming⟩
        | (.finish status, session) => ⟨.returned status, session, incoming⟩) := by
  refine .step ?_
  cases outcome with
  | received chunk now =>
      have lines := reaches_lines pipeline options
        (rfl : completeLines (session.received chunk now).pendingInput = _) incoming
      refine lines.trans ?_
      rw [← processBufferedLines_eq]
      simp only [Serving.behindLines, serveTurn]
      cases (processBufferedLines pipeline (session.received chunk now)).1.isOk <;> exact .refl _
  | closed => exact .refl _
  | interrupted => exact .refl _
  | again now => exact .refl _
  | failed description => exact .refl _

theorem reaches_loop (session : Session σ) (incoming : List RecvOutcome) :
    ∃ unread, Reaches pipeline options ⟨.loopTest, session, incoming⟩
      (match serveLoop pipeline options session incoming with
        | (some status, session) => ⟨.returned status, session, unread⟩
        | (none, session) => ⟨.rest, session, unread⟩) := by
  induction incoming generalizing session with
  | nil =>
      refine ⟨[], .step ?_⟩
      simp only [serveStep, serveLoop]
      cases session.stop.poll.1 with
      | true => exact .refl _
      | false => exact .step (.refl _)
  | cons outcome incoming ih =>
      simp only [serveLoop]
      cases stopped : session.stop.poll.1 with
      | true =>
          refine ⟨outcome :: incoming, .step ?_⟩
          simp only [serveStep, stopped, if_true]
          exact .refl _
      | false =>
          have turn := reaches_turn pipeline options session.polled outcome incoming
          have tested : Reaches pipeline options ⟨.loopTest, session, outcome :: incoming⟩
              ⟨.receiving, session.polled, outcome :: incoming⟩ := by
            refine .step ?_
            simp only [serveStep, stopped, Bool.false_eq_true, if_false]
            exact .refl _
          simp only [Bool.false_eq_true, if_false]
          generalize serveTurn pipeline options session.polled outcome = result at turn ⊢
          rcases result with ⟨_ | _ | status, after⟩
          · obtain ⟨unread, later⟩ := ih after
            exact ⟨unread, tested.trans (turn.trans later)⟩
          · exact ⟨incoming, tested.trans turn⟩
          · exact ⟨incoming, tested.trans turn⟩

/-- **Undisturbed, the steps are `serveClient`.** -/
theorem serveStep_alone (storage : σ) (socket : Socket) (stop : StopRequested) :
    ∃ unread, Reaches pipeline options (.opened storage socket stop)
      ⟨.returned (serveClient pipeline options storage socket stop).1,
        (serveClient pipeline options storage socket stop).2, unread⟩ := by
  obtain ⟨unread, loop⟩ :=
    reaches_loop pipeline options (.opened storage socket stop) socket.incoming
  refine ⟨unread, Reaches.trans loop ?_⟩
  unfold serveClient serveSession
  generalize serveLoop pipeline options (.opened storage socket stop) socket.incoming = result
  rcases result with ⟨_ | status, session⟩
  · exact .step (.refl _)
  · exact .refl _

end AsterKV.Network
