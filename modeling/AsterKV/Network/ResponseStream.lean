/-
# AsterKV.Network.ResponseStream -- when a connection's output is a prefix of its responses

`sendAll` gives a response up when a stop was requested and the socket cannot take
more bytes, and reports success.  Its callers go on with the next complete line in the
buffer, so the output stays a prefix of the responses exactly when none of these
lines gets a byte through (`Muted`).
-/
import AsterKV.Network.Framing
import AsterKV.Storage.InMemoryStorage
import AsterKV.Theory.Deliveries

namespace AsterKV.Network

open AsterKV.Core AsterKV.Pipeline AsterKV.Storage
open Theory
open Theory.Deliveries (AllWhole Orderly)

set_option autoImplicit false

variable {σ : Type}

/-- No response of the session was cut. -/
abbrev Session.Whole (session : Session σ) : Prop :=
  AllWhole Exchange.response Exchange.sent session.exchanges

/-- A response that was only partly sent is followed by no byte of another one. -/
abbrev Session.Ordered (session : Session σ) : Prop :=
  Orderly Exchange.response Exchange.sent session.exchanges

/-! ## Giving a response up -/

/-- The answers that `send` still has when the rest of a response is given up because a
stop was requested; `none` when the response is sent or fails. -/
def abandoned : List SendOutcome → StopRequested → Bytes → Option (List SendOutcome)
  | _, _, [] => none
  | [], _, _ => none
  | .sent more :: sends, stop, rest => abandoned sends stop (rest.drop (more + 1))
  | .temporary _ :: sends, stop, rest =>
      if stop.poll.1 then some sends else abandoned sends stop.poll.2 rest
  | .wroteNothing :: _, _, _ => none
  | .failed _ :: _, _, _ => none

/-- While a stop is requested, this many responses get no byte through: each is given up
at its first `send`, up to one that fails. -/
def Muted : Nat → List SendOutcome → Prop
  | 0, _ => True
  | _ + 1, [] => False
  | _ + 1, .sent _ :: _ => False
  | responses + 1, .temporary _ :: sends => Muted responses sends
  | _ + 1, .wroteNothing :: _ => True
  | _ + 1, .failed _ :: _ => True

instance Muted.decidable : ∀ responses sends, Decidable (Muted responses sends)
  | 0, _ => inferInstanceAs (Decidable True)
  | _ + 1, [] => inferInstanceAs (Decidable False)
  | _ + 1, .sent _ :: _ => inferInstanceAs (Decidable False)
  | responses + 1, .temporary _ :: sends => Muted.decidable responses sends
  | _ + 1, .wroteNothing :: _ => inferInstanceAs (Decidable True)
  | _ + 1, .failed _ :: _ => inferInstanceAs (Decidable True)

/-- Giving up reports success, although not everything was sent. -/
theorem sendAll_of_abandoned {sends left : List SendOutcome} {stop : StopRequested} {data : Bytes}
    (gaveUp : abandoned sends stop data = some left) :
    (sendAll sends stop data).status = .ok ∧ (sendAll sends stop data).sent ≠ data ∧
      (sendAll sends stop data).sends = left ∧ (sendAll sends stop data).stop.poll.1 = true := by
  induction sends generalizing stop data with
  | nil => cases data <;> cases gaveUp
  | cons outcome sends ih =>
      cases data with
      | nil => cases gaveUp
      | cons b data =>
          cases outcome with
          | sent more =>
              obtain ⟨ok, cut, rest, requested⟩ := ih gaveUp
              refine ⟨ok, fun whole => cut ?_, rest, requested⟩
              have split := List.take_append_drop (more + 1) (b :: data)
              exact List.append_cancel_left (whole.trans split.symm)
          | wroteNothing => cases gaveUp
          | failed description => cases gaveUp
          | temporary error =>
              simp only [abandoned] at gaveUp
              simp only [sendAll]
              split at gaveUp
              · next requested =>
                  cases Option.some.inj gaveUp
                  simp [requested, StopRequested.poll_of_requested requested]
              · next waiting =>
                  simp only [if_neg waiting]
                  exact ih gaveUp

/-- Nothing is given up unless a stop is requested. -/
theorem abandoned_never (sends : List SendOutcome) (data : Bytes) :
    abandoned sends .never data = none := by
  induction sends generalizing data with
  | nil => cases data <;> rfl
  | cons outcome sends ih =>
      cases data with
      | nil => rfl
      | cons b data =>
          cases outcome with
          | sent more => exact ih _
          | temporary error => exact ih _
          | wroteNothing | failed description => rfl

/-- Without giving up, success means that everything was sent. -/
theorem sent_of_not_abandoned {sends : List SendOutcome} {stop : StopRequested} {data : Bytes}
    (keptOn : abandoned sends stop data = none)
    (ok : (sendAll sends stop data).status.isOk = true) : (sendAll sends stop data).sent = data := by
  induction sends generalizing stop data with
  | nil => cases data <;> rfl
  | cons outcome sends ih =>
      cases data with
      | nil => rfl
      | cons b data =>
          cases outcome with
          | sent more =>
              have rest := ih keptOn ok
              rw [sendAll, rest, List.take_append_drop]
              simp
          | wroteNothing => cases ok
          | failed description => cases ok
          | temporary error =>
              simp only [abandoned] at keptOn
              split at keptOn
              · cases keptOn
              · next waiting =>
                  simp only [sendAll, if_neg waiting] at ok ⊢
                  exact ih keptOn ok

/-! ## After a stop request -/

/-- With a stop requested, a response is silent exactly when it is given up or fails at
its first `send`. -/
theorem muted_succ {stop : StopRequested} (requested : stop.poll.1 = true) {data : Bytes}
    (filled : data ≠ []) (responses : Nat) (sends : List SendOutcome) :
    Muted (responses + 1) sends ↔ (sendAll sends stop data).sent = [] ∧
      ((sendAll sends stop data).status.isOk = true →
        Muted responses (sendAll sends stop data).sends) := by
  obtain ⟨b, rest, rfl⟩ := List.exists_cons_of_ne_nil filled
  cases sends with
  | nil => simp [Muted, sendAll]
  | cons outcome sends =>
      cases outcome with
      | sent more => simp [Muted, sendAll]
      | wroteNothing => simp [Muted, sendAll]
      | temporary error => simp [Muted, sendAll, requested]
      | failed description => simp [Muted, sendAll]

variable (pipeline : LinePipeline σ)

theorem response_ne_nil (session : Session σ) (rawLine : Bytes) :
    session.response pipeline rawLine ≠ [] :=
  pipeline.answers _ _

/-- With a stop requested, the lines still in the buffer are silent exactly when their
responses are muted. -/
theorem answerLines_stopped (rawLines : List Bytes) (session : Session σ)
    (requested : session.stop.poll.1 = true) :
    (answerLines pipeline rawLines session).2.stop.poll.1 = true ∧
      ∃ later, (answerLines pipeline rawLines session).2.exchanges = session.exchanges ++ later ∧
        ((∀ exchange ∈ later, exchange.sent = []) ↔ Muted rawLines.length session.sends) := by
  induction rawLines generalizing session with
  | nil => exact ⟨requested, [], by simp [answerLines], by simp [Muted]⟩
  | cons rawLine more ih =>
      have still : (session.answered pipeline rawLine).stop.poll.1 = true := by
        have same : (session.answered pipeline rawLine).stop = session.stop :=
          sendAll_stop requested _ _
        rw [same, requested]
      have first := muted_succ requested (response_ne_nil pipeline session rawLine)
        more.length session.sends
      simp only [answerLines, List.length_cons, first]
      split
      · next ok =>
          obtain ⟨last, later, exchanges, silent⟩ :=
            ih ((session.answered pipeline rawLine).erase rawLine) still
          refine ⟨last, _ :: later, exchanges.trans (List.append_assoc _ _ _), ?_⟩
          rw [List.forall_mem_cons, silent]
          constructor
          · rintro ⟨quiet, muted⟩
            exact ⟨quiet, fun _ => muted⟩
          · rintro ⟨quiet, muted⟩
            exact ⟨quiet, muted ok⟩
      · next failed =>
          refine ⟨still, _, exchanges_answered pipeline session rawLine, ?_⟩
          rw [List.forall_mem_singleton]
          constructor
          · intro quiet
            exact ⟨quiet, fun ok => absurd ok failed⟩
          · rintro ⟨quiet, _⟩
            exact quiet

/-! ## The condition -/

/-- Of the complete lines in the buffer: if a response is given up, the responses to the
lines after it are muted. -/
def LinesIntact : List Bytes → Session σ → Prop
  | [], _ => True
  | rawLine :: more, session =>
      match abandoned session.sends session.stop (session.response pipeline rawLine) with
      | some left => Muted more.length left
      | none => (session.deliver pipeline rawLine).status.isOk = true →
          LinesIntact more ((session.answered pipeline rawLine).erase rawLine)

/-- Only a chunk makes a pass of the loop send. -/
def TurnIntact (session : Session σ) : RecvOutcome → Prop
  | .received chunk now =>
      LinesIntact pipeline (completeLines (session.received chunk now).pendingInput)
        (session.received chunk now)
  | _ => True

/-- Every pass of the receive loop meets the condition. -/
def Intact (options : TcpLineServerOptions) : Session σ → List RecvOutcome → Prop
  | _, [] => True
  | session, outcome :: incoming =>
      session.stop.poll.1 = false →
        TurnIntact pipeline session.polled outcome ∧
          ((serveTurn pipeline options session.polled outcome).1 = .next →
            Intact options (serveTurn pipeline options session.polled outcome).2 incoming)

instance LinesIntact.decidable : ∀ (rawLines : List Bytes) (session : Session σ),
    Decidable (LinesIntact pipeline rawLines session)
  | [], _ => inferInstanceAs (Decidable True)
  | rawLine :: more, session =>
      match gaveUp : abandoned session.sends session.stop (session.response pipeline rawLine) with
      | some left => decidable_of_iff (Muted more.length left) (by simp only [LinesIntact, gaveUp])
      | none =>
          have := LinesIntact.decidable more ((session.answered pipeline rawLine).erase rawLine)
          decidable_of_iff ((session.deliver pipeline rawLine).status.isOk = true →
            LinesIntact pipeline more ((session.answered pipeline rawLine).erase rawLine))
            (by simp only [LinesIntact, gaveUp])

instance TurnIntact.decidable (session : Session σ) : ∀ outcome : RecvOutcome,
    Decidable (TurnIntact pipeline session outcome)
  | .received chunk now => LinesIntact.decidable pipeline _ (session.received chunk now)
  | .closed => inferInstanceAs (Decidable True)
  | .interrupted => inferInstanceAs (Decidable True)
  | .again _ => inferInstanceAs (Decidable True)
  | .failed _ => inferInstanceAs (Decidable True)

instance Intact.decidable (options : TcpLineServerOptions) :
    ∀ (session : Session σ) (incoming : List RecvOutcome),
      Decidable (Intact pipeline options session incoming)
  | _, [] => inferInstanceAs (Decidable True)
  | session, outcome :: incoming =>
      have := Intact.decidable options (serveTurn pipeline options session.polled outcome).2 incoming
      inferInstanceAs (Decidable (session.stop.poll.1 = false →
        TurnIntact pipeline session.polled outcome ∧
          ((serveTurn pipeline options session.polled outcome).1 = .next →
            Intact pipeline options (serveTurn pipeline options session.polled outcome).2 incoming)))

/-! ## Exactness -/

/-- The lines of a buffer keep whole responses ordered exactly under the condition, and
go on with cut responses only once a stop is requested. -/
theorem answerLines_ordered (rawLines : List Bytes) {session : Session σ} (whole : session.Whole) :
    ((answerLines pipeline rawLines session).2.Ordered ↔ LinesIntact pipeline rawLines session) ∧
      ((answerLines pipeline rawLines session).1.isOk = true →
        (answerLines pipeline rawLines session).2.Whole ∨
          (answerLines pipeline rawLines session).2.stop.poll.1 = true) := by
  induction rawLines generalizing session with
  | nil =>
      refine ⟨?_, fun _ => .inl whole⟩
      simp only [LinesIntact, iff_true]
      exact whole.orderly
  | cons rawLine more ih =>
      cases gaveUp : abandoned session.sends session.stop (session.response pipeline rawLine) with
      | some left =>
          obtain ⟨ok, cut, rest, requested⟩ := sendAll_of_abandoned gaveUp
          have going : (session.deliver pipeline rawLine).status.isOk = true := congrArg _ ok
          obtain ⟨last, later, exchanges, silent⟩ := answerLines_stopped pipeline more
            ((session.answered pipeline rawLine).erase rawLine) requested
          have left_eq : ((session.answered pipeline rawLine).erase rawLine).sends = left := rest
          simp only [answerLines, if_pos going, LinesIntact, gaveUp]
          refine ⟨?_, fun _ => .inr last⟩
          rw [← left_eq, ← silent]
          have shape := exchanges.trans (List.append_assoc session.exchanges _ later)
          show Orderly _ _ _ ↔ _
          rw [shape, whole.orderly_append]
          exact Deliveries.orderly_cons_of_cut cut later
      | none =>
          have uncut := sent_of_not_abandoned gaveUp
          simp only [LinesIntact, gaveUp]
          by_cases ok : (session.deliver pipeline rawLine).status.isOk = true
          · have next : ((session.answered pipeline rawLine).erase rawLine).Whole :=
              whole.snoc (uncut ok)
            simp only [answerLines, ok, forall_const]
            exact ih next
          · simp only [answerLines, if_neg ok]
            refine ⟨?_, fun succeeded => absurd succeeded ok⟩
            show Orderly _ _ (session.exchanges ++ [_]) ↔ _
            rw [whole.orderly_append]
            simp [ok, Orderly]

variable (options : TcpLineServerOptions)

theorem serveTurn_ordered {session : Session σ} (whole : session.Whole) (outcome : RecvOutcome) :
    ((serveTurn pipeline options session outcome).2.Ordered ↔
        TurnIntact pipeline session outcome) ∧
      ((serveTurn pipeline options session outcome).1 = .next ∨
          (serveTurn pipeline options session outcome).1 = .leave →
        (serveTurn pipeline options session outcome).2.Whole ∨
          (serveTurn pipeline options session outcome).2.stop.poll.1 = true) := by
  cases outcome with
  | received chunk now =>
      have received : (session.received chunk now).Whole := whole
      obtain ⟨exact, after⟩ := answerLines_ordered pipeline
        (completeLines (session.received chunk now).pendingInput) received
      simp only [serveTurn, processBufferedLines_eq, TurnIntact]
      split
      · exact ⟨exact, by simp⟩
      · next ok => exact ⟨exact, fun _ => after (by simpa using ok)⟩
  | closed => exact ⟨iff_of_true whole.orderly trivial, fun _ => .inl whole⟩
  | interrupted =>
      simp only [serveTurn]
      split <;> exact ⟨iff_of_true whole.orderly trivial, fun _ => .inl whole⟩
  | again now =>
      simp only [serveTurn]
      split
      · exact ⟨iff_of_true whole.orderly trivial, fun _ => .inl whole⟩
      · split <;> exact ⟨iff_of_true whole.orderly trivial, fun _ => .inl whole⟩
  | failed description => exact ⟨iff_of_true whole.orderly trivial, fun _ => .inl whole⟩

/-- A requested stop ends the loop before anything is received. -/
theorem serveLoop_stopped {session : Session σ} (requested : session.stop.poll.1 = true)
    (incoming : List RecvOutcome) :
    serveLoop pipeline options session incoming = (none, session.polled) := by
  cases incoming with
  | nil => rfl
  | cons outcome incoming => rw [serveLoop, if_pos requested]

theorem intact_of_stopped {session : Session σ} (requested : session.stop.poll.1 = true)
    (incoming : List RecvOutcome) : Intact pipeline options session incoming := by
  cases incoming with
  | nil => trivial
  | cons outcome incoming =>
      intro goesOn
      exact absurd (requested.symm.trans goesOn) (by decide)

theorem serveLoop_ordered (incoming : List RecvOutcome) {session : Session σ}
    (whole : session.Whole) :
    ((serveLoop pipeline options session incoming).2.Ordered ↔
        Intact pipeline options session incoming) ∧
      ((serveLoop pipeline options session incoming).1 = none →
        (serveLoop pipeline options session incoming).2.Whole ∨
          (serveLoop pipeline options session incoming).2.stop.poll.1 = true) := by
  induction incoming generalizing session with
  | nil => exact ⟨iff_of_true whole.orderly trivial, fun _ => .inl whole⟩
  | cons outcome incoming ih =>
      by_cases requested : session.stop.poll.1 = true
      · rw [serveLoop_stopped pipeline options requested]
        exact ⟨iff_of_true whole.orderly (intact_of_stopped pipeline options requested _),
          fun _ => .inl whole⟩
      · have polled : session.polled.Whole := whole
        have goesOn : session.stop.poll.1 = false := by simpa using requested
        obtain ⟨exact, after⟩ := serveTurn_ordered pipeline options polled outcome
        simp only [serveLoop, Intact, goesOn, true_implies]
        generalize serveTurn pipeline options session.polled outcome = turn at exact after ⊢
        rcases turn with ⟨_ | _ | status, next⟩
        · rw [← exact]
          rcases after (.inl rfl) with nextWhole | nextStopped
          · obtain ⟨rest, ending⟩ := ih nextWhole
            exact ⟨rest.trans ⟨fun intact => ⟨nextWhole.orderly, fun _ => intact⟩,
              fun both => both.2 rfl⟩, ending⟩
          · simp only [serveLoop_stopped pipeline options nextStopped]
            refine ⟨⟨fun ordered => ⟨ordered, fun _ =>
              intact_of_stopped pipeline options nextStopped incoming⟩, fun both => both.1⟩, ?_⟩
            intro _
            refine .inr ?_
            show next.stop.poll.2.poll.1 = true
            rw [StopRequested.poll_of_requested nextStopped, nextStopped]
        · exact ⟨by simp [exact], fun _ => after (.inr rfl)⟩
        · exact ⟨by simp [exact], fun none => by cases none⟩

/-- What follows the receive loop cannot cut a response before another one. -/
theorem serveRest_ordered {session : Session σ}
    (last : session.Whole ∨ session.stop.poll.1 = true) :
    (serveRest pipeline session).2.Ordered ↔ session.Ordered := by
  unfold serveRest
  split
  · exact Iff.rfl
  · split
    · exact Iff.rfl
    · next goesOn =>
        have whole : session.Whole := last.resolve_right goesOn
        refine iff_of_true ?_ whole.orderly
        show Orderly _ _ (session.exchanges ++ [_])
        rw [whole.orderly_append]
        simp [Orderly]

theorem serveClient_ordered (start : σ) (socket : Socket) (stop : StopRequested) :
    (serveClient pipeline options start socket stop).2.Ordered ↔
      Intact pipeline options (.opened start socket stop) socket.incoming := by
  have opened : (Session.opened start socket stop).Whole := by simp [AllWhole, Session.opened]
  obtain ⟨exact, after⟩ := serveLoop_ordered pipeline options socket.incoming opened
  rw [← exact]
  unfold serveClient serveSession
  generalize serveLoop pipeline options (.opened start socket stop) socket.incoming = result
    at after ⊢
  rcases result with ⟨_ | status, last⟩
  · exact serveRest_ordered pipeline (after rfl)
  · exact Iff.rfl

/-- An ordered session puts a prefix of the responses to its client's lines on the socket. -/
theorem output_prefix_of_ordered {start : σ} {socket : Socket} {stop : StopRequested}
    (ordered : (serveClient pipeline options start socket stop).2.Ordered) :
    (serveClient pipeline options start socket stop).2.output <+:
      (Machine.run pipeline.processLine start
        (commandLines (clientStream socket.incoming))).1.flatten := by
  have inOrder : (serveClient pipeline options start socket stop).2.output <+:
      (serveClient pipeline options start socket stop).2.responses.flatten :=
    Deliveries.flatten_prefix_of_orderly (fun exchange _ => exchange.part) ordered
  obtain ⟨rest, lines⟩ := serveClient_lines pipeline options start socket stop
  have responses := congrArg Prod.fst (serveClient_responses pipeline options start socket stop)
  refine inOrder.trans ?_
  rw [← lines, Machine.run_append, responses, List.flatten_append]
  exact List.prefix_append _ _

/-- **Integrity of the response stream.**  The bytes on the socket are a prefix of the
responses to the connection's lines, and no cut response is followed by bytes of another
one, exactly when every response that is given up is followed by muted ones only. -/
theorem response_stream_iff (start : σ) (socket : Socket) (stop : StopRequested) :
    ((serveClient pipeline options start socket stop).2.output <+:
        (Machine.run pipeline.processLine start
          (commandLines (clientStream socket.incoming))).1.flatten ∧
      (serveClient pipeline options start socket stop).2.exchanges.Pairwise fun first second =>
        first.sent = first.response ∨ second.sent = []) ↔
      Intact pipeline options (.opened start socket stop) socket.incoming := by
  rw [← serveClient_ordered]
  constructor
  · rintro ⟨_, ordered⟩
    exact ordered
  · intro ordered
    exact ⟨output_prefix_of_ordered pipeline options ordered, ordered⟩

/-- Two lines in one chunk; the first response is cut after three bytes. -/
def twoPings : Socket where
  incoming := [.received ⟨bytes "PING\nPING\n", by decide, by decide⟩ 0]
  sends := [.sent 2, .temporary .again]

/-- The stop is requested while the first response waits; the second one follows whole. -/
theorem cut_response_followed :
    (serveClient (localPipeline InMemoryStorage) {} .empty twoPings (.after 1)).2.output =
        bytes "+PO+PONG\r\n" ∧
      ¬ ((serveClient (localPipeline InMemoryStorage) {} .empty twoPings (.after 1)).2.output <+:
          (Machine.run (localPipeline InMemoryStorage).processLine .empty
            (commandLines (clientStream twoPings.incoming))).1.flatten) := by
  decide

end AsterKV.Network
