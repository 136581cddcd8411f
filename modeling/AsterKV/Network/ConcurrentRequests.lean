/-
# AsterKV.Network.ConcurrentRequests -- many clients, one request each

A worker whose client nothing disturbs has, when its `serveClient` returns, executed the
whole stream and sent every response, as long as no stop was requested; the other workers
may run in between as they like (`Serving.Flows`).  A client that sends one command then
reads the answer which that command has in the one order in which the workers executed the
lines of all clients (`concurrent_request`).
-/
import AsterKV.Network.RequestResponse
import AsterKV.Network.WorkerResponses

namespace AsterKV.Network

open AsterKV.Core AsterKV.Pipeline AsterKV.Storage
open Theory

set_option autoImplicit false

variable {σ : Type} {pipeline : LinePipeline σ} {options : TcpLineServerOptions}

/-! ## While no stop is requested -/

theorem StopRequested.goesOn_of_poll {stop : StopRequested} (later : stop.poll.2.poll.1 = false) :
    stop.poll.1 = false := by
  cases requested : stop.poll.1 with
  | false => rfl
  | true =>
      rw [poll_of_requested requested, requested] at later
      cases later

/-- Nothing stood in the way of a response, and no `send` will. -/
structure Session.Unhindered (session : Session σ) : Prop where
  sending : Sending session.sends
  whole : session.Whole

theorem Session.Unhindered.answered {session : Session σ} (unhindered : session.Unhindered)
    {rawLine : Bytes} (running : (session.answered pipeline rawLine).stop.poll.1 = false) :
    (session.deliver pipeline rawLine).status = .ok ∧
      (session.answered pipeline rawLine).Unhindered := by
  obtain ⟨ok, sent, sending⟩ := sendAll_running unhindered.sending _ running
  exact ⟨ok, sending, unhindered.whole.snoc sent⟩

/-! ## A thread among others -/

/-- What a thread that serves an undisturbed client has received, executed and buffered. -/
def Serving.Progresses (options : TcpLineServerOptions) (stream : Bytes) (serving : Serving σ) :
    Prop :=
  match serving.point with
  | .loopTest | .receiving => ∃ received, Framed received serving.session ∧
      received ++ clientStream serving.incoming = stream ∧
      Receiving options serving.session.lastActivity serving.incoming
  | .answering => ∃ received, Cut received serving.session ∧
      received ++ clientStream serving.incoming = stream ∧
      Receiving options serving.session.lastActivity serving.incoming
  | .rest => Framed stream serving.session
  | .returned status => status = .ok ∧ serving.session.lines = commandLines stream

structure Serving.Flows (options : TcpLineServerOptions) (stream : Bytes) (serving : Serving σ) :
    Prop where
  unhindered : serving.session.Unhindered
  progresses : serving.Progresses options stream

theorem flows_opened {socket : Socket} (undisturbed : Undisturbed options socket) (storage : σ)
    (stop : StopRequested) :
    (Serving.opened storage socket stop).Flows options (clientStream socket.incoming) where
  unhindered := ⟨undisturbed.sending, fun _ member => by cases member⟩
  progresses := ⟨[], framed_opened storage socket stop, List.nil_append _, undisturbed.receiving⟩

namespace Serving.Flows

variable {stream : Bytes} {serving : Serving σ}

/-- What the others do to storage and callback does not matter. -/
theorem resumed (known : serving.Flows options stream) (storage : σ) (stop : StopRequested) :
    (serving.resumed storage stop).Flows options stream := by
  obtain ⟨point, session, incoming⟩ := serving
  obtain ⟨⟨sending, whole⟩, progresses⟩ := known
  refine ⟨⟨sending, whole⟩, ?_⟩
  cases point with
  | loopTest =>
      obtain ⟨received, framed, rest⟩ := progresses
      exact ⟨received, ⟨framed.pending, framed.executed⟩, rest⟩
  | receiving =>
      obtain ⟨received, framed, rest⟩ := progresses
      exact ⟨received, ⟨framed.pending, framed.executed⟩, rest⟩
  | answering =>
      obtain ⟨received, cut, rest⟩ := progresses
      exact ⟨received, cut, rest⟩
  | rest =>
      have framed : Framed stream session := progresses
      exact ⟨framed.pending, framed.executed⟩
  | returned status => exact progresses

theorem receiveStep {received : Bytes} {session : Session σ} {incoming : List RecvOutcome}
    (unhindered : session.Unhindered) (framed : Framed received session)
    (whole : received ++ clientStream incoming = stream)
    (receiving : Receiving options session.lastActivity incoming)
    (running : (receiveStep pipeline options session incoming).session.stop.poll.1 = false) :
    (receiveStep pipeline options session incoming).Flows options stream := by
  cases incoming with
  | nil =>
      have all : received = stream := (List.append_nil _).symm.trans whole
      exact ⟨unhindered, all ▸ framed⟩
  | cons outcome incoming =>
      cases outcome with
      | received chunk now =>
          refine ⟨⟨unhindered.sending, unhindered.whole⟩, received ++ chunk.data,
            framed.cut.received chunk now, ?_, receiving⟩
          rw [← whole]
          exact List.append_assoc _ _ _
      | closed =>
          have all : received = stream := (List.append_nil _).symm.trans whole
          exact ⟨unhindered, all ▸ framed⟩
      | interrupted =>
          cases goesOn : session.stop.poll.1 with
          | true =>
              simp only [Network.receiveStep, serveTurn, goesOn, if_true] at running
              rw [StopRequested.goesOn_of_poll running] at goesOn
              cases goesOn
          | false =>
              simp only [Network.receiveStep, serveTurn, goesOn, Bool.false_eq_true, if_false]
              exact ⟨⟨unhindered.sending, unhindered.whole⟩, received, framed.polled, whole, receiving⟩
      | again now =>
          obtain ⟨inTime, receiving⟩ := receiving
          cases goesOn : session.stop.poll.1 with
          | true =>
              simp only [Network.receiveStep, serveTurn, goesOn, if_true] at running
              rw [StopRequested.goesOn_of_poll running] at goesOn
              cases goesOn
          | false =>
              simp only [Network.receiveStep, serveTurn, goesOn, inTime, Bool.false_eq_true,
                if_false]
              exact ⟨⟨unhindered.sending, unhindered.whole⟩, received, framed.polled, whole, receiving⟩
      | failed description => exact receiving.elim

theorem answerStep {received : Bytes} {session : Session σ} {incoming : List RecvOutcome}
    (unhindered : session.Unhindered) (cut : Cut received session)
    (whole : received ++ clientStream incoming = stream)
    (receiving : Receiving options session.lastActivity incoming)
    (running : (answerStep pipeline session incoming).session.stop.poll.1 = false) :
    (answerStep pipeline session incoming).Flows options stream := by
  by_cases present : lineFeed ∈ session.pendingInput
  · rw [answerStep_line pipeline present] at running ⊢
    have still : (session.answered pipeline session.nextLine).stop.poll.1 = false := by
      split at running <;> exact running
    obtain ⟨ok, next⟩ := unhindered.answered still
    rw [if_pos (by rw [ok]; rfl)]
    exact ⟨⟨next.sending, next.whole⟩, received, cut.answered pipeline present, whole, receiving⟩
  · rw [Network.answerStep, if_neg present]
    exact ⟨unhindered, received, cut.framed present, whole, receiving⟩

theorem serveRest {session : Session σ} (unhindered : session.Unhindered)
    (framed : Framed stream session)
    (running : (serveRest pipeline session).2.stop.poll.1 = false) :
    (serveRest pipeline session).1 = .ok ∧ (serveRest pipeline session).2.Unhindered ∧
      (serveRest pipeline session).2.lines = commandLines stream := by
  unfold Network.serveRest at running ⊢
  by_cases empty : session.pendingInput = []
  · have all : Lines.body lineFeed stream = stream := by
      have whole := Lines.body_append_tail lineFeed stream
      rwa [← framed.pending, empty, List.append_nil] at whole
    rw [if_pos (by simp [empty])]
    exact ⟨rfl, unhindered, by rw [framed.executed, all]⟩
  · rw [if_neg (by simpa using empty)] at running ⊢
    cases goesOn : session.stop.poll.1 with
    | true =>
        simp only [goesOn, if_true] at running
        rw [StopRequested.goesOn_of_poll running] at goesOn
        cases goesOn
    | false =>
        simp only [goesOn, Bool.false_eq_true, if_false, processLineAndSendResponse_eq] at running ⊢
        have polled : session.polled.Unhindered := ⟨unhindered.sending, unhindered.whole⟩
        obtain ⟨ok, next⟩ := polled.answered running
        refine ⟨ok, next, ?_⟩
        rw [framed.commandLines_eq empty]
        exact lines_answered pipeline session.polled session.pendingInput

/-- **A step keeps a thread flowing**, as long as no stop is requested. -/
theorem serveStep (known : serving.Flows options stream)
    (running : (serveStep pipeline options serving).session.stop.poll.1 = false) :
    (serveStep pipeline options serving).Flows options stream := by
  obtain ⟨point, session, incoming⟩ := serving
  obtain ⟨unhindered, progresses⟩ := known
  cases point with
  | loopTest =>
      obtain ⟨received, framed, rest⟩ := progresses
      simp only [Network.serveStep] at running ⊢
      cases goesOn : session.stop.poll.1 with
      | true =>
          simp only [goesOn, if_true] at running
          rw [StopRequested.goesOn_of_poll running] at goesOn
          cases goesOn
      | false =>
          simp only [Bool.false_eq_true, if_false]
          exact ⟨⟨unhindered.sending, unhindered.whole⟩, received, framed.polled, rest⟩
  | receiving =>
      obtain ⟨received, framed, whole, receiving⟩ := progresses
      exact Flows.receiveStep unhindered framed whole receiving running
  | answering =>
      obtain ⟨received, cut, whole, receiving⟩ := progresses
      exact Flows.answerStep unhindered cut whole receiving running
  | rest =>
      obtain ⟨ok, next, lines⟩ := Flows.serveRest unhindered progresses running
      exact ⟨next, ok, lines⟩
  | returned status => exact ⟨unhindered, progresses⟩

end Serving.Flows

/-! ## Every interleaving -/

namespace Workers

/-- A stop request lasts. -/
theorem Effect.lasts {before after : Workers σ} {next : WorkerTurn}
    (effect : Effect pipeline options before next after)
    (requested : before.stop.poll.1 = true) : after.stop.poll.1 = true := by
  cases effect with
  | move main stop refusals quiet leaves lasts => exact lasts requested
  | serve index worker serving thread point served =>
      have same : serving.session.stop = before.stop := by
        rw [served]
        exact serveStep_stop pipeline options requested
      show serving.session.stop.poll.1 = true
      rw [same]
      exact requested
  | _ => exact requested

/-- A turn adds a client, or none. -/
theorem Effect.accepted {before after : Workers σ} {next : WorkerTurn}
    (effect : Effect pipeline options before next after) : before.accepted <+: after.accepted := by
  cases effect with
  | accept client main configured => exact List.prefix_append _ _
  | _ => exact List.prefix_refl _

/-- As long as no stop is requested, the threads of undisturbed clients flow. -/
def Flowing (options : TcpLineServerOptions) (system : Workers σ) : Prop :=
  system.stop.poll.1 = false → ∀ (index : Nat) (worker : ClientWorker σ),
    system.threads[index]? = some worker →
    ∀ socket, system.accepted[worker.client]? = some socket → Undisturbed options socket →
      worker.serving.Flows options (clientStream socket.incoming)

theorem Flowing.effect {start : σ} {before after : Workers σ} {next : WorkerTurn}
    (effect : Effect pipeline options before next after)
    (sound : before.Sound pipeline options start) (known : before.Flowing options) :
    after.Flowing options := by
  intro running place entry found socket accepted undisturbed
  have before_running : before.stop.poll.1 = false := by
    rw [Bool.eq_false_iff]
    intro requested
    rw [effect.lasts requested] at running
    cases running
  have known := known before_running
  -- a client's socket is the one it was accepted with
  have socket_of : ∀ {client : Nat} {old : Socket}, before.accepted[client]? = some old →
      after.accepted[client]? = some socket → old = socket := by
    intro client old was now
    obtain ⟨more, same⟩ := effect.accepted
    obtain ⟨inside, -⟩ := List.getElem?_eq_some_iff.1 was
    rw [← same, List.getElem?_append_left inside, was] at now
    exact Option.some.inj now
  cases effect.origin sound.handled found with
  | kept worker thread client serving others executed elsewhere =>
      obtain ⟨old, serves⟩ := sound.recorded.serves place worker thread
      rw [client] at accepted
      obtain rfl := socket_of serves.accepted accepted
      rw [serving]
      exact known place worker thread _ serves.accepted undisturbed
  | spawned fresh held serving executed =>
      obtain rfl := socket_of (sound.recorded.held _ _ held) accepted
      rw [serving]
      exact flows_opened undisturbed _ _
  | served worker thread client serving executed stop =>
      obtain ⟨old, serves⟩ := sound.recorded.serves place worker thread
      rw [client] at accepted
      obtain rfl := socket_of serves.accepted accepted
      rw [stop, serving] at running
      rw [serving]
      have flows := known place worker thread _ serves.accepted undisturbed
      exact (flows.resumed before.storage before.stop).serveStep running

variable (pipeline options)

/-- Clients are only added. -/
theorem after_accepted (system : Workers σ) (schedule : List WorkerTurn) :
    system.accepted <+: (system.after pipeline options schedule).accepted :=
  @after_invariant σ pipeline options (fun later => system.accepted <+: later.accepted)
    (fun effect known => known.trans effect.accepted) system (List.prefix_refl _) schedule

theorem after_flowing (start : σ) (stop : StopRequested) (schedule : List WorkerTurn) :
    ((initial start stop).after pipeline options schedule).Flowing options :=
  after_invariant_of_sound Flowing.effect (fun _ _ _ found => by cases found) schedule

end Workers

/-! ## Requests -/

/-- A healthy client takes what it reads for the response. -/
theorem TcpClient.sendCommandLine_answered {clientOptions : TcpLineClientOptions}
    (validOptions : (validateOptions clientOptions).isOk = true) {commandLine : Bytes}
    (accepted : (validateCommandLine commandLine).isOk = true) {client : ClientSocket}
    (healthy : Healthy client) (filled : clientStream client.incoming ≠ []) :
    (sendCommandLine clientOptions client commandLine).1 =
      if (clientStream client.incoming).length ≤ clientOptions.maxResponseBytes.toNat then
        .success (clientStream client.incoming)
      else .failure responseTooLargeStatus := by
  have finished : finishResponse (clientStream client.incoming) =
      .success (clientStream client.incoming) := if_neg (by simpa using filled)
  rw [sendCommandLine_healthy validOptions accepted healthy, finished]

theorem render_ne_nil (answer : MapMachine.Answer) : answer.render ≠ [] := by
  cases answer with
  | present found => cases found <;> simp [MapMachine.Answer.render, bytes]
  | _ => simp [MapMachine.Answer.render, bytes]

/-- What a flowing thread has sent. -/
theorem Serving.Flows.output {stream : Bytes} {serving : Serving σ}
    (flows : serving.Flows options stream) :
    serving.session.output = (serving.session.answers.map Prod.snd).flatten := by
  rw [Session.output, Session.answers, List.map_map]
  exact congrArg List.flatten (List.map_congr_left flows.unhindered.whole)

/-- A worker that has returned has executed what its undisturbed client sent, and has sent
what the map answers to it at its place among the lines of all clients. -/
theorem Workers.told_returned {start : InMemoryStorage} {stop : StopRequested}
    {schedule : List WorkerTurn} {system : Workers InMemoryStorage}
    (reached : system =
      (Workers.initial start stop).after (localPipeline InMemoryStorage) options schedule)
    (running : system.stop.poll.1 = false) {worker : ClientWorker InMemoryStorage}
    (thread : worker ∈ system.threads) {status : Status}
    (returned : worker.serving.point = .returned status) {connection : Socket}
    (connected : system.accepted[worker.client]? = some connection)
    (undisturbed : Undisturbed options connection) :
    (Machine.told MapMachine.step worker.client start.values system.executed).map Prod.fst =
        commandLines (clientStream connection.incoming) ∧
      worker.serving.session.output =
        ((Machine.told MapMachine.step worker.client start.values system.executed).map
          fun told => told.2.render).flatten := by
  obtain ⟨index, found⟩ := List.mem_iff_getElem?.1 thread
  have flows : worker.serving.Flows options (clientStream connection.incoming) := by
    have known := Workers.after_flowing (localPipeline InMemoryStorage) options start stop schedule
    rw [← reached] at known
    exact known running index worker found connection connected undisturbed
  have answered := Workers.after_answered (localPipeline InMemoryStorage) options start stop schedule
  rw [← reached] at answered
  have told := (answered index worker found).trans
    (Workers.told_localPipeline worker.client start system.executed).1
  have lines : worker.serving.session.lines = commandLines (clientStream connection.incoming) := by
    have progresses := flows.progresses
    rw [Serving.Progresses, returned] at progresses
    exact progresses.2
  constructor
  · have same := congrArg (List.map Prod.fst) told
    rw [List.map_map] at same
    rw [← lines, Session.lines]
    refine same.symm.trans ?_
    rw [Session.answers, List.map_map]
    rfl
  · rw [flows.output, told, List.map_map]
    rfl

open TcpClient (sendCommandLine validateCommandLine responseTooLargeStatus)

/-- **A request among others.**  In every interleaving of `run` with its workers: when a
worker has returned, no stop is requested, and both ends of its connection carry the bytes
of the other, a client that sent one command reads the answer that the map gives to it,
executed once at its place among the lines of all clients. -/
theorem concurrent_request {start : InMemoryStorage} {stop : StopRequested}
    {schedule : List WorkerTurn} {system : Workers InMemoryStorage}
    (reached : system =
      (Workers.initial start stop).after (localPipeline InMemoryStorage) options schedule)
    (running : system.stop.poll.1 = false) {worker : ClientWorker InMemoryStorage}
    (thread : worker ∈ system.threads) {status : Status}
    (returned : worker.serving.point = .returned status) {connection : Socket}
    (connected : system.accepted[worker.client]? = some connection)
    (undisturbed : Undisturbed options connection) {clientOptions : TcpLineClientOptions}
    (validOptions : (TcpClient.validateOptions clientOptions).isOk = true) {commandLine : Bytes}
    (accepted : (validateCommandLine commandLine).isOk = true) {client : ClientSocket}
    (healthy : TcpClient.Healthy client)
    (request : clientStream connection.incoming =
      (sendCommandLine clientOptions client commandLine).2)
    (response : clientStream client.incoming = worker.serving.session.output) :
    ∃ answer,
      Machine.told MapMachine.step worker.client start.values system.executed =
        [(commandLine, answer)] ∧
      (sendCommandLine clientOptions client commandLine).1 =
        if answer.render.length ≤ clientOptions.maxResponseBytes.toNat then .success answer.render
        else .failure responseTooLargeStatus := by
  obtain ⟨sent, output⟩ :=
    Workers.told_returned reached running thread returned connected undisturbed
  rw [request, TcpClient.sendCommandLine_healthy validOptions accepted healthy,
    commandLines_request accepted] at sent
  obtain ⟨⟨line, answer⟩, one, rfl⟩ := List.map_eq_singleton_iff.1 sent
  have whole : clientStream client.incoming = answer.render := by
    rw [response, output, one]
    simp
  refine ⟨answer, one, ?_⟩
  rw [← whole]
  refine TcpClient.sendCommandLine_answered validOptions accepted healthy ?_
  rw [whole]
  exact render_ne_nil answer

/-- Two clients, a set and a get. -/
def setRequest : Client where
  socket := { incoming := [.received ⟨bytes "SE", by decide, by decide⟩ 0,
    .received ⟨bytes "T k v\n", by decide, by decide⟩ 1] }

def getRequest : Client where
  socket := { incoming := [.received ⟨bytes "GET k\n", by decide, by decide⟩ 0], sends := [.sent 2] }

/-- Both are taken in; the get is received first and executed after the set. -/
def setOvertakes : List WorkerTurn :=
  [.main, .main, .main, .accept (.accepted setRequest), .main, .main, .main,
    .main, .main, .main, .main, .accept (.accepted getRequest), .main, .main, .main,
    .worker 1, .worker 1, .worker 0, .worker 0, .worker 0, .worker 0, .worker 0, .worker 0,
    .worker 1, .worker 1, .worker 1, .worker 1, .worker 1]

def afterBoth : Workers InMemoryStorage :=
  (Workers.initial .empty .never).after (localPipeline InMemoryStorage) {} setOvertakes

def getWorker : ClientWorker InMemoryStorage := afterBoth.threads[1]?.get (by decide)

theorem concurrent_request_get :
    (sendCommandLine {} { incoming := [.received ⟨bytes "$1\r\nv\r\n", by decide, by decide⟩ 0] }
      (bytes "GET k")).1 = .success (bytes "$1\r\nv\r\n") := by
  have thread : afterBoth.threads[1]? = some getWorker := (Option.some_get _).symm
  obtain ⟨answer, told, read⟩ := @concurrent_request {} .empty .never setOvertakes afterBoth rfl
    (by decide) getWorker (List.mem_of_getElem? thread) .ok (by decide) getRequest.socket (by rfl)
    ⟨by decide, by decide⟩ {} (by decide) (bytes "GET k") (by decide)
    { incoming := [.received ⟨bytes "$1\r\nv\r\n", by decide, by decide⟩ 0] }
    ⟨by decide, by decide, by decide, by decide⟩ (by decide) (by decide)
  rw [read]
  have same : Machine.told MapMachine.step 1 ∅ afterBoth.executed =
      [(bytes "GET k", .stored (bytes "v"))] := by decide
  rw [(Prod.mk.inj (List.head_eq_of_cons_eq (told.symm.trans same))).2]
  decide

end AsterKV.Network
