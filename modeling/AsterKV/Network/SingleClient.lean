/-
# AsterKV.Network.SingleClient -- runOnce against the first worker of run

`runOnce` tests for the accepted client where it should test for the failed one, so it
returns without serving a client it accepted, and serves descriptor -1 when accepting
failed.  It agrees with the first worker of `run` exactly when that worker has nothing
to execute (`Unheard`).
-/
import AsterKV.Network.AcceptLoop
import AsterKV.Network.Framing
import AsterKV.Storage.InMemoryStorage

namespace AsterKV.Network

open AsterKV.Core AsterKV.Pipeline AsterKV.Storage

set_option autoImplicit false

/-! ## The first client -/

/-- What the first connection comes to: a client that is ready to be served, or the
failure to accept or to configure it. -/
def firstClient : List AcceptOutcome → Option (Except Status Client)
  | [] => none
  | .interrupted :: arrivals => firstClient arrivals
  | .failed description :: _ => some (.error (acceptFailure description))
  | .accepted client :: _ =>
      if (configureClientSocket client).isOk then some (.ok client)
      else some (.error (configureClientSocket client))

/-- The result of `acceptClient` for the first connection. -/
def resultOf : Except Status Client → AcceptClientResult
  | .ok client => .accepted client.socket
  | .error status => .failed status

theorem acceptClient_never (arrivals : List AcceptOutcome) :
    match firstClient arrivals with
    | none => acceptClient .never arrivals = none
    | some first => ∃ rest, acceptClient .never arrivals = some (resultOf first, .never, rest) := by
  induction arrivals with
  | nil => rfl
  | cons outcome arrivals ih =>
      cases outcome with
      | interrupted => exact ih
      | failed description => exact ⟨arrivals, rfl⟩
      | accepted client =>
          simp only [firstClient, acceptClient, StopRequested.poll_never]
          cases (configureClientSocket client).isOk with
          | true => exact ⟨arrivals, rfl⟩
          | false => exact ⟨arrivals, rfl⟩

variable {σ : Type} (pipeline : LinePipeline σ) (options : TcpLineServerOptions)

/-! ## What an unheard client sends -/

/-- A client that makes a worker execute nothing: no line feed arrives before the
connection ends, and if it ends because the client closed it, nothing arrived at all. -/
def Unheard : TimePoint → Bool → List RecvOutcome → Prop
  | _, heard, [] => heard = false
  | _, heard, .closed :: _ => heard = false
  | _, _, .failed _ :: _ => True
  | lastActivity, heard, .interrupted :: incoming => Unheard lastActivity heard incoming
  | lastActivity, heard, .again now :: incoming =>
      isClientIdleTimedOut options now lastActivity = true ∨ Unheard lastActivity heard incoming
  | _, _, .received chunk now :: incoming => lineFeed ∉ chunk.data ∧ Unheard now true incoming

/-- Once a line was executed, some line has been. -/
theorem kept_executed :
    KeptByLines pipeline fun _ exchanges => exchanges ≠ [] := by
  intro session rawLine _
  rw [exchanges_answered]
  simp

theorem serveSession_executed {session : Session σ} (executed : session.exchanges ≠ [])
    (incoming : List RecvOutcome) :
    (serveSession pipeline options session incoming).2.exchanges ≠ [] :=
  (kept_executed pipeline).serveSession options incoming session executed

/-- A chunk without a line feed only fills the buffer. -/
theorem processBufferedLines_of_clean {session : Session σ}
    (clean : lineFeed ∉ session.pendingInput) :
    processBufferedLines pipeline session = (.ok, session) := by
  rw [processBufferedLines_eq, completeLines_of_clean clean]
  rfl

/-- A line feed in the buffer makes a line be executed. -/
theorem processBufferedLines_executed (session : Session σ)
    (present : lineFeed ∈ session.pendingInput) :
    (processBufferedLines pipeline session).2.exchanges ≠ [] := by
  obtain ⟨clean, cut⟩ := cut_at_lineFeed present
  have shape := completeLines_line clean
    (session.pendingInput.drop (session.pendingInput.idxOf lineFeed + 1))
  rw [← cut] at shape
  rw [processBufferedLines_eq, shape, answerLines]
  have first := exchanges_answered pipeline session
    (session.pendingInput.take (session.pendingInput.idxOf lineFeed))
  split
  · refine (kept_executed pipeline).answerLines _ _ ?_
    show (session.answered pipeline _).exchanges ≠ []
    rw [first]
    simp
  · rw [first]
    simp

theorem polled_of_never {session : Session σ} (never : session.stop = .never) :
    session.stop.poll.1 = false ∧ session.polled = session := by
  obtain ⟨storage, sends, stop, pendingInput, lastActivity, exchanges⟩ := session
  cases never
  exact ⟨rfl, rfl⟩

/-- Without stops, a session goes on as its next turn says. -/
theorem serveSession_cons {session : Session σ} (never : session.stop = .never)
    (outcome : RecvOutcome) (incoming : List RecvOutcome) :
    serveSession pipeline options session (outcome :: incoming) =
      match serveTurn pipeline options session outcome with
      | (.next, after) => serveSession pipeline options after incoming
      | (.leave, after) => serveRest pipeline after
      | (.finish status, after) => (status, after) := by
  obtain ⟨goesOn, same⟩ := polled_of_never never
  simp only [serveSession, serveLoop, goesOn, same]
  rcases serveTurn pipeline options session outcome with ⟨_ | _ | status, after⟩ <;> rfl

theorem serveRest_executes (session : Session σ) (never : session.stop = .never)
    (nothing : session.exchanges = []) :
    (serveRest pipeline session).2.exchanges = [] ↔ session.pendingInput.isEmpty = true := by
  obtain ⟨goesOn, same⟩ := polled_of_never never
  unfold serveRest
  split
  · next empty => simp [nothing, empty]
  · next pending =>
      have answered := exchanges_answered pipeline session session.pendingInput
      simp only [goesOn, same, pending, Bool.false_eq_true, if_false, iff_false]
      rw [processLineAndSendResponse_eq, answered]
      simp

/-- **A client is unheard exactly when serving it executes nothing.** -/
theorem serveSession_unheard (incoming : List RecvOutcome) (session : Session σ)
    (never : session.stop = .never) (nothing : session.exchanges = [])
    (clean : lineFeed ∉ session.pendingInput) :
    (serveSession pipeline options session incoming).2.exchanges = [] ↔
      Unheard options session.lastActivity (!session.pendingInput.isEmpty) incoming := by
  induction incoming generalizing session with
  | nil =>
      have rest : (serveSession pipeline options session []).2.exchanges = [] ↔
          session.pendingInput.isEmpty = true := by
        have same := (polled_of_never never).2
        rw [serveSession, serveLoop, same]
        exact serveRest_executes pipeline session never nothing
      rw [rest, Unheard, Bool.not_eq_false']
  | cons outcome incoming ih =>
      obtain ⟨goesOn, same⟩ := polled_of_never never
      rw [serveSession_cons pipeline options never]
      cases outcome with
      | received chunk now =>
          by_cases present : lineFeed ∈ chunk.data
          · have executed := processBufferedLines_executed pipeline (session.received chunk now)
              (List.mem_append_right _ present)
            simp only [serveTurn, Unheard, present, not_true_eq_false, false_and, iff_false]
            cases (processBufferedLines pipeline (session.received chunk now)).1.isOk with
            | true => exact serveSession_executed pipeline options executed incoming
            | false => exact executed
          · have cleanAll : lineFeed ∉ (session.received chunk now).pendingInput := by
              rw [Session.received, List.mem_append, not_or]
              exact ⟨clean, present⟩
            have heard : (!(session.received chunk now).pendingInput.isEmpty) = true := by
              simp [Session.received, chunk.nonempty]
            have rest := ih (session.received chunk now) never nothing cleanAll
            rw [heard] at rest
            simp only [serveTurn, processBufferedLines_of_clean pipeline cleanAll, Unheard, present,
              not_false_eq_true, true_and]
            exact rest
      | closed =>
          rw [Unheard, Bool.not_eq_false']
          exact serveRest_executes pipeline session never nothing
      | interrupted =>
          simp only [serveTurn, goesOn, same, Unheard]
          exact ih session never nothing clean
      | again now =>
          simp only [serveTurn, goesOn, same, Unheard]
          cases isClientIdleTimedOut options now session.lastActivity with
          | true => simp [nothing]
          | false =>
              simp only [Bool.false_eq_true, if_false, false_or]
              exact ih session never nothing clean
      | failed description => simp [serveTurn, Unheard, nothing]

/-! ## The first worker of run -/

/-- What the threads of the started workers did. -/
def Server.sessions (server : Server σ) : List (Session σ) := server.workers.map (·.session)

theorem Server.sessions_joinClientWorkers (server : Server σ) :
    server.joinClientWorkers.sessions = server.sessions := by
  simp [Server.sessions, Server.joinClientWorkers, Function.comp_def]

theorem Server.sessions_joinFinishedClientWorkers (server : Server σ) :
    server.joinFinishedClientWorkers.sessions = server.sessions := by
  simp only [Server.sessions, Server.joinFinishedClientWorkers, List.map_map]
  refine List.map_congr_left fun worker _ => ?_
  show (if worker.finished then { worker with joined := true } else worker).session = worker.session
  split <;> rfl

theorem Server.sessions_finish (server : Server σ) (index : Nat) :
    (server.finish index).sessions = server.sessions := by
  unfold Server.finish
  split
  · rfl
  · next worker found =>
      split
      · rfl
      · obtain ⟨inside, rfl⟩ := List.getElem?_eq_some_iff.1 found
        simp only [Server.sessions, List.map_set]
        refine List.ext_getElem? fun i => ?_
        rw [List.getElem?_set]
        split
        · next same =>
            subst same
            simp [inside]
        · rfl

theorem Server.sessions_waited (server : Server σ) (stop : StopRequested) (finishing : List Nat) :
    (server.waited stop finishing).sessions = server.sessions := by
  have all : ∀ other : Server σ, (finishing.foldl Server.finish other).sessions = other.sessions := by
    induction finishing with
    | nil => exact fun _ => rfl
    | cons index indices ih =>
        intro other
        rw [List.foldl_cons, ih, Server.sessions_finish]
  exact all _

theorem Server.sessions_takeIn (server : Server σ) (clientFd : Socket) :
    server.sessions <+: (server.takeIn pipeline options clientFd).sessions := by
  unfold Server.takeIn
  split
  · exact List.prefix_refl _
  · simp [Server.startWorker, Server.sessions]

/-- The accept loop only adds workers. -/
theorem sessions_acceptLoop (passes : Nat) (server : Server σ) (arrivals : List AcceptOutcome)
    (finishing : List (List Nat)) :
    server.sessions <+: (acceptLoop pipeline options passes server arrivals finishing).2.sessions := by
  induction passes generalizing server arrivals finishing with
  | zero => exact List.prefix_refl _
  | succ passes ih =>
      have polled : server.polled.sessions = server.sessions := rfl
      have reaped := Server.sessions_joinFinishedClientWorkers server.polled
      unfold acceptLoop
      split
      · rw [Server.sessions_joinClientWorkers, polled]
      · simp only
        split
        · rw [reaped, polled]
        · next clientResult stop rest _ =>
            have waited := Server.sessions_waited server.polled.joinFinishedClientWorkers stop
              (finishing.headD [])
            rw [reaped, polled] at waited
            cases clientResult.type with
            | stopped =>
                simp only
                rw [Server.sessions_joinClientWorkers, waited]
            | failed =>
                simp only
                rw [Server.sessions_joinClientWorkers, waited]
            | accepted =>
                rw [← waited]
                exact (Server.sessions_takeIn pipeline options _ clientResult.clientFd).trans
                  (ih _ _ _)

/-- While no worker was started, none finishes. -/
theorem Server.waited_initial (storage : σ) (finishing : List Nat) :
    (Server.initial storage .never).waited .never finishing = .initial storage .never := by
  unfold Server.waited
  induction finishing with
  | nil => rfl
  | cons index indices ih => exact ih

theorem hasWorkerCapacity_initial (valid : (validateOptions options).isOk = true) (storage : σ)
    (stop : StopRequested) : (Server.initial storage stop).hasWorkerCapacity options = true := by
  have some : options.maxClientWorkers ≠ 0 := by
    intro zero
    simp [validateOptions, zero] at valid
  have positive : 0 < options.maxClientWorkers.toNat :=
    Nat.pos_of_ne_zero fun zero => some (UInt64.toNat_inj.1 zero)
  exact decide_eq_true positive

/-- The first worker that `run` starts serves the first client, from the storage at the
start. -/
theorem run_firstWorker (listening : ListenOutcomes) (storage : σ) (arrivals : List AcceptOutcome)
    (finishing : List (List Nat)) {client : Client}
    (valid : (validateOptions options).isOk = true)
    (created : createListeningSocket listening = .success ())
    (first : firstClient arrivals = some (.ok client)) :
    (run pipeline options listening storage .never arrivals finishing).2.sessions.head? =
      some (serveClient pipeline options storage client.socket .never).2 := by
  have accepted := acceptClient_never arrivals
  rw [first] at accepted
  obtain ⟨rest, accepted⟩ := accepted
  have reaped : (Server.initial storage .never).polled.joinFinishedClientWorkers =
      .initial storage .never := rfl
  have admitted : (Server.initial storage .never).takeIn pipeline options client.socket =
      (Server.initial storage .never).startWorker pipeline options client.socket := by
    rw [Server.takeIn, hasWorkerCapacity_initial options valid]
    rfl
  have loop : (run pipeline options listening storage .never arrivals finishing).2 =
      (acceptLoop pipeline options arrivals.length
        ((Server.initial storage .never).startWorker pipeline options client.socket) rest
        finishing.tail).2 := by
    have goesOn : (Server.initial storage .never).stop.poll.1 = false := rfl
    have asked : acceptClient (Server.initial storage .never).stop arrivals = _ := accepted
    simp only [run, valid, created, acceptLoop, goesOn, reaped, asked]
    simp only [resultOf, AcceptClientResult.accepted, Server.waited_initial, admitted]
    rfl
  have started := sessions_acceptLoop pipeline options arrivals.length
    ((Server.initial storage .never).startWorker pipeline options client.socket) rest finishing.tail
  rw [← loop] at started
  obtain ⟨more, shape⟩ := started
  rw [← shape]
  rfl

/-! ## Agreement -/

/-- `runOnce` does for the first client what its worker under `run` does, and reports a
failure to accept or to configure it. -/
structure Agreement (listening : ListenOutcomes) (storage : σ) (arrivals : List AcceptOutcome)
    (finishing : List (List Nat)) : Prop where
  served : ∀ client, firstClient arrivals = some (.ok client) →
    ∃ worker, (run pipeline options listening storage .never arrivals finishing).2.sessions.head? =
        some worker ∧
      (runOnce pipeline options listening storage arrivals).lines = worker.lines ∧
      (runOnce pipeline options listening storage arrivals).output = worker.output
  reported : ∀ status, firstClient arrivals = some (.error status) →
    (runOnce pipeline options listening storage arrivals).returned = some status ∧
      (runOnce pipeline options listening storage arrivals).lines = [] ∧
      (runOnce pipeline options listening storage arrivals).output = []

section

variable {listening : ListenOutcomes} {arrivals : List AcceptOutcome}

theorem runOnce_eq (storage : σ) (arrivals : List AcceptOutcome)
    (valid : (validateOptions options).isOk = true)
    (created : createListeningSocket listening = .success ()) :
    runOnce pipeline options listening storage arrivals =
      acceptAndServeOneClient pipeline options storage .never arrivals := by
  simp only [runOnce, valid, created]
  rfl

/-- A client that was accepted is not served. -/
theorem acceptAndServeOneClient_accepted (storage : σ) {client : Client}
    (first : firstClient arrivals = some (.ok client)) :
    acceptAndServeOneClient pipeline options storage .never arrivals = .refused storage .ok := by
  have accepted := acceptClient_never arrivals
  rw [first] at accepted
  obtain ⟨rest, accepted⟩ := accepted
  rw [acceptAndServeOneClient, accepted]
  rfl

/-- After a failure the invalid descriptor is read from. -/
theorem acceptAndServeOneClient_failed (storage : σ) {status : Status}
    (first : firstClient arrivals = some (.error status)) :
    (acceptAndServeOneClient pipeline options storage .never arrivals).returned =
      some (systemUnavailableError (bytes "failed to read client connection")
        (bytes "Bad file descriptor")) := by
  have failed := acceptClient_never arrivals
  rw [first] at failed
  obtain ⟨rest, failed⟩ := failed
  rw [acceptAndServeOneClient, failed]
  rfl

/-- Statuses that start with different contexts differ. -/
theorem systemUnavailableError_ne {context other : Bytes} (description text : Bytes)
    (long : 16 ≤ context.length) (otherLong : 16 ≤ other.length)
    (differ : context.take 16 ≠ other.take 16) :
    systemUnavailableError context description ≠ systemUnavailableError other text := by
  intro same
  have messages := congrArg (fun status : Status => status.message.take 16) same
  simp only [systemUnavailableError, Status.unavailable, List.append_assoc,
    List.take_append_of_le_length long, List.take_append_of_le_length otherLong] at messages
  exact differ messages

/-- The failures of accepting and configuring are not those of reading. -/
theorem firstClient_error_ne {status : Status} (first : firstClient arrivals = some (.error status))
    (text : Bytes) :
    status ≠ systemUnavailableError (bytes "failed to read client connection") text := by
  induction arrivals with
  | nil => cases first
  | cons outcome arrivals ih =>
      cases outcome with
      | interrupted => exact ih first
      | failed description =>
          cases first
          exact systemUnavailableError_ne description text (by decide) (by decide) (by decide)
      | accepted client =>
          simp only [firstClient] at first
          split at first
          · cases first
          · next failed =>
              cases first
              revert failed
              unfold configureClientSocket
              split
              · intro _
                exact systemUnavailableError_ne _ text (by decide) (by decide) (by decide)
              · split
                · intro _
                  exact systemUnavailableError_ne _ text (by decide) (by decide) (by decide)
                · exact fun failed => absurd rfl failed

/-- **runOnce agrees with the first worker of run exactly when no client has come yet, or
the first one is accepted, configured and never makes a line be executed.** -/
theorem runOnce_agrees_iff (valid : (validateOptions options).isOk = true)
    (created : createListeningSocket listening = .success ()) (storage : σ)
    (arrivals : List AcceptOutcome) (finishing : List (List Nat)) :
    Agreement pipeline options listening storage arrivals finishing ↔
      ∀ first, firstClient arrivals = some first → ∃ client, first = .ok client ∧
        Unheard options client.socket.openedAt false client.socket.incoming := by
  have once := runOnce_eq pipeline options storage arrivals valid created
  have heard : ∀ client : Client,
      (serveClient pipeline options storage client.socket .never).2.exchanges = [] ↔
        Unheard options client.socket.openedAt false client.socket.incoming := fun client =>
    serveSession_unheard pipeline options client.socket.incoming
      (.opened storage client.socket .never) rfl rfl (by simp [Session.opened])
  constructor
  · intro agreement first shape
    cases first with
    | error status =>
        have reported := (agreement.reported status shape).1
        rw [once, acceptAndServeOneClient_failed pipeline options storage shape] at reported
        exact absurd (Option.some.inj reported).symm (firstClient_error_ne shape _)
    | ok client =>
        obtain ⟨worker, started, lines, _⟩ := agreement.served client shape
        rw [run_firstWorker pipeline options listening storage arrivals finishing valid created
          shape] at started
        rw [once, acceptAndServeOneClient_accepted pipeline options storage shape,
          ← Option.some.inj started] at lines
        refine ⟨client, rfl, (heard client).1 ?_⟩
        exact List.map_eq_nil_iff.1 lines.symm
  · intro unheard
    refine ⟨fun client shape => ?_, fun status shape => ?_⟩
    · obtain ⟨same, is, quiet⟩ := unheard _ shape
      cases Except.ok.inj is
      have nothing := (heard client).2 quiet
      refine ⟨_, run_firstWorker pipeline options listening storage arrivals finishing valid created
        shape, ?_, ?_⟩
      · rw [once, acceptAndServeOneClient_accepted pipeline options storage shape, Session.lines,
          nothing]
        rfl
      · rw [once, acceptAndServeOneClient_accepted pipeline options storage shape, Session.output,
          nothing]
        rfl
    · obtain ⟨client, is, _⟩ := unheard _ shape
      cases is

/-- A client that closes its connection at once. -/
theorem runOnce_agrees_silent :
    Agreement (localPipeline InMemoryStorage) {} {} .empty
      [.interrupted, .accepted { socket := { incoming := [.closed] } }] [] := by
  refine (runOnce_agrees_iff (localPipeline InMemoryStorage) {} rfl rfl .empty _ []).2 ?_
  intro first shape
  cases shape
  exact ⟨_, rfl, rfl⟩

end

/-- A client that sends one command and closes its side. -/
def pingClient : Client where
  socket := { incoming := [.received ⟨bytes "PING\n", by decide, by decide⟩ 0] }

/-- The worker answers the command; `runOnce` drops the client. -/
theorem runOnce_drops_client :
    ¬ Agreement (localPipeline InMemoryStorage) {} {} .empty [.accepted pingClient] [] := by
  intro agreement
  obtain ⟨worker, started, lines, _⟩ := agreement.served pingClient rfl
  have answered : (run (localPipeline InMemoryStorage) {} {} .empty .never [.accepted pingClient]
      []).2.sessions.map Session.lines = [[bytes "PING"]] := by decide
  have dropped : (runOnce (localPipeline InMemoryStorage) {} {} .empty [.accepted pingClient]).lines =
      [] := by decide
  have head := congrArg List.head? answered
  rw [List.head?_map, started] at head
  have same : worker.lines = [bytes "PING"] := Option.some.inj head
  exact absurd (dropped.symm.trans (lines.trans same)) (by decide)

end AsterKV.Network
