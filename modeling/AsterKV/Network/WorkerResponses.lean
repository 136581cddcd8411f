/-
# AsterKV.Network.WorkerResponses -- what the workers answer

The workers execute the lines of all clients in one order.  What a client is answered
is its part of one run of the pipeline over this order, whatever the interleaving
(`Answered`); over the in-memory storage it is that of a finite map
(`workers_refine_map`).
-/
import AsterKV.Network.WorkerLimit
import AsterKV.Pipeline.MapMachine
import AsterKV.Theory.SharedRuns

namespace AsterKV.Network

open AsterKV.Core AsterKV.Pipeline AsterKV.Storage
open Theory

set_option autoImplicit false

variable {σ : Type} {pipeline : LinePipeline σ} {options : TcpLineServerOptions}

/-! ## One step of a thread -/

/-- The lines of a session with their responses. -/
def Session.answers (session : Session σ) : List (Bytes × Bytes) :=
  session.exchanges.map fun exchange => (exchange.line, exchange.response)

/-- A session after no line, or one line more with its response. -/
inductive OneAnswer (pipeline : LinePipeline σ) (before after : Session σ) : Prop where
  | none (answers : after.answers = before.answers) (lines : newLines before after = [])
  | one (line : Bytes) (lines : newLines before after = [line])
      (answers : after.answers =
        before.answers ++ [(line, (pipeline.processLine before.storage line).1)])

theorem oneAnswer_same {before after : Session σ} (same : after.exchanges = before.exchanges) :
    OneAnswer pipeline before after := by
  refine .none (by rw [Session.answers, same]; rfl) ?_
  rw [newLines, Session.lines, Session.lines, same, List.drop_length]

theorem oneAnswer_answered {before session after : Session σ} (rawLine : Bytes)
    (answered : after.exchanges = (session.answered pipeline rawLine).exchanges)
    (exchanges : session.exchanges = before.exchanges) (storage : session.storage = before.storage) :
    OneAnswer pipeline before after := by
  have grown := answered
  rw [exchanges_answered, exchanges] at grown
  refine .one (stripCarriageReturn rawLine) ?_ ?_
  · rw [newLines, Session.lines, Session.lines, grown, List.map_append, List.drop_left]
    rfl
  · rw [← storage, Session.answers, Session.answers, grown, List.map_append]
    rfl

/-- **A step answers at most one line**, from the storage it finds. -/
theorem oneAnswer_serveStep (serving : Serving σ) :
    OneAnswer pipeline serving.session (serveStep pipeline options serving).session := by
  obtain ⟨point, session, incoming⟩ := serving
  cases point with
  | loopTest =>
      simp only [serveStep]
      split <;> exact oneAnswer_same rfl
  | receiving =>
      show OneAnswer pipeline session (receiveStep pipeline options session incoming).session
      rcases receiveStep_session pipeline options session incoming with
        same | same | ⟨chunk, now, same⟩
      · rw [same]
        exact oneAnswer_same rfl
      · rw [same]
        exact oneAnswer_same rfl
      · rw [same]
        exact oneAnswer_same rfl
  | answering =>
      show OneAnswer pipeline session (answerStep pipeline session incoming).session
      by_cases present : lineFeed ∈ session.pendingInput
      · rw [answerStep_line pipeline present]
        split <;> exact oneAnswer_answered session.nextLine rfl rfl rfl
      · rw [answerStep, if_neg present]
        exact oneAnswer_same rfl
  | rest =>
      show OneAnswer pipeline session (serveRest pipeline session).2
      unfold serveRest
      split
      · exact oneAnswer_same rfl
      · split
        · exact oneAnswer_same rfl
        · rw [processLineAndSendResponse_eq]
          exact @oneAnswer_answered σ pipeline session session.polled _ session.pendingInput rfl rfl rfl
  | returned status => exact oneAnswer_same rfl

namespace Workers

/-! ## Where a thread comes from -/

variable (pipeline options) in
/-- What one turn can have done to a thread that is there after it. -/
inductive Origin (before after : Workers σ) (index : Nat) (entry : ClientWorker σ) : Prop where
  | kept (worker : ClientWorker σ) (thread : before.threads[index]? = some worker)
      (client : entry.client = worker.client) (serving : entry.serving = worker.serving)
      (others : List (Nat × Bytes)) (executed : after.executed = before.executed ++ others)
      (elsewhere : ∀ line ∈ others, line.1 ≠ entry.client)
  | spawned (socket : Socket) (held : before.main.hand.held = some (entry.client, socket))
      (serving : entry.serving = .opened before.storage socket before.stop)
      (executed : after.executed = before.executed)
  | served (worker : ClientWorker σ) (thread : before.threads[index]? = some worker)
      (client : entry.client = worker.client)
      (serving : entry.serving =
        serveStep pipeline options (worker.serving.resumed before.storage before.stop))
      (executed : after.executed = before.executed ++
        (newLines worker.serving.session entry.serving.session).map (entry.client, ·))
      (stop : after.stop = entry.serving.session.stop)

section Origin

variable {before after : Workers σ} {place : Nat} {entry : ClientWorker σ}

theorem origin_same (found : after.threads[place]? = some entry)
    (threads : after.threads = before.threads) (executed : after.executed = before.executed) :
    Origin pipeline options before after place entry :=
  .kept entry (threads ▸ found) rfl rfl [] (by rw [executed, List.append_nil])
    fun _ member => absurd member List.not_mem_nil

/-- A change of one thread that is not a step of its `serveClient`. -/
theorem origin_thread (found : after.threads[place]? = some entry) {index : Nat}
    {worker next : ClientWorker σ} (thread : before.threads[index]? = some worker)
    (threads : after.threads = before.threads.set index next) (client : next.client = worker.client)
    (serving : next.serving = worker.serving) (executed : after.executed = before.executed) :
    Origin pipeline options before after place entry := by
  have nothing : after.executed = before.executed ++ [] := by rw [executed, List.append_nil]
  have nobody : ∀ line ∈ ([] : List (Nat × Bytes)), line.1 ≠ entry.client :=
    fun _ member => absurd member List.not_mem_nil
  rw [threads] at found
  rcases Slots.getElem?_set thread found with ⟨rfl, rfl⟩ | ⟨-, old⟩
  · exact .kept worker thread client serving [] nothing nobody
  · exact .kept entry old rfl rfl [] nothing nobody

/-- **Every thread after a turn is an old one, a new one, or the one that took a step.** -/
theorem Effect.origin {next : WorkerTurn} (effect : Effect pipeline options before next after)
    (handled : before.Handled) (found : after.threads[place]? = some entry) :
    Origin pipeline options before after place entry := by
  cases effect with
  | stay | move | stop | fail | accept | refuse | grant | increment | finish =>
      exact origin_same found rfl rfl
  | spawn client socket main =>
      rcases Slots.getElem?_concat found with ⟨-, rfl⟩ | ⟨-, old⟩
      · refine .spawned socket ?_ rfl rfl
        rw [main]
        rfl
      · exact .kept entry old rfl rfl [] (List.append_nil _).symm
          fun _ member => absurd member List.not_mem_nil
  | reap position index worker joined main slot thread join =>
      refine origin_thread found thread rfl (ClientWorker.join_client join) ?_ rfl
      rw [ClientWorker.join_eq join]
  | join position index status worker joined main slot thread join =>
      refine origin_thread found thread rfl (ClientWorker.join_client join) ?_ rfl
      rw [ClientWorker.join_eq join]
  | serve index worker serving thread point served =>
      rcases Slots.getElem?_set thread found with ⟨rfl, rfl⟩ | ⟨elsewhere, old⟩
      · exact .served worker thread rfl served rfl rfl
      · refine .kept entry old rfl rfl _ rfl fun line member => ?_
        obtain ⟨text, -, rfl⟩ := List.mem_map.1 member
        exact (handled.client_ne thread old elsewhere).symm
  | leave index worker thread | decrement index worker thread | finishThread index worker thread
  | endThread index worker thread => exact origin_thread found thread rfl rfl rfl rfl

end Origin

/-! ## Every interleaving -/

variable (pipeline) in
/-- Each worker's client is answered its part of one run over the executed lines. -/
def Answered (start : σ) (system : Workers σ) : Prop :=
  ∀ (index : Nat) (worker : ClientWorker σ), system.threads[index]? = some worker →
    worker.serving.session.answers =
      Machine.told pipeline.processLine worker.client start system.executed

theorem Answered.effect {start : σ} {before after : Workers σ} {next : WorkerTurn}
    (effect : Effect pipeline options before next after)
    (sound : before.Sound pipeline options start) (known : before.Answered pipeline start) :
    after.Answered pipeline start := by
  intro place entry found
  cases effect.origin sound.handled found with
  | kept worker thread client serving others executed elsewhere =>
      rw [serving, known place worker thread, executed, Machine.told_append,
        Machine.told_of_ne elsewhere, List.append_nil, client]
  | spawned socket held serving executed =>
      rw [serving, executed]
      refine (Machine.told_of_ne (fun line member same => ?_) start).symm
      obtain ⟨worker, thread, sender⟩ := sound.recorded.known line member
      refine sound.handled.held_ne ?_ thread (sender.trans same)
      rw [Hand.clients, held]
      exact List.mem_singleton_self _
  | served worker thread client serving executed stop =>
      have answer : OneAnswer pipeline
          (worker.serving.resumed before.storage before.stop).session entry.serving.session := by
        rw [serving]
        exact oneAnswer_serveStep _
      rw [executed, Machine.told_append, ← sound.recorded.storage, client,
        ← known place worker thread]
      cases answer with
      | none answers lines =>
          rw [show newLines worker.serving.session entry.serving.session = [] from lines]
          exact answers.trans (List.append_nil _).symm
      | one line lines answers =>
          rw [show newLines worker.serving.session entry.serving.session = [line] from lines]
          refine answers.trans ?_
          simp only [List.map_cons, List.map_nil, Machine.told, if_true]
          rfl

theorem Sound.effect {start : σ} {before after : Workers σ} {next : WorkerTurn}
    (known : before.Sound pipeline options start)
    (effect : Effect pipeline options before next after) :
    after.Sound pipeline options start where
  counted := known.counted.effect effect
  handled := known.handled.effect effect
  joinable := known.joinable.effect effect
  recorded := known.recorded.effect effect known.handled

/-- An invariant may rest on what is known of every state. -/
theorem after_invariant_of_sound {Inv : Workers σ → Prop} {start : σ}
    (kept : ∀ {before after : Workers σ} {next : WorkerTurn},
      Effect pipeline options before next after → before.Sound pipeline options start →
      Inv before → Inv after)
    {stop : StopRequested} (holds : Inv (initial start stop)) (schedule : List WorkerTurn) :
    Inv ((initial start stop).after pipeline options schedule) := by
  have both := @after_invariant σ pipeline options
    (fun system => system.Sound pipeline options start ∧ Inv system)
    (fun effect known => ⟨known.1.effect effect, kept effect known.1 known.2⟩) (initial start stop)
    ⟨after_sound pipeline options start stop [], holds⟩ schedule
  exact both.2

variable (pipeline options)

/-- **The workers answer as one pipeline.** -/
theorem after_answered (start : σ) (stop : StopRequested) (schedule : List WorkerTurn) :
    ((initial start stop).after pipeline options schedule).Answered pipeline start :=
  after_invariant_of_sound Answered.effect (fun _ _ found => by cases found) schedule

/-- Over the in-memory storage a shared run is one of a finite map. -/
theorem told_localPipeline (client : Nat) (start : InMemoryStorage) (entries : List (Nat × Bytes)) :
    Machine.told (localPipeline InMemoryStorage).processLine client start entries =
        (Machine.told MapMachine.step client start.values entries).map
          (fun told => (told.1, told.2.render)) ∧
      Machine.after (localPipeline InMemoryStorage).processLine start (entries.map Prod.snd) =
        ⟨Machine.after MapMachine.step start.values (entries.map Prod.snd)⟩ :=
  @Machine.told_simulation _ _ _ _ _ Nat _ processLine client
    MapMachine.step (fun storage map => storage = (⟨map⟩ : InMemoryStorage)) MapMachine.Answer.render
    (fun storage map line related => by
      rw [related]
      exact processLine_eq_step ⟨map⟩ line)
    start start.values rfl entries

/-- **The server refines a finite map.**  In every interleaving of `run` with its workers
the storage is what the executed lines, in their order, make of the map, each of them is a
line of a client with a worker, and what each client was answered is its part of the map's
answers; its lines are the first ones of what it sent. -/
theorem workers_refine_map (start : InMemoryStorage) (stop : StopRequested)
    (schedule : List WorkerTurn) :
    let system := (initial start stop).after (localPipeline InMemoryStorage) options schedule
    system.storage.values =
        Machine.after MapMachine.step start.values (system.executed.map Prod.snd) ∧
      (∀ entry ∈ system.executed, ∃ worker ∈ system.threads, worker.client = entry.1) ∧
      ∀ worker ∈ system.threads, ∃ socket, system.accepted[worker.client]? = some socket ∧
        system.executedFor worker.client = worker.serving.session.lines ∧
        worker.serving.session.lines <+: commandLines (clientStream socket.incoming) ∧
        worker.serving.session.answers =
          (Machine.told MapMachine.step worker.client start.values system.executed).map
            fun told => (told.1, told.2.render) := by
  intro system
  have recorded := (after_sound (localPipeline InMemoryStorage) options start stop schedule).recorded
  have answered := after_answered (localPipeline InMemoryStorage) options start stop schedule
  refine ⟨?_, recorded.known, fun worker member => ?_⟩
  · exact congrArg InMemoryStorage.values
      (recorded.storage.trans (told_localPipeline 0 start system.executed).2)
  · obtain ⟨index, thread⟩ := List.mem_iff_getElem?.1 member
    obtain ⟨socket, serves⟩ := recorded.serves index worker thread
    refine ⟨socket, serves.accepted, recorded.lines index worker thread, serves.lines, ?_⟩
    exact (answered index worker thread).trans (told_localPipeline worker.client start _).1

end Workers

end AsterKV.Network
