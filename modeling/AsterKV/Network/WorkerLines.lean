/-
# AsterKV.Network.WorkerLines -- what the workers execute

`Recorded` is what holds in every interleaving of the executed lines: they made the
storage, all of them are workers', and those executed for a client are first lines of
what it sent.
-/
import AsterKV.Network.WorkerCounts

namespace AsterKV.Network

open AsterKV.Core AsterKV.Pipeline
open Theory

set_option autoImplicit false

variable {σ : Type} {pipeline : LinePipeline σ} {options : TcpLineServerOptions}

namespace Workers

/-! ## What is executed -/

/-- The lines executed for a client. -/
def executedFor (system : Workers σ) (client : Nat) : List Bytes :=
  (system.executed.filter (·.1 = client)).map Prod.snd

/-- What is known of a worker whose client has this socket. -/
structure Serves (system : Workers σ) (worker : ClientWorker σ) (socket : Socket) : Prop where
  accepted : system.accepted[worker.client]? = some socket
  lines : worker.serving.session.lines <+: commandLines (clientStream socket.incoming)
  follows : worker.point = .serving →
    worker.serving.Follows (clientStream socket.incoming) system.stop.poll.1

variable (pipeline) in
structure Recorded (start : σ) (system : Workers σ) : Prop where
  storage : system.storage =
    Machine.after pipeline.processLine start (system.executed.map Prod.snd)
  known : ∀ entry ∈ system.executed, ∃ worker ∈ system.threads, worker.client = entry.1
  held : ∀ client socket, system.main.hand.held = some (client, socket) →
    system.accepted[client]? = some socket
  lines : ∀ (index : Nat) (worker : ClientWorker σ), system.threads[index]? = some worker →
    system.executedFor worker.client = worker.serving.session.lines
  serves : ∀ (index : Nat) (worker : ClientWorker σ), system.threads[index]? = some worker →
    ∃ socket, system.Serves worker socket

variable (pipeline) in
theorem recorded_initial (storage : σ) (stop : StopRequested) :
    (initial storage stop).Recorded pipeline storage := by
  refine ⟨rfl, ?_, ?_, ?_, ?_⟩
  · intro entry member
    cases member
  · intro client socket held
    cases held
  · intro index worker found
    cases found
  · intro index worker found
    cases found

/-- Other threads have other clients. -/
theorem Handled.client_ne {system : Workers σ} (known : system.Handled) {index other : Nat}
    {worker entry : ClientWorker σ} (thread : system.threads[index]? = some worker)
    (found : system.threads[other]? = some entry) (elsewhere : other ≠ index) :
    entry.client ≠ worker.client := by
  have distinct := known.nodup_iff.2 List.nodup_range
  have clients := (List.nodup_append.1 (List.nodup_append.1 distinct).1).1
  obtain ⟨inside, rfl⟩ := List.getElem?_eq_some_iff.1 thread
  obtain ⟨bound, rfl⟩ := List.getElem?_eq_some_iff.1 found
  have inside : index < (system.threads.map ClientWorker.client).length := by simpa using inside
  have bound : other < (system.threads.map ClientWorker.client).length := by simpa using bound
  intro same
  have twice : (system.threads.map ClientWorker.client)[other] =
      (system.threads.map ClientWorker.client)[index] := by simpa using same
  exact elsewhere (clients.getElem_inj_iff.1 twice)

/-- A held client has no worker. -/
theorem Handled.held_ne {system : Workers σ} (known : system.Handled) {client : Nat}
    (held : client ∈ system.main.hand.clients) {worker : ClientWorker σ}
    (thread : worker ∈ system.threads) : worker.client ≠ client := by
  have distinct := known.nodup_iff.2 List.nodup_range
  have apart := (List.nodup_append.1 distinct).2.2
  exact apart _ (List.mem_append_left _ (List.mem_map_of_mem thread)) _ held

theorem Serves.later {before after : Workers σ} {worker next : ClientWorker σ} {socket : Socket}
    (known : before.Serves worker socket) (client : next.client = worker.client)
    (serving : next.serving = worker.serving)
    (point : next.point = .serving → worker.point = .serving)
    (accepted : before.accepted <+: after.accepted)
    (lasts : before.stop.poll.1 = true → after.stop.poll.1 = true) : after.Serves next socket := by
  refine ⟨?_, ?_, ?_⟩
  · obtain ⟨more, same⟩ := accepted
    obtain ⟨inside, -⟩ := List.getElem?_eq_some_iff.1 known.accepted
    rw [client, ← same, List.getElem?_append_left inside]
    exact known.accepted
  · rw [serving]
    exact known.lines
  · intro inside
    rw [serving]
    exact (known.follows (point inside)).mono lasts

section Recorded

variable {start : σ} {before after : Workers σ}

/-- A change that concerns no thread. -/
theorem Recorded.same (known : before.Recorded pipeline start)
    (threads : after.threads = before.threads) (executed : after.executed = before.executed)
    (storage : after.storage = before.storage) (accepted : before.accepted <+: after.accepted)
    (held : ∀ client socket, after.main.hand.held = some (client, socket) →
      after.accepted[client]? = some socket)
    (lasts : before.stop.poll.1 = true → after.stop.poll.1 = true) :
    after.Recorded pipeline start := by
  refine ⟨?_, ?_, held, ?_, ?_⟩
  · rw [storage, executed]
    exact known.storage
  · rw [threads, executed]
    exact known.known
  · intro index worker found
    rw [threads] at found
    unfold executedFor
    rw [executed]
    exact known.lines index worker found
  · intro index worker found
    rw [threads] at found
    obtain ⟨socket, serves⟩ := known.serves index worker found
    exact ⟨socket, serves.later rfl rfl id accepted lasts⟩

/-- A change of one thread that is not a step of its `serveClient`. -/
theorem Recorded.thread (known : before.Recorded pipeline start) {index : Nat}
    {worker next : ClientWorker σ} (thread : before.threads[index]? = some worker)
    (threads : after.threads = before.threads.set index next) (client : next.client = worker.client)
    (serving : next.serving = worker.serving)
    (point : next.point = .serving → worker.point = .serving)
    (executed : after.executed = before.executed) (storage : after.storage = before.storage)
    (accepted : after.accepted = before.accepted) (stop : after.stop = before.stop)
    (held : after.main.hand.held = before.main.hand.held) : after.Recorded pipeline start := by
  refine ⟨?_, ?_, ?_, ?_, ?_⟩
  · rw [storage, executed]
    exact known.storage
  · intro entry member
    rw [executed] at member
    obtain ⟨other, found, same⟩ := known.known entry member
    have clients : entry.1 ∈ after.threads.map ClientWorker.client := by
      rw [threads, Slots.map_set thread client, ← same]
      exact List.mem_map_of_mem found
    exact List.mem_map.1 clients
  · rw [held, accepted]
    exact known.held
  · intro place entry found
    rw [threads] at found
    unfold executedFor
    rw [executed]
    rcases Slots.getElem?_set thread found with ⟨rfl, rfl⟩ | ⟨-, old⟩
    · rw [client, serving]
      exact known.lines place worker thread
    · exact known.lines place entry old
  · intro place entry found
    rw [threads] at found
    have same : before.accepted <+: after.accepted := by rw [accepted]
    have lasts : before.stop.poll.1 = true → after.stop.poll.1 = true := by
      rw [stop]
      exact id
    rcases Slots.getElem?_set thread found with ⟨rfl, rfl⟩ | ⟨-, old⟩
    · obtain ⟨socket, serves⟩ := known.serves place worker thread
      exact ⟨socket, serves.later client serving point same lasts⟩
    · obtain ⟨socket, serves⟩ := known.serves place entry old
      exact ⟨socket, serves.later rfl rfl id same lasts⟩

/-- A new thread has executed nothing. -/
theorem Recorded.spawned (known : before.Recorded pipeline start) (handled : before.Handled)
    {client : Nat} {socket : Socket}
    (held : before.main.hand.held = some (client, socket))
    (threads : after.threads = before.threads ++
      [⟨client, .serving, .opened before.storage socket before.stop, false, 0⟩])
    (executed : after.executed = before.executed) (storage : after.storage = before.storage)
    (accepted : after.accepted = before.accepted) (stop : after.stop = before.stop)
    (empty : after.main.hand = .empty) : after.Recorded pipeline start := by
  have fresh : ∀ worker ∈ before.threads, worker.client ≠ client := by
    intro worker thread
    refine handled.held_ne ?_ thread
    rw [Hand.clients, held]
    exact List.mem_singleton_self _
  refine ⟨?_, ?_, ?_, ?_, ?_⟩
  · rw [storage, executed]
    exact known.storage
  · intro entry member
    rw [executed] at member
    obtain ⟨worker, found, same⟩ := known.known entry member
    rw [threads]
    exact ⟨worker, List.mem_append_left _ found, same⟩
  · intro other otherSocket still
    rw [empty] at still
    cases still
  · intro place entry found
    rw [threads] at found
    unfold executedFor
    rw [executed]
    rcases Slots.getElem?_concat found with ⟨-, rfl⟩ | ⟨-, old⟩
    · rw [List.filter_eq_nil_iff.2]
      · rfl
      · intro one member
        obtain ⟨worker, thread, same⟩ := known.known one member
        simpa [← same] using fresh worker thread
    · exact known.lines place entry old
  · intro place entry found
    rw [threads] at found
    have same : before.accepted <+: after.accepted := by rw [accepted]
    have lasts : before.stop.poll.1 = true → after.stop.poll.1 = true := by
      rw [stop]
      exact id
    rcases Slots.getElem?_concat found with ⟨-, rfl⟩ | ⟨-, old⟩
    · refine ⟨socket, ?_, List.nil_prefix, fun _ => follows_opened _ _ _ _⟩
      rw [accepted]
      exact known.held client socket held
    · obtain ⟨socket, serves⟩ := known.serves place entry old
      exact ⟨socket, serves.later rfl rfl id same lasts⟩

/-- One step of a `serveClient`. -/
theorem Recorded.served (known : before.Recorded pipeline start) (handled : before.Handled)
    {index : Nat} {worker : ClientWorker σ} {serving : Serving σ}
    (thread : before.threads[index]? = some worker) (point : worker.point = .serving)
    (step : serving =
      serveStep pipeline options (worker.serving.resumed before.storage before.stop))
    (threads : after.threads = before.threads.set index { worker with serving })
    (executed : after.executed = before.executed ++
      (newLines worker.serving.session serving.session).map (worker.client, ·))
    (storage : after.storage = serving.session.storage) (stop : after.stop = serving.session.stop)
    (accepted : after.accepted = before.accepted) (main : after.main = before.main) :
    after.Recorded pipeline start := by
  have effect := serveStep_session pipeline options
    (worker.serving.resumed before.storage before.stop)
  rw [← step] at effect
  have grows : worker.serving.session.lines <+: serving.session.lines := effect.grows
  have lasts : before.stop.poll.1 = true → after.stop.poll.1 = true := by
    intro requested
    have still : serving.session.stop = before.stop := by
      rw [step]
      exact serveStep_stop pipeline options requested
    rw [stop, still]
    exact requested
  have same : before.accepted <+: after.accepted := by rw [accepted]
  refine ⟨?_, ?_, ?_, ?_, ?_⟩
  · rw [storage, executed, List.map_append, List.map_map]
    have lines : (newLines worker.serving.session serving.session).map
        (Prod.snd ∘ (worker.client, ·)) = newLines worker.serving.session serving.session :=
      List.map_id _
    rw [lines, Machine.after_append, ← known.storage]
    exact effect.storage
  · intro entry member
    have same : (before.threads.set index { worker with serving }).map ClientWorker.client =
        before.threads.map ClientWorker.client := Slots.map_set thread rfl
    have clients : entry.1 ∈ after.threads.map ClientWorker.client := by
      rw [threads, same]
      rw [executed, List.mem_append] at member
      rcases member with old | new
      · obtain ⟨other, found, same⟩ := known.known entry old
        rw [← same]
        exact List.mem_map_of_mem found
      · obtain ⟨line, -, rfl⟩ := List.mem_map.1 new
        exact List.mem_map_of_mem (List.mem_of_getElem? thread)
    exact List.mem_map.1 clients
  · rw [main, accepted]
    exact known.held
  · intro place entry found
    rw [threads] at found
    unfold executedFor
    rw [executed, List.filter_append, List.map_append]
    rcases Slots.getElem?_set thread found with ⟨rfl, rfl⟩ | ⟨elsewhere, old⟩
    · have lines := known.lines place worker thread
      unfold executedFor at lines
      rw [lines, List.filter_eq_self.2]
      · rw [List.map_map]
        exact (congrArg _ (List.map_id _)).trans (append_newLines grows)
      · intro one member
        obtain ⟨line, -, rfl⟩ := List.mem_map.1 member
        exact decide_eq_true rfl
    · have lines := known.lines place entry old
      unfold executedFor at lines
      rw [lines, List.filter_eq_nil_iff.2]
      · exact List.append_nil _
      · intro one member
        obtain ⟨line, -, rfl⟩ := List.mem_map.1 member
        simpa using (handled.client_ne thread old elsewhere).symm
  · intro place entry found
    rw [threads] at found
    rcases Slots.getElem?_set thread found with ⟨rfl, rfl⟩ | ⟨-, old⟩
    · obtain ⟨socket, serves⟩ := known.serves place worker thread
      have resumed := (serves.follows point).resumed before.storage before.stop
      have follows :
          serving.Follows (clientStream socket.incoming) serving.session.stop.poll.1 := by
        rw [step]
        exact Serving.Follows.serveStep resumed
      refine ⟨socket, ?_, follows.lines_prefix, fun _ => ?_⟩
      · rw [accepted]
        exact serves.accepted
      · rw [stop]
        exact follows
    · obtain ⟨socket, serves⟩ := known.serves place entry old
      exact ⟨socket, serves.later rfl rfl id same lasts⟩

theorem Recorded.effect {next : WorkerTurn} (effect : Effect pipeline options before next after)
    (handled : before.Handled)
    (known : before.Recorded pipeline start) : after.Recorded pipeline start := by
  cases effect with
  | stay => exact known
  | move main stop refusals quiet leaves lasts =>
      refine known.same rfl rfl rfl (List.prefix_refl _) ?_ lasts
      rw [quiet.hand]
      exact known.held
  | stop main quiet leaves =>
      refine known.same rfl rfl rfl (List.prefix_refl _) ?_ id
      rw [quiet.hand]
      exact known.held
  | fail outcome status main unusable =>
      refine known.same rfl rfl rfl (List.prefix_refl _) ?_ id
      intro client clientFd held
      cases held
  | accept client main configured =>
      refine known.same rfl rfl rfl (List.prefix_append _ _) ?_ id
      intro held clientFd same
      cases same
      exact List.getElem?_concat_length
  | refuse client socket main noRoom =>
      refine known.same rfl rfl rfl (List.prefix_refl _) ?_ id
      intro client clientFd held
      cases held
  | grant client socket main below =>
      refine known.same rfl rfl rfl (List.prefix_refl _) ?_ id
      have held := known.held
      rw [main] at held
      exact held
  | increment client socket main =>
      refine known.same rfl rfl rfl (List.prefix_refl _) ?_ id
      have held := known.held
      rw [main] at held
      exact held
  | spawn client socket main =>
      refine known.spawned handled ?_ rfl rfl rfl rfl rfl rfl
      rw [main]
      rfl
  | reap position index worker joined main slot thread join =>
      refine known.thread thread rfl (ClientWorker.join_client join) ?_ ?_ rfl rfl rfl rfl ?_
      · rw [ClientWorker.join_eq join]
      · rw [ClientWorker.join_eq join]
        exact id
      · rw [main]
        rfl
  | join position index status worker joined main slot thread join =>
      refine known.thread thread rfl (ClientWorker.join_client join) ?_ ?_ rfl rfl rfl rfl ?_
      · rw [ClientWorker.join_eq join]
      · rw [ClientWorker.join_eq join]
        exact id
      · rw [main]
        rfl
  | finish position status main through =>
      refine known.same rfl rfl rfl (List.prefix_refl _) ?_ id
      intro client clientFd held
      cases held
  | serve index worker serving thread point served =>
      exact known.served handled thread point served rfl rfl rfl rfl rfl rfl
  | leave index worker thread point =>
      exact known.thread thread rfl rfl rfl (fun serving => by cases serving) rfl rfl rfl rfl rfl
  | decrement index worker thread point =>
      exact known.thread thread rfl rfl rfl (fun serving => by cases serving) rfl rfl rfl rfl rfl
  | finishThread index worker thread point =>
      exact known.thread thread rfl rfl rfl (fun serving => by cases serving) rfl rfl rfl rfl rfl
  | endThread index worker thread point =>
      exact known.thread thread rfl rfl rfl (fun serving => by cases serving) rfl rfl rfl rfl rfl

end Recorded

end Workers

end AsterKV.Network
