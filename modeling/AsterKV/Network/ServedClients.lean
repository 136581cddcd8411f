/-
# AsterKV.Network.ServedClients -- every client is served to its end

A worker waits for no other thread: each of its turns does some of what its client has
given it to do (`serveStep_left`), and no turn of another thread adds to that.  So with as
many turns as are left its `serveClient` returns, whatever the others do meanwhile; and if
nothing disturbed the connection and no stop was requested, the client has then been
answered every line it sent (`every_client_served`).
-/
import AsterKV.Network.ConcurrentRequests
import AsterKV.Network.Shutdown

namespace AsterKV.Network

open AsterKV.Core AsterKV.Pipeline AsterKV.Storage
open Theory

set_option autoImplicit false

variable {σ : Type} {pipeline : LinePipeline σ} {options : TcpLineServerOptions}

/-! ## What a client has given to do -/

/-- The line feeds that are still to be received. -/
def feedsToCome : List RecvOutcome → Nat
  | [] => 0
  | outcome :: rest => (nextChunk [outcome]).count lineFeed + feedsToCome rest

/-- The steps left in `serveClient`, at most. -/
def Serving.left (serving : Serving σ) : Nat :=
  let lines := serving.session.pendingInput.count lineFeed + feedsToCome serving.incoming
  match serving.point with
  | .returned _ => 0
  | .rest => 1
  | .receiving => 2 + 3 * serving.incoming.length + lines
  | .loopTest => 3 + 3 * serving.incoming.length + lines
  | .answering => 4 + 3 * serving.incoming.length + lines

theorem Serving.returned_of_left {serving : Serving σ} (none : serving.left = 0) :
    ∃ status, serving.point = .returned status := by
  unfold Serving.left at none
  cases point : serving.point with
  | returned status => exact ⟨status, rfl⟩
  | loopTest | receiving | answering | rest =>
      rw [point] at none
      dsimp only at none
      omega

/-- An answer of `recv` that brings nothing leaves the loop or goes back to its test. -/
theorem receiveStep_nothing (session : Session σ) {outcome : RecvOutcome}
    (nothing : nextChunk [outcome] = []) (incoming : List RecvOutcome) :
    (receiveStep pipeline options session (outcome :: incoming)).left ≤
      3 + 3 * incoming.length +
        (session.pendingInput.count lineFeed + feedsToCome incoming) := by
  cases outcome with
  | received chunk now => exact absurd nothing chunk.nonempty
  | closed =>
      show 1 ≤ 3 + _ + _
      omega
  | interrupted =>
      simp only [receiveStep, serveTurn]
      cases session.stop.poll.1 with
      | true => exact Nat.zero_le _
      | false => exact Nat.le_refl _
  | again now =>
      simp only [receiveStep, serveTurn]
      cases session.stop.poll.1 with
      | true => exact Nat.zero_le _
      | false =>
          cases isClientIdleTimedOut options now session.lastActivity with
          | true => exact Nat.zero_le _
          | false => exact Nat.le_refl _
  | failed description => exact Nat.zero_le _

theorem receiveStep_left (session : Session σ) (incoming : List RecvOutcome) :
    (receiveStep pipeline options session incoming).left <
      (⟨.receiving, session, incoming⟩ : Serving σ).left := by
  cases incoming with
  | nil =>
      show 1 < 2 + 3 * 0 + _
      omega
  | cons outcome incoming =>
      by_cases nothing : nextChunk [outcome] = []
      · refine Nat.lt_of_le_of_lt (receiveStep_nothing session nothing incoming) ?_
        show _ < 2 + 3 * (incoming.length + 1) + (session.pendingInput.count lineFeed +
          ((nextChunk [outcome]).count lineFeed + feedsToCome incoming))
        omega
      · cases outcome with
        | received chunk now =>
            show 4 + 3 * incoming.length + ((session.pendingInput ++ chunk.data).count lineFeed +
              feedsToCome incoming) < 2 + 3 * (incoming.length + 1) +
                (session.pendingInput.count lineFeed + (chunk.data.count lineFeed +
                  feedsToCome incoming))
            rw [List.count_append]
            omega
        | closed | interrupted | again | failed => exact absurd rfl nothing

/-- **A step of `serveClient` does some of what is left**, stopped or not. -/
theorem serveStep_left {serving : Serving σ} (goesOn : ∀ status, serving.point ≠ .returned status) :
    (serveStep pipeline options serving).left < serving.left := by
  obtain ⟨point, session, incoming⟩ := serving
  cases point with
  | returned status => exact absurd rfl (goesOn status)
  | loopTest =>
      simp only [serveStep]
      split
      · show 1 < 3 + _ + _
        omega
      · show 2 + 3 * incoming.length + _ < 3 + 3 * incoming.length + _
        exact Nat.add_lt_add_right (Nat.add_lt_add_right (Nat.lt_succ_self 2) _) _
  | rest =>
      show 0 < 1
      exact Nat.one_pos
  | receiving => exact receiveStep_left session incoming
  | answering =>
      show (answerStep pipeline session incoming).left < 4 + 3 * incoming.length + _
      by_cases present : lineFeed ∈ session.pendingInput
      · rw [answerStep_line pipeline present]
        have less := count_nextLine present
        split
        · show 4 + 3 * incoming.length +
            ((session.pendingInput.drop (session.nextLine.length + 1)).count lineFeed + _) < _
          dsimp only
          omega
        · show 0 < _
          omega
      · rw [answerStep, if_neg present]
        show 3 + 3 * incoming.length + _ < 4 + 3 * incoming.length + _
        exact Nat.add_lt_add_right (Nat.add_lt_add_right (Nat.lt_succ_self 3) _) _

/-! ## One thread among others -/

namespace ClientWorker

/-- The thread is in `serveClient`, or this has returned to it. -/
def Attends (worker : ClientWorker σ) : Prop :=
  worker.point ≠ .serving → ∃ status, worker.serving.point = .returned status

end ClientWorker

namespace Workers

/-- The turn is one of this thread. -/
def isTurnOf (index : Nat) : WorkerTurn → Bool
  | .worker place => place = index
  | _ => false

section Threads

variable {system : Workers σ} {index : Nat} {worker : ClientWorker σ}
  (thread : system.threads[index]? = some worker)

include thread

theorem setThread_thread {place : Nat} (ne : place ≠ index) (next : ClientWorker σ) :
    (system.setThread place next).threads[index]? = some worker := by
  show (system.threads.set place next)[index]? = _
  rw [List.getElem?_set_ne ne]
  exact thread

theorem setThread_self (next : ClientWorker σ) :
    (system.setThread index next).threads[index]? = some next :=
  List.getElem?_set_self (List.getElem?_eq_some_iff.1 thread).1

theorem joinThread_thread (place : Nat) (slots : List Nat) (main : MainPoint) :
    ∃ joins, (system.joinThread place slots main).threads[index]? = some { worker with joins } := by
  rcases system.joinThread_cases place slots main with
    waits | ⟨other, joined, found, join, goesOn⟩
  · rw [waits]
    exact ⟨worker.joins, thread⟩
  · rw [goesOn]
    by_cases same : place = index
    · subst same
      obtain rfl : worker = other := Option.some.inj (thread.symm.trans found)
      refine ⟨joined.joins, (setThread_self thread joined).trans ?_⟩
      rw [ClientWorker.join_eq join]
    · exact ⟨worker.joins, setThread_thread thread same joined⟩

/-- `run` changes nothing about a thread but how often it was joined. -/
theorem mainStep_thread :
    ∃ joins, (system.mainStep options).threads[index]? = some { worker with joins } := by
  unfold mainStep
  cases system.main with
  | loopTest | acceptTest | interrupted | accepting | rejecting | incrementing | returned =>
      exact ⟨worker.joins, thread⟩
  | reaping position =>
      dsimp only
      split
      · exact ⟨worker.joins, thread⟩
      · split <;> exact ⟨worker.joins, thread⟩
  | checking client clientFd =>
      dsimp only
      split <;> exact ⟨worker.joins, thread⟩
  | joiningFinished position | joining position status =>
      dsimp only
      split
      · exact ⟨worker.joins, thread⟩
      · exact joinThread_thread thread _ _ _
  | spawning client clientFd =>
      refine ⟨worker.joins, ?_⟩
      exact (List.getElem?_append_left (List.getElem?_eq_some_iff.1 thread).1).trans thread

theorem acceptStep_thread (outcome : AcceptOutcome) :
    (system.acceptStep outcome).threads[index]? = some worker := by
  unfold acceptStep
  split
  · cases outcome with
    | interrupted | failed => exact thread
    | accepted client =>
        dsimp only
        split <;> exact thread
  · exact thread

theorem workerStep_thread {place : Nat} (ne : place ≠ index) :
    (system.workerStep pipeline options place).threads[index]? = some worker := by
  unfold workerStep
  split
  · exact thread
  · next other found =>
      cases other.point with
      | serving =>
          dsimp only
          split <;> exact setThread_thread thread ne _
      | decrementing | finishing | ending => exact setThread_thread thread ne _
      | ended => exact thread

/-- A thread's own turn does some of what is left in its `serveClient`. -/
theorem workerStep_own (attends : worker.Attends) :
    ∃ entry, (system.workerStep pipeline options index).threads[index]? = some entry ∧
      entry.client = worker.client ∧ entry.Attends ∧
      entry.serving.left ≤ worker.serving.left - 1 := by
  have through : ∀ {point : WorkerPoint}, (∃ status, worker.serving.point = .returned status) →
      ∀ finished, ({ worker with point, finished } : ClientWorker σ).Attends ∧
        worker.serving.left ≤ worker.serving.left - 1 := by
    rintro point ⟨status, returned⟩ finished
    refine ⟨fun _ => ⟨status, returned⟩, ?_⟩
    unfold Serving.left
    rw [returned]
    exact Nat.le_refl 0
  unfold workerStep
  rw [thread]
  dsimp only
  cases point : worker.point with
  | serving =>
      dsimp only
      split
      · next status returned =>
          exact ⟨_, setThread_self thread _, rfl, through ⟨status, returned⟩ worker.finished⟩
      · next goesOn =>
          have less := @serveStep_left σ pipeline options
            (worker.serving.resumed system.storage system.stop) goesOn
          refine ⟨_, setThread_self thread _, rfl, fun left => absurd rfl left, ?_⟩
          exact Nat.le_sub_one_of_lt less
  | decrementing | finishing | ending =>
      have left := attends (by rw [point]; decide)
      exact ⟨_, setThread_self thread _, rfl, through left _⟩
  | ended =>
      have left := attends (by rw [point]; decide)
      refine ⟨worker, thread, rfl, attends, ?_⟩
      exact (@through .ended left worker.finished).2

/-- **A turn does some of what a thread has to do if it is its turn, and adds nothing to it.** -/
theorem step_left (attends : worker.Attends) {next : WorkerTurn} (calm : next ≠ .throws index) :
    ∃ entry, (system.step pipeline options next).threads[index]? = some entry ∧
      entry.client = worker.client ∧ entry.Attends ∧
      entry.serving.left ≤ worker.serving.left - (isTurnOf index next).toNat := by
  have unchanged : ∀ {after : Workers σ} {joins : Nat},
      after.threads[index]? = some { worker with joins } → isTurnOf index next = false →
      ∃ entry, after.threads[index]? = some entry ∧ entry.client = worker.client ∧
        entry.Attends ∧ entry.serving.left ≤ worker.serving.left - (isTurnOf index next).toNat := by
    intro after joins found other
    exact ⟨_, found, rfl, attends, by rw [other]; exact Nat.le_refl _⟩
  cases next with
  | main =>
      obtain ⟨joins, found⟩ := @mainStep_thread σ options system index worker thread
      exact unchanged found rfl
  | accept outcome => exact unchanged (acceptStep_thread thread outcome) rfl
  | throws place =>
      refine @unchanged _ worker.joins ?_ rfl
      have ne : place ≠ index := fun same => calm (congrArg _ same)
      show (system.throwStep place).threads[index]? = _
      unfold throwStep
      split
      · exact thread
      · split
        · exact setThread_thread thread ne _
        · exact thread
  | worker place =>
      by_cases same : place = index
      · subst same
        have mine : isTurnOf place (.worker place) = true := decide_eq_true rfl
        rw [mine]
        exact workerStep_own thread attends
      · have other : isTurnOf index (.worker place) = false := decide_eq_false same
        exact @unchanged _ worker.joins (workerStep_thread thread same) other

end Threads

/-- **With as many turns as are left a thread's `serveClient` returns**, whatever the other
threads do. -/
theorem returns_of_turns {system : Workers σ} {index : Nat} {worker : ClientWorker σ}
    (thread : system.threads[index]? = some worker) (attends : worker.Attends)
    {schedule : List WorkerTurn} (calm : ∀ next ∈ schedule, next ≠ .throws index)
    (enough : worker.serving.left ≤ schedule.countP (isTurnOf index)) :
    ∃ entry status, (system.after pipeline options schedule).threads[index]? = some entry ∧
      entry.client = worker.client ∧ entry.serving.point = .returned status := by
  induction schedule generalizing system worker with
  | nil =>
      obtain ⟨status, returned⟩ := Serving.returned_of_left (Nat.le_zero.1 enough)
      exact ⟨worker, status, thread, rfl, returned⟩
  | cons next rest ih =>
      obtain ⟨entry, found, same, attends, less⟩ := @step_left σ pipeline options system index
        worker thread attends next (calm next List.mem_cons_self)
      rw [List.countP_cons] at enough
      have still : entry.serving.left ≤ rest.countP (isTurnOf index) := by
        cases turn : isTurnOf index next with
        | true =>
            rw [turn] at less enough
            simp only [if_true, Bool.toNat_true] at less enough
            omega
        | false =>
            rw [turn] at less enough
            simp only [Bool.false_eq_true, if_false, Bool.toNat_false] at less enough
            omega
      obtain ⟨last, status, reached, client, returned⟩ :=
        ih found attends (fun later member => calm later (List.mem_cons_of_mem _ member)) still
      exact ⟨last, status, reached, client.trans same, returned⟩

/-- A thread that is there after a turn and was not before is in `serveClient`. -/
theorem Effect.fresh {before after : Workers σ} {next : WorkerTurn}
    (effect : Effect pipeline options before next after) {index : Nat}
    (absent : before.threads[index]? = none) {entry : ClientWorker σ}
    (found : after.threads[index]? = some entry) : entry.point = .serving := by
  have old : ∀ {place : Nat} {other : ClientWorker σ},
      (before.threads.set place other)[index]? = some entry → entry.point = .serving := by
    intro place other found
    have inside := (List.getElem?_eq_some_iff.1 found).1
    rw [List.length_set] at inside
    exact absurd inside (Nat.not_lt.2 (List.getElem?_eq_none_iff.1 absent))
  cases effect with
  | stay | move | stop | fail | accept | refuse | grant | increment | finish =>
      cases absent.symm.trans found
  | spawn client socket main =>
      rcases Slots.getElem?_concat found with ⟨-, rfl⟩ | ⟨-, old⟩
      · rfl
      · cases absent.symm.trans old
  | reap | join | serve | leave | decrement | finishThread | endThread => exact old found

/-- A thread that threw nothing attends to its client. -/
theorem attends_after {system : Workers σ} {index : Nat}
    (start : ∀ worker, system.threads[index]? = some worker → worker.Attends)
    {schedule : List WorkerTurn} (calm : ∀ next ∈ schedule, next ≠ .throws index)
    {worker : ClientWorker σ}
    (thread : (system.after pipeline options schedule).threads[index]? = some worker) :
    worker.Attends := by
  induction schedule generalizing system with
  | nil => exact start worker thread
  | cons next rest ih =>
      refine ih (fun entry found => ?_) (fun later member => calm later (List.mem_cons_of_mem _ member))
        thread
      have found : (system.step pipeline options next).threads[index]? = some entry := found
      cases before : system.threads[index]? with
      | none =>
          have point := (step_effect pipeline options system next).fresh before found
          exact fun left => absurd point left
      | some old =>
          obtain ⟨kept, here, -, attends, -⟩ := @step_left σ pipeline options system index old
            before (start old before) next (calm next List.mem_cons_self)
          rw [found] at here
          rwa [Option.some.inj here]

section Served

variable {start : InMemoryStorage} {stop : StopRequested} {front back : List WorkerTurn}

/-- **Every client is served to its end.**  At any moment of any interleaving, with as many
turns of its worker as are left, however the others' turns fall between them: if no stop is
requested and nothing disturbs the connection, `serveClient` has returned OK, it has executed
all lines that the client sent, and has answered each of them as the map did at its place
among the lines of all clients. -/
theorem every_client_served {index : Nat} {worker : ClientWorker InMemoryStorage}
    (thread : ((initial start stop).after (localPipeline InMemoryStorage) options
      front).threads[index]? = some worker)
    (calm : ∀ next ∈ front ++ back, next ≠ .throws index)
    (enough : worker.serving.left ≤ back.countP (isTurnOf index)) {connection : Socket}
    (connected : ((initial start stop).after (localPipeline InMemoryStorage) options
      front).accepted[worker.client]? = some connection)
    (undisturbed : Undisturbed options connection)
    (running : ((initial start stop).after (localPipeline InMemoryStorage) options
      (front ++ back)).stop.poll.1 = false) :
    let later := (initial start stop).after (localPipeline InMemoryStorage) options (front ++ back)
    ∃ entry, later.threads[index]? = some entry ∧ entry.serving.point = .returned .ok ∧
      entry.serving.session.lines = commandLines (clientStream connection.incoming) ∧
      entry.serving.session.output =
        ((Machine.told MapMachine.step worker.client start.values later.executed).map
          fun told => told.2.render).flatten := by
  intro later
  have split : later = ((initial start stop).after (localPipeline InMemoryStorage) options
      front).after (localPipeline InMemoryStorage) options back := Machine.after_append _ _ _ _
  have attends := @attends_after InMemoryStorage (localPipeline InMemoryStorage) options
    (initial start stop) index (fun _ found => by cases found) front
    (fun next member => calm next (List.mem_append_left _ member)) worker thread
  obtain ⟨entry, status, found, client, returned⟩ :=
    returns_of_turns thread attends (fun next member => calm next (List.mem_append_right _ member))
      enough
  rw [← split] at found
  have grown := @after_accepted _ (localPipeline InMemoryStorage) options
    ((initial start stop).after (localPipeline InMemoryStorage) options front) back
  have still : later.accepted[entry.client]? = some connection := by
    obtain ⟨more, same⟩ := grown
    obtain ⟨inside, -⟩ := List.getElem?_eq_some_iff.1 connected
    rw [split, ← same, client, List.getElem?_append_left inside]
    exact connected
  have flows := after_flowing (localPipeline InMemoryStorage) options start stop (front ++ back)
    running index entry found connection still undisturbed
  have answered := (after_answered (localPipeline InMemoryStorage) options start stop
    (front ++ back) index entry found).trans
      (told_localPipeline entry.client start later.executed).1
  have progresses := flows.progresses
  rw [Serving.Progresses, returned] at progresses
  refine ⟨entry, found, by rw [returned, progresses.1], progresses.2, ?_⟩
  rw [flows.output, answered, client, List.map_map]
  rfl

end Served

/-- A client has been given its worker. -/
def admitted : List WorkerTurn :=
  [.main, .main, .main, .accept (.accepted setRequest), .main, .main, .main]

def admittedWorker : ClientWorker InMemoryStorage :=
  ((initial .empty .never).after (localPipeline InMemoryStorage) {} admitted).threads[0]?.get
    (by decide)

theorem every_client_served_set :
    let later := (initial .empty .never).after (localPipeline InMemoryStorage) {}
      (admitted ++ (List.replicate 10 [.worker 0, .main]).flatten)
    ∃ entry, later.threads[0]? = some entry ∧ entry.serving.point = .returned .ok ∧
      entry.serving.session.output = bytes "+OK\r\n" := by
  have calm : ∀ next ∈ admitted ++ (List.replicate 10 [.worker 0, .main]).flatten,
      next ≠ .throws 0 := by
    intro next member
    rcases List.mem_append.1 member with first | second
    · simp only [admitted, List.mem_cons, List.not_mem_nil, or_false] at first
      rcases first with rfl | rfl | rfl | rfl | rfl | rfl | rfl <;> simp
    · obtain ⟨block, inside, turn⟩ := List.mem_flatten.1 second
      rw [List.eq_of_mem_replicate inside] at turn
      rcases List.mem_pair.1 turn with rfl | rfl <;> simp
  have thread : ((initial .empty .never).after (localPipeline InMemoryStorage) {}
      admitted).threads[0]? = some admittedWorker := (Option.some_get _).symm
  obtain ⟨entry, found, returned, -, output⟩ := @every_client_served {} .empty .never admitted
    (List.replicate 10 [.worker 0, .main]).flatten 0 admittedWorker thread calm (by decide)
    setRequest.socket (by rfl) ⟨by decide, by decide⟩ (by decide)
  refine ⟨entry, found, returned, output.trans ?_⟩
  decide

end Workers

end AsterKV.Network
