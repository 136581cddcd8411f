/-
# AsterKV.Network.WorkerCounts -- what run keeps of its workers

What holds in every interleaving of `run` with its workers, each an invariant of its own:

* `Counted` -- the counter is the number of workers that have not decremented, and one
  between an increment and its spawn; it stays within the limit;
* `Handled` -- a client is held by `run`, refused, or one worker's, never two of these;
* `Joinable` -- the threads that have not been joined are those with a slot still to go.
-/
import AsterKV.Network.Workers
import AsterKV.Theory.Slots

namespace AsterKV.Network

open AsterKV.Core AsterKV.Pipeline
open Theory

set_option autoImplicit false

variable {σ : Type} (pipeline : LinePipeline σ) (options : TcpLineServerOptions)

/-- The worker has not left the count. -/
def ClientWorker.isCounted (worker : ClientWorker σ) : Bool :=
  match worker.point with
  | .serving => true
  | .decrementing => true
  | .finishing => false
  | .ending => false
  | .ended => false

def ClientWorker.isServing (worker : ClientWorker σ) : Bool :=
  match worker.point with
  | .serving => true
  | _ => false

namespace Workers

/-! ## The counter -/

/-- The workers that were spawned and have not decremented. -/
def notDecremented (system : Workers σ) : Nat := system.threads.countP ClientWorker.isCounted

/-- The clients that are being served. -/
def served (system : Workers σ) : Nat := system.threads.countP ClientWorker.isServing

theorem served_le_notDecremented (system : Workers σ) : system.served ≤ system.notDecremented := by
  refine List.countP_mono_left ?_
  intro worker _ serving
  unfold ClientWorker.isServing at serving
  unfold ClientWorker.isCounted
  split at serving
  · next point => rw [point]
  · cases serving

structure Counted (system : Workers σ) : Prop where
  counter : system.activeClientWorkers.toNat =
    system.notDecremented + system.main.hand.incremented
  within : system.activeClientWorkers.toNat ≤ options.maxClientWorkers.toNat
  room : ∀ client clientFd, system.main.hand = .granted client clientFd →
    system.activeClientWorkers < options.maxClientWorkers
  full : ∀ refusal ∈ system.refused, refusal.activeClientWorkers = options.maxClientWorkers

theorem notDecremented_set {system : Workers σ} {index : Nat} {worker : ClientWorker σ}
    (thread : system.threads[index]? = some worker) (next : ClientWorker σ) :
    (system.setThread index next).notDecremented + worker.isCounted.toNat =
      system.notDecremented + next.isCounted.toNat :=
  Slots.countP_set ClientWorker.isCounted thread next

/-- A thread that moves within the count, or outside of it, leaves it. -/
theorem notDecremented_same {system : Workers σ} {index : Nat} {worker next : ClientWorker σ}
    (thread : system.threads[index]? = some worker) (same : next.isCounted = worker.isCounted) :
    (system.setThread index next).notDecremented = system.notDecremented := by
  have exchange := notDecremented_set thread next
  rw [same] at exchange
  omega

/-- `join` counts the joins and changes nothing else. -/
theorem ClientWorker.join_eq {worker joined : ClientWorker σ} (join : worker.join = some joined) :
    joined = { worker with joins := joined.joins } := by
  unfold ClientWorker.join at join
  split at join
  · split at join
    · cases join
      rfl
    · cases join
  · cases join
    rfl

theorem ClientWorker.join_isCounted {worker joined : ClientWorker σ}
    (join : worker.join = some joined) : joined.isCounted = worker.isCounted := by
  rw [join_eq join]
  rfl

theorem counted_initial (storage : σ) (stop : StopRequested) :
    (initial storage stop).Counted options := by
  refine ⟨rfl, Nat.zero_le _, ?_, ?_⟩
  · intro client clientFd granted
    cases granted
  · intro refusal member
    cases member

variable {pipeline options}

/-- A change that leaves the counter, the count and what `run` holds. -/
theorem Counted.same {before after : Workers σ} (known : before.Counted options)
    (counter : after.activeClientWorkers = before.activeClientWorkers)
    (count : after.notDecremented = before.notDecremented)
    (hand : after.main.hand = before.main.hand) (refused : after.refused = before.refused) :
    after.Counted options := by
  obtain ⟨total, within, room, full⟩ := known
  refine ⟨?_, ?_, ?_, ?_⟩
  · rw [counter, count, hand, total]
  · rw [counter]
    exact within
  · rw [counter, hand]
    exact room
  · rw [refused]
    exact full

theorem Counted.effect {before after : Workers σ} {next : WorkerTurn}
    (effect : Effect pipeline options before next after) (known : before.Counted options) :
    after.Counted options := by
  have ⟨total, within, room, full⟩ := known
  cases effect with
  | stay => exact known
  | move main stop refusals quiet leaves lasts => exact known.same rfl rfl quiet.hand rfl
  | stop main quiet leaves => exact known.same rfl rfl quiet.hand rfl
  | fail outcome status main unusable =>
      refine known.same rfl rfl ?_ rfl
      rw [main]
      rfl
  | accept client main configured =>
      rw [main] at total
      exact ⟨total, within, fun client clientFd granted => (by cases granted), full⟩
  | refuse client socket main noRoom =>
      rw [main] at total
      refine ⟨total, within, fun client clientFd granted => (by cases granted), ?_⟩
      intro refusal member
      rcases List.mem_append.1 member with old | new
      · exact full refusal old
      · rw [List.mem_singleton.1 new]
        rw [UInt64.lt_iff_toNat_lt] at noRoom
        exact UInt64.toNat_inj.1 (show before.activeClientWorkers.toNat = _ by omega)
  | grant client socket main below =>
      rw [main] at total
      exact ⟨total, within, fun _ _ _ => below, full⟩
  | increment client socket main =>
      have below := UInt64.lt_iff_toNat_lt.1 (room client socket (by rw [main]; rfl))
      rw [main] at total
      have more :
          (before.activeClientWorkers + 1).toNat = before.activeClientWorkers.toNat + 1 := by
        have size := options.maxClientWorkers.toNat_lt
        rw [UInt64.toNat_add, UInt64.toNat_one, Nat.mod_eq_of_lt (by omega)]
      refine ⟨?_, ?_, fun client clientFd granted => (by cases granted), full⟩
      · show (before.activeClientWorkers + 1).toNat = before.notDecremented + 1
        rw [more, total]
        rfl
      · show (before.activeClientWorkers + 1).toNat ≤ _
        omega
  | spawn client socket main =>
      rw [main] at total
      refine ⟨?_, within, fun client clientFd granted => (by cases granted), full⟩
      show before.activeClientWorkers.toNat = (before.threads ++ [_]).countP _ + 0
      rw [List.countP_append, total]
      rfl
  | reap position index worker joined main slot thread join =>
      refine known.same rfl (notDecremented_same thread (ClientWorker.join_isCounted join)) ?_ rfl
      rw [main]
      rfl
  | join position index status worker joined main slot thread join =>
      refine known.same rfl (notDecremented_same thread (ClientWorker.join_isCounted join)) ?_ rfl
      rw [main]
      rfl
  | finish position status main through =>
      refine known.same rfl rfl ?_ rfl
      rw [main]
      rfl
  | serve index worker serving thread point served =>
      exact known.same rfl (notDecremented_same thread rfl) rfl rfl
  | leave index worker thread point =>
      refine known.same rfl (notDecremented_same thread ?_) rfl rfl
      simp only [ClientWorker.isCounted, point]
  | decrement index worker thread point =>
      have exchange := notDecremented_set thread { worker with point := .finishing }
      simp only [ClientWorker.isCounted, point, Bool.toNat_true, Bool.toNat_false] at exchange
      have less :
          (before.activeClientWorkers - 1).toNat = before.activeClientWorkers.toNat - 1 := by
        rw [UInt64.toNat_sub_of_le, UInt64.toNat_one]
        rw [UInt64.le_iff_toNat_le, UInt64.toNat_one]
        omega
      refine ⟨?_, ?_, ?_, full⟩
      · show (before.activeClientWorkers - 1).toNat =
          (before.setThread index _).notDecremented + before.main.hand.incremented
        omega
      · show (before.activeClientWorkers - 1).toNat ≤ _
        omega
      · intro client clientFd granted
        have below := UInt64.lt_iff_toNat_lt.1 (room client clientFd granted)
        show before.activeClientWorkers - 1 < _
        rw [UInt64.lt_iff_toNat_lt]
        omega
  | finishThread index worker thread point =>
      refine known.same rfl (notDecremented_same thread ?_) rfl rfl
      simp only [ClientWorker.isCounted, point]
  | endThread index worker thread point =>
      refine known.same rfl (notDecremented_same thread ?_) rfl rfl
      simp only [ClientWorker.isCounted, point]

/-! ## Each client once -/

/-- Every accepted client is one worker's, or refused, or held by `run`. -/
def Handled (system : Workers σ) : Prop :=
  (system.threads.map ClientWorker.client ++ system.refused.map Refusal.client ++
    system.main.hand.clients).Perm (List.range system.accepted.length)

theorem handled_initial (storage : σ) (stop : StopRequested) : (initial storage stop).Handled :=
  List.Perm.refl _

/-- A change that keeps who has which client. -/
theorem Handled.same {before after : Workers σ} (known : before.Handled)
    (threads : after.threads.map ClientWorker.client = before.threads.map ClientWorker.client)
    (refused : after.refused = before.refused) (accepted : after.accepted = before.accepted)
    (hand : after.main.hand.clients = before.main.hand.clients) : after.Handled := by
  unfold Handled
  rw [threads, refused, accepted, hand]
  exact known

theorem ClientWorker.join_client {worker joined : ClientWorker σ}
    (join : worker.join = some joined) : joined.client = worker.client := by
  rw [join_eq join]

theorem Handled.effect {before after : Workers σ} {next : WorkerTurn}
    (effect : Effect pipeline options before next after) (known : before.Handled) :
    after.Handled := by
  cases effect with
  | stay => exact known
  | move main stop refusals quiet leaves lasts =>
      exact known.same rfl rfl rfl (congrArg Hand.clients quiet.hand)
  | stop main quiet leaves => exact known.same rfl rfl rfl (congrArg Hand.clients quiet.hand)
  | fail outcome status main unusable =>
      refine known.same rfl rfl rfl ?_
      rw [main]
      rfl
  | accept client main configured =>
      unfold Handled at known ⊢
      rw [main] at known
      simp only [MainPoint.hand, Hand.clients_empty, List.append_nil] at known
      simp only [MainPoint.hand, Hand.clients_checking, List.length_append, List.length_singleton]
      rw [List.range_succ]
      exact known.append_right _
  | refuse client socket main full =>
      unfold Handled at known ⊢
      rw [main] at known
      simp only [MainPoint.hand, Hand.clients_checking, Hand.clients_empty, List.map_append,
        List.map_cons, List.map_nil, List.append_nil] at known ⊢
      rw [← List.append_assoc]
      exact known
  | grant client socket main below =>
      refine known.same rfl rfl rfl ?_
      rw [main]
      rfl
  | increment client socket main =>
      refine known.same rfl rfl rfl ?_
      rw [main]
      rfl
  | spawn client socket main =>
      unfold Handled at known ⊢
      rw [main] at known
      simp only [MainPoint.hand, Hand.clients_counted, Hand.clients_empty, List.map_append,
        List.map_cons, List.map_nil, List.append_nil] at known ⊢
      refine List.Perm.trans ?_ known
      rw [List.append_assoc, List.append_assoc]
      exact List.perm_append_comm.append_left _
  | reap position index worker joined main slot thread join =>
      refine known.same (Slots.map_set thread (ClientWorker.join_client join)) rfl rfl ?_
      rw [main]
      rfl
  | join position index status worker joined main slot thread join =>
      refine known.same (Slots.map_set thread (ClientWorker.join_client join)) rfl rfl ?_
      rw [main]
      rfl
  | finish position status main through =>
      refine known.same rfl rfl rfl ?_
      rw [main]
      rfl
  | serve index worker serving thread point served =>
      exact known.same (Slots.map_set thread rfl) rfl rfl rfl
  | leave index worker thread point => exact known.same (Slots.map_set thread rfl) rfl rfl rfl
  | decrement index worker thread point => exact known.same (Slots.map_set thread rfl) rfl rfl rfl
  | finishThread index worker thread point =>
      exact known.same (Slots.map_set thread rfl) rfl rfl rfl
  | endThread index worker thread point => exact known.same (Slots.map_set thread rfl) rfl rfl rfl

/-- A refused client has no worker. -/
theorem Handled.refused_ne {system : Workers σ} (known : system.Handled) {refusal : Refusal}
    (refused : refusal ∈ system.refused) {worker : ClientWorker σ}
    (thread : worker ∈ system.threads) : worker.client ≠ refusal.client := by
  have distinct := known.nodup_iff.2 List.nodup_range
  have apart := (List.nodup_append.1 (List.nodup_append.1 distinct).1).2.2
  exact apart _ (List.mem_map_of_mem thread) _ (List.mem_map_of_mem refused)

/-! ## Joining -/

/-- The slots whose threads `run` has still to join. -/
def unjoined (system : Workers σ) : List Nat := system.slots.drop system.main.joined

structure Joinable (system : Workers σ) : Prop where
  nodup : system.slots.Nodup
  inside : ∀ index ∈ system.slots, index < system.threads.length
  joins : ∀ (index : Nat) (worker : ClientWorker σ), system.threads[index]? = some worker →
    worker.joins = if index ∈ system.unjoined then 0 else 1
  ended : ∀ (index : Nat) (worker : ClientWorker σ), system.threads[index]? = some worker →
    worker.joins ≠ 0 → worker.point = .ended
  done : system.main.isReturned = true → system.slots = []

theorem joinable_initial (storage : σ) (stop : StopRequested) :
    (initial storage stop).Joinable := by
  refine ⟨List.nodup_nil, ?_, ?_, ?_, ?_⟩
  · intro index member
    cases member
  · intro index worker found
    cases found
  · intro index worker found
    cases found
  · intro returned
    cases returned

/-- The thread of an unjoined slot is joined once it has ended. -/
theorem ClientWorker.join_unjoined {worker joined : ClientWorker σ}
    (join : worker.join = some joined) (unjoined : worker.joins = 0) :
    worker.point = .ended ∧ joined = { worker with joins := 1 } := by
  unfold ClientWorker.join at join
  rw [if_pos unjoined] at join
  split at join
  · next ended =>
      cases join
      rw [unjoined]
      exact ⟨ended, rfl⟩
  · cases join

/-- A change of one thread that is not joined. -/
theorem Joinable.setThread {before after : Workers σ} (known : before.Joinable) {index : Nat}
    {worker next : ClientWorker σ} (thread : before.threads[index]? = some worker)
    (threads : after.threads = before.threads.set index next)
    (main : after.main = before.main) (slots : after.slots = before.slots)
    (joins : next.joins = worker.joins) (running : worker.point ≠ .ended) : after.Joinable := by
  have unjoined : after.unjoined = before.unjoined := by
    unfold Workers.unjoined
    rw [main, slots]
  refine ⟨?_, ?_, ?_, ?_, ?_⟩
  · rw [slots]
    exact known.nodup
  · rw [slots, threads, List.length_set]
    exact known.inside
  · intro place entry found
    rw [threads] at found
    rw [unjoined]
    rcases Slots.getElem?_set thread found with ⟨rfl, rfl⟩ | ⟨-, old⟩
    · rw [joins]
      exact known.joins place worker thread
    · exact known.joins place entry old
  · intro place entry found joined
    rw [threads] at found
    rcases Slots.getElem?_set thread found with ⟨rfl, rfl⟩ | ⟨-, old⟩
    · rw [joins] at joined
      exact absurd (known.ended place worker thread joined) running
    · exact known.ended place entry old joined
  · rw [main, slots]
    exact known.done

/-- A move of `run` that keeps threads and slots to join. -/
theorem Joinable.same {before after : Workers σ} (known : before.Joinable)
    (threads : after.threads = before.threads) (slots : after.slots = before.slots)
    (joined : after.main.joined = before.main.joined) (goesOn : after.main.isReturned = false) :
    after.Joinable := by
  have unjoined : after.unjoined = before.unjoined := by
    unfold Workers.unjoined
    rw [joined, slots]
  refine ⟨?_, ?_, ?_, ?_, ?_⟩
  · rw [slots]
    exact known.nodup
  · rw [slots, threads]
    exact known.inside
  · rw [threads, unjoined]
    exact known.joins
  · rw [threads]
    exact known.ended
  · intro returned
    rw [goesOn] at returned
    cases returned

/-- A slot's thread is joined, and with it the slot is through. -/
theorem Joinable.joined {before after : Workers σ} (known : before.Joinable) {index : Nat}
    {worker joined : ClientWorker σ} (thread : before.threads[index]? = some worker)
    (member : index ∈ before.unjoined) (join : worker.join = some joined)
    (threads : after.threads = before.threads.set index joined)
    (sublist : after.slots.Sublist before.slots)
    (through : ∀ other, other ∈ after.unjoined ↔ other ∈ before.unjoined ∧ other ≠ index)
    (goesOn : after.main.isReturned = false) : after.Joinable := by
  have zero : worker.joins = 0 := by
    rw [known.joins index worker thread, if_pos member]
  obtain ⟨ended, rfl⟩ := ClientWorker.join_unjoined join zero
  refine ⟨known.nodup.sublist sublist, ?_, ?_, ?_, ?_⟩
  · intro other slot
    rw [threads, List.length_set]
    exact known.inside other (sublist.subset slot)
  · intro place entry found
    rw [threads] at found
    rcases Slots.getElem?_set thread found with ⟨rfl, rfl⟩ | ⟨elsewhere, old⟩
    · rw [if_neg]
      intro still
      exact ((through place).1 still).2 rfl
    · rw [known.joins place entry old]
      simp only [through, elsewhere, ne_eq, not_false_eq_true, and_true]
  · intro place entry found nonzero
    rw [threads] at found
    rcases Slots.getElem?_set thread found with ⟨rfl, rfl⟩ | ⟨-, old⟩
    · exact ended
    · exact known.ended place entry old nonzero
  · intro returned
    rw [goesOn] at returned
    cases returned

theorem Joinable.spawned {before after : Workers σ} (known : before.Joinable)
    {worker : ClientWorker σ} (fresh : worker.joins = 0)
    (threads : after.threads = before.threads ++ [worker])
    (slots : after.slots = before.slots ++ [before.threads.length])
    (here : before.main.joined = 0) (joined : after.main.joined = 0)
    (goesOn : after.main.isReturned = false) : after.Joinable := by
  have oldSlots : before.unjoined = before.slots := by
    rw [unjoined, here, List.drop_zero]
  have newSlots : after.unjoined = before.slots ++ [before.threads.length] := by
    rw [unjoined, joined, slots, List.drop_zero]
  have unused : before.threads.length ∉ before.slots := by
    intro member
    exact absurd (known.inside _ member) (Nat.lt_irrefl _)
  refine ⟨?_, ?_, ?_, ?_, ?_⟩
  · rw [slots, List.nodup_append]
    refine ⟨known.nodup, List.nodup_singleton _, ?_⟩
    rintro old member new last rfl
    rw [List.mem_singleton] at last
    rw [last] at member
    exact unused member
  · intro index member
    rw [slots, List.mem_append, List.mem_singleton] at member
    rw [threads, List.length_append, List.length_singleton]
    rcases member with old | rfl
    · have := known.inside index old
      omega
    · omega
  · intro place entry found
    rw [threads] at found
    rw [newSlots]
    rcases Slots.getElem?_concat found with ⟨rfl, rfl⟩ | ⟨inside, old⟩
    · rw [fresh, if_pos (List.mem_append_right _ (List.mem_singleton_self _))]
    · rw [known.joins place entry old, oldSlots]
      have elsewhere : place ≠ before.threads.length := by omega
      simp only [List.mem_append, List.mem_singleton, elsewhere, or_false]
  · intro place entry found nonzero
    rw [threads] at found
    rcases Slots.getElem?_concat found with ⟨rfl, rfl⟩ | ⟨-, old⟩
    · exact absurd fresh nonzero
    · exact known.ended place entry old nonzero
  · intro returned
    rw [goesOn] at returned
    cases returned

theorem Joinable.effect {before after : Workers σ} {next : WorkerTurn}
    (effect : Effect pipeline options before next after) (known : before.Joinable) :
    after.Joinable := by
  cases effect with
  | stay => exact known
  | move main stop refusals quiet leaves lasts =>
      exact known.same rfl rfl quiet.joined quiet.goesOn
  | stop main quiet leaves => exact known.same rfl rfl quiet.joined quiet.goesOn
  | fail outcome status main unusable =>
      refine known.same rfl rfl ?_ rfl
      rw [main]
      rfl
  | accept client main configured =>
      refine known.same rfl rfl ?_ rfl
      rw [main]
      rfl
  | refuse client socket main full =>
      refine known.same rfl rfl ?_ rfl
      rw [main]
      rfl
  | grant client socket main below =>
      refine known.same rfl rfl ?_ rfl
      rw [main]
      rfl
  | increment client socket main =>
      refine known.same rfl rfl ?_ rfl
      rw [main]
      rfl
  | spawn client socket main =>
      refine known.spawned rfl rfl rfl ?_ rfl rfl
      rw [main]
      rfl
  | reap position index worker joined main slot thread join =>
      have here : before.unjoined = before.slots := by
        rw [unjoined, main]
        rfl
      refine known.joined thread ?_ join rfl (List.eraseIdx_sublist _ _) ?_ rfl
      · rw [here]
        exact List.mem_of_getElem? slot
      · intro other
        rw [here]
        exact Slots.mem_eraseIdx known.nodup slot other
  | join position index status worker joined main slot thread join =>
      have here : before.unjoined = before.slots.drop position := by
        rw [unjoined, main]
        rfl
      refine known.joined thread ?_ join rfl (List.Sublist.refl _) ?_ rfl
      · rw [here]
        refine List.mem_iff_getElem?.2 ⟨0, ?_⟩
        rw [List.getElem?_drop]
        exact slot
      · intro other
        rw [here]
        exact Slots.mem_drop_succ known.nodup slot other
  | finish position status main through =>
      have none : before.unjoined = [] := by
        rw [unjoined, main]
        exact List.drop_eq_nil_of_le through
      refine ⟨List.nodup_nil, ?_, ?_, known.ended, fun _ => rfl⟩
      · intro index member
        cases member
      · intro place entry found
        have joins := known.joins place entry found
        rw [none] at joins
        exact joins
  | serve index worker serving thread point served =>
      refine known.setThread thread rfl rfl rfl rfl ?_
      rw [point]
      decide
  | leave index worker thread point =>
      refine known.setThread thread rfl rfl rfl rfl ?_
      rw [point]
      decide
  | decrement index worker thread point =>
      refine known.setThread thread rfl rfl rfl rfl ?_
      rw [point]
      decide
  | finishThread index worker thread point =>
      refine known.setThread thread rfl rfl rfl rfl ?_
      rw [point]
      decide
  | endThread index worker thread point =>
      refine known.setThread thread rfl rfl rfl rfl ?_
      rw [point]
      decide

end Workers

end AsterKV.Network
