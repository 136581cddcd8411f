/-
# AsterKV.Network.WorkerLimit -- at most maxClientWorkers clients are served

`limit_kept` puts together what the counter, the slots and the executed lines have been
shown to keep in every interleaving of `run` with its workers.
-/
import AsterKV.Network.WorkerLines
import AsterKV.Storage.InMemoryStorage

namespace AsterKV.Network

open AsterKV.Core AsterKV.Pipeline AsterKV.Storage
open Theory

set_option autoImplicit false

variable {σ : Type} {pipeline : LinePipeline σ} {options : TcpLineServerOptions}

namespace Workers

/-! ## The limit -/

/-- All that holds at every moment. -/
structure Sound (pipeline : LinePipeline σ) (options : TcpLineServerOptions) (start : σ)
    (system : Workers σ) : Prop where
  counted : system.Counted options
  handled : system.Handled
  joinable : system.Joinable
  recorded : system.Recorded pipeline start

variable (pipeline options)

theorem after_sound (start : σ) (stop : StopRequested) (schedule : List WorkerTurn) :
    ((initial start stop).after pipeline options schedule).Sound pipeline options start := by
  refine after_invariant pipeline options ?_ ?_ schedule
  · intro before after next effect known
    exact ⟨known.counted.effect effect, known.handled.effect effect, known.joinable.effect effect,
      known.recorded.effect effect known.handled⟩
  · exact ⟨counted_initial options start stop, handled_initial start stop,
      joinable_initial start stop, recorded_initial pipeline start stop⟩

/-- What the limit on client workers means in a state. -/
structure LimitKept (start : σ) (system : Workers σ) : Prop where
  /-- The counter is the number of workers that have not decremented, and one between an
  increment and its spawn. -/
  counter : system.activeClientWorkers.toNat =
    system.notDecremented + system.main.hand.incremented
  /-- A worker that is about to decrement finds a counter it can decrement. -/
  noUnderflow : ∀ worker ∈ system.threads, worker.point = .decrementing →
    system.activeClientWorkers ≠ 0
  served : system.served ≤ options.maxClientWorkers.toNat
  /-- A client is refused when the counter reads the maximum. -/
  refusedAtLimit : ∀ refusal ∈ system.refused,
    refusal.activeClientWorkers = options.maxClientWorkers
  /-- Nothing of a refused client is executed, and no worker has it. -/
  refusedUnheard : ∀ refusal ∈ system.refused, system.executedFor refusal.client = [] ∧
    ∀ worker ∈ system.threads, worker.client ≠ refusal.client
  /-- What is executed for a client are first lines of what it sent. -/
  executed : ∀ client socket, system.accepted[client]? = some socket →
    system.executedFor client <+: commandLines (clientStream socket.incoming)
  /-- The executed lines, and nothing else, made the storage. -/
  storage : system.storage =
    Machine.after pipeline.processLine start (system.executed.map Prod.snd)
  /-- No thread is joined twice, and none before it has ended. -/
  joinedOnce : ∀ worker ∈ system.threads,
    worker.joins ≤ 1 ∧ (worker.joins = 1 → worker.point = .ended)
  /-- When `run` returns every thread has been joined. -/
  returned : ∀ status, system.main = .returned status → system.slots = [] ∧
    ∀ worker ∈ system.threads, worker.joins = 1

variable {pipeline options}

theorem Recorded.executedFor_nil {start : σ} {system : Workers σ}
    (known : system.Recorded pipeline start) {client : Nat}
    (unserved : ∀ worker ∈ system.threads, worker.client ≠ client) :
    system.executedFor client = [] := by
  unfold executedFor
  rw [List.filter_eq_nil_iff.2]
  · rfl
  · intro entry member
    obtain ⟨worker, thread, same⟩ := known.known entry member
    simpa [← same] using unserved worker thread

theorem Recorded.executedFor_prefix {start : σ} {system : Workers σ}
    (known : system.Recorded pipeline start) {client : Nat} {socket : Socket}
    (accepted : system.accepted[client]? = some socket) :
    system.executedFor client <+: commandLines (clientStream socket.incoming) := by
  by_cases has : ∃ worker ∈ system.threads, worker.client = client
  · obtain ⟨worker, thread, rfl⟩ := has
    obtain ⟨index, found⟩ := List.mem_iff_getElem?.1 thread
    obtain ⟨own, serves⟩ := known.serves index worker found
    have same := serves.accepted
    rw [accepted] at same
    cases same
    rw [known.lines index worker found]
    exact serves.lines
  · have unserved : ∀ worker ∈ system.threads, worker.client ≠ client :=
      fun worker thread same => has ⟨worker, thread, same⟩
    rw [known.executedFor_nil unserved]
    exact List.nil_prefix

theorem Sound.limitKept {start : σ} {system : Workers σ}
    (known : system.Sound pipeline options start) : system.LimitKept pipeline options start := by
  obtain ⟨counted, handled, joinable, recorded⟩ := known
  have counter := counted.counter
  have within := counted.within
  refine ⟨counter, ?_, ?_, counted.full, ?_, ?_, recorded.storage, ?_, ?_⟩
  · intro worker thread point zero
    have positive : 0 < system.notDecremented := by
      refine List.countP_pos_iff.2 ⟨worker, thread, ?_⟩
      simp only [ClientWorker.isCounted, point]
    rw [zero, UInt64.toNat_zero] at counter
    omega
  · have := system.served_le_notDecremented
    omega
  · intro refusal refused
    have unserved : ∀ worker ∈ system.threads, worker.client ≠ refusal.client :=
      fun worker thread => handled.refused_ne refused thread
    exact ⟨recorded.executedFor_nil unserved, unserved⟩
  · intro client socket accepted
    exact recorded.executedFor_prefix accepted
  · intro worker thread
    obtain ⟨index, found⟩ := List.mem_iff_getElem?.1 thread
    have joins := joinable.joins index worker found
    refine ⟨?_, fun one => joinable.ended index worker found (by omega)⟩
    rw [joins]
    split <;> omega
  · intro status main
    have empty : system.slots = [] := joinable.done (by rw [main]; rfl)
    refine ⟨empty, fun worker thread => ?_⟩
    obtain ⟨index, found⟩ := List.mem_iff_getElem?.1 thread
    rw [joinable.joins index worker found, unjoined, empty, List.drop_nil, if_neg List.not_mem_nil]

variable (pipeline options)

/-- **The limit on client workers holds in every interleaving** of `run` with its workers,
whatever the clients send, the kernel answers and the callback says, on every way out. -/
theorem limit_kept (start : σ) (stop : StopRequested) (schedule : List WorkerTurn) :
    ((initial start stop).after pipeline options schedule).LimitKept pipeline options start :=
  (after_sound pipeline options start stop schedule).limitKept

-- with one worker allowed, the second of two clients is refused
example : ((initial .empty .never).after (localPipeline InMemoryStorage) { maxClientWorkers := 1 }
    [.main, .main, .main, .accept (.accepted { socket := {} }), .main, .main, .main, .main, .main,
      .main, .main, .accept (.accepted { socket := {} }), .main]).refused = [⟨1, 1⟩] := by decide

end Workers

end AsterKV.Network
