/-
# AsterKV.Network.RealTime -- who was served before whom

The order in which the workers execute the lines of all clients agrees with the clock:
the lines of a client whose worker is through stand before all lines of a client that is
accepted later (`served_in_real_time`).  So the order of `workers_refine_map` is one that
the clients cannot tell from what they saw.

`Through` is kept by every turn, and a client that is through executes nothing any more.
Who `Precedes` whom is a strict order, which the executed lines keep.
-/
import AsterKV.Network.ConcurrentRequests

namespace AsterKV.Network

open AsterKV.Core AsterKV.Pipeline AsterKV.Storage
open Theory

set_option autoImplicit false

variable {σ : Type} {pipeline : LinePipeline σ} {options : TcpLineServerOptions}

namespace Workers

/-- `serveClient` has returned or thrown for this client. -/
def Through (system : Workers σ) (client : Nat) : Prop :=
  ∃ (index : Nat) (worker : ClientWorker σ), system.threads[index]? = some worker ∧
    worker.client = client ∧
    (worker.point = .serving → ∃ status, worker.serving.point = .returned status)

/-- Nothing of the client is executed between two states. -/
def Silent (client : Nat) (before after : Workers σ) : Prop :=
  ∃ more, after.executed = before.executed ++ more ∧ ∀ entry ∈ more, entry.1 ≠ client

theorem Silent.of_same {client : Nat} {before after : Workers σ}
    (same : after.executed = before.executed) : Silent client before after :=
  ⟨[], by rw [same, List.append_nil], fun _ member => absurd member List.not_mem_nil⟩

section Turns

variable {before after : Workers σ} {client : Nat}

theorem Through.same (through : before.Through client) (threads : after.threads = before.threads) :
    after.Through client := by
  obtain ⟨index, worker, thread, own, ended⟩ := through
  exact ⟨index, worker, threads ▸ thread, own, ended⟩

/-- A thread changes, but not in what its client has of it. -/
theorem Through.thread (through : before.Through client) {index : Nat}
    {worker next : ClientWorker σ} (thread : before.threads[index]? = some worker)
    (threads : after.threads = before.threads.set index next) (sender : next.client = worker.client)
    (point : next.point = .serving → worker.point = .serving)
    (serving : next.serving = worker.serving) : after.Through client := by
  obtain ⟨place, entry, found, own, ended⟩ := through
  obtain ⟨bound, -⟩ := List.getElem?_eq_some_iff.1 thread
  by_cases here : index = place
  · subst here
    rw [thread] at found
    obtain rfl := Option.some.inj found
    refine ⟨index, next, ?_, sender.trans own, fun still => ?_⟩
    · rw [threads, List.getElem?_set_self bound]
    · rw [serving]
      exact ended (point still)
  · refine ⟨place, entry, ?_, own, ended⟩
    rw [threads, List.getElem?_set_ne here]
    exact found

/-- A step of a `serveClient` executes nothing for a client that is through. -/
theorem Through.served (through : before.Through client) (handled : before.Handled) {index : Nat}
    {worker : ClientWorker σ} {serving : Serving σ}
    (thread : before.threads[index]? = some worker) (inside : worker.point = .serving)
    (step : serving =
      serveStep pipeline options (worker.serving.resumed before.storage before.stop))
    (threads : after.threads = before.threads.set index { worker with serving })
    (executed : after.executed = before.executed ++
      (newLines worker.serving.session serving.session).map (worker.client, ·)) :
    after.Through client ∧ Silent client before after := by
  obtain ⟨place, entry, found, own, ended⟩ := through
  obtain ⟨bound, -⟩ := List.getElem?_eq_some_iff.1 thread
  by_cases here : index = place
  · subst here
    rw [thread] at found
    obtain rfl := Option.some.inj found
    obtain ⟨status, returned⟩ := ended inside
    have still : serving = worker.serving.resumed before.storage before.stop := by
      have point : (worker.serving.resumed before.storage before.stop).point = .returned status :=
        returned
      rw [step, serveStep]
      simp only [point]
    have nothing : newLines worker.serving.session serving.session = [] := by
      rw [still]
      exact List.drop_length
    refine ⟨⟨index, { worker with serving }, ?_, own, fun _ => ⟨status, ?_⟩⟩, .of_same ?_⟩
    · rw [threads, List.getElem?_set_self bound]
    · rw [still]
      exact returned
    · rw [executed, nothing, List.map_nil, List.append_nil]
  · refine ⟨⟨place, entry, ?_, own, ended⟩, _, executed, fun line member => ?_⟩
    · rw [threads, List.getElem?_set_ne here]
      exact found
    · obtain ⟨text, -, rfl⟩ := List.mem_map.1 member
      rw [← own]
      exact handled.client_ne found thread here

/-- **A client that is through stays so, and executes nothing.** -/
theorem Effect.through {next : WorkerTurn} (effect : Effect pipeline options before next after)
    (handled : before.Handled) (through : before.Through client) :
    after.Through client ∧ Silent client before after := by
  cases effect with
  | stay | move | stop | fail | accept | refuse | grant | increment | finish =>
      exact ⟨through.same rfl, .of_same rfl⟩
  | spawn other socket main =>
      obtain ⟨index, worker, thread, own, ended⟩ := through
      obtain ⟨bound, -⟩ := List.getElem?_eq_some_iff.1 thread
      refine ⟨⟨index, worker, ?_, own, ended⟩, .of_same rfl⟩
      exact (List.getElem?_append_left bound).trans thread
  | reap position index worker joined main slot thread join =>
      rw [ClientWorker.join_eq join]
      exact ⟨through.thread thread rfl rfl id rfl, .of_same rfl⟩
  | join position index status worker joined main slot thread join =>
      rw [ClientWorker.join_eq join]
      exact ⟨through.thread thread rfl rfl id rfl, .of_same rfl⟩
  | serve index worker serving thread point served =>
      exact through.served handled thread point served rfl rfl
  | leave index worker thread point | decrement index worker thread point
  | finishThread index worker thread point | endThread index worker thread point =>
      exact ⟨through.thread thread rfl rfl (fun still => by cases still) rfl, .of_same rfl⟩

end Turns

variable (pipeline options)

theorem after_through {start : σ} {system : Workers σ} (sound : system.Sound pipeline options start)
    {client : Nat} (through : system.Through client) (schedule : List WorkerTurn) :
    (system.after pipeline options schedule).Through client ∧
      Silent client system (system.after pipeline options schedule) := by
  have kept := @after_invariant σ pipeline options
    (fun later => later.Sound pipeline options start ∧ later.Through client ∧
      Silent client system later)
    (fun effect known => by
      obtain ⟨sound, through, more, executed, others⟩ := known
      obtain ⟨still, added, grown, silent⟩ := effect.through sound.handled through
      refine ⟨sound.effect effect, still, more ++ added, ?_, fun entry member => ?_⟩
      · rw [grown, executed, List.append_assoc]
      · rcases List.mem_append.1 member with old | new
        · exact others entry old
        · exact silent entry new)
    system ⟨sound, through, .of_same rfl⟩ schedule
  exact kept.2

/-- Whoever executed a line was accepted. -/
theorem Sound.client_lt {pipeline : LinePipeline σ} {options : TcpLineServerOptions} {start : σ}
    {system : Workers σ} (sound : system.Sound pipeline options start) {entry : Nat × Bytes}
    (member : entry ∈ system.executed) : entry.1 < system.accepted.length := by
  obtain ⟨worker, thread, own⟩ := sound.recorded.known entry member
  obtain ⟨index, found⟩ := List.mem_iff_getElem?.1 thread
  obtain ⟨socket, serves⟩ := sound.recorded.serves index worker found
  rw [← own]
  exact (List.getElem?_eq_some_iff.1 serves.accepted).1

/-- A worker is there for a client that was accepted. -/
theorem Through.client_lt {pipeline : LinePipeline σ} {options : TcpLineServerOptions} {start : σ}
    {system : Workers σ} (sound : system.Sound pipeline options start) {client : Nat}
    (through : system.Through client) : client < system.accepted.length := by
  obtain ⟨index, worker, thread, own, -⟩ := through
  obtain ⟨socket, serves⟩ := sound.recorded.serves index worker thread
  rw [← own]
  exact (List.getElem?_eq_some_iff.1 serves.accepted).1

/-- At some moment of the schedule the first client's worker is through, and the second
client has not been accepted. -/
def Precedes (start : σ) (stop : StopRequested) (schedule : List WorkerTurn)
    (first second : Nat) : Prop :=
  ∃ front back, schedule = front ++ back ∧
    ((initial start stop).after pipeline options front).Through first ∧
    ((initial start stop).after pipeline options front).accepted.length ≤ second

section Precedes

variable {pipeline options} {start : σ} {stop : StopRequested} {schedule : List WorkerTurn}
  {first second third : Nat}

theorem Precedes.lt (precedes : Precedes pipeline options start stop schedule first second) :
    first < second := by
  obtain ⟨front, back, -, through, later⟩ := precedes
  exact Nat.lt_of_lt_of_le (through.client_lt (after_sound pipeline options start stop front)) later

/-- Who precedes a second client precedes those whom the second one precedes. -/
theorem Precedes.trans (early : Precedes pipeline options start stop schedule first second)
    (late : Precedes pipeline options start stop schedule second third) :
    Precedes pipeline options start stop schedule first third := by
  obtain ⟨front, back, split, through, notYet⟩ := early
  obtain ⟨moment, rest, whole, secondThrough, later⟩ := late
  have sound := fun front => after_sound pipeline options start stop front
  have accepted := secondThrough.client_lt (sound moment)
  rcases List.prefix_or_prefix_of_prefix ⟨back, split.symm⟩ ⟨rest, whole.symm⟩ with
    ⟨more, rfl⟩ | ⟨more, rfl⟩
  · refine ⟨front ++ more, rest, whole, ?_, later⟩
    rw [after, Machine.after_append]
    exact (after_through pipeline options (sound front) through more).1
  · -- the second client is accepted where its worker is through
    have grown := (after_accepted pipeline options
      ((initial start stop).after pipeline options moment) more).length_le
    rw [after, Machine.after_append] at notYet
    exact absurd (Nat.lt_of_lt_of_le accepted (Nat.le_trans grown notYet)) (Nat.lt_irrefl _)

/-- No line of a client stands before one of a client that precedes it. -/
theorem Precedes.ordered (precedes : Precedes pipeline options start stop schedule first second) :
    Machine.Ordered ((initial start stop).after pipeline options schedule).executed first second := by
  refine ⟨Nat.ne_of_lt precedes.lt, ?_⟩
  obtain ⟨front, back, rfl, through, later⟩ := precedes
  have sound := after_sound pipeline options start stop front
  obtain ⟨-, more, grown, silent⟩ := after_through pipeline options sound through back
  have split : ((initial start stop).after pipeline options (front ++ back)).executed =
      ((initial start stop).after pipeline options front).executed ++ more := by
    rw [← grown]
    exact congrArg Workers.executed (Machine.after_append _ _ front back)
  have early : ∀ entry ∈ ((initial start stop).after pipeline options front).executed,
      entry.1 ≠ second := by
    intro entry member
    have accepted := sound.client_lt member
    omega
  rw [split]
  refine List.pairwise_append.2 ⟨?_, ?_, fun entry member other _ both => early entry member both.1⟩
  · exact List.pairwise_of_forall_mem_list fun entry member other _ both =>
      early entry member both.1
  · exact List.pairwise_of_forall_mem_list fun entry _ other member both =>
      silent other member both.2

end Precedes

/-- **The executed order agrees with the clock.**  At some moment a client's worker is
through and another client has not been accepted: at every later moment of every
interleaving, all lines of the first stand before all lines of the second. -/
theorem served_in_real_time (start : σ) (stop : StopRequested) (front back : List WorkerTurn)
    {first second : Nat}
    (through : ((initial start stop).after pipeline options front).Through first)
    (later : ((initial start stop).after pipeline options front).accepted.length ≤ second) :
    let executed := ((initial start stop).after pipeline options (front ++ back)).executed
    ∀ (i j : Nat) (entry other : Nat × Bytes), executed[i]? = some entry →
      executed[j]? = some other → entry.1 = first → other.1 = second → i < j := by
  intro executed i j entry other here there own others
  have precedes : Precedes pipeline options start stop (front ++ back) first second :=
    ⟨front, back, rfl, through, later⟩
  obtain ⟨ne, order⟩ := precedes.ordered
  obtain ⟨inside, rfl⟩ := List.getElem?_eq_some_iff.1 here
  obtain ⟨bound, rfl⟩ := List.getElem?_eq_some_iff.1 there
  rcases Nat.lt_trichotomy i j with before | rfl | behind
  · exact before
  · exact absurd (own.symm.trans others) ne
  · exact absurd ⟨others, own⟩ (List.pairwise_iff_getElem.1 order j i bound inside behind)

/-- A set is through before the get is accepted. -/
def setServed : List WorkerTurn :=
  [.main, .main, .main, .accept (.accepted setRequest), .main, .main, .main] ++
    List.replicate 10 (.worker 0)

def thenGet : List WorkerTurn :=
  [.main, .main, .main, .main, .accept (.accepted getRequest), .main, .main, .main] ++
    List.replicate 4 (.worker 1)

def afterSet : Workers InMemoryStorage :=
  (initial .empty .never).after (localPipeline InMemoryStorage) {} setServed

def setWorker : ClientWorker InMemoryStorage := afterSet.threads[0]?.get (by decide)

theorem served_in_real_time_set_get :
    let executed := ((initial .empty .never).after (localPipeline InMemoryStorage) {}
      (setServed ++ thenGet)).executed
    executed = [(0, bytes "SET k v"), (1, bytes "GET k")] ∧
      executed.idxOf (0, bytes "SET k v") < executed.idxOf (1, bytes "GET k") := by
  have through : afterSet.Through 0 :=
    ⟨0, setWorker, (Option.some_get _).symm, by decide, fun _ => ⟨.ok, by decide⟩⟩
  have notYet : afterSet.accepted.length ≤ 1 := by decide
  refine ⟨by decide, ?_⟩
  exact served_in_real_time (localPipeline InMemoryStorage) {} .empty .never setServed thenGet
    through notYet _ _ (0, bytes "SET k v") (1, bytes "GET k") (by decide) (by decide) rfl rfl

end Workers

end AsterKV.Network
