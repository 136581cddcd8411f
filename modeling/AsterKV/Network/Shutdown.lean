/-
# AsterKV.Network.Shutdown -- a stop request ends the server

Once the stop callback answers true, every thread has a bounded amount of work left:
`work` adds up what `run` and its workers have still to do, and every turn that is not a
wait does some of it.  The only wait that is not for another thread is the one in
`accept`.  So fair schedules end `run` with all its threads joined
(`shutdown_completes`).  As long as `accept` does not return they end all workers, and `run`
returns unless the request found it in `accept`; then it stays there (`shutdown_waits`).
-/
import AsterKV.Network.RunStatus
import AsterKV.Network.WorkerLimit
import AsterKV.Theory.Progress

namespace AsterKV.Network

open AsterKV.Core AsterKV.Pipeline AsterKV.Storage
open Theory

set_option autoImplicit false

variable {σ : Type} (pipeline : LinePipeline σ) (options : TcpLineServerOptions)

/-! ## What a thread has still to do -/

/-- What the next `recv` hands over. -/
def nextChunk : List RecvOutcome → Bytes
  | .received chunk _ :: _ => chunk.data
  | _ => []

/-- The steps left in `serveClient`, behind a stop request. -/
def Serving.toGo (serving : Serving σ) : Nat :=
  match serving.point with
  | .returned _ => 0
  | .rest => 1
  | .loopTest => 2
  | .answering => 3 + serving.session.pendingInput.count lineFeed
  | .receiving =>
      4 + (serving.session.pendingInput ++ nextChunk serving.incoming).count lineFeed

def ClientWorker.toGo (worker : ClientWorker σ) : Nat :=
  match worker.point with
  | .serving => 4 + worker.serving.toGo
  | .decrementing => 3
  | .finishing => 2
  | .ending => 1
  | .ended => 0

/-- The steps left to `run`, with this many slots; a client that is still to be given a
worker counts with the worker's steps. -/
def MainPoint.toGo (slots : Nat) : MainPoint → Nat
  | .returned _ => 0
  | .joining position _ => 1 + (slots - position)
  | .loopTest => 2 + slots
  | .acceptTest => 2 + slots
  | .interrupted => 2 + slots
  | .joiningFinished position => 2 + slots + 2 * (slots - position)
  | .reaping position => 3 + slots + 2 * (slots - position)
  | .rejecting _ => 3 + slots
  | .spawning _ _ => 10 + slots
  | .incrementing _ _ => 11 + slots
  | .checking _ _ => 12 + slots
  | .accepting => 13 + slots

def Workers.work (system : Workers σ) : Nat :=
  system.main.toGo system.slots.length + (system.threads.map ClientWorker.toGo).sum

/-- A worker that `run` may still start. -/
def MainPoint.coming : MainPoint → Nat
  | .accepting => 1
  | .checking _ _ => 1
  | .incrementing _ _ => 1
  | .spawning _ _ => 1
  | _ => 0

/-! ## Workers -/

section Serving

variable {pipeline options}

/-- A line leaves the buffer with its line feed. -/
theorem count_nextLine {session : Session σ} (present : lineFeed ∈ session.pendingInput) :
    (session.pendingInput.drop (session.nextLine.length + 1)).count lineFeed + 1 =
      session.pendingInput.count lineFeed := by
  obtain ⟨clean, cut⟩ := cut_at_lineFeed present
  have none := List.count_eq_zero.2 clean
  rw [session.length_nextLine present]
  conv_rhs => rw [cut]
  rw [List.count_append, none, List.count_cons_self, Nat.zero_add]

/-- Behind a stop request an answer of `recv` that brings nothing ends the loop. -/
theorem receiveStep_toGo {session : Session σ} (requested : session.stop.poll.1 = true)
    {outcome : RecvOutcome} (nothing : ∀ chunk now, outcome ≠ .received chunk now)
    (incoming : List RecvOutcome) :
    (receiveStep pipeline options session (outcome :: incoming)).toGo ≤ 1 := by
  cases outcome with
  | received chunk now => exact absurd rfl (nothing chunk now)
  | closed => exact Nat.le_refl _
  | interrupted => simp [receiveStep, serveTurn, requested, Serving.toGo]
  | again now => simp [receiveStep, serveTurn, requested, Serving.toGo]
  | failed description => exact Nat.zero_le _

/-- **A step of `serveClient` behind a stop request does some of what is left.** -/
theorem serveStep_toGo {serving : Serving σ} (requested : serving.session.stop.poll.1 = true)
    (goesOn : ∀ status, serving.point ≠ .returned status) :
    (serveStep pipeline options serving).toGo < serving.toGo := by
  obtain ⟨point, session, incoming⟩ := serving
  cases point with
  | returned status => exact absurd rfl (goesOn status)
  | loopTest =>
      simp only [serveStep]
      rw [if_pos requested]
      exact Nat.lt_succ_self 1
  | rest =>
      show 0 < 1
      exact Nat.one_pos
  | receiving =>
      cases incoming with
      | nil =>
          show 1 < 4 + _
          omega
      | cons outcome incoming =>
          by_cases chunk : ∃ chunk now, outcome = .received chunk now
          · obtain ⟨chunk, now, rfl⟩ := chunk
            show 3 + (session.pendingInput ++ chunk.data).count lineFeed <
              4 + (session.pendingInput ++ chunk.data).count lineFeed
            omega
          · have left := @receiveStep_toGo σ pipeline options session requested outcome
              (fun data now same => chunk ⟨data, now, same⟩) incoming
            refine Nat.lt_of_le_of_lt left ?_
            show 1 < 4 + _
            omega
  | answering =>
      show (answerStep pipeline session incoming).toGo < 3 + session.pendingInput.count lineFeed
      by_cases present : lineFeed ∈ session.pendingInput
      · rw [answerStep_line pipeline present]
        have less := count_nextLine present
        split
        · show 3 + (session.pendingInput.drop (session.nextLine.length + 1)).count lineFeed < _
          omega
        · show 0 < _
          omega
      · rw [answerStep, if_neg present]
        show 2 < _
        omega

end Serving

namespace Workers

/-- A stop request lasts. -/
theorem Effect.requested {before after : Workers σ} {next : WorkerTurn}
    (effect : Effect pipeline options before next after)
    (requested : before.stop.poll.1 = true) : after.stop.poll.1 = true := by
  cases effect with
  | move main stop refusals quiet leaves lasts => exact lasts requested
  | serve index worker serving thread point served =>
      have same : serving.session.stop = before.stop := by
        rw [served]
        exact serveStep_stop pipeline options requested
      rw [same]
      exact requested
  | stay | stop | fail | accept | refuse | grant | increment | spawn | reap | join | finish | leave
  | decrement | finishThread | endThread => exact requested

/-- `run` joins the thread of a slot only behind a look at its flag. -/
theorem mainStep_joiningFinished {system : Workers σ} {position : Nat}
    (now : (system.mainStep options).main = .joiningFinished position) :
    system.mainStep options = system ∨
      ∃ index, system.slots[position]? = some index ∧ system.isFinished index = true ∧
        system.mainStep options = { system with main := .joiningFinished position } := by
  have polled : ∀ whenStopped otherwise, (∀ p, whenStopped ≠ MainPoint.joiningFinished p) →
      (∀ p, otherwise ≠ MainPoint.joiningFinished p) →
      ∀ p, (system.polled whenStopped otherwise).main ≠ .joiningFinished p := by
    intro whenStopped otherwise first second p
    show (if system.stop.poll.1 then whenStopped else otherwise) ≠ _
    split
    · exact first p
    · exact second p
  have joins : ∀ index slots main, (∀ p, main ≠ MainPoint.joiningFinished p) →
      (system.joinThread index slots main).main = .joiningFinished position →
      system.joinThread index slots main = system := by
    intro index slots main elsewhere now
    rcases system.joinThread_cases index slots main with waits | ⟨worker, joined, -, -, goesOn⟩
    · exact waits
    · rw [goesOn] at now
      exact absurd now (elsewhere position)
  unfold mainStep at now ⊢
  cases main : system.main with
  | loopTest | acceptTest | interrupted =>
      rw [main] at now
      exact absurd now (polled _ _ (fun p same => by cases same) (fun p same => by cases same) _)
  | reaping place =>
      simp only [main] at now ⊢
      cases slot : system.slots[place]? with
      | none =>
          rw [slot] at now
          cases now
      | some index =>
          simp only [slot] at now ⊢
          cases finished : system.isFinished index with
          | true =>
              simp only [finished, if_true] at now ⊢
              obtain rfl : place = position := MainPoint.joiningFinished.inj now
              exact Or.inr ⟨index, slot, finished, rfl⟩
          | false =>
              simp only [finished, Bool.false_eq_true, if_false] at now
              cases now
  | joiningFinished place =>
      simp only [main] at now ⊢
      cases slot : system.slots[place]? with
      | none => exact Or.inl rfl
      | some index =>
          simp only [slot] at now ⊢
          exact Or.inl (joins _ _ _ (fun p same => by cases same) now)
  | joining place status =>
      simp only [main] at now ⊢
      cases slot : system.slots[place]? with
      | none =>
          rw [slot] at now
          cases now
      | some index =>
          simp only [slot] at now ⊢
          exact Or.inl (joins _ _ _ (fun p same => by cases same) now)
  | checking client clientFd =>
      simp only [main] at now
      split at now <;> cases now
  | rejecting | incrementing | spawning =>
      simp only [main] at now
      cases now
  | accepting | returned => exact Or.inl rfl

/-- A thread that is being joined has its slot. -/
def Held (system : Workers σ) : Prop :=
  ∀ position, system.main = .joiningFinished position → position < system.slots.length

theorem held_of_ne {system : Workers σ} (elsewhere : ∀ p, system.main ≠ .joiningFinished p) :
    system.Held := fun p same => absurd same (elsewhere p)

theorem mainStep_held {system : Workers σ} (held : system.Held) :
    (system.mainStep options).Held := by
  intro position now
  rcases mainStep_joiningFinished options now with waits | ⟨index, slot, -, goesOn⟩
  · rw [waits] at now ⊢
    exact held position now
  · rw [goesOn]
    exact (List.getElem?_eq_some_iff.1 slot).1

theorem step_held {system : Workers σ} (held : system.Held) (next : WorkerTurn) :
    (system.step pipeline options next).Held := by
  cases next with
  | main => exact mainStep_held options held
  | accept outcome =>
      show (system.acceptStep outcome).Held
      unfold acceptStep
      cases main : system.main with
      | accepting =>
          dsimp only
          cases outcome with
          | interrupted | failed => exact held_of_ne fun p same => by cases same
          | accepted client =>
              dsimp only
              split <;> exact held_of_ne fun p same => by cases same
      | loopTest | reaping | joiningFinished | acceptTest | interrupted | checking | rejecting
      | incrementing | spawning | joining | returned => exact held
  | worker index =>
      show (system.workerStep pipeline options index).Held
      unfold workerStep
      split
      · exact held
      · split
        · split <;> exact held
        all_goals exact held
  | throws index =>
      show (system.throwStep index).Held
      unfold throwStep
      split
      · exact held
      · split <;> exact held

/-- All that is known behind a stop request; at most `limit` threads are ever started. -/
structure Stopping (limit : Nat) (system : Workers σ) : Prop where
  requested : system.stop.poll.1 = true
  joinable : system.Joinable
  held : system.Held
  few : system.threads.length + system.main.coming ≤ limit

/-- A turn waits or works, and starts no more threads than were coming. -/
structure Advances (before after : Workers σ) : Prop where
  works : after = before ∨ after.work < before.work
  few : after.threads.length + after.main.coming ≤ before.threads.length + before.main.coming

section Advances

variable {limit : Nat} {before after : Workers σ}

theorem advances_waits (system : Workers σ) : Advances system system :=
  ⟨Or.inl rfl, Nat.le_refl _⟩

/-- A move of `run` alone. -/
theorem advances_main (threads : after.threads = before.threads)
    (slots : after.slots = before.slots)
    (less : after.main.toGo before.slots.length < before.main.toGo before.slots.length)
    (coming : after.main.coming ≤ before.main.coming) : Advances before after := by
  refine ⟨Or.inr ?_, ?_⟩
  · rw [work, work, threads, slots]
    omega
  · rw [threads]
    omega

/-- The thread of a slot is joined, or `run` waits for it. -/
theorem advances_join (index : Nat) {slots : List Nat} {main : MainPoint}
    (less : main.toGo slots.length < before.main.toGo before.slots.length)
    (coming : main.coming = 0) : Advances before (before.joinThread index slots main) := by
  rcases before.joinThread_cases index slots main with
    waits | ⟨worker, joined, thread, join, goesOn⟩
  · rw [waits]
    exact advances_waits _
  · rw [goesOn]
    have weight : joined.toGo = worker.toGo := by
      rw [ClientWorker.join_eq join]
      rfl
    have sum := Slots.sum_set ClientWorker.toGo thread joined
    refine ⟨Or.inr ?_, ?_⟩
    · show main.toGo slots.length + ((before.threads.set index joined).map _).sum <
        before.main.toGo before.slots.length + (before.threads.map _).sum
      omega
    · show (before.threads.set index joined).length + main.coming ≤ _
      rw [List.length_set, coming]
      omega

/-- **A turn of `run` behind a stop request.** -/
theorem mainStep_advances (requested : before.stop.poll.1 = true) :
    Advances before (before.mainStep options) := by
  have polled : ∀ whenStopped otherwise : MainPoint, before.polled whenStopped otherwise =
      { before with main := whenStopped, stop := before.stop.poll.2, stopped := true } := by
    intro whenStopped otherwise
    simp only [Workers.polled, requested, if_true, Bool.or_true]
  unfold mainStep
  cases main : before.main with
  | loopTest | acceptTest | interrupted =>
      dsimp only
      rw [polled]
      refine advances_main rfl rfl ?_ (Nat.zero_le _)
      rw [main]
      show 1 + (before.slots.length - 0) < 2 + before.slots.length
      omega
  | reaping position =>
      dsimp only
      cases slot : before.slots[position]? with
      | none =>
          refine advances_main rfl rfl ?_ (Nat.zero_le _)
          rw [main]
          show 2 + before.slots.length < 3 + before.slots.length + _
          omega
      | some index =>
          obtain ⟨inside, -⟩ := List.getElem?_eq_some_iff.1 slot
          dsimp only
          split
          · refine advances_main rfl rfl ?_ (Nat.zero_le _)
            rw [main]
            show 2 + before.slots.length + 2 * (before.slots.length - position) <
              3 + before.slots.length + 2 * (before.slots.length - position)
            omega
          · refine advances_main rfl rfl ?_ (Nat.zero_le _)
            rw [main]
            show 3 + before.slots.length + 2 * (before.slots.length - (position + 1)) <
              3 + before.slots.length + 2 * (before.slots.length - position)
            omega
  | joiningFinished position =>
      dsimp only
      cases slot : before.slots[position]? with
      | none => exact advances_waits _
      | some index =>
          obtain ⟨inside, -⟩ := List.getElem?_eq_some_iff.1 slot
          refine advances_join index ?_ rfl
          rw [main]
          show 3 + (before.slots.eraseIdx position).length +
            2 * ((before.slots.eraseIdx position).length - position) <
              2 + before.slots.length + 2 * (before.slots.length - position)
          rw [List.length_eraseIdx_of_lt inside]
          omega
  | accepting => exact advances_waits _
  | checking client clientFd =>
      dsimp only
      split
      · refine advances_main rfl rfl ?_ (Nat.zero_le _)
        rw [main]
        show 3 + before.slots.length < 12 + before.slots.length
        omega
      · refine advances_main rfl rfl ?_ ?_
        · rw [main]
          show 11 + before.slots.length < 12 + before.slots.length
          omega
        · rw [main]
          exact Nat.le_refl 1
  | rejecting clientFd =>
      refine advances_main rfl rfl ?_ (Nat.zero_le _)
      rw [main]
      show 2 + before.slots.length < 3 + before.slots.length
      omega
  | incrementing client clientFd =>
      refine advances_main rfl rfl ?_ ?_
      · rw [main]
        show 10 + before.slots.length < 11 + before.slots.length
        omega
      · rw [main]
        exact Nat.le_refl 1
  | spawning client clientFd =>
      refine ⟨Or.inr ?_, ?_⟩
      · show 2 + (before.slots ++ [before.threads.length]).length +
          ((before.threads ++ [_]).map ClientWorker.toGo).sum <
            before.main.toGo before.slots.length + (before.threads.map ClientWorker.toGo).sum
        rw [main, List.length_append, List.map_append, List.sum_append]
        show 2 + (before.slots.length + 1) + (_ + 6) < 10 + before.slots.length + _
        omega
      · show (before.threads ++ [_]).length + 0 ≤ _
        rw [main, List.length_append]
        exact Nat.le_refl _
  | joining position status =>
      dsimp only
      cases slot : before.slots[position]? with
      | none =>
          refine ⟨Or.inr ?_, by rw [main]; exact Nat.le_refl _⟩
          show 0 + _ < before.main.toGo before.slots.length + _
          rw [main]
          show 0 + (before.threads.map _).sum < 1 + _ + (before.threads.map _).sum
          omega
      | some index =>
          obtain ⟨inside, -⟩ := List.getElem?_eq_some_iff.1 slot
          refine advances_join index ?_ rfl
          rw [main]
          show 1 + (before.slots.length - (position + 1)) < 1 + (before.slots.length - position)
          omega
  | returned status => exact advances_waits _

/-- `accept` returns to `run`. -/
theorem acceptStep_advances (system : Workers σ) (outcome : AcceptOutcome) :
    Advances system (system.acceptStep outcome) := by
  unfold acceptStep
  cases main : system.main with
  | accepting =>
      dsimp only
      cases outcome with
      | interrupted =>
          refine advances_main rfl rfl ?_ (Nat.zero_le _)
          rw [main]
          show 2 + system.slots.length < 13 + system.slots.length
          omega
      | failed description =>
          refine advances_main rfl rfl ?_ (Nat.zero_le _)
          rw [main]
          show 1 + (system.slots.length - 0) < 13 + system.slots.length
          omega
      | accepted client =>
          dsimp only
          split
          · refine advances_main rfl rfl ?_ (Nat.zero_le _)
            rw [main]
            show 1 + (system.slots.length - 0) < 13 + system.slots.length
            omega
          · refine advances_main rfl rfl ?_ ?_
            · rw [main]
              show 12 + system.slots.length < 13 + system.slots.length
              omega
            · rw [main]
              exact Nat.le_refl 1
  | loopTest | reaping | joiningFinished | acceptTest | interrupted | checking | rejecting
  | incrementing | spawning | joining | returned => exact advances_waits _

/-- One thread goes on. -/
theorem advances_thread {index : Nat} {worker next : ClientWorker σ}
    (thread : before.threads[index]? = some worker) (less : next.toGo < worker.toGo)
    (threads : after.threads = before.threads.set index next)
    (slots : after.slots = before.slots) (main : after.main = before.main) :
    after.work < before.work ∧ Advances before after := by
  have sum := Slots.sum_set ClientWorker.toGo thread next
  have less : after.work < before.work := by
    rw [work, work, threads, slots, main]
    omega
  refine ⟨less, Or.inr less, ?_⟩
  rw [threads, main, List.length_set]

/-- **A worker that has not ended works**, behind a stop request. -/
theorem workerStep_works (requested : before.stop.poll.1 = true) {index : Nat}
    {worker : ClientWorker σ} (thread : before.threads[index]? = some worker)
    (goesOn : worker.point ≠ .ended) :
    (before.workerStep pipeline options index).work < before.work ∧
      Advances before (before.workerStep pipeline options index) := by
  unfold workerStep
  rw [thread]
  obtain ⟨client, point, serving, finished, joins⟩ := worker
  cases point with
  | serving =>
      dsimp only
      split
      · next status returned =>
          refine advances_thread thread ?_ rfl rfl rfl
          show 3 < 4 + _
          omega
      · next serves =>
          have less := @serveStep_toGo σ pipeline options
            (serving.resumed before.storage before.stop) requested serves
          refine advances_thread thread ?_ rfl rfl rfl
          exact Nat.add_lt_add_left less 4
  | decrementing =>
      refine advances_thread thread ?_ rfl rfl rfl
      exact Nat.lt_succ_self 2
  | finishing =>
      refine advances_thread thread ?_ rfl rfl rfl
      exact Nat.lt_succ_self 1
  | ending =>
      refine advances_thread thread ?_ rfl rfl rfl
      exact Nat.lt_succ_self 0
  | ended => exact absurd rfl goesOn

theorem workerStep_advances (requested : before.stop.poll.1 = true) (index : Nat) :
    Advances before (before.workerStep pipeline options index) := by
  cases thread : before.threads[index]? with
  | none =>
      unfold workerStep
      rw [thread]
      exact advances_waits _
  | some worker =>
      by_cases ended : worker.point = .ended
      · have waits : before.workerStep pipeline options index = before := by
          unfold workerStep
          simp only [thread, ended]
        rw [waits]
        exact advances_waits _
      · exact (workerStep_works pipeline options requested thread ended).2

theorem throwStep_advances (system : Workers σ) (index : Nat) :
    Advances system (system.throwStep index) := by
  unfold throwStep
  cases thread : system.threads[index]? with
  | none => exact advances_waits _
  | some worker =>
      dsimp only
      split
      · next point =>
          refine (@advances_thread σ system (system.setThread index _) index worker
            { worker with point := .decrementing } thread ?_ rfl rfl rfl).2
          rw [ClientWorker.toGo, ClientWorker.toGo, point]
          show 3 < 4 + _
          omega
      · exact advances_waits _

/-- **Every turn behind a stop request waits or works.** -/
theorem step_advances (requested : before.stop.poll.1 = true) (next : WorkerTurn) :
    Advances before (before.step pipeline options next) := by
  cases next with
  | main => exact mainStep_advances options requested
  | accept outcome => exact acceptStep_advances before outcome
  | worker index => exact workerStep_advances pipeline options requested index
  | throws index => exact throwStep_advances before index

theorem Stopping.step (stopping : before.Stopping limit) (next : WorkerTurn) :
    (before.step pipeline options next).Stopping limit := by
  have effect := step_effect pipeline options before next
  have advances := step_advances pipeline options stopping.requested next
  exact ⟨effect.requested pipeline options stopping.requested, stopping.joinable.effect effect,
    step_held pipeline options stopping.held next, Nat.le_trans advances.few stopping.few⟩

end Advances

/-- **The work behind a stop request is bounded.** -/
theorem works_stopping (limit : Nat) :
    Machine.Works (turn pipeline options) (Stopping limit) (work : Workers σ → Nat) where
  kept _ next stopping := stopping.step pipeline options next
  works _ next stopping := (step_advances pipeline options stopping.requested next).works

/-! ## Fair schedules -/

/-- A block in which `run` and each of the first `limit` threads get a turn. -/
structure FairBlock (limit : Nat) (block : List WorkerTurn) : Prop where
  main : .main ∈ block
  workers : ∀ index < limit, .worker index ∈ block

/-- One turn for each thread. -/
def roundRobin (limit : Nat) : List WorkerTurn := .main :: (List.range limit).map .worker

theorem fairBlock_roundRobin (limit : Nat) (more : List WorkerTurn) :
    FairBlock limit (roundRobin limit ++ more) where
  main := List.mem_append_left _ List.mem_cons_self
  workers index inside := by
    refine List.mem_append_left _ (List.mem_cons_of_mem _ ?_)
    exact List.mem_map_of_mem (List.mem_range.2 inside)

/-- No thread is left to run but that of `run`. -/
def AllEnded (system : Workers σ) : Prop := ∀ worker ∈ system.threads, worker.point = .ended

section Ending

variable {limit : Nat} {system : Workers σ}

/-- Threads that have ended stay as they are. -/
theorem AllEnded.rests (ended : system.AllEnded) (index : Nat) :
    system.workerStep pipeline options index = system ∧ system.throwStep index = system := by
  unfold workerStep throwStep
  cases thread : system.threads[index]? with
  | none => exact ⟨rfl, rfl⟩
  | some worker =>
      have point := ended worker (List.mem_of_getElem? thread)
      simp [point]

/-- A fair block that changes nothing finds all workers ended. -/
theorem allEnded_of_idle (stopping : system.Stopping limit) {block : List WorkerTurn}
    (fair : FairBlock limit block) (idle : Machine.Idle (turn pipeline options) system block) :
    system.AllEnded := by
  intro worker member
  by_contra goesOn
  obtain ⟨index, thread⟩ := List.mem_iff_getElem?.1 member
  have inside := (List.getElem?_eq_some_iff.1 thread).1
  have few := stopping.few
  have waits : system.workerStep pipeline options index = system :=
    idle _ (fair.workers index (by omega))
  have works := (workerStep_works pipeline options stopping.requested thread goesOn).1
  rw [waits] at works
  exact Nat.lt_irrefl _ works

/-- `join` does not wait for a thread that has ended. -/
theorem joinThread_main (ended : system.AllEnded) {index : Nat}
    (inside : index < system.threads.length) (slots : List Nat) (main : MainPoint) :
    (system.joinThread index slots main).main = main := by
  have thread : system.threads[index]? = some system.threads[index] :=
    List.getElem?_eq_getElem inside
  have point := ended _ (List.mem_of_getElem? thread)
  unfold joinThread
  rw [thread]
  dsimp only
  unfold ClientWorker.join
  by_cases once : system.threads[index].joins = 0
  · simp only [once, point, if_true]
  · simp only [if_neg once]

/-- **With all workers ended `run` waits in `accept` only.** -/
theorem main_of_stuck (stopping : system.Stopping limit) (ended : system.AllEnded)
    (stuck : system.mainStep options = system) :
    system.main = .accepting ∨ ∃ status, system.main = .returned status := by
  have same : (system.mainStep options).main = system.main := congrArg Workers.main stuck
  have requested := stopping.requested
  have inside : ∀ {position index : Nat}, system.slots[position]? = some index →
      index < system.threads.length :=
    fun slot => stopping.joinable.inside _ (List.mem_of_getElem? slot)
  unfold mainStep at same
  cases main : system.main with
  | accepting => exact Or.inl rfl
  | returned status => exact Or.inr ⟨status, rfl⟩
  | loopTest | acceptTest | interrupted =>
      simp [main, polled, requested] at same
  | reaping position =>
      cases slot : system.slots[position]? with
      | none => simp [main, slot] at same
      | some index => cases finished : system.isFinished index <;> simp [main, slot, finished] at same
  | joiningFinished position =>
      have slot := List.getElem?_eq_getElem (stopping.held position main)
      simp [main, slot, joinThread_main ended (inside slot)] at same
  | checking client clientFd =>
      cases room : system.hasWorkerCapacity options <;> simp [main, room] at same
  | rejecting clientFd => simp [main] at same
  | incrementing client clientFd => simp [main] at same
  | spawning client clientFd => simp [main] at same
  | joining position status =>
      cases slot : system.slots[position]? with
      | none => simp [main, slot] at same
      | some index => simp [main, slot, joinThread_main ended (inside slot)] at same

/-- `accept` that returns ends its wait. -/
theorem acceptStep_main (accepting : system.main = .accepting) (outcome : AcceptOutcome) :
    (system.acceptStep outcome).main ≠ .accepting := by
  unfold acceptStep
  rw [accepting]
  dsimp only
  cases outcome with
  | interrupted | failed => exact fun same => by cases same
  | accepted client =>
      dsimp only
      split <;> exact fun same => by cases same

/-- A server whose `run` has returned and whose workers have ended does nothing more. -/
theorem rests_returned (ended : system.AllEnded) {status : Status}
    (returned : system.main = .returned status) (next : WorkerTurn) :
    system.step pipeline options next = system := by
  cases next with
  | main =>
      show system.mainStep options = system
      unfold mainStep
      rw [returned]
  | accept outcome =>
      show system.acceptStep outcome = system
      unfold acceptStep
      rw [returned]
  | worker index => exact (ended.rests pipeline options index).1
  | throws index => exact (ended.rests pipeline options index).2

/-- So does one whose `run` waits in `accept`, until that returns. -/
theorem rests_accepting (ended : system.AllEnded) (accepting : system.main = .accepting)
    {next : WorkerTurn} (noAccept : ∀ outcome, next ≠ .accept outcome) :
    system.step pipeline options next = system := by
  cases next with
  | main =>
      show system.mainStep options = system
      unfold mainStep
      rw [accepting]
  | accept outcome => exact absurd rfl (noAccept outcome)
  | worker index => exact (ended.rests pipeline options index).1
  | throws index => exact (ended.rests pipeline options index).2

/-- Behind a stop request, only a return of `accept` takes `run` out of it, and nothing takes
`run` into it. -/
theorem step_accepting_iff (requested : system.stop.poll.1 = true) {next : WorkerTurn}
    (noAccept : ∀ outcome, next ≠ .accept outcome) :
    (system.step pipeline options next).main = .accepting ↔ system.main = .accepting := by
  cases next with
  | accept outcome => exact absurd rfl (noAccept outcome)
  | worker index =>
      rw [step, (workerStep_main pipeline options system index).1]
  | throws index =>
      rw [step, (throwStep_main system index).1]
  | main =>
      show (system.mainStep options).main = .accepting ↔ _
      cases main : system.main with
      | accepting => simp [mainStep, main]
      | loopTest | acceptTest | interrupted => simp [mainStep, main, polled, requested]
      | reaping position =>
          cases slot : system.slots[position]? with
          | none => simp [mainStep, main, slot]
          | some index =>
              cases finished : system.isFinished index <;> simp [mainStep, main, slot, finished]
      | joiningFinished position =>
          cases slot : system.slots[position]? with
          | none => simp [mainStep, main, slot]
          | some index =>
              rcases joinThread_cases system index (system.slots.eraseIdx position)
                (.reaping position) with same | ⟨worker, joined, -, -, same⟩ <;>
                simp [mainStep, main, slot, same]
      | checking client clientFd =>
          cases room : system.hasWorkerCapacity options <;> simp [mainStep, main, room]
      | rejecting clientFd | incrementing client clientFd | spawning client clientFd
      | returned status => simp [mainStep, main]
      | joining position status =>
          cases slot : system.slots[position]? with
          | none => simp [mainStep, main, slot]
          | some index =>
              rcases joinThread_cases system index system.slots (.joining (position + 1) status)
                with same | ⟨worker, joined, -, -, same⟩ <;>
                simp [mainStep, main, slot, same]

theorem after_accepting_iff (requested : system.stop.poll.1 = true) {schedule : List WorkerTurn}
    (noAccept : ∀ next ∈ schedule, ∀ outcome, next ≠ .accept outcome) :
    (system.after pipeline options schedule).main = .accepting ↔ system.main = .accepting := by
  induction schedule generalizing system with
  | nil => exact Iff.rfl
  | cons next rest ih =>
      have lasts := (step_effect pipeline options system next).requested pipeline options requested
      have later := ih lasts fun other member => noAccept other (List.mem_cons_of_mem _ member)
      exact later.trans
        (step_accepting_iff pipeline options requested (noAccept next List.mem_cons_self))

/-- A fair block that changes nothing finds `run` returned, or waiting in `accept`. -/
theorem main_of_idle (stopping : system.Stopping limit) {block : List WorkerTurn}
    (fair : FairBlock limit block) (idle : Machine.Idle (turn pipeline options) system block) :
    system.AllEnded ∧ (system.main = .accepting ∨ ∃ status, system.main = .returned status) := by
  have ended := allEnded_of_idle pipeline options stopping fair idle
  exact ⟨ended, main_of_stuck options stopping ended (idle _ fair.main)⟩

end Ending

section Reachable

variable {start : σ} {stop : StopRequested} {schedule : List WorkerTurn}
  {blocks : List (List WorkerTurn)}

theorem held_after (start : σ) (stop : StopRequested) (schedule : List WorkerTurn) :
    ((initial start stop).after pipeline options schedule).Held :=
  @Machine.after_invariant (Workers σ) WorkerTurn Unit (turn pipeline options) Held
    (fun _ next held => step_held pipeline options held next) (initial start stop)
    (held_of_ne fun p same => by cases same) schedule

/-- A stop request finds at most one more thread to be started. -/
theorem stopping_after
    (requested : ((initial start stop).after pipeline options schedule).stop.poll.1 = true) :
    ((initial start stop).after pipeline options schedule).Stopping
      (((initial start stop).after pipeline options schedule).threads.length + 1) where
  requested := requested
  joinable := (after_sound pipeline options start stop schedule).joinable
  held := held_after pipeline options start stop schedule
  few := by
    have most : ∀ main : MainPoint, main.coming ≤ 1 := by
      intro main
      unfold MainPoint.coming
      split <;> decide
    exact Nat.add_le_add_left (most _) _

/-- After enough rounds `run` has returned. -/
theorem returned_after_rounds
    (requested : ((initial start stop).after pipeline options schedule).stop.poll.1 = true)
    (fair : ∀ block ∈ blocks, FairBlock
      (((initial start stop).after pipeline options schedule).threads.length + 1) block)
    (accepts : ∀ block ∈ blocks, ∃ outcome, .accept outcome ∈ block)
    (enough : ((initial start stop).after pipeline options schedule).work < blocks.length) :
    let last := ((initial start stop).after pipeline options schedule).after pipeline options
      blocks.flatten
    last.AllEnded ∧ ∃ status, last.main = .returned status := by
  intro last
  have stopping := stopping_after pipeline options requested
  exact @Machine.Works.done_of_blocks (Workers σ) WorkerTurn Unit _ _ _
    (works_stopping pipeline options _)
    (fun s => s.AllEnded ∧ ∃ status, s.main = .returned status) _ stopping blocks
    (fun block member s known idle => by
      obtain ⟨ended, main⟩ := main_of_idle pipeline options known (fair block member) idle
      obtain ⟨outcome, accept⟩ := accepts block member
      refine ⟨ended, main.resolve_left fun accepting => ?_⟩
      have waits : s.acceptStep outcome = s := idle _ accept
      exact acceptStep_main accepting outcome (by rw [waits, accepting]))
    (fun block _ s _ done next _ => by
      obtain ⟨ended, status, returned⟩ := done
      exact rests_returned pipeline options ended returned next)
    enough

/-- **A stop request ends the server.**  From any moment at which the stop callback
answers true, in every interleaving in which `run` and all workers get their turns and
`accept` returns now and then, whatever the clients send and the kernel answers: after
more rounds than there was work `run` has returned, and all its threads have ended and
were joined. -/
theorem shutdown_completes
    (requested : ((initial start stop).after pipeline options schedule).stop.poll.1 = true)
    (fair : ∀ block ∈ blocks, FairBlock
      (((initial start stop).after pipeline options schedule).threads.length + 1) block)
    (accepts : ∀ block ∈ blocks, ∃ outcome, .accept outcome ∈ block)
    (enough : ((initial start stop).after pipeline options schedule).work < blocks.length) :
    let last := ((initial start stop).after pipeline options schedule).after pipeline options
      blocks.flatten
    ∃ status, last.main = .returned status ∧ last.slots = [] ∧
      ∀ worker ∈ last.threads, worker.point = .ended ∧ worker.joins = 1 := by
  intro last
  obtain ⟨ended, status, returned⟩ :=
    returned_after_rounds pipeline options requested fair accepts enough
  have kept := (after_sound pipeline options start stop (schedule ++ blocks.flatten)).limitKept
  have same : (initial start stop).after pipeline options (schedule ++ blocks.flatten) = last :=
    Machine.after_append _ _ _ _
  rw [same] at kept
  obtain ⟨slots, joined⟩ := kept.returned status returned
  exact ⟨status, returned, slots, fun worker member => ⟨ended worker member, joined worker member⟩⟩

/-- **A stop request that misses `accept`.**  As long as `accept` does not return, the
same schedules end all workers; `run` has returned, unless it was in `accept` when the stop
was requested.  Then it still waits there: only what makes `accept` return makes it look at
the callback again. -/
theorem shutdown_waits
    (requested : ((initial start stop).after pipeline options schedule).stop.poll.1 = true)
    (fair : ∀ block ∈ blocks, FairBlock
      (((initial start stop).after pipeline options schedule).threads.length + 1) block)
    (noAccept : ∀ block ∈ blocks, ∀ outcome, .accept outcome ∉ block)
    (enough : ((initial start stop).after pipeline options schedule).work < blocks.length) :
    let system := (initial start stop).after pipeline options schedule
    let last := system.after pipeline options blocks.flatten
    last.AllEnded ∧ (system.main = .accepting → last.main = .accepting) ∧
      (system.main ≠ .accepting → ∃ status, last.main = .returned status) := by
  intro system last
  have stopping := stopping_after pipeline options requested
  have ends : last.AllEnded ∧ (last.main = .accepting ∨ ∃ status, last.main = .returned status) :=
    @Machine.Works.done_of_blocks (Workers σ) WorkerTurn Unit _ _ _
      (works_stopping pipeline options _)
      (fun s => s.AllEnded ∧ (s.main = .accepting ∨ ∃ status, s.main = .returned status)) _ stopping
      blocks
      (fun block member s known idle =>
        main_of_idle pipeline options known (fair block member) idle)
      (fun block member s _ done next inBlock => by
        obtain ⟨ended, accepting | ⟨status, returned⟩⟩ := done
        · refine rests_accepting pipeline options ended accepting fun outcome same => ?_
          exact noAccept block member outcome (same ▸ inBlock)
        · exact rests_returned pipeline options ended returned next)
      enough
  have waits : last.main = .accepting ↔ system.main = .accepting := by
    refine after_accepting_iff pipeline options requested fun next member outcome same => ?_
    obtain ⟨block, inBlocks, inBlock⟩ := List.mem_flatten.1 member
    exact noAccept block inBlocks outcome (same ▸ inBlock)
  refine ⟨ends.1, waits.2, fun elsewhere => ends.2.resolve_left fun accepting => ?_⟩
  exact elsewhere (waits.1 accepting)

end Reachable

/-- A stop that is requested while one client is being served. -/
def stoppedWhileServing : List WorkerTurn :=
  [.main, .main, .main, .accept (.accepted { socket := { incoming := [.interrupted] } }), .main,
    .main, .main, .worker 0]

theorem shutdown_completes_serving :
    let system := (initial .empty (.after 3)).after (localPipeline InMemoryStorage) {}
      stoppedWhileServing
    let last := system.after (localPipeline InMemoryStorage) {}
      (List.replicate 12 (roundRobin 2 ++ [.accept .interrupted])).flatten
    ∃ status, last.main = .returned status ∧ last.slots = [] ∧
      ∀ worker ∈ last.threads, worker.point = .ended ∧ worker.joins = 1 :=
  shutdown_completes (localPipeline InMemoryStorage) {} (by decide)
    (fun block member => by
      rw [List.eq_of_mem_replicate member]
      exact fairBlock_roundRobin 2 _)
    (fun block member => by
      rw [List.eq_of_mem_replicate member]
      exact ⟨.interrupted, by simp⟩)
    (by decide)

/-- `run` is in `accept` again when the worker hears of the stop. -/
def stoppedInAccept : List WorkerTurn :=
  stoppedWhileServing.dropLast ++ [.main, .main, .main, .main, .worker 0, .worker 0, .worker 0]

theorem shutdown_waits_serving :
    let system := (initial .empty (.after 5)).after (localPipeline InMemoryStorage) {}
      stoppedInAccept
    let last := system.after (localPipeline InMemoryStorage) {}
      (List.replicate 20 (roundRobin 2 ++ [])).flatten
    last.AllEnded ∧ last.main = .accepting := by
  intro system last
  obtain ⟨ended, waits, -⟩ := @shutdown_waits _ (localPipeline InMemoryStorage) {} .empty
    (.after 5) stoppedInAccept (List.replicate 20 (roundRobin 2 ++ [])) (by decide)
    (fun block member => by
      rw [List.eq_of_mem_replicate member]
      exact fairBlock_roundRobin 2 _)
    (fun block member outcome => by
      rw [List.eq_of_mem_replicate member]
      simp [roundRobin])
    (by decide)
  exact ⟨ended, waits rfl⟩

end Workers

end AsterKV.Network
