/-
# AsterKV.Network.AcceptProgress -- no client holds up the accept loop

Between two calls of `accept` the thread of `run` waits in `join` only, and only for a
thread whose `finished` flag is set (`Reaped`): such a thread has one step left, whatever
its client does.  So `run` is back in `accept`, or on its way out, after a number of its
turns that depends on the slots alone (`accepts_again`), and every client it has accepted
by then has a worker of its own or was refused.
-/
import AsterKV.Network.Shutdown

namespace AsterKV.Network

open AsterKV.Core AsterKV.Pipeline AsterKV.Storage
open Theory

set_option autoImplicit false

variable {σ : Type} (pipeline : LinePipeline σ) (options : TcpLineServerOptions)

/-- The turns of `run` until it is in `accept` or on its way out, at most, with this many
slots. -/
def MainPoint.toAccept (slots : Nat) : MainPoint → Nat
  | .accepting | .joining _ _ | .returned _ => 0
  | .acceptTest => 1
  | .interrupted => 2
  | .joiningFinished position => 3 * (slots - position)
  | .reaping position => 2 + 3 * (slots - position)
  | .loopTest => 3 + 3 * slots
  | .rejecting _ => 4 + 3 * slots
  | .spawning _ _ => 7 + 3 * slots
  | .incrementing _ _ => 8 + 3 * slots
  | .checking _ _ => 9 + 3 * slots

namespace Workers

/-! ## Flags -/

/-- A thread whose flag is set has left its function, or does so next. -/
def Flagged (system : Workers σ) : Prop :=
  ∀ worker ∈ system.threads, worker.finished = true → worker.point = .ending ∨ worker.point = .ended

/-- The thread that `joinFinishedClientWorkers` is joining has set its flag. -/
def Reaped (system : Workers σ) : Prop :=
  ∀ position, system.main = .joiningFinished position →
    ∃ index worker, system.slots[position]? = some index ∧
      system.threads[index]? = some worker ∧ worker.finished = true

theorem Flagged.setThread {before after : Workers σ} (known : before.Flagged) {index : Nat}
    {next : ClientWorker σ} (threads : after.threads = before.threads.set index next)
    (flag : next.finished = true → next.point = .ending ∨ next.point = .ended) :
    after.Flagged := by
  intro worker member finished
  rw [threads] at member
  rcases List.mem_or_eq_of_mem_set member with old | rfl
  · exact known worker old finished
  · exact flag finished

theorem Flagged.effect {before after : Workers σ} {next : WorkerTurn}
    (effect : Effect pipeline options before next after) (known : before.Flagged) :
    after.Flagged := by
  -- a thread that is not past its flag has not set it
  have unset : ∀ {index : Nat} {worker : ClientWorker σ}, before.threads[index]? = some worker →
      worker.point ≠ .ending → worker.point ≠ .ended → worker.finished = false := by
    intro index worker thread notEnding notEnded
    by_contra set
    rcases known worker (List.mem_of_getElem? thread) (by simpa using set) with point | point
    · exact notEnding point
    · exact notEnded point
  cases effect with
  | stay | move | stop | fail | accept | refuse | grant | increment | finish => exact known
  | spawn client socket main =>
      intro worker member finished
      rcases List.mem_append.1 member with old | new
      · exact known worker old finished
      · rw [List.mem_singleton.1 new] at finished
        cases finished
  | reap position index worker joined main slot thread join
  | join position index status worker joined main slot thread join =>
      refine known.setThread rfl ?_
      rw [ClientWorker.join_eq join]
      exact known worker (List.mem_of_getElem? thread)
  | serve index worker serving thread point served =>
      have clear := unset thread (by simp [point]) (by simp [point])
      exact known.setThread rfl fun set => by cases clear.symm.trans set
  | leave index worker thread point =>
      have clear := unset thread (by simp [point]) (by simp [point])
      exact known.setThread rfl fun set => by cases clear.symm.trans set
  | decrement index worker thread point =>
      have clear := unset thread (by simp [point]) (by simp [point])
      exact known.setThread rfl fun set => by cases clear.symm.trans set
  | finishThread index worker thread point => exact known.setThread rfl fun _ => Or.inl rfl
  | endThread index worker thread point => exact known.setThread rfl fun _ => Or.inr rfl

/-! ## Turns of workers -/

/-- One thread goes on, `run` does not. -/
structure ThreadMoved (index : Nat) (before after : Workers σ) : Prop where
  main : after.main = before.main
  slots : after.slots = before.slots
  thread : ∃ worker next, before.threads[index]? = some worker ∧
    after.threads = before.threads.set index next ∧ worker.point ≠ .ended ∧
    (worker.finished = true → next.finished = true) ∧
    (worker.point = .ending → next.point = .ended)

theorem workerStep_moved (system : Workers σ) (index : Nat) :
    system.workerStep pipeline options index = system ∨
      ThreadMoved index system (system.workerStep pipeline options index) := by
  unfold workerStep
  cases thread : system.threads[index]? with
  | none => exact Or.inl rfl
  | some worker =>
      obtain ⟨client, point, serving, finished, joins⟩ := worker
      cases point with
      | serving =>
          right
          dsimp only
          split
          · exact ⟨rfl, rfl, _, _, thread, rfl, by simp, id, by simp⟩
          · exact ⟨rfl, rfl, _, _, thread, rfl, by simp, id, by simp⟩
      | decrementing => exact Or.inr ⟨rfl, rfl, _, _, thread, rfl, by simp, id, by simp⟩
      | finishing => exact Or.inr ⟨rfl, rfl, _, _, thread, rfl, by simp, fun _ => rfl, by simp⟩
      | ending => exact Or.inr ⟨rfl, rfl, _, _, thread, rfl, by simp, id, fun _ => rfl⟩
      | ended => exact Or.inl rfl

theorem throwStep_moved (system : Workers σ) (index : Nat) :
    system.throwStep index = system ∨ ThreadMoved index system (system.throwStep index) := by
  unfold throwStep
  cases thread : system.threads[index]? with
  | none => exact Or.inl rfl
  | some worker =>
      dsimp only
      split
      · next point =>
          exact Or.inr ⟨rfl, rfl, worker, _, thread, rfl, by simp [point], id, by simp [point]⟩
      · exact Or.inl rfl

theorem Reaped.moved {before after : Workers σ} {index : Nat} (known : before.Reaped)
    (moved : ThreadMoved index before after) : after.Reaped := by
  intro position main
  obtain ⟨place, entry, slot, thread, finished⟩ := known position (moved.main ▸ main)
  obtain ⟨worker, next, here, threads, -, flag, -⟩ := moved.thread
  rw [moved.slots, threads]
  by_cases same : place = index
  · subst same
    obtain rfl : worker = entry := Option.some.inj (here.symm.trans thread)
    have inside := (List.getElem?_eq_some_iff.1 thread).1
    exact ⟨place, next, slot, List.getElem?_set_self inside, flag finished⟩
  · refine ⟨place, entry, slot, ?_, finished⟩
    rw [List.getElem?_set_ne (Ne.symm same)]
    exact thread

theorem Reaped.mainStep {system : Workers σ} (known : system.Reaped) :
    (system.mainStep options).Reaped := by
  intro position now
  rcases mainStep_joiningFinished options now with waits | ⟨index, slot, finished, goesOn⟩
  · rw [waits] at now ⊢
    exact known position now
  · rw [goesOn]
    unfold isFinished at finished
    cases thread : system.threads[index]? with
    | none =>
        rw [thread] at finished
        cases finished
    | some worker =>
        rw [thread] at finished
        exact ⟨index, worker, slot, thread, finished⟩

/-- `accept` changes nothing unless `run` waits in it. -/
theorem acceptStep_waits {system : Workers σ} (elsewhere : system.main ≠ .accepting)
    (outcome : AcceptOutcome) : system.acceptStep outcome = system := by
  unfold acceptStep
  split
  · next main => exact absurd main elsewhere
  · rfl

theorem Reaped.step {system : Workers σ} (known : system.Reaped) (next : WorkerTurn) :
    (system.step pipeline options next).Reaped := by
  have moved : ∀ {index : Nat} {after : Workers σ},
      after = system ∨ ThreadMoved index system after → after.Reaped := by
    rintro index after (rfl | moved)
    · exact known
    · exact known.moved moved
  cases next with
  | main => exact known.mainStep options
  | accept outcome =>
      by_cases accepting : system.main = .accepting
      · intro position now
        have now : (system.acceptStep outcome).main = .joiningFinished position := now
        unfold acceptStep at now
        rw [accepting] at now
        cases outcome with
        | interrupted | failed => cases now
        | accepted client =>
            dsimp only at now
            split at now <;> cases now
      · show (system.acceptStep outcome).Reaped
        rw [acceptStep_waits accepting]
        exact known
  | worker index => exact moved (workerStep_moved pipeline options system index)
  | throws index => exact moved (throwStep_moved system index)

/-! ## The way to accept -/

/-- `run` is in `accept`, or on its way out. -/
def Accepts (system : Workers σ) : Prop := system.main = .accepting ∨ system.main.leaves = true

/-- `run` is in the `join` of a thread that has not ended: one step of that thread is left. -/
def waits (system : Workers σ) : Nat :=
  match system.main with
  | .joiningFinished position =>
      (system.slots[position]?.bind (system.threads[·]?)).elim 0 fun worker =>
        if worker.point = .ended then 0 else 1
  | _ => 0

def rank (system : Workers σ) : Nat := system.main.toAccept system.slots.length + system.waits

/-- The turn that brings `run` nearer to `accept`. -/
def Helps (system : Workers σ) (next : WorkerTurn) : Prop :=
  if system.waits = 0 then next = .main
  else ∃ position index, system.main = .joiningFinished position ∧
    system.slots[position]? = some index ∧ next = .worker index

theorem waits_of_ne {system : Workers σ} (elsewhere : ∀ p, system.main ≠ .joiningFinished p) :
    system.waits = 0 := by
  unfold waits
  split
  · next position main => exact absurd main (elsewhere position)
  · rfl

theorem waits_of_joining {system : Workers σ} {position index : Nat} {worker : ClientWorker σ}
    (main : system.main = .joiningFinished position) (slot : system.slots[position]? = some index)
    (thread : system.threads[index]? = some worker) :
    system.waits = if worker.point = .ended then 0 else 1 := by
  simp only [waits, main, slot, thread, Option.bind_some, Option.elim_some]

theorem waits_le (system : Workers σ) : system.waits ≤ 1 := by
  unfold waits
  split
  · next position main =>
      cases system.slots[position]?.bind (system.threads[·]?) with
      | none => exact Nat.zero_le 1
      | some worker =>
          rw [Option.elim_some]
          split <;> omega
  · exact Nat.zero_le 1

theorem rank_le (system : Workers σ) : system.rank ≤ 9 + 3 * system.slots.length := by
  by_cases joins : ∃ position, system.main = .joiningFinished position
  · obtain ⟨position, main⟩ := joins
    have most := system.waits_le
    rw [rank, main]
    show 3 * (system.slots.length - position) + _ ≤ _
    omega
  · rw [rank, waits_of_ne fun p is => joins ⟨p, is⟩]
    unfold MainPoint.toAccept
    split <;> omega

theorem rank_lt {before after : Workers σ} (elsewhere : ∀ p, after.main ≠ .joiningFinished p)
    (less : after.main.toAccept after.slots.length < before.main.toAccept before.slots.length) :
    after.rank < before.rank := by
  rw [rank, rank, waits_of_ne elsewhere]
  omega

/-- **A turn of `run` that does not wait brings it nearer to `accept`.** -/
theorem mainStep_rank {system : Workers σ} (reaped : system.Reaped) (off : ¬system.Accepts)
    (free : system.waits = 0) : (system.mainStep options).rank < system.rank := by
  have polled : ∀ whenStopped otherwise : MainPoint,
      (∀ p, whenStopped ≠ .joiningFinished p) → (∀ p, otherwise ≠ .joiningFinished p) →
      whenStopped.toAccept system.slots.length < system.main.toAccept system.slots.length →
      otherwise.toAccept system.slots.length < system.main.toAccept system.slots.length →
      (system.polled whenStopped otherwise).rank < system.rank := by
    intro whenStopped otherwise first second stops goesOn
    refine rank_lt ?_ ?_
    · show ∀ p, (if system.stop.poll.1 then whenStopped else otherwise) ≠ _
      split
      · exact first
      · exact second
    · show (if system.stop.poll.1 then whenStopped else otherwise).toAccept _ < _
      split
      · exact stops
      · exact goesOn
  unfold mainStep
  cases main : system.main with
  | loopTest =>
      refine polled _ _ (fun p same => by cases same) (fun p same => by cases same) ?_ ?_
      · rw [main]
        show 0 < 3 + _
        omega
      · rw [main]
        show 2 + 3 * (system.slots.length - 0) < 3 + 3 * system.slots.length
        omega
  | acceptTest =>
      refine polled _ _ (fun p same => by cases same) (fun p same => by cases same) ?_ ?_
      · rw [main]
        exact Nat.one_pos
      · rw [main]
        exact Nat.one_pos
  | interrupted =>
      refine polled _ _ (fun p same => by cases same) (fun p same => by cases same) ?_ ?_
      · rw [main]
        exact Nat.two_pos
      · rw [main]
        exact Nat.lt_succ_self 1
  | reaping position =>
      dsimp only
      cases slot : system.slots[position]? with
      | none =>
          refine rank_lt (fun p same => by cases same) ?_
          rw [main]
          show 1 < 2 + _
          omega
      | some index =>
          obtain ⟨inside, -⟩ := List.getElem?_eq_some_iff.1 slot
          dsimp only
          split
          · have most := ({ system with main := .joiningFinished position } : Workers σ).waits_le
            rw [rank, rank, main]
            show 3 * (system.slots.length - position) + _ <
              2 + 3 * (system.slots.length - position) + _
            omega
          · refine rank_lt (fun p same => by cases same) ?_
            rw [main]
            show 2 + 3 * (system.slots.length - (position + 1)) <
              2 + 3 * (system.slots.length - position)
            omega
  | joiningFinished position =>
      obtain ⟨index, worker, slot, thread, -⟩ := reaped position main
      obtain ⟨inside, -⟩ := List.getElem?_eq_some_iff.1 slot
      have ended : worker.point = .ended := by
        rw [waits_of_joining main slot thread] at free
        by_contra running
        rw [if_neg running] at free
        cases free
      have goesOn : (system.joinThread index (system.slots.eraseIdx position)
          (.reaping position)).main = .reaping position ∧
          (system.joinThread index (system.slots.eraseIdx position)
            (.reaping position)).slots = system.slots.eraseIdx position := by
        unfold joinThread
        simp only [thread, ClientWorker.join, ended, if_true]
        by_cases once : worker.joins = 0
        · simp only [once, if_true, and_self]
        · simp only [if_neg once, and_self]
      simp only [slot]
      refine rank_lt (fun p same => by cases goesOn.1.symm.trans same) ?_
      rw [goesOn.1, goesOn.2, main, List.length_eraseIdx_of_lt inside]
      show 2 + 3 * (system.slots.length - 1 - position) < 3 * (system.slots.length - position)
      omega
  | accepting => exact absurd (Or.inl main) off
  | checking client clientFd =>
      dsimp only
      split
      · refine rank_lt (fun p same => by cases same) ?_
        rw [main]
        show 4 + 3 * system.slots.length < 9 + 3 * system.slots.length
        omega
      · refine rank_lt (fun p same => by cases same) ?_
        rw [main]
        show 8 + 3 * system.slots.length < 9 + 3 * system.slots.length
        omega
  | rejecting clientFd =>
      refine rank_lt (fun p same => by cases same) ?_
      rw [main]
      show 3 + 3 * system.slots.length < 4 + 3 * system.slots.length
      omega
  | incrementing client clientFd =>
      refine rank_lt (fun p same => by cases same) ?_
      rw [main]
      show 7 + 3 * system.slots.length < 8 + 3 * system.slots.length
      omega
  | spawning client clientFd =>
      refine rank_lt (fun p same => by cases same) ?_
      rw [main]
      show 3 + 3 * (system.slots ++ [system.threads.length]).length < 7 + 3 * system.slots.length
      rw [List.length_append]
      show 3 + 3 * (system.slots.length + 1) < _
      omega
  | joining position status => exact absurd (Or.inr (by rw [main]; rfl)) off
  | returned status => exact absurd (Or.inr (by rw [main]; rfl)) off

/-- Where `run` stands is all the same; the thread it joins goes on, or another one. -/
theorem ThreadMoved.rank {before after : Workers σ} {index : Nat}
    (moved : ThreadMoved index before after) (flagged : before.Flagged) (reaped : before.Reaped) :
    after.rank < before.rank ∨
      (after.waits = before.waits ∧ ∀ position, before.main = .joiningFinished position →
        before.waits ≠ 0 → before.slots[position]? ≠ some index) := by
  have main := moved.main
  by_cases joins : ∃ position, before.main = .joiningFinished position
  · obtain ⟨position, here⟩ := joins
    obtain ⟨place, entry, slot, thread, finished⟩ := reaped position here
    obtain ⟨worker, next, found, threads, running, -, ends⟩ := moved.thread
    have slot' : after.slots[position]? = some place := by rw [moved.slots, slot]
    have before_eq := waits_of_joining here slot thread
    by_cases same : place = index
    · subst same
      obtain rfl : worker = entry := Option.some.inj (found.symm.trans thread)
      have ending : worker.point = .ending :=
        (flagged worker (List.mem_of_getElem? thread) finished).resolve_right running
      have inside := (List.getElem?_eq_some_iff.1 thread).1
      have thread' : after.threads[place]? = some next := by
        rw [threads]
        exact List.getElem?_set_self inside
      left
      rw [Workers.rank, Workers.rank, main, moved.slots, before_eq,
        waits_of_joining (main.trans here) slot' thread', if_pos (ends ending), if_neg running]
      omega
    · have thread' : after.threads[place]? = some entry := by
        rw [threads, List.getElem?_set_ne (Ne.symm same)]
        exact thread
      right
      refine ⟨(waits_of_joining (main.trans here) slot' thread').trans before_eq.symm, ?_⟩
      intro other at_other _ is
      obtain rfl : position = other := MainPoint.joiningFinished.inj (here.symm.trans at_other)
      exact same (Option.some.inj (slot.symm.trans is))
  · have elsewhere : ∀ p, before.main ≠ .joiningFinished p := fun p is => joins ⟨p, is⟩
    refine Or.inr ⟨?_, fun position is => absurd is (elsewhere position)⟩
    rw [waits_of_ne elsewhere, waits_of_ne fun p is => elsewhere p (main.symm.trans is)]

/-! ## The loop -/

/-- What the accept loop keeps; at most `limit` threads are started before `accept`. -/
structure Looping (limit : Nat) (system : Workers σ) : Prop where
  handled : system.Handled
  joinable : system.Joinable
  flagged : system.Flagged
  reaped : system.Reaped
  few : system.Accepts ∨ system.threads.length + system.main.coming ≤ limit

/-- `run` has a client in its hand for every thread that is coming, but in `accept`. -/
theorem coming_le_of_hand {before after : MainPoint} (hand : after.hand = before.hand)
    (elsewhere : after ≠ .accepting) : after.coming ≤ before.coming := by
  have none : after.coming = 0 ∨ after.hand ≠ .empty := by
    cases after <;> simp [MainPoint.coming, MainPoint.hand] at elsewhere ⊢
  have one : after.coming ≤ 1 := by
    unfold MainPoint.coming
    split <;> omega
  rcases none with none | holds
  · omega
  · rw [hand] at holds
    have held : before.coming = 1 := by
      cases before <;> simp [MainPoint.coming, MainPoint.hand] at holds ⊢
    omega

/-- On its way to `accept` the loop starts no more threads than were coming. -/
theorem Effect.few {before after : Workers σ} {next : WorkerTurn}
    (effect : Effect pipeline options before next after) :
    after.Accepts ∨
      after.threads.length + after.main.coming ≤ before.threads.length + before.main.coming := by
  cases effect with
  | stay => exact Or.inr (Nat.le_refl _)
  | move main stop refusals quiet leaves lasts =>
      by_cases accepting : main = .accepting
      · exact Or.inl (Or.inl accepting)
      · exact Or.inr (Nat.add_le_add_left (coming_le_of_hand quiet.hand accepting) _)
  | stop main quiet leaves => exact Or.inl (Or.inr leaves)
  | fail | join | finish => exact Or.inl (Or.inr rfl)
  | accept client main configured | grant client socket main room | increment client socket main =>
      rw [main]
      exact Or.inr (Nat.le_refl _)
  | refuse client socket main full =>
      rw [main]
      exact Or.inr (Nat.le_succ _)
  | spawn client socket main =>
      right
      rw [main]
      show (before.threads ++ [_]).length + 0 ≤ _
      rw [List.length_append]
      exact Nat.le_refl _
  | reap position index worker joined main slot thread join =>
      right
      show (before.threads.set index joined).length + 0 ≤ _
      rw [List.length_set]
      exact Nat.le_add_right _ _
  | serve index worker serving thread point served =>
      right
      show (before.threads.set index _).length + before.main.coming ≤ _
      rw [List.length_set]
  | leave index worker thread point | decrement index worker thread point
  | finishThread index worker thread point | endThread index worker thread point =>
      right
      show (before.threads.set index _).length + before.main.coming ≤ _
      rw [List.length_set]

theorem Looping.step {limit : Nat} {system : Workers σ} (looping : system.Looping limit)
    (off : ¬system.Accepts) (next : WorkerTurn) :
    (system.step pipeline options next).Looping limit := by
  have effect := step_effect pipeline options system next
  have few := looping.few.resolve_left off
  exact ⟨looping.handled.effect effect, looping.joinable.effect effect,
    looping.flagged.effect pipeline options effect, looping.reaped.step pipeline options next,
    (effect.few pipeline options).imp_right fun most => Nat.le_trans most few⟩

/-- What helps is a turn of `run`, or of the thread it joins. -/
theorem Helps.turn {system : Workers σ} {next : WorkerTurn} (helps : system.Helps next) :
    next = .main ∨ (system.waits ≠ 0 ∧ ∃ position index, system.main = .joiningFinished position ∧
      system.slots[position]? = some index ∧ next = .worker index) := by
  unfold Helps at helps
  split at helps
  · exact Or.inl helps
  · next waiting => exact Or.inr ⟨waiting, helps⟩

/-- As long as `run` waits as before, the same turns help. -/
theorem ThreadMoved.keeps {before after : Workers σ} {index : Nat}
    (moved : ThreadMoved index before after) (same : after.waits = before.waits) :
    after.rank = before.rank ∧ ∀ turn, before.Helps turn → after.Helps turn := by
  refine ⟨by rw [Workers.rank, Workers.rank, moved.main, moved.slots, same], fun turn helps => ?_⟩
  unfold Helps at helps ⊢
  rw [moved.main, moved.slots, same]
  exact helps

/-- The thread that `run` joins is at its last step. -/
theorem ending_of_waits {system : Workers σ} (flagged : system.Flagged) (reaped : system.Reaped)
    (waiting : system.waits ≠ 0) {position index : Nat}
    (main : system.main = .joiningFinished position)
    (slot : system.slots[position]? = some index) :
    ∃ worker, system.threads[index]? = some worker ∧ worker.point = .ending := by
  obtain ⟨place, worker, found, thread, finished⟩ := reaped position main
  obtain rfl : index = place := Option.some.inj (slot.symm.trans found)
  refine ⟨worker, thread, (flagged worker (List.mem_of_getElem? thread) finished).resolve_right ?_⟩
  intro ended
  rw [waits_of_joining main slot thread, if_pos ended] at waiting
  exact waiting rfl

/-- **Every turn off `accept` brings `run` nearer to it, or keeps what helps.** -/
theorem step_falls {limit : Nat} {system : Workers σ} (looping : system.Looping limit)
    (off : ¬system.Accepts) (next : WorkerTurn) :
    (system.step pipeline options next).rank < system.rank ∨
      ((system.step pipeline options next).rank = system.rank ∧ ¬system.Helps next ∧
        ∀ turn, system.Helps turn → (system.step pipeline options next).Helps turn) := by
  obtain ⟨-, joinable, flagged, reaped, -⟩ := looping
  cases next with
  | main =>
      by_cases free : system.waits = 0
      · exact Or.inl (mainStep_rank options reaped off free)
      · have joining : ∃ position, system.main = .joiningFinished position := by
          by_contra elsewhere
          exact free (waits_of_ne fun p is => elsewhere ⟨p, is⟩)
        obtain ⟨position, main⟩ := joining
        obtain ⟨index, worker, slot, thread, -⟩ := reaped position main
        have running : worker.point ≠ .ended := by
          intro ended
          rw [waits_of_joining main slot thread, if_pos ended] at free
          exact free rfl
        have same : system.step pipeline options .main = system := by
          show system.mainStep options = system
          have once : worker.joins = 0 := by
            by_contra joined
            exact running (joinable.ended index worker thread joined)
          unfold mainStep
          simp only [main, slot, joinThread, thread, ClientWorker.join, once, if_true,
            if_neg running]
        rw [same]
        refine Or.inr ⟨rfl, fun helps => ?_, fun _ => id⟩
        unfold Helps at helps
        rw [if_neg free] at helps
        obtain ⟨_, _, _, _, is⟩ := helps
        cases is
  | accept outcome =>
      have same : system.step pipeline options (.accept outcome) = system :=
        acceptStep_waits (fun is => off (Or.inl is)) outcome
      rw [same]
      refine Or.inr ⟨rfl, fun helps => ?_, fun _ => id⟩
      rcases helps.turn with is | ⟨_, _, _, _, _, is⟩ <;> cases is
  | worker index =>
      rcases workerStep_moved pipeline options system index with same | moved
      · have same : system.step pipeline options (.worker index) = system := same
        refine Or.inr ⟨by rw [same], fun helps => ?_, by rw [same]; exact fun _ => id⟩
        rcases helps.turn with is | ⟨waiting, position, place, main, slot, is⟩
        · cases is
        · obtain rfl : index = place := WorkerTurn.worker.inj is
          obtain ⟨worker, thread, ending⟩ := ending_of_waits flagged reaped waiting main slot
          have moves : system.step pipeline options (.worker index) =
              system.setThread index { worker with point := .ended } := by
            show system.workerStep pipeline options index = _
            unfold workerStep
            simp only [thread, ending]
          have changed := congrArg (fun s : Workers σ => s.threads[index]?) (moves.symm.trans same)
          have inside := (List.getElem?_eq_some_iff.1 thread).1
          simp only [setThread, List.getElem?_set_self inside, thread] at changed
          have point := congrArg ClientWorker.point (Option.some.inj changed)
          cases point.trans ending
      · rcases moved.rank flagged reaped with less | ⟨same, elsewhere⟩
        · exact Or.inl less
        · obtain ⟨kept, helps⟩ := moved.keeps same
          refine Or.inr ⟨kept, fun useful => ?_, helps⟩
          rcases useful.turn with is | ⟨waiting, position, place, main, slot, is⟩
          · cases is
          · obtain rfl : index = place := WorkerTurn.worker.inj is
            exact elsewhere position main waiting slot
  | throws index =>
      have useless : ¬system.Helps (.throws index) := by
        intro helps
        rcases helps.turn with is | ⟨_, _, _, _, _, is⟩ <;> cases is
      rcases throwStep_moved system index with same | moved
      · have same : system.step pipeline options (.throws index) = system := same
        rw [same]
        exact Or.inr ⟨rfl, useless, fun _ => id⟩
      · rcases moved.rank flagged reaped with less | ⟨same, -⟩
        · exact Or.inl less
        · obtain ⟨kept, helps⟩ := moved.keeps same
          exact Or.inr ⟨kept, useless, helps⟩

theorem descends_looping (limit : Nat) :
    Machine.Descends (turn pipeline options) (Looping limit) (Accepts : Workers σ → Prop) rank
      Helps where
  kept _ next looping off := looping.step pipeline options off next
  falls _ next looping off := step_falls pipeline options looping off next

/-- A fair block has the turn that helps. -/
theorem helped_of_fair {limit : Nat} {system : Workers σ} (looping : system.Looping limit)
    (off : ¬system.Accepts) {block : List WorkerTurn} (fair : FairBlock limit block) :
    ∃ next ∈ block, system.Helps next := by
  have few := looping.few.resolve_left off
  by_cases free : system.waits = 0
  · exact ⟨.main, fair.main, by unfold Helps; rw [if_pos free]⟩
  · have joining : ∃ position, system.main = .joiningFinished position := by
      by_contra elsewhere
      exact free (waits_of_ne fun p is => elsewhere ⟨p, is⟩)
    obtain ⟨position, main⟩ := joining
    obtain ⟨index, worker, slot, thread, -⟩ := looping.reaped position main
    obtain ⟨inside, -⟩ := List.getElem?_eq_some_iff.1 thread
    refine ⟨.worker index, fair.workers index (by omega), ?_⟩
    unfold Helps
    rw [if_neg free]
    exact ⟨position, index, main, slot, rfl⟩

section Reachable

variable {start : σ} {stop : StopRequested} {schedule : List WorkerTurn}
  {blocks : List (List WorkerTurn)}

theorem looping_after (start : σ) (stop : StopRequested) (schedule : List WorkerTurn) :
    ((initial start stop).after pipeline options schedule).Looping
      (((initial start stop).after pipeline options schedule).threads.length + 1) := by
  have sound := after_sound pipeline options start stop schedule
  refine ⟨sound.handled, sound.joinable, ?_, ?_, Or.inr ?_⟩
  · exact after_invariant pipeline options (fun effect known => known.effect pipeline options effect)
      (fun worker member => absurd member List.not_mem_nil) schedule
  · exact @Machine.after_invariant (Workers σ) WorkerTurn Unit (turn pipeline options) Reaped
      (fun _ next known => known.step pipeline options next) (initial start stop)
      (fun position main => by cases main) schedule
  · refine Nat.add_le_add_left ?_ _
    unfold MainPoint.coming
    split <;> omega

/-- Who has which client while `run` holds none. -/
theorem Handled.settled {system : Workers σ} (handled : system.Handled)
    (accepts : system.Accepts) {client : Nat} (known : client < system.accepted.length) :
    (∃ worker ∈ system.threads, worker.client = client) ∨
      ∃ refusal ∈ system.refused, refusal.client = client := by
  have empty : system.main.hand.clients = [] := by
    rcases accepts with accepting | leaves
    · rw [accepting]
      rfl
    · cases main : system.main <;> simp [main, MainPoint.leaves] at leaves <;> rfl
  unfold Handled at handled
  rw [empty, List.append_nil] at handled
  have member := handled.mem_iff.2 (List.mem_range.2 known)
  simpa only [List.mem_append, List.mem_map] using member

/-- **No client holds up the accept loop.**  From any moment of any interleaving, if only
`run` and the threads get turns, whatever their clients do: before more rounds are over
than nine and three for each slot, `run` is in `accept` again, or on its way out, and every
client accepted by then has its worker or was refused. -/
theorem accepts_again
    (fair : ∀ block ∈ blocks, FairBlock
      (((initial start stop).after pipeline options schedule).threads.length + 1) block)
    (enough : 9 + 3 * ((initial start stop).after pipeline options schedule).slots.length <
      blocks.length) :
    ∃ front, front <+: blocks.flatten ∧
      let later := (initial start stop).after pipeline options (schedule ++ front)
      (later.main = .accepting ∨ later.main.leaves = true) ∧
        ∀ client < later.accepted.length, (∃ worker ∈ later.threads, worker.client = client) ∨
          ∃ refusal ∈ later.refused, refusal.client = client := by
  have looping := looping_after pipeline options start stop schedule
  obtain ⟨front, isFront, known, accepts⟩ :=
    (descends_looping pipeline options _).target_of_blocks looping
      (fun block member system known off =>
        helped_of_fair known off (fair block member))
      (Nat.lt_of_le_of_lt (rank_le _) enough)
  have later : (initial start stop).after pipeline options (schedule ++ front) =
      Machine.after (turn pipeline options) ((initial start stop).after pipeline options schedule)
        front := Machine.after_append _ _ _ _
  refine ⟨front, isFront, ?_⟩
  rw [later]
  exact ⟨accepts, fun client inside => known.handled.settled accepts inside⟩

end Reachable

/-- One client is served, the next one has just been accepted. -/
def secondAccepted : List WorkerTurn :=
  [.main, .main, .main, .accept (.accepted { socket := { incoming := [.interrupted] } }), .main,
    .main, .main, .main, .main, .main, .main, .accept (.accepted { socket := {} })]

theorem accepts_again_second :
    ∃ front, front <+: (List.replicate 13 (roundRobin 2 ++ [])).flatten ∧
      let later := (initial .empty .never).after (localPipeline InMemoryStorage) {}
        (secondAccepted ++ front)
      (later.main = .accepting ∨ later.main.leaves = true) ∧
        ∀ client < later.accepted.length, (∃ worker ∈ later.threads, worker.client = client) ∨
          ∃ refusal ∈ later.refused, refusal.client = client :=
  accepts_again (localPipeline InMemoryStorage) {}
    (fun block member => by
      rw [List.eq_of_mem_replicate member]
      exact fairBlock_roundRobin 2 _)
    (by decide)

end Workers

end AsterKV.Network
