/-
# AsterKV.Network.RunStatus -- what run returns

`run` returns OK for a stop request and a failure for a call of `accept` that brings nothing
to go on with.  `leaves_because` says which it is: once `run` is on its way out, the status
and the answers of the stop callback go together, and a failure is the one of an `accept` that
can be found in the schedule.  Such an `accept` decides for good (`after_failed_accept`).
-/
import AsterKV.Network.Workers

namespace AsterKV.Network

open AsterKV.Core AsterKV.Pipeline
open Theory

set_option autoImplicit false

/-- What `run` is going to return, or has returned. -/
def MainPoint.outcome : MainPoint → Option Status
  | .joining _ status => some status
  | .returned status => some status
  | _ => none

/-- What `acceptClient` makes of the end of an `accept`. -/
def AcceptOutcome.status : AcceptOutcome → Status
  | .accepted client => configureClientSocket client
  | .interrupted => .ok
  | .failed description => acceptFailure description

variable {σ : Type} (pipeline : LinePipeline σ) (options : TcpLineServerOptions)

namespace Workers

/-- All that a turn can do to the status. -/
inductive StatusEffect (before : Workers σ) (next : WorkerTurn) (after : Workers σ) : Prop where
  | same (outcome : after.main.outcome = before.main.outcome)
      (stopped : after.stopped = before.stopped)
  | stop (inLoop : before.main.outcome = none) (outcome : after.main.outcome = some .ok)
      (stopped : after.stopped = true)
  | fail (answer : AcceptOutcome) (turn : next = .accept answer)
      (accepting : before.main = .accepting) (failed : answer.status.isOk = false)
      (outcome : after.main.outcome = some answer.status) (stopped : after.stopped = before.stopped)

theorem polled_statusEffect {system : Workers σ} {next : WorkerTurn} {otherwise : MainPoint}
    (inLoop : system.main.outcome = none) (goesOn : otherwise.outcome = none) :
    StatusEffect system next (system.polled (.joining 0 .ok) otherwise) := by
  unfold polled
  cases system.stop.poll.1 with
  | true =>
      refine .stop inLoop rfl ?_
      exact Bool.or_true _
  | false =>
      refine .same ?_ ?_
      · rw [inLoop]
        exact goesOn
      · exact Bool.or_false _

theorem joinThread_statusEffect {system : Workers σ} {next : WorkerTurn} (index : Nat)
    (slots : List Nat) {main : MainPoint} (same : main.outcome = system.main.outcome) :
    StatusEffect system next (system.joinThread index slots main) := by
  rcases system.joinThread_cases index slots main with waits | ⟨worker, joined, -, -, goesOn⟩
  · rw [waits]
    exact .same rfl rfl
  · rw [goesOn]
    exact .same same rfl

theorem mainStep_statusEffect (system : Workers σ) :
    StatusEffect system .main (system.mainStep options) := by
  unfold mainStep
  cases main : system.main with
  | loopTest | acceptTest | interrupted =>
      exact polled_statusEffect (by rw [main]; rfl) rfl
  | reaping position =>
      dsimp only
      cases system.slots[position]? with
      | none => exact .same (by rw [main]; rfl) rfl
      | some index =>
          dsimp only
          split
          · exact .same (by rw [main]; rfl) rfl
          · exact .same (by rw [main]; rfl) rfl
  | joiningFinished position =>
      dsimp only
      cases system.slots[position]? with
      | none => exact .same rfl rfl
      | some index => exact joinThread_statusEffect _ _ (by rw [main]; rfl)
  | checking client clientFd =>
      dsimp only
      split
      · exact .same (by rw [main]; rfl) rfl
      · exact .same (by rw [main]; rfl) rfl
  | rejecting clientFd | incrementing client clientFd | spawning client clientFd =>
      exact .same (by rw [main]; rfl) rfl
  | joining position status =>
      dsimp only
      cases system.slots[position]? with
      | none => exact .same (by rw [main]; rfl) rfl
      | some index => exact joinThread_statusEffect _ _ (by rw [main]; rfl)
  | accepting | returned status => exact .same rfl rfl

theorem acceptStep_statusEffect (system : Workers σ) (answer : AcceptOutcome) :
    StatusEffect system (.accept answer) (system.acceptStep answer) := by
  unfold acceptStep
  split
  · next main =>
      cases answer with
      | interrupted => exact .same (by rw [main]; rfl) rfl
      | failed description => exact .fail _ rfl main rfl rfl rfl
      | accepted client =>
          dsimp only
          split
          · next failed => exact .fail _ rfl main (by simpa [AcceptOutcome.status] using failed) rfl rfl
          · exact .same (by rw [main]; rfl) rfl
  · exact .same rfl rfl

/-- A worker does not touch the thread of `run`. -/
theorem workerStep_main (system : Workers σ) (index : Nat) :
    (system.workerStep pipeline options index).main = system.main ∧
      (system.workerStep pipeline options index).stopped = system.stopped := by
  unfold workerStep
  cases system.threads[index]? with
  | none => exact ⟨rfl, rfl⟩
  | some worker =>
      dsimp only
      split
      · split
        · exact ⟨rfl, rfl⟩
        · exact ⟨rfl, rfl⟩
      · exact ⟨rfl, rfl⟩
      · exact ⟨rfl, rfl⟩
      · exact ⟨rfl, rfl⟩
      · exact ⟨rfl, rfl⟩

theorem throwStep_main (system : Workers σ) (index : Nat) :
    (system.throwStep index).main = system.main ∧
      (system.throwStep index).stopped = system.stopped := by
  unfold throwStep
  cases system.threads[index]? with
  | none => exact ⟨rfl, rfl⟩
  | some worker =>
      dsimp only
      split
      · exact ⟨rfl, rfl⟩
      · exact ⟨rfl, rfl⟩

theorem step_statusEffect (system : Workers σ) (next : WorkerTurn) :
    StatusEffect system next (system.step pipeline options next) := by
  cases next with
  | main => exact mainStep_statusEffect options system
  | accept answer => exact acceptStep_statusEffect system answer
  | worker index =>
      obtain ⟨main, stopped⟩ := workerStep_main pipeline options system index
      exact .same (congrArg _ main) stopped
  | throws index =>
      obtain ⟨main, stopped⟩ := throwStep_main system index
      exact .same (congrArg _ main) stopped

/-- A status that is once decided on is returned. -/
theorem outcome_step {system : Workers σ} {status : Status}
    (decided : system.main.outcome = some status) (next : WorkerTurn) :
    (system.step pipeline options next).main.outcome = some status := by
  cases step_statusEffect pipeline options system next with
  | same outcome stopped => exact outcome.trans decided
  | stop inLoop outcome stopped =>
      rw [decided] at inLoop
      cases inLoop
  | fail answer turn accepting failed outcome stopped =>
      rw [accepting] at decided
      cases decided

/-- A call of `accept` that brings nothing to go on with decides on its failure. -/
theorem outcome_of_failed {system : Workers σ} (accepting : system.main = .accepting)
    {answer : AcceptOutcome} (failed : answer.status.isOk = false) :
    (system.acceptStep answer).main.outcome = some answer.status := by
  unfold acceptStep
  rw [accepting]
  cases answer with
  | interrupted => cases failed
  | failed description => rfl
  | accepted client =>
      have failed : (configureClientSocket client).isOk = false := failed
      simp only [failed, Bool.not_false, if_true]
      rfl

theorem after_failed_accept {start : Workers σ} {front : List WorkerTurn} {answer : AcceptOutcome}
    (accepting : (start.after pipeline options front).main = .accepting)
    (failed : answer.status.isOk = false) (rest : List WorkerTurn) :
    (start.after pipeline options (front ++ .accept answer :: rest)).main.outcome =
      some answer.status := by
  have split : start.after pipeline options (front ++ .accept answer :: rest) =
      ((start.after pipeline options front).acceptStep answer).after pipeline options rest :=
    Machine.after_append _ _ _ _
  rw [split]
  exact @Machine.after_invariant (Workers σ) WorkerTurn Unit (turn pipeline options)
    (fun s => s.main.outcome = some answer.status)
    (fun _ next decided => outcome_step pipeline options decided next) _
    (outcome_of_failed accepting failed) rest

/-- Why `run` is on its way out after a schedule, or that it is not: the stop callback has
answered true or not, and what `run` is going to return. -/
inductive Because (start : Workers σ) (schedule : List WorkerTurn) : Bool → Option Status → Prop
  | goesOn : Because start schedule false none
  | asked : Because start schedule true (some .ok)
  | accept (front rest : List WorkerTurn) (answer : AcceptOutcome)
      (place : schedule = front ++ .accept answer :: rest)
      (accepting : (start.after pipeline options front).main = .accepting)
      (failed : answer.status.isOk = false) : Because start schedule false (some answer.status)

variable {pipeline options}

theorem Because.append {start : Workers σ} {schedule : List WorkerTurn} {stopped : Bool}
    {outcome : Option Status} (known : Because pipeline options start schedule stopped outcome)
    (more : List WorkerTurn) : Because pipeline options start (schedule ++ more) stopped outcome := by
  cases known with
  | goesOn => exact .goesOn
  | asked => exact .asked
  | accept front rest answer place accepting failed =>
      refine .accept front (rest ++ more) answer ?_ accepting failed
      rw [place, List.append_assoc, List.cons_append]

theorem Because.outcome_of_accepting {start : Workers σ} {schedule : List WorkerTurn}
    {stopped : Bool} (known : Because pipeline options start schedule stopped none) :
    stopped = false := by
  cases known
  rfl

variable (pipeline options)

/-- **Why `run` leaves its loop**, after every schedule. -/
theorem leaves_because (start : σ) (stop : StopRequested) (schedule : List WorkerTurn) :
    Because pipeline options (initial start stop) schedule
      ((initial start stop).after pipeline options schedule).stopped
      ((initial start stop).after pipeline options schedule).main.outcome := by
  induction schedule using List.reverseRecOn with
  | nil => exact .goesOn
  | append_singleton front next ih =>
      have last : (initial start stop).after pipeline options (front ++ [next]) =
          ((initial start stop).after pipeline options front).step pipeline options next :=
        Machine.after_append _ _ _ _
      rw [last]
      cases step_statusEffect pipeline options
        ((initial start stop).after pipeline options front) next with
      | same outcome stopped =>
          rw [outcome, stopped]
          exact ih.append [next]
      | stop inLoop outcome stopped =>
          rw [outcome, stopped]
          exact .asked
      | fail answer turn accepting failed outcome stopped =>
          have inLoop : ((initial start stop).after pipeline options front).stopped = false := by
            rw [accepting] at ih
            exact ih.outcome_of_accepting
          rw [outcome, stopped, inLoop]
          exact .accept front [] answer (by rw [turn]) accepting failed

end Workers

end AsterKV.Network
