/-
# AsterKV.Network.AcceptFailures -- what makes run return

`run` leaves its accept loop when the stop callback answers true, and also when a call of
`accept` fails with another error than EINTR or the accepted socket cannot be configured.

* `leaves_loop_iff` -- it leaves the loop unasked exactly in the runs where that happens;
* `returns_only_when_stopped` -- in all other runs it returns only when it was asked to,
  whatever the connections do;
* `returns_unasked` -- one connection that is aborted before it is accepted makes it return.
-/
import AsterKV.Network.Workers
import AsterKV.Storage.InMemoryStorage

namespace AsterKV.Network

open AsterKV.Core AsterKV.Pipeline AsterKV.Storage
open Theory

set_option autoImplicit false

variable {σ : Type} (pipeline : LinePipeline σ) (options : TcpLineServerOptions)

namespace Workers

/-- If the turn ends a call of `accept`, then with something to go on with. -/
def acceptsUsable (system : Workers σ) (next : WorkerTurn) : Bool :=
  match system.main, next with
  | .accepting, .accept outcome => outcome.isUsable
  | _, _ => true

theorem acceptsUsable_accept {system : Workers σ} (accepting : system.main = .accepting)
    (outcome : AcceptOutcome) : system.acceptsUsable (.accept outcome) = outcome.isUsable := by
  simp only [acceptsUsable, accepting]

/-- In a run of these steps every `accept` brings something to go on with. -/
def AcceptsUsable (system : Workers σ) (next : WorkerTurn) : Prop :=
  system.acceptsUsable next = true

instance (system : Workers σ) (next : WorkerTurn) : Decidable (system.AcceptsUsable next) :=
  inferInstanceAs (Decidable (system.acceptsUsable next = true))

/-- `run` leaves its loop only after the callback has answered true. -/
def LeavesWhenStopped (system : Workers σ) : Prop :=
  system.main.leaves = true → system.stopped = true

/-- In the loop, no answer has been true. -/
def Unasked (system : Workers σ) : Prop := system.main.leaves = false → system.stopped = false

variable {pipeline options}

/-- A turn that leaves `stopped` and stays in the loop or behind it. -/
theorem Unasked.same {before after : Workers σ} (known : before.Unasked)
    (leaves : after.main.leaves = before.main.leaves) (stopped : after.stopped = before.stopped) :
    after.Unasked := by
  unfold Unasked
  rw [leaves, stopped]
  exact known

theorem LeavesWhenStopped.same {before after : Workers σ} (known : before.LeavesWhenStopped)
    (leaves : after.main.leaves = before.main.leaves) (stopped : after.stopped = before.stopped) :
    after.LeavesWhenStopped := by
  unfold LeavesWhenStopped
  rw [leaves, stopped]
  exact known

/-- What a turn does to the loop. -/
inductive LoopEffect (before : Workers σ) (next : WorkerTurn) (after : Workers σ) : Prop where
  | same (leaves : after.main.leaves = before.main.leaves)
      (stopped : after.stopped = before.stopped)
  | stop (leaves : after.main.leaves = true) (stopped : after.stopped = true)
  | fail (outcome : AcceptOutcome) (accepting : before.main = .accepting)
      (turn : next = .accept outcome) (unusable : outcome.isUsable = false)

theorem Effect.loopEffect {before after : Workers σ} {next : WorkerTurn}
    (effect : Effect pipeline options before next after) : LoopEffect before next after := by
  have moved : ∀ main, before.main = main → after.main.leaves = main.leaves →
      after.stopped = before.stopped → LoopEffect before next after := by
    intro main same leaves stopped
    rw [← same] at leaves
    exact .same leaves stopped
  cases effect with
  | stay => exact .same rfl rfl
  | move main stop refusals quiet leaves lasts => exact .same leaves rfl
  | stop main quiet leaves => exact .stop leaves rfl
  | fail outcome status main unusable => exact .fail outcome main rfl unusable
  | accept client main configured => exact moved _ main rfl rfl
  | refuse client socket main noRoom => exact moved _ main rfl rfl
  | grant client socket main below => exact moved _ main rfl rfl
  | increment client socket main => exact moved _ main rfl rfl
  | spawn client socket main => exact moved _ main rfl rfl
  | reap position index worker joined main slot thread join => exact moved _ main rfl rfl
  | join position index status worker joined main slot thread join => exact moved _ main rfl rfl
  | finish position status main through => exact moved _ main rfl rfl
  | serve index worker serving thread point served => exact .same rfl rfl
  | leave index worker thread point => exact .same rfl rfl
  | decrement index worker thread point => exact .same rfl rfl
  | finishThread index worker thread point => exact .same rfl rfl
  | endThread index worker thread point => exact .same rfl rfl

/-- An unusable answer of `accept` ends the loop with the failure it stands for. -/
theorem step_of_unusable {system : Workers σ} (accepting : system.main = .accepting)
    {outcome : AcceptOutcome} (unusable : outcome.isUsable = false) :
    (system.step pipeline options (.accept outcome)).main.leaves = true ∧
      (system.step pipeline options (.accept outcome)).stopped = system.stopped := by
  show (system.acceptStep outcome).main.leaves = true ∧ (system.acceptStep outcome).stopped = _
  unfold acceptStep
  rw [accepting]
  cases outcome with
  | interrupted => cases unusable
  | failed description => exact ⟨rfl, rfl⟩
  | accepted client =>
      have failed : (configureClientSocket client).isOk = false := unusable
      simp only [failed, Bool.not_false, if_true]
      exact ⟨rfl, trivial⟩

variable (pipeline options)

/-- A turn that brings an unusable answer of `accept` is at an `accept`. -/
theorem unusable_cases {system : Workers σ} {next : WorkerTurn}
    (unusable : system.acceptsUsable next = false) :
    system.main = .accepting ∧ ∃ outcome, next = .accept outcome ∧ outcome.isUsable = false := by
  unfold acceptsUsable at unusable
  split at unusable
  · next outcome accepting => exact ⟨accepting, outcome, rfl, unusable⟩
  · cases unusable

/-- A loop that is not left, or for no other reason, stays so exactly under a turn that
does not bring an unusable answer of `accept`. -/
theorem leavesWhenStopped_step {system : Workers σ} (unasked : system.Unasked)
    (known : system.LeavesWhenStopped) (next : WorkerTurn) :
    (system.step pipeline options next).LeavesWhenStopped ↔ system.AcceptsUsable next := by
  constructor
  · intro after
    cases usable : system.acceptsUsable next with
    | true => exact usable
    | false =>
        obtain ⟨accepting, outcome, rfl, unusable⟩ := unusable_cases usable
        obtain ⟨leaves, same⟩ :=
          @step_of_unusable σ pipeline options system accepting outcome unusable
        have stopped := after leaves
        rw [same, unasked (by rw [accepting]; rfl)] at stopped
        cases stopped
  · intro usable
    cases (step_effect pipeline options system next).loopEffect with
    | same leaves stopped => exact known.same leaves stopped
    | stop leaves stopped => exact fun _ => stopped
    | fail outcome accepting turn unusable =>
        rw [AcceptsUsable, turn, acceptsUsable_accept accepting, unusable] at usable
        cases usable

theorem unasked_step {system : Workers σ} (unasked : system.Unasked) (next : WorkerTurn)
    (usable : system.AcceptsUsable next) : (system.step pipeline options next).Unasked := by
  cases (step_effect pipeline options system next).loopEffect with
  | same leaves stopped => exact unasked.same leaves stopped
  | stop leaves stopped =>
      intro inLoop
      rw [leaves] at inLoop
      cases inLoop
  | fail outcome accepting turn unusable =>
      rw [AcceptsUsable, turn, acceptsUsable_accept accepting, unusable] at usable
      cases usable

/-- **run leaves its loop unasked exactly when an `accept` brings nothing to go on with.** -/
theorem leaves_loop_iff (start : σ) (stop : StopRequested) (schedule : List WorkerTurn) :
    Machine.Always (turn pipeline options) LeavesWhenStopped (initial start stop) schedule ↔
      Machine.Steps (turn pipeline options) AcceptsUsable (initial start stop) schedule := by
  refine @Machine.always_iff _ _ _ (turn pipeline options) Unasked _ _ ?_ ?_ _ _ ?_ ?_
  · intro system next unasked known
    exact leavesWhenStopped_step pipeline options unasked known next
  · intro system next unasked known usable
    exact unasked_step pipeline options unasked next usable
  · exact fun _ => rfl
  · intro leaves
    cases leaves

/-- **While every `accept` brings something to go on with, `run` returns only when it is
asked to**: at every moment of such a run, whatever the connections do and in whatever
order the threads go on, `run` has not returned unless the callback has answered true. -/
theorem returns_only_when_stopped (start : σ) (stop : StopRequested) (schedule : List WorkerTurn)
    (usable : Machine.Steps (turn pipeline options) AcceptsUsable (initial start stop) schedule)
    (front : List WorkerTurn) (isFront : front <+: schedule) (status : Status)
    (returned : ((initial start stop).after pipeline options front).main = .returned status) :
    ((initial start stop).after pipeline options front).stopped = true := by
  have always := (leaves_loop_iff pipeline options start stop schedule).2 usable
  have here := (Machine.always_iff_forall_prefix (turn pipeline options)).1 always front isFront
  refine here ?_
  show ((initial start stop).after pipeline options front).main.leaves = true
  rw [returned]
  rfl

/-- A client whose connection is reset, and one beyond the limit of one worker that cannot
be told so; then the stop. -/
def brokenClients : List WorkerTurn :=
  let reset : Client := { socket := { incoming := [.failed (bytes "Connection reset by peer")] } }
  let gone : Client := { socket := { sends := [.failed (bytes "Broken pipe")] } }
  [.main, .main, .main, .accept (.accepted reset), .main, .main, .main, .worker 0, .worker 0,
    .main, .main, .main, .main, .accept (.accepted gone), .main, .main, .worker 0, .worker 0,
    .worker 0, .worker 0, .main, .main, .main]

theorem returns_only_when_stopped_broken :
    ((initial .empty (.after 5)).after (localPipeline InMemoryStorage) { maxClientWorkers := 1 }
      brokenClients).stopped = true :=
  returns_only_when_stopped (localPipeline InMemoryStorage) { maxClientWorkers := 1 } .empty
    (.after 5) brokenClients (by decide) brokenClients (List.prefix_refl _) .ok rfl

/-- One connection that is aborted before it is accepted makes `run` return, although
nobody asks it to. -/
theorem returns_unasked :
    ¬∀ (schedule : List WorkerTurn) (status : Status),
      ((initial .empty .never).after (localPipeline InMemoryStorage) {} schedule).main =
          .returned status →
        ((initial .empty .never).after (localPipeline InMemoryStorage) {} schedule).stopped =
          true := by
  intro claim
  have stopped := claim
    [.main, .main, .main, .accept (.failed (bytes "Software caused connection abort")), .main]
    (acceptFailure (bytes "Software caused connection abort")) rfl
  cases stopped

end Workers

end AsterKV.Network
