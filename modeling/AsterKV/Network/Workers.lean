/-
# AsterKV.Network.Workers -- run and its worker threads, step by step

The thread of `run` and the threads of the workers take their steps in any order; a
schedule says whose turn it is.  They share the storage, the stop callback, the counter
`activeClientWorkers` and each worker's `finished` flag; reading and changing the counter
are turns of their own.  A turn that has to wait (in `accept`, or in `join` for a thread
that has not ended) changes nothing.

`Effect` lists what a turn can do; `step_effect` is the only place where the steps are
unfolded.  An exception ends `serveClient` between two of its steps.  That a thread cannot
be started is not modelled.
-/
import AsterKV.Network.AcceptLoop
import AsterKV.Network.ServeSteps

namespace AsterKV.Network

open AsterKV.Core AsterKV.Pipeline
open Theory

set_option autoImplicit false

/-! ## The threads -/

/-- Where a worker's thread stands. -/
inductive WorkerPoint where
  /-- In `serveClient`. -/
  | serving
  /-- `serveClient` returned or threw; `fetch_sub` is next. -/
  | decrementing
  /-- The flag is stored next. -/
  | finishing
  /-- The thread's function returns next. -/
  | ending
  | ended
  deriving DecidableEq

structure ClientWorker (σ : Type) where
  /-- Which of the accepted clients is served. -/
  client : Nat
  point : WorkerPoint
  serving : Serving σ
  finished : Bool
  /-- How often the thread was joined. -/
  joins : Nat

/-- Where the thread of `run` stands.  A client is held by its place in the order of
arrival. -/
inductive MainPoint where
  | loopTest
  /-- `joinFinishedClientWorkers` at one of the slots, and in the `join` of its thread. -/
  | reaping (position : Nat)
  | joiningFinished (position : Nat)
  /-- `acceptClient`: the test of its loop, in `accept`, behind an interrupted `accept`. -/
  | acceptTest
  | accepting
  | interrupted
  | checking (client : Nat) (clientFd : Socket)
  | rejecting (clientFd : Socket)
  | incrementing (client : Nat) (clientFd : Socket)
  | spawning (client : Nat) (clientFd : Socket)
  /-- `joinClientWorkers` at one of the slots; what `run` is going to return. -/
  | joining (position : Nat) (status : Status)
  | returned (status : Status)

/-- A refused client, and what the counter was when it was read. -/
structure Refusal where
  client : Nat
  activeClientWorkers : UInt64
  deriving DecidableEq

structure Workers (σ : Type) where
  main : MainPoint
  storage : σ
  stop : StopRequested
  activeClientWorkers : UInt64
  /-- All the threads started so far. -/
  threads : List (ClientWorker σ)
  /-- The vector of the code: which threads have a slot. -/
  slots : List Nat
  /-- The sockets of the clients accepted so far. -/
  accepted : List Socket
  refused : List Refusal
  /-- What each refused client was sent. -/
  refusals : List Bytes
  /-- The lines executed so far, with the clients they are from. -/
  executed : List (Nat × Bytes)
  /-- The callback has answered true to the thread of `run`. -/
  stopped : Bool

/-- A turn: which thread goes on; in `accept` the kernel says how the call ends. -/
inductive WorkerTurn where
  | main
  | accept (outcome : AcceptOutcome)
  | worker (index : Nat)
  /-- An exception leaves the worker's `serveClient`. -/
  | throws (index : Nat)

variable {σ : Type} (pipeline : LinePipeline σ) (options : TcpLineServerOptions)

namespace ClientWorker

/-- `if (thread.joinable()) thread.join()`, or `none` while it waits. -/
def join (worker : ClientWorker σ) : Option (ClientWorker σ) :=
  if worker.joins = 0 then
    if worker.point = .ended then some { worker with joins := worker.joins + 1 } else none
  else some worker

end ClientWorker

namespace Workers

/-- `run` behind the creation of its listening socket. -/
def initial (storage : σ) (stop : StopRequested) : Workers σ where
  main := .loopTest
  storage := storage
  stop := stop
  activeClientWorkers := 0
  threads := []
  slots := []
  accepted := []
  refused := []
  refusals := []
  executed := []
  stopped := false

/-- `isStopRequested` decides where `run` goes on. -/
def polled (system : Workers σ) (whenStopped otherwise : MainPoint) : Workers σ :=
  { system with
      main := if system.stop.poll.1 then whenStopped else otherwise
      stop := system.stop.poll.2
      stopped := system.stopped || system.stop.poll.1 }

def setThread (system : Workers σ) (index : Nat) (worker : ClientWorker σ) : Workers σ :=
  { system with threads := system.threads.set index worker }

/-- The thread of a slot is joined and `run` goes on, or waits. -/
def joinThread (system : Workers σ) (index : Nat) (slots : List Nat) (main : MainPoint) :
    Workers σ :=
  match system.threads[index]? with
  | none => system
  | some worker =>
      match worker.join with
      | none => system
      | some worker => { system.setThread index worker with slots := slots, main := main }

def isFinished (system : Workers σ) (index : Nat) : Bool :=
  system.threads[index]?.elim false ClientWorker.finished

def hasWorkerCapacity (system : Workers σ) : Bool :=
  system.activeClientWorkers < options.maxClientWorkers

/-- The thread of `run` goes on. -/
def mainStep (system : Workers σ) : Workers σ :=
  match system.main with
  | .loopTest => system.polled (.joining 0 .ok) (.reaping 0)
  | .reaping position =>
      match system.slots[position]? with
      | none => { system with main := .acceptTest }
      | some index =>
          if system.isFinished index then { system with main := .joiningFinished position }
          else { system with main := .reaping (position + 1) }
  | .joiningFinished position =>
      match system.slots[position]? with
      | none => system
      | some index => system.joinThread index (system.slots.eraseIdx position) (.reaping position)
  | .acceptTest => system.polled (.joining 0 .ok) .accepting
  | .accepting => system
  | .interrupted => system.polled (.joining 0 .ok) .acceptTest
  | .checking client clientFd =>
      if !system.hasWorkerCapacity options then
        { system with
            main := .rejecting clientFd
            refused := system.refused ++ [⟨client, system.activeClientWorkers⟩] }
      else { system with main := .incrementing client clientFd }
  | .rejecting clientFd =>
      let delivery := sendAll clientFd.sends system.stop clientLimitResponse
      { system with
          main := .loopTest
          stop := delivery.stop
          refusals := system.refusals ++ [delivery.sent] }
  | .incrementing client clientFd =>
      { system with
          main := .spawning client clientFd
          activeClientWorkers := system.activeClientWorkers + 1 }
  | .spawning client clientFd =>
      let serving := Serving.opened system.storage clientFd system.stop
      { system with
          main := .loopTest
          threads := system.threads ++ [⟨client, .serving, serving, false, 0⟩]
          slots := system.slots ++ [system.threads.length] }
  | .joining position status =>
      match system.slots[position]? with
      | none => { system with main := .returned status, slots := [] }
      | some index => system.joinThread index system.slots (.joining (position + 1) status)
  | .returned _ => system

/-- `accept` returns to `acceptClient`. -/
def acceptStep (system : Workers σ) (outcome : AcceptOutcome) : Workers σ :=
  match system.main with
  | .accepting =>
      match outcome with
      | .interrupted => { system with main := .interrupted }
      | .failed description => { system with main := .joining 0 (acceptFailure description) }
      | .accepted client =>
          let configureStatus := configureClientSocket client
          if !configureStatus.isOk then { system with main := .joining 0 configureStatus }
          else
            { system with
                main := .checking system.accepted.length client.socket
                accepted := system.accepted ++ [client.socket] }
  | _ => system

/-- The thread of a worker goes on. -/
def workerStep (system : Workers σ) (index : Nat) : Workers σ :=
  match system.threads[index]? with
  | none => system
  | some worker =>
      match worker.point with
      | .serving =>
          match worker.serving.point with
          | .returned _ => system.setThread index { worker with point := .decrementing }
          | _ =>
              let serving :=
                serveStep pipeline options (worker.serving.resumed system.storage system.stop)
              let lines := newLines worker.serving.session serving.session
              { system.setThread index { worker with serving := serving } with
                  storage := serving.session.storage
                  stop := serving.session.stop
                  executed := system.executed ++ lines.map (worker.client, ·) }
      | .decrementing =>
          { system.setThread index { worker with point := .finishing } with
              activeClientWorkers := system.activeClientWorkers - 1 }
      | .finishing => system.setThread index { worker with point := .ending, finished := true }
      | .ending => system.setThread index { worker with point := .ended }
      | .ended => system

/-- `catch (...)`. -/
def throwStep (system : Workers σ) (index : Nat) : Workers σ :=
  match system.threads[index]? with
  | none => system
  | some worker =>
      if worker.point = .serving then system.setThread index { worker with point := .decrementing }
      else system

def step (system : Workers σ) : WorkerTurn → Workers σ
  | .main => system.mainStep options
  | .accept outcome => system.acceptStep outcome
  | .worker index => system.workerStep pipeline options index
  | .throws index => system.throwStep index

/-- A turn as the step of a machine; what it does shows in the state alone. -/
def turn (system : Workers σ) (next : WorkerTurn) : Unit × Workers σ :=
  ((), system.step pipeline options next)

/-- The state after a schedule. -/
def after (system : Workers σ) (schedule : List WorkerTurn) : Workers σ :=
  Machine.after (turn pipeline options) system schedule

end Workers

/-! ## What a turn can do -/

/-- What `run` does with the client it holds. -/
inductive Hand where
  | empty
  | checking (client : Nat) (clientFd : Socket)
  | granted (client : Nat) (clientFd : Socket)
  | counted (client : Nat) (clientFd : Socket)

namespace Hand

def held : Hand → Option (Nat × Socket)
  | .empty => none
  | .checking client clientFd => some (client, clientFd)
  | .granted client clientFd => some (client, clientFd)
  | .counted client clientFd => some (client, clientFd)

def clients (hand : Hand) : List Nat := hand.held.toList.map Prod.fst

@[simp] theorem clients_empty : empty.clients = [] := rfl

@[simp] theorem clients_checking (client : Nat) (clientFd : Socket) :
    (checking client clientFd).clients = [client] := rfl

@[simp] theorem clients_counted (client : Nat) (clientFd : Socket) :
    (counted client clientFd).clients = [client] := rfl

/-- One between an increment and its spawn. -/
def incremented : Hand → Nat
  | .empty => 0
  | .checking _ _ => 0
  | .granted _ _ => 0
  | .counted _ _ => 1

end Hand

namespace MainPoint

def hand : MainPoint → Hand
  | .checking client clientFd => .checking client clientFd
  | .incrementing client clientFd => .granted client clientFd
  | .spawning client clientFd => .counted client clientFd
  | _ => .empty

/-- How many of the slots `joinClientWorkers` is through with. -/
def joined : MainPoint → Nat
  | .joining position _ => position
  | _ => 0

def isReturned : MainPoint → Bool
  | .returned _ => true
  | _ => false

/-- `run` is on its way out, or has returned. -/
def leaves : MainPoint → Bool
  | .joining _ _ => true
  | .returned _ => true
  | _ => false

end MainPoint

/-- `accept` is interrupted, or hands over a client whose socket can be configured. -/
def AcceptOutcome.isUsable : AcceptOutcome → Bool
  | .interrupted => true
  | .failed _ => false
  | .accepted client => (configureClientSocket client).isOk

/-- A move of `run` that concerns no worker and does not return. -/
structure Quiet (before after : MainPoint) : Prop where
  hand : after.hand = before.hand
  joined : after.joined = before.joined
  goesOn : after.isReturned = false

namespace Workers

/-- **All that one turn can do**, with what is known then. -/
inductive Effect (system : Workers σ) : WorkerTurn → Workers σ → Prop where
  | stay {next : WorkerTurn} : Effect system next system
  | move {next : WorkerTurn} (main : MainPoint) (stop : StopRequested) (refusals : List Bytes)
      (quiet : Quiet system.main main) (leaves : main.leaves = system.main.leaves)
      (lasts : system.stop.poll.1 = true → stop.poll.1 = true) :
      Effect system next { system with main, stop, refusals }
  | stop (main : MainPoint) (quiet : Quiet system.main main)
      (leaves : main.leaves = true) :
      Effect system .main { system with main, stopped := true }
  | fail (outcome : AcceptOutcome) (status : Status) (main : system.main = .accepting)
      (unusable : outcome.isUsable = false) :
      Effect system (.accept outcome) { system with main := .joining 0 status }
  | accept (client : Client) (main : system.main = .accepting)
      (configured : (configureClientSocket client).isOk = true) :
      Effect system (.accept (.accepted client))
        { system with
            main := .checking system.accepted.length client.socket
            accepted := system.accepted ++ [client.socket] }
  | refuse (client : Nat) (socket : Socket) (main : system.main = .checking client socket)
      (full : ¬system.activeClientWorkers < options.maxClientWorkers) :
      Effect system .main
        { system with
            main := .rejecting socket
            refused := system.refused ++ [⟨client, system.activeClientWorkers⟩] }
  | grant (client : Nat) (socket : Socket) (main : system.main = .checking client socket)
      (room : system.activeClientWorkers < options.maxClientWorkers) :
      Effect system .main { system with main := .incrementing client socket }
  | increment (client : Nat) (socket : Socket) (main : system.main = .incrementing client socket) :
      Effect system .main
        { system with
            main := .spawning client socket
            activeClientWorkers := system.activeClientWorkers + 1 }
  | spawn (client : Nat) (socket : Socket) (main : system.main = .spawning client socket) :
      Effect system .main
        { system with
            main := .loopTest
            threads := system.threads ++
              [⟨client, .serving, .opened system.storage socket system.stop, false, 0⟩]
            slots := system.slots ++ [system.threads.length] }
  | reap (position index : Nat) (worker joined : ClientWorker σ)
      (main : system.main = .joiningFinished position)
      (slot : system.slots[position]? = some index) (thread : system.threads[index]? = some worker)
      (join : worker.join = some joined) :
      Effect system .main
        { system.setThread index joined with
            main := .reaping position
            slots := system.slots.eraseIdx position }
  | join (position index : Nat) (status : Status) (worker joined : ClientWorker σ)
      (main : system.main = .joining position status)
      (slot : system.slots[position]? = some index) (thread : system.threads[index]? = some worker)
      (join : worker.join = some joined) :
      Effect system .main
        { system.setThread index joined with main := .joining (position + 1) status }
  | finish (position : Nat) (status : Status) (main : system.main = .joining position status)
      (through : system.slots.length ≤ position) :
      Effect system .main { system with main := .returned status, slots := [] }
  | serve (index : Nat) (worker : ClientWorker σ) (serving : Serving σ)
      (thread : system.threads[index]? = some worker) (point : worker.point = .serving)
      (served : serving =
        serveStep pipeline options (worker.serving.resumed system.storage system.stop)) :
      Effect system (.worker index)
        { system.setThread index { worker with serving } with
            storage := serving.session.storage
            stop := serving.session.stop
            executed := system.executed ++
              (newLines worker.serving.session serving.session).map (worker.client, ·) }
  | leave {next : WorkerTurn} (index : Nat) (worker : ClientWorker σ)
      (thread : system.threads[index]? = some worker) (point : worker.point = .serving) :
      Effect system next (system.setThread index { worker with point := .decrementing })
  | decrement (index : Nat) (worker : ClientWorker σ)
      (thread : system.threads[index]? = some worker) (point : worker.point = .decrementing) :
      Effect system (.worker index)
        { system.setThread index { worker with point := .finishing } with
            activeClientWorkers := system.activeClientWorkers - 1 }
  | finishThread (index : Nat) (worker : ClientWorker σ)
      (thread : system.threads[index]? = some worker) (point : worker.point = .finishing) :
      Effect system (.worker index)
        (system.setThread index { worker with point := .ending, finished := true })
  | endThread (index : Nat) (worker : ClientWorker σ)
      (thread : system.threads[index]? = some worker) (point : worker.point = .ending) :
      Effect system (.worker index) (system.setThread index { worker with point := .ended })

/-- A call of `join` that waits changes nothing. -/
theorem joinThread_cases (system : Workers σ) (index : Nat) (slots : List Nat) (main : MainPoint) :
    system.joinThread index slots main = system ∨
      ∃ worker joined, system.threads[index]? = some worker ∧ worker.join = some joined ∧
        system.joinThread index slots main =
          { system.setThread index joined with slots := slots, main := main } := by
  unfold joinThread
  cases thread : system.threads[index]? with
  | none => exact Or.inl rfl
  | some worker =>
      cases join : worker.join with
      | none =>
          left
          simp only [join]
      | some joined =>
          refine Or.inr ⟨worker, joined, rfl, join, ?_⟩
          simp only [join]

theorem polled_effect {system : Workers σ} {whenStopped otherwise : MainPoint}
    (inLoop : system.main.leaves = false) (stops : Quiet system.main whenStopped)
    (out : whenStopped.leaves = true) (goesOn : Quiet system.main otherwise)
    (on : otherwise.leaves = false) :
    Effect pipeline options system .main (system.polled whenStopped otherwise) := by
  unfold polled
  cases requested : system.stop.poll.1 with
  | true =>
      rw [StopRequested.poll_of_requested requested, Bool.or_true]
      exact .stop _ stops out
  | false =>
      rw [Bool.or_false]
      refine .move _ _ _ goesOn (on.trans inLoop.symm) ?_
      intro yes
      rw [requested] at yes
      cases yes

theorem mainStep_effect (system : Workers σ) :
    Effect pipeline options system .main (system.mainStep options) := by
  have quiet : ∀ main after, system.main = main → after.hand = main.hand →
      after.joined = main.joined → after.isReturned = false → Quiet system.main after := by
    intro main after same hand joined goesOn
    rw [same]
    exact ⟨hand, joined, goesOn⟩
  have moved : ∀ main after, system.main = main → after.hand = main.hand →
      after.joined = main.joined → after.isReturned = false → after.leaves = main.leaves →
      Effect pipeline options system .main { system with main := after } := by
    intro main after same hand joined goesOn leaves
    exact .move _ _ _ (quiet main after same hand joined goesOn) (by rw [leaves, same]) id
  unfold mainStep
  cases main : system.main with
  | loopTest =>
      exact polled_effect pipeline options (by rw [main]; rfl) (quiet _ _ main rfl rfl rfl) rfl
        (quiet _ _ main rfl rfl rfl) rfl
  | reaping position =>
      dsimp only
      cases slot : system.slots[position]? with
      | none => exact moved _ _ main rfl rfl rfl rfl
      | some index =>
          dsimp only
          split
          · exact moved _ _ main rfl rfl rfl rfl
          · exact moved _ _ main rfl rfl rfl rfl
  | joiningFinished position =>
      dsimp only
      cases slot : system.slots[position]? with
      | none => exact .stay
      | some index =>
          rcases system.joinThread_cases index (system.slots.eraseIdx position)
            (.reaping position) with waits | ⟨worker, joined, thread, join, goesOn⟩
          · dsimp only
            rw [waits]
            exact .stay
          · dsimp only
            rw [goesOn]
            exact .reap position index worker joined main slot thread join
  | acceptTest =>
      exact polled_effect pipeline options (by rw [main]; rfl) (quiet _ _ main rfl rfl rfl) rfl
        (quiet _ _ main rfl rfl rfl) rfl
  | accepting => exact .stay
  | interrupted =>
      exact polled_effect pipeline options (by rw [main]; rfl) (quiet _ _ main rfl rfl rfl) rfl
        (quiet _ _ main rfl rfl rfl) rfl
  | checking client clientFd =>
      by_cases room : system.activeClientWorkers < options.maxClientWorkers
      · have capacity : system.hasWorkerCapacity options = true := decide_eq_true room
        simp only [capacity, Bool.not_true, Bool.false_eq_true, if_false]
        exact .grant client clientFd main room
      · have capacity : system.hasWorkerCapacity options = false := decide_eq_false room
        simp only [capacity, Bool.not_false, if_true]
        exact .refuse client clientFd main room
  | rejecting clientFd =>
      refine .move _ _ _ (quiet _ _ main rfl rfl rfl) (by rw [main]; rfl) ?_
      intro requested
      rw [sendAll_stop requested]
      exact requested
  | incrementing client clientFd => exact .increment client clientFd main
  | spawning client clientFd => exact .spawn client clientFd main
  | joining position status =>
      dsimp only
      cases slot : system.slots[position]? with
      | none => exact .finish position status main (List.getElem?_eq_none_iff.1 slot)
      | some index =>
          rcases system.joinThread_cases index system.slots (.joining (position + 1) status) with
            waits | ⟨worker, joined, thread, join, goesOn⟩
          · dsimp only
            rw [waits]
            exact .stay
          · dsimp only
            rw [goesOn]
            exact .join position index status worker joined main slot thread join
  | returned status => exact .stay

theorem acceptStep_effect (system : Workers σ) (outcome : AcceptOutcome) :
    Effect pipeline options system (.accept outcome) (system.acceptStep outcome) := by
  unfold acceptStep
  split
  · next main =>
      cases outcome with
      | interrupted =>
          refine .move _ _ _ ?_ ?_ id
          · rw [main]
            exact ⟨rfl, rfl, rfl⟩
          · rw [main]
            rfl
      | failed description => exact .fail _ _ main rfl
      | accepted client =>
          dsimp only
          split
          · next failed =>
              refine .fail _ _ main ?_
              simpa [AcceptOutcome.isUsable] using failed
          · next configured => exact .accept client main (by simpa using configured)
  · exact .stay

theorem workerStep_effect (system : Workers σ) (index : Nat) :
    Effect pipeline options system (.worker index) (system.workerStep pipeline options index) := by
  unfold workerStep
  cases thread : system.threads[index]? with
  | none => exact .stay
  | some worker =>
      obtain ⟨client, point, serving, finished, joins⟩ := worker
      cases point with
      | serving =>
          dsimp only
          split
          · exact .leave index _ thread rfl
          · exact .serve index _ _ thread rfl rfl
      | decrementing => exact .decrement index _ thread rfl
      | finishing => exact .finishThread index _ thread rfl
      | ending => exact .endThread index _ thread rfl
      | ended => exact .stay

theorem throwStep_effect (system : Workers σ) (index : Nat) :
    Effect pipeline options system (.throws index) (system.throwStep index) := by
  unfold throwStep
  cases thread : system.threads[index]? with
  | none => exact .stay
  | some worker =>
      dsimp only
      split
      · next point => exact .leave index worker thread point
      · exact .stay

/-- **Every turn has one of the effects.** -/
theorem step_effect (system : Workers σ) (next : WorkerTurn) :
    Effect pipeline options system next (system.step pipeline options next) := by
  cases next with
  | main => exact mainStep_effect pipeline options system
  | accept outcome => exact acceptStep_effect pipeline options system outcome
  | worker index => exact workerStep_effect pipeline options system index
  | throws index => exact throwStep_effect pipeline options system index

/-- **Invariants of all interleavings.** -/
theorem after_invariant {Inv : Workers σ → Prop}
    (kept : ∀ {before after : Workers σ} {next : WorkerTurn},
      Effect pipeline options before next after → Inv before → Inv after)
    {system : Workers σ} (start : Inv system) (schedule : List WorkerTurn) :
    Inv (system.after pipeline options schedule) :=
  Machine.after_invariant _
    (fun before next known => kept (step_effect pipeline options before next) known) start schedule

end Workers

end AsterKV.Network
