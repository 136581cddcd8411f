/-
# AsterKV.Concurrent.Clients -- many clients of one engine, step by step

Every client runs one call after the other; the methods of `WalBackedStorage` are
cut into the steps other clients can see between: taking the mutex, one method of
the inner storage, one append, the counter, giving the mutex back.  `get` and
`exists` are one step of the inner storage and take no mutex.  A schedule says whose
turn it is, and what the kernel answers to the append of that turn.
-/
import AsterKV.Theory.Machine
import AsterKV.Wal.Node

namespace AsterKV.Wal

open AsterKV.Core AsterKV.Storage

set_option autoImplicit false

/-- The validation of a record and its append, as `set` and `remove` do it. -/
def WalBackedStorage.append (engine : WalBackedStorage) (record : WalRecord) (fs : FileSystem) :
    Status × WalBackedStorage × FileSystem :=
  let validationStatus := validateWalRecord record
  if !validationStatus.isOk then (validationStatus, engine, fs)
  else
    let (appendStatus, writer, fs) := engine.writer.appendRecord record fs
    (appendStatus, { engine with writer := writer }, fs)

end AsterKV.Wal

namespace AsterKV.Concurrent

open AsterKV.Core AsterKV.Storage AsterKV.Wal Theory

set_option autoImplicit false

/-! ## The system -/

/-- Where a client's thread stands. -/
inductive Phase where
  | idle
  | called (c : Call)
  /-- `set` or `remove` with the mutex taken. -/
  | holding (c : Call)
  /-- `remove` after its existence test. -/
  | absent (key : Bytes)
  | present (key : Bytes)
  /-- The record is in the log, the map not yet changed. -/
  | appended (c : Call) (record : WalRecord)
  /-- The map is changed, the counter not yet. -/
  | applied (c : Call)
  | leaving (c : Call) (reply : Reply)
  | answered (c : Call) (reply : Reply)
  deriving DecidableEq

structure System (C : Type) where
  node : Node
  /-- Who holds the mutex of the engine. -/
  owner : Option C
  phase : C → Phase

/-- A client's turn: it makes a call, or its thread takes one step. -/
inductive Directive where
  | call (c : Call)
  | go (outcomes : Outcomes)
  deriving DecidableEq

/-- What a step shows: calls and returns to the clients, appends to the log. -/
inductive Observation (C : Type) where
  | silent
  | called (client : C) (c : Call)
  | returned (client : C) (c : Call) (reply : Reply)
  | append (client : C) (c : Call) (record : WalRecord) (status : Status) (written : Bytes)
  deriving DecidableEq

variable {C : Type}

namespace System

def initial (node : Node) : System C :=
  { node := node, owner := none, phase := fun _ => .idle }

section Steps

variable [DecidableEq C]

def moveTo (system : System C) (client : C) (phase : Phase) : System C :=
  { system with phase := Function.update system.phase client phase }

/-- The step that appends: the bytes it wrote are what the file has more than before. -/
def append (system : System C) (client : C) (c : Call) (record : WalRecord)
    (outcomes : Outcomes) : Observation C × System C :=
  let before := system.node.facing outcomes
  let (status, engine, fs) := before.engine.append record before.fs
  let written := fs.content.drop before.fs.content.length
  (.append client c record status written,
    { system with node := ⟨engine, fs⟩ }.moveTo client
      (if status.isOk then .appended c record else .leaving c (.status status)))

/-- One step of a client's thread. -/
def advance (system : System C) (client : C) (outcomes : Outcomes) : Observation C × System C :=
  let engine := system.node.engine
  match system.phase client with
  | .idle => (.silent, system)
  | .called c =>
      if c.isMutation then
        match system.owner with
        | none => (.silent, { system with owner := some client }.moveTo client (.holding c))
        | some _ => (.silent, system)
      else
        -- the reading methods go past the mutex to the inner storage
        (.silent, system.moveTo client (.answered c (StorageEngine.call engine.storage c).1))
  | .holding (.set key value) =>
      system.append client (.set key value) (makeSetRecord engine.nextSequenceNumber key value)
        outcomes
  | .holding (.remove key) =>
      match engine.storage.exists? key with
      | .error failure =>
          (.silent, system.moveTo client (.leaving (.remove key) (.status failure.val)))
      | .ok false => (.silent, system.moveTo client (.absent key))
      | .ok true => (.silent, system.moveTo client (.present key))
  | .holding _ => (.silent, system)
  | .absent key =>
      let (status, storage) := engine.storage.remove key
      (.silent, { system with node.engine.storage := storage }.moveTo client
        (.leaving (.remove key) (.status status)))
  | .present key =>
      system.append client (.remove key) (makeDelRecord engine.nextSequenceNumber key) outcomes
  | .appended c _ =>
      let (reply, storage) := StorageEngine.call engine.storage c
      (.silent, { system with node.engine.storage := storage }.moveTo client
        (if reply.isAcknowledged then .applied c else .leaving c reply))
  | .applied c =>
      (.silent,
        { system with node.engine.nextSequenceNumber := engine.nextSequenceNumber + 1 }.moveTo
          client (.leaving c (.status .ok)))
  | .leaving c reply => (.silent, { system with owner := none }.moveTo client (.answered c reply))
  | .answered c reply => (.returned client c reply, system.moveTo client .idle)

/-- One turn of the schedule.  A turn that the client cannot use changes nothing. -/
def step (system : System C) (turn : C × Directive) : Observation C × System C :=
  match turn.2, system.phase turn.1 with
  | .call c, .idle => (.called turn.1 c, system.moveTo turn.1 (.called c))
  | .call _, _ => (.silent, system)
  | .go outcomes, _ => system.advance turn.1 outcomes

end Steps

end System

/-! ## What a phase says -/

namespace Phase

/-- The phases with the mutex taken. -/
def inside : Phase → Bool
  | .holding _ | .absent _ | .present _ | .appended _ _ | .applied _ | .leaving _ _ => true
  | .idle | .called _ | .answered _ _ => false

/-- The call in progress, with its reply once it took effect. -/
def view : Phase → Option (Call × Option Reply)
  | .idle => none
  | .called c | .holding c | .appended c _ => some (c, none)
  | .absent key | .present key => some (.remove key, none)
  | .applied c => some (c, some (.status .ok))
  | .leaving c reply | .answered c reply => some (c, some reply)

/-- The record that is in the log but not in the map. -/
def inFlight : Phase → List WalRecord
  | .appended _ record => [record]
  | _ => []

/-- A mutation whose effect the counter still lacks. -/
def uncounted : Phase → Bool
  | .applied _ => true
  | _ => false

/-- The mutex is taken for this call and nothing is logged yet. -/
structure Waiting (phase : Phase) (c : Call) : Prop where
  inside : phase.inside = true
  view : phase.view = some (c, none)
  inFlight : phase.inFlight = []
  uncounted : phase.uncounted = false

/-- What the holder of the mutex has found out about the engine. -/
def Knows (ledger : Ledger) : Phase → Prop
  | .holding c => c.isMutation = true
  | .absent key => ledger.storage.exists? key = .ok false
  | .present key => ledger.storage.exists? key = .ok true
  | .appended c record => ∃ valid, ledger.intent c = some valid ∧ valid.val = record
  | _ => True

theorem knows_of_outside {phase : Phase} (outside : phase.inside = false) (ledger : Ledger) :
    phase.Knows ledger := by
  cases phase with
  | idle | called | answered => trivial
  | holding | absent | present | appended | applied | leaving => cases outside

end Phase

namespace System

/-- The phase of the holder of the mutex. -/
def ownerPhase (system : System C) : Phase :=
  match system.owner with
  | some client => system.phase client
  | none => .idle

def inFlight (system : System C) : List WalRecord := system.ownerPhase.inFlight

/-- Map and counter as they are once the mutation under way is counted. -/
def ledger (system : System C) : Ledger :=
  { storage := system.node.engine.storage
    next :=
      if system.ownerPhase.uncounted then system.node.engine.nextSequenceNumber + 1
      else system.node.engine.nextSequenceNumber }

theorem ownerPhase_of_owner {system : System C} {client : C} (owner : system.owner = some client) :
    system.ownerPhase = system.phase client := by
  rw [ownerPhase, owner]

theorem ownerPhase_of_free {system : System C} (free : system.owner = none) :
    system.ownerPhase = .idle := by
  rw [ownerPhase, free]

section Moves

variable [DecidableEq C]

@[simp] theorem moveTo_node (system : System C) (client : C) (phase : Phase) :
    (system.moveTo client phase).node = system.node := rfl

@[simp] theorem moveTo_owner (system : System C) (client : C) (phase : Phase) :
    (system.moveTo client phase).owner = system.owner := rfl

@[simp] theorem moveTo_phase_self (system : System C) (client : C) (phase : Phase) :
    (system.moveTo client phase).phase client = phase :=
  Function.update_self ..

theorem moveTo_phase_of_ne (system : System C) {client other : C} (ne : other ≠ client)
    (phase : Phase) : (system.moveTo client phase).phase other = system.phase other :=
  Function.update_of_ne ne _ _

theorem ownerPhase_moveTo_of_owner {system : System C} {client : C}
    (owner : system.owner = some client) (phase : Phase) :
    (system.moveTo client phase).ownerPhase = phase := by
  rw [ownerPhase_of_owner (by simpa using owner), moveTo_phase_self]

theorem ownerPhase_moveTo_of_ne {system : System C} {client : C}
    (other : system.owner ≠ some client) (phase : Phase) :
    (system.moveTo client phase).ownerPhase = system.ownerPhase := by
  unfold ownerPhase
  rw [moveTo_owner]
  split
  · next holder owner =>
      rw [moveTo_phase_of_ne]
      intro same
      rw [owner, same] at other
      exact other rfl
  · rfl

end Moves

end System

/-! ## The invariant -/

/-- The mutex excludes, and its holder's knowledge is still true. -/
structure Coherent (system : System C) : Prop where
  ready : Node.Ready system.node
  owner : ∀ client, (system.phase client).inside = true ↔ system.owner = some client
  knows : ∀ client, (system.phase client).Knows system.node.ledger

theorem coherent_initial {node : Node} (ready : Node.Ready node) :
    Coherent (System.initial node : System C) where
  ready := ready
  owner client := by simp [System.initial, Phase.inside]
  knows _ := trivial

/-- The holder of the mutex, seen from its phase. -/
theorem Coherent.owner_of_inside {s : System C} (coherent : Coherent s) {client : C}
    (inside : (s.phase client).inside = true) : s.owner = some client :=
  (coherent.owner client).1 inside

end AsterKV.Concurrent
