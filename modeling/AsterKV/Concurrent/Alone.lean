/-
# AsterKV.Concurrent.Alone -- the concurrent steps are those of the engine

A client whose call nobody disturbs gets the reply of the sequential engine, and
leaves its map, its counter and its file: cutting the methods into steps lost
nothing.
-/
import AsterKV.Concurrent.Transitions

namespace AsterKV.Wal

open AsterKV.Core AsterKV.Storage

set_option autoImplicit false

/-- The sequential mutation is the append followed by its two later steps. -/
theorem WalBackedStorage.logMutation_eq_append (engine : WalBackedStorage) (record : WalRecord)
    (apply : InMemoryStorage → Status × InMemoryStorage) (fs : FileSystem) :
    engine.logMutation record apply fs =
      match engine.append record fs with
      | (appendStatus, engine, fs) =>
          if !appendStatus.isOk then (appendStatus, engine, fs)
          else
            let (storageStatus, storage) := apply engine.storage
            let engine := { engine with storage := storage }
            if !storageStatus.isOk then (storageStatus, engine, fs)
            else (.ok, { engine with nextSequenceNumber := engine.nextSequenceNumber + 1 }, fs) := by
  unfold WalBackedStorage.logMutation WalBackedStorage.append
  by_cases valid : (validateWalRecord record).isOk = true
  · simp only [valid, Bool.not_true, Bool.false_eq_true, if_false]
  · simp [valid]

end AsterKV.Wal

namespace AsterKV.Concurrent

open AsterKV.Core AsterKV.Storage AsterKV.Wal Theory

set_option autoImplicit false

variable {C : Type} [DecidableEq C]

namespace System

/-- Only this client is running. -/
def alone (node : Node) (owner : Option C) (client : C) (phase : Phase) : System C :=
  { node := node, owner := owner, phase := Function.update (fun _ => .idle) client phase }

@[simp] theorem alone_phase (node : Node) (owner : Option C) (client : C) (phase : Phase) :
    (alone node owner client phase).phase client = phase := by
  simp [alone]

@[simp] theorem alone_node (node : Node) (owner : Option C) (client : C) (phase : Phase) :
    (alone node owner client phase).node = node := rfl

@[simp] theorem alone_owner (node : Node) (owner : Option C) (client : C) (phase : Phase) :
    (alone node owner client phase).owner = owner := rfl

@[simp] theorem alone_goesTo (node : Node) (owner : Option C) (client : C) (phase next : Phase) :
    (alone node owner client phase).moveTo client next = alone node owner client next := by
  simp [alone, moveTo]

/-- The same with another node or another holder. -/
@[simp] theorem alone_moveTo (before after : Node) (owner holder : Option C) (client : C)
    (phase next : Phase) :
    ({ node := after, owner := holder,
       phase := (alone before owner client phase).phase } : System C).moveTo client next =
      alone after holder client next := by
  simp [alone, moveTo]

/-- The client's next turns end its call with this reply and leave this node. -/
def Finishes (client : C) (outcomes : Outcomes) (c : Call) (turns : Nat) (s : System C)
    (reply : Reply) (node : Node) : Prop :=
  let run := Machine.run step s (List.replicate turns (client, .go outcomes))
  .returned client c reply ∈ run.1 ∧ run.2 = alone node none client .idle

variable {client : C} {outcomes : Outcomes} {c : Call} {turns : Nat} {reply : Reply} {node : Node}

theorem Finishes.turn {s : System C} (shown : Observation C) (next : System C)
    (advance : s.advance client outcomes = (shown, next))
    (finishes : Finishes client outcomes c turns next reply node) :
    Finishes client outcomes c (turns + 1) s reply node := by
  have step : s.step (client, .go outcomes) = (shown, next) := advance
  refine ⟨?_, ?_⟩
  · rw [List.replicate_succ, Machine.run_cons, step]
    exact List.mem_cons_of_mem _ finishes.1
  · rw [List.replicate_succ, Machine.run_cons, step]
    exact finishes.2

theorem idle_turns (node : Node) (turns : Nat) :
    (Machine.run step (alone node none client .idle)
      (List.replicate turns (client, .go outcomes))).2 = alone node none client .idle := by
  induction turns with
  | zero => rfl
  | succ turns ih =>
      have step : (alone node none client .idle).step (client, .go outcomes) =
          (.silent, alone node none client .idle) := by
        show (alone node none client .idle).advance client outcomes = _
        simp only [advance, alone_phase]
      rw [List.replicate_succ, Machine.run_cons, step]
      exact ih

theorem finishes_answered (node : Node) (turns : Nat) :
    Finishes client outcomes c (turns + 1) (alone node none client (.answered c reply)) reply
      node := by
  have step : (alone node none client (.answered c reply)).step (client, .go outcomes) =
      (.returned client c reply, alone node none client .idle) := by
    show (alone node none client (.answered c reply)).advance client outcomes = _
    simp only [advance, alone_phase, alone_goesTo]
  refine ⟨?_, ?_⟩
  · rw [List.replicate_succ, Machine.run_cons, step]
    exact List.mem_cons_self
  · rw [List.replicate_succ, Machine.run_cons, step]
    exact idle_turns node turns

theorem finishes_leaving (node : Node) (turns : Nat) :
    Finishes client outcomes c (turns + 2) (alone node (some client) client (.leaving c reply))
      reply node := by
  refine Finishes.turn .silent _ ?_ (finishes_answered node turns)
  simp only [advance, alone_phase, alone_node, alone_moveTo]

/-- From the append on, the steps are those of the sequential mutation. -/
theorem finishes_append {phase : Phase} {record : WalRecord}
    {apply : InMemoryStorage → Status × InMemoryStorage}
    (appends : (alone node (some client) client phase).advance client outcomes =
      (alone node (some client) client phase).append client c record outcomes)
    (applies : ∀ storage, StorageEngine.call storage c =
      (.status (apply storage).1, (apply storage).2)) (turns : Nat) :
    let result := node.engine.logMutation record apply (node.facing outcomes).fs
    Finishes client outcomes c (turns + 5) (alone node (some client) client phase)
      (.status result.1) ⟨result.2.1, result.2.2⟩ := by
  intro result
  obtain ⟨⟨status, engine, after⟩, appended⟩ :
      ∃ taken, node.engine.append record (node.facing outcomes).fs = taken := ⟨_, rfl⟩
  have mutation : result = _ := WalBackedStorage.logMutation_eq_append ..
  rw [appended] at mutation
  have appendStep : (alone node (some client) client phase).append client c record outcomes = _ :=
    append_eq appended
  rw [appendStep] at appends
  refine Finishes.turn _ _ appends ?_
  rw [alone_moveTo]
  cases ok : status.isOk with
  | false =>
      simp only [ok, Bool.not_false, if_true] at mutation
      rw [mutation]
      exact finishes_leaving _ (turns + 2)
  | true =>
      obtain ⟨⟨storageStatus, storage⟩, applied⟩ : ∃ taken, apply engine.storage = taken := ⟨_, rfl⟩
      simp only [ok, Bool.not_true, Bool.false_eq_true, if_false, applied] at mutation
      refine Finishes.turn .silent
        (alone ⟨{ engine with storage := storage }, after⟩ (some client) client
          (if storageStatus.isOk then .applied c else .leaving c (.status storageStatus))) ?_ ?_
      · simp only [advance, if_true, alone_phase, alone_node, alone_owner, applies, applied,
          alone_moveTo, Reply.isAcknowledged]
      · cases accepted : storageStatus.isOk with
        | false =>
            simp only [accepted, Bool.not_false, if_true] at mutation
            rw [mutation]
            exact finishes_leaving _ (turns + 1)
        | true =>
            simp only [accepted, Bool.not_true, Bool.false_eq_true, if_false] at mutation
            rw [mutation]
            refine Finishes.turn .silent _ ?_ (finishes_leaving _ turns)
            simp only [advance, if_true, alone_phase, alone_node, alone_owner, alone_moveTo]

/-- The turns of a client that makes one call and is left alone. -/
def soloTurns (client : C) (c : Call) (outcomes : Outcomes) : List (C × Directive) :=
  (client, .call c) :: List.replicate 7 (client, .go outcomes)

/-- **A call that nobody disturbs is the call of the sequential engine.** -/
theorem solo_call (node : Node) (client : C) (c : Call) (outcomes : Outcomes) :
    let result := node.step (outcomes, c)
    let solo := Machine.run step (initial node) (soloTurns client c outcomes)
    .returned client c result.1 ∈ solo.1 ∧ solo.2.node.engine = result.2.engine ∧
      solo.2.node.fs.content = result.2.fs.content ∧ solo.2 = initial solo.2.node := by
  intro result solo
  have called : (initial node).step (client, .call c) =
      (.called client c, alone node none client (.called c)) := rfl
  have idle : ∀ node : Node, alone node none client .idle = initial node := fun node => by
    simp [alone, initial]
  suffices finishes : ∃ last : Node,
      Finishes client outcomes c 7 (alone node none client (.called c)) result.1 last ∧
        last.engine = result.2.engine ∧ last.fs.content = result.2.fs.content by
    obtain ⟨last, ⟨returned, ends⟩, engine, content⟩ := finishes
    have run : solo = _ := Machine.run_cons step (initial node) (client, .call c) _
    rw [called] at run
    have ends : solo.2 = initial last := by rw [run, ← idle]; exact ends
    refine ⟨?_, ?_, ?_, ?_⟩
    · rw [run]
      exact List.mem_cons_of_mem _ returned
    · rw [ends]
      exact engine
    · rw [ends]
      exact content
    · rw [ends]
      rfl
  cases c with
  | get key =>
      refine ⟨node, Finishes.turn .silent _ ?_ (finishes_answered node 5), rfl, rfl⟩
      simp only [advance, alone_phase, alone_node, alone_goesTo, Call.isMutation,
        Bool.false_eq_true, if_false]
      rfl
  | exists? key =>
      refine ⟨node, Finishes.turn .silent _ ?_ (finishes_answered node 5), rfl, rfl⟩
      simp only [advance, alone_phase, alone_node, alone_goesTo, Call.isMutation,
        Bool.false_eq_true, if_false]
      rfl
  | set key value =>
      refine ⟨result.2, Finishes.turn .silent
        (alone node (some client) client (.holding (.set key value))) ?_ ?_, rfl, rfl⟩
      · simp only [advance, alone_phase, alone_node, alone_owner, alone_moveTo, Call.isMutation,
          if_true]
      · exact @finishes_append C _ client outcomes (.set key value) node (.holding (.set key value))
          (makeSetRecord node.engine.nextSequenceNumber key value)
          (fun storage => storage.set key value) (by simp only [advance, alone_phase, alone_node])
          (fun _ => rfl) 1
  | remove key =>
      have acquire : (alone node none client (.called (.remove key))).advance client outcomes =
          (.silent, alone node (some client) client (.holding (.remove key))) := by
        simp only [advance, alone_phase, alone_node, alone_owner, alone_moveTo, Call.isMutation,
          if_true]
      obtain ⟨⟨status, engine, after⟩, removed⟩ :
          ∃ taken, node.engine.remove key (node.facing outcomes).fs = taken := ⟨_, rfl⟩
      have step : result = (.status status, ⟨engine, after⟩) := Node.step_remove removed
      rw [step]
      unfold WalBackedStorage.remove at removed
      rcases node.engine.storage.exists?_cases key with answer | ⟨-, -, answer⟩ | ⟨-, -, answer⟩
      · rw [answer] at removed
        cases removed
        refine ⟨node, Finishes.turn _ _ acquire (Finishes.turn .silent _ ?_
          (finishes_leaving node 3)), rfl, rfl⟩
        simp only [advance, alone_phase, alone_node, answer, alone_goesTo]
      · rw [answer] at removed
        obtain ⟨rfl, rfl, rfl⟩ : (node.engine.storage.remove key).1 = status ∧
            { node.engine with storage := (node.engine.storage.remove key).2 } = engine ∧
            (node.facing outcomes).fs = after :=
          ⟨congrArg Prod.fst removed, congrArg (·.2.1) removed, congrArg (·.2.2) removed⟩
        refine ⟨_, Finishes.turn _ _ acquire (Finishes.turn .silent
          (alone node (some client) client (.absent key)) ?_
          (Finishes.turn .silent _ ?_ (finishes_leaving
            ⟨{ node.engine with storage := (node.engine.storage.remove key).2 }, node.fs⟩ 2))),
          rfl, rfl⟩
        · simp only [advance, alone_phase, alone_node, answer, alone_goesTo]
        · simp only [advance, alone_phase, alone_node, alone_owner, alone_moveTo]
      · rw [answer] at removed
        refine ⟨_, Finishes.turn _ _ acquire (Finishes.turn .silent
          (alone node (some client) client (.present key)) ?_ ?_), rfl, rfl⟩
        · simp only [advance, alone_phase, alone_node, answer, alone_goesTo]
        · have finishes := @finishes_append C _ client outcomes (.remove key) node (.present key)
            (makeDelRecord node.engine.nextSequenceNumber key) (fun storage => storage.remove key)
            (by simp only [advance, alone_phase, alone_node]) (fun _ => rfl) 0
          simp only at removed
          rw [removed] at finishes
          exact finishes

end System

end AsterKV.Concurrent
