/-
# AsterKV.Pipeline.LoggedPipeline -- the pipeline over the logged engine

A command line makes at most one storage call (`lineCall`), so two engines that answer
that call alike answer the line alike (`processLine_congr`).  The tokenizer yields no
empty word, so the calls of command lines are all within what the two engines agree
on, messages included: `log_invisible`.
-/
import AsterKV.Pipeline.LocalPipeline
import AsterKV.Protocol.CommandWords
import AsterKV.Wal.Interchange

namespace AsterKV.Pipeline

open AsterKV.Core AsterKV.Command AsterKV.Execution AsterKV.Protocol AsterKV.Storage AsterKV.Wal
open Theory

set_option autoImplicit false

/-! ## The call a line makes -/

def requestCall (request : CommandRequest) : Option Call :=
  match request.type with
  | .ping => none
  | .set => some (.set (argument request 0) (argument request 1))
  | .get => some (.get (argument request 0))
  | .del => some (.remove (argument request 0))
  | .exists? => some (.exists? (argument request 0))

def lineCall (line : Bytes) : Option Call :=
  match parseCommandLine line with
  | .ok request => requestCall request
  | .error _ => none

/-- The line asks for a change. -/
def mutates (line : Bytes) : Bool := (lineCall line).any Call.isMutation

section Congruence

variable {σ τ : Type} [StorageEngine σ] [StorageEngine τ] {R : σ → τ → Prop} {s : σ} {t : τ}

/-- Engines that answer a request's call alike answer the request alike. -/
theorem dispatch_congr (request : CommandRequest) (related : R s t)
    (alike : ∀ c, requestCall request = some c →
      (StorageEngine.call s c).1 = (StorageEngine.call t c).1 ∧
        R (StorageEngine.call s c).2 (StorageEngine.call t c).2) :
    (dispatch s request).1 = (dispatch t request).1 ∧
      R (dispatch s request).2 (dispatch t request).2 := by
  simp only [dispatch]
  cases (validateCommandRequest request).isOk with
  | false => exact ⟨rfl, related⟩
  | true =>
      simp only [Bool.not_true, Bool.false_eq_true, if_false]
      cases type : request.type with
      | ping => exact ⟨rfl, related⟩
      | set =>
          obtain ⟨reply, next⟩ := alike (.set (argument request 0) (argument request 1))
            (by rw [requestCall, type])
          have status : (StorageEngine.set s (argument request 0) (argument request 1)).1 =
              (StorageEngine.set t (argument request 0) (argument request 1)).1 :=
            Reply.status.inj reply
          simp only [dispatchSet, status]
          split <;> exact ⟨rfl, next⟩
      | get =>
          obtain ⟨reply, next⟩ := alike (.get (argument request 0)) (by rw [requestCall, type])
          have result : StorageEngine.get s (argument request 0) =
              StorageEngine.get t (argument request 0) := Reply.value.inj reply
          simp only [dispatchGet, result]
          split <;> exact ⟨rfl, next⟩
      | del =>
          obtain ⟨reply, next⟩ := alike (.remove (argument request 0)) (by rw [requestCall, type])
          have status : (StorageEngine.remove s (argument request 0)).1 =
              (StorageEngine.remove t (argument request 0)).1 := Reply.status.inj reply
          simp only [dispatchDel, status]
          split
          · exact ⟨rfl, next⟩
          · split <;> exact ⟨rfl, next⟩
      | exists? =>
          obtain ⟨reply, next⟩ := alike (.exists? (argument request 0)) (by rw [requestCall, type])
          have result : StorageEngine.exists? s (argument request 0) =
              StorageEngine.exists? t (argument request 0) := Reply.flag.inj reply
          simp only [dispatchExists, result]
          split <;> exact ⟨rfl, next⟩

/-- **Engines that answer a line's call alike answer the line alike.** -/
theorem processLine_congr (line : Bytes) (related : R s t)
    (alike : ∀ c, lineCall line = some c →
      (StorageEngine.call s c).1 = (StorageEngine.call t c).1 ∧
        R (StorageEngine.call s c).2 (StorageEngine.call t c).2) :
    (processLine s line).1 = (processLine t line).1 ∧
      R (processLine s line).2 (processLine t line).2 := by
  unfold processLine
  unfold lineCall at alike
  cases parsed : parseCommandLine line with
  | error failure => exact ⟨rfl, related⟩
  | ok request =>
      rw [parsed] at alike
      obtain ⟨result, next⟩ := dispatch_congr request related alike
      exact ⟨congrArg serializeExecutionResult result, next⟩

end Congruence

/-- The arguments a command takes are there, and not empty. -/
theorem argument_filled {line : Bytes} {request : CommandRequest}
    (accepted : parseCommandLine line = .success request) {i : Nat}
    (taken : i < expectedArgumentCount request.type) : argument request i ≠ [] := by
  have count := arguments_of_parseCommandLine accepted
  have inRange : i < request.arguments.length := by omega
  refine argument_ne_nil accepted _ ?_
  rw [argument, List.getD_eq_getElem?_getD, List.getElem?_eq_getElem inRange]
  exact List.getElem_mem inRange

/-- No command line makes a call with an empty key or value. -/
theorem lineCall_filled {line : Bytes} {c : Call} (calls : lineCall line = some c) :
    c.key ≠ [] ∧ ∀ key value, c = .set key value → key ≠ [] ∧ value ≠ [] := by
  unfold lineCall at calls
  cases parsed : parseCommandLine line with
  | error failure =>
      rw [parsed] at calls
      cases calls
  | ok request =>
      rw [parsed] at calls
      have filled := fun i => @argument_filled line request parsed i
      obtain ⟨type, arguments⟩ := request
      cases type with
      | ping => cases calls
      | set =>
          cases Option.some.inj calls
          refine ⟨filled 0 (Nat.zero_lt_succ _), ?_⟩
          intro key value is
          cases is
          exact ⟨filled 0 (Nat.zero_lt_succ _), filled 1 (Nat.lt_succ_self _)⟩
      | get | del | exists? =>
          cases Option.some.inj calls
          exact ⟨filled 0 (Nat.zero_lt_succ _), fun key value is => by cases is⟩

/-! ## Runs -/

/-- One command line over the logged engine, and what the kernel answers meanwhile. -/
def processLogged (node : Node) (request : Outcomes × Bytes) : Bytes × Node :=
  processLine (node.facing request.1) request.2

theorem processLogged_simulates {node : Node} (synced : Node.Synced node) {outcomes : Outcomes}
    (clean : outcomes.NoFailure) (line : Bytes) {mutations : Nat}
    (room : Room node.ledger (mutations + if mutates line then 1 else 0)) :
    (processLogged node (outcomes, line)).1 = (processLine node.ledger.storage line).1 ∧
      Node.Synced (processLogged node (outcomes, line)).2 ∧
      Room (processLogged node (outcomes, line)).2.ledger mutations ∧
      (processLogged node (outcomes, line)).2.ledger.storage =
        (processLine node.ledger.storage line).2 := by
  have counted := room.counted
  have idle : Room node.ledger mutations := ⟨room.1, by have := room.2; omega⟩
  have facing : Node.Synced (node.facing outcomes) :=
    { Node.ready_facing synced.toReady outcomes with
      terminated := synced.terminated
      stands := synced.stands }
  refine processLine_congr (s := node.facing outcomes) (t := node.ledger.storage)
    (R := fun n storage => Node.Synced n ∧ Room n.ledger mutations ∧ n.ledger.storage = storage)
    line ⟨facing, idle, rfl⟩ ?_
  intro c calls
  have step := Node.clean_step synced clean c
  obtain ⟨reply, storage⟩ := ledger_call_eq counted (lineCall_filled calls).2
  have counts : mutates line = c.isMutation := by rw [mutates, calls]; rfl
  rw [counts] at room
  have ledger : (StorageEngine.call (node.facing outcomes) c).2.ledger = (node.ledger.call c).2 :=
    step.ledger_eq
  refine ⟨step.reply_eq.trans reply, step.synced, ?_, ?_⟩
  · rw [ledger]
    exact room.call
  · rw [ledger]
    exact storage

theorem run_processLogged {node : Node} (synced : Node.Synced node)
    {requests : List (Outcomes × Bytes)} (clean : ∀ request ∈ requests, request.1.NoFailure)
    {mutations : Nat}
    (room : Room node.ledger (mutations + requests.countP fun request => mutates request.2)) :
    (Machine.run processLogged node requests).1 =
        (Machine.run processLine node.ledger.storage (requests.map Prod.snd)).1 ∧
      Node.Synced (Machine.after processLogged node requests) ∧
      Room (Machine.after processLogged node requests).ledger mutations := by
  induction requests generalizing node with
  | nil => exact ⟨rfl, synced, room⟩
  | cons request rest ih =>
      rw [List.countP_cons, ← Nat.add_assoc] at room
      obtain ⟨response, next, roomLeft, storage⟩ :=
        processLogged_simulates synced (clean request List.mem_cons_self) request.2 room
      obtain ⟨responses, last⟩ :=
        ih next (fun r member => clean r (List.mem_cons_of_mem _ member)) roomLeft
      rw [storage] at responses
      simp only [Machine.run_cons, Machine.after_cons, List.map_cons]
      exact ⟨by rw [← responses, ← response], last⟩

/-- **The log is invisible on the wire.**  From a recovery on an absent file, with nothing
failing and fewer than 2^64 - 1 mutations, every line gets the response it gets over an
in-memory storage, and the record of a line's mutation always validates. -/
theorem log_invisible {filePath : Bytes} {options : WalBackedStorageOptions} {fs : FileSystem}
    {requests : List (Outcomes × Bytes)} (absent : fs.file = none)
    (recovered : (Node.launch filePath options fs).1 = .ok)
    (clean : ∀ request ∈ requests, request.1.NoFailure)
    (few : (requests.countP fun request => mutates request.2) < 2 ^ 64 - 1) :
    let start := (Node.launch filePath options fs).2
    (Machine.run processLogged start requests).1 =
        (Machine.run processLine InMemoryStorage.empty (requests.map Prod.snd)).1 ∧
      ∀ front request, front ++ [request] <+: requests →
        let number := (Machine.after processLogged start front).engine.nextSequenceNumber
        ∀ c ∈ lineCall request.2, ∀ record ∈ Node.recordOf number c,
          (validateWalRecord record).isOk = true := by
  intro start
  obtain ⟨synced, -, ledger⟩ := Node.fresh_start absent recovered
  have one : start.ledger.next.toNat = 1 := by
    rw [ledger]
    rfl
  have empty : start.ledger.storage = .empty := by rw [ledger]
  refine ⟨?_, ?_⟩
  · have room : Room start.ledger (0 + requests.countP fun request => mutates request.2) :=
      ⟨by omega, by omega⟩
    rw [← empty]
    exact (run_processLogged synced clean room).1
  · intro front request isPrefix number c calls record logged
    have member : ∀ r ∈ front, r ∈ requests := fun r inFront =>
      isPrefix.subset (List.mem_append_left _ inFront)
    have fewer : (front.countP fun request => mutates request.2) ≤
        requests.countP fun request => mutates request.2 :=
      ((List.prefix_append front [request]).trans isPrefix).sublist.countP_le
    have room : Room start.ledger (0 + front.countP fun request => mutates request.2) :=
      ⟨by omega, by omega⟩
    have counted : number ≠ 0 :=
      (run_processLogged synced (fun r inFront => clean r (member r inFront)) room).2.2.counted
    obtain ⟨named, filled⟩ := lineCall_filled calls
    cases c with
    | set key value =>
        cases Option.some.inj logged
        exact (validate_makeSetRecord number key value).2 ⟨counted, filled key value rfl⟩
    | remove key =>
        cases Option.some.inj logged
        exact (validate_makeDelRecord number key).2 ⟨counted, named⟩
    | get key => cases logged
    | exists? key => cases logged

/-- A set that is logged in two writes, a get, and a del of a missing key. -/
theorem log_invisible_lines :
    (Machine.run processLogged (Node.launch (bytes "wal") {} (.holding none)).2
      [({ writes := [.accepted 2] }, bytes "SET k v"), ({}, bytes "get k"),
        ({}, bytes "del l")]).1 =
      ["+OK\r\n", "$1\r\nv\r\n", ":0\r\n"].map bytes := by
  have clean : ∀ request ∈ [(({ writes := [.accepted 2] } : Outcomes), bytes "SET k v"),
      ({}, bytes "get k"), ({}, bytes "del l")], request.1.NoFailure := by
    intro request member
    rcases List.mem_cons.1 member with rfl | member
    · exact { Outcomes.noFailure_default with writes := by simp }
    · rcases List.mem_pair.1 member with rfl | rfl <;> exact Outcomes.noFailure_default
  have same := (@log_invisible (bytes "wal") {} (.holding none) _ rfl (by decide) clean
    (by decide)).1
  rw [same]
  decide

end AsterKV.Pipeline
