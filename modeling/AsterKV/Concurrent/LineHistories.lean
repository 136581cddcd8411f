/-
# AsterKV.Concurrent.LineHistories -- the connections see one finite map

Whatever the workers' steps interleave to, the responses of all connections are those
of one sequential order of their lines on one finite map.
-/
import AsterKV.Concurrent.LineClients
import AsterKV.Pipeline.MapMachine
import AsterKV.Theory.Epochs

namespace AsterKV.Concurrent

open AsterKV.Core AsterKV.Command AsterKV.Execution AsterKV.Pipeline AsterKV.Protocol
open AsterKV.Storage AsterKV.Wal Theory Theory.Linearizability

set_option autoImplicit false

variable {C : Type}

/-- What a map may answer to a line: what the line means, or, where appends can fail, the
error of a change that was not made. -/
inductive MapAdmits (mayFail : Prop) (map : MapMachine.Map) (line : Bytes) :
    Bytes → MapMachine.Map → Prop where
  | answer : MapAdmits mayFail map line (MapMachine.step map line).1.render
      (MapMachine.step map line).2
  | unavailable (may : mayFail) (change : mutates line = true) (message : Bytes) :
      MapAdmits mayFail map line (serializeStatus (.unavailable message)) map

/-- A change whose append failed is answered with the append's error. -/
theorem lineResponse_unavailable {line : Bytes} {c : Call} (calls : lineCall line = some c)
    (mutation : c.isMutation = true) {status : Status} (unavailable : status.code = .unavailable) :
    lineResponse line (.status status) = serializeStatus status := by
  have failed : status.isOk = false := by simp [Status.isOk, unavailable]
  have failure : serializeExecutionResult (.failure status) = serializeStatus status :=
    congrArg serializeStatus (Result.normalizeFailureStatus_val failed)
  unfold lineCall at calls
  cases parsed : parseCommandLine line with
  | error refused =>
      rw [parsed] at calls
      cases calls
  | ok request =>
      rw [parsed] at calls
      have valid : (validateCommandRequest request).isOk = true :=
        validateCommandRequest_isOk.2 (arguments_of_parseCommandLine parsed)
      have calls : requestCall request = some c := calls
      have response : lineResponse line (.status status) =
          serializeExecutionResult (dispatch (OneReply.mk (.status status)) request).1 := by
        rw [lineResponse, processLine, parsed]
      rw [response, ← failure]
      simp only [dispatch, valid, Bool.not_true, Bool.false_eq_true, if_false]
      unfold requestCall at calls
      cases type : request.type with
      | ping | get | exists? =>
          rw [type] at calls
          cases calls
          try cases mutation
      | set => simp [dispatchSet, StorageEngine.set, failed]
      | del => simp [dispatchDel, StorageEngine.remove, failed, unavailable]

/-- **A ledger with room answers a line as its map does.** -/
theorem mapAdmits_of_lineAdmits {mayFail : Prop} {ledger next : Ledger} {line response : Bytes}
    {mutations : Nat} (room : Room ledger (mutations + if mutates line then 1 else 0))
    (admits : LineAdmits mayFail ledger line response next) :
    MapAdmits mayFail ledger.storage.values line response next.storage.values ∧
      Room next mutations := by
  obtain ⟨text, map⟩ := processLine_eq_step ledger.storage line
  have weaker : Room ledger mutations := ⟨room.1, by have := room.2; omega⟩
  have engine := processLine_engine ledger.storage line
  cases admits with
  | quiet none =>
      rw [none] at engine
      have engine : (processLine ledger.storage line).2 = ledger.storage := engine
      have same : ledger.storage.values = (MapMachine.step ledger.storage.values line).2 :=
        congrArg InMemoryStorage.values (engine.symm.trans map)
      refine ⟨?_, weaker⟩
      have answered := @MapAdmits.answer mayFail ledger.storage.values line
      rwa [← same, ← text] at answered
  | call c calls reply next admits =>
      have counts : mutates line = c.isMutation := by rw [mutates, calls]; rfl
      cases admits with
      | answer =>
          obtain ⟨sameReply, storage⟩ := ledger_call_eq room.counted (lineCall_filled calls).2
          rw [calls] at engine
          have engine : (processLine ledger.storage line).2 = (StorageEngine.call ledger.storage c).2 :=
            engine
          have moved : (ledger.call c).2.storage.values =
              (MapMachine.step ledger.storage.values line).2 := by
            rw [storage, ← engine, map]
          have answered := @MapAdmits.answer mayFail ledger.storage.values line
          rw [← text, processLine_response calls, ← sameReply, ← moved] at answered
          rw [counts] at room
          exact ⟨answered, room.call⟩
      | failedAppend may record intent status unavailable =>
          have mutation : c.isMutation = true := (Ledger.intended_of_intent intent).mutation
          obtain ⟨code, message⟩ := status
          rw [lineResponse_unavailable calls mutation unavailable]
          obtain rfl : code = .unavailable := unavailable
          exact ⟨.unavailable may (counts.trans mutation) message, weaker⟩

/-- An order on a ledger with room is an order on its map. -/
theorem sequential_map {mayFail : Prop} {ledger final : Ledger}
    {exchanges : List (Bytes × Bytes)} {mutations : Nat}
    (room : Room ledger (mutations + exchanges.countP fun exchange => mutates exchange.1))
    (run : Sequential (LineAdmits mayFail) ledger exchanges final) :
    Sequential (MapAdmits mayFail) ledger.storage.values exchanges final.storage.values ∧
      Room final mutations := by
  obtain ⟨last, mapped, ends⟩ := @sequential_simulation Bytes Bytes Ledger MapMachine.Map
    (LineAdmits mayFail) (MapAdmits mayFail)
    (fun ledger map rest => ledger.storage.values = map ∧
      Room ledger (mutations + rest.countP fun exchange => mutates exchange.1))
    (fun ledger map line response rest next related admits => by
      obtain ⟨rfl, room⟩ := related
      rw [List.countP_cons, ← Nat.add_assoc] at room
      obtain ⟨answered, left⟩ := mapAdmits_of_lineAdmits room admits
      exact ⟨_, answered, rfl, left⟩)
    ledger final ledger.storage.values exchanges ⟨rfl, room⟩ run
  obtain ⟨rfl, left⟩ := ends
  exact ⟨mapped, left⟩

/-- What an order of lines may count: the lines of the history that ask for a change. -/
def changes (history : List (Event C Bytes Bytes)) : Nat := history.countP (Event.calls mutates)

/-- **An order of lines on a ledger with room is one on its map.** -/
theorem linearization_map {mayFail : Prop} {ledger final : Ledger}
    {history : List (Event C Bytes Bytes)} {order : List (Operation C Bytes Bytes)}
    {mutations : Nat} (room : Room ledger (mutations + changes history))
    (linear : Linearization (LineAdmits mayFail) ledger history order final) :
    Linearization (MapAdmits mayFail) ledger.storage.values history order final.storage.values ∧
      Room final mutations := by
  have few : ((order.map Operation.exchange).countP fun exchange => mutates exchange.1) ≤
      changes history := by
    rw [List.countP_map]
    exact linear.countP_le mutates
  have enough : Room ledger (mutations +
      (order.map Operation.exchange).countP fun exchange => mutates exchange.1) :=
    ⟨room.1, by have := room.2; omega⟩
  obtain ⟨mapped, left⟩ := sequential_map enough linear.sequential
  exact ⟨linear.of_sequential mapped, left⟩

section Schedules

variable [DecidableEq C]

/-- **Every schedule of connections has an order.** -/
theorem exists_line_records {node : Node} (ready : Node.Ready node) (mayFail : Prop)
    (schedule : List (C × LineDirective))
    (blame : ∀ shown ∈ (Machine.run LineSystem.step (LineSystem.initial node) schedule).1,
      shown.isFailedAppend = true → mayFail) :
    LineCoherent (Machine.after LineSystem.step (LineSystem.initial node) schedule) ∧
      ∃ r, Records (LineAdmits mayFail) node.ledger
        (lineSeen (Machine.after LineSystem.step (LineSystem.initial node) schedule)
          (Machine.run LineSystem.step (LineSystem.initial node) schedule).1) r :=
  @linearization_of_visible C Bytes Bytes Ledger (LineSystem C) (C × LineDirective)
    (LineObservation C) _ (LineAdmits mayFail) LineSystem.step LineObservation.event?
    LineSystem.view (fun s => s.engine.ledger) LineCoherent
    (fun shown => shown.isFailedAppend = true → mayFail)
    (fun _ turn outputs coherent blame => step_visible coherent turn outputs blame)
    (LineSystem.initial node) (lineCoherent_initial ready) (fun _ => rfl) schedule blame

/-- **Concurrent connections are linearizable to a map.**  For any number of connections,
any schedule of the workers' steps and anything the kernel answers, as long as the sequence
numbers suffice: the responses are those of one order of the lines on one finite map, which
keeps each connection's order and real time, and in which a change fails only if some append
failed. -/
theorem lines_linearizable {node : Node} (ready : Node.Ready node)
    (schedule : List (C × LineDirective))
    (room : Room node.ledger (changes (lineHistory
      (Machine.run LineSystem.step (LineSystem.initial node) schedule).1))) :
    let seen := (Machine.run LineSystem.step (LineSystem.initial node) schedule).1
    let last := Machine.after LineSystem.step (LineSystem.initial node) schedule
    ∃ order, Linearization (MapAdmits (∃ shown ∈ seen, shown.isFailedAppend = true))
      node.engine.storage.values (lineHistory seen) order last.engine.node.engine.storage.values := by
  intro seen last
  obtain ⟨-, r, records⟩ := exists_line_records ready
    (∃ shown ∈ seen, shown.isFailedAppend = true) schedule
    fun shown member failed => ⟨shown, member, failed⟩
  have room : Room node.ledger (0 + changes (lineHistory seen)) := by rwa [Nat.zero_add]
  exact ⟨r.order, (linearization_map room records.linearization).1⟩

/-- Two connections race for a key, the second parsed while the first holds the mutex. -/
def racingLines : List (Bool × LineDirective) :=
  [(false, .submit (bytes "SET k v")), (true, .submit (bytes "del k")), (false, .go {}),
    (false, .go {}), (true, .go {}), (false, .go {}), (true, .go {}), (false, .go {}),
    (false, .go {}), (false, .go {}), (false, .go {}), (false, .go {})]

theorem lines_linearizable_race :
    let start := (Node.launch (bytes "wal") {} (.holding none)).2
    let seen := (Machine.run LineSystem.step (LineSystem.initial start) racingLines).1
    lineHistory seen = [.call false (bytes "SET k v"), .call true (bytes "del k"),
        .ret false (bytes "+OK\r\n")] ∧
      ∃ order final, Linearization (MapAdmits (∃ shown ∈ seen, shown.isFailedAppend = true)) ∅
        (lineHistory seen) order final := by
  have launched := @Node.launch_ok (bytes "wal") {} (.holding none) (by decide)
  obtain ⟨order, linear⟩ :=
    lines_linearizable launched.2.toReady racingLines ⟨by decide, by decide⟩
  exact ⟨by decide, order, _, linear⟩

end Schedules

end AsterKV.Concurrent
