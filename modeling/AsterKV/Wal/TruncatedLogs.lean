/-
# AsterKV.Wal.TruncatedLogs -- what recovery makes of the first bytes of a log

A truncation keeps some whole lines and cuts the next (`take_logBytes`).  The whole
lines stand for a map the run has held (`held_of_prefix`); the cut line adds nothing
unless the reader takes it for a record.  `torn_tail_iff` says when it does so
wrongly: the cut falls between two bytes of a set's value.
-/
import AsterKV.Wal.CleanRuns
import AsterKV.Wal.TornLines

namespace AsterKV.Wal

open AsterKV.Core AsterKV.Storage Theory Theory.Lines

set_option autoImplicit false

/-! ## Where a truncation falls -/

/-- The first bytes of a log are some whole lines and a part of the next one. -/
theorem take_logBytes {records : List WalRecord} {n : Nat}
    (short : n < (logBytes records).length) :
    ∃ front record back m, records = front ++ record :: back ∧ m ≤ (recordText record).length ∧
      n = (logBytes front).length + m ∧
      (logBytes records).take n = logBytes front ++ (recordText record).take m := by
  obtain ⟨whole, cut, rest, m, split, inside, taken⟩ := take_flatten short
  obtain ⟨front, later, rfl, rfl, laterEq⟩ := List.map_eq_append_iff.1 split
  obtain ⟨record, back, rfl, rfl, rfl⟩ := List.map_eq_cons_iff.1 laterEq
  have bound : m ≤ (recordText record).length := by
    rw [recordLine, List.length_append, List.length_singleton] at inside
    omega
  have part : (recordLine record).take m = (recordText record).take m := by
    rw [recordLine, List.take_append_of_le_length bound]
  refine ⟨front, record, back, m, rfl, bound, ?_, ?_⟩
  · have lengths := congrArg List.length taken
    rw [List.length_append, List.length_take, List.length_take] at lengths
    unfold logBytes at short ⊢
    omega
  · rw [← part]
    exact taken

/-- The map with the shortened value of a set that is cut at this length. -/
def CutValue (records : List WalRecord) (n : Nat) (storage : InMemoryStorage) : Prop :=
  ∃ front record back j, records = front ++ record :: back ∧ record.type = .set ∧
    0 < j ∧ j < record.value.length ∧
    n = (logBytes front).length + ((recordHead record).length + 2 * j) ∧
    restored (front ++ [record.shortened j]) = some storage

theorem length_recordText_of_ne {record : WalRecord} (ne : record.value ≠ []) :
    (recordText record).length = (recordHead record).length + 2 * record.value.length := by
  rw [recordText, encodeWalField_of_ne ne, List.length_append, length_hexEncode]

theorem value_ne_nil_of_inside {value : Bytes} {j : Nat} (inside : j < value.length) :
    value ≠ [] := by
  rintro rfl
  exact absurd inside (Nat.not_lt_zero j)

/-- A set cut behind `j` bytes of its value. -/
theorem take_recordText {record : WalRecord} {j : Nat} (pos : 0 < j)
    (short : j < record.value.length) :
    (recordText record).take ((recordHead record).length + 2 * j) =
      recordText (record.shortened j) := by
  have ne := value_ne_nil_of_inside short
  have takeNe : record.value.take j ≠ [] := by
    intro empty
    have length := congrArg List.length empty
    rw [List.length_take, List.length_nil] at length
    omega
  rw [recordText, encodeWalField_of_ne ne, List.take_length_add_append, take_hexEncode]
  show _ = recordHead record ++ encodeWalField (record.value.take j)
  rw [encodeWalField_of_ne takeNe]

/-- **What the first bytes of a log stand for:** the map of its first records, or one
with a shortened value. -/
theorem ledgerOf_take {records : List WalRecord}
    (valid : ∀ record ∈ records, (validateWalRecord record).isOk = true) {n : Nat} {found : Ledger}
    (stands : ledgerOf ((logBytes records).take n) = some found) :
    (∃ front, front <+: records ∧ restored front = some found.storage) ∨
      CutValue records n found.storage := by
  by_cases short : n < (logBytes records).length
  case neg =>
    left
    rw [List.take_of_length_le (by omega)] at stands
    obtain ⟨records', read, replayed, -⟩ := ledgerOf_eq_some.1 stands
    rw [readContent_logBytes valid] at read
    cases Except.ok.inj read
    exact ⟨records, List.prefix_rfl, replayed⟩
  obtain ⟨front, record, back, m, rfl, bound, cut, taken⟩ := take_logBytes short
  have validFront : ∀ r ∈ front, (validateWalRecord r).isOk = true := fun r member =>
    valid r (List.mem_append_left _ member)
  have validRecord := valid record (List.mem_append_right _ List.mem_cons_self)
  rw [taken] at stands
  by_cases none : (recordText record).take m = []
  · left
    rw [none, List.append_nil] at stands
    obtain ⟨records', read, replayed, -⟩ := ledgerOf_eq_some.1 stands
    rw [readContent_logBytes validFront] at read
    cases Except.ok.inj read
    exact ⟨front, List.prefix_append _ _, replayed⟩
  · have clean : lineFeed ∉ (recordText record).take m := fun member =>
      lineFeed_notMem_recordText record (List.mem_of_mem_take member)
    obtain ⟨other, decoded, replayed, -⟩ := 
      (ledgerOf_line (terminated_logBytes front) (readContent_logBytes validFront) clean none).1 stands
    obtain ⟨as, text⟩ :=
      (@deserialize_cut ⟨record, validRecord⟩ _ (List.take_prefix m _) other).1 decoded
    rcases as with rfl | ⟨set, j, pos, inside, rfl⟩
    · left
      exact ⟨front ++ [other], ⟨back, by simp⟩, replayed⟩
    · right
      refine ⟨front, record, back, j, rfl, set, pos, inside, ?_, replayed⟩
      have inside : j < record.value.length := inside
      have text : (recordText record).take m = recordText (record.shortened j) := text
      have lengths := congrArg List.length (text.trans (take_recordText pos inside).symm)
      have whole := length_recordText_of_ne (value_ne_nil_of_inside inside)
      rw [List.length_take, List.length_take] at lengths
      omega

/-- A cut value is what the first bytes stand for. -/
theorem ledgerOf_of_cutValue {records : List WalRecord}
    (valid : ∀ record ∈ records, (validateWalRecord record).isOk = true) {n : Nat}
    {storage : InMemoryStorage} (cut : CutValue records n storage) :
    ∃ found, ledgerOf ((logBytes records).take n) = some found ∧ found.storage = storage := by
  obtain ⟨front, record, back, j, rfl, set, pos, inside, rfl, replayed⟩ := cut
  have validFront : ∀ r ∈ front, (validateWalRecord r).isOk = true := fun r member =>
    valid r (List.mem_append_left _ member)
  have validShort := WalRecord.ReadAs.valid (Or.inr ⟨set, j, pos, inside, rfl⟩)
    (valid record (List.mem_append_right _ List.mem_cons_self))
  have regroup : logBytes (front ++ record :: back) =
      logBytes front ++ (recordText record ++ (lineFeed :: logBytes back)) := by
    simp [logBytes, recordLine]
  have bound : (recordHead record).length + 2 * j ≤ (recordText record).length := by
    have := length_recordText_of_ne (value_ne_nil_of_inside inside)
    omega
  rw [regroup, List.take_length_add_append, List.take_append_of_le_length bound,
    take_recordText pos inside]
  refine ⟨⟨storage, computeNextSequenceNumber (front ++ [record.shortened j])⟩, ?_, rfl⟩
  exact (ledgerOf_line (terminated_logBytes front) (readContent_logBytes validFront)
    (lineFeed_notMem_recordText _) (recordText_ne_nil _)).2
    ⟨_, deserialize_recordText ⟨_, validShort⟩, replayed, rfl⟩

namespace Node

/-! ## Recovery from the first bytes -/

/-- A new process finds only the first `n` bytes of the log. -/
def recoverTruncated (node : Node) (n : Nat) (outcomes : Outcomes) : Status × Node :=
  launch node.engine.filePath node.engine.options
    { node.fs with file := some (node.fs.content.take n), pending := outcomes }

/-- The map was held after some first part of the run, and holds nothing that no
acknowledged set of the run stored. -/
structure Held (start : Node) (requests : List (Outcomes × Call)) (storage : InMemoryStorage) :
    Prop where
  held : ∃ earlier, earlier <+: requests ∧
    storage = (Machine.after step start earlier).engine.storage
  stored : ∀ key value, storage.lookup key = some value →
    ∃ reply, (Call.set key value, reply) ∈ history start requests ∧ reply.isAcknowledged = true

section

variable {start : Node} (synced : Synced start) (empty : start.fs.content = [])
  (ledger : start.ledger = { storage := .empty, next := 1 }) {requests : List (Outcomes × Call)}
  (clean : ∀ request ∈ requests, request.1.NoFailure)

include synced empty ledger clean

/-- A map the run held was stored by its acknowledged sets. -/
theorem held_of_earlier {earlier : List (Outcomes × Call)} (first : earlier <+: requests)
    {storage : InMemoryStorage} (held : storage = (Machine.after step start earlier).engine.storage) :
    Held start requests storage := by
  obtain ⟨-, -, -, valid, replayed⟩ := fresh_run synced empty ledger
    fun request member => clean request (first.subset member)
  refine ⟨⟨earlier, first, held⟩, fun key value found => ?_⟩
  rw [held] at found
  obtain ⟨record, member, set, rfl, rfl⟩ := lookup_restored valid replayed found
  obtain ⟨answered, inHistory, number, logged⟩ := mem_acknowledgedRecords member
  obtain ⟨acknowledged, -, -, shape⟩ := acknowledgedRecord_eq_some logged
  obtain ⟨later, rfl⟩ := first
  refine ⟨answered.2, ?_, acknowledged⟩
  rw [history_append, ← shape set]
  exact List.mem_append_left _ inHistory

/-- **The first records of a run stand for a map it held.** -/
theorem held_of_prefix {front : List WalRecord}
    (isPrefix : front <+: acknowledgedRecords 1 (history start requests)) :
    ∃ storage, restored front = some storage ∧ Held start requests storage := by
  obtain ⟨earlier, first, rfl⟩ := exists_prefix_of_records isPrefix
  have replayed := (fresh_run synced empty ledger
    fun request member => clean request (first.subset member)).2.2.2.2
  exact ⟨_, replayed, held_of_earlier synced empty ledger clean first rfl⟩

end

theorem recoverTruncated_isOk {node : Node} (ready : Ready node) {n : Nat}
    (stands : (ledgerOf (node.fs.content.take n)).isSome) :
    (node.recoverTruncated n {}).1.isOk = true :=
  @launch_isOk node.engine.filePath node.engine.options
    { node.fs with file := some (node.fs.content.take n), pending := {} } ready.named ready.parent
    Outcomes.noFailure_default stands

/-- **Torn tails.**  Recovery from the first `n` bytes of a clean run's log fails or
yields a map the run held, exactly when no cut set makes one it never held: a map
with a value shortened at `n`, which is possible only when `n` falls between two
bytes of the value of a set. -/
theorem torn_tail_iff {filePath : Bytes} {options : WalBackedStorageOptions} {fs : FileSystem}
    {requests : List (Outcomes × Call)} (absent : fs.file = none)
    (recovered : (launch filePath options fs).1 = .ok)
    (clean : ∀ request ∈ requests, request.1.NoFailure) (n : Nat) :
    let start := (launch filePath options fs).2
    let last := Machine.after step start requests
    (∀ outcomes, let again := last.recoverTruncated n outcomes
      again.1.isOk = false ∨
        again.1 = .ok ∧ Held start requests again.2.engine.storage) ↔
    ∀ storage, CutValue (acknowledgedRecords 1 (history start requests)) n storage →
      ∃ earlier, earlier <+: requests ∧
        storage = (Machine.after step start earlier).engine.storage := by
  intro start last
  obtain ⟨synced, empty, ledger⟩ := fresh_start absent recovered
  obtain ⟨lastSynced, content, -, valid, -⟩ := fresh_run synced empty ledger clean
  constructor
  · intro safe storage cut
    obtain ⟨found, stands, rfl⟩ := ledgerOf_of_cutValue valid cut
    rw [← content] at stands
    have ok : (last.recoverTruncated n {}).1.isOk = true :=
      recoverTruncated_isOk lastSynced.toReady (by rw [stands]; rfl)
    have same : (last.recoverTruncated n {}).2.ledger = found :=
      Option.some.inj ((launch_ok ok).2.stands.symm.trans stands)
    rcases safe {} with failed | ⟨-, held⟩
    · cases ok.symm.trans failed
    · obtain ⟨earlier, first, eq⟩ := held.held
      exact ⟨earlier, first, by rw [← same]; exact eq⟩
  · intro excused outcomes again
    cases answer : again.1.isOk with
    | false => exact Or.inl rfl
    | true =>
        right
        obtain ⟨status, launched⟩ := launch_ok answer
        refine ⟨status, ?_⟩
        have stands : ledgerOf ((logBytes (acknowledgedRecords 1 (history start requests))).take n) =
            some again.2.ledger := by
          rw [← content]
          exact launched.stands
        rcases ledgerOf_take valid stands with ⟨front, isPrefix, replayed⟩ | cut
        · obtain ⟨storage, replayed', held⟩ := held_of_prefix synced empty ledger clean isPrefix
          cases Option.some.inj (replayed.symm.trans replayed')
          exact held
        · obtain ⟨earlier, first, eq⟩ := excused _ cut
          exact held_of_earlier synced empty ledger clean first eq

/-- A log of one set, cut inside its version. -/
theorem torn_tail_iff_version :
    let start := (launch (bytes "wal") {} (.holding none)).2
    let requests : List (Outcomes × Call) := [({}, .set (bytes "k") (bytes "xy"))]
    let again := (Machine.after step start requests).recoverTruncated 3 {}
    again.1.isOk = false ∨
      again.1 = .ok ∧ Held start requests again.2.engine.storage := by
  have iff := @torn_tail_iff (bytes "wal") {} (.holding none)
    [({}, .set (bytes "k") (bytes "xy"))] rfl (by decide)
    (by simp [Outcomes.noFailure_default]) 3
  refine iff.2 (fun storage cut => ?_) {}
  obtain ⟨front, record, -, j, -, -, -, -, three, -⟩ := cut
  have version : currentWalRecordFormatVersion.length = 7 := by decide
  have long : 7 ≤ (recordHead record).length := by
    rw [recordHead, List.length_append, version]
    omega
  omega

/-- The log of one set, cut behind the first byte of its value, yields a pair that was
never stored. -/
theorem torn_value_recovered :
    let start := (launch (bytes "wal") {} (.holding none)).2
    let set := start.step ({}, .set (bytes "k") (bytes "xy"))
    let again := set.2.recoverTruncated 19 {}
    set.1 = .status .ok ∧ again.1 = .ok ∧
      again.2.engine.storage.lookup (bytes "k") = some (bytes "x") ∧
      again.2.engine.storage ≠ start.engine.storage ∧
      again.2.engine.storage ≠ set.2.engine.storage := by
  decide

end Node

end AsterKV.Wal
