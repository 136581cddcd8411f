/-
# AsterKV.Wal.FailedAppends -- what a failed append leaves in the log

A failed append may leave any part of its line in the file, the whole of it
included, and nothing takes it out again.  `mapOf_appended` says what the log stands
for afterwards: the map of its whole lines, and then whatever the reader makes of
the unterminated rest with the new bytes behind it.
-/
import AsterKV.Wal.CleanRuns
import AsterKV.Wal.TornLines

namespace AsterKV.Wal

open AsterKV.Core AsterKV.Storage Theory Theory.Lines

set_option autoImplicit false

/-! ## Maps of logs -/

/-- The map a log file stands for. -/
def mapOf (content : Bytes) : Option InMemoryStorage := (ledgerOf content).map Ledger.storage

/-- What one more line does to a map: nothing when it is not accepted. -/
def lineEffect (line : Bytes) (storage : InMemoryStorage) : Option InMemoryStorage :=
  match deserialize line with
  | .ok record => applyRecord record storage
  | .error _ => none

theorem mapOf_eq_some {content : Bytes} {storage : InMemoryStorage} :
    mapOf content = some storage ↔
      ∃ records, readContent content = .success records ∧ restored records = some storage := by
  constructor
  · intro h
    obtain ⟨ledger, stands, rfl⟩ := Option.map_eq_some_iff.1 h
    obtain ⟨records, read, replayed, -⟩ := ledgerOf_eq_some.1 stands
    exact ⟨records, read, replayed⟩
  · rintro ⟨records, read, replayed⟩
    rw [mapOf, ledgerOf_of_read read, replayed]
    rfl

theorem lineEffect_eq_some {line : Bytes} {storage after : InMemoryStorage} :
    lineEffect line storage = some after ↔
      ∃ record, deserialize line = .success record ∧ applyRecord record storage = some after := by
  unfold lineEffect
  cases deserialize line with
  | error failure =>
      constructor
      · intro h
        cases h
      · rintro ⟨record, decoded, -⟩
        cases decoded
  | ok record =>
      constructor
      · exact fun h => ⟨record, rfl, h⟩
      · rintro ⟨other, same, applied⟩
        cases Except.ok.inj same
        exact applied

/-- **A further line acts on the map of the lines before it,** with or without its
line feed. -/
theorem mapOf_line {front : Bytes} (terminated : Terminated lineFeed front) {line : Bytes}
    (clean : lineFeed ∉ line) (ne : line ≠ []) :
    mapOf (front ++ line) = (mapOf front).bind (lineEffect line) ∧
      mapOf (front ++ (line ++ [lineFeed])) = (mapOf front).bind (lineEffect line) := by
  have effect : ∀ {rest : Bytes} {storage : InMemoryStorage},
      (∀ {records : List WalRecord}, readContent rest = .success records ↔
        ∃ record, deserialize line = .success record ∧ records = [record]) →
      (mapOf (front ++ rest) = some storage ↔
        (mapOf front).bind (lineEffect line) = some storage) := by
    intro rest storage single
    rw [mapOf_eq_some, Option.bind_eq_some_iff]
    constructor
    · rintro ⟨records, read, replayed⟩
      obtain ⟨first, second, readFirst, readSecond, rfl⟩ :=
        (readContent_append terminated rest).1 read
      obtain ⟨record, decoded, rfl⟩ := single.1 readSecond
      rw [restored, Journal.replay_snoc] at replayed
      obtain ⟨before, replayedFirst, applied⟩ := Option.bind_eq_some_iff.1 replayed
      exact ⟨before, mapOf_eq_some.2 ⟨first, readFirst, replayedFirst⟩,
        lineEffect_eq_some.2 ⟨record, decoded, applied⟩⟩
    · rintro ⟨before, stands, effect⟩
      obtain ⟨first, readFirst, replayedFirst⟩ := mapOf_eq_some.1 stands
      obtain ⟨record, decoded, applied⟩ := lineEffect_eq_some.1 effect
      exact ⟨first ++ [record], (readContent_append terminated rest).2
        ⟨first, [record], readFirst, single.2 ⟨record, decoded, rfl⟩, rfl⟩,
        Journal.replay_snoc_of_apply replayedFirst applied⟩
  constructor
  · exact Option.ext fun storage => effect (readContent_tail clean ne)
  · exact Option.ext fun storage => effect (readContent_line clean ne)

/-- A record's own line has the record's effect. -/
theorem lineEffect_recordLine (record : ValidRecord) (storage : InMemoryStorage) :
    lineEffect (recordLine record.val) storage = applyRecord record.val storage := by
  have decoded : deserialize (recordLine record.val) = .ok record.val :=
    (deserialize_recordLine [] record.val).trans (deserialize_recordText record)
  rw [lineEffect, decoded]

/-- Behind other bytes it has none. -/
theorem lineEffect_glued {before : Bytes} (ne : before ≠ []) (record : WalRecord)
    (storage : InMemoryStorage) : lineEffect (before ++ recordLine record) storage = none := by
  have rejected := deserialize_glued ne record
  rw [← deserialize_recordLine] at rejected
  rw [Option.eq_none_iff_forall_not_mem]
  intro after effect
  obtain ⟨other, decoded, -⟩ := lineEffect_eq_some.1 effect
  rw [decoded] at rejected
  cases rejected

/-- **What a log stands for behind a part of a line.** -/
theorem mapOf_appended (content : Bytes) {record : WalRecord} {part : Bytes}
    (isPrefix : part <+: recordLine record) :
    mapOf (content ++ part) =
      if tail lineFeed content ++ part = [] then mapOf (body lineFeed content)
      else (mapOf (body lineFeed content)).bind (lineEffect (tail lineFeed content ++ part)) := by
  have regroup : content ++ part =
      body lineFeed content ++ (tail lineFeed content ++ part) := by
    conv_lhs => rw [← body_append_tail lineFeed content]
    rw [List.append_assoc]
  have cleanTail := sep_notMem_tail lineFeed content
  rw [regroup]
  rcases part_cases isPrefix with whole | ⟨-, cleanPart⟩
  · have clean : lineFeed ∉ tail lineFeed content ++ recordText record := by
      rw [List.mem_append, not_or]
      exact ⟨cleanTail, lineFeed_notMem_recordText record⟩
    have ne : tail lineFeed content ++ recordText record ≠ [] := fun h =>
      recordText_ne_nil record (List.append_eq_nil_iff.1 h).2
    have ended := (mapOf_line (body_terminated lineFeed content) clean ne).2
    have same : lineEffect (tail lineFeed content ++ recordLine record) =
        lineEffect (tail lineFeed content ++ recordText record) := by
      funext storage
      rw [lineEffect, lineEffect, deserialize_recordLine]
    rw [whole, same, if_neg (by simp [recordLine]), ← ended]
    simp [recordLine]
  · have clean : lineFeed ∉ tail lineFeed content ++ part := by
      rw [List.mem_append, not_or]
      exact ⟨cleanTail, cleanPart⟩
    split
    · next none => rw [none, List.append_nil]
    · next ne => exact (mapOf_line (body_terminated lineFeed content) clean ne).1

namespace Node

/-! ## Notes on a run -/

/-- Calls and replies, in order. -/
def remember (calls : List (Call × Reply)) (request : Outcomes × Call) (reply : Reply) :
    List (Call × Reply) :=
  calls ++ [(request.2, reply)]

theorem noted_remember (node : Node) (calls : List (Call × Reply))
    (requests : List (Outcomes × Call)) :
    Machine.noted step remember node calls requests = calls ++ history node requests := by
  induction requests generalizing node calls with
  | nil => exact (List.append_nil calls).symm
  | cons request rest ih =>
      rw [Machine.noted, ih, history_cons, remember, List.append_assoc]
      rfl

/-- What every recovery of a file yields is what the file stands for. -/
theorem recovered_iff {node : Node} (ready : Ready node) {P : InMemoryStorage → Prop} :
    (∀ orderly outcomes, (node.restart orderly outcomes).1.isOk = true →
      P (node.restart orderly outcomes).2.engine.storage) ↔
    ∀ storage, mapOf node.fs.content = some storage → P storage := by
  constructor
  · intro all storage stands
    obtain ⟨ledger, found, rfl⟩ := Option.map_eq_some_iff.1 stands
    have ok := (restart_isOk_iff ready false Outcomes.noFailure_default).2 (by rw [found]; rfl)
    have same := (restart_ok ok).2.stands
    rw [found] at same
    have storage := all false {} ok
    rw [show (node.restart false {}).2.engine.storage = ledger.storage from
      congrArg Ledger.storage (Option.some.inj same).symm] at storage
    exact storage
  · intro all orderly outcomes ok
    have stands := (restart_ok ok).2.stands
    exact all _ (by rw [mapOf, stands]; rfl)

end Node

end AsterKV.Wal
