/-
# AsterKV.Wal.ReplaySemantics -- what a replay leaves, key by key

A record is an entry that writes one key: a set leaves its value, a del leaves nothing
and needs its key.  The in-memory target is a keyed store in this sense
(`keyed_applyRecord`), so the library decides which logs replay and to what.  A replay
that stops has applied exactly the records before the one it stopped at
(`replayRecords_stops`).
-/
import AsterKV.Theory.KeyedLog
import AsterKV.Wal.Replay

namespace AsterKV.Wal

open AsterKV.Core AsterKV.Storage Theory Theory.KeyedLog

set_option autoImplicit false

/-! ## Records as entries -/

/-- What a record leaves at its key. -/
def WalRecord.leaves (record : WalRecord) : Option Bytes :=
  match record.type with
  | .set => some record.value
  | .del => none

def recordWrites : Writes ValidRecord Bytes Bytes where
  key record := record.val.key
  leaves record := record.val.leaves
  needs record := record.val.type = .del

theorem lookup_applyTo (record : WalRecord) (storage : InMemoryStorage) :
    (record.applyTo storage).lookup =
      Function.update storage.lookup record.key record.leaves := by
  funext key
  by_cases same : key = record.key
  · subst same
    rw [Function.update_self]
    exact lookup_applyTo_self record storage
  · rw [lookup_applyTo_of_ne record storage same, Function.update_of_ne same]

/-- **The in-memory target applies records as `recordWrites` says.** -/
theorem keyed_applyRecord :
    Keyed recordWrites (fun record : ValidRecord => applyRecord record.val)
      InMemoryStorage.lookup where
  refused record storage := by
    rw [applyRecord_valid, ite_eq_right_iff]
    simp only [reduceCtorEq, imp_false, WalRecord.Applicable, recordWrites, Classical.not_imp,
      Bool.not_eq_true, Option.isSome_eq_false_iff, Option.isNone_iff_eq_none]
  written record before after applied := by
    rw [applyRecord_valid] at applied
    split at applied
    · cases applied
      exact lookup_applyTo record.val before
    · cases applied

/-! ## The replay of the code -/

/-- A list of records that were validated one by one. -/
theorem exists_validRecords {records : List WalRecord}
    (valid : ∀ record ∈ records, (validateWalRecord record).isOk = true) :
    ∃ log : List ValidRecord, records = log.map Subtype.val :=
  ⟨records.pmap Subtype.mk valid, by rw [List.map_pmap, List.pmap_eq_map, List.map_id']⟩

theorem replayRecords_ok_iff_replay {log : List ValidRecord} {s t : InMemoryStorage} :
    replayRecords (log.map Subtype.val) s = (.ok, t) ↔
      Journal.replay (fun record : ValidRecord => applyRecord record.val) log s = some t := by
  rw [replayRecords_ok_iff, Journal.replay_map]

/-- A replay that returns OK returns nothing but plain OK. -/
theorem exists_replay_of_isOk {log : List ValidRecord} {storage : InMemoryStorage}
    (ok : (replayRecords (log.map Subtype.val) storage).1.isOk = true) :
    ∃ after, replayRecords (log.map Subtype.val) storage = (.ok, after) := by
  cases replays : Journal.replay applyRecord (log.map Subtype.val) storage with
  | none =>
      have failed := replayRecords_not_ok replays
      rw [ok] at failed
      cases failed
  | some after => exact ⟨after, replayRecords_ok_iff.2 replays⟩

/-- A del of an absent key is refused, and the target keeps what it had. -/
theorem replayRecord_refused {record : ValidRecord} {storage : InMemoryStorage}
    (del : record.val.type = .del) (absent : storage.lookup record.val.key = none) :
    replayRecord record.val storage = (InMemoryStorage.keyNotFoundStatus, storage) := by
  have refused : WalReplayTarget.del storage record.val.key =
      (InMemoryStorage.keyNotFoundStatus, storage) :=
    InMemoryStorage.remove_of_absent record.key_ne_nil absent
  simp [replayRecord, record.property, del, refused]

/-- The replay stops behind the records it could apply. -/
theorem replayRecords_append_refused {before : List WalRecord} {record : ValidRecord}
    {s t : InMemoryStorage} (replays : replayRecords before s = (.ok, t))
    (del : record.val.type = .del) (absent : t.lookup record.val.key = none)
    (after : List WalRecord) :
    replayRecords (before ++ record.val :: after) s = (InMemoryStorage.keyNotFoundStatus, t) := by
  induction before generalizing s with
  | nil =>
      cases replays
      rw [List.nil_append, replayRecords_cons, replayRecord_refused del absent]
      rfl
  | cons first rest ih =>
      rw [replayRecords_cons] at replays
      rw [List.cons_append, replayRecords_cons]
      cases accepted : (replayRecord first s).1.isOk with
      | true =>
          simp only [accepted, Bool.not_true, Bool.false_eq_true, if_false] at replays ⊢
          exact ih replays
      | false =>
          simp only [accepted, Bool.not_false, if_true] at replays
          rw [replays] at accepted
          cases accepted

/-- **A replay that fails stopped at a del of an absent key, behind records that all
applied.** -/
theorem replayRecords_stops {log : List ValidRecord} {storage : InMemoryStorage}
    (failed : (replayRecords (log.map Subtype.val) storage).1.isOk = false) :
    ∃ before failing after t, log = before ++ failing :: after ∧
      replayRecords (before.map Subtype.val) storage = (.ok, t) ∧
      failing.val.type = .del ∧ t.lookup failing.val.key = none ∧
      replayRecords (log.map Subtype.val) storage = (InMemoryStorage.keyNotFoundStatus, t) := by
  have stuck : Journal.replay (fun record : ValidRecord => applyRecord record.val) log storage =
      none := by
    rw [Option.eq_none_iff_forall_not_mem]
    intro t member
    rw [replayRecords_ok_iff_replay.2 (Option.mem_def.1 member)] at failed
    cases failed
  obtain ⟨before, failing, after, t, split, replays, refused⟩ := Journal.exists_refused stuck
  obtain ⟨del, absent⟩ := (keyed_applyRecord.refused failing t).1 refused
  have applied := replayRecords_ok_iff_replay.2 replays
  refine ⟨before, failing, after, t, split, applied, del, absent, ?_⟩
  have stops := replayRecords_append_refused applied del absent (after.map Subtype.val)
  rwa [split, List.map_append, List.map_cons]

/-- What an OK replay leaves at each key. -/
theorem lookup_replayRecords {log : List ValidRecord} {s t : InMemoryStorage}
    (replays : replayRecords (log.map Subtype.val) s = (.ok, t)) :
    t.lookup = valueAfter recordWrites s.lookup log :=
  keyed_applyRecord.lookup_replay (replayRecords_ok_iff_replay.1 replays)

theorem isOk_replayRecords_iff {log : List ValidRecord} {storage : InMemoryStorage} :
    (replayRecords (log.map Subtype.val) storage).1.isOk = true ↔
      AllFound recordWrites storage.lookup log := by
  rw [← keyed_applyRecord.replay_isSome_iff]
  constructor
  · intro ok
    obtain ⟨after, replays⟩ := exists_replay_of_isOk ok
    rw [replayRecords_ok_iff_replay.1 replays]
    rfl
  · intro some
    obtain ⟨after, replays⟩ := Option.isSome_iff_exists.1 some
    rw [replayRecords_ok_iff_replay.2 replays]
    rfl

/-- **Replay, declared key by key.**  When it returns OK, what a failing replay leaves,
and where each key ends up. -/
theorem replay_semantics (initial : InMemoryStorage) (records : List ValidRecord) :
    ((replayRecords (records.map Subtype.val) initial).1.isOk = true ↔
      ∀ before record after, records = before ++ record :: after → record.val.type = .del →
        (valueAfter recordWrites initial.lookup before record.val.key).isSome) ∧
    ((replayRecords (records.map Subtype.val) initial).1.isOk = true →
      ∀ key, (replayRecords (records.map Subtype.val) initial).2.lookup key =
        match lastOn recordWrites records key with
        | some record => record.val.leaves
        | none => initial.lookup key) ∧
    ((replayRecords (records.map Subtype.val) initial).1.isOk = false →
      ∃ before failing after, records = before ++ failing :: after ∧
        (replayRecords (before.map Subtype.val) initial).1.isOk = true ∧
        failing.val.type = .del ∧
        valueAfter recordWrites initial.lookup before failing.val.key = none ∧
        ∀ key, (replayRecords (records.map Subtype.val) initial).2.lookup key =
          valueAfter recordWrites initial.lookup before key) := by
  refine ⟨isOk_replayRecords_iff, ?_, ?_⟩
  · intro ok key
    obtain ⟨after, replays⟩ := exists_replay_of_isOk ok
    rw [replays]
    change after.lookup key = _
    rw [lookup_replayRecords replays]
    unfold valueAfter
    cases lastOn recordWrites records key with
    | none => rfl
    | some record => rfl
  · intro failed
    obtain ⟨before, failing, after, t, split, applied, del, absent, stopped⟩ :=
      replayRecords_stops failed
    have lookups := lookup_replayRecords applied
    refine ⟨before, failing, after, split, by rw [applied]; rfl, del, ?_, fun key => ?_⟩
    · rw [← lookups, absent]
    · rw [stopped, ← lookups]

end AsterKV.Wal
