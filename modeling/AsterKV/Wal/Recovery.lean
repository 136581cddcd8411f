/-
# AsterKV.Wal.Recovery -- what recover leaves behind

Replay runs in the live storage and nothing is rolled back, so a recovery that fails can
leave anything from the state it found to the whole log: `recover_failed` says which.
One that returns OK can be repeated at any time on an engine whose file kept up with it
(`recover_again`), because a log replays over its own result.  The number it hands out
next is above all in the file, unless the file holds the largest number there is
(`recover_next_iff`).
-/
import AsterKV.Wal.CleanRuns
import AsterKV.Wal.ReplaySemantics
import AsterKV.Wal.RoundTrip

namespace AsterKV.Wal

open AsterKV.Core AsterKV.Storage Theory Theory.Lines

set_option autoImplicit false

namespace Node

/-! ## The next number -/

theorem le_maxSequenceNumber {records : List WalRecord} {largest : WalSequenceNumber} :
    largest ≤ maxSequenceNumber largest records ∧
      ∀ record ∈ records, record.sequenceNumber ≤ maxSequenceNumber largest records := by
  induction records generalizing largest with
  | nil => exact ⟨UInt64.le_refl _, by simp⟩
  | cons record rest ih =>
      obtain ⟨start, all⟩ := @ih (if record.sequenceNumber > largest then record.sequenceNumber
        else largest)
      rw [maxSequenceNumber, List.forall_mem_cons]
      split at start
      · next greater =>
          rw [if_pos greater]
          exact ⟨UInt64.le_trans (UInt64.le_of_lt greater) start, start,
            by rwa [if_pos greater] at all⟩
      · next smaller =>
          rw [if_neg smaller]
          exact ⟨start, UInt64.le_trans (UInt64.not_lt.1 smaller) start,
            by rwa [if_neg smaller] at all⟩

/-- The largest number is one of the records', or where the search began. -/
theorem maxSequenceNumber_mem (records : List WalRecord) (largest : WalSequenceNumber) :
    maxSequenceNumber largest records = largest ∨
      ∃ record ∈ records, record.sequenceNumber = maxSequenceNumber largest records := by
  induction records generalizing largest with
  | nil => exact Or.inl rfl
  | cons record rest ih =>
      rw [maxSequenceNumber]
      rcases ih (if record.sequenceNumber > largest then record.sequenceNumber else largest) with
        start | ⟨other, member, is⟩
      · split at start
        · next greater =>
            rw [if_pos greater]
            exact Or.inr ⟨record, List.mem_cons_self, start.symm⟩
        · next smaller =>
            rw [if_neg smaller]
            exact Or.inl start
      · exact Or.inr ⟨other, List.mem_cons_of_mem _ member, is⟩

theorem succ_eq_zero_iff {number : WalSequenceNumber} : number + 1 = 0 ↔ number = maxUInt64 := by
  have bound := number.toNat_lt
  rw [← UInt64.toNat_inj, ← UInt64.toNat_inj, UInt64.toNat_add, maxUInt64_toNat]
  simp only [UInt64.toNat_ofNat]
  omega

/-- The computed number is usable and new, unless some record has the largest of all. -/
theorem computeNextSequenceNumber_iff (records : List WalRecord) :
    (computeNextSequenceNumber records ≠ 0 ∧
        ∀ record ∈ records, record.sequenceNumber < computeNextSequenceNumber records) ↔
      ∀ record ∈ records, record.sequenceNumber ≠ maxUInt64 := by
  unfold computeNextSequenceNumber
  constructor
  · rintro ⟨-, above⟩ record member largest
    have below := above record member
    rw [largest, UInt64.lt_iff_toNat_lt, maxUInt64_toNat] at below
    have bound := (maxSequenceNumber 0 records + 1).toNat_lt
    omega
  · intro none
    have noWrap : maxSequenceNumber 0 records + 1 ≠ 0 := by
      rw [ne_eq, succ_eq_zero_iff]
      intro largest
      rcases maxSequenceNumber_mem records 0 with start | ⟨record, member, is⟩
      · rw [start] at largest
        cases largest
      · exact none record member (is.trans largest)
    refine ⟨noWrap, fun record member => ?_⟩
    have grows := lt_succ_of_noWrap noWrap
    have below := (@le_maxSequenceNumber records 0).2 record member
    rw [UInt64.lt_iff_toNat_lt] at grows ⊢
    rw [UInt64.le_iff_toNat_le] at below
    omega

/-- A recovery that returned OK counts on from the records of the file. -/
theorem recover_next {engine : WalBackedStorage} {fs : FileSystem}
    (ok : (engine.recover fs).1.isOk = true) :
    ∃ records, readContent fs.content = .success records ∧
      (engine.recover fs).2.1.nextSequenceNumber = computeNextSequenceNumber records := by
  obtain ⟨inspected, absent | ⟨content, records, storage, present, read, replayed⟩⟩ :=
    recover_isOk ok
  · refine ⟨[], ?_, by rw [recover_absent inspected absent]; rfl⟩
    rw [FileSystem.content, absent]
    rfl
  · exact ⟨records, readContent_of_readRecordsFromFile read,
      by rw [recover_present inspected present read replayed]; rfl⟩

/-- **The next number after a recovery.**  It is above every number in the file, and a set
of a key to a value validates with it, if and only if no record of the file has the
largest 64-bit number. -/
theorem recover_next_iff (engine : WalBackedStorage) (fs : FileSystem)
    (ok : (engine.recover fs).1.isOk = true) :
    ∃ records, readContent fs.content = .success records ∧
      (((engine.recover fs).2.1.nextSequenceNumber ≠ 0 ∧
          (∀ record ∈ records,
            record.sequenceNumber < (engine.recover fs).2.1.nextSequenceNumber) ∧
          ∀ key value, key ≠ [] → value ≠ [] →
            (validateWalRecord (makeSetRecord (engine.recover fs).2.1.nextSequenceNumber key
              value)).isOk = true) ↔
        ∀ record ∈ records, record.sequenceNumber ≠ maxUInt64) := by
  obtain ⟨records, read, next⟩ := recover_next ok
  refine ⟨records, read, ?_⟩
  rw [next, ← computeNextSequenceNumber_iff]
  constructor
  · rintro ⟨notZero, above, -⟩
    exact ⟨notZero, above⟩
  · rintro ⟨notZero, above⟩
    exact ⟨notZero, above, fun key value named some =>
      (validate_makeSetRecord _ _ _).2 ⟨notZero, named, some⟩⟩

/-- A file with one record of the smallest number there is, and its next number. -/
theorem recover_next_iff_first :
    let fs := FileSystem.holding (some (bytes "AKVWAL1 1 set 6b 76\n"))
    ((WalBackedStorage.create .empty (bytes "wal") {}).recover fs).2.1.nextSequenceNumber ≠ 0 := by
  intro fs
  obtain ⟨records, read, holds⟩ :=
    recover_next_iff (WalBackedStorage.create .empty (bytes "wal") {}) fs (by decide)
  have one : readContent fs.content =
      .success [makeSetRecord 1 (bytes "k") (bytes "v")] := by decide
  rw [one] at read
  cases Except.ok.inj read
  exact (holds.2 (by decide)).1

/-- A file whose record has the largest number recovers to the number 0, with which no
set validates. -/
theorem recover_next_wraps :
    let fs := FileSystem.holding (some (bytes "AKVWAL1 18446744073709551615 set 6b 76\n"))
    let run := (WalBackedStorage.create .empty (bytes "wal") {}).recover fs
    run.1.isOk = true ∧ run.2.1.nextSequenceNumber = 0 ∧
      (validateWalRecord (makeSetRecord run.2.1.nextSequenceNumber (bytes "a")
        (bytes "b"))).isOk = false := by
  decide

/-! ## Recovering again -/

/-- A log replays over what it was replayed to, and changes nothing. -/
theorem replayRecords_restored {records : List WalRecord}
    (valid : ∀ record ∈ records, (validateWalRecord record).isOk = true)
    {storage : InMemoryStorage} (replayed : restored records = some storage) :
    replayRecords records storage = (.ok, storage) := by
  obtain ⟨log, rfl⟩ := exists_validRecords valid
  rw [restored, Journal.replay_map] at replayed
  obtain ⟨again, replays, same⟩ :=
    keyed_applyRecord.replay_again (fun key => InMemoryStorage.lookup_empty key) replayed
  have unchanged : again = storage := InMemoryStorage.ext_lookup (congrFun same)
  rw [unchanged] at replays
  exact replayRecords_ok_iff_replay.2 replays

/-- **A synced engine recovers to what it is.** -/
theorem recover_again {node : Node} (synced : Synced node) {outcomes : Outcomes}
    (clean : outcomes.NoFailure) :
    node.engine.recover (node.facing outcomes).fs =
      (.ok, node.engine, (node.facing outcomes).fs) := by
  obtain ⟨content, present⟩ := Option.isSome_iff_exists.1 synced.present
  have there : (node.facing outcomes).fs.file = some content := present
  have answers : (node.facing outcomes).fs.pending.NoFailure := clean
  have inspected : Inspected node.engine (node.facing outcomes).fs :=
    ⟨synced.named, synced.parent, clean.inspect⟩
  have stands := synced.stands
  rw [FileSystem.content, present] at stands
  obtain ⟨records, read, replayed, next⟩ := ledgerOf_eq_some.1 stands
  have readFile : readRecordsFromFile node.engine.filePath (node.facing outcomes).fs =
      .ok records :=
    (readRecordsFromFile_of_noFailure synced.named there answers).trans read
  have replays : replayRecords records node.engine.storage = (.ok, node.engine.storage) :=
    replayRecords_restored (valid_of_readContent read) replayed
  have counts : computeNextSequenceNumber records = node.engine.nextSequenceNumber := next.symm
  have opened : node.engine.writer.openFile (node.facing outcomes).fs =
      (.ok, node.engine.writer, (node.facing outcomes).fs) :=
    WalFileWriter.openFile_isOpen (usable synced.toReady outcomes) synced.isOpen
  rw [recover_present inspected there readFile replays, counts, WalBackedStorage.openWriter]
  simp only [opened]

/-- **Recovery is idempotent.**  From a file that is absent, empty or ends with a line feed,
and behind any calls with nothing failing, a further recovery of the same engine returns OK
and changes neither map nor counter. -/
theorem recovery_idempotent {filePath : Bytes} {options : WalBackedStorageOptions}
    {fs : FileSystem} {requests : List (Outcomes × Call)} {outcomes : Outcomes}
    (terminated : Terminated lineFeed fs.content)
    (ok : (launch filePath options fs).1.isOk = true)
    (clean : ∀ request ∈ requests, request.1.NoFailure) (last : outcomes.NoFailure) :
    let node := Machine.after step (launch filePath options fs).2 requests
    let again := node.engine.recover (node.facing outcomes).fs
    again.1 = .ok ∧ again.2.1.storage = node.engine.storage ∧
      again.2.1.nextSequenceNumber = node.engine.nextSequenceNumber := by
  have start := synced_launch terminated ok
  have synced := (Machine.run_simulation step (R := fun n l => Synced n ∧ n.ledger = l)
    (fun _ _ _ => step_simulates) ⟨start, rfl⟩ clean).2.1
  intro node again
  have same : again = (.ok, node.engine, (node.facing outcomes).fs) := recover_again synced last
  rw [same]
  exact ⟨rfl, rfl, rfl⟩

/-- A set, a remove of it, and a recovery of the same engine. -/
theorem recovery_idempotent_set_remove :
    let node := Machine.after step (launch (bytes "wal") {} (.holding none)).2
      [({}, .set (bytes "k") (bytes "v")), ({}, .remove (bytes "k"))]
    (node.engine.recover (node.facing {}).fs).1 = .ok :=
  (@recovery_idempotent (bytes "wal") {} (.holding none)
    [({}, .set (bytes "k") (bytes "v")), ({}, .remove (bytes "k"))] {} (by decide) (by decide)
    (by simp [Outcomes.noFailure_default]) Outcomes.noFailure_default).1

/-! ## Recoveries that fail -/

/-- **What a failed recovery leaves behind.**  Nothing has changed when it failed before the
replay; a replay that stopped at a del of an absent key leaves the records before it, and
the counter; a writer that could not be opened leaves the whole log and its counter. -/
theorem recover_failed (engine : WalBackedStorage) (fs : FileSystem)
    (failed : (engine.recover fs).1.isOk = false) :
    let after := (engine.recover fs).2.1.ledger
    (¬ Inspected engine fs ∧ after = engine.ledger) ∨
    (Inspected engine fs ∧ fs.file.isSome ∧
      (readRecordsFromFile engine.filePath fs).isOk = false ∧ after = engine.ledger) ∨
    (∃ (before : List ValidRecord) (failing : ValidRecord) (rest : List ValidRecord)
      (storage : InMemoryStorage),
      readRecordsFromFile engine.filePath fs =
        .ok ((before ++ failing :: rest).map Subtype.val) ∧
      replayRecords (before.map Subtype.val) engine.storage = (.ok, storage) ∧
      failing.val.type = .del ∧ storage.lookup failing.val.key = none ∧
      after = { storage := storage, next := engine.nextSequenceNumber }) ∨
    (∃ (records : List WalRecord) (storage : InMemoryStorage),
      readRecordsFromFile engine.filePath fs = .ok records ∧
      replayRecords records engine.storage = (.ok, storage) ∧
      (engine.writer.openFile fs).1.isOk = false ∧
      after = { storage := storage, next := computeNextSequenceNumber records }) ∨
    (Inspected engine fs ∧ fs.file = none ∧ (engine.writer.openFile fs).1.isOk = false ∧
      after = { storage := engine.storage, next := 1 }) := by
  by_cases inspected : Inspected engine fs
  case neg =>
    obtain ⟨status, -, eq⟩ := recover_refused inspected
    exact Or.inl ⟨inspected, by rw [eq]⟩
  right
  cases present : fs.file with
  | none =>
      rw [recover_absent inspected present] at failed ⊢
      exact Or.inr (Or.inr (Or.inr ⟨inspected, rfl, failed, rfl⟩))
  | some content =>
      cases read : readRecordsFromFile engine.filePath fs with
      | error failure =>
          rw [recover_unread inspected present read]
          exact Or.inl ⟨inspected, rfl, rfl, rfl⟩
      | ok records =>
          obtain ⟨log, rfl⟩ := exists_validRecords
            (valid_of_readContent (readContent_of_readRecordsFromFile read))
          cases replays : (replayRecords (log.map Subtype.val) engine.storage).1.isOk with
          | false =>
              obtain ⟨before, failing, rest, t, rfl, applied, del, absent, stopped⟩ :=
                replayRecords_stops replays
              rw [recover_stopped inspected present read replays, stopped]
              exact Or.inr (Or.inl ⟨before, failing, rest, t, rfl, applied, del, absent, rfl⟩)
          | true =>
              obtain ⟨t, applied⟩ := exists_replay_of_isOk replays
              rw [recover_present inspected present read applied] at failed ⊢
              exact Or.inr (Or.inr (Or.inl ⟨_, t, rfl, applied, failed, rfl⟩))

/-- A log that deletes a key it never set: the recovery fails, and the record before it is
in the storage. -/
theorem recover_failed_set_del :
    let fs := FileSystem.holding (some (bytes "AKVWAL1 1 set 6b 76\nAKVWAL1 2 del 61 -\n"))
    let engine := WalBackedStorage.create .empty (bytes "wal") {}
    (engine.recover fs).1.isOk = false ∧
      (engine.recover fs).2.1.storage.lookup (bytes "k") = some (bytes "v") ∧
      engine.storage.lookup (bytes "k") = none := by
  decide

/-- Over a storage that holds another key, the set stays and the counter does not move. -/
theorem recover_failed_replay :
    let fs := FileSystem.holding (some (bytes "AKVWAL1 5 set 6b 76\nAKVWAL1 6 del 61 -\n"))
    let storage := InMemoryStorage.empty.insert (bytes "l") (bytes "w")
    let engine := WalBackedStorage.create storage (bytes "wal") {}
    (engine.recover fs).2.1.ledger =
      { storage := storage.insert (bytes "k") (bytes "v"), next := engine.nextSequenceNumber } := by
  intro fs storage engine
  have log : readRecordsFromFile engine.filePath fs =
      .ok [makeSetRecord 5 (bytes "k") (bytes "v"), makeDelRecord 6 (bytes "a")] := by decide
  rcases recover_failed engine fs (by decide) with
    ⟨refused, -⟩ | ⟨-, -, unread, -⟩ | ⟨before, failing, rest, stopped, read, applied, del, -, after⟩ |
    ⟨records, _, read, applied, -⟩ | ⟨-, absent, -⟩
  · exact absurd ⟨by decide, by decide, by decide⟩ refused
  · rw [log] at unread
    cases unread
  · have same := Except.ok.inj (log.symm.trans read)
    match before with
    | [] =>
        have first := (List.cons.inj same).1
        rw [← first] at del
        cases del
    | [first] =>
        have first := (List.cons.inj same).1
        rw [List.map_singleton, ← first] at applied
        have inserted : storage.insert (bytes "k") (bytes "v") = stopped := congrArg Prod.snd applied
        rw [after, inserted]
    | _ :: _ :: more => simp at same
  · cases Except.ok.inj (log.symm.trans read)
    have refused : (replayRecords [makeSetRecord 5 (bytes "k") (bytes "v"),
        makeDelRecord 6 (bytes "a")] engine.storage).1.isOk = false := by decide
    rw [applied] at refused
    cases refused
  · cases absent

end Node

end AsterKV.Wal
