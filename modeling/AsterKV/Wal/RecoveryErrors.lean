/-
# AsterKV.Wal.RecoveryErrors -- what a failed recovery says

The whole file is read before anything is replayed.  So the error is about the first line
that is no record, wherever it stands, and only in a file of records is it about the first
del whose key is absent (`recovery_error_iff`).
-/
import AsterKV.Wal.Recovery

namespace AsterKV.Wal

open AsterKV.Core AsterKV.Storage Theory

set_option autoImplicit false

/-! ## Lines -/

/-- What is reported about a line that is no record. -/
def LineError (lineNumber : Nat) (line : Bytes) (status : Status) : Prop :=
  (line = [] ∧ status = emptyLineStatus) ∨
    (line ≠ [] ∧ ∃ failure, deserialize line = .error failure ∧
      status = makeLineParseError lineNumber failure.val)

/-- The lines up to the first one that is no record, and what is reported about it. -/
def FirstBadLine (linesBefore : Nat) (fileLines : List Bytes) (status : Status) : Prop :=
  ∃ front line back records, fileLines = front ++ line :: back ∧
    List.Forall₂ LineHolds front records ∧ LineError (linesBefore + front.length + 1) line status

theorem firstBadLine_nil {n : Nat} {status : Status} : ¬ FirstBadLine n [] status := by
  rintro ⟨front, line, back, -, split, -⟩
  simp at split

/-- The first line is bad, or it is a record and a later one is. -/
theorem firstBadLine_cons {n : Nat} {line : Bytes} {more : List Bytes} {status : Status} :
    FirstBadLine n (line :: more) status ↔
      LineError (n + 1) line status ∨
        (∃ record, LineHolds line record) ∧ FirstBadLine (n + 1) more status := by
  constructor
  · rintro ⟨front, bad, back, records, split, held, error⟩
    cases front with
    | nil =>
        obtain ⟨rfl, rfl⟩ := List.cons.inj split
        exact Or.inl error
    | cons first front =>
        obtain ⟨rfl, rfl⟩ := List.cons.inj split
        obtain ⟨record, later, holds, rest, rfl⟩ := List.forall₂_cons_left_iff.1 held
        refine Or.inr ⟨⟨record, holds⟩, front, bad, back, later, rfl, rest, ?_⟩
        have number : n + 1 + front.length + 1 = n + (line :: front).length + 1 := by
          rw [List.length_cons]
          omega
        rw [number]
        exact error
  · rintro (error | ⟨⟨record, holds⟩, front, bad, back, records, rfl, held, error⟩)
    · exact ⟨[], line, more, [], rfl, .nil, error⟩
    · refine ⟨line :: front, bad, back, record :: records, rfl, .cons holds held, ?_⟩
      have number : n + (line :: front).length + 1 = n + 1 + front.length + 1 := by
        rw [List.length_cons]
        omega
      rw [number]
      exact error

/-- **The reader reports the first line that is no record.** -/
theorem readRecordLines_error_iff {n : Nat} {fileLines : List Bytes} {failure : Failure} :
    readRecordLines n fileLines = .error failure ↔ FirstBadLine n fileLines failure.val := by
  induction fileLines generalizing n with
  | nil =>
      constructor
      · intro read
        cases read
      · exact fun bad => absurd bad firstBadLine_nil
  | cons line more ih =>
      have failed : ∀ {status : Status}, status.isOk = false →
          (Result.failure status = (.error failure : Result (List WalRecord)) ↔
            failure.val = status) := by
        intro status notOk
        rw [Result.failure]
        constructor
        · intro same
          rw [← Except.error.inj same, Result.normalizeFailureStatus_val notOk]
        · intro same
          rw [Subtype.ext (same.trans (Result.normalizeFailureStatus_val notOk).symm)]
      rw [firstBadLine_cons, readRecordLines]
      by_cases empty : line = []
      · have noRecord : ¬ ∃ record, LineHolds line record := by
          rintro ⟨record, filled, -⟩
          exact filled empty
        rw [if_pos (by simp [empty]), failed rfl, or_iff_left fun later => noRecord later.1]
        simp [LineError, empty]
      · rw [if_neg (by simpa using empty)]
        cases decoded : deserialize line with
        | error refused =>
            have noRecord : ¬ ∃ record, LineHolds line record := by
              rintro ⟨record, -, held⟩
              rw [decoded] at held
              cases held
            have reported := @failed (makeLineParseError (n + 1) refused.val) rfl
            rw [or_iff_left fun later => noRecord later.1]
            simp only [reported]
            simp [LineError, empty, decoded]
        | ok record =>
            have isRecord : ∃ record, LineHolds line record := ⟨record, empty, decoded⟩
            have noError : ¬ LineError (n + 1) line failure.val := by
              rintro (⟨is, -⟩ | ⟨-, refused, held, -⟩)
              · exact empty is
              · rw [decoded] at held
                cases held
            simp only [noError, isRecord, true_and, false_or]
            rw [← ih]
            cases readRecordLines (n + 1) more with
            | error refused => exact Iff.rfl
            | ok records =>
                constructor
                · intro same
                  cases same
                · intro same
                  cases same

theorem readContent_error_iff {content : Bytes} {failure : Failure} :
    readContent content = .error failure ↔
      FirstBadLine 0 (Lines.lines lineFeed content) failure.val :=
  readRecordLines_error_iff

/-! ## Recoveries -/

namespace Node

/-- The file is a list of records, and the first that does not apply is this del. -/
def FirstRefused (content : Bytes) (status : Status) : Prop :=
  ∃ (before : List ValidRecord) (failing : ValidRecord) (rest : List ValidRecord)
    (storage : InMemoryStorage),
    readContent content = .ok ((before ++ failing :: rest).map Subtype.val) ∧
    replayRecords (before.map Subtype.val) InMemoryStorage.empty = (.ok, storage) ∧
    failing.val.type = .del ∧ storage.lookup failing.val.key = none ∧
    status = InMemoryStorage.keyNotFoundStatus

/-- **What a recovery reports.**  With nothing failing, a new engine's recovery returns an
error exactly when the file has a line that is no record, and the error is about the first
one; or, in a file of records, when a del names a key that is absent by then. -/
theorem recovery_error_iff {filePath : Bytes} {options : WalBackedStorageOptions} {fs : FileSystem}
    (named : filePath ≠ []) (parent : (validateParentDirectory fs.parent).isOk = true)
    (clean : fs.pending.NoFailure) {content : Bytes} (present : fs.file = some content)
    {status : Status} (bad : status.isOk = false) :
    (launch filePath options fs).1 = status ↔
      FirstBadLine 0 (Lines.lines lineFeed content) status ∨ FirstRefused content status := by
  have inspected : Inspected (WalBackedStorage.create .empty filePath options) fs :=
    ⟨named, parent, clean.inspect⟩
  have read := readRecordsFromFile_of_noFailure named present clean
  have badLine : FirstBadLine 0 (Lines.lines lineFeed content) status ↔
      readContent content = .error ⟨status, bad⟩ :=
    (@readContent_error_iff content ⟨status, bad⟩).symm
  rw [badLine]
  cases found : readContent content with
  | error failure =>
      rw [found] at read
      have reported : (launch filePath options fs).1 = failure.val := by
        rw [launch, recover_unread inspected present read]
      have noRecords : ¬ FirstRefused content status := by
        rintro ⟨before, failing, rest, storage, records, -⟩
        rw [found] at records
        cases records
      rw [reported, or_iff_left noRecords]
      constructor
      · rintro rfl
        rfl
      · intro same
        rw [Except.error.inj same]
  | ok records =>
      rw [found] at read
      have noBadLine : ¬ (.ok records : Result (List WalRecord)) = .error ⟨status, bad⟩ :=
        fun same => by cases same
      rw [or_iff_right noBadLine]
      obtain ⟨log, rfl⟩ := exists_validRecords (valid_of_readContent found)
      cases replays : (replayRecords (log.map Subtype.val) InMemoryStorage.empty).1.isOk with
      | false =>
          obtain ⟨before, failing, rest, t, rfl, applied, del, absent, stopped⟩ :=
            replayRecords_stops replays
          have reported : (launch filePath options fs).1 = InMemoryStorage.keyNotFoundStatus := by
            rw [launch, recover_stopped inspected present read replays]
            exact congrArg Prod.fst stopped
          rw [reported]
          constructor
          · rintro rfl
            exact ⟨before, failing, rest, t, found, applied, del, absent, rfl⟩
          · rintro ⟨-, -, -, -, -, -, -, -, same⟩
            exact same.symm
      | true =>
          obtain ⟨t, applied⟩ := exists_replay_of_isOk replays
          have stands : (ledgerOf fs.content).isSome := by
            rw [FileSystem.content, present]
            show (ledgerOf content).isSome
            rw [ledgerOf_of_read found]
            have restores : restored (log.map Subtype.val) = some t := replayRecords_ok_iff.1 applied
            rw [restores]
            rfl
          have ok := @launch_isOk filePath options fs named parent clean stands
          constructor
          · intro same
            rw [same, bad] at ok
            cases ok
          · rintro ⟨before, failing, rest, storage, records, first, del, absent, -⟩
            rw [found] at records
            have same := Except.ok.inj records
            rw [same, List.map_append, List.map_cons,
              replayRecords_append_refused first del absent] at replays
            cases replays

/-- The second line lost its value field; the third deletes a key that was never set. -/
theorem recovery_error_second_line :
    FirstBadLine 0 (Lines.lines lineFeed
        (bytes "AKVWAL1 1 set 6b 76\nAKVWAL1 2 set 6b\nAKVWAL1 3 del 61 -\n"))
      (makeLineParseError 2
        (.invalidArgument (bytes "serialized WAL record must contain 5 fields"))) ∨
    FirstRefused (bytes "AKVWAL1 1 set 6b 76\nAKVWAL1 2 set 6b\nAKVWAL1 3 del 61 -\n")
      (makeLineParseError 2
        (.invalidArgument (bytes "serialized WAL record must contain 5 fields"))) :=
  (@recovery_error_iff (bytes "wal") {} (.holding (some
    (bytes "AKVWAL1 1 set 6b 76\nAKVWAL1 2 set 6b\nAKVWAL1 3 del 61 -\n"))) (by decide) rfl
    Outcomes.noFailure_default _ rfl _ rfl).1 (by decide)

end Node

end AsterKV.Wal
