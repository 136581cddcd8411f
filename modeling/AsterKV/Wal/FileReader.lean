/-
# AsterKV.Wal.FileReader -- the log file as a list of records

The reader takes the file line by line and stops at the first line that is empty
or does not decode.  An end of file without a line feed is a line like any other.
What it reads is a function of the file's bytes (`readContent`), and reading
composes with appending as soon as the first part is terminated.
-/
import AsterKV.Theory.Lines
import AsterKV.Wal.FileSystem
import AsterKV.Wal.RecordCodec

namespace AsterKV.Wal

open AsterKV.Core Theory.Lines

set_option autoImplicit false

def makeLineParseError (lineNumber : Nat) (status : Status) : Status :=
  .invalidArgument (bytes "failed to parse WAL record at line " ++ toDecimal lineNumber ++
    bytes ": " ++ status.message)

def emptyLineStatus : Status := .invalidArgument (bytes "WAL file contains empty record line")

/-- The `getline` loop, with the number of lines read so far. -/
def readRecordLines : Nat → List Bytes → Result (List WalRecord)
  | _, [] => .success []
  | lineNumber, line :: more =>
      if line.isEmpty then .failure emptyLineStatus
      else match deserialize line with
        | .error failure => .failure (makeLineParseError (lineNumber + 1) failure.val)
        | .ok record => do
            let records ← readRecordLines (lineNumber + 1) more
            return record :: records

/-- What the loop reads from a stream that delivers these bytes. -/
def readContent (content : Bytes) : Result (List WalRecord) :=
  readRecordLines 0 (lines lineFeed content)

def readRecordsFromFile (path : Bytes) (fs : FileSystem) : Result (List WalRecord) :=
  if path.isEmpty then .failure (.invalidArgument (bytes "WAL file path must not be empty"))
  else match fs.file with
    | none => .failure (.unavailable (bytes "failed to open WAL file for read"))
    | some content =>
        if fs.pending.readOpenFails then
          .failure (.unavailable (bytes "failed to open WAL file for read"))
        else match fs.pending.readStops with
          | none => readContent content
          | some stop => do
              -- the line the stream broke off in is not handed to the loop body
              let _ ← readContent (body lineFeed (content.take stop))
              .failure (.invalidArgument (bytes "failed to read WAL file"))

/-! ## What a list of lines is read as -/

/-- A line that decodes to this record. -/
def LineHolds (line : Bytes) (record : WalRecord) : Prop :=
  line ≠ [] ∧ deserialize line = .success record

theorem readRecordLines_cons_success {n : Nat} {line : Bytes} {more : List Bytes}
    {records : List WalRecord} :
    readRecordLines n (line :: more) = .success records ↔
      ∃ record rest, LineHolds line record ∧ readRecordLines (n + 1) more = .success rest ∧
        records = record :: rest := by
  rw [readRecordLines]
  unfold LineHolds
  by_cases empty : line = []
  · simp only [empty, List.isEmpty_nil, if_true, ne_eq, not_true_eq_false, false_and,
      exists_false, iff_false]
    intro h
    cases h
  · simp only [List.isEmpty_iff, empty, if_false, ne_eq, not_false_eq_true, true_and]
    cases decoded : deserialize line with
    | error failure =>
        constructor
        · intro h
          cases h
        · rintro ⟨record, rest, held, -⟩
          cases held
    | ok record =>
        cases remaining : readRecordLines (n + 1) more with
        | error failure =>
            constructor
            · intro h
              cases h
            · rintro ⟨_, rest, -, held, -⟩
              cases held
        | ok rest =>
            constructor
            · intro h
              exact ⟨record, rest, rfl, rfl, (Except.ok.inj h).symm⟩
            · rintro ⟨record', rest', held, heldRest, rfl⟩
              cases Except.ok.inj held
              cases Except.ok.inj heldRest
              rfl

/-- **Reading succeeds exactly when every line holds a record, in order.** -/
theorem readRecordLines_success_iff {n : Nat} {fileLines : List Bytes} {records : List WalRecord} :
    readRecordLines n fileLines = .success records ↔
      List.Forall₂ LineHolds fileLines records := by
  induction fileLines generalizing n records with
  | nil =>
      rw [List.forall₂_nil_left_iff]
      exact ⟨fun h => (Except.ok.inj h).symm, fun h => h ▸ rfl⟩
  | cons line more ih =>
      rw [readRecordLines_cons_success, List.forall₂_cons_left_iff]
      constructor
      · rintro ⟨record, rest, held, remaining, rfl⟩
        exact ⟨record, rest, held, ih.1 remaining, rfl⟩
      · rintro ⟨record, rest, held, remaining, rfl⟩
        exact ⟨record, rest, held, ih.2 remaining, rfl⟩

theorem readContent_success_iff {content : Bytes} {records : List WalRecord} :
    readContent content = .success records ↔
      List.Forall₂ LineHolds (lines lineFeed content) records :=
  readRecordLines_success_iff

/-- Every record that was read passes validation. -/
theorem valid_of_readContent {content : Bytes} {records : List WalRecord}
    (read : readContent content = .success records) :
    ∀ record ∈ records, (validateWalRecord record).isOk = true := by
  have held := readContent_success_iff.1 read
  generalize lines lineFeed content = fileLines at held
  clear read
  induction held with
  | nil => simp
  | cons first rest ih => exact List.forall_mem_cons.2 ⟨deserialize_valid first.2, ih⟩

/-! ## Reading and appending -/

/-- Reading a terminated file with more after it reads both parts. -/
theorem readContent_append {front : Bytes} (terminated : Terminated lineFeed front) (back : Bytes)
    {records : List WalRecord} :
    readContent (front ++ back) = .success records ↔
      ∃ first second, readContent front = .success first ∧ readContent back = .success second ∧
        records = first ++ second := by
  simp only [readContent_success_iff, lines_append lineFeed terminated]
  constructor
  · intro h
    have flipped := List.Forall₂.flip h
    exact ⟨_, _, (List.forall₂_take_append _ _ _ flipped).flip,
      (List.forall₂_drop_append _ _ _ flipped).flip, (List.take_append_drop _ _).symm⟩
  · rintro ⟨first, second, hFirst, hSecond, rfl⟩
    exact List.rel_append hFirst hSecond

theorem terminated_recordLine (record : WalRecord) : Terminated lineFeed (recordLine record) := by
  simp [recordLine]

theorem lines_recordLine (record : WalRecord) :
    lines lineFeed (recordLine record) = [recordText record] := by
  rw [recordLine, lines_line lineFeed (lineFeed_notMem_recordText record), lines_nil]

/-- A record's line continues the last line of the file, which it ends. -/
theorem lines_append_recordLine (content : Bytes) (record : WalRecord) :
    lines lineFeed (content ++ recordLine record) =
      lines lineFeed (body lineFeed content) ++ [tail lineFeed content ++ recordText record] := by
  have clean : lineFeed ∉ tail lineFeed content ++ recordText record := by
    rw [List.mem_append, not_or]
    exact ⟨sep_notMem_tail lineFeed content, lineFeed_notMem_recordText record⟩
  have regroup : content ++ recordLine record =
      body lineFeed content ++ (tail lineFeed content ++ recordText record ++ [lineFeed]) := by
    conv_lhs => rw [← body_append_tail lineFeed content]
    simp [recordLine]
  rw [regroup, lines_append lineFeed (body_terminated lineFeed content), lines_line lineFeed clean,
    lines_nil]

theorem terminated_append_recordLine (content : Bytes) (record : WalRecord) :
    Terminated lineFeed (content ++ recordLine record) := by
  rw [recordLine, ← List.append_assoc]
  exact (terminated_snoc lineFeed _ _).2 rfl

/-- A serialized record is read back. -/
theorem readContent_recordLine (record : ValidRecord) :
    readContent (recordLine record.val) = .success [record.val] := by
  rw [readContent_success_iff, lines_recordLine]
  exact .cons ⟨recordText_ne_nil _, deserialize_recordText record⟩ .nil

/-- Appending one whole line to a terminated file appends its record. -/
theorem readContent_append_line {front : Bytes} (terminated : Terminated lineFeed front)
    {records : List WalRecord} (read : readContent front = .success records)
    (record : ValidRecord) :
    readContent (front ++ recordLine record.val) = .success (records ++ [record.val]) :=
  (readContent_append terminated _).2
    ⟨records, [record.val], read, readContent_recordLine record, rfl⟩

@[simp] theorem readContent_nil : readContent [] = .success [] := rfl

/-- The lines of a list of records, one after the other. -/
def logBytes (records : List WalRecord) : Bytes := (records.map recordLine).flatten

theorem terminated_logBytes (records : List WalRecord) :
    Terminated lineFeed (logBytes records) := by
  apply terminated_flatten
  intro piece member
  obtain ⟨record, -, rfl⟩ := List.mem_map.1 member
  exact terminated_recordLine record

/-- Lines of valid records are read back as the records. -/
theorem readContent_logBytes {records : List WalRecord}
    (valid : ∀ record ∈ records, (validateWalRecord record).isOk = true) :
    readContent (logBytes records) = .success records := by
  induction records with
  | nil => rfl
  | cons record rest ih =>
      have validRest := fun r member => valid r (List.mem_cons_of_mem _ member)
      exact (readContent_append (terminated_recordLine record) _).2
        ⟨[record], rest, readContent_recordLine ⟨record, valid record List.mem_cons_self⟩,
          ih validRest, rfl⟩

theorem readRecordLines_single {line : Bytes} (ne : line ≠ []) {records : List WalRecord} :
    List.Forall₂ LineHolds [line] records ↔
      ∃ record, deserialize line = .success record ∧ records = [record] := by
  constructor
  · intro h
    obtain ⟨record, rest, held, remaining, rfl⟩ := List.forall₂_cons_left_iff.1 h
    rw [List.forall₂_nil_left_iff.1 remaining]
    exact ⟨record, held.2, rfl⟩
  · rintro ⟨record, decoded, rfl⟩
    exact .cons ⟨ne, decoded⟩ .nil

/-- One terminated line. -/
theorem readContent_line {line : Bytes} (clean : lineFeed ∉ line) (ne : line ≠ [])
    {records : List WalRecord} :
    readContent (line ++ [lineFeed]) = .success records ↔
      ∃ record, deserialize line = .success record ∧ records = [record] := by
  rw [readContent_success_iff, lines_line lineFeed clean, lines_nil]
  exact readRecordLines_single ne

/-- An unterminated end is one more line. -/
theorem readContent_tail {tail : Bytes} (clean : lineFeed ∉ tail) (ne : tail ≠ [])
    {records : List WalRecord} :
    readContent tail = .success records ↔
      ∃ record, deserialize tail = .success record ∧ records = [record] := by
  rw [readContent_success_iff, lines_unterminated lineFeed clean ne]
  exact readRecordLines_single ne

/-- With an environment that does not fail, reading the file is reading its bytes. -/
theorem readRecordsFromFile_of_noFailure {path : Bytes} {fs : FileSystem} {content : Bytes}
    (named : path ≠ []) (present : fs.file = some content) (clean : fs.pending.NoFailure) :
    readRecordsFromFile path fs = readContent content := by
  simp [readRecordsFromFile, named, present, clean.readOpen, clean.read]

end AsterKV.Wal
