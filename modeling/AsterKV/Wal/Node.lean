/-
# AsterKV.Wal.Node -- an engine with its file, over calls and restarts

A `Node` is the engine with the file system under it.  A step is one call together
with what the kernel answers to the system calls it makes; a restart throws the
engine and its storage away and recovers new ones from the same file.  Two facts
carry everything said about runs: `step_cases`, all that one call can do, and
`restart_ok`, that a restart holds what the file's bytes stand for (`ledgerOf`).
-/
import AsterKV.Theory.Machine
import AsterKV.Wal.BackedStorage

namespace AsterKV.Wal

open AsterKV.Core AsterKV.Storage Theory Theory.Lines

set_option autoImplicit false

/-! ## What a log file stands for -/

/-- The replay of the file's records, with the number that comes next. -/
def ledgerOf (content : Bytes) : Option Ledger :=
  match readContent content with
  | .error _ => none
  | .ok records => (restored records).map fun storage =>
      { storage := storage, next := computeNextSequenceNumber records }

theorem ledgerOf_eq_some {content : Bytes} {ledger : Ledger} :
    ledgerOf content = some ledger ↔
      ∃ records, readContent content = .success records ∧
        restored records = some ledger.storage ∧
        ledger.next = computeNextSequenceNumber records := by
  unfold ledgerOf
  cases readContent content with
  | error failure =>
      constructor
      · intro h
        cases h
      · rintro ⟨records, h, -⟩
        cases h
  | ok records =>
      simp only [Option.map_eq_some_iff]
      constructor
      · rintro ⟨storage, replayed, rfl⟩
        exact ⟨records, rfl, replayed, rfl⟩
      · rintro ⟨records', same, replayed, next⟩
        cases Except.ok.inj same
        exact ⟨ledger.storage, replayed, by rw [← next]⟩

theorem ledgerOf_of_read {content : Bytes} {records : List WalRecord}
    (read : readContent content = .success records) :
    ledgerOf content = (restored records).map fun storage =>
      { storage := storage, next := computeNextSequenceNumber records } := by
  rw [ledgerOf, read]
  rfl

theorem ledgerOf_of_unread {content : Bytes} (unread : (readContent content).isOk = false) :
    ledgerOf content = none := by
  unfold ledgerOf
  cases read : readContent content with
  | error failure => rfl
  | ok records =>
      rw [read] at unread
      cases unread

/-- An empty file, like an absent one, stands for an empty map and the number 1. -/
@[simp] theorem ledgerOf_nil :
    ledgerOf [] = some { storage := .empty, next := 1 } := rfl

theorem maxSequenceNumber_snoc (largest : WalSequenceNumber) (records : List WalRecord)
    (record : WalRecord) :
    maxSequenceNumber largest (records ++ [record]) =
      if record.sequenceNumber > maxSequenceNumber largest records then record.sequenceNumber
      else maxSequenceNumber largest records := by
  induction records generalizing largest with
  | nil => rfl
  | cons first rest ih => exact ih _

/-- A counter that does not wrap grows. -/
theorem lt_succ_of_noWrap {number : WalSequenceNumber} (noWrap : number + 1 ≠ 0) :
    number < number + 1 := by
  rw [UInt64.lt_iff_toNat_lt, UInt64.toNat_add]
  rw [ne_eq, ← UInt64.toNat_inj, UInt64.toNat_add] at noWrap
  have := number.toNat_lt
  simp only [UInt64.toNat_ofNat] at noWrap ⊢
  omega

/-- A record with the next number moves the counter by one. -/
theorem computeNextSequenceNumber_snoc {records : List WalRecord} {record : ValidRecord}
    (number : record.val.sequenceNumber = computeNextSequenceNumber records) :
    computeNextSequenceNumber (records ++ [record.val]) =
      computeNextSequenceNumber records + 1 := by
  have noWrap : maxSequenceNumber 0 records + 1 ≠ 0 := by
    have := record.number_ne_zero
    rwa [number] at this
  have grows : maxSequenceNumber 0 records + 1 > maxSequenceNumber 0 records :=
    lt_succ_of_noWrap noWrap
  rw [computeNextSequenceNumber, maxSequenceNumber_snoc, number, computeNextSequenceNumber,
    if_pos grows]

/-- A last line, its line feed missing, adds the record it is read as. -/
theorem ledgerOf_line {front : Bytes} (terminated : Terminated lineFeed front)
    {records : List WalRecord} (read : readContent front = .success records) {line : Bytes}
    (clean : lineFeed ∉ line) (ne : line ≠ []) {ledger : Ledger} :
    ledgerOf (front ++ line) = some ledger ↔
      ∃ record, deserialize line = .success record ∧
        restored (records ++ [record]) = some ledger.storage ∧
        ledger.next = computeNextSequenceNumber (records ++ [record]) := by
  rw [ledgerOf_eq_some]
  constructor
  · rintro ⟨all, readAll, replayed, next⟩
    obtain ⟨first, second, readFirst, readSecond, rfl⟩ :=
      (readContent_append terminated line).1 readAll
    rw [read] at readFirst
    cases Except.ok.inj readFirst
    obtain ⟨record, decoded, rfl⟩ := (readContent_tail clean ne).1 readSecond
    exact ⟨record, decoded, replayed, next⟩
  · rintro ⟨record, decoded, replayed, next⟩
    exact ⟨records ++ [record], (readContent_append terminated line).2
      ⟨records, [record], read, (readContent_tail clean ne).2 ⟨record, decoded, rfl⟩, rfl⟩,
      replayed, next⟩

/-- **One whole line of the next number advances the ledger a file stands for.** -/
theorem ledgerOf_append_line {content : Bytes} (terminated : Terminated lineFeed content)
    {ledger : Ledger} (stands : ledgerOf content = some ledger) {record : ValidRecord}
    (number : record.val.sequenceNumber = ledger.next)
    (applicable : record.val.Applicable ledger.storage) :
    ledgerOf (content ++ recordLine record.val) = some (ledger.advance record.val) := by
  obtain ⟨records, read, replayed, next⟩ := ledgerOf_eq_some.1 stands
  rw [ledgerOf_eq_some]
  refine ⟨_, readContent_append_line terminated read record, ?_, ?_⟩
  · rw [restored_snoc replayed, if_pos applicable]
    rfl
  · rw [computeNextSequenceNumber_snoc (number.trans next), ← next]
    rfl

/-! ## Nodes -/

structure Node where
  engine : WalBackedStorage
  fs : FileSystem
  deriving DecidableEq

namespace Node

def ledger (node : Node) : Ledger := node.engine.ledger

instance : StorageEngine Node where
  set node key value :=
    let (status, engine, fs) := node.engine.set key value node.fs
    (status, ⟨engine, fs⟩)
  get node key := node.engine.get key
  remove node key :=
    let (status, engine, fs) := node.engine.remove key node.fs
    (status, ⟨engine, fs⟩)
  exists? node key := node.engine.exists? key

/-- A process starts: an empty storage, a fresh engine, and its recovery. -/
def launch (filePath : Bytes) (options : WalBackedStorageOptions) (fs : FileSystem) :
    Status × Node :=
  let (status, engine, fs) := (WalBackedStorage.create .empty filePath options).recover fs
  (status, ⟨engine, fs⟩)

/-- What the kernel is going to answer from here on. -/
def facing (node : Node) (outcomes : Outcomes) : Node :=
  { node with fs.pending := outcomes }

/-- One call, and what the kernel answers to it. -/
def step (node : Node) (request : Outcomes × Call) : Reply × Node :=
  StorageEngine.call (node.facing request.1) request.2

/-- A call of a mutation returns what the engine's method does. -/
theorem step_set {node : Node} {outcomes : Outcomes} {key value : Bytes} {status : Status}
    {engine : WalBackedStorage} {fs : FileSystem}
    (set : node.engine.set key value (node.facing outcomes).fs = (status, engine, fs)) :
    node.step (outcomes, .set key value) = (.status status, ⟨engine, fs⟩) := by
  have same : (node.facing outcomes).engine.set key value (node.facing outcomes).fs =
      (status, engine, fs) := set
  simp only [step, StorageEngine.call, StorageEngine.set, same]

theorem step_remove {node : Node} {outcomes : Outcomes} {key : Bytes} {status : Status}
    {engine : WalBackedStorage} {fs : FileSystem}
    (remove : node.engine.remove key (node.facing outcomes).fs = (status, engine, fs)) :
    node.step (outcomes, .remove key) = (.status status, ⟨engine, fs⟩) := by
  have same : (node.facing outcomes).engine.remove key (node.facing outcomes).fs =
      (status, engine, fs) := remove
  simp only [step, StorageEngine.call, StorageEngine.remove, same]

/-- The process ends, with its destructors when the end is orderly, and another
one starts on the same file. -/
def restart (node : Node) (orderly : Bool) (outcomes : Outcomes) : Status × Node :=
  let fs := (node.facing outcomes).fs
  launch node.engine.filePath node.engine.options
    (if orderly then node.engine.writer.destroy fs else fs)

/-- An engine that recovery left ready for appends. -/
structure Ready (node : Node) : Prop where
  named : node.engine.filePath ≠ []
  writerPath : node.engine.writer.filePath = node.engine.filePath
  notClosed : node.engine.writer.isClosed = false
  isOpen : node.engine.writer.isOpen = true
  present : node.fs.file.isSome
  parent : (validateParentDirectory node.fs.parent).isOk = true

/-- The file stands for what the engine holds, and ends with a whole line. -/
structure Synced (node : Node) : Prop extends Ready node where
  terminated : Terminated lineFeed node.fs.content
  stands : ledgerOf node.fs.content = some node.ledger

/-! ## Recovery -/

/-- What a start leads to when its recovery returned OK. -/
structure Launched (filePath : Bytes) (options : WalBackedStorageOptions) (fs : FileSystem)
    (node : Node) : Prop extends Ready node where
  filePath_eq : node.engine.filePath = filePath
  options_eq : node.engine.options = options
  content : node.fs.content = fs.content
  stands : ledgerOf fs.content = some node.ledger

/-- A fresh writer is opened: the engine is ready, and the file as it was. -/
theorem openWriter_ready {engine : WalBackedStorage} {fs : FileSystem}
    (named : engine.filePath ≠ [])
    (writer : engine.writer = WalFileWriter.create engine.filePath engine.options.writerOptions)
    (parent : (validateParentDirectory fs.parent).isOk = true) :
    (engine.openWriter fs).1.isOk = openSucceeds fs.pending.opens ∧
      ((engine.openWriter fs).1.isOk = true → (engine.openWriter fs).1 = .ok ∧
        Ready ⟨(engine.openWriter fs).2.1, (engine.openWriter fs).2.2⟩ ∧
        (engine.openWriter fs).2.2.content = fs.content) := by
  have usable : engine.writer.Usable fs := by
    rw [writer]
    exact ⟨named, rfl, fun h => by cases h⟩
  have opened := WalFileWriter.openFile_spec usable
  have closed : engine.writer.isOpen = false := by
    rw [writer]
    rfl
  simp only [WalBackedStorage.openWriter]
  obtain ⟨⟨status, next, after⟩, openEq⟩ : ∃ result, engine.writer.openFile fs = result := ⟨_, rfl⟩
  simp only [openEq] at opened ⊢
  have answer : engine.writer.canOpen fs.pending = openSucceeds fs.pending.opens := by
    rw [WalFileWriter.canOpen, closed, Bool.false_or]
  refine ⟨opened.isOk.trans answer, fun ok => ?_⟩
  have isOpen : next.isOpen = true := opened.isOpen.trans (opened.isOk.symm.trans ok)
  refine ⟨?_, ?_, opened.content⟩
  · rcases opened.system with rfl | code
    · rfl
    · simp [Status.isOk, code] at ok
  · exact { named := named
            writerPath := opened.filePath.trans (by rw [writer]; rfl)
            notClosed := opened.notClosed
            isOpen := isOpen
            present := opened.present isOpen
            parent := opened.parent.symm ▸ parent }

/-- Opening the writer is the last thing a recovery does. -/
theorem openWriter_launched {engine : WalBackedStorage} {fs : FileSystem}
    (named : engine.filePath ≠ [])
    (writer : engine.writer = WalFileWriter.create engine.filePath engine.options.writerOptions)
    (parent : (validateParentDirectory fs.parent).isOk = true)
    (stands : ledgerOf fs.content = some engine.ledger) :
    (engine.openWriter fs).1.isOk = openSucceeds fs.pending.opens ∧
      ((engine.openWriter fs).1.isOk = true → (engine.openWriter fs).1 = .ok ∧
        Launched engine.filePath engine.options fs
          ⟨(engine.openWriter fs).2.1, (engine.openWriter fs).2.2⟩) := by
  obtain ⟨answer, opened⟩ := openWriter_ready named writer parent
  refine ⟨answer, fun ok => ?_⟩
  obtain ⟨status, ready, content⟩ := opened ok
  exact ⟨status, { ready with
    filePath_eq := rfl
    options_eq := rfl
    content := content
    stands := stands }⟩

/-- Records that were read are the records of the file's bytes. -/
theorem readContent_of_readRecordsFromFile {path : Bytes} {fs : FileSystem}
    {records : List WalRecord} (read : readRecordsFromFile path fs = .ok records) :
    readContent fs.content = .success records := by
  unfold readRecordsFromFile at read
  split at read
  · cases read
  · split at read
    · cases read
    · next content present =>
        split at read
        · cases read
        · split at read
          · rw [FileSystem.content, present]
            exact read
          · obtain ⟨_, -, impossible⟩ := Result.bind_eq_success read
            cases impossible

/-- The tests a recovery makes before it looks into the file. -/
structure Inspected (engine : WalBackedStorage) (fs : FileSystem) : Prop where
  named : engine.filePath ≠ []
  parent : (validateParentDirectory fs.parent).isOk = true
  inspect : fs.pending.inspectFails = false

theorem Inspected.path_ok {engine : WalBackedStorage} {fs : FileSystem}
    (inspected : Inspected engine fs) : (engine.validateWalFilepathForRecovery fs).isOk = true := by
  simpa [WalBackedStorage.validateWalFilepathForRecovery, inspected.named] using inspected.parent

theorem recover_absent {engine : WalBackedStorage} {fs : FileSystem}
    (inspected : Inspected engine fs) (absent : fs.file = none) :
    engine.recover fs = { engine with nextSequenceNumber := 1 }.openWriter fs := by
  simp [WalBackedStorage.recover, inspected.path_ok, inspected.inspect, absent]

theorem recover_present {engine : WalBackedStorage} {fs : FileSystem}
    (inspected : Inspected engine fs) {content : Bytes} (present : fs.file = some content)
    {records : List WalRecord} (read : readRecordsFromFile engine.filePath fs = .ok records)
    {storage : InMemoryStorage} (replayed : replayRecords records engine.storage = (.ok, storage)) :
    engine.recover fs =
      { engine with
          storage := storage
          nextSequenceNumber := computeNextSequenceNumber records }.openWriter fs := by
  simp [WalBackedStorage.recover, inspected.path_ok, inspected.inspect, present, read, replayed]

/-- A recovery that fails one of its tests returns what failed, and does nothing. -/
theorem recover_refused {engine : WalBackedStorage} {fs : FileSystem}
    (refused : ¬ Inspected engine fs) :
    ∃ status, status.isOk = false ∧ engine.recover fs = (status, engine, fs) := by
  unfold WalBackedStorage.recover
  by_cases accepted : (engine.validateWalFilepathForRecovery fs).isOk = true
  case neg =>
    have failed : (engine.validateWalFilepathForRecovery fs).isOk = false := by simpa using accepted
    exact ⟨_, failed, by simp [failed]⟩
  cases inspect : fs.pending.inspectFails with
  | true =>
      refine ⟨.unavailable (bytes "failed to inspect WAL file"), rfl, ?_⟩
      simp [accepted]
  | false =>
      unfold WalBackedStorage.validateWalFilepathForRecovery at accepted
      split at accepted
      · cases accepted
      · next nonempty => exact absurd ⟨by simpa using nonempty, accepted, inspect⟩ refused

theorem recover_unread {engine : WalBackedStorage} {fs : FileSystem}
    (inspected : Inspected engine fs) {content : Bytes} (present : fs.file = some content)
    {failure : Failure} (unread : readRecordsFromFile engine.filePath fs = .error failure) :
    engine.recover fs = (failure.val, engine, fs) := by
  simp [WalBackedStorage.recover, inspected.path_ok, inspected.inspect, present, unread]

/-- A replay that stops leaves what it did, and does not touch the counter. -/
theorem recover_stopped {engine : WalBackedStorage} {fs : FileSystem}
    (inspected : Inspected engine fs) {content : Bytes} (present : fs.file = some content)
    {records : List WalRecord} (read : readRecordsFromFile engine.filePath fs = .ok records)
    (stopped : (replayRecords records engine.storage).1.isOk = false) :
    engine.recover fs = ((replayRecords records engine.storage).1,
      { engine with storage := (replayRecords records engine.storage).2 }, fs) := by
  simp [WalBackedStorage.recover, inspected.path_ok, inspected.inspect, present, read, stopped]

/-- A recovery that returns OK took one of these two ways. -/
theorem recover_isOk {engine : WalBackedStorage} {fs : FileSystem}
    (ok : (engine.recover fs).1.isOk = true) :
    Inspected engine fs ∧ (fs.file = none ∨ ∃ content records storage, fs.file = some content ∧
      readRecordsFromFile engine.filePath fs = .ok records ∧
      replayRecords records engine.storage = (.ok, storage)) := by
  by_cases inspected : Inspected engine fs
  case neg =>
    obtain ⟨status, failed, eq⟩ := recover_refused inspected
    rw [eq] at ok
    cases failed.symm.trans ok
  refine ⟨inspected, ?_⟩
  cases present : fs.file with
  | none => exact Or.inl rfl
  | some content =>
      cases read : readRecordsFromFile engine.filePath fs with
      | error failure =>
          rw [recover_unread inspected present read] at ok
          cases failure.property.symm.trans ok
      | ok records =>
          cases replays : Journal.replay applyRecord records engine.storage with
          | none =>
              have stopped := replayRecords_not_ok replays
              rw [recover_stopped inspected present read stopped] at ok
              cases stopped.symm.trans ok
          | some storage =>
              exact Or.inr ⟨content, records, storage, rfl, rfl, replayRecords_ok_iff.2 replays⟩

/-- A fresh engine that got through its tests opens its writer on the ledger the
file stands for. -/
theorem launch_cases {filePath : Bytes} {options : WalBackedStorageOptions} {fs : FileSystem}
    (inspected : Inspected (WalBackedStorage.create .empty filePath options) fs)
    (file : fs.file = none ∨ ∃ content records storage, fs.file = some content ∧
      readRecordsFromFile filePath fs = .ok records ∧
      replayRecords records InMemoryStorage.empty = (.ok, storage)) :
    (launch filePath options fs).1.isOk = openSucceeds fs.pending.opens ∧
      ((launch filePath options fs).1.isOk = true → (launch filePath options fs).1 = .ok ∧
        Launched filePath options fs (launch filePath options fs).2) := by
  rcases file with absent | ⟨content, records, storage, present, read, replayed⟩
  · have stands : ledgerOf fs.content = some { storage := .empty, next := 1 } := by
      rw [FileSystem.content, absent]
      rfl
    rw [launch, recover_absent inspected absent]
    exact openWriter_launched inspected.named rfl inspected.parent stands
  · have stands : ledgerOf fs.content =
        some { storage := storage, next := computeNextSequenceNumber records } :=
      ledgerOf_eq_some.2 ⟨records, readContent_of_readRecordsFromFile read,
        replayRecords_ok_iff.1 replayed, rfl⟩
    rw [launch, recover_present inspected present read replayed]
    exact openWriter_launched inspected.named rfl inspected.parent stands

/-- **A start whose recovery returned OK holds what the file's bytes stand for.** -/
theorem launch_ok {filePath : Bytes} {options : WalBackedStorageOptions} {fs : FileSystem}
    (ok : (launch filePath options fs).1.isOk = true) :
    (launch filePath options fs).1 = .ok ∧
      Launched filePath options fs (launch filePath options fs).2 := by
  obtain ⟨inspected, file⟩ := recover_isOk ok
  exact (launch_cases inspected file).2 ok

/-- **With nothing failing, a file that stands for a ledger is recovered.** -/
theorem launch_isOk {filePath : Bytes} {options : WalBackedStorageOptions} {fs : FileSystem}
    (named : filePath ≠ []) (parent : (validateParentDirectory fs.parent).isOk = true)
    (clean : fs.pending.NoFailure) (stands : (ledgerOf fs.content).isSome) :
    (launch filePath options fs).1.isOk = true := by
  have file : fs.file = none ∨ ∃ content records storage, fs.file = some content ∧
      readRecordsFromFile filePath fs = .ok records ∧
      replayRecords records InMemoryStorage.empty = (.ok, storage) := by
    cases present : fs.file with
    | none => exact Or.inl rfl
    | some content =>
        obtain ⟨ledger, stands⟩ := Option.isSome_iff_exists.1 stands
        rw [FileSystem.content, present] at stands
        obtain ⟨records, read, replayed, -⟩ := ledgerOf_eq_some.1 stands
        exact Or.inr ⟨content, records, ledger.storage, rfl,
          (readRecordsFromFile_of_noFailure named present clean).trans read,
          replayRecords_ok_iff.2 replayed⟩
  rw [(launch_cases ⟨named, parent, clean.inspect⟩ file).1]
  exact openSucceeds_of_noFailure clean

/-! ## What a restart does -/

theorem restart_eq (node : Node) (orderly : Bool) (outcomes : Outcomes) :
    ∃ fs : FileSystem, node.restart orderly outcomes =
        launch node.engine.filePath node.engine.options fs ∧
      fs.file = node.fs.file ∧ fs.parent = node.fs.parent ∧
      (outcomes.NoFailure → fs.pending.NoFailure) := by
  cases orderly with
  | false => exact ⟨_, rfl, rfl, rfl, id⟩
  | true =>
      have keeps := node.engine.writer.destroy_keeps (node.facing outcomes).fs
      exact ⟨_, rfl, keeps⟩

/-- **A restart that returned OK holds what the file stands for, and leaves the file
alone.** -/
theorem restart_ok {node : Node} {orderly : Bool} {outcomes : Outcomes}
    (ok : (node.restart orderly outcomes).1.isOk = true) :
    (node.restart orderly outcomes).1 = .ok ∧
      Launched node.engine.filePath node.engine.options node.fs
        (node.restart orderly outcomes).2 := by
  obtain ⟨fs, eq, file, -, -⟩ := restart_eq node orderly outcomes
  rw [eq] at ok ⊢
  obtain ⟨status, launched⟩ := launch_ok ok
  have content : fs.content = node.fs.content := by
    rw [FileSystem.content, FileSystem.content, file]
  exact ⟨status, { launched with
    content := launched.content.trans content
    stands := content ▸ launched.stands }⟩

/-- **A restart with nothing failing returns OK when the file stands for a ledger.** -/
theorem restart_isOk_iff {node : Node} (ready : Ready node) (orderly : Bool)
    {outcomes : Outcomes} (clean : outcomes.NoFailure) :
    (node.restart orderly outcomes).1.isOk = true ↔ (ledgerOf node.fs.content).isSome := by
  constructor
  · intro ok
    rw [(restart_ok ok).2.stands]
    rfl
  · intro stands
    obtain ⟨fs, eq, file, parent, pending⟩ := restart_eq node orderly outcomes
    have content : fs.content = node.fs.content := by
      rw [FileSystem.content, FileSystem.content, file]
    rw [eq]
    exact launch_isOk ready.named (parent ▸ ready.parent) (pending clean) (content ▸ stands)

/-! ## What a call does -/

theorem usable {node : Node} (ready : Ready node) (outcomes : Outcomes) :
    node.engine.writer.Usable (node.facing outcomes).fs :=
  ⟨ready.writerPath ▸ ready.named, ready.notClosed, fun _ => ready.present⟩

/-- The call logged a record: its line's accepted prefix is in the file, and map and
counter moved exactly when it is acknowledged. -/
structure Logged (node : Node) (outcomes : Outcomes) (record : ValidRecord) (reply : Reply)
    (next : Node) : Prop where
  content : next.fs.content =
    node.fs.content ++ node.engine.writer.accepted outcomes (recordLine record.val)
  isAcknowledged : reply.isAcknowledged =
    node.engine.writer.appendSucceeds outcomes (recordLine record.val)
  ok : reply.isAcknowledged = true →
    reply = .status .ok ∧ next.ledger = node.ledger.advance record.val
  failed : reply.isAcknowledged = false →
    (∃ status, reply = .status status ∧ status.code = .unavailable) ∧ next.ledger = node.ledger
  ready : Ready next
  filePath : next.engine.filePath = node.engine.filePath
  options : next.engine.options = node.engine.options

theorem logged_of_mutated {node : Node} (ready : Ready node) {outcomes : Outcomes}
    {record : ValidRecord} {status : Status} {engine : WalBackedStorage} {after : FileSystem}
    (mutated : WalBackedStorage.Mutated node.engine record (node.facing outcomes).fs status engine
      after) : Logged node outcomes record (.status status) ⟨engine, after⟩ where
  content := mutated.appended.content
  isAcknowledged := mutated.appended.isOk
  ok h := ⟨by rw [(mutated.ok h).1], (mutated.ok h).2⟩
  failed h := ⟨⟨status, rfl, (mutated.failed h).1⟩, (mutated.failed h).2⟩
  ready :=
    have isOpen : engine.writer.isOpen = true := by
      rw [mutated.appended.isOpen, WalFileWriter.canOpen, ready.isOpen, Bool.true_or]
    { named := mutated.filePath ▸ ready.named
      writerPath := by rw [mutated.appended.filePath, mutated.filePath, ready.writerPath]
      notClosed := mutated.appended.notClosed
      isOpen := isOpen
      present := mutated.appended.present isOpen
      parent := mutated.appended.parent ▸ ready.parent }
  filePath := mutated.filePath
  options := mutated.options

/-- **All that a call can do.** -/
theorem step_cases {node : Node} (ready : Ready node) (outcomes : Outcomes) (c : Call) :
    (node.ledger.intent c = none ∧
        node.step (outcomes, c) = (node.ledger.refusal c, node.facing outcomes)) ∨
      ∃ record, node.ledger.intent c = some record ∧
        Logged node outcomes record (node.step (outcomes, c)).1 (node.step (outcomes, c)).2 := by
  cases c with
  | set key value =>
      cases intent : node.ledger.intent (.set key value) with
      | none =>
          refine Or.inl ⟨rfl, ?_⟩
          have refused := WalBackedStorage.set_refused intent (node.facing outcomes).fs
          exact step_set refused
      | some record =>
          refine Or.inr ⟨record, rfl, ?_⟩
          exact logged_of_mutated ready (WalBackedStorage.set_spec (usable ready outcomes) intent)
  | remove key =>
      cases intent : node.ledger.intent (.remove key) with
      | none =>
          refine Or.inl ⟨rfl, ?_⟩
          obtain ⟨status, refused, reply⟩ :=
            WalBackedStorage.remove_refused intent (node.facing outcomes).fs
          rw [step_remove refused]
          exact Prod.ext reply.symm rfl
      | some record =>
          refine Or.inr ⟨record, rfl, ?_⟩
          exact logged_of_mutated ready
            (WalBackedStorage.remove_spec (usable ready outcomes) intent)
  | get key => exact Or.inl ⟨rfl, rfl⟩
  | exists? key => exact Or.inl ⟨rfl, rfl⟩

theorem ready_facing {node : Node} (ready : Ready node) (outcomes : Outcomes) :
    Ready (node.facing outcomes) := { ready with }

theorem ready_step {node : Node} (ready : Ready node) (request : Outcomes × Call) :
    Ready (node.step request).2 := by
  rcases step_cases ready request.1 request.2 with ⟨-, eq⟩ | ⟨record, -, logged⟩
  · rw [show request = (request.1, request.2) from rfl, eq]
    exact ready_facing ready request.1
  · exact logged.ready

/-- Whatever the kernel answers, a run keeps the node ready and only adds to the
file. -/
theorem run_extends {node : Node} (ready : Ready node) (requests : List (Outcomes × Call)) :
    Ready (Machine.after step node requests) ∧
      ∃ added, (Machine.after step node requests).fs.content = node.fs.content ++ added := by
  induction requests generalizing node with
  | nil => exact ⟨ready, [], (List.append_nil _).symm⟩
  | cons request rest ih =>
      obtain ⟨last, later, content⟩ := ih (ready_step ready request)
      refine ⟨last, ?_⟩
      rw [Machine.after_cons, content]
      rcases step_cases ready request.1 request.2 with ⟨-, eq⟩ | ⟨record, -, logged⟩
      · exact ⟨later, by rw [show request = (request.1, request.2) from rfl, eq]; rfl⟩
      · exact ⟨_, by rw [logged.content, List.append_assoc]⟩

/-- Calls that log nothing leave ledger and file alone. -/
theorem run_refused {node : Node} (ready : Ready node) {requests : List (Outcomes × Call)}
    (refused : ∀ request ∈ requests, node.ledger.intent request.2 = none) :
    (Machine.after step node requests).ledger = node.ledger ∧
      (Machine.after step node requests).fs.content = node.fs.content := by
  induction requests generalizing node with
  | nil => exact ⟨rfl, rfl⟩
  | cons request rest ih =>
      rw [Machine.after_cons]
      rcases step_cases ready request.1 request.2 with ⟨-, eq⟩ | ⟨record, intent, -⟩
      · have same : (node.step request).2 = node.facing request.1 := congrArg Prod.snd eq
        rw [same]
        exact ih (ready_facing ready request.1) fun r member =>
          refused r (List.mem_cons_of_mem _ member)
      · rw [refused request List.mem_cons_self] at intent
        cases intent

end Node

end AsterKV.Wal
