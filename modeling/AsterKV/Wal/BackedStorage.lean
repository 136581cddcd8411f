/-
# AsterKV.Wal.BackedStorage -- the engine that logs before it applies

`set` and `remove` write one record, then change the map, then count.  `Ledger` is
the map with the counter and nothing under it: which record a call wants to log,
and what it answers when it logs none, depend on these two alone.  `set_spec` and
`remove_spec` say that each mutation is the one protocol of `Mutated`.  `recover` reads the
file's records and replays them.
-/
import AsterKV.Wal.FileReader
import AsterKV.Wal.FileWriter
import AsterKV.Wal.Replay

namespace AsterKV.Wal

open AsterKV.Core AsterKV.Storage

set_option autoImplicit false

structure WalBackedStorageOptions where
  writerOptions : WalFileWriterOptions := {}
  deriving DecidableEq, Repr

/-- The engine together with the storage it refers to. -/
structure WalBackedStorage where
  storage : InMemoryStorage
  filePath : Bytes
  options : WalBackedStorageOptions
  nextSequenceNumber : WalSequenceNumber
  writer : WalFileWriter
  deriving DecidableEq

/-- The largest number of the records, from this one on. -/
def maxSequenceNumber : WalSequenceNumber → List WalRecord → WalSequenceNumber
  | largest, [] => largest
  | largest, record :: rest =>
      maxSequenceNumber
        (if record.sequenceNumber > largest then record.sequenceNumber else largest) rest

/-- `maxSequenceNumber + 1`, which wraps. -/
def computeNextSequenceNumber (records : List WalRecord) : WalSequenceNumber :=
  maxSequenceNumber 0 records + 1

def validateParentDirectory : ParentPath → Status
  | .empty => .ok
  | .entry isPresent isDirectory =>
      if !isPresent.answer then .unavailable (bytes "WAL parent directory does not exists")
      else if isPresent.error then
        .unavailable (bytes "failed to inspect WAL parent directory")
      else if !isDirectory.answer then
        .unavailable (bytes "WAL parent path is not a directory")
      else if isDirectory.error then
        .unavailable (bytes "failed to inspect WAL parent directory type")
      else .ok

namespace WalBackedStorage

/-! ## The methods -/

/-- The constructor. -/
def create (storage : InMemoryStorage) (filePath : Bytes) (options : WalBackedStorageOptions) :
    WalBackedStorage :=
  { storage := storage, filePath := filePath, options := options, nextSequenceNumber := 1,
    writer := WalFileWriter.create filePath options.writerOptions }

def validateWalFilepathForRecovery (engine : WalBackedStorage) (fs : FileSystem) : Status :=
  if engine.filePath.isEmpty then .invalidArgument (bytes "WAL file path must not be empty")
  else validateParentDirectory fs.parent

/-- `writer_.open()` as the last step of a recovery. -/
def openWriter (engine : WalBackedStorage) (fs : FileSystem) :
    Status × WalBackedStorage × FileSystem :=
  let (openStatus, writer, fs) := engine.writer.openFile fs
  (openStatus, { engine with writer := writer }, fs)

def recover (engine : WalBackedStorage) (fs : FileSystem) : Status × WalBackedStorage × FileSystem :=
  let pathStatus := engine.validateWalFilepathForRecovery fs
  if !pathStatus.isOk then (pathStatus, engine, fs)
  else if fs.pending.inspectFails then
    (.unavailable (bytes "failed to inspect WAL file"), engine, fs)
  else if fs.file.isNone then { engine with nextSequenceNumber := 1 }.openWriter fs
  else match readRecordsFromFile engine.filePath fs with
    | .error failure => (failure.val, engine, fs)
    | .ok records =>
        let (replayStatus, storage) := replayRecords records engine.storage
        -- what was replayed before a refusal stays in the storage
        let engine := { engine with storage := storage }
        if !replayStatus.isOk then (replayStatus, engine, fs)
        else
          { engine with nextSequenceNumber := computeNextSequenceNumber records }.openWriter fs

/-- What `set` and `remove` have in common: validate, append, apply, count. -/
def logMutation (engine : WalBackedStorage) (record : WalRecord)
    (apply : InMemoryStorage → Status × InMemoryStorage) (fs : FileSystem) :
    Status × WalBackedStorage × FileSystem :=
  let validationStatus := validateWalRecord record
  if !validationStatus.isOk then (validationStatus, engine, fs)
  else
    let (appendStatus, writer, fs) := engine.writer.appendRecord record fs
    let engine := { engine with writer := writer }
    if !appendStatus.isOk then (appendStatus, engine, fs)
    else
      let (storageStatus, storage) := apply engine.storage
      let engine := { engine with storage := storage }
      if !storageStatus.isOk then (storageStatus, engine, fs)
      else (.ok, { engine with nextSequenceNumber := engine.nextSequenceNumber + 1 }, fs)

def set (engine : WalBackedStorage) (key value : Bytes) (fs : FileSystem) :
    Status × WalBackedStorage × FileSystem :=
  engine.logMutation (makeSetRecord engine.nextSequenceNumber key value)
    (fun storage => storage.set key value) fs

def get (engine : WalBackedStorage) (key : Bytes) : Result Bytes := engine.storage.get key

def remove (engine : WalBackedStorage) (key : Bytes) (fs : FileSystem) :
    Status × WalBackedStorage × FileSystem :=
  match engine.storage.exists? key with
  | .error failure => (failure.val, engine, fs)
  | .ok false =>
      let (storageStatus, storage) := engine.storage.remove key
      (storageStatus, { engine with storage := storage }, fs)
  | .ok true =>
      engine.logMutation (makeDelRecord engine.nextSequenceNumber key)
        (fun storage => storage.remove key) fs

def exists? (engine : WalBackedStorage) (key : Bytes) : Result Bool := engine.storage.exists? key

def del (engine : WalBackedStorage) (key : Bytes) (fs : FileSystem) :
    Status × WalBackedStorage × FileSystem :=
  engine.remove key fs

end WalBackedStorage

/-! ## The map and the counter -/

/-- An engine without its file. -/
structure Ledger where
  storage : InMemoryStorage
  next : WalSequenceNumber
  deriving DecidableEq

namespace Ledger

/-- The record, as long as it validates. -/
def validated (record : WalRecord) : Option ValidRecord :=
  if valid : (validateWalRecord record).isOk = true then some ⟨record, valid⟩ else none

/-- The record a call is going to log. -/
def intent (ledger : Ledger) : Call → Option ValidRecord
  | .set key value => validated (makeSetRecord ledger.next key value)
  | .remove key =>
      match ledger.storage.exists? key with
      | .ok true => validated (makeDelRecord ledger.next key)
      | _ => none
  | .get _ | .exists? _ => none

/-- The answer of a call that logs nothing. -/
def refusal (ledger : Ledger) : Call → Reply
  | .set key value => .status (validateWalRecord (makeSetRecord ledger.next key value))
  | .remove key =>
      .status (match ledger.storage.exists? key with
      | .error failure => failure.val
      | .ok false => (ledger.storage.remove key).1
      | .ok true => validateWalRecord (makeDelRecord ledger.next key))
  | .get key => .value (ledger.storage.get key)
  | .exists? key => .flag (ledger.storage.exists? key)

/-- A mutation that went through. -/
def advance (ledger : Ledger) (record : WalRecord) : Ledger :=
  { storage := record.applyTo ledger.storage, next := ledger.next + 1 }

/-- A call on an engine whose appends all succeed. -/
def call (ledger : Ledger) (c : Call) : Reply × Ledger :=
  match ledger.intent c with
  | some record => (.status .ok, ledger.advance record.val)
  | none => (ledger.refusal c, ledger)

theorem validated_eq_some {record : WalRecord} {valid : ValidRecord}
    (h : validated record = some valid) : valid.val = record := by
  unfold validated at h
  split at h
  · cases h
    rfl
  · cases h

theorem validated_eq_none {record : WalRecord} (h : validated record = none) :
    (validateWalRecord record).isOk = false := by
  unfold validated at h
  split at h
  · cases h
  · next invalid => simpa using invalid

/-- What is known of a record a call is going to log. -/
structure Intended (ledger : Ledger) (c : Call) (record : WalRecord) : Prop where
  number : record.sequenceNumber = ledger.next
  key : record.key = c.key
  mutation : c.isMutation = true
  shape : (∃ value, c = .set c.key value ∧ record = makeSetRecord ledger.next c.key value) ∨
    (c = .remove c.key ∧ record = makeDelRecord ledger.next c.key)
  applicable : record.Applicable ledger.storage

theorem intended_of_intent {ledger : Ledger} {c : Call} {record : ValidRecord}
    (intent : ledger.intent c = some record) : ledger.Intended c record.val := by
  cases c with
  | set key value =>
      have eq := validated_eq_some intent
      rw [eq]
      exact ⟨rfl, rfl, rfl, Or.inl ⟨value, rfl, rfl⟩, fun del => by cases del⟩
  | remove key =>
      rw [Ledger.intent] at intent
      rcases ledger.storage.exists?_cases key with
        answer | ⟨-, -, answer⟩ | ⟨-, ⟨value, found⟩, answer⟩
      · rw [answer] at intent
        cases intent
      · rw [answer] at intent
        cases intent
      · rw [answer] at intent
        rw [validated_eq_some intent]
        exact ⟨rfl, rfl, rfl, Or.inr ⟨rfl, rfl⟩, fun _ => Option.isSome_of_eq_some found⟩
  | get key => cases intent
  | exists? key => cases intent

/-- A call that logs nothing is not acknowledged as a mutation. -/
theorem isAcknowledged_refusal {ledger : Ledger} {c : Call} (intent : ledger.intent c = none) :
    (ledger.refusal c).isAcknowledged = false := by
  cases c with
  | set key value => exact validated_eq_none intent
  | remove key =>
      rw [Ledger.intent] at intent
      rw [Ledger.refusal, Reply.isAcknowledged]
      rcases ledger.storage.exists?_cases key with
        answer | ⟨named, absent, answer⟩ | ⟨-, -, answer⟩
      · rw [answer]
        rfl
      · rw [answer, InMemoryStorage.remove_of_absent named absent]
        rfl
      · rw [answer] at intent ⊢
        exact validated_eq_none intent
  | get key => rfl
  | exists? key => rfl

end Ledger

def WalBackedStorage.ledger (engine : WalBackedStorage) : Ledger :=
  { storage := engine.storage, next := engine.nextSequenceNumber }

theorem WalBackedStorage.ledger_storage (engine : WalBackedStorage) :
    engine.ledger.storage = engine.storage := rfl

/-! ## What a mutation does -/

namespace WalBackedStorage

/-- All that a logged mutation can do: the writer appends, and map and counter move
exactly when the append returned OK. -/
structure Mutated (engine : WalBackedStorage) (record : ValidRecord) (fs : FileSystem)
    (status : Status) (next : WalBackedStorage) (after : FileSystem) : Prop where
  appended : WalFileWriter.Appended engine.writer (recordLine record.val) fs status next.writer after
  filePath : next.filePath = engine.filePath
  options : next.options = engine.options
  ok : status.isOk = true → status = .ok ∧ next.ledger = engine.ledger.advance record.val
  failed : status.isOk = false → status.code = .unavailable ∧ next.ledger = engine.ledger

theorem logMutation_spec {engine : WalBackedStorage} {fs : FileSystem}
    (usable : engine.writer.Usable fs) (record : ValidRecord)
    (apply : InMemoryStorage → Status × InMemoryStorage)
    (applies : apply engine.storage = (.ok, record.val.applyTo engine.storage)) :
    Mutated engine record fs (engine.logMutation record.val apply fs).1
      (engine.logMutation record.val apply fs).2.1 (engine.logMutation record.val apply fs).2.2 := by
  have appended := WalFileWriter.appendRecord_spec usable record
  unfold logMutation
  simp only [record.property, Bool.not_true, Bool.false_eq_true, if_false]
  obtain ⟨⟨appendStatus, writer, after⟩, appendEq⟩ :
      ∃ result, engine.writer.appendRecord record.val fs = result := ⟨_, rfl⟩
  simp only [appendEq] at appended ⊢
  rcases appended.system with rfl | code
  · simp only [Status.isOk_ok, Bool.not_true, Bool.false_eq_true, if_false, applies]
    exact ⟨appended, rfl, rfl, fun _ => ⟨rfl, rfl⟩, fun h => by cases h⟩
  · have failed : appendStatus.isOk = false := by simp [Status.isOk, code]
    simp only [failed, Bool.not_false, if_true]
    exact ⟨appended, rfl, rfl, fun h => absurd h (by simp [failed]), fun _ => ⟨code, rfl⟩⟩

theorem logMutation_invalid (engine : WalBackedStorage) {record : WalRecord}
    (invalid : (validateWalRecord record).isOk = false)
    (apply : InMemoryStorage → Status × InMemoryStorage) (fs : FileSystem) :
    engine.logMutation record apply fs = (validateWalRecord record, engine, fs) := by
  unfold logMutation
  simp [invalid]

/-- A set that the ledger wants to log. -/
theorem set_spec {engine : WalBackedStorage} {fs : FileSystem} (usable : engine.writer.Usable fs)
    {key value : Bytes} {record : ValidRecord}
    (intent : engine.ledger.intent (.set key value) = some record) :
    Mutated engine record fs (engine.set key value fs).1 (engine.set key value fs).2.1
      (engine.set key value fs).2.2 := by
  have eq : record.val = makeSetRecord engine.nextSequenceNumber key value :=
    Ledger.validated_eq_some intent
  have named : key ≠ [] := by
    have := record.key_ne_nil
    rwa [eq] at this
  have applies : engine.storage.set key value = (.ok, record.val.applyTo engine.storage) := by
    rw [eq]
    exact InMemoryStorage.set_of_ne named
  have spec := logMutation_spec usable record (fun storage => storage.set key value) applies
  rw [set, ← eq]
  exact spec

/-- A remove that the ledger wants to log. -/
theorem remove_spec {engine : WalBackedStorage} {fs : FileSystem} (usable : engine.writer.Usable fs)
    {key : Bytes} {record : ValidRecord}
    (intent : engine.ledger.intent (.remove key) = some record) :
    Mutated engine record fs (engine.remove key fs).1 (engine.remove key fs).2.1
      (engine.remove key fs).2.2 := by
  have intended := Ledger.intended_of_intent intent
  have eq : record.val = makeDelRecord engine.nextSequenceNumber key := by
    rcases intended.shape with ⟨value, impossible, -⟩ | ⟨-, eq⟩
    · cases impossible
    · exact eq
  have present : (engine.storage.lookup key).isSome := by
    have := intended.applicable
    rw [eq] at this
    exact this rfl
  obtain ⟨value, found⟩ := Option.isSome_iff_exists.1 present
  have named : key ≠ [] := by
    have := record.key_ne_nil
    rwa [eq] at this
  have applies : engine.storage.remove key = (.ok, record.val.applyTo engine.storage) := by
    rw [eq]
    exact InMemoryStorage.remove_of_lookup named found
  have answer : engine.storage.exists? key = .ok true := by
    rw [InMemoryStorage.exists?_of_ne named, present]
    rfl
  have spec := logMutation_spec usable record (fun storage => storage.remove key) applies
  rw [remove, answer, ← eq]
  exact spec

/-- A set the ledger refuses changes nothing. -/
theorem set_refused {engine : WalBackedStorage} {key value : Bytes}
    (intent : engine.ledger.intent (.set key value) = none) (fs : FileSystem) :
    engine.set key value fs =
      (validateWalRecord (makeSetRecord engine.nextSequenceNumber key value), engine, fs) :=
  logMutation_invalid engine (Ledger.validated_eq_none intent) _ fs

/-- A remove the ledger refuses changes nothing. -/
theorem remove_refused {engine : WalBackedStorage} {key : Bytes}
    (intent : engine.ledger.intent (.remove key) = none) (fs : FileSystem) :
    ∃ status, engine.remove key fs = (status, engine, fs) ∧
      engine.ledger.refusal (.remove key) = .status status := by
  rw [Ledger.intent] at intent
  rw [Ledger.refusal, remove]
  rcases engine.storage.exists?_cases key with
    answer | ⟨named, absent, answer⟩ | ⟨-, -, answer⟩
  · rw [engine.ledger_storage, answer]
    exact ⟨_, rfl, rfl⟩
  · rw [engine.ledger_storage, answer,
      InMemoryStorage.remove_of_absent named absent]
    exact ⟨_, rfl, rfl⟩
  · rw [engine.ledger_storage, answer] at intent ⊢
    exact ⟨_, logMutation_invalid engine (Ledger.validated_eq_none intent) _ fs, rfl⟩

end WalBackedStorage

end AsterKV.Wal
