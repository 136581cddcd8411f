/-
# AsterKV.Wal.MemoryRuns -- what a run leaves in memory

However its system calls end, a mutation leaves the engine in one of two ways: as it was,
or with its change applied and counted, and then it returned OK.  Between the append and
the counter nothing can fail any more: a record that validated names a key, and a del is
only logged for a key that the existence test found (`set_after_append`,
`remove_after_append`).  The runs start from any recovery that returned OK, whatever the
storage held before it.
-/
import AsterKV.Wal.RejectedMutations

namespace AsterKV.Wal

open AsterKV.Core AsterKV.Storage Theory

set_option autoImplicit false

namespace WalBackedStorage

/-- `set()` reaches the branch behind `storage_.set` that returns its failure. -/
def SetFailsAfterAppend (engine : WalBackedStorage) (key value : Bytes) (fs : FileSystem) : Prop :=
  let record := makeSetRecord engine.nextSequenceNumber key value
  (validateWalRecord record).isOk = true ∧ (engine.writer.appendRecord record fs).1.isOk = true ∧
    (engine.storage.set key value).1.isOk = false

/-- `remove()` reaches the branch behind `storage_.remove` that returns its failure. -/
def RemoveFailsAfterAppend (engine : WalBackedStorage) (key : Bytes) (fs : FileSystem) : Prop :=
  let record := makeDelRecord engine.nextSequenceNumber key
  engine.storage.exists? key = .ok true ∧ (validateWalRecord record).isOk = true ∧
    (engine.writer.appendRecord record fs).1.isOk = true ∧
    (engine.storage.remove key).1.isOk = false

/-- A set that validated is accepted by the storage. -/
theorem set_after_append (engine : WalBackedStorage) (key value : Bytes) (fs : FileSystem) :
    ¬ engine.SetFailsAfterAppend key value fs := by
  rintro ⟨valid, -, failed⟩
  have named := ((validate_makeSetRecord _ _ _).1 valid).2.1
  rw [InMemoryStorage.set_of_ne named] at failed
  cases failed

/-- A remove whose key was found is accepted by the storage. -/
theorem remove_after_append (engine : WalBackedStorage) (key : Bytes) (fs : FileSystem) :
    ¬ engine.RemoveFailsAfterAppend key fs := by
  rintro ⟨answer, -, -, failed⟩
  rcases engine.storage.exists?_cases key with
    refused | ⟨-, -, absent⟩ | ⟨named, ⟨value, found⟩, -⟩
  · rw [refused] at answer
    cases answer
  · rw [absent] at answer
    cases answer
  · rw [InMemoryStorage.remove_of_lookup named found] at failed
    cases failed

end WalBackedStorage

namespace Node

/-- A process starts on a storage that may hold something already. -/
def recovered (storage : InMemoryStorage) (filePath : Bytes) (options : WalBackedStorageOptions)
    (fs : FileSystem) : Status × Node :=
  let (status, engine, fs) := (WalBackedStorage.create storage filePath options).recover fs
  (status, ⟨engine, fs⟩)

/-- Any recovery that returned OK leaves the engine ready. -/
theorem ready_recovered {storage : InMemoryStorage} {filePath : Bytes}
    {options : WalBackedStorageOptions} {fs : FileSystem}
    (ok : (recovered storage filePath options fs).1.isOk = true) :
    Ready (recovered storage filePath options fs).2 := by
  obtain ⟨inspected, file⟩ := recover_isOk
    (show ((WalBackedStorage.create storage filePath options).recover fs).1.isOk = true from ok)
  unfold recovered at ok ⊢
  rcases file with absent | ⟨content, records, after, present, read, replayed⟩
  · rw [recover_absent inspected absent] at ok ⊢
    refine ((openWriter_ready ?_ rfl inspected.parent).2 ok).2.1
    exact inspected.named
  · rw [recover_present inspected present read replayed] at ok ⊢
    refine ((openWriter_ready ?_ rfl inspected.parent).2 ok).2.1
    exact inspected.named

/-- A call that is not acknowledged leaves map and counter alone. -/
theorem ledger_of_unacknowledged {node : Node} (ready : Ready node)
    {request : Outcomes × Call} (failed : (node.step request).1.isAcknowledged = false) :
    (node.step request).2.ledger = node.ledger := by
  obtain ⟨outcomes, c⟩ := request
  rcases step_cases ready outcomes c with ⟨-, eq⟩ | ⟨record, -, logged⟩
  · rw [eq]
    rfl
  · exact (logged.failed failed).2

/-- **Memory follows the acknowledgements.**  After every run from a recovery that
returned OK, whatever the system calls answered: the map is the recovered one changed by
the sets and removes that returned OK, in order; a call that does not return OK leaves map
and counter as they were; and no mutation fails once its append has returned OK. -/
theorem memory_follows_acknowledgements {storage : InMemoryStorage} {filePath : Bytes}
    {options : WalBackedStorageOptions} {fs : FileSystem}
    (ok : (recovered storage filePath options fs).1.isOk = true)
    (requests : List (Outcomes × Call)) :
    let start := (recovered storage filePath options fs).2
    let last := Machine.after step start requests
    last.engine.storage = (history start requests).foldl applyAcknowledged start.engine.storage ∧
    (∀ request, (last.step request).1.isAcknowledged = false →
      (last.step request).2.engine.storage = last.engine.storage ∧
        (last.step request).2.engine.nextSequenceNumber = last.engine.nextSequenceNumber) ∧
    ∀ outcomes key value,
      ¬ last.engine.SetFailsAfterAppend key value (last.facing outcomes).fs ∧
        ¬ last.engine.RemoveFailsAfterAppend key (last.facing outcomes).fs := by
  intro start last
  have ready : Ready start := ready_recovered ok
  have lastReady : Ready last := (run_extends ready requests).1
  refine ⟨storage_run ready requests, fun request failed => ?_, fun outcomes key value => ?_⟩
  · have same := ledger_of_unacknowledged lastReady failed
    exact ⟨congrArg Ledger.storage same, congrArg Ledger.next same⟩
  · exact ⟨WalBackedStorage.set_after_append _ _ _ _, WalBackedStorage.remove_after_append _ _ _⟩

/-- Of two sets the second one loses its sync: the map has the first alone. -/
theorem memory_follows_acknowledgements_sets :
    let start := (recovered .empty (bytes "wal") {} (.holding none)).2
    let last := Machine.after step start [({}, .set (bytes "k") (bytes "v")),
      ({ fsyncs := [.failed (.other (bytes "Input/output error"))] },
        .set (bytes "l") (bytes "w"))]
    last.engine.storage.lookup (bytes "k") = some (bytes "v") ∧
      last.engine.storage.lookup (bytes "l") = none := by
  intro start last
  have follows := @memory_follows_acknowledgements .empty (bytes "wal") {} (.holding none)
    (by decide)
    [({}, .set (bytes "k") (bytes "v")),
      ({ fsyncs := [.failed (.other (bytes "Input/output error"))] }, .set (bytes "l") (bytes "w"))]
  have map : last.engine.storage = _ := follows.1
  rw [map]
  decide

end Node

end AsterKV.Wal
