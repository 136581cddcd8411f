/-
# AsterKV.Wal.RejectedMutations -- whether a failed mutation comes back

The map in memory is the work of the acknowledged calls alone (`storage_run`).  A
recovery that returns OK yields the same map for as long as no failed append leaves
a line that the reader accepts and that changes it (`rejected_stay_rejected_iff`).
-/
import AsterKV.Wal.FailedAppends

namespace AsterKV.Wal

open AsterKV.Core AsterKV.Storage Theory Theory.Lines

set_option autoImplicit false

namespace Node

/-! ## The map of the acknowledged calls -/

/-- The effect of a call that returned OK. -/
def applyAcknowledged (storage : InMemoryStorage) (answered : Call × Reply) : InMemoryStorage :=
  if answered.2.isAcknowledged then
    match answered.1 with
    | .set key value => storage.insert key value
    | .remove key => storage.erase key
    | .get _ | .exists? _ => storage
  else storage

/-- The map obtained from the calls that returned OK alone. -/
def acknowledgedMap (calls : List (Call × Reply)) : InMemoryStorage :=
  calls.foldl applyAcknowledged .empty

theorem applyTo_intended {ledger : Ledger} {c : Call} {record : WalRecord}
    (intended : ledger.Intended c record) {reply : Reply} (ok : reply.isAcknowledged = true) :
    record.applyTo ledger.storage = applyAcknowledged ledger.storage (c, reply) := by
  rw [applyAcknowledged, if_pos ok]
  rcases intended.shape with ⟨value, shape, rfl⟩ | ⟨shape, rfl⟩
  · rw [shape]
    rfl
  · rw [shape]
    rfl

/-- Only acknowledged calls change the map. -/
theorem storage_step {node : Node} (ready : Ready node) (request : Outcomes × Call) :
    (node.step request).2.engine.storage =
      applyAcknowledged node.engine.storage (request.2, (node.step request).1) := by
  obtain ⟨outcomes, c⟩ := request
  rcases step_cases ready outcomes c with ⟨intent, eq⟩ | ⟨record, intent, logged⟩
  · rw [eq, applyAcknowledged, if_neg (by simp [Ledger.isAcknowledged_refusal intent])]
    rfl
  · cases acknowledged : (node.step (outcomes, c)).1.isAcknowledged with
    | true =>
        have advanced := congrArg Ledger.storage (logged.ok acknowledged).2
        exact advanced.trans (applyTo_intended (Ledger.intended_of_intent intent) acknowledged)
    | false =>
        have same := congrArg Ledger.storage (logged.failed acknowledged).2
        rw [applyAcknowledged, if_neg (by simp [acknowledged])]
        exact same

theorem storage_run {node : Node} (ready : Ready node) (requests : List (Outcomes × Call)) :
    (Machine.after step node requests).engine.storage =
      (history node requests).foldl applyAcknowledged node.engine.storage := by
  induction requests generalizing node with
  | nil => rfl
  | cons request rest ih =>
      rw [Machine.after_cons, ih (ready_step ready request), history_cons, List.foldl_cons,
        storage_step ready request]

/-! ## Failed appends that do not come back -/

/-- If this call's append fails, the unterminated rest of the log with the bytes that
reached the file is no line that changes the map, or the log is unreadable before
it. -/
def Settles (node : Node) (request : Outcomes × Call) : Prop :=
  ∀ record ∈ node.ledger.intent request.2,
    node.engine.writer.appendSucceeds request.1 (recordLine record.val) = false →
    mapOf (body lineFeed node.fs.content) = none ∨
      ∀ changed ∈ lineEffect
        (tail lineFeed node.fs.content ++
          node.engine.writer.accepted request.1 (recordLine record.val))
        node.engine.storage, changed = node.engine.storage

instance (node : Node) (request : Outcomes × Call) : Decidable (Settles node request) :=
  inferInstanceAs (Decidable (∀ record ∈ node.ledger.intent request.2,
    node.engine.writer.appendSucceeds request.1 (recordLine record.val) = false →
    mapOf (body lineFeed node.fs.content) = none ∨
      ∀ changed ∈ lineEffect
        (tail lineFeed node.fs.content ++
          node.engine.writer.accepted request.1 (recordLine record.val))
        node.engine.storage, changed = node.engine.storage))

/-- The whole lines of the log stand for the map in memory, or for nothing. -/
structure Anchored (node : Node) : Prop extends Ready node where
  anchored : ∀ storage, mapOf (body lineFeed node.fs.content) = some storage →
    storage = node.engine.storage

/-- The log stands for the map in memory, or for nothing. -/
def Faithful (node : Node) : Prop :=
  ∀ storage, mapOf node.fs.content = some storage → storage = node.engine.storage

theorem faithful_iff_settles {node : Node} (inv : Anchored node) (good : Faithful node)
    (request : Outcomes × Call) :
    Faithful (node.step request).2 ↔ Settles node request := by
  obtain ⟨outcomes, c⟩ := request
  rcases step_cases inv.toReady outcomes c with ⟨intent, eq⟩ | ⟨record, intent, logged⟩
  · rw [eq]
    refine ⟨fun _ record some => ?_, fun _ => good⟩
    rw [intent] at some
    cases some
  · have content := logged.content
    have isPrefix := WalFileWriter.accepted_prefix node.engine.writer outcomes
      (recordLine record.val)
    have stands := mapOf_appended node.fs.content isPrefix
    rw [← content] at stands
    cases succeeds : node.engine.writer.appendSucceeds outcomes (recordLine record.val) with
    | true =>
        constructor
        · intro _ other same failed
          rw [intent] at same
          cases Option.some.inj same
          cases succeeds.symm.trans failed
        · intro _ storage found
          have advanced := congrArg Ledger.storage (logged.ok (logged.isAcknowledged.trans succeeds)).2
          have applicable : record.val.Applicable node.engine.storage :=
            (Ledger.intended_of_intent intent).applicable
          rw [WalFileWriter.accepted_of_appendSucceeds succeeds] at stands
          rw [stands, if_neg (by simp [recordLine])] at found
          obtain ⟨before, whole, effect⟩ := Option.bind_eq_some_iff.1 found
          cases inv.anchored before whole
          by_cases glued : tail lineFeed node.fs.content = []
          · rw [glued, List.nil_append, lineEffect_recordLine,
              applyRecord_of_applicable applicable] at effect
            exact (Option.some.inj effect).symm.trans advanced.symm
          · rw [lineEffect_glued glued] at effect
            cases effect
    | false =>
        have same : (node.step (outcomes, c)).2.engine.storage = node.engine.storage :=
          congrArg Ledger.storage (logged.failed (logged.isAcknowledged.trans succeeds)).2
        have settles : Settles node (outcomes, c) ↔
            mapOf (body lineFeed node.fs.content) = none ∨ ∀ changed, lineEffect
              (tail lineFeed node.fs.content ++
                node.engine.writer.accepted outcomes (recordLine record.val))
              node.engine.storage = some changed → changed = node.engine.storage := by
          constructor
          · exact fun all => all record intent succeeds
          · intro one other some _
            rw [intent] at some
            cases Option.some.inj some
            exact one
        rw [settles, Faithful, stands, same]
        generalize tail lineFeed node.fs.content ++
          node.engine.writer.accepted outcomes (recordLine record.val) = line
        by_cases none : line = []
        · rw [if_pos none, none]
          exact ⟨fun _ => Or.inr fun _ effect => (by cases effect), fun _ => inv.anchored⟩
        · rw [if_neg none]
          cases whole : mapOf (body lineFeed node.fs.content) with
          | none => simp
          | some before =>
              cases inv.anchored before whole
              simp

theorem anchored_step {node : Node} (inv : Anchored node) (good : Faithful node)
    {request : Outcomes × Call} (settles : Settles node request) :
    Anchored (node.step request).2 := by
  have faithful := (faithful_iff_settles inv good request).2 settles
  refine { ready_step inv.toReady request with anchored := ?_ }
  obtain ⟨outcomes, c⟩ := request
  rcases step_cases inv.toReady outcomes c with ⟨intent, eq⟩ | ⟨record, intent, logged⟩
  · rw [eq]
    exact inv.anchored
  · have isPrefix := WalFileWriter.accepted_prefix node.engine.writer outcomes
      (recordLine record.val)
    rcases part_cases isPrefix with whole | ⟨-, clean⟩
    · -- the whole line is there: the file is all whole lines now
      have terminated : Terminated lineFeed (node.step (outcomes, c)).2.fs.content := by
        rw [logged.content, whole]
        exact terminated_append_recordLine _ _
      rw [body_of_terminated lineFeed terminated]
      exact faithful
    · -- the line stays open: the whole lines are the same, and so is the map
      have unfinished : node.engine.writer.appendSucceeds outcomes (recordLine record.val) = false := by
        rw [Bool.eq_false_iff]
        intro succeeds
        rw [WalFileWriter.accepted_of_appendSucceeds succeeds] at clean
        exact clean (by simp [recordLine])
      have same : (node.step (outcomes, c)).2.engine.storage = node.engine.storage :=
        congrArg Ledger.storage (logged.failed (logged.isAcknowledged.trans unfinished)).2
      rw [logged.content, body_append_clean lineFeed clean, same]
      exact inv.anchored

/-- **Rejected mutations stay rejected exactly when failed appends settle.**  After
every part of a run, a recovery that returns OK yields the map of the acknowledged
calls, which is the map in memory. -/
theorem rejected_stay_rejected_iff {filePath : Bytes} {options : WalBackedStorageOptions}
    {fs : FileSystem} {requests : List (Outcomes × Call)} (absent : fs.file = none)
    (recovered : (launch filePath options fs).1 = .ok) :
    let start := (launch filePath options fs).2
    (∀ front, front <+: requests → ∀ orderly outcomes,
      let last := Machine.after step start front
      let again := last.restart orderly outcomes
      again.1.isOk = true →
        again.2.engine.storage = acknowledgedMap (history start front) ∧
          again.2.engine.storage = last.engine.storage) ↔
    Machine.Steps step Settles start requests := by
  intro start
  obtain ⟨synced, empty, ledger⟩ := fresh_start absent recovered
  have nothing : mapOf start.fs.content = some start.engine.storage := by
    rw [mapOf, synced.stands]
    rfl
  have good : Faithful start := fun storage stands => Option.some.inj (stands.symm.trans nothing)
  have inv : Anchored start :=
    { synced.toReady with
      anchored := by
        rw [body_of_terminated lineFeed synced.terminated]
        exact good }
  have all : Machine.Always step Faithful start requests ↔
      Machine.Steps step Settles start requests :=
    Machine.always_iff step (fun _ request inv good => faithful_iff_settles inv good request)
      (fun _ _ inv good settles => anchored_step inv good settles) inv good
  rw [← all, Machine.always_iff_forall_prefix]
  refine forall_congr' fun front => imp_congr_right fun isPrefix => ?_
  have ready := (run_extends synced.toReady front).1
  have acknowledged : (Machine.after step start front).engine.storage =
      acknowledgedMap (history start front) := by
    rw [storage_run synced.toReady front, acknowledgedMap,
      show start.engine.storage = .empty from congrArg Ledger.storage ledger]
  rw [Faithful, ← recovered_iff ready]
  constructor
  · exact fun all orderly outcomes ok => (all orderly outcomes ok).2
  · intro all orderly outcomes last again ok
    have same := all orderly outcomes ok
    exact ⟨same.trans acknowledged, same⟩

/-- A set whose fsync fails: the call is rejected and its value not to be read. -/
def rejectedSet : Outcomes × Call :=
  ({ fsyncs := [.failed (.other (bytes "Input/output error"))] }, .set (bytes "k") (bytes "v"))

/-- The rejected set comes back. -/
theorem rejected_set_recovered :
    let start := (launch (bytes "wal") {} (.holding none)).2
    let rejected := start.step rejectedSet
    let again := rejected.2.restart false {}
    rejected.1 = .status (.unavailable (bytes "failed to fsync WAL file: Input/output error")) ∧
      rejected.2.engine.get (bytes "k") = .failure (.notFound (bytes "key not found")) ∧
      again.1 = .ok ∧ again.2.engine.get (bytes "k") = .success (bytes "v") := by
  decide

/-- A write that fails behind three bytes, and then nothing: the rest is no line. -/
theorem rejected_stay_rejected_torn :
    let start := (launch (bytes "wal") {} (.holding none)).2
    let requests : List (Outcomes × Call) :=
      [({ writes := [.accepted 2, .failed (.other (bytes "No space left on device"))] },
        .set (bytes "k") (bytes "v"))]
    ∀ front, front <+: requests → ∀ orderly outcomes,
      let last := Machine.after step start front
      let again := last.restart orderly outcomes
      again.1.isOk = true →
        again.2.engine.storage = acknowledgedMap (history start front) ∧
          again.2.engine.storage = last.engine.storage :=
  (@rejected_stay_rejected_iff (bytes "wal") {} (.holding none) _ rfl (by decide)).2 (by decide)

end Node

end AsterKV.Wal
