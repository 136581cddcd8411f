/-
# AsterKV.Wal.AcknowledgedMutations -- whether an acknowledged mutation is recovered

After a failure the log may hold records nobody was told about.  Recovery still
returns OK, with the last word on every key, as long as every append leaves a line
the reader accepts and replay can apply (`Survives`).  One append that does not
makes the file unrecoverable: `acknowledged_survive_iff` says so in both directions.
-/
import AsterKV.Wal.FailedAppends

namespace AsterKV.Wal

open AsterKV.Core AsterKV.Storage Theory Theory.Lines

set_option autoImplicit false

namespace Node

/-! ## The last word on a key -/

/-- What a mutation leaves under its key. -/
def leaves : Call → Option Bytes
  | .set _ value => some value
  | .remove _ | .get _ | .exists? _ => none

/-- The last mutation of the key that returned OK left this under it, and no failed
mutation touched the key since. -/
def LastWord (calls : List (Call × Reply)) (key : Bytes) (left : Option Bytes) : Prop :=
  ∃ before c reply after, calls = before ++ (c, reply) :: after ∧
    reply.isAcknowledged = true ∧ c.key = key ∧ leaves c = left ∧
    ∀ later ∈ after, later.1.isMutation = true → later.1.key ≠ key

theorem lastWord_snoc {calls : List (Call × Reply)} {c : Call} {reply : Reply} {key : Bytes}
    {left : Option Bytes} (word : LastWord (calls ++ [(c, reply)]) key left) :
    (reply.isAcknowledged = true ∧ c.key = key ∧ leaves c = left) ∨
      (LastWord calls key left ∧ (c.isMutation = true → c.key ≠ key)) := by
  obtain ⟨before, c', reply', after, split, acknowledged, named, is, later⟩ := word
  rcases List.eq_nil_or_concat' after with rfl | ⟨init, last, rfl⟩
  · left
    obtain ⟨-, same⟩ := List.append_inj' split rfl
    cases same
    exact ⟨acknowledged, named, is⟩
  · right
    rw [← List.cons_append, ← List.append_assoc] at split
    obtain ⟨rfl, same⟩ := List.append_inj' split rfl
    cases same
    refine ⟨⟨before, c', reply', init, rfl, acknowledged, named, is, fun answered member =>
      later answered (List.mem_append_left _ member)⟩, ?_⟩
    exact later (c, reply) (List.mem_append_right _ (List.mem_singleton_self _))

/-- The log stands for a map that has the last word on every key. -/
def Kept (node : Node) (calls : List (Call × Reply)) : Prop :=
  ∃ storage, mapOf node.fs.content = some storage ∧
    ∀ key left, LastWord calls key left → storage.lookup key = left

/-! ## Appends that survive -/

/-- What this call's append leaves in the file can be read and replayed: nothing, or
an acceptable line of its own whose record applies to the map the log stands for. -/
def Survives (node : Node) (request : Outcomes × Call) : Prop :=
  ∀ record ∈ node.ledger.intent request.2,
    let part := node.engine.writer.accepted request.1 (recordLine record.val)
    part = [] ∨
      (Terminated lineFeed node.fs.content ∧ (deserialize part).isOk = true ∧
        ∀ storage ∈ mapOf node.fs.content, record.val.Applicable storage)

instance (node : Node) (request : Outcomes × Call) : Decidable (Survives node request) :=
  inferInstanceAs (Decidable (∀ record ∈ node.ledger.intent request.2,
    node.engine.writer.accepted request.1 (recordLine record.val) = [] ∨
      (Terminated lineFeed node.fs.content ∧
        (deserialize (node.engine.writer.accepted request.1 (recordLine record.val))).isOk = true ∧
        ∀ storage ∈ mapOf node.fs.content, record.val.Applicable storage)))

/-- The unterminated rest of the log is a part of one of the writer's lines. -/
structure OwnRest (node : Node) : Prop extends Ready node where
  rest : tail lineFeed node.fs.content = [] ∨
    ∃ record : ValidRecord, tail lineFeed node.fs.content <+: recordText record.val

theorem applicable_of_readAs {record other : WalRecord} (as : record.ReadAs other)
    (storage : InMemoryStorage) : other.Applicable storage ↔ record.Applicable storage := by
  rw [WalRecord.Applicable, WalRecord.Applicable, as.type_eq, as.key_eq]

/-- A line that is accepted acts as the record it is read as. -/
theorem lineEffect_of_decoded {line : Bytes} {record : WalRecord}
    (decoded : deserialize line = .success record) (storage : InMemoryStorage) :
    lineEffect line storage =
      if record.Applicable storage then some (record.applyTo storage) else none := by
  rw [lineEffect, decoded]
  exact applyRecord_valid ⟨record, deserialize_valid decoded⟩ storage

/-- **Behind an unterminated line that is accepted, no part of a further line is.** -/
theorem terminated_of_appended {node : Node} (own : OwnRest node) {record : ValidRecord}
    {part : Bytes} (isPrefix : part <+: recordLine record.val) (ne : part ≠ [])
    {before after : InMemoryStorage} (stands : mapOf node.fs.content = some before)
    (appended : mapOf (node.fs.content ++ part) = some after) :
    Terminated lineFeed node.fs.content := by
  by_contra cut
  have rest : tail lineFeed node.fs.content ≠ [] := fun h => cut ((tail_eq_nil lineFeed).1 h)
  rw [← body_append_tail lineFeed node.fs.content,
    (mapOf_line (body_terminated _ _) (sep_notMem_tail _ _) rest).1] at stands
  obtain ⟨whole, -, effect⟩ := Option.bind_eq_some_iff.1 stands
  have accepted : ∃ other, tail lineFeed node.fs.content = recordText other := by
    obtain ⟨owner, inText⟩ := own.rest.resolve_left rest
    obtain ⟨other, decoded, -⟩ := lineEffect_eq_some.1 effect
    exact ⟨other, ((deserialize_cut inText).1 decoded).2⟩
  obtain ⟨other, text⟩ := accepted
  rw [mapOf_appended _ isPrefix, if_neg (by simp [ne]), text] at appended
  obtain ⟨first, -, glued⟩ := Option.bind_eq_some_iff.1 appended
  have rejected := deserialize_recordText_glued other record.val ne isPrefix
  obtain ⟨result, decoded, -⟩ := lineEffect_eq_some.1 glued
  rw [decoded] at rejected
  cases rejected

/-- Behind whole lines, a part of a line acts as a line of its own. -/
theorem mapOf_appended_whole {content : Bytes} (terminated : Terminated lineFeed content)
    {record : WalRecord} {part : Bytes} (isPrefix : part <+: recordLine record) (ne : part ≠ []) :
    mapOf (content ++ part) = (mapOf content).bind (lineEffect part) := by
  rw [mapOf_appended content isPrefix, (tail_eq_nil lineFeed).2 terminated, List.nil_append,
    if_neg ne, body_of_terminated lineFeed terminated]

/-- A line that is accepted and applies keeps the last word on every key, that of an
acknowledged call included. -/
theorem kept_of_applied {node : Node} {calls : List (Call × Reply)} {c : Call} {reply : Reply}
    {record : ValidRecord} (intended : node.ledger.Intended c record.val) {other : WalRecord}
    (as : record.val.ReadAs other) (whole : reply.isAcknowledged = true → other = record.val)
    {storage : InMemoryStorage}
    (words : ∀ key left, LastWord calls key left → storage.lookup key = left) (key : Bytes)
    (left : Option Bytes) (word : LastWord (calls ++ [(c, reply)]) key left) :
    (other.applyTo storage).lookup key = left := by
  rcases lastWord_snoc word with ⟨acknowledged, rfl, rfl⟩ | ⟨old, others⟩
  · rw [whole acknowledged, ← intended.key, lookup_applyTo_self]
    rcases intended.shape with ⟨value, shape, is⟩ | ⟨shape, is⟩
    · rw [is, shape]
      rfl
    · rw [is, shape]
      rfl
  · have ne : key ≠ other.key := by
      rw [as.key_eq, intended.key]
      exact (others intended.mutation).symm
    rw [lookup_applyTo_of_ne other storage ne]
    exact words key left old

theorem kept_iff_survives {node : Node} {calls : List (Call × Reply)} (own : OwnRest node)
    (kept : Kept node calls) (request : Outcomes × Call) :
    Kept (node.step request).2 (remember calls request (node.step request).1) ↔
      Survives node request := by
  obtain ⟨outcomes, c⟩ := request
  obtain ⟨storage, stands, words⟩ := kept
  rcases step_cases own.toReady outcomes c with ⟨intent, eq⟩ | ⟨record, intent, logged⟩
  · rw [eq]
    constructor
    · intro _ record some
      rw [intent] at some
      cases some
    · refine fun _ => ⟨storage, stands, fun key left word => ?_⟩
      rcases lastWord_snoc word with ⟨acknowledged, -⟩ | ⟨old, -⟩
      · rw [Ledger.isAcknowledged_refusal intent] at acknowledged
        cases acknowledged
      · exact words key left old
  · have survives : Survives node (outcomes, c) ↔
        node.engine.writer.accepted outcomes (recordLine record.val) = [] ∨
          (Terminated lineFeed node.fs.content ∧
            (deserialize (node.engine.writer.accepted outcomes (recordLine record.val))).isOk =
              true ∧ record.val.Applicable storage) := by
      constructor
      · intro all
        rcases all record intent with none | ⟨terminated, accepted, applies⟩
        · exact Or.inl none
        · exact Or.inr ⟨terminated, accepted, applies storage stands⟩
      · rintro one other same
        rw [intent] at same
        cases Option.some.inj same
        rcases one with none | ⟨terminated, accepted, applies⟩
        · exact Or.inl none
        · refine Or.inr ⟨terminated, accepted, fun other same => ?_⟩
          cases Option.some.inj (stands.symm.trans same)
          exact applies
    have isPrefix := WalFileWriter.accepted_prefix node.engine.writer outcomes
      (recordLine record.val)
    have acknowledged : (node.step (outcomes, c)).1.isAcknowledged = true →
        node.engine.writer.accepted outcomes (recordLine record.val) = recordLine record.val :=
      fun h => WalFileWriter.accepted_of_appendSucceeds (logged.isAcknowledged.symm.trans h)
    rw [survives, Kept, logged.content]
    generalize node.engine.writer.accepted outcomes (recordLine record.val) = part at *
    by_cases none : part = []
    · rw [none, List.append_nil]
      refine ⟨fun _ => Or.inl rfl, fun _ => ⟨storage, stands, fun key left word => ?_⟩⟩
      rcases lastWord_snoc word with ⟨ok, -⟩ | ⟨old, -⟩
      · have whole := acknowledged ok
        rw [none] at whole
        exact absurd whole (by simp [recordLine])
      · exact words key left old
    · constructor
      · rintro ⟨after, appended, -⟩
        have terminated := terminated_of_appended own isPrefix none stands appended
        rw [mapOf_appended_whole terminated isPrefix none, stands] at appended
        obtain ⟨other, decoded, applied⟩ := lineEffect_eq_some.1 appended
        refine Or.inr ⟨terminated, by rw [decoded]; rfl, ?_⟩
        rw [applyRecord_valid ⟨other, deserialize_valid decoded⟩] at applied
        split at applied
        · next applicable =>
            exact (applicable_of_readAs (readAs_of_part isPrefix decoded).1 storage).1 applicable
        · cases applied
      · intro survives
        obtain ⟨terminated, accepted, applies⟩ := survives.resolve_left none
        obtain ⟨other, decoded⟩ := Result.isOk_iff.1 accepted
        obtain ⟨as, whole⟩ := readAs_of_part isPrefix decoded
        have applicable := (applicable_of_readAs as storage).2 applies
        refine ⟨other.applyTo storage, ?_, ?_⟩
        · rw [mapOf_appended_whole terminated isPrefix none, stands, Option.bind_some,
            lineEffect_of_decoded decoded, if_pos applicable]
        · exact kept_of_applied (Ledger.intended_of_intent intent) as
            (fun ok => whole (acknowledged ok)) words

theorem ownRest_step {node : Node} (own : OwnRest node) {request : Outcomes × Call}
    (survives : Survives node request) : OwnRest (node.step request).2 := by
  refine { ready_step own.toReady request with rest := ?_ }
  obtain ⟨outcomes, c⟩ := request
  rcases step_cases own.toReady outcomes c with ⟨intent, eq⟩ | ⟨record, intent, logged⟩
  · rw [eq]
    exact own.rest
  · have isPrefix := WalFileWriter.accepted_prefix node.engine.writer outcomes
      (recordLine record.val)
    rw [logged.content]
    rcases survives record intent with none | ⟨terminated, -⟩
    · rw [none, List.append_nil]
      exact own.rest
    · rcases part_cases isPrefix with whole | ⟨inText, clean⟩
      · left
        rw [tail_eq_nil, whole]
        exact terminated_append_recordLine _ _
      · right
        exact ⟨record, by rw [tail_append lineFeed terminated clean]; exact inText⟩

/-- **Acknowledged mutations are recovered exactly when every append survives.**  After
every part of a run a recovery returns OK with the last word on every key, exactly
when each append of the run leaves nothing or an acceptable line of its own. -/
theorem acknowledged_survive_iff {filePath : Bytes} {options : WalBackedStorageOptions}
    {fs : FileSystem} {requests : List (Outcomes × Call)} (absent : fs.file = none)
    (recovered : (launch filePath options fs).1 = .ok) :
    let start := (launch filePath options fs).2
    (∀ front, front <+: requests → ∀ orderly outcomes, outcomes.NoFailure →
      let again := (Machine.after step start front).restart orderly outcomes
      again.1 = .ok ∧ ∀ key left, LastWord (history start front) key left →
        again.2.engine.storage.lookup key = left) ↔
    Machine.Steps step Survives start requests := by
  intro start
  obtain ⟨synced, empty, ledger⟩ := fresh_start absent recovered
  have own : OwnRest start :=
    { synced.toReady with rest := Or.inl ((tail_eq_nil lineFeed).2 synced.terminated) }
  have kept : Kept start [] := by
    refine ⟨start.engine.storage, by rw [mapOf, synced.stands]; rfl, ?_⟩
    rintro key left ⟨before, c, reply, after, split, -⟩
    exact absurd split (by simp)
  have all : (∀ front, front <+: requests →
      Kept (Machine.after step start front) (Machine.noted step remember start [] front)) ↔
        Machine.Steps step Survives start requests :=
    @Machine.prefix_iff_steps _ _ _ step _ remember (fun node _ => OwnRest node) Kept Survives
      (fun _ _ request own kept => kept_iff_survives own kept request)
      (fun _ _ request own _ survives => ownRest_step own survives) start [] requests own kept
  rw [← all]
  refine forall_congr' fun front => imp_congr_right fun isPrefix => ?_
  have ready := (run_extends synced.toReady front).1
  rw [noted_remember, List.nil_append]
  constructor
  · intro again
    obtain ⟨status, words⟩ := again false {} Outcomes.noFailure_default
    have launched := (restart_ok (by rw [status]; rfl)).2
    exact ⟨_, by rw [mapOf, launched.stands]; rfl, words⟩
  · rintro ⟨storage, stands, words⟩ orderly outcomes clean again
    obtain ⟨found, foundLedger, rfl⟩ := Option.map_eq_some_iff.1 stands
    obtain ⟨status, launched⟩ := restart_ok ((restart_isOk_iff ready orderly clean).2
      (by rw [foundLedger]; rfl))
    have same : again.2.engine.storage = found.storage :=
      congrArg Ledger.storage (Option.some.inj (launched.stands.symm.trans foundLedger))
    refine ⟨status, fun key left word => ?_⟩
    rw [same]
    exact words key left word

/-- A write that fails behind three bytes. -/
def tornSet : Outcomes × Call :=
  ({ writes := [.accepted 2, .failed (.other (bytes "No space left on device"))] },
    .set (bytes "k") (bytes "v"))

/-- One set, acknowledged behind a torn one, and no recovery any more. -/
theorem acknowledged_set_lost :
    let start := (launch (bytes "wal") {} (.holding none)).2
    let torn := start.step tornSet
    let set := torn.2.step ({}, .set (bytes "l") (bytes "w"))
    torn.1 = .status (.unavailable (bytes "failed to write WAL record: No space left on device")) ∧
      set.1 = .status .ok ∧ (set.2.restart false {}).1 = .invalidArgument (bytes
        "failed to parse WAL record at line 1: unsupported WAL record format version") := by
  decide

/-- A set whose fsync failed, and the same set again: two lines, both readable. -/
theorem acknowledged_survive_retry :
    let start := (launch (bytes "wal") {} (.holding none)).2
    let requests : List (Outcomes × Call) :=
      [({ fsyncs := [.failed (.other (bytes "Input/output error"))] },
        .set (bytes "k") (bytes "v")), ({}, .set (bytes "k") (bytes "v"))]
    ∀ front, front <+: requests → ∀ orderly outcomes, outcomes.NoFailure →
      let again := (Machine.after step start front).restart orderly outcomes
      again.1 = .ok ∧ ∀ key left, LastWord (history start front) key left →
        again.2.engine.storage.lookup key = left :=
  (@acknowledged_survive_iff (bytes "wal") {} (.holding none) _ rfl (by decide)).2 (by decide)

end Node

end AsterKV.Wal
