/-
# AsterKV.Wal.Replay -- records applied to a storage

Replay hands each record's mutation to a target and stops at the first one the
target refuses.  Replay that goes through is the journal replay of
`Theory.Journal` (`replayRecords_ok_iff`); the in-memory target refuses only a del
of an absent key.
-/
import AsterKV.Storage.InMemoryStorage
import AsterKV.Theory.Journal
import AsterKV.Wal.Record

namespace AsterKV.Wal

open AsterKV.Core AsterKV.Storage Theory

set_option autoImplicit false

class WalReplayTarget (τ : Type) where
  set : τ → Bytes → Bytes → Status × τ
  del : τ → Bytes → Status × τ

section

variable {τ : Type} [WalReplayTarget τ]

def replayRecord (record : WalRecord) (target : τ) : Status × τ :=
  let validationStatus := validateWalRecord record
  if !validationStatus.isOk then (validationStatus, target)
  else match record.type with
    | .set => WalReplayTarget.set target record.key record.value
    | .del => WalReplayTarget.del target record.key

def replayRecords : List WalRecord → τ → Status × τ
  | [], target => (.ok, target)
  | record :: rest, target =>
      let (status, target) := replayRecord record target
      if !status.isOk then (status, target) else replayRecords rest target

/-- The effect of a record the target accepts. -/
def applyRecord (record : WalRecord) (target : τ) : Option τ :=
  let (status, target) := replayRecord record target
  if status.isOk then some target else none

theorem replayRecords_cons (record : WalRecord) (rest : List WalRecord) (s : τ) :
    replayRecords (record :: rest) s =
      if !(replayRecord record s).1.isOk then replayRecord record s
      else replayRecords rest (replayRecord record s).2 := rfl

theorem applyRecord_eq (record : WalRecord) (s : τ) :
    applyRecord record s =
      if (replayRecord record s).1.isOk then some (replayRecord record s).2 else none := rfl

/-- **A replay returns OK exactly when the journal replays, with the same target.** -/
theorem replayRecords_ok_iff {records : List WalRecord} {s t : τ} :
    replayRecords records s = (.ok, t) ↔ Journal.replay applyRecord records s = some t := by
  induction records generalizing s with
  | nil => simp [replayRecords]
  | cons record rest ih =>
      rw [replayRecords_cons, Journal.replay_cons, applyRecord_eq]
      by_cases accepted : (replayRecord record s).1.isOk = true
      · rw [if_pos accepted, accepted, Option.bind_some]
        exact ih
      · have refused : (replayRecord record s).1.isOk = false := by simpa using accepted
        rw [if_neg accepted, refused]
        constructor
        · intro h
          have ok : (replayRecord record s).1.isOk = true := by
            rw [show replayRecord record s = (.ok, t) from h]
            rfl
          exact absurd ok accepted
        · intro h
          cases h

/-- A replay that does not go through returns a failing status. -/
theorem replayRecords_not_ok {records : List WalRecord} {s : τ}
    (stuck : Journal.replay applyRecord records s = none) :
    (replayRecords records s).1.isOk = false := by
  induction records generalizing s with
  | nil => cases stuck
  | cons record rest ih =>
      rw [Journal.replay_cons, applyRecord_eq] at stuck
      rw [replayRecords_cons]
      by_cases accepted : (replayRecord record s).1.isOk = true
      · rw [if_pos accepted, Option.bind_some] at stuck
        rw [accepted]
        exact ih stuck
      · have refused : (replayRecord record s).1.isOk = false := by simpa using accepted
        rw [refused]
        exact refused

end

/-- `InMemoryWalReplayTarget`. -/
instance : WalReplayTarget InMemoryStorage where
  set := InMemoryStorage.set
  del := InMemoryStorage.remove

/-! ## Replay into memory -/

/-- The map a record leaves behind. -/
def WalRecord.applyTo (record : WalRecord) (storage : InMemoryStorage) : InMemoryStorage :=
  match record.type with
  | .set => storage.insert record.key record.value
  | .del => storage.erase record.key

/-- A del needs its key. -/
def WalRecord.Applicable (record : WalRecord) (storage : InMemoryStorage) : Prop :=
  record.type = .del → (storage.lookup record.key).isSome

instance (record : WalRecord) (storage : InMemoryStorage) :
    Decidable (record.Applicable storage) := by
  unfold WalRecord.Applicable
  infer_instance

/-- A valid record is accepted exactly when it applies. -/
theorem applyRecord_valid (record : ValidRecord) (storage : InMemoryStorage) :
    applyRecord record.val storage =
      if record.val.Applicable storage then some (record.val.applyTo storage) else none := by
  have kind : record.val.type = .set ∨ record.val.type = .del := by
    cases record.val.type <;> simp
  unfold applyRecord replayRecord WalRecord.applyTo WalRecord.Applicable
  simp only [record.property, Bool.not_true, Bool.false_eq_true, if_false]
  rcases kind with kind | kind
  · have accepted : WalReplayTarget.set storage record.val.key record.val.value =
        (.ok, storage.insert record.val.key record.val.value) :=
      InMemoryStorage.set_of_ne record.key_ne_nil
    simp only [kind, accepted, reduceCtorEq, false_implies, if_true, Status.isOk_ok]
  · rcases Option.eq_none_or_eq_some (storage.lookup record.val.key) with absent | ⟨value, found⟩
    · have refused : WalReplayTarget.del storage record.val.key =
          (InMemoryStorage.keyNotFoundStatus, storage) :=
        InMemoryStorage.remove_of_absent record.key_ne_nil absent
      simp [kind, refused, absent, InMemoryStorage.keyNotFoundStatus]
    · have accepted : WalReplayTarget.del storage record.val.key =
          (.ok, storage.erase record.val.key) :=
        InMemoryStorage.remove_of_lookup record.key_ne_nil found
      simp [kind, accepted, found]

theorem applyRecord_of_applicable {record : ValidRecord} {storage : InMemoryStorage}
    (applicable : record.val.Applicable storage) :
    applyRecord record.val storage = some (record.val.applyTo storage) := by
  rw [applyRecord_valid, if_pos applicable]

/-- The map a log stands for, replayed into an empty storage. -/
def restored (records : List WalRecord) : Option InMemoryStorage :=
  Journal.replay applyRecord records InMemoryStorage.empty

theorem restored_snoc {records : List WalRecord} {storage : InMemoryStorage}
    (faithful : restored records = some storage) (record : ValidRecord) :
    restored (records ++ [record.val]) =
      if record.val.Applicable storage then some (record.val.applyTo storage) else none := by
  have faithful' : Journal.replay applyRecord records InMemoryStorage.empty = some storage :=
    faithful
  rw [restored, Journal.replay_snoc, faithful', Option.bind_some, applyRecord_valid]

/-! ## Looking a key up after a record -/

theorem lookup_applyTo_of_ne (record : WalRecord) (storage : InMemoryStorage) {key : Bytes}
    (ne : key ≠ record.key) : (record.applyTo storage).lookup key = storage.lookup key := by
  unfold WalRecord.applyTo
  split
  · exact InMemoryStorage.lookup_insert_of_ne storage _ ne
  · exact InMemoryStorage.lookup_erase_of_ne storage ne

theorem lookup_applyTo_self (record : WalRecord) (storage : InMemoryStorage) :
    (record.applyTo storage).lookup record.key =
      match record.type with
      | .set => some record.value
      | .del => none := by
  unfold WalRecord.applyTo
  split <;> simp_all

/-- A log that replays with one more record replays without it, to a map the record
applies to. -/
theorem restored_snoc_inv {records : List WalRecord} {record : ValidRecord}
    {storage : InMemoryStorage} (replayed : restored (records ++ [record.val]) = some storage) :
    ∃ before, restored records = some before ∧ record.val.Applicable before ∧
      storage = record.val.applyTo before := by
  rw [restored, Journal.replay_snoc] at replayed
  obtain ⟨before, first, applied⟩ := Option.bind_eq_some_iff.1 replayed
  rw [applyRecord_valid] at applied
  split at applied
  · next applicable => exact ⟨before, first, applicable, (Option.some.inj applied).symm⟩
  · cases applied

/-- Everything a replayed map holds was set by one of the records. -/
theorem lookup_restored {records : List WalRecord}
    (valid : ∀ record ∈ records, (validateWalRecord record).isOk = true)
    {storage : InMemoryStorage} (replayed : restored records = some storage) {key value : Bytes}
    (found : storage.lookup key = some value) :
    ∃ record ∈ records, record.type = .set ∧ record.key = key ∧ record.value = value := by
  induction records using List.reverseRecOn generalizing storage with
  | nil =>
      cases Option.some.inj replayed
      rw [InMemoryStorage.lookup_empty] at found
      cases found
  | append_singleton rest record ih =>
      have validLast := valid record (List.mem_append_right _ List.mem_cons_self)
      obtain ⟨before, first, -, rfl⟩ :=
        @restored_snoc_inv rest ⟨record, validLast⟩ _ replayed
      by_cases same : key = record.key
      · subst same
        rw [lookup_applyTo_self] at found
        refine ⟨record, List.mem_append_right _ List.mem_cons_self, ?_⟩
        cases kind : record.type with
        | set =>
            rw [kind] at found
            exact ⟨rfl, rfl, Option.some.inj found⟩
        | del =>
            rw [kind] at found
            cases found
      · rw [lookup_applyTo_of_ne record before same] at found
        obtain ⟨other, member, is⟩ :=
          ih (fun r inRest => valid r (List.mem_append_left _ inRest)) first found
        exact ⟨other, List.mem_append_left _ member, is⟩

end AsterKV.Wal
