/-
# AsterKV.Wal.Record -- the mutations the log holds

A record is a sequence number with one mutation.  `validateWalRecord` is the only
gate: a `ValidRecord` carries its acceptance, so the codec and the replay never
check again what a value of that type already says.
-/
import AsterKV.Core.Status

namespace AsterKV.Wal

open AsterKV.Core

set_option autoImplicit false

abbrev WalSequenceNumber := UInt64

inductive WalRecordType where
  | set
  | del
  deriving DecidableEq, Repr

structure WalRecord where
  sequenceNumber : WalSequenceNumber
  type : WalRecordType
  key : Bytes
  value : Bytes
  deriving DecidableEq, Repr

def walRecordTypeToString : WalRecordType → Bytes
  | .set => bytes "set"
  | .del => bytes "del"

def validateWalRecord (record : WalRecord) : Status :=
  if record.sequenceNumber = 0 then
    .invalidArgument (bytes "WAL record sequence number must be greater than zero")
  else if record.key.isEmpty then
    .invalidArgument (bytes "WAL record key must not be empty")
  else match record.type with
    | .set =>
        if record.value.isEmpty then
          .invalidArgument (bytes "WAL set record value must not be empty")
        else .ok
    | .del =>
        if !record.value.isEmpty then .invalidArgument (bytes "WAL del record must be empty")
        else .ok

def makeSetRecord (number : WalSequenceNumber) (key value : Bytes) : WalRecord :=
  { sequenceNumber := number, type := .set, key := key, value := value }

def makeDelRecord (number : WalSequenceNumber) (key : Bytes) : WalRecord :=
  { sequenceNumber := number, type := .del, key := key, value := [] }

/-- A record the validation accepts. -/
abbrev ValidRecord := { record : WalRecord // (validateWalRecord record).isOk = true }

/-! ## What validation accepts -/

/-- A record's value fits its type: some bytes for a set, none for a del. -/
def WalRecord.ValueFits (record : WalRecord) : Prop :=
  match record.type with
  | .set => record.value ≠ []
  | .del => record.value = []

/-- The checks have one answer each: a record is accepted, and then the status is
plain OK, exactly when number, key and value all fit. -/
theorem validateWalRecord_isOk_iff (record : WalRecord) :
    (validateWalRecord record).isOk = true ↔
      record.sequenceNumber ≠ 0 ∧ record.key ≠ [] ∧ record.ValueFits := by
  obtain ⟨number, type, key, value⟩ := record
  by_cases zero : number = 0
  · simp [validateWalRecord, zero]
  · by_cases emptyKey : key = []
    · simp [validateWalRecord, zero, emptyKey]
    · cases type <;> by_cases emptyValue : value = [] <;>
        simp [validateWalRecord, WalRecord.ValueFits, zero, emptyKey, emptyValue]

theorem validateWalRecord_code (record : WalRecord) :
    validateWalRecord record = .ok ∨ (validateWalRecord record).code = .invalidArgument := by
  unfold validateWalRecord
  split
  · exact Or.inr rfl
  · split
    · exact Or.inr rfl
    · split <;> split <;> first | exact Or.inr rfl | exact Or.inl rfl

theorem validate_makeSetRecord (number : WalSequenceNumber) (key value : Bytes) :
    (validateWalRecord (makeSetRecord number key value)).isOk = true ↔
      number ≠ 0 ∧ key ≠ [] ∧ value ≠ [] :=
  validateWalRecord_isOk_iff _

theorem validate_makeDelRecord (number : WalSequenceNumber) (key : Bytes) :
    (validateWalRecord (makeDelRecord number key)).isOk = true ↔ number ≠ 0 ∧ key ≠ [] := by
  rw [validateWalRecord_isOk_iff]
  simp [makeDelRecord, WalRecord.ValueFits]

namespace ValidRecord

theorem number_ne_zero (record : ValidRecord) : record.val.sequenceNumber ≠ 0 :=
  ((validateWalRecord_isOk_iff _).1 record.property).1

theorem key_ne_nil (record : ValidRecord) : record.val.key ≠ [] :=
  ((validateWalRecord_isOk_iff _).1 record.property).2.1

theorem valueFits (record : ValidRecord) : record.val.ValueFits :=
  ((validateWalRecord_isOk_iff _).1 record.property).2.2

theorem value_eq_nil_of_del {record : ValidRecord} (del : record.val.type = .del) :
    record.val.value = [] := by
  have := record.valueFits
  simpa [WalRecord.ValueFits, del] using this

end ValidRecord

end AsterKV.Wal
