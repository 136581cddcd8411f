/-
# AsterKV.Wal.RecordCodec -- one record as one line of text

`AKVWAL1 <number> <type> <key hex> <value hex>` and a line feed.  Keys and values
are hex, an empty field is `-`, so no byte of a key or value can be a space or a
line feed (`FieldText`).  The second half proves that the decoder is a left
inverse of the encoder, with or without the line ending.
-/
import AsterKV.Core.Decimal
import AsterKV.Wal.Record

namespace AsterKV.Wal

open AsterKV.Core

set_option autoImplicit false

def currentWalRecordFormatVersion : Bytes := bytes "AKVWAL1"

def emptyWalFieldMarker : Bytes := bytes "-"

/-! ## Encoding -/

def hexDigits : List UInt8 := bytes "0123456789abcdef"

def toHex (value : UInt8) : UInt8 := hexDigits.getD (value &&& 0x0F).toNat 0

def hexEncode (value : Bytes) : Bytes := value.flatMap fun (b : UInt8) => [toHex (b >>> 4), toHex b]

def encodeWalField (value : Bytes) : Bytes :=
  if value.isEmpty then emptyWalFieldMarker else hexEncode value

def serialize (record : WalRecord) : Result Bytes :=
  let validationStatus := validateWalRecord record
  if !validationStatus.isOk then .failure validationStatus
  else .success (currentWalRecordFormatVersion ++ [space] ++
    toDecimal record.sequenceNumber.toNat ++ [space] ++
    walRecordTypeToString record.type ++ [space] ++
    encodeWalField record.key ++ [space] ++ encodeWalField record.value ++ [lineFeed])

/-! ## Decoding -/

def isHexDigit (value : UInt8) : Bool :=
  (byte '0' ≤ value && value ≤ byte '9') || (byte 'a' ≤ value && value ≤ byte 'f') ||
    (byte 'A' ≤ value && value ≤ byte 'F')

def fromHex (value : UInt8) : Result UInt8 :=
  if byte '0' ≤ value && value ≤ byte '9' then .success (value - byte '0')
  else if byte 'a' ≤ value && value ≤ byte 'f' then .success (10 + value - byte 'a')
  else if byte 'A' ≤ value && value ≤ byte 'F' then .success (10 + value - byte 'A')
  else .failure (.invalidArgument (bytes "invalid hex digit"))

/-- The loop of `hexDecode`, two digits at a step. -/
def hexDecodePairs : Bytes → Result Bytes
  | first :: second :: rest =>
      if !isHexDigit first || !isHexDigit second then
        .failure (.invalidArgument (bytes "hex field contains invalid digit"))
      else do
        let high ← fromHex first
        let low ← fromHex second
        let out ← hexDecodePairs rest
        return ((high <<< 4) ||| low) :: out
  | _ => .success []

def hexDecode (value : Bytes) : Result Bytes :=
  if value == emptyWalFieldMarker then .success []
  else if value.isEmpty then .failure (.invalidArgument (bytes "hex field must not be empty"))
  else if value.length % 2 ≠ 0 then
    .failure (.invalidArgument (bytes "hex field has odd length"))
  else hexDecodePairs value

def parseSequenceNumber (value : Bytes) : Result WalSequenceNumber :=
  parseUnsigned (bytes "WAL sequence number is empty") (bytes "WAL sequence number is not numeric")
    (bytes "WAL sequence number is too large") value

def parseRecordType (value : Bytes) : Result WalRecordType :=
  if value == bytes "set" then .success .set
  else if value == bytes "del" then .success .del
  else .failure (.invalidArgument (bytes "unknown WAL record type"))

/-- One line feed, then one carriage return. -/
def stripLineEnding (value : Bytes) : Bytes :=
  let value := if endsWith value lineFeed then value.dropLast else value
  if endsWith value carriageReturn then value.dropLast else value

/-- The parts before, between and after single spaces. -/
def splitBySingleSpaces (value : Bytes) : List Bytes := value.splitOn space

def hasEmptyPart (parts : List Bytes) : Bool := parts.any List.isEmpty

/-- `deserialize` once the five parts are there. -/
def decodeParts (version number type key value : Bytes) : Result WalRecord :=
  if version ≠ currentWalRecordFormatVersion then
    .failure (.invalidArgument (bytes "unsupported WAL record format version"))
  else do
    let seqNumber ← parseSequenceNumber number
    let recordType ← parseRecordType type
    let key ← hexDecode key
    let value ← hexDecode value
    let record : WalRecord :=
      { sequenceNumber := seqNumber, type := recordType, key := key, value := value }
    let validationStatus := validateWalRecord record
    if !validationStatus.isOk then .failure validationStatus
    else .success record

def fieldCountStatus : Status :=
  .invalidArgument (bytes "serialized WAL record must contain 5 fields")

/-- `deserialize` on the parts of the line. -/
def decodeFields : List Bytes → Result WalRecord
  | [version, number, type, key, value] =>
      if hasEmptyPart [version, number, type, key, value] then .failure fieldCountStatus
      else decodeParts version number type key value
  | _ => .failure fieldCountStatus

def deserialize (serialized : Bytes) : Result WalRecord :=
  let serialized := stripLineEnding serialized
  if serialized.isEmpty then
    .failure (.invalidArgument (bytes "serialized WAL record is empty"))
  else decodeFields (splitBySingleSpaces serialized)

/-! ## Hex -/

/-- A fact about every byte is a fact about 256 numbers. -/
theorem forall_byte {P : UInt8 → Prop} (all : ∀ n < 256, P (UInt8.ofNat n)) (b : UInt8) : P b := by
  have := all b.toNat b.toNat_lt
  rwa [UInt8.ofNat_toNat] at this

set_option maxRecDepth 4000 in
theorem isHexDigit_toHex (b : UInt8) : isHexDigit (toHex b) = true := by
  revert b
  apply forall_byte
  decide

set_option maxRecDepth 4000 in
theorem fromHex_toHex (b : UInt8) : fromHex (toHex b) = .success (b &&& 0x0F) := by
  revert b
  apply forall_byte
  decide

set_option maxRecDepth 4000 in
theorem joinNibbles (b : UInt8) : (((b >>> 4) &&& 0x0F) <<< 4) ||| (b &&& 0x0F) = b := by
  revert b
  apply forall_byte
  decide

@[simp] theorem hexEncode_nil : hexEncode [] = [] := rfl

theorem hexEncode_cons (b : UInt8) (rest : Bytes) :
    hexEncode (b :: rest) = toHex (b >>> 4) :: toHex b :: hexEncode rest := rfl

@[simp] theorem length_hexEncode (value : Bytes) : (hexEncode value).length = 2 * value.length := by
  induction value with
  | nil => rfl
  | cons b rest ih =>
      rw [hexEncode_cons, List.length_cons, List.length_cons, ih, List.length_cons]
      omega

theorem isHexDigit_of_mem_hexEncode {value : Bytes} {ch : UInt8} (member : ch ∈ hexEncode value) :
    isHexDigit ch = true := by
  obtain ⟨b, -, digit⟩ := List.mem_flatMap.1 member
  rcases List.mem_cons.1 digit with rfl | digit
  · exact isHexDigit_toHex _
  · rw [List.mem_singleton.1 digit]
    exact isHexDigit_toHex _

/-- An even prefix of an encoding is the encoding of a prefix. -/
theorem take_hexEncode (value : Bytes) (i : Nat) :
    (hexEncode value).take (2 * i) = hexEncode (value.take i) := by
  induction value generalizing i with
  | nil => simp
  | cons b rest ih =>
      cases i with
      | zero => simp
      | succ i =>
          have twice : 2 * (i + 1) = 2 * i + 1 + 1 := by omega
          rw [twice, hexEncode_cons, List.take_succ_cons, List.take_succ_cons, ih,
            List.take_succ_cons, hexEncode_cons]

theorem hexDecodePairs_hexEncode (value : Bytes) :
    hexDecodePairs (hexEncode value) = .success value := by
  induction value with
  | nil => rfl
  | cons b rest ih =>
      rw [hexEncode_cons, hexDecodePairs, isHexDigit_toHex, isHexDigit_toHex, fromHex_toHex,
        fromHex_toHex, ih]
      exact congrArg (fun b => Result.success (b :: rest)) (joinNibbles b)

theorem hexDecode_hexEncode {value : Bytes} (ne : value ≠ []) :
    hexDecode (hexEncode value) = .success value := by
  have length := length_hexEncode value
  have pos : 0 < value.length := List.length_pos_iff.2 ne
  have notMarker : hexEncode value ≠ emptyWalFieldMarker := by
    intro same
    have one : emptyWalFieldMarker.length = 1 := by decide
    rw [same, one] at length
    omega
  have notEmpty : hexEncode value ≠ [] := by
    intro same
    rw [same, List.length_nil] at length
    omega
  have even : (hexEncode value).length % 2 = 0 := by omega
  simp only [hexDecode, beq_iff_eq, notMarker, List.isEmpty_iff, notEmpty, even, ne_eq,
    not_true_eq_false, if_false]
  exact hexDecodePairs_hexEncode value

theorem hexDecode_encodeWalField (value : Bytes) :
    hexDecode (encodeWalField value) = .success value := by
  unfold encodeWalField
  split
  · rename_i empty
    rw [List.isEmpty_iff.1 empty]
    rfl
  · rename_i ne
    exact hexDecode_hexEncode fun h => ne (by simp [h])

/-! ## No field holds a separator -/

/-- Non-empty text without a space or a line ending. -/
def FieldText (value : Bytes) : Prop :=
  value ≠ [] ∧ ∀ ch ∈ value, ch ≠ space ∧ ch ≠ lineFeed ∧ ch ≠ carriageReturn

instance (value : Bytes) : Decidable (FieldText value) :=
  have : Decidable (∀ ch ∈ value, ch ≠ space ∧ ch ≠ lineFeed ∧ ch ≠ carriageReturn) :=
    List.decidableBAll _ value
  inferInstanceAs (Decidable (value ≠ [] ∧ _))

namespace FieldText

variable {value : Bytes}

theorem space_notMem (text : FieldText value) : space ∉ value := fun h => (text.2 _ h).1 rfl

theorem lineFeed_notMem (text : FieldText value) : lineFeed ∉ value := fun h => (text.2 _ h).2.1 rfl

end FieldText

set_option maxRecDepth 4000 in
theorem separators_of_isHexDigit (b : UInt8) :
    isHexDigit b = true → b ≠ space ∧ b ≠ lineFeed ∧ b ≠ carriageReturn := by
  revert b
  apply forall_byte
  decide

set_option maxRecDepth 4000 in
theorem separators_of_isDigit (b : UInt8) :
    isDigit b = true → b ≠ space ∧ b ≠ lineFeed ∧ b ≠ carriageReturn := by
  revert b
  apply forall_byte
  decide

theorem fieldText_version : FieldText currentWalRecordFormatVersion := by decide

theorem fieldText_number (n : Nat) : FieldText (toDecimal n) :=
  ⟨toDecimal_ne_nil n, fun ch member => separators_of_isDigit ch (isDigit_of_mem_toDecimal member)⟩

theorem fieldText_type (type : WalRecordType) : FieldText (walRecordTypeToString type) := by
  cases type <;> decide

theorem fieldText_hexEncode {value : Bytes} (ne : value ≠ []) : FieldText (hexEncode value) := by
  refine ⟨fun h => ?_, fun ch member => separators_of_isHexDigit ch
    (isHexDigit_of_mem_hexEncode member)⟩
  have length := length_hexEncode value
  rw [h, List.length_nil] at length
  exact ne (List.length_eq_zero_iff.1 (by omega))

theorem fieldText_encodeWalField (value : Bytes) : FieldText (encodeWalField value) := by
  unfold encodeWalField
  split
  · decide
  · rename_i ne
    exact fieldText_hexEncode fun h => ne (by simp [h])

/-! ## The line of a record -/

/-- Everything before the value field. -/
def recordHead (record : WalRecord) : Bytes :=
  currentWalRecordFormatVersion ++ space :: (toDecimal record.sequenceNumber.toNat ++
    space :: (walRecordTypeToString record.type ++ space :: (encodeWalField record.key ++ [space])))

/-- The line without its line feed. -/
def recordText (record : WalRecord) : Bytes := recordHead record ++ encodeWalField record.value

/-- What `serialize` produces for a valid record. -/
def recordLine (record : WalRecord) : Bytes := recordText record ++ [lineFeed]

theorem serialize_valid (record : ValidRecord) :
    serialize record.val = .success (recordLine record.val) := by
  simp [serialize, record.property, recordLine, recordText, recordHead, List.append_assoc]

theorem serialize_invalid {record : WalRecord} (invalid : (validateWalRecord record).isOk = false) :
    serialize record = .failure (validateWalRecord record) := by
  simp [serialize, invalid]

/-- A head and any text without spaces are the five parts of a line; what stands
before the head without a space becomes part of the first. -/
theorem splitBySingleSpaces_head {front field : Bytes} (cleanFront : space ∉ front)
    (record : WalRecord) (clean : space ∉ field) :
    splitBySingleSpaces (front ++ (recordHead record ++ field)) =
      [front ++ currentWalRecordFormatVersion, toDecimal record.sequenceNumber.toNat,
        walRecordTypeToString record.type, encodeWalField record.key, field] := by
  have first : space ∉ front ++ currentWalRecordFormatVersion := by
    rw [List.mem_append, not_or]
    exact ⟨cleanFront, fieldText_version.space_notMem⟩
  have split : front ++ (recordHead record ++ field) =
      (front ++ currentWalRecordFormatVersion) ++
        space :: (toDecimal record.sequenceNumber.toNat ++
          space :: (walRecordTypeToString record.type ++
            space :: (encodeWalField record.key ++ space :: field))) := by
    simp [recordHead, List.append_assoc]
  rw [splitBySingleSpaces, split, List.splitOn_append_cons_self_of_not_mem first,
    List.splitOn_append_cons_self_of_not_mem (fieldText_number _).space_notMem,
    List.splitOn_append_cons_self_of_not_mem (fieldText_type _).space_notMem,
    List.splitOn_append_cons_self_of_not_mem (fieldText_encodeWalField _).space_notMem,
    List.splitOn_eq_singleton clean]

theorem stripLineEnding_of_clean_end {value : Bytes} (lf : value.getLast? ≠ some lineFeed)
    (cr : value.getLast? ≠ some carriageReturn) : stripLineEnding value = value := by
  have noLf : endsWith value lineFeed = false := by simpa [endsWith] using lf
  have noCr : endsWith value carriageReturn = false := by simpa [endsWith] using cr
  simp [stripLineEnding, noLf, noCr]

/-- A text that ends with a field has no line ending to strip. -/
theorem stripLineEnding_append_field (front : Bytes) {field : Bytes} (text : FieldText field) :
    stripLineEnding (front ++ field) = front ++ field := by
  obtain ⟨ne, clean⟩ := text
  have last : (front ++ field).getLast? = some (field.getLast ne) := by
    rw [List.getLast?_append, List.getLast?_eq_some_getLast ne, Option.some_or]
  have ends := clean _ (List.getLast_mem ne)
  apply stripLineEnding_of_clean_end
  · rw [last]
    exact fun h => ends.2.1 (Option.some.inj h)
  · rw [last]
    exact fun h => ends.2.2 (Option.some.inj h)

/-- Reading a head with some field after it runs the field checks. -/
theorem deserialize_head (record : WalRecord) {field : Bytes} (text : FieldText field) :
    deserialize (recordHead record ++ field) =
      decodeParts currentWalRecordFormatVersion (toDecimal record.sequenceNumber.toNat)
        (walRecordTypeToString record.type) (encodeWalField record.key) field := by
  have ne : recordHead record ++ field ≠ [] := fun h => text.1 (List.append_eq_nil_iff.1 h).2
  have noEmpty : hasEmptyPart [currentWalRecordFormatVersion,
      toDecimal record.sequenceNumber.toNat, walRecordTypeToString record.type,
      encodeWalField record.key, field] = false := by
    simp [hasEmptyPart, fieldText_version.1, (fieldText_number _).1, (fieldText_type _).1,
      (fieldText_encodeWalField _).1, text.1]
  rw [deserialize, stripLineEnding_append_field _ text]
  simp only [List.isEmpty_iff, ne, if_false]
  have parts := splitBySingleSpaces_head (List.not_mem_nil (a := space)) record text.space_notMem
  rw [List.nil_append, List.nil_append] at parts
  rw [parts, decodeFields, noEmpty]
  rfl

theorem parseRecordType_walRecordTypeToString (type : WalRecordType) :
    parseRecordType (walRecordTypeToString type) = .success type := by
  cases type <;> decide

/-- The field checks on a record's own fields but the value come down to the
value and the validation. -/
theorem decodeParts_fields (record : WalRecord) (field : Bytes) :
    decodeParts currentWalRecordFormatVersion (toDecimal record.sequenceNumber.toNat)
        (walRecordTypeToString record.type) (encodeWalField record.key) field =
      (hexDecode field).bind fun value =>
        if !(validateWalRecord { record with value := value }).isOk then
          Result.failure (validateWalRecord { record with value := value })
        else Result.success { record with value := value } := by
  unfold decodeParts
  rw [parseSequenceNumber, parseUnsigned_toDecimal, parseRecordType_walRecordTypeToString,
    hexDecode_encodeWalField]
  rfl

/-- **The decoder inverts the encoder on a line without its line feed.** -/
theorem deserialize_recordText (record : ValidRecord) :
    deserialize (recordText record.val) = .success record.val := by
  rw [recordText, deserialize_head _ (fieldText_encodeWalField _), decodeParts_fields,
    hexDecode_encodeWalField]
  simp only [Result.success, Except.bind, record.property, Bool.not_true, Bool.false_eq_true,
    if_false]

theorem lineFeed_notMem_recordText (record : WalRecord) : lineFeed ∉ recordText record := by
  have notSpace : lineFeed ≠ space := by decide
  simp [recordText, recordHead, notSpace, fieldText_version.lineFeed_notMem,
    (fieldText_number _).lineFeed_notMem, (fieldText_type _).lineFeed_notMem,
    (fieldText_encodeWalField _).lineFeed_notMem]

theorem recordText_ne_nil (record : WalRecord) : recordText record ≠ [] := fun h =>
  (fieldText_encodeWalField record.value).1 (List.append_eq_nil_iff.1 h).2

/-- A part of a line is all of it, or a part of its text, without the line feed. -/
theorem part_cases {record : WalRecord} {part : Bytes} (isPrefix : part <+: recordLine record) :
    part = recordLine record ∨ (part <+: recordText record ∧ lineFeed ∉ part) := by
  rcases List.prefix_concat_iff.1 isPrefix with whole | inText
  · exact Or.inl whole
  · exact Or.inr ⟨inText, fun h => lineFeed_notMem_recordText record (inText.subset h)⟩

/-! ## What is decoded -/

theorem parseRecordType_eq_success {text : Bytes} {type : WalRecordType}
    (parsed : parseRecordType text = .success type) : text = walRecordTypeToString type := by
  unfold parseRecordType at parsed
  split at parsed
  · next same =>
      cases Except.ok.inj parsed
      exact beq_iff_eq.1 same
  · split at parsed
    · next same =>
        cases Except.ok.inj parsed
        exact beq_iff_eq.1 same
    · cases parsed

/-- What the chain of checks says of the parts and of the record. -/
theorem decodeParts_checks {version number type key value : Bytes} {record : WalRecord}
    (decoded : decodeParts version number type key value = .success record) :
    version = bytes "AKVWAL1" ∧ parseSequenceNumber number = .success record.sequenceNumber ∧
      type = walRecordTypeToString record.type ∧ hexDecode key = .success record.key ∧
      hexDecode value = .success record.value ∧ (validateWalRecord record).isOk = true := by
  unfold decodeParts at decoded
  split at decoded
  · cases decoded
  · next same =>
      obtain ⟨seqNumber, parsed, decoded⟩ := Result.bind_eq_success decoded
      obtain ⟨recordType, typed, decoded⟩ := Result.bind_eq_success decoded
      obtain ⟨keyBytes, decodedKey, decoded⟩ := Result.bind_eq_success decoded
      obtain ⟨valueBytes, decodedValue, decoded⟩ := Result.bind_eq_success decoded
      simp only at decoded
      split at decoded
      · cases decoded
      · next accepted =>
          cases Except.ok.inj decoded
          have valid : (validateWalRecord ⟨seqNumber, recordType, keyBytes, valueBytes⟩).isOk =
              true := by simpa using accepted
          exact ⟨not_not.1 same, parsed, parseRecordType_eq_success typed, decodedKey,
            decodedValue, valid⟩

/-- What is decoded has five parts that pass the checks. -/
theorem exists_parts_of_deserialize {text : Bytes} {record : WalRecord}
    (decoded : deserialize text = .success record) :
    ∃ version number type key value,
      splitBySingleSpaces (stripLineEnding text) = [version, number, type, key, value] ∧
        decodeParts version number type key value = .success record := by
  unfold deserialize at decoded
  simp only at decoded
  split at decoded
  · cases decoded
  · unfold decodeFields at decoded
    split at decoded
    · next version number type key value parts =>
        split at decoded
        · cases decoded
        · exact ⟨version, number, type, key, value, parts, decoded⟩
    · cases decoded

/-- Only valid records are decoded. -/
theorem deserialize_valid {text : Bytes} {record : WalRecord}
    (decoded : deserialize text = .success record) : (validateWalRecord record).isOk = true := by
  obtain ⟨_, _, _, _, _, -, checked⟩ := exists_parts_of_deserialize decoded
  obtain ⟨-, -, -, -, -, valid⟩ := decodeParts_checks checked
  exact valid

end AsterKV.Wal
