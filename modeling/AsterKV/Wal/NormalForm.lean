/-
# AsterKV.Wal.NormalForm -- one text for each record

The decoder is lax on three points: leading zeros of the number, the case of hex
digits, and the line ending.  `normalForm` settles each of them on the text alone, and
the encoder gives back exactly that of any line its decoder accepted
(`serialize_deserialize`).  Two accepted texts mean the same record if and only if
their normal forms agree.
-/
import AsterKV.Wal.RecordGrammar

namespace AsterKV.Wal

open AsterKV.Core Theory.Decimal

set_option autoImplicit false

/-! ## The normal form of a text -/

def dropLeadingZeros (number : Bytes) : Bytes := number.dropWhile (· == byte '0')

/-- A hex letter in lower case, any other byte as it is. -/
def lowerHex (ch : UInt8) : UInt8 :=
  if byte 'A' ≤ ch && ch ≤ byte 'F' then ch - byte 'A' + byte 'a' else ch

/-- What stands before the first line feed or carriage return. -/
def beforeEnding (field : Bytes) : Bytes :=
  field.takeWhile fun ch => !(ch == lineFeed || ch == carriageReturn)

/-- The number without leading zeros, hex digits in lower case, one line feed. -/
def normalForm (serialized : Bytes) : Bytes :=
  match serialized.splitOn space with
  | [version, number, type, key, value] =>
      version ++ [space] ++ dropLeadingZeros number ++ [space] ++ type ++ [space] ++
        key.map lowerHex ++ [space] ++ (beforeEnding value).map lowerHex ++ [lineFeed]
  | _ => serialized

/-! ## Hex texts in lower case -/

set_option maxRecDepth 4000 in
theorem lowerHex_digit (ch : UInt8) :
    hexDigitValue ch < 16 → lowerHex ch = hexDigits.getD (hexDigitValue ch) 0 :=
  forall_hexDigit (P := fun ch => lowerHex ch = hexDigits.getD (hexDigitValue ch) 0) (by decide)

theorem toHex_joined : ∀ high < 16, ∀ low < 16,
    toHex (UInt8.ofNat (16 * high + low) >>> 4) = hexDigits.getD high 0 ∧
      toHex (UInt8.ofNat (16 * high + low)) = hexDigits.getD low 0 := by
  decide

/-- Encoding what a hex text denotes gives the text in lower case. -/
theorem hexEncode_hexBytes {field : Bytes} (even : field.length % 2 = 0)
    (digits : ∀ ch ∈ field, hexDigitValue ch < 16) :
    hexEncode (hexBytes field) = field.map lowerHex := by
  induction field using hexBytes.induct with
  | case1 high low rest ih =>
      obtain ⟨first, digits⟩ := List.forall_mem_cons.1 digits
      obtain ⟨second, digits⟩ := List.forall_mem_cons.1 digits
      have evenRest : rest.length % 2 = 0 := by
        simp only [List.length_cons] at even
        omega
      obtain ⟨upper, lower⟩ := toHex_joined _ first _ second
      rw [hexBytes, hexEncode_cons, upper, lower, ih evenRest digits, List.map_cons, List.map_cons,
        lowerHex_digit high first, lowerHex_digit low second]
  | case2 field short =>
      cases field with
      | nil => rfl
      | cons high rest =>
          cases rest with
          | nil => exact absurd even (by simp)
          | cons low rest => exact absurd rfl (short high low rest)

theorem encodeWalField_hexBytes {field : Bytes} (hex : HexText field) :
    encodeWalField (hexBytes field) = field.map lowerHex := by
  rw [encodeWalField_of_ne (hexBytes_ne_nil hex), hexEncode_hexBytes hex.even hex.digits]

theorem encodeWalField_valueBytes {type : WalRecordType} {value : Bytes}
    (fits : ValueText type value) :
    encodeWalField (valueBytes type value) = value.map lowerHex := by
  cases type with
  | set => exact encodeWalField_hexBytes fits
  | del =>
      rw [show value = bytes "-" from fits]
      decide

/-! ## The normal form of a line -/

theorem beforeEnding_append {field : Bytes} (text : FieldText field) (ending : LineEnding) :
    beforeEnding (field ++ ending.text) = field := by
  have kept : ∀ ch ∈ field, (!(ch == lineFeed || ch == carriageReturn)) = true := by
    intro ch member
    obtain ⟨-, lf, cr⟩ := text.2 ch member
    simp [lf, cr]
  have stops :
      ending.text.takeWhile (fun ch => !(ch == lineFeed || ch == carriageReturn)) = [] := by
    cases ending <;> decide
  rw [beforeEnding, List.takeWhile_append_of_pos kept, stops, List.append_nil]

theorem space_notMem_ending (ending : LineEnding) : space ∉ ending.text := by
  cases ending <;> decide

namespace GrammarLine

variable (line : GrammarLine)

theorem splitOn_text : line.text.splitOn space =
    [bytes "AKVWAL1", line.number, walRecordTypeToString line.type, line.key,
      line.value ++ line.ending.text] := by
  have clean : space ∉ line.value ++ line.ending.text := by
    rw [List.mem_append, not_or]
    exact ⟨line.fieldText_value.space_notMem, space_notMem_ending line.ending⟩
  have split : line.text = bytes "AKVWAL1" ++ space :: (line.number ++ space ::
      (walRecordTypeToString line.type ++ space :: (line.key ++ space ::
        (line.value ++ line.ending.text)))) := by
    simp [text]
  have version : space ∉ bytes "AKVWAL1" := fieldText_version.space_notMem
  rw [split, List.splitOn_append_cons_self_of_not_mem version,
    List.splitOn_append_cons_self_of_not_mem line.fieldText_number.space_notMem,
    List.splitOn_append_cons_self_of_not_mem (fieldText_type _).space_notMem,
    List.splitOn_append_cons_self_of_not_mem (fieldText_of_hexText line.key_hex).space_notMem,
    List.splitOn_eq_singleton clean]

theorem toDecimal_sequenceNumber :
    toDecimal line.record.sequenceNumber.toNat = dropLeadingZeros line.number := by
  have pos := line.number_pos
  rw [line.toNat_sequenceNumber, toDecimal_ofDigits line.number_digits (by omega)]
  rfl

/-- The encoder's line for what a line denotes is the line's normal form. -/
theorem recordLine_record : recordLine line.record = normalForm line.text := by
  have key : encodeWalField line.record.key = line.key.map lowerHex :=
    encodeWalField_hexBytes line.key_hex
  have value : encodeWalField line.record.value = line.value.map lowerHex :=
    encodeWalField_valueBytes line.value_fits
  rw [normalForm, line.splitOn_text]
  simp only [beforeEnding_append line.fieldText_value, recordLine, recordText, recordHead, key,
    value, line.toDecimal_sequenceNumber]
  simp only [List.append_assoc, List.cons_append, List.nil_append]
  rfl

end GrammarLine

/-! ## Round trips -/

/-- The three forms of a record's line. -/
theorem deserialize_ending (record : ValidRecord) (ending : LineEnding) :
    deserialize (recordText record.val ++ ending.text) = .success record.val := by
  have text := fieldText_encodeWalField record.val.value
  have strip := stripLineEnding_append_ending (recordHead record.val) text ending
  have plain := stripLineEnding_append_field (recordHead record.val) text
  have decoded := deserialize_recordText record
  unfold deserialize at decoded ⊢
  rw [recordText] at decoded ⊢
  rw [strip]
  rw [plain] at decoded
  exact decoded

theorem isOk_serialize (record : WalRecord) :
    (serialize record).isOk = (validateWalRecord record).isOk := by
  cases valid : (validateWalRecord record).isOk with
  | true =>
      rw [serialize_valid ⟨record, valid⟩]
      rfl
  | false =>
      rw [serialize_invalid valid]
      rfl

/-- A serialized record is read back with its line feed kept, removed or replaced. -/
theorem deserialize_serialize {record : WalRecord} {serialized : Bytes}
    (encoded : serialize record = .success serialized) :
    ∃ text, serialized = text ++ [lineFeed] ∧ deserialize serialized = .success record ∧
      deserialize text = .success record ∧
      deserialize (text ++ [carriageReturn, lineFeed]) = .success record := by
  have valid : (validateWalRecord record).isOk = true := by
    rw [← isOk_serialize, encoded]
    rfl
  rw [serialize_valid ⟨record, valid⟩] at encoded
  cases Except.ok.inj encoded
  exact ⟨recordText record, rfl, deserialize_ending ⟨record, valid⟩ .lf,
    deserialize_recordText ⟨record, valid⟩, deserialize_ending ⟨record, valid⟩ .crLf⟩

/-- The encoder gives back the normal form of an accepted text. -/
theorem serialize_deserialize {serialized : Bytes} {record : WalRecord}
    (decoded : deserialize serialized = .success record) :
    serialize record = .success (normalForm serialized) := by
  obtain ⟨line, rfl, rfl⟩ := exists_line_of_deserialize decoded
  rw [serialize_valid ⟨line.record, line.valid⟩, line.recordLine_record]

/-- Accepted texts mean the same exactly when their normal forms agree. -/
theorem decode_eq_iff_normalForm_eq {first second : Bytes} {one other : WalRecord}
    (decodedFirst : deserialize first = .success one)
    (decodedSecond : deserialize second = .success other) :
    one = other ↔ normalForm first = normalForm second := by
  have encodedOne := serialize_deserialize decodedFirst
  have encodedOther := serialize_deserialize decodedSecond
  constructor
  · rintro rfl
    exact Except.ok.inj (encodedOne.symm.trans encodedOther)
  · intro same
    rw [same] at encodedOne
    obtain ⟨-, -, readsOne, -⟩ := deserialize_serialize encodedOne
    obtain ⟨-, -, readsOther, -⟩ := deserialize_serialize encodedOther
    exact Except.ok.inj (readsOne.symm.trans readsOther)

/-- **The codec's round trip and normal form.**  Records: encoding succeeds exactly on
valid ones, and decoding inverts it.  Texts: encoding what was decoded settles the
number's zeros, the case of hex digits and the line ending, and nothing else. -/
theorem codec_round_trip_and_normal_form :
    (∀ record : WalRecord, (serialize record).isOk = (validateWalRecord record).isOk) ∧
    (∀ (record : WalRecord) (serialized : Bytes), serialize record = .success serialized →
      ∃ text, serialized = text ++ [lineFeed] ∧ deserialize serialized = .success record ∧
        deserialize text = .success record ∧
        deserialize (text ++ [carriageReturn, lineFeed]) = .success record) ∧
    (∀ (serialized : Bytes) (record : WalRecord), deserialize serialized = .success record →
      serialize record = .success (normalForm serialized)) ∧
    (∀ (first second : Bytes) (one other : WalRecord), deserialize first = .success one →
      deserialize second = .success other →
        (one = other ↔ normalForm first = normalForm second)) :=
  ⟨isOk_serialize, fun _ _ => deserialize_serialize, fun _ _ => serialize_deserialize,
    fun _ _ _ _ => decode_eq_iff_normalForm_eq⟩

example : normalForm (bytes "AKVWAL1 007 set 6B 7F\r\n") = bytes "AKVWAL1 7 set 6b 7f\n" := by
  decide

end AsterKV.Wal
