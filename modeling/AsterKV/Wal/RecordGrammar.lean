/-
# AsterKV.Wal.RecordGrammar -- the lines the decoder accepts

`GrammarLine` is a line of the format as its parts: a number, a type, a key and a
value, each with the proof of its own shape, and one of four line endings.
The decoder reads from the text of such a line the record its parts denote
(`deserialize_text`), and it accepts no other text (`exists_line_of_deserialize`).
-/
import AsterKV.Wal.TornLines

namespace AsterKV.Wal

open AsterKV.Core Theory.Decimal

set_option autoImplicit false

/-! ## Hex texts -/

/-- The place of a byte among the hex digits, letters in either case; 16 is none. -/
def hexDigitValue (ch : UInt8) : Nat :=
  min ((bytes "0123456789abcdef").idxOf ch) ((bytes "0123456789ABCDEF").idxOf ch)

/-- The bytes a hex text denotes, two digits a byte. -/
def hexBytes : Bytes → Bytes
  | high :: low :: rest =>
      UInt8.ofNat (16 * hexDigitValue high + hexDigitValue low) :: hexBytes rest
  | _ => []

/-- A non-empty hex string of even length. -/
structure HexText (text : Bytes) : Prop where
  ne_nil : text ≠ []
  even : text.length % 2 = 0
  digits : ∀ ch ∈ text, hexDigitValue ch < 16

/-- A fact about every hex digit is a fact about two lists of 16. -/
theorem forall_hexDigit {P : UInt8 → Prop}
    (all : ∀ ch ∈ bytes "0123456789abcdef" ++ bytes "0123456789ABCDEF", P ch)
    {ch : UInt8} (isDigit : hexDigitValue ch < 16) : P ch := by
  have lowerWidth : (bytes "0123456789abcdef").length = 16 := by decide
  have upperWidth : (bytes "0123456789ABCDEF").length = 16 := by decide
  rw [hexDigitValue, min_lt_iff] at isDigit
  refine all ch (List.mem_append.2 (isDigit.imp ?_ ?_))
  · intro lower
    rw [← lowerWidth] at lower
    exact List.idxOf_lt_length_iff.1 lower
  · intro upper
    rw [← upperWidth] at upper
    exact List.idxOf_lt_length_iff.1 upper

set_option maxRecDepth 4000 in
theorem hexDigitValue_of_isHexDigit (ch : UInt8) :
    isHexDigit ch = true → hexDigitValue ch < 16 := by
  revert ch
  apply forall_byte
  decide

set_option maxRecDepth 4000 in
theorem isHexDigit_iff (ch : UInt8) : isHexDigit ch = true ↔ hexDigitValue ch < 16 :=
  ⟨hexDigitValue_of_isHexDigit ch, forall_hexDigit (P := (isHexDigit · = true)) (by decide)⟩

set_option maxRecDepth 4000 in
theorem fromHex_digit (ch : UInt8) :
    hexDigitValue ch < 16 → fromHex ch = .success (UInt8.ofNat (hexDigitValue ch)) :=
  forall_hexDigit (P := fun ch => fromHex ch = .success (UInt8.ofNat (hexDigitValue ch)))
    (by decide)

theorem joinDigits : ∀ high < 16, ∀ low < 16,
    (UInt8.ofNat high <<< 4) ||| UInt8.ofNat low = UInt8.ofNat (16 * high + low) := by
  decide

/-- The pair loop on digits only. -/
theorem hexDecodePairs_digits {field : Bytes} (digits : ∀ ch ∈ field, hexDigitValue ch < 16) :
    hexDecodePairs field = .success (hexBytes field) := by
  induction field using hexBytes.induct with
  | case1 high low rest ih =>
      obtain ⟨first, digits⟩ := List.forall_mem_cons.1 digits
      obtain ⟨second, digits⟩ := List.forall_mem_cons.1 digits
      rw [hexDecodePairs, (isHexDigit_iff high).2 first, (isHexDigit_iff low).2 second,
        fromHex_digit high first, fromHex_digit low second, ih digits, hexBytes,
        ← joinDigits _ first _ second]
      rfl
  | case2 field short =>
      cases field with
      | nil => rfl
      | cons high rest =>
          cases rest with
          | nil => rfl
          | cons low rest => exact absurd rfl (short high low rest)

/-- **A field decodes as the marker or as a hex text, and to what that denotes.** -/
theorem hexDecode_eq_success_iff {field value : Bytes} :
    hexDecode field = .success value ↔
      (field = emptyWalFieldMarker ∧ value = []) ∨ (HexText field ∧ value = hexBytes field) := by
  by_cases marker : field = emptyWalFieldMarker
  · subst marker
    have notHex : ¬ HexText emptyWalFieldMarker := fun hex => absurd hex.even (by decide)
    have reads : hexDecode emptyWalFieldMarker = .success [] := rfl
    rw [reads]
    constructor
    · intro same
      exact Or.inl ⟨rfl, (Except.ok.inj same).symm⟩
    · rintro (⟨-, rfl⟩ | ⟨hex, -⟩)
      · rfl
      · exact absurd hex notHex
  · constructor
    · intro decoded
      obtain ⟨even, digits⟩ := digits_of_hexDecode decoded marker
      have isHex : ∀ ch ∈ field, hexDigitValue ch < 16 := fun ch member =>
        (isHexDigit_iff ch).1 (digits ch member)
      have ne : field ≠ [] := by
        rintro rfl
        cases decoded
      have reads : hexDecode field = hexDecodePairs field := by
        simp [hexDecode, marker, ne, even]
      rw [reads, hexDecodePairs_digits isHex] at decoded
      exact Or.inr ⟨⟨ne, even, isHex⟩, (Except.ok.inj decoded).symm⟩
    · rintro (⟨same, -⟩ | ⟨hex, rfl⟩)
      · exact absurd same marker
      · have reads : hexDecode field = hexDecodePairs field := by
          simp [hexDecode, marker, hex.ne_nil, hex.even]
        rw [reads, hexDecodePairs_digits hex.digits]

theorem hexBytes_ne_nil {field : Bytes} (hex : HexText field) : hexBytes field ≠ [] := by
  obtain ⟨ne, even, -⟩ := hex
  cases field with
  | nil => exact absurd rfl ne
  | cons high rest =>
      cases rest with
      | nil => exact absurd even (by simp)
      | cons low rest => exact List.cons_ne_nil _ _

theorem fieldText_of_hexText {field : Bytes} (hex : HexText field) : FieldText field :=
  ⟨hex.ne_nil, fun ch member =>
    separators_of_isHexDigit ch ((isHexDigit_iff ch).2 (hex.digits ch member))⟩

/-! ## Line endings -/

inductive LineEnding where
  | none
  | lf
  | cr
  | crLf
  deriving DecidableEq, Repr

def LineEnding.text : LineEnding → Bytes
  | .none => []
  | .lf => [lineFeed]
  | .cr => [carriageReturn]
  | .crLf => [carriageReturn, lineFeed]

/-- What is stripped is a line ending. -/
theorem exists_ending (value : Bytes) :
    ∃ ending : LineEnding, value = stripLineEnding value ++ ending.text := by
  -- first the line feed, then the carriage return before it
  have drop : ∀ (text : Bytes) (last : UInt8),
      endsWith text last = true → text = text.dropLast ++ [last] := by
    intro text last ends
    obtain ⟨front, rfl⟩ := List.getLast?_eq_some_iff.1 (endsWith_iff.1 ends)
    rw [List.dropLast_concat]
  unfold stripLineEnding
  simp only
  cases lf : endsWith value lineFeed with
  | true =>
      rw [if_pos rfl]
      cases cr : endsWith value.dropLast carriageReturn with
      | true =>
          refine ⟨.crLf, ?_⟩
          rw [if_pos rfl]
          have inner := drop _ _ cr
          have outer := drop _ _ lf
          rw [inner, List.append_assoc] at outer
          exact outer
      | false => exact ⟨.lf, drop _ _ lf⟩
  | false =>
      rw [if_neg Bool.false_ne_true]
      cases cr : endsWith value carriageReturn with
      | true => exact ⟨.cr, drop _ _ cr⟩
      | false => exact ⟨.none, (List.append_nil _).symm⟩

/-- A text behind which there is a line ending loses it, and no more. -/
theorem stripLineEnding_append_ending (front : Bytes) {field : Bytes} (text : FieldText field)
    (ending : LineEnding) : stripLineEnding (front ++ field ++ ending.text) = front ++ field := by
  obtain ⟨ne, clean⟩ := text
  have last : (front ++ field).getLast? = some (field.getLast ne) := by
    rw [List.getLast?_append, List.getLast?_eq_some_getLast ne, Option.some_or]
  have ends := clean _ (List.getLast_mem ne)
  have lf : (front ++ field).getLast? ≠ some lineFeed := by
    rw [last]
    exact fun h => ends.2.1 (Option.some.inj h)
  have cr : (front ++ field).getLast? ≠ some carriageReturn := by
    rw [last]
    exact fun h => ends.2.2 (Option.some.inj h)
  cases ending with
  | none =>
      rw [LineEnding.text, List.append_nil]
      exact stripLineEnding_of_clean_end lf cr
  | lf => exact stripLineEnding_snoc cr
  | cr =>
      have differ : (carriageReturn == lineFeed) = false := by decide
      rw [LineEnding.text, stripLineEnding]
      simp only [endsWith_snoc, differ, Bool.false_eq_true, if_false, beq_self_eq_true, if_true,
        List.dropLast_concat]
  | crLf =>
      have split : front ++ field ++ [carriageReturn, lineFeed] =
          (front ++ field ++ [carriageReturn]) ++ [lineFeed] := by simp
      rw [LineEnding.text, split, stripLineEnding]
      simp only [endsWith_snoc, beq_self_eq_true, if_true, List.dropLast_concat]

/-! ## Lines -/

/-- The value field that fits a type. -/
def ValueText (type : WalRecordType) (value : Bytes) : Prop :=
  match type with
  | .set => HexText value
  | .del => value = bytes "-"

/-- What a value field of a type denotes. -/
def valueBytes (type : WalRecordType) (value : Bytes) : Bytes :=
  match type with
  | .set => hexBytes value
  | .del => []

/-- A line of the log, as its parts. -/
structure GrammarLine where
  number : Bytes
  type : WalRecordType
  key : Bytes
  value : Bytes
  ending : LineEnding
  number_ne_nil : number ≠ []
  number_digits : ∀ ch ∈ number, isDigit ch = true
  number_pos : 1 ≤ ofDigits (digitsOf number)
  number_le : ofDigits (digitsOf number) ≤ 2 ^ 64 - 1
  key_hex : HexText key
  value_fits : ValueText type value

namespace GrammarLine

/-- The parts joined by single spaces, and the ending. -/
def text (line : GrammarLine) : Bytes :=
  bytes "AKVWAL1" ++ [space] ++ line.number ++ [space] ++ walRecordTypeToString line.type ++
    [space] ++ line.key ++ [space] ++ line.value ++ line.ending.text

/-- What the parts denote. -/
def record (line : GrammarLine) : WalRecord where
  sequenceNumber := UInt64.ofNat (ofDigits (digitsOf line.number))
  type := line.type
  key := hexBytes line.key
  value := valueBytes line.type line.value

variable (line : GrammarLine)

theorem fieldText_number : FieldText line.number :=
  ⟨line.number_ne_nil, fun ch member => separators_of_isDigit ch (line.number_digits ch member)⟩

theorem fieldText_value : FieldText line.value := by
  have fits := line.value_fits
  cases type : line.type with
  | set =>
      rw [type] at fits
      exact fieldText_of_hexText fits
  | del =>
      rw [type] at fits
      rw [show line.value = bytes "-" from fits]
      decide

theorem toNat_sequenceNumber :
    line.record.sequenceNumber.toNat = ofDigits (digitsOf line.number) := by
  have := line.number_le
  rw [record, UInt64.toNat_ofNat']
  omega

theorem parseSequenceNumber_number :
    parseSequenceNumber line.number = .success line.record.sequenceNumber :=
  parseUnsigned_eq_success_iff.2
    ⟨line.number_ne_nil, line.number_digits, line.toNat_sequenceNumber⟩

theorem hexDecode_key : hexDecode line.key = .success line.record.key :=
  hexDecode_eq_success_iff.2 (Or.inr ⟨line.key_hex, rfl⟩)

theorem hexDecode_value : hexDecode line.value = .success line.record.value := by
  have fits := line.value_fits
  rw [record]
  cases type : line.type with
  | set =>
      rw [type] at fits
      exact hexDecode_eq_success_iff.2 (Or.inr ⟨fits, rfl⟩)
  | del =>
      rw [type] at fits
      exact hexDecode_eq_success_iff.2 (Or.inl ⟨fits, rfl⟩)

theorem valid : (validateWalRecord line.record).isOk = true := by
  refine (validateWalRecord_isOk_iff _).2 ⟨?_, hexBytes_ne_nil line.key_hex, ?_⟩
  · intro zero
    have value := line.toNat_sequenceNumber
    have pos := line.number_pos
    rw [zero, UInt64.toNat_zero] at value
    omega
  · have fits := line.value_fits
    rw [WalRecord.ValueFits, record]
    cases type : line.type with
    | set =>
        rw [type] at fits
        exact hexBytes_ne_nil fits
    | del => rfl

theorem decodeFields_parts :
    decodeFields [bytes "AKVWAL1", line.number, walRecordTypeToString line.type, line.key,
      line.value] = .success line.record := by
  have noEmpty : hasEmptyPart [bytes "AKVWAL1", line.number, walRecordTypeToString line.type,
      line.key, line.value] = false := by
    have version : bytes "AKVWAL1" ≠ [] := by decide
    simp [hasEmptyPart, version, line.number_ne_nil, (fieldText_type _).1, line.key_hex.ne_nil,
      line.fieldText_value.1]
  rw [decodeFields, noEmpty, if_neg Bool.false_ne_true, decodeParts]
  rw [if_neg (fun differs => differs rfl), line.parseSequenceNumber_number,
    parseRecordType_walRecordTypeToString, line.hexDecode_key, line.hexDecode_value]
  have whole : (⟨line.record.sequenceNumber, line.type, line.record.key, line.record.value⟩ :
      WalRecord) = line.record := rfl
  simp only [Result.success, Except.bind, bind, whole, line.valid]
  rfl

/-- The text before the ending, split at its spaces, is the five parts. -/
theorem splitBySingleSpaces_parts (front : Bytes)
    (joined : front = bytes "AKVWAL1" ++ [space] ++ line.number ++ [space] ++
      walRecordTypeToString line.type ++ [space] ++ line.key ++ [space] ++ line.value) :
    splitBySingleSpaces front =
      [bytes "AKVWAL1", line.number, walRecordTypeToString line.type, line.key, line.value] := by
  have clean : ∀ part ∈ [bytes "AKVWAL1", line.number, walRecordTypeToString line.type, line.key,
      line.value], space ∉ part := by
    simp only [List.forall_mem_cons]
    exact ⟨fieldText_version.space_notMem, line.fieldText_number.space_notMem,
      (fieldText_type _).space_notMem, (fieldText_of_hexText line.key_hex).space_notMem,
      line.fieldText_value.space_notMem, fun part member => absurd member List.not_mem_nil⟩
  rw [splitBySingleSpaces, ← List.splitOn_intercalate space clean (List.cons_ne_nil _ _), joined]
  congr 1
  simp [List.intercalate]

theorem deserialize_text : deserialize line.text = .success line.record := by
  have strip := stripLineEnding_append_ending (bytes "AKVWAL1" ++ [space] ++ line.number ++
    [space] ++ walRecordTypeToString line.type ++ [space] ++ line.key ++ [space])
    line.fieldText_value line.ending
  have parts := line.splitBySingleSpaces_parts _ rfl
  rw [text, deserialize, strip]
  simp only [parts, line.decodeFields_parts]
  split
  · next empty => simp at empty
  · rfl

end GrammarLine

/-! ## Nothing else is accepted -/

/-- A value field that decodes and fits its type after decoding fits it as a text. -/
theorem valueText_of_hexDecode {record : WalRecord} {value : Bytes} (fits : record.ValueFits)
    (decoded : hexDecode value = .success record.value) :
    ValueText record.type value ∧ record.value = valueBytes record.type value := by
  have shape := hexDecode_eq_success_iff.1 decoded
  rw [WalRecord.ValueFits] at fits
  cases type : record.type with
  | set =>
      rw [type] at fits
      exact shape.resolve_left fun marker => fits marker.2
  | del =>
      rw [type] at fits
      rcases shape with marker | ⟨hex, denotes⟩
      · exact marker
      · exact absurd (denotes.symm.trans fits) (hexBytes_ne_nil hex)

/-- Five parts that pass the checks are the parts of a line. -/
theorem exists_line_of_decodeParts {version number type key value : Bytes} {record : WalRecord}
    (ending : LineEnding)
    (decoded : decodeParts version number type key value = .success record) :
    ∃ line : GrammarLine, line.record = record ∧
      line.text = version ++ [space] ++ number ++ [space] ++ type ++ [space] ++ key ++ [space] ++
        value ++ ending.text := by
  obtain ⟨rfl, parsed, rfl, decodedKey, decodedValue, valid⟩ := decodeParts_checks decoded
  obtain ⟨notZero, keyNe, fits⟩ := (validateWalRecord_isOk_iff _).1 valid
  obtain ⟨ne, digits, denotes⟩ := parseUnsigned_eq_success_iff.1 parsed
  obtain ⟨valueText, valueDenotes⟩ := valueText_of_hexDecode fits decodedValue
  -- the marker is no key
  obtain ⟨keyHex, keyDenotes⟩ : HexText key ∧ record.key = hexBytes key :=
    (hexDecode_eq_success_iff.1 decodedKey).resolve_left fun marker => keyNe marker.2
  have range : 1 ≤ record.sequenceNumber.toNat ∧ record.sequenceNumber.toNat ≤ 2 ^ 64 - 1 := by
    have bound := UInt64.toNat_lt record.sequenceNumber
    have pos : record.sequenceNumber.toNat ≠ 0 := fun zero => notZero (UInt64.toNat_inj.1 zero)
    omega
  have numberDenotes : UInt64.ofNat (ofDigits (digitsOf number)) = record.sequenceNumber := by
    rw [← denotes, UInt64.ofNat_toNat]
  rw [denotes] at range
  refine ⟨⟨number, record.type, key, value, ending, ne, digits, range.1, range.2, keyHex,
    valueText⟩, ?_, rfl⟩
  rw [GrammarLine.record, numberDenotes, ← keyDenotes, ← valueDenotes]

/-- An accepted text is a line's, and is read as that line's record. -/
theorem exists_line_of_deserialize {text : Bytes} {record : WalRecord}
    (decoded : deserialize text = .success record) :
    ∃ line : GrammarLine, line.text = text ∧ line.record = record := by
  obtain ⟨ending, split⟩ := exists_ending text
  obtain ⟨version, number, type, key, value, parts, decoded⟩ := exists_parts_of_deserialize decoded
  have joined : [space].intercalate ((stripLineEnding text).splitOn space) =
      stripLineEnding text := List.intercalate_splitOn space
  rw [show (stripLineEnding text).splitOn space = _ from parts] at joined
  obtain ⟨line, denotes, is⟩ := exists_line_of_decodeParts ending decoded
  refine ⟨line, ?_, denotes⟩
  rw [is, split, ← joined]
  simp [List.intercalate]

/-- **The decoder accepts exactly the lines of the grammar.**  An accepted line is read
as the record its parts denote. -/
theorem deserialize_accepts_grammar (serialized : Bytes) :
    ((deserialize serialized).isOk = true ↔ ∃ line : GrammarLine, serialized = line.text) ∧
      ∀ line : GrammarLine, serialized = line.text →
        deserialize serialized = .success line.record := by
  constructor
  · rw [Result.isOk_iff]
    constructor
    · rintro ⟨record, decoded⟩
      obtain ⟨line, is, -⟩ := exists_line_of_deserialize decoded
      exact ⟨line, is.symm⟩
    · rintro ⟨line, rfl⟩
      exact ⟨line.record, line.deserialize_text⟩
  · rintro line rfl
    exact line.deserialize_text

end AsterKV.Wal
