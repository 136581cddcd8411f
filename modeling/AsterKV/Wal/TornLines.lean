/-
# AsterKV.Wal.TornLines -- lines that were cut, or run into each other

A failed append, a crash or a truncation leaves a proper prefix of a line at the end
of the file, and the next append continues it.  The reader tells most of these from
a record by counting fields (`four_spaces`).  Two results cover all of them:

* `deserialize_cut` -- a cut line is accepted only when nothing but its line feed is
  missing, or when it is a set cut between two bytes of its value;
* `deserialize_glued` -- whatever stood before it, a record's line is not accepted
  once it does not start a line of its own.
-/
import AsterKV.Theory.Lines
import AsterKV.Wal.RecordCodec

namespace AsterKV.Wal

open AsterKV.Core Theory.Lines

set_option autoImplicit false

/-! ## Counting fields -/

theorem count_dropLast_of_last {value : Bytes} {last : UInt8} (ends : endsWith value last = true)
    (ne : last ≠ space) : value.dropLast.count space = value.count space := by
  obtain ⟨front, rfl⟩ := List.getLast?_eq_some_iff.1 (endsWith_iff.1 ends)
  rw [List.dropLast_concat, List.count_append, List.count_singleton]
  simp [ne]

/-- A line ending holds no space. -/
theorem count_stripLineEnding (value : Bytes) :
    (stripLineEnding value).count space = value.count space := by
  have drop : ∀ (last : UInt8) (text : Bytes), last ≠ space →
      (if endsWith text last then text.dropLast else text).count space = text.count space := by
    intro last text ne
    cases ends : endsWith text last with
    | false => rfl
    | true => exact count_dropLast_of_last ends ne
  unfold stripLineEnding
  simp only
  rw [drop carriageReturn _ (by decide), drop lineFeed _ (by decide)]

/-- **Every accepted line has exactly four spaces.** -/
theorem four_spaces {text : Bytes} {record : WalRecord}
    (accepted : deserialize text = .success record) : text.count space = 4 := by
  rw [← count_stripLineEnding]
  unfold deserialize at accepted
  simp only at accepted
  split at accepted
  · cases accepted
  · unfold decodeFields at accepted
    split at accepted
    · next version number type key value parts =>
        have length := length_splitOn space (stripLineEnding text)
        rw [show (stripLineEnding text).splitOn space = [version, number, type, key, value]
          from parts] at length
        simpa using length.symm
    · cases accepted

theorem count_fieldText {value : Bytes} (text : FieldText value) : value.count space = 0 :=
  List.count_eq_zero.2 text.space_notMem

theorem count_recordHead (record : WalRecord) : (recordHead record).count space = 4 := by
  simp [recordHead, List.count_append, count_fieldText fieldText_version,
    count_fieldText (fieldText_number _), count_fieldText (fieldText_type _),
    count_fieldText (fieldText_encodeWalField _)]

theorem count_recordText (record : WalRecord) : (recordText record).count space = 4 := by
  rw [recordText, List.count_append, count_recordHead,
    count_fieldText (fieldText_encodeWalField _)]

/-! ## Lines that run into each other -/

/-- **A record's text is not accepted behind other bytes on its line.** -/
theorem deserialize_glued {before : Bytes} (ne : before ≠ []) (record : WalRecord) :
    (deserialize (before ++ recordText record)).isOk = false := by
  cases decoded : deserialize (before ++ recordText record) with
  | error failure => rfl
  | ok other =>
      exfalso
      have spaces := four_spaces decoded
      rw [List.count_append, count_recordText] at spaces
      have clean : space ∉ before := List.count_eq_zero.1 (by omega)
      -- without a space before the text, the first field is too long for a version
      have text := fieldText_encodeWalField record.value
      have strip := stripLineEnding_append_field (before ++ recordHead record) text
      rw [List.append_assoc] at strip
      unfold deserialize at decoded
      simp only [recordText, strip] at decoded
      split at decoded
      · cases decoded
      · rw [splitBySingleSpaces_head clean record text.space_notMem, decodeFields] at decoded
        split at decoded
        · cases decoded
        · have longer : before ++ currentWalRecordFormatVersion ≠ currentWalRecordFormatVersion :=
            fun same => ne (List.append_left_eq_self.1 same)
          rw [decodeParts, if_pos longer] at decoded
          cases decoded

theorem stripLineEnding_snoc {value : Bytes} (cr : value.getLast? ≠ some carriageReturn) :
    stripLineEnding (value ++ [lineFeed]) = value := by
  have noCr : endsWith value carriageReturn = false := by simpa [endsWith] using cr
  unfold stripLineEnding
  simp only [endsWith_snoc, beq_self_eq_true, if_true, List.dropLast_concat, noCr,
    Bool.false_eq_true, if_false]

/-- The line feed of a record's line makes no difference to the decoder. -/
theorem deserialize_recordLine (front : Bytes) (record : WalRecord) :
    deserialize (front ++ recordLine record) = deserialize (front ++ recordText record) := by
  have text := fieldText_encodeWalField record.value
  have plain := stripLineEnding_append_field (front ++ recordHead record) text
  have cr : (front ++ recordText record).getLast? ≠ some carriageReturn := by
    rw [recordText, ← List.append_assoc, List.getLast?_append,
      List.getLast?_eq_some_getLast text.1, Option.some_or]
    exact fun h => (text.2 _ (List.getLast_mem text.1)).2.2 (Option.some.inj h)
  have ended := stripLineEnding_snoc cr
  rw [List.append_assoc] at plain ended
  unfold deserialize
  simp only [recordLine, ended]
  rw [recordText, plain]

/-! ## Lines that were cut -/

/-- A set as it is read when its line ends behind `j` bytes of its value. -/
def WalRecord.shortened (record : WalRecord) (j : Nat) : WalRecord :=
  { record with value := record.value.take j }

/-- What a cut line of a record can be read as: the record, or a set of its key to
some first bytes of the value. -/
def WalRecord.ReadAs (record other : WalRecord) : Prop :=
  other = record ∨
    (record.type = .set ∧ ∃ j, 0 < j ∧ j < record.value.length ∧ other = record.shortened j)

namespace WalRecord.ReadAs

variable {record other : WalRecord}

theorem key_eq (as : record.ReadAs other) : other.key = record.key := by
  rcases as with rfl | ⟨-, j, -, -, rfl⟩
  · rfl
  · rfl

theorem type_eq (as : record.ReadAs other) : other.type = record.type := by
  rcases as with rfl | ⟨-, j, -, -, rfl⟩
  · rfl
  · rfl

theorem valid (as : record.ReadAs other) (valid : (validateWalRecord record).isOk = true) :
    (validateWalRecord other).isOk = true := by
  rcases as with rfl | ⟨set, j, pos, short, rfl⟩
  · exact valid
  · obtain ⟨number, key, -⟩ := (validateWalRecord_isOk_iff record).1 valid
    refine (validateWalRecord_isOk_iff _).2 ⟨number, key, ?_⟩
    have same : (record.shortened j).type = .set := set
    simp only [WalRecord.ValueFits, same]
    intro empty
    have length : (record.value.take j).length = 0 := congrArg List.length empty
    rw [List.length_take] at length
    omega

end WalRecord.ReadAs

/-- A field that decodes is the marker, or an even number of digits. -/
theorem even_of_hexDecode {field value : Bytes} (decoded : hexDecode field = .success value) :
    field = emptyWalFieldMarker ∨ field.length % 2 = 0 := by
  unfold hexDecode at decoded
  split at decoded
  · next marker => exact Or.inl (by simpa using marker)
  · split at decoded
    · cases decoded
    · split at decoded
      · cases decoded
      · next even => exact Or.inr (by simpa using even)

theorem encodeWalField_of_ne {value : Bytes} (ne : value ≠ []) :
    encodeWalField value = hexEncode value := by
  simp [encodeWalField, ne]

/-- The marker holds no digit. -/
theorem marker_not_prefix_hexEncode (value : Bytes) :
    ¬ emptyWalFieldMarker <+: hexEncode value := by
  intro isPrefix
  have digit := isHexDigit_of_mem_hexEncode (isPrefix.subset (List.mem_singleton_self (byte '-')))
  exact absurd digit (by decide)

/-- **A cut field decodes to what was encoded, or to some first bytes of it.** -/
theorem hexDecode_cut {field value decoded : Bytes} (cut : field <+: encodeWalField value)
    (ne : field ≠ []) (success : hexDecode field = .success decoded) :
    field = encodeWalField decoded ∧
      (decoded = value ∨ ∃ j, 0 < j ∧ j < value.length ∧ decoded = value.take j) := by
  by_cases empty : value = []
  · subst empty
    have whole : field = emptyWalFieldMarker := by
      rcases List.prefix_concat_iff.1 (show field <+: [] ++ [byte '-'] from cut) with h | h
      · exact h
      · exact absurd (List.prefix_nil.1 h) ne
    have decodedNil : decoded = [] := by
      rw [whole] at success
      exact (Except.ok.inj success).symm
    exact ⟨by rw [whole, decodedNil]; rfl, Or.inl decodedNil⟩
  · rw [encodeWalField_of_ne empty] at cut
    rcases even_of_hexDecode success with marker | even
    · exact absurd (marker ▸ cut) (marker_not_prefix_hexEncode value)
    · obtain ⟨j, twice⟩ : ∃ j, field.length = 2 * j := ⟨field.length / 2, by omega⟩
      have eq : field = hexEncode (value.take j) := by
        rw [← take_hexEncode, ← twice]
        exact List.prefix_iff_eq_take.1 cut
      have pos : 0 < j := by
        have := List.length_pos_iff.2 ne
        omega
      have takeNe : value.take j ≠ [] := by
        intro h
        rw [h, hexEncode_nil] at eq
        exact ne eq
      have same : decoded = value.take j := by
        rw [eq, hexDecode_hexEncode takeNe] at success
        exact (Except.ok.inj success).symm
      rw [same, encodeWalField_of_ne takeNe]
      refine ⟨eq, ?_⟩
      by_cases short : j < value.length
      · exact Or.inr ⟨j, pos, short, rfl⟩
      · exact Or.inl (List.take_of_length_le (by omega))

theorem recordHead_snoc (record : WalRecord) : ∃ front, recordHead record = front ++ [space] :=
  ⟨currentWalRecordFormatVersion ++ space :: (toDecimal record.sequenceNumber.toNat ++
    space :: (walRecordTypeToString record.type ++ space :: encodeWalField record.key)),
    by simp [recordHead]⟩

/-- A head without anything of its value is not accepted. -/
theorem deserialize_recordHead (record : WalRecord) :
    (deserialize (recordHead record)).isOk = false := by
  obtain ⟨front, snoc⟩ := recordHead_snoc record
  have last : (recordHead record).getLast? = some space := by
    rw [snoc, List.getLast?_concat]
  have strip : stripLineEnding (recordHead record) = recordHead record := by
    apply stripLineEnding_of_clean_end
    · rw [last]
      decide
    · rw [last]
      decide
  have parts := splitBySingleSpaces_head (List.not_mem_nil (a := space)) record
    (List.not_mem_nil (a := space))
  rw [List.nil_append, List.append_nil] at parts
  have empty : hasEmptyPart [[] ++ currentWalRecordFormatVersion,
      toDecimal record.sequenceNumber.toNat, walRecordTypeToString record.type,
      encodeWalField record.key, []] = true := by
    simp [hasEmptyPart]
  unfold deserialize
  simp only [strip]
  split
  · rfl
  · rw [parts, decodeFields, if_pos empty]
    rfl

/-- A cut that leaves nothing of the value field is not accepted. -/
theorem deserialize_of_prefix_head {text : Bytes} {record : WalRecord}
    (cut : text <+: recordHead record) : (deserialize text).isOk = false := by
  obtain ⟨front, split⟩ := recordHead_snoc record
  have four := count_recordHead record
  rw [split, List.count_append, List.count_singleton_self] at four
  rw [split, List.prefix_concat_iff, ← split] at cut
  rcases cut with rfl | shorter
  · exact deserialize_recordHead record
  · cases decoded : deserialize text with
    | error failure => rfl
    | ok other =>
        have spaces := four_spaces decoded
        have fewer := shorter.sublist.count_le space
        omega

/-- **A cut line is accepted only as a text of its own.** -/
theorem deserialize_cut {record : ValidRecord} {text : Bytes} (cut : text <+: recordText record.val)
    {other : WalRecord} :
    deserialize text = .success other ↔ record.val.ReadAs other ∧ text = recordText other := by
  constructor
  · intro decoded
    rcases List.prefix_or_prefix_of_prefix cut (List.prefix_append _ _) with inHead | ⟨field, rfl⟩
    · have rejected := deserialize_of_prefix_head inHead
      rw [decoded] at rejected
      cases rejected
    · have part : field <+: encodeWalField record.val.value :=
        (List.prefix_append_right_inj _).1 cut
      have text := fieldText_encodeWalField record.val.value
      have ne : field ≠ [] := by
        rintro rfl
        have rejected := deserialize_recordHead record.val
        rw [List.append_nil] at decoded
        rw [decoded] at rejected
        cases rejected
      have fieldText : FieldText field := ⟨ne, fun ch member => text.2 ch (part.subset member)⟩
      rw [deserialize_head _ fieldText, decodeParts_fields] at decoded
      obtain ⟨value, decodedField, checked⟩ := Result.bind_eq_success decoded
      split at checked
      · cases checked
      · cases Except.ok.inj checked
        obtain ⟨same, whole | ⟨j, pos, short, rfl⟩⟩ := hexDecode_cut part ne decodedField
        · have unchanged : { record.val with value := value } = record.val := by rw [whole]
          refine ⟨Or.inl unchanged, ?_⟩
          rw [unchanged, recordText, ← whole, ← same]
        · have set : record.val.type = .set := by
            by_contra notSet
            have del : record.val.type = .del := by
              cases kind : record.val.type with
              | set => exact absurd kind notSet
              | del => rfl
            rw [record.value_eq_nil_of_del del] at short
            exact absurd short (Nat.not_lt_zero j)
          exact ⟨Or.inr ⟨set, j, pos, short, rfl⟩, congrArg (recordHead record.val ++ ·) same⟩
  · rintro ⟨as, rfl⟩
    exact deserialize_recordText ⟨other, as.valid record.property⟩

/-- What a part of a line is read as, its line feed present or not. -/
theorem readAs_of_part {record : ValidRecord} {part : Bytes}
    (isPrefix : part <+: recordLine record.val) {other : WalRecord}
    (decoded : deserialize part = .success other) :
    record.val.ReadAs other ∧ (part = recordLine record.val → other = record.val) := by
  have own : deserialize (recordLine record.val) = .success record.val :=
    (deserialize_recordLine [] record.val).trans (deserialize_recordText record)
  have whole : part = recordLine record.val → other = record.val := by
    rintro rfl
    exact Except.ok.inj (decoded.symm.trans own)
  refine ⟨?_, whole⟩
  rcases part_cases isPrefix with line | ⟨inText, -⟩
  · exact Or.inl (whole line)
  · exact ((deserialize_cut inText).1 decoded).1

/-! ## A line behind an accepted one -/

/-- Everything the pair loop accepts is a digit. -/
theorem digits_of_hexDecodePairs {field value : Bytes} (even : field.length % 2 = 0)
    (decoded : hexDecodePairs field = .success value) : ∀ ch ∈ field, isHexDigit ch = true := by
  induction field using hexDecodePairs.induct generalizing value with
  | case1 first second rest bad =>
      rw [hexDecodePairs, if_pos bad] at decoded
      cases decoded
  | case2 first second rest good ih =>
      rw [hexDecodePairs, if_neg good] at decoded
      obtain ⟨high, -, decoded⟩ := Result.bind_eq_success decoded
      obtain ⟨low, -, decoded⟩ := Result.bind_eq_success decoded
      obtain ⟨out, decodedRest, -⟩ := Result.bind_eq_success decoded
      have evenRest : rest.length % 2 = 0 := by
        simp only [List.length_cons] at even
        omega
      have digits : isHexDigit first = true ∧ isHexDigit second = true := by simpa using good
      intro ch member
      rcases List.mem_cons.1 member with rfl | member
      · exact digits.1
      · rcases List.mem_cons.1 member with rfl | member
        · exact digits.2
        · exact ih evenRest decodedRest ch member
  | case3 field short =>
      intro ch member
      cases field with
      | nil => exact absurd member List.not_mem_nil
      | cons first rest =>
          cases rest with
          | nil => exact absurd even (by simp)
          | cons second rest => exact absurd rfl (short first second rest)

theorem digits_of_hexDecode {field value : Bytes} (decoded : hexDecode field = .success value)
    (notMarker : field ≠ emptyWalFieldMarker) :
    field.length % 2 = 0 ∧ ∀ ch ∈ field, isHexDigit ch = true := by
  have even := (even_of_hexDecode decoded).resolve_left notMarker
  unfold hexDecode at decoded
  split at decoded
  · next marker => exact absurd (by simpa using marker) notMarker
  · split at decoded
    · cases decoded
    · split at decoded
      · cases decoded
      · exact ⟨even, digits_of_hexDecodePairs even decoded⟩

/-- A value field with the beginning of a version behind it does not decode. -/
theorem hexDecode_glued {value part decoded : Bytes} (ne : part ≠ [])
    (isPrefix : part <+: currentWalRecordFormatVersion) :
    hexDecode (encodeWalField value ++ part) ≠ .success decoded := by
  intro success
  have notMarker : encodeWalField value ++ part ≠ emptyWalFieldMarker := by
    intro same
    have lengths := congrArg List.length same
    have pos := List.length_pos_iff.2 ne
    have posField := List.length_pos_iff.2 (fieldText_encodeWalField value).1
    have one : emptyWalFieldMarker.length = 1 := by decide
    rw [List.length_append, one] at lengths
    omega
  obtain ⟨even, digits⟩ := digits_of_hexDecode success notMarker
  by_cases empty : value = []
  · subst empty
    exact absurd (digits (byte '-') (List.mem_append_left _ (List.mem_singleton_self _))) (by decide)
  · rw [encodeWalField_of_ne empty, List.length_append, length_hexEncode] at even
    -- an even part holds the second letter of the version
    cases part with
    | nil => exact ne rfl
    | cons first rest =>
        cases rest with
        | nil =>
            rw [List.length_singleton] at even
            omega
        | cons second rest =>
            have letter : second = byte 'K' := by
              have cut : first :: second :: rest <+:
                  byte 'A' :: byte 'K' :: bytes "VWAL1" := isPrefix
              exact (List.cons_prefix_cons.1 (List.cons_prefix_cons.1 cut).2).1
            have digit := digits second (List.mem_append_right _ (by simp))
            rw [letter] at digit
            exact absurd digit (by decide)

/-- **A line behind an accepted text is not accepted, however little of it is there.** -/
theorem deserialize_recordText_glued (other record : WalRecord) {part : Bytes} (ne : part ≠ [])
    (isPrefix : part <+: recordLine record) :
    (deserialize (recordText other ++ part)).isOk = false := by
  cases decoded : deserialize (recordText other ++ part) with
  | error failure => rfl
  | ok result =>
      exfalso
      have spaces := four_spaces decoded
      rw [List.count_append, count_recordText] at spaces
      have clean : space ∉ part := List.count_eq_zero.1 (by omega)
      have inVersion : part <+: currentWalRecordFormatVersion := by
        obtain ⟨rest, split⟩ : ∃ rest,
            recordLine record = currentWalRecordFormatVersion ++ (space :: rest) :=
          ⟨_, by rw [recordLine, recordText, recordHead, List.append_assoc, List.append_assoc,
            List.cons_append]⟩
        rw [split] at isPrefix
        rcases List.prefix_or_prefix_of_prefix isPrefix (List.prefix_append _ _) with
          inside | ⟨more, rfl⟩
        · exact inside
        · have further := (List.prefix_append_right_inj _).1 isPrefix
          cases more with
          | nil => rw [List.append_nil]
          | cons first more =>
              have first_eq := (List.cons_prefix_cons.1 further).1
              exact absurd (List.mem_append_right _ (by rw [first_eq]; exact List.mem_cons_self))
                clean
      have fieldText : FieldText (encodeWalField other.value ++ part) := by
        have text := fieldText_encodeWalField other.value
        refine ⟨fun h => text.1 (List.append_eq_nil_iff.1 h).1, fun ch member => ?_⟩
        rcases List.mem_append.1 member with inField | inPart
        · exact text.2 ch inField
        · exact fieldText_version.2 ch (inVersion.subset inPart)
      rw [recordText, List.append_assoc, deserialize_head _ fieldText, decodeParts_fields] at decoded
      obtain ⟨value, success, -⟩ := Result.bind_eq_success decoded
      exact hexDecode_glued ne inVersion success

end AsterKV.Wal
