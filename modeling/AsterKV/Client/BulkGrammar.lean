/-
# AsterKV.Client.BulkGrammar -- the texts of a bulk response

A bulk response is `$`, a numeral, a line end, as many bytes as the numeral says, and
nothing or one more line end (`BulkText`).  Both line ends are lenient: a carriage return
may be missing, and where the numeral is 0 so may the line end of the header.
-/
import AsterKV.Client.ResponseRenderer

namespace AsterKV.Client

open AsterKV.Core

set_option autoImplicit false

/-- A line feed, with or without a carriage return. -/
def LineEnd (ending : Bytes) : Prop := ending = [lineFeed] ∨ ending = [carriageReturn, lineFeed]

/-- The texts that carry `payload`. -/
inductive BulkText : Bytes → Bytes → Prop
  | full {digits ending payload trailing : Bytes} (numeral : Numeral digits payload.length)
      (small : payload.length < 2 ^ 64) (ends : LineEnd ending)
      (trails : trailing = [] ∨ LineEnd trailing) :
      BulkText (byte '$' :: (digits ++ ending ++ payload ++ trailing)) payload
  | headerOnly {digits ending : Bytes} (numeral : Numeral digits 0)
      (ends : ending = [] ∨ ending = [carriageReturn]) :
      BulkText (byte '$' :: (digits ++ ending)) []

/-! ## The header -/

/-- A first line ends inside the input. -/
theorem nextIndex_le {input : Bytes} {firstLine : FirstLine}
    (read : readFirstLine input = .success firstLine) : firstLine.nextIndex ≤ input.length := by
  by_cases filled : input = []
  · rw [filled] at read
    cases read
  · by_cases present : lineFeed ∈ input
    · obtain ⟨line, rest, rfl, clean⟩ := List.eq_append_cons_of_mem present
      rw [readFirstLine_lineFeed clean] at read
      rw [← Except.ok.inj read]
      simp
    · rw [readFirstLine_whole filled present] at read
      rw [← Except.ok.inj read]

theorem hasValidBulkTrailingBytes_iff {trailing : Bytes} :
    hasValidBulkTrailingBytes trailing = true ↔ trailing = [] ∨ LineEnd trailing := by
  have short : bytes "\n" = [lineFeed] := rfl
  have long : bytes "\r\n" = [carriageReturn, lineFeed] := rfl
  simp [hasValidBulkTrailingBytes, LineEnd, short, long, or_assoc]

/-- What the header line says the length is, with the carriage return it may end with. -/
def Header (line : Bytes) (length : Nat) : Prop :=
  ∃ digits, Numeral digits length ∧
    (line = byte '$' :: digits ∨ line = byte '$' :: digits ++ [carriageReturn])

theorem endsWith_carriageReturn_iff {line : Bytes} :
    endsWith line carriageReturn = true ↔ ∃ front, line = front ++ [carriageReturn] := by
  rw [endsWith_iff, List.getLast?_eq_some_iff]

theorem header_iff {tail : Bytes} {length : Nat} :
    ¬ (withoutCarriageReturn (byte '$' :: tail)).length < 2 ∧
        Numeral ((withoutCarriageReturn (byte '$' :: tail)).drop 1) length ↔
      Header (byte '$' :: tail) length := by
  constructor
  · rintro ⟨long, numeral⟩
    unfold withoutCarriageReturn at numeral
    split at numeral
    · rename_i returns
      obtain ⟨front, shape⟩ := endsWith_carriageReturn_iff.1 returns
      cases front with
      | nil =>
          obtain ⟨sign, -⟩ := List.cons.inj shape
          exact absurd sign (by decide)
      | cons sign digits =>
          obtain ⟨rfl, rfl⟩ := List.cons.inj shape
          rw [shape, List.dropLast_concat] at numeral
          exact ⟨digits, numeral, Or.inr rfl⟩
    · exact ⟨tail, numeral, Or.inl rfl⟩
  · rintro ⟨digits, numeral, shape⟩
    have stripped : withoutCarriageReturn (byte '$' :: tail) = byte '$' :: digits := by
      rcases shape with shape | shape
      · rw [shape, withoutCarriageReturn, if_neg]
        intro returns
        rw [endsWith_iff, List.getLast?_cons, Option.some_inj] at returns
        obtain ⟨last, isLast⟩ := Option.ne_none_iff_exists'.1
          (fun none => numeral.filled (List.getLast?_eq_none_iff.1 none))
        rw [isLast, Option.getD_some] at returns
        have digit := numeral.digits last (List.mem_of_getLast? isLast)
        rw [returns] at digit
        exact absurd digit (by decide)
      · rw [shape, withoutCarriageReturn_append]
    rw [stripped]
    have := List.length_pos_iff.2 numeral.filled
    refine ⟨?_, numeral⟩
    rw [List.length_cons]
    omega

/-! ## The payload -/

/-- A bulk response by its first line and the rest. -/
theorem parseBulkStringResponse_eq_success_iff {raw rest : Bytes} {firstLine : FirstLine}
    (read : readFirstLine raw = .success firstLine) (inside : firstLine.nextIndex ≤ raw.length)
    (behind : raw.drop firstLine.nextIndex = rest) {response : ProtocolResponse} :
    parseBulkStringResponse raw = .success response ↔
      ∃ payload trailing, response = ⟨.bulkString, payload⟩ ∧
        (¬ firstLine.line.length < 2 ∧ Numeral (firstLine.line.drop 1) payload.length) ∧
        payload.length < 2 ^ 64 ∧ rest = payload ++ trailing ∧
        (trailing = [] ∨ LineEnd trailing) := by
  rw [parseBulkStringResponse, read]
  simp only [Result.success, not_lt.2 inside, if_false, behind]
  constructor
  · intro accepted
    split at accepted
    · cases accepted
    · rename_i long
      split at accepted
      · cases accepted
      · rename_i length parsed
        split at accepted
        · cases accepted
        · rename_i enough
          split at accepted
          · cases accepted
          · rename_i trails
            have measured : (rest.take length.toNat).length = length.toNat := by
              rw [List.length_take]
              omega
            refine ⟨rest.take length.toNat, rest.drop length.toNat, ?_, ⟨long, ?_⟩, ?_,
              (List.take_append_drop _ _).symm, ?_⟩
            · exact (Except.ok.inj accepted).symm
            · rw [measured]
              exact parseUnsigned_eq_success_iff_numeral.1 parsed
            · rw [measured]
              exact length.toNat_lt
            · exact hasValidBulkTrailingBytes_iff.1 (by simpa using trails)
  · rintro ⟨payload, trailing, rfl, ⟨long, numeral⟩, small, rfl, trails⟩
    have size : (UInt64.ofNat payload.length).toNat = payload.length := by
      rw [UInt64.toNat_ofNat']
      omega
    have parsed : parseBulkLength (firstLine.line.drop 1) =
        .ok (UInt64.ofNat payload.length) := by
      refine parseUnsigned_eq_success_iff_numeral.2 ?_
      rwa [size]
    have enough : ¬ (payload ++ trailing).length < payload.length := by
      rw [List.length_append]
      omega
    have valid := hasValidBulkTrailingBytes_iff.2 trails
    simp only [long, if_false, parsed, size, enough, List.drop_left, List.take_left, valid,
      Bool.not_true, Bool.false_eq_true]

theorem kind_of_parseBulkStringResponse {raw : Bytes} {response : ProtocolResponse}
    (accepted : parseBulkStringResponse raw = .success response) :
    ∃ payload, response = ⟨.bulkString, payload⟩ := by
  cases read : readFirstLine raw with
  | error failure =>
      rw [parseBulkStringResponse, read] at accepted
      cases accepted
  | ok firstLine =>
      obtain ⟨payload, trailing, same, -⟩ :=
        (parseBulkStringResponse_eq_success_iff read (nextIndex_le read) rfl).1 accepted
      exact ⟨payload, same⟩

theorem kind_of_parseLineResponse {kind : ProtocolResponseKind} {raw : Bytes}
    {response : ProtocolResponse} (accepted : parseLineResponse kind raw = .success response) :
    response.kind = kind := by
  unfold parseLineResponse at accepted
  split at accepted
  · cases accepted
  · split at accepted
    · cases accepted
    · simp only at accepted
      split at accepted
      · cases accepted
      · rw [← Except.ok.inj accepted]

/-- Only a text that starts with `$` is read as a bulk string. -/
theorem parseProtocolResponse_bulk_iff {raw payload : Bytes} :
    parseProtocolResponse raw = .success ⟨.bulkString, payload⟩ ↔
      ∃ tail, raw = byte '$' :: tail ∧
        parseBulkStringResponse raw = .success ⟨.bulkString, payload⟩ := by
  constructor
  · intro accepted
    unfold parseProtocolResponse at accepted
    split at accepted
    · cases accepted
    · rename_i front tail
      split at accepted
      · cases kind_of_parseLineResponse accepted
      · split at accepted
        · cases kind_of_parseLineResponse accepted
        · split at accepted
          · cases kind_of_parseLineResponse accepted
          · split at accepted
            · rename_i sign
              exact ⟨tail, by rw [sign], accepted⟩
            · cases accepted
  · rintro ⟨tail, rfl, accepted⟩
    exact accepted

/-- A text of one line. -/
theorem bulk_whole_iff {tail payload : Bytes} (clean : lineFeed ∉ byte '$' :: tail) :
    parseProtocolResponse (byte '$' :: tail) = .success ⟨.bulkString, payload⟩ ↔
      Header (byte '$' :: tail) 0 ∧ payload = [] := by
  have bulk : parseProtocolResponse (byte '$' :: tail) = parseBulkStringResponse (byte '$' :: tail) :=
    rfl
  rw [bulk, parseBulkStringResponse_eq_success_iff
    (readFirstLine_whole (List.cons_ne_nil _ _) clean) le_rfl List.drop_length]
  constructor
  · rintro ⟨response, trailing, same, header, -, shape, -⟩
    cases same
    obtain ⟨rfl, -⟩ := List.append_eq_nil_iff.1 shape.symm
    exact ⟨header_iff.1 header, rfl⟩
  · rintro ⟨header, rfl⟩
    exact ⟨[], [], rfl, header_iff.2 header, by simp, rfl, Or.inl rfl⟩

/-- A text of more lines. -/
theorem bulk_lineFeed_iff {tail payload : Bytes} (clean : lineFeed ∉ byte '$' :: tail)
    (rest : Bytes) :
    parseProtocolResponse (byte '$' :: tail ++ lineFeed :: rest) =
        .success ⟨.bulkString, payload⟩ ↔
      Header (byte '$' :: tail) payload.length ∧ payload.length < 2 ^ 64 ∧
        ∃ trailing, rest = payload ++ trailing ∧ (trailing = [] ∨ LineEnd trailing) := by
  have bulk : parseProtocolResponse (byte '$' :: tail ++ lineFeed :: rest) =
      parseBulkStringResponse (byte '$' :: tail ++ lineFeed :: rest) := rfl
  have inside : (byte '$' :: tail).length + 1 ≤ (byte '$' :: tail ++ lineFeed :: rest).length := by
    simp
  rw [bulk, parseBulkStringResponse_eq_success_iff (readFirstLine_lineFeed clean rest) inside
    (parts_at_first clean rest).2.2]
  constructor
  · rintro ⟨response, trailing, same, header, small, shape, trails⟩
    cases same
    exact ⟨header_iff.1 header, small, trailing, shape, trails⟩
  · rintro ⟨header, small, trailing, shape, trails⟩
    exact ⟨payload, trailing, rfl, header_iff.2 header, small, shape, trails⟩

/-! ## The grammar -/

theorem lineFeed_notMem_header {line : Bytes} {length : Nat} (header : Header line length) :
    lineFeed ∉ line := by
  obtain ⟨digits, numeral, shape⟩ := header
  have clean : lineFeed ∉ digits := fun member =>
    absurd (numeral.digits lineFeed member) (by decide)
  have sign : lineFeed ≠ byte '$' := by decide
  have return' : lineFeed ≠ carriageReturn := by decide
  rcases shape with rfl | rfl <;> simp [clean, sign, return']

theorem bulkText_iff {raw payload : Bytes} :
    parseProtocolResponse raw = .success ⟨.bulkString, payload⟩ ↔ BulkText raw payload := by
  constructor
  · intro accepted
    obtain ⟨tail, rfl, -⟩ := parseProtocolResponse_bulk_iff.1 accepted
    by_cases present : lineFeed ∈ tail
    · obtain ⟨before, rest, rfl, first⟩ := List.eq_append_cons_of_mem present
      have clean : lineFeed ∉ byte '$' :: before := by
        rw [List.mem_cons, not_or]
        exact ⟨by decide, first⟩
      obtain ⟨⟨digits, numeral, shape⟩, small, trailing, rfl, trails⟩ :=
        (bulk_lineFeed_iff clean rest).1 accepted
      rcases shape with shape | shape
      · obtain ⟨-, rfl⟩ := List.cons.inj shape
        have text := BulkText.full numeral small (Or.inl rfl) trails
        simpa using text
      · obtain ⟨-, rfl⟩ := List.cons.inj shape
        have text := BulkText.full numeral small (Or.inr rfl) trails
        simpa using text
    · have clean : lineFeed ∉ byte '$' :: tail := by
        rw [List.mem_cons, not_or]
        exact ⟨by decide, present⟩
      obtain ⟨⟨digits, numeral, shape⟩, rfl⟩ := (bulk_whole_iff clean).1 accepted
      rcases shape with shape | shape
      · obtain ⟨-, rfl⟩ := List.cons.inj shape
        have text := BulkText.headerOnly numeral (Or.inl rfl)
        rwa [List.append_nil] at text
      · obtain ⟨-, rfl⟩ := List.cons.inj shape
        exact BulkText.headerOnly numeral (Or.inr rfl)
  · intro text
    cases text with
    | @full digits ending _ trailing numeral small ends trails =>
        rcases ends with rfl | rfl
        · have header : Header (byte '$' :: digits) payload.length := ⟨digits, numeral, Or.inl rfl⟩
          have read := (bulk_lineFeed_iff (lineFeed_notMem_header header)
            (payload ++ trailing)).2 ⟨header, small, trailing, rfl, trails⟩
          simpa using read
        · have header : Header (byte '$' :: (digits ++ [carriageReturn])) payload.length :=
            ⟨digits, numeral, Or.inr rfl⟩
          have read := (bulk_lineFeed_iff (lineFeed_notMem_header header)
            (payload ++ trailing)).2 ⟨header, small, trailing, rfl, trails⟩
          simpa using read
    | @headerOnly digits ending numeral ends =>
        have header : Header (byte '$' :: (digits ++ ending)) 0 := by
          refine ⟨digits, numeral, ?_⟩
          rcases ends with rfl | rfl
          · exact Or.inl (by rw [List.append_nil])
          · exact Or.inr rfl
        exact (bulk_whole_iff (lineFeed_notMem_header header)).2 ⟨header, rfl⟩

/-- **Bulk responses.**  What is read as a bulk string is a text of it and nothing else.  A
length that is read is the number its digits denote, so it did not wrap, and the payload
that goes with it ends inside the input. -/
theorem bulk_response_grammar (raw : Bytes) :
    (∀ payload, parseProtocolResponse raw = .success ⟨.bulkString, payload⟩ ↔
      BulkText raw payload) ∧
    ∀ firstLine length, readFirstLine raw = .success firstLine →
      parseBulkLength (firstLine.line.drop 1) = .success length →
      Numeral (firstLine.line.drop 1) length.toNat ∧ firstLine.nextIndex ≤ raw.length ∧
        ∀ payload, parseProtocolResponse raw = .success ⟨.bulkString, payload⟩ →
          firstLine.nextIndex + length.toNat ≤ raw.length ∧
            payload = (raw.drop firstLine.nextIndex).take length.toNat := by
  refine ⟨fun payload => bulkText_iff, fun firstLine length read parsed => ?_⟩
  have numeral := parseUnsigned_eq_success_iff_numeral.1 parsed
  have inside := nextIndex_le read
  refine ⟨numeral, inside, fun payload accepted => ?_⟩
  obtain ⟨tail, -, bulk⟩ := parseProtocolResponse_bulk_iff.1 accepted
  obtain ⟨response, trailing, same, ⟨-, header⟩, -, shape, -⟩ :=
    (parseBulkStringResponse_eq_success_iff read inside rfl).1 bulk
  cases same
  have measured : payload.length = length.toNat := header.value.symm.trans numeral.value
  rw [shape, ← measured, List.take_left]
  have total := congrArg List.length shape
  rw [List.length_drop, List.length_append] at total
  exact ⟨by omega, rfl⟩

end AsterKV.Client
