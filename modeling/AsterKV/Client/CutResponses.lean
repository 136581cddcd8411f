/-
# AsterKV.Client.CutResponses -- responses that are cut or followed by other bytes

The client reads until the connection is closed, so it may see a part of a response, or
more than one.  A bulk string is protected by its length and by the check of what follows
it.  A line is not: neither is its line end asked for, nor is anything said about the bytes
behind it.  `takenWhole_iff` puts this together for everything that the pipeline answers.
-/
import AsterKV.Client.BulkGrammar
import AsterKV.Client.DecodedResponses

namespace AsterKV.Client

open AsterKV.Core AsterKV.Command AsterKV.Execution AsterKV.Pipeline AsterKV.Protocol
open AsterKV.Storage
open Theory.Decimal

set_option autoImplicit false

/-- A part is refused or decoded as the whole, and with more bytes the whole is refused. -/
structure TakenWhole (sent : Bytes) : Prop where
  parts : ∀ part, part <+: sent → part ≠ sent → ∀ response,
    parseProtocolResponse part = .success response →
      parseProtocolResponse sent = .success response
  nothingBehind : ∀ more, more ≠ [] → (parseProtocolResponse (sent ++ more)).isOk = false

/-! ## Lines -/

/-- A line is read whatever follows it. -/
theorem not_takenWhole_of_sentAsLine {result : Result CommandResponse} (sent : SentAsLine result) :
    ¬ TakenWhole (serializeExecutionResult result) := by
  have read : ∃ response,
      parseProtocolResponse (serializeExecutionResult result ++ [byte 'x']) = .success response := by
    cases result with
    | error failure => exact ⟨_, parse_errorText sent.2 [byte 'x']⟩
    | ok response =>
        cases response with
        | simpleString text => exact ⟨_, parse_simpleString sent [byte 'x']⟩
        | bulkString value => exact sent.elim
        | integer number => exact ⟨_, parse_integer number [byte 'x']⟩
  intro whole
  obtain ⟨response, accepted⟩ := read
  have refused := whole.nothingBehind [byte 'x'] (List.cons_ne_nil _ _)
  rw [accepted] at refused
  cases refused

/-! ## Bulk strings -/

/-- The header as the serializer writes it, without its line feed. -/
def bulkHeader (length : Nat) : Bytes := byte '$' :: (toDecimal length ++ [carriageReturn])

theorem serializeBulkString_eq (value : Bytes) :
    serializeBulkString value = bulkHeader value.length ++ lineFeed :: (value ++ crlf) := by
  have ending : crlf = [carriageReturn, lineFeed] := rfl
  simp [serializeBulkString, bulkHeader, ending]

theorem header_bulkHeader {length n : Nat} : Header (bulkHeader length) n ↔ n = length := by
  constructor
  · rintro ⟨digits, numeral, shape | shape⟩
    · obtain ⟨-, shape⟩ := List.cons.inj shape
      have digit := numeral.digits carriageReturn (by simp [← shape])
      exact absurd digit (by decide)
    · obtain ⟨-, shape⟩ := List.cons.inj shape
      have shape : toDecimal length = digits := List.append_cancel_right shape
      have printed := (numeral_toDecimal length).value
      rw [shape, numeral.value] at printed
      exact printed
  · rintro rfl
    exact ⟨toDecimal n, numeral_toDecimal n, Or.inr rfl⟩

/-- What is read of a header and the bytes behind it. -/
theorem parse_bulkHeader {length : Nat} {rest : Bytes} {response : ProtocolResponse}
    (accepted : parseProtocolResponse (bulkHeader length ++ lineFeed :: rest) = .success response) :
    length < 2 ^ 64 ∧ ∃ payload trailing, response = ⟨.bulkString, payload⟩ ∧
      payload.length = length ∧ rest = payload ++ trailing ∧ (trailing = [] ∨ LineEnd trailing) := by
  have clean := lineFeed_notMem_header (header_bulkHeader.2 (Eq.refl length))
  obtain ⟨payload, rfl⟩ := kind_of_parseBulkStringResponse accepted
  obtain ⟨header, small, trailing, shape, trails⟩ := (bulk_lineFeed_iff clean rest).1 accepted
  have same := header_bulkHeader.1 header
  exact ⟨same ▸ small, payload, trailing, rfl, same, shape, trails⟩

/-- A printed length that starts like a text of the number 0 is 0. -/
theorem length_eq_zero_of_front {length : Nat} {digits : Bytes} (numeral : Numeral digits 0)
    (front : digits <+: toDecimal length) : length = 0 := by
  by_contra positive
  obtain ⟨first, more, rfl⟩ := List.exists_cons_of_ne_nil numeral.filled
  have least := le_ofDigitsFrom (0 * 10 + (digitValue first).toNat) (digitsOf more)
  have value : ofDigitsFrom (0 * 10 + (digitValue first).toNat) (digitsOf more) = 0 := numeral.value
  have none : (digitValue first).toNat = 0 := by omega
  have zero : first = byte '0' := by
    rw [← digitByte_digitValue (numeral.digits first List.mem_cons_self), none]
    rfl
  -- A printed number other than 0 is its own text without leading zeros.
  obtain ⟨behind, printed⟩ := front
  have stripped := (numeral_toDecimal length).toDecimal_eq positive
  rw [← printed, zero, List.cons_append, List.dropWhile_cons_of_pos (by simp)] at stripped
  have shorter := (List.dropWhile_sublist (l := more ++ behind) (· == byte '0')).length_le
  rw [← stripped, List.length_cons] at shorter
  omega

/-- A header that is cut is refused, unless the value is empty. -/
theorem parse_cutHeader {length : Nat} {part : Bytes} {response : ProtocolResponse}
    (cut : part <+: bulkHeader length)
    (accepted : parseProtocolResponse part = .success response) :
    length = 0 ∧ response = ⟨.bulkString, []⟩ := by
  cases part with
  | nil => cases accepted
  | cons sign tail =>
      obtain ⟨rfl, cutTail⟩ := List.cons_prefix_cons.1 cut
      have clean : lineFeed ∉ byte '$' :: tail := fun member =>
        lineFeed_notMem_header (header_bulkHeader.2 (Eq.refl length)) (cut.subset member)
      obtain ⟨payload, rfl⟩ := kind_of_parseBulkStringResponse accepted
      obtain ⟨⟨digits, numeral, shape⟩, rfl⟩ := (bulk_whole_iff clean).1 accepted
      refine ⟨length_eq_zero_of_front numeral ?_, rfl⟩
      have start : digits <+: toDecimal length ++ [carriageReturn] := by
        rcases shape with shape | shape
        · rwa [(List.cons.inj shape).2] at cutTail
        · rw [(List.cons.inj shape).2] at cutTail
          exact (List.prefix_append digits [carriageReturn]).trans cutTail
      rcases List.prefix_concat_iff.1 start with whole | inside
      · have digit := numeral.digits carriageReturn (by simp [whole])
        exact absurd digit (by decide)
      · exact inside

theorem takenWhole_serializeBulkString (value : Bytes) : TakenWhole (serializeBulkString value) where
  parts part isPart isShorter response accepted := by
    have emptyValue : value.length = 0 ∧ response = ⟨.bulkString, []⟩ →
        parseProtocolResponse (serializeBulkString value) = .success response := by
      rintro ⟨empty, rfl⟩
      rw [List.length_eq_zero_iff.1 empty]
      exact parse_bulkString (by simp)
    rw [serializeBulkString_eq] at isPart
    obtain ⟨behind, whole⟩ := isPart
    rcases List.append_eq_append_iff.1 whole with ⟨cut, header, -⟩ | ⟨front, rfl, rest⟩
    · exact emptyValue (parse_cutHeader ⟨cut, header.symm⟩ accepted)
    · cases front with
      | nil =>
          rw [List.append_nil] at accepted
          exact emptyValue (parse_cutHeader (List.prefix_refl _) accepted)
      | cons feed front =>
          obtain ⟨rfl, values⟩ := List.cons.inj rest
          obtain ⟨small, payload, trailing, rfl, size, rfl, -⟩ := parse_bulkHeader accepted
          have same : value ++ crlf = payload ++ (trailing ++ behind) := by
            rw [values, ← List.append_assoc]
            rfl
          obtain ⟨rfl, -⟩ := List.append_inj same size.symm
          exact parse_bulkString small
  nothingBehind more filled := by
    cases read : parseProtocolResponse (serializeBulkString value ++ more) with
    | error failure => rfl
    | ok response =>
        rw [serializeBulkString_eq, List.append_assoc, List.cons_append] at read
        obtain ⟨-, payload, trailing, -, size, shape, trails⟩ := parse_bulkHeader read
        rw [List.append_assoc] at shape
        obtain ⟨-, behind⟩ := List.append_inj shape size.symm
        have ending : crlf ++ more = carriageReturn :: lineFeed :: more := rfl
        rw [← behind, ending] at trails
        rcases trails with none | short | long
        · cases none
        · cases short
        · simp only [List.cons.injEq, true_and] at long
          exact absurd long filled

/-- **Cut and continued responses.**  Of what the pipeline answers, only the value of a key
is always taken whole: every other answer is read too early or with bytes behind it. -/
theorem takenWhole_iff (storage : InMemoryStorage) (line : Bytes) :
    TakenWhole (processLine storage line).1 ↔ ∃ value, GetsValue storage line value := by
  rw [processLine_eq_serialize]
  rcases executeLine_cases storage line with ⟨value, gets, executes⟩ | ⟨noValue, sent⟩
  · rw [executes]
    exact ⟨fun _ => ⟨value, gets⟩, fun _ => takenWhole_serializeBulkString value⟩
  · exact ⟨fun whole => absurd whole (not_takenWhole_of_sentAsLine sent),
      fun gets => absurd gets noValue⟩

/-- The answer to a `PING` is decoded when it is cut, and when more follows it. -/
theorem pong_not_takenWhole :
    parseProtocolResponse (bytes "+PO") = .success ⟨.simpleString, bytes "PO"⟩ ∧
      parseProtocolResponse (bytes "+PONG\r\n+OK\r\n") = .success ⟨.simpleString, bytes "PONG"⟩ ∧
      (processLine InMemoryStorage.empty (bytes "PING")).1 = bytes "+PONG\r\n" ∧
      ¬ TakenWhole (processLine InMemoryStorage.empty (bytes "PING")).1 := by
  refine ⟨by decide, by decide, by decide, fun whole => ?_⟩
  have refused := whole.nothingBehind (bytes "+OK\r\n") (by decide)
  revert refused
  decide

end AsterKV.Client
