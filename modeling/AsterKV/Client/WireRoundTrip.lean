/-
# AsterKV.Client.WireRoundTrip -- which results survive the wire

Neither the factories of `CommandResponse` nor the serializer look at a text, and the lines
of the format have no escapes: a text is cut at its first line feed, and an empty one leaves
a line that the client takes for incomplete.  `wire_round_trip_iff` says exactly what comes
through.  Carriage returns do, also a last one, because the client takes one of them off and
the serializer has put one on.
-/
import AsterKV.Client.BulkGrammar
import AsterKV.Client.DecodedResponses

namespace AsterKV.Client

open AsterKV.Core AsterKV.Execution AsterKV.Protocol

set_option autoImplicit false

/-- What was sent, as the client should see it. -/
def sentResponse : Result CommandResponse → ProtocolResponse
  | .ok (.simpleString text) => ⟨.simpleString, text⟩
  | .ok (.bulkString value) => ⟨.bulkString, value⟩
  | .ok (.integer number) => ⟨.integer, toSignedDecimal number⟩
  | .error failure => ⟨.error, errorText failure.val⟩

/-- A simple string is a line that is not empty, a message has no line feed, and the size of
a value is a `std::size_t`. -/
def Survives : Result CommandResponse → Prop
  | .ok (.simpleString text) => text ≠ [] ∧ lineFeed ∉ text
  | .ok (.bulkString value) => value.length < 2 ^ 64
  | .ok (.integer _) => True
  | .error failure => lineFeed ∉ failure.val.message

theorem lineFeed_notMem_line {input : Bytes} {firstLine : FirstLine}
    (read : readFirstLine input = .success firstLine) : lineFeed ∉ firstLine.line := by
  have stripped : ∀ line : Bytes, lineFeed ∉ line → lineFeed ∉ withoutCarriageReturn line := by
    intro line clean member
    unfold withoutCarriageReturn at member
    split at member
    · exact clean (List.mem_of_mem_dropLast member)
    · exact clean member
  by_cases filled : input = []
  · rw [filled] at read
    cases read
  · by_cases present : lineFeed ∈ input
    · obtain ⟨line, rest, rfl, clean⟩ := List.eq_append_cons_of_mem present
      rw [readFirstLine_lineFeed clean] at read
      rw [← Except.ok.inj read]
      exact stripped line clean
    · rw [readFirstLine_whole filled present] at read
      rw [← Except.ok.inj read]
      exact stripped input present

/-- What a line gives is a line again, and not empty. -/
theorem oneLine_of_parseLineResponse {kind : ProtocolResponseKind} {raw : Bytes}
    {response : ProtocolResponse} (accepted : parseLineResponse kind raw = .success response) :
    OneLine response.value := by
  unfold parseLineResponse at accepted
  split at accepted
  · cases accepted
  · rename_i firstLine read
    split at accepted
    · cases accepted
    · rename_i long
      simp only at accepted
      split at accepted
      · cases accepted
      · rw [← Except.ok.inj accepted]
        constructor
        · intro empty
          have := List.drop_eq_nil_iff.1 empty
          omega
        · intro member
          exact lineFeed_notMem_line read (List.mem_of_mem_drop member)

theorem small_of_bulkText {raw payload : Bytes} (text : BulkText raw payload) :
    payload.length < 2 ^ 64 := by
  cases text with
  | full numeral small ends trails => exact small
  | headerOnly numeral ends => simp

/-- **The wire, exactly.**  A result is decoded as what was sent if and only if a line can
carry it, where it is sent as a line. -/
theorem wire_round_trip_iff (result : Result CommandResponse) :
    parseProtocolResponse (serializeExecutionResult result) = .success (sentResponse result) ↔
      Survives result := by
  constructor
  · intro decoded
    cases result with
    | error failure =>
        intro member
        rw [serializeExecutionResult, serializeStatus_failure] at decoded
        have accepted : parseLineResponse .error
            (byte '-' :: (errorText failure.val ++ bytes "\r\n")) =
              .success (sentResponse (.error failure)) := decoded
        refine (oneLine_of_parseLineResponse accepted).2 ?_
        have filled : ¬ failure.val.message.isEmpty = true := by
          simpa using List.ne_nil_of_mem member
        rw [sentResponse, errorText, if_neg filled]
        simp [member]
    | ok response =>
        cases response with
        | simpleString text =>
            have accepted : parseLineResponse .simpleString (serializeSimpleString text) =
              .success ⟨.simpleString, text⟩ := decoded
            exact oneLine_of_parseLineResponse accepted
        | bulkString value => exact small_of_bulkText (bulkText_iff.1 decoded)
        | integer number => exact trivial
  · intro survives
    cases result with
    | error failure =>
        have read := parse_errorText survives []
        rwa [List.append_nil] at read
    | ok response =>
        cases response with
        | simpleString text =>
            have read := parse_simpleString survives []
            rwa [List.append_nil] at read
        | bulkString value => exact parse_bulkString survives
        | integer number =>
            have read := parse_integer number []
            rwa [List.append_nil] at read

/-- Not every result does: an empty text is refused, and of two lines the second is lost. -/
theorem texts_lost_on_the_wire :
    (¬ ∀ result : Result CommandResponse,
      parseProtocolResponse (serializeExecutionResult result) = .success (sentResponse result)) ∧
    (parseProtocolResponse (serializeCommandResponse (.simpleString []))).isOk = false ∧
    parseProtocolResponse (serializeCommandResponse (.simpleString (bytes "two\nlines"))) =
      .success ⟨.simpleString, bytes "two"⟩ ∧
    parseProtocolResponse (serializeStatus (.notFound (bytes "two\nlines"))) =
      .success ⟨.error, bytes "ERR not_found two"⟩ := by
  refine ⟨fun all => ?_, by decide, by decide, by decide⟩
  have empty := all (.success (.simpleString []))
  revert empty
  decide

end AsterKV.Client
