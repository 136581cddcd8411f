/-
# AsterKV.Protocol.PipelinedResponses -- a stream of responses has one reading

A response is its first line, a line feed, and for a bulk string the payload behind it
(`serialize_eq`).  The line holds no line feed, and it tells the kind, the text, and how
long the payload is, so the end of a response is known before a byte of the payload is
looked at.  What a value holds can not make one response look like another, or like
several (`pipelined_responses_decodable`).
-/
import AsterKV.Protocol.ResponseSerializer
import AsterKV.Theory.PrefixCode

namespace AsterKV.Protocol

open AsterKV.Core AsterKV.Execution Theory.PrefixCode

set_option autoImplicit false

/-- A result whose texts hold no line feed; a bulk string may hold anything. -/
def NoLineFeed : Result CommandResponse → Prop
  | .ok (.simpleString text) => lineFeed ∉ text
  | .ok (.bulkString _) => True
  | .ok (.integer _) => True
  | .error failure => lineFeed ∉ failure.val.message

/-! ## The first line and what is behind it -/

/-- The code of a status, and its message if there is one. -/
def statusText (status : Status) : Bytes :=
  status.codeString ++ (if status.message.isEmpty then [] else space :: status.message)

/-- What stands before the carriage return of the first line. -/
def firstLine : Result CommandResponse → Bytes
  | .ok (.simpleString text) => byte '+' :: text
  | .ok (.bulkString value) => byte '$' :: toDecimal value.length
  | .ok (.integer number) => byte ':' :: toSignedDecimal number
  | .error failure => byte '-' :: (bytes "ERR " ++ statusText failure.val)

def behindFirstLine : Result CommandResponse → Bytes
  | .ok (.bulkString value) => value ++ crlf
  | _ => []

theorem serialize_eq (result : Result CommandResponse) :
    serializeExecutionResult result =
      (firstLine result ++ [carriageReturn]) ++ lineFeed :: behindFirstLine result := by
  have ending : crlf = [carriageReturn, lineFeed] := rfl
  cases result with
  | error failure =>
      have front : bytes "-ERR " = byte '-' :: bytes "ERR " := rfl
      have failed := failure.property
      simp only [serializeExecutionResult, serializeStatus, failed, Bool.false_eq_true, if_false,
        firstLine, behindFirstLine, statusText, front, ending]
      simp
  | ok response =>
      cases response with
      | simpleString text =>
          simp [serializeExecutionResult, serializeCommandResponse, serializeSimpleString,
            firstLine, behindFirstLine, ending]
      | bulkString value =>
          simp [serializeExecutionResult, serializeCommandResponse, serializeBulkString,
            firstLine, behindFirstLine, ending]
      | integer number =>
          simp [serializeExecutionResult, serializeCommandResponse, serializeInteger,
            firstLine, behindFirstLine, ending]

theorem serialize_append (result : Result CommandResponse) (rest : Bytes) :
    serializeExecutionResult result ++ rest =
      (firstLine result ++ [carriageReturn]) ++ lineFeed :: (behindFirstLine result ++ rest) := by
  rw [serialize_eq, List.append_assoc, List.cons_append]

theorem lineFeed_notMem_firstLine {result : Result CommandResponse} (clean : NoLineFeed result) :
    lineFeed ∉ firstLine result ++ [carriageReturn] := by
  have notReturn : lineFeed ∉ [carriageReturn] := by decide
  rw [List.mem_append, not_or]
  refine ⟨?_, notReturn⟩
  cases result with
  | error failure =>
      have cleanMessage : lineFeed ∉ failure.val.message := clean
      have word : lineFeed ∉ failure.val.codeString := lineFeed_notMem_errorCodeToString _
      rw [firstLine, List.mem_cons, List.mem_append, statusText, List.mem_append]
      split
      · simp only [List.not_mem_nil, or_false, not_or]
        exact ⟨by decide, by decide, word⟩
      · rw [List.mem_cons]
        simp only [not_or]
        exact ⟨by decide, by decide, word, by decide, cleanMessage⟩
  | ok response =>
      cases response with
      | simpleString text =>
          rw [firstLine, List.mem_cons, not_or]
          exact ⟨by decide, clean⟩
      | bulkString value =>
          rw [firstLine, List.mem_cons, not_or]
          exact ⟨by decide, fun member =>
            absurd (isDigit_of_mem_toDecimal member) (by decide)⟩
      | integer number =>
          rw [firstLine, List.mem_cons, not_or]
          exact ⟨by decide, lineFeed_notMem_toSignedDecimal number⟩

/-! ## What the first line tells -/

theorem toSignedDecimal_injective {n m : Int64} (same : toSignedDecimal n = toSignedDecimal m) :
    n = m := by
  have minus : ∀ k : Nat, ∀ rest, toDecimal k ≠ byte '-' :: rest := by
    intro k rest is
    have digit : isDigit (byte '-') = true :=
      isDigit_of_mem_toDecimal (is ▸ List.mem_cons_self)
    exact absurd digit (by decide)
  have zero : (0 : Int64).toInt = 0 := rfl
  rw [← Int64.toInt_inj]
  unfold toSignedDecimal at same
  by_cases negN : n < 0 <;> by_cases negM : m < 0
  · rw [if_pos negN, if_pos negM] at same
    have sizes := toDecimal_injective (List.cons.inj same).2
    rw [Int64.lt_iff_toInt_lt, zero] at negN negM
    omega
  · rw [if_pos negN, if_neg negM] at same
    exact absurd same.symm (minus _ _)
  · rw [if_neg negN, if_pos negM] at same
    exact absurd same (minus _ _)
  · rw [if_neg negN, if_neg negM] at same
    have sizes := toDecimal_injective same
    rw [Int64.lt_iff_toInt_lt, zero] at negN negM
    omega

theorem errorCodeToString_injective {code other : ErrorCode}
    (same : errorCodeToString code = errorCodeToString other) : code = other := by
  cases code <;> cases other <;> first | rfl | exact absurd same (by decide)

/-- The name of a code is one word. -/
theorem space_notMem_errorCodeToString (code : ErrorCode) : space ∉ errorCodeToString code := by
  cases code <;> decide

/-- The code is the first word of a status text, the message is all behind it. -/
theorem statusText_injective {status other : Status} (same : statusText status = statusText other) :
    status = other := by
  obtain ⟨code, message⟩ := status
  obtain ⟨otherCode, otherMessage⟩ := other
  have word := space_notMem_errorCodeToString code
  have otherWord := space_notMem_errorCodeToString otherCode
  simp only [statusText, Status.codeString] at same
  by_cases empty : message = [] <;> by_cases otherEmpty : otherMessage = []
  · subst empty otherEmpty
    simp only [List.isEmpty_nil, if_true, List.append_nil] at same
    rw [errorCodeToString_injective same]
  · simp only [empty, otherEmpty, List.isEmpty_nil, List.isEmpty_iff, if_true, if_false,
      List.append_nil] at same
    exact absurd (same ▸ List.mem_append_right _ List.mem_cons_self) word
  · simp only [empty, otherEmpty, List.isEmpty_nil, List.isEmpty_iff, if_true, if_false,
      List.append_nil] at same
    exact absurd (same.symm ▸ List.mem_append_right _ List.mem_cons_self) otherWord
  · simp only [empty, otherEmpty, List.isEmpty_iff, if_false] at same
    obtain ⟨codes, rfl⟩ := split_at_sep word otherWord same
    rw [errorCodeToString_injective codes]

/-- The first line determines the result, up to the bytes of a bulk string. -/
theorem firstLine_cases {a b : Result CommandResponse} (same : firstLine a = firstLine b) :
    a = b ∨ ∃ value other, a = .ok (.bulkString value) ∧ b = .ok (.bulkString other) ∧
      value.length = other.length := by
  cases a with
  | error failure =>
      cases b with
      | error other =>
          have texts := List.append_cancel_left (List.cons.inj same).2
          have statuses : failure = other := Subtype.ext (statusText_injective texts)
          exact Or.inl (by rw [statuses])
      | ok response => cases response <;> exact absurd (List.cons.inj same).1 (by decide)
  | ok response =>
      cases b with
      | error other => cases response <;> exact absurd (List.cons.inj same).1 (by decide)
      | ok other =>
          cases response with
          | simpleString text =>
              cases other with
              | simpleString text' => exact Or.inl (by rw [(List.cons.inj same).2])
              | bulkString value => exact absurd (List.cons.inj same).1 (by decide)
              | integer number => exact absurd (List.cons.inj same).1 (by decide)
          | bulkString value =>
              cases other with
              | simpleString text => exact absurd (List.cons.inj same).1 (by decide)
              | bulkString value' =>
                  exact Or.inr ⟨value, value', rfl, rfl,
                    toDecimal_injective (List.cons.inj same).2⟩
              | integer number => exact absurd (List.cons.inj same).1 (by decide)
          | integer number =>
              cases other with
              | simpleString text => exact absurd (List.cons.inj same).1 (by decide)
              | bulkString value => exact absurd (List.cons.inj same).1 (by decide)
              | integer number' =>
                  exact Or.inl (by rw [toSignedDecimal_injective (List.cons.inj same).2])

/-! ## Streams -/

/-- **A response ends where it says, whatever is sent after it.** -/
theorem prefixFree_serializeExecutionResult : PrefixFree NoLineFeed serializeExecutionResult := by
  intro a b cleanA cleanB s t same
  rw [serialize_append, serialize_append] at same
  obtain ⟨lines, behind⟩ :=
    split_at_sep (lineFeed_notMem_firstLine cleanA) (lineFeed_notMem_firstLine cleanB) same
  rcases firstLine_cases (List.append_cancel_right lines) with
    equal | ⟨value, other, rfl, rfl, lengths⟩
  · exact equal
  · simp only [behindFirstLine, List.append_assoc] at behind
    rw [(List.append_inj behind lengths).1]

/-- **Pipelined responses are uniquely decodable.**  Two lists of results that are sent as
the same bytes are the same list. -/
theorem pipelined_responses_decodable {first second : List (Result CommandResponse)}
    (cleanFirst : ∀ result ∈ first, NoLineFeed result)
    (cleanSecond : ∀ result ∈ second, NoLineFeed result)
    (same : first.flatMap serializeExecutionResult = second.flatMap serializeExecutionResult) :
    first = second :=
  flatMap_injective prefixFree_serializeExecutionResult serializeExecutionResult_ne_nil cleanFirst
    cleanSecond same

/-- A value that looks like the end of one response and another. -/
theorem pipelined_responses_decodable_fake :
    [Result.success (CommandResponse.bulkString (bytes "a\r\n+OK")), .success (.integer (-1))] =
      [.success (.bulkString (bytes "a\r\n" ++ bytes "+OK")), .success (.integer (1 - 2))] :=
  @pipelined_responses_decodable
    [.success (.bulkString (bytes "a\r\n+OK")), .success (.integer (-1))]
    [.success (.bulkString (bytes "a\r\n" ++ bytes "+OK")), .success (.integer (1 - 2))]
    (by simp [NoLineFeed, Result.success]) (by simp [NoLineFeed, Result.success]) (by decide)

end AsterKV.Protocol
