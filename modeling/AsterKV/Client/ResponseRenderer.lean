/-
# AsterKV.Client.ResponseRenderer -- the client's reading of a response

`parseProtocolResponse` reads the first line, which may end with a line feed, with
carriage return and line feed, or with the input.  For a bulk string the line is the
payload's length; everything after the payload must be one line end, or nothing.
-/
import AsterKV.Core.Decimal

namespace AsterKV.Client

open AsterKV.Core

set_option autoImplicit false

inductive ProtocolResponseKind where
  | simpleString
  | error
  | integer
  | bulkString
  deriving DecidableEq, Repr

structure ProtocolResponse where
  kind : ProtocolResponseKind
  value : Bytes
  deriving DecidableEq, Repr

/-! ## Lines -/

structure FirstLine where
  line : Bytes
  nextIndex : Nat
  deriving DecidableEq, Repr

/-- `if (!line.empty() && line.back() == '\r') line.remove_suffix(1);` -/
def withoutCarriageReturn (line : Bytes) : Bytes :=
  if endsWith line carriageReturn then line.dropLast else line

def readFirstLine (input : Bytes) : Result FirstLine :=
  if input.isEmpty then .failure (.invalidArgument (bytes "protocol response is empty"))
  else if lineFeed ∈ input then
    let newLineIndex := input.idxOf lineFeed
    .success ⟨withoutCarriageReturn (input.take newLineIndex), newLineIndex + 1⟩
  else .success ⟨withoutCarriageReturn input, input.length⟩

def parseBulkLength (value : Bytes) : Result UInt64 :=
  parseUnsigned (bytes "bulk string length is empty") (bytes "bulk string length is not numeric")
    (bytes "bulk string length is too large") value

def isValidIntegerPayload : Bytes → Bool
  | [] => false
  | front :: rest =>
      if front = byte '-' then !rest.isEmpty && rest.all isDigit else (front :: rest).all isDigit

def hasValidBulkTrailingBytes (trailing : Bytes) : Bool :=
  trailing.isEmpty || trailing == bytes "\n" || trailing == bytes "\r\n"

/-! ## Responses -/

def parseLineResponse (kind : ProtocolResponseKind) (raw : Bytes) : Result ProtocolResponse :=
  match readFirstLine raw with
  | .error failure => .failure failure.val
  | .ok firstLine =>
      if firstLine.line.length < 2 then
        .failure (.invalidArgument (bytes "protocol response line is incomplete"))
      else
        let value := firstLine.line.drop 1
        if kind = .integer ∧ !isValidIntegerPayload value then
          .failure (.invalidArgument (bytes "integer response payload is invalid"))
        else .success { kind := kind, value := value }

def parseBulkStringResponse (raw : Bytes) : Result ProtocolResponse :=
  match readFirstLine raw with
  | .error failure => .failure failure.val
  | .ok firstLine =>
      if firstLine.line.length < 2 then
        .failure (.invalidArgument (bytes "bulk string response line is incomplete"))
      else match parseBulkLength (firstLine.line.drop 1) with
        | .error failure => .failure failure.val
        | .ok length =>
            if firstLine.nextIndex > raw.length then
              .failure (.invalidArgument (bytes "bulk string response payload is missing"))
            else
              let remaining := raw.drop firstLine.nextIndex
              if remaining.length < length.toNat then
                .failure (.invalidArgument (bytes "bulk string response payload is truncated"))
              else
                let payload := remaining.take length.toNat
                let trailingBytes := remaining.drop length.toNat
                if !hasValidBulkTrailingBytes trailingBytes then
                  .failure
                    (.invalidArgument (bytes "bulk string response has invalid trailing bytes"))
                else .success { kind := .bulkString, value := payload }

def parseProtocolResponse (raw : Bytes) : Result ProtocolResponse :=
  match raw with
  | [] => .failure (.invalidArgument (bytes "protocol response is empty"))
  | front :: _ =>
      if front = byte '+' then parseLineResponse .simpleString raw
      else if front = byte '-' then parseLineResponse .error raw
      else if front = byte ':' then parseLineResponse .integer raw
      else if front = byte '$' then parseBulkStringResponse raw
      else .failure (.invalidArgument (bytes "unknown protocol response prefix"))

/-! ## What a well formed response is read as -/

@[simp] theorem withoutCarriageReturn_append (line : Bytes) :
    withoutCarriageReturn (line ++ [carriageReturn]) = line := by
  simp [withoutCarriageReturn]

theorem readFirstLine_lineFeed {line : Bytes} (clean : lineFeed ∉ line) (rest : Bytes) :
    readFirstLine (line ++ lineFeed :: rest) =
      .success ⟨withoutCarriageReturn line, line.length + 1⟩ := by
  obtain ⟨index, first, -⟩ := parts_at_first clean rest
  rw [readFirstLine, if_neg (by simp), if_pos (by simp)]
  simp only [index, first]

theorem readFirstLine_whole {input : Bytes} (filled : input ≠ []) (clean : lineFeed ∉ input) :
    readFirstLine input = .success ⟨withoutCarriageReturn input, input.length⟩ := by
  rw [readFirstLine, if_neg (by simpa using filled), if_neg clean]

/-- The first line of an input is what comes before its first line end. -/
theorem readFirstLine_crlf {line : Bytes} (clean : lineFeed ∉ line) (rest : Bytes) :
    readFirstLine (line ++ bytes "\r\n" ++ rest) = .success ⟨line, line.length + 2⟩ := by
  have ending : bytes "\r\n" = [carriageReturn, lineFeed] := rfl
  have regroup : line ++ bytes "\r\n" ++ rest = (line ++ [carriageReturn]) ++ lineFeed :: rest := by
    simp [ending]
  have cleanAll : lineFeed ∉ line ++ [carriageReturn] := by
    rw [List.mem_append, List.mem_singleton, not_or]
    exact ⟨clean, by decide⟩
  rw [regroup, readFirstLine_lineFeed cleanAll, withoutCarriageReturn_append, List.length_append]
  rfl

/-- A line with a payload is read as its payload, whatever follows the line. -/
theorem parseLineResponse_crlf (kind : ProtocolResponseKind) (front : UInt8)
    {value : Bytes} (clean : lineFeed ∉ front :: value) (filled : value ≠ [])
    (integer : kind = .integer → isValidIntegerPayload value = true) (rest : Bytes) :
    parseLineResponse kind (front :: (value ++ bytes "\r\n") ++ rest) = .success ⟨kind, value⟩ := by
  have shape : front :: (value ++ bytes "\r\n") ++ rest =
      (front :: value) ++ bytes "\r\n" ++ rest := by simp
  have long : ¬ (front :: value).length < 2 := by
    have := List.length_pos_iff.2 filled
    rw [List.length_cons]
    omega
  have valid : ¬ (kind = .integer ∧ !isValidIntegerPayload value) := by
    rintro ⟨is, bad⟩
    simp [integer is] at bad
  simp only [parseLineResponse, shape, readFirstLine_crlf clean, Result.success, long, if_false,
    List.drop_succ_cons, List.drop_zero, valid]

/-- A payload after its length is read as it is, whatever its bytes. -/
theorem parseBulkStringResponse_crlf {value : Bytes} (fits : value.length < 2 ^ 64) :
    parseBulkStringResponse
        (byte '$' :: (toDecimal value.length ++ bytes "\r\n" ++ value ++ bytes "\r\n")) =
      .success ⟨.bulkString, value⟩ := by
  have clean : lineFeed ∉ byte '$' :: toDecimal value.length := by
    rw [List.mem_cons, not_or]
    refine ⟨by decide, fun member => ?_⟩
    exact absurd (isDigit_of_mem_toDecimal member) (by decide)
  have shape : byte '$' :: (toDecimal value.length ++ bytes "\r\n" ++ value ++ bytes "\r\n") =
      (byte '$' :: toDecimal value.length) ++ bytes "\r\n" ++ (value ++ bytes "\r\n") := by simp
  have long : ¬ (byte '$' :: toDecimal value.length).length < 2 := by
    have := List.length_pos_iff.2 (toDecimal_ne_nil value.length)
    rw [List.length_cons]
    omega
  have size : (UInt64.ofNat value.length).toNat = value.length := by
    rw [UInt64.toNat_ofNat']
    omega
  have parsed : parseBulkLength (toDecimal value.length) =
      .success (UInt64.ofNat value.length) := by
    have printed := parseUnsigned_toDecimal (bytes "bulk string length is empty")
      (bytes "bulk string length is not numeric") (bytes "bulk string length is too large")
      (UInt64.ofNat value.length)
    rwa [size] at printed
  have inside : ¬ (byte '$' :: toDecimal value.length).length + 2 >
      ((byte '$' :: toDecimal value.length) ++ bytes "\r\n" ++ (value ++ bytes "\r\n")).length := by
    have ending : (bytes "\r\n").length = 2 := rfl
    simp only [List.length_append, ending]
    omega
  have remaining : ((byte '$' :: toDecimal value.length) ++ bytes "\r\n" ++
      (value ++ bytes "\r\n")).drop ((byte '$' :: toDecimal value.length).length + 2) =
        value ++ bytes "\r\n" := List.drop_left' (by simp [bytes])
  have enough : ¬ (value ++ bytes "\r\n").length < value.length := by simp
  have trailing : hasValidBulkTrailingBytes (bytes "\r\n") = true := by decide
  simp only [parseBulkStringResponse, shape, readFirstLine_crlf clean, Result.success, long,
    if_false, List.drop_succ_cons, List.drop_zero, parsed, inside, remaining, size, enough,
    List.take_left, List.drop_left, trailing, Bool.not_true, Bool.false_eq_true]

end AsterKV.Client
