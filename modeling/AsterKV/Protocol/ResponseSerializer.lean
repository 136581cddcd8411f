/-
# AsterKV.Protocol.ResponseSerializer -- responses as bytes

A simple string, an integer and an error are one line, a bulk string is a line with
its length and then its bytes; every line ends with CR LF.
-/
import AsterKV.Core.Decimal
import AsterKV.Execution.CommandDispatcher

namespace AsterKV.Protocol

open AsterKV.Core AsterKV.Execution

set_option autoImplicit false

def crlf : Bytes := bytes "\r\n"

def serializeSimpleString (value : Bytes) : Bytes := byte '+' :: (value ++ crlf)

def serializeBulkString (value : Bytes) : Bytes :=
  byte '$' :: (toDecimal value.length ++ crlf ++ value ++ crlf)

/-- `std::to_string` of a signed number. -/
def toSignedDecimal (value : Int64) : Bytes :=
  if value < 0 then byte '-' :: toDecimal value.toInt.natAbs else toDecimal value.toInt.natAbs

def serializeInteger (value : Int64) : Bytes := byte ':' :: (toSignedDecimal value ++ crlf)

def serializeCommandResponse : CommandResponse → Bytes
  | .simpleString value => serializeSimpleString value
  | .bulkString value => serializeBulkString value
  | .integer value => serializeInteger value

def serializeStatus (status : Status) : Bytes :=
  if status.isOk then serializeSimpleString (bytes "OK")
  else
    bytes "-ERR " ++ status.codeString ++
      (if status.message.isEmpty then [] else space :: status.message) ++ crlf

def serializeExecutionResult (result : Result CommandResponse) : Bytes :=
  match result with
  | .ok response => serializeCommandResponse response
  | .error failure => serializeStatus failure.val

theorem lineFeed_notMem_toSignedDecimal (number : Int64) :
    lineFeed ∉ toSignedDecimal number := by
  have clean : lineFeed ∉ toDecimal number.toInt.natAbs := fun member =>
    absurd (isDigit_of_mem_toDecimal member) (by decide)
  unfold toSignedDecimal
  split
  · rw [List.mem_cons, not_or]
    exact ⟨by decide, clean⟩
  · exact clean

/-- The name of a code is one word. -/
theorem lineFeed_notMem_errorCodeToString (code : ErrorCode) :
    lineFeed ∉ errorCodeToString code := by
  cases code <;> decide

/-- A response always has bytes. -/
theorem serializeStatus_ne_nil (status : Status) : serializeStatus status ≠ [] := by
  unfold serializeStatus
  split
  · exact List.cons_ne_nil _ _
  · simp [crlf, bytes]

theorem serializeExecutionResult_ne_nil (result : Result CommandResponse) :
    serializeExecutionResult result ≠ [] := by
  cases result with
  | error failure => exact serializeStatus_ne_nil failure.val
  | ok response => cases response <;> exact List.cons_ne_nil _ _

end AsterKV.Protocol
