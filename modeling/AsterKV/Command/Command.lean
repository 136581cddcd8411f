/-
# AsterKV.Command.Command -- the five commands

Command names are compared without regard to ASCII case; a request is a command
with exactly as many arguments as it takes.
-/
import AsterKV.Core.Status

namespace AsterKV.Command

open AsterKV.Core

set_option autoImplicit false

inductive CommandType where
  | ping
  | set
  | get
  | del
  | exists?
  deriving DecidableEq, Repr

structure CommandRequest where
  type : CommandType
  arguments : List Bytes
  deriving DecidableEq, Repr

/-- `std::toupper` in the C locale. -/
def toUpper (value : UInt8) : UInt8 :=
  if byte 'a' ≤ value && value ≤ byte 'z' then value - 32 else value

def asciiEqualsIgnoreCase (left right : Bytes) : Bool := left.map toUpper == right.map toUpper

def commandTypeToString : CommandType → Bytes
  | .ping => bytes "PING"
  | .set => bytes "SET"
  | .get => bytes "GET"
  | .del => bytes "DEL"
  | .exists? => bytes "EXISTS"

def expectedArgumentCount : CommandType → Nat
  | .ping => 0
  | .set => 2
  | .get => 1
  | .del => 1
  | .exists? => 1

def commandTypeFromString (commandName : Bytes) : Result CommandType :=
  if commandName.isEmpty then
    .failure (.invalidArgument (bytes "command name must not be empty"))
  else if asciiEqualsIgnoreCase commandName (bytes "PING") then .success .ping
  else if asciiEqualsIgnoreCase commandName (bytes "SET") then .success .set
  else if asciiEqualsIgnoreCase commandName (bytes "GET") then .success .get
  else if asciiEqualsIgnoreCase commandName (bytes "DEL") then .success .del
  else if asciiEqualsIgnoreCase commandName (bytes "EXISTS") then .success .exists?
  else .failure (.invalidArgument (bytes "unknown command"))

def validateCommandRequest (request : CommandRequest) : Status :=
  if request.arguments.length ≠ expectedArgumentCount request.type then
    .invalidArgument (bytes "invalid command argument count")
  else .ok

theorem validateCommandRequest_isOk {request : CommandRequest} :
    (validateCommandRequest request).isOk = true ↔
      request.arguments.length = expectedArgumentCount request.type := by
  unfold validateCommandRequest
  split
  · next other => simp [other]
  · next same => simpa using same

/-- Every command is read back from its own name. -/
theorem commandTypeFromString_toString (type : CommandType) :
    commandTypeFromString (commandTypeToString type) = .success type := by
  cases type <;> decide

end AsterKV.Command
