/-
# AsterKV.Protocol.Parser -- from a command line to a request

A line is cut into its maximal runs without whitespace; the first names the command,
the others are its arguments.
-/
import AsterKV.Command.Command

namespace AsterKV.Protocol

open AsterKV.Core AsterKV.Command

set_option autoImplicit false

/-- `std::isspace` in the C locale: space, tab, line feed, vertical tab, form feed and
carriage return. -/
def isAsciiWhitespace (value : UInt8) : Bool := value == space || (9 ≤ value && value ≤ 13)

def isBlank (line : Bytes) : Bool := line.all isAsciiWhitespace

/-- The rounds of the loop: skip whitespace, then take a token.  Every round but the
last takes a byte, so as many rounds as the line has bytes are enough. -/
def tokenizeRounds : Nat → Bytes → List Bytes
  | 0, _ => []
  | rounds + 1, line =>
      match line.dropWhile isAsciiWhitespace with
      | [] => []
      | rest =>
          rest.takeWhile (!isAsciiWhitespace ·) ::
            tokenizeRounds rounds (rest.dropWhile (!isAsciiWhitespace ·))

def tokenizeCommandLine (line : Bytes) : List Bytes := tokenizeRounds line.length line

def emptyCommandLineStatus : Status := .invalidArgument (bytes "command line must not be empty")

def parseCommandLine (line : Bytes) : Result CommandRequest :=
  if line.isEmpty || isBlank line then .failure emptyCommandLineStatus
  else match tokenizeCommandLine line with
    | [] => .failure emptyCommandLineStatus
    | name :: arguments =>
        match commandTypeFromString name with
        | .error failure => .failure failure.val
        | .ok type =>
            let request : CommandRequest := { type := type, arguments := arguments }
            let validationStatus := validateCommandRequest request
            if !validationStatus.isOk then .failure validationStatus else .success request

/-- An accepted line has the number of arguments its command takes. -/
theorem arguments_of_parseCommandLine {line : Bytes} {request : CommandRequest}
    (accepted : parseCommandLine line = .success request) :
    request.arguments.length = expectedArgumentCount request.type := by
  unfold parseCommandLine at accepted
  split at accepted
  · cases accepted
  · split at accepted
    · cases accepted
    · split at accepted
      · cases accepted
      · simp only at accepted
        split at accepted
        · cases accepted
        · next valid =>
            cases Except.ok.inj accepted
            exact validateCommandRequest_isOk.1 (by simpa using valid)

end AsterKV.Protocol
