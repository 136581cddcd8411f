/-
# AsterKV.Config.ServerConfig -- the configuration file

One `key = value` a line; blank lines and lines that start with `#` are skipped.  The text
is cut at line feeds only, so the carriage return of a CR LF ending is part of the line and
goes with the other blanks around key and value.
-/
import Mathlib.Data.List.DropRight
import AsterKV.Core.FromChars
import AsterKV.Server.TcpServerOptions

namespace AsterKV.Config

open AsterKV.Core AsterKV.Logging AsterKV.Network AsterKV.Server AsterKV.Wal

set_option autoImplicit false

def isAsciiSpace (ch : UInt8) : Bool :=
  ch == space || ch == byte '\t' || ch == carriageReturn || ch == lineFeed

def trim (value : Bytes) : Bytes := (value.dropWhile isAsciiSpace).rdropWhile isAsciiSpace

def isCommentOrEmptyLine (line : Bytes) : Bool :=
  match trim line with
  | [] => true
  | front :: _ => front == byte '#'

def makeLineError (lineNumber : Nat) (message : Bytes) : Status :=
  .invalidArgument (bytes "line " ++ toDecimal lineNumber ++ bytes ": " ++ message)

def parsePositiveSizeValue (value : Bytes) (lineNumber : Nat) (fieldName : Bytes) :
    Result UInt64 :=
  let value := trim value
  let result := fromChars (2 ^ 64 - 1) value
  if result.ec ≠ none ∨ result.ptr ≠ value.length ∨ result.parsedValue = 0 then
    .failure (makeLineError lineNumber (fieldName ++ bytes " must be a positive integer"))
  else .success (UInt64.ofNat result.parsedValue)

def parsePositiveUint32Value (value : Bytes) (lineNumber : Nat) (fieldName : Bytes) :
    Result UInt32 :=
  match parsePositiveSizeValue value lineNumber fieldName with
  | .error failure => .failure failure.val
  | .ok parsedSize =>
      if parsedSize.toNat > 2 ^ 32 - 1 then
        .failure (makeLineError lineNumber (fieldName ++ bytes " is too large"))
      else .success parsedSize.toUInt32

/-- The status, and the options as the call leaves them. -/
def applyConfigEntry (options : TcpServerOptions) (key value : Bytes) (lineNumber : Nat) :
    Status × TcpServerOptions :=
  let key := trim key
  let value := trim value
  if key.isEmpty then (makeLineError lineNumber (bytes "config key must not be empty"), options)
  else if key = bytes "listen" then
    match parseTcpEndpoint value with
    | .error failure =>
        (makeLineError lineNumber (bytes "invalid listen endpoint: " ++ failure.val.message),
          options)
    | .ok endpoint => (.ok, { options with endpoint := endpoint })
  else if key = bytes "max_clients" then
    match parsePositiveSizeValue value lineNumber (bytes "max_clients") with
    | .error failure => (failure.val, options)
    | .ok parsed => (.ok, { options with maxClientWorkers := parsed })
  else if key = bytes "idle_timeout_seconds" then
    match parsePositiveUint32Value value lineNumber (bytes "idle_timeout_seconds") with
    | .error failure => (failure.val, options)
    | .ok parsed => (.ok, { options with clientIdleTimeoutSeconds := parsed })
  else if key = bytes "log_level" then
    match logLevelFromString value with
    | .error failure =>
        (makeLineError lineNumber (bytes "invalid log_level: " ++ failure.val.message), options)
    | .ok parsed => (.ok, { options with logLevel := parsed })
  else if key = bytes "wal_file" then
    if value.isEmpty then (makeLineError lineNumber (bytes "wal_file must not be empty"), options)
    else (.ok, { options with walFilePath := value })
  else if key = bytes "wal_sync" then
    match walSyncPolicyFromString value with
    | .error failure => (makeLineError lineNumber failure.val.message, options)
    | .ok policy => (.ok, { options with walSyncPolicy := policy })
  else (makeLineError lineNumber (bytes "unknown config key: " ++ key), options)

def parseConfigLine (options : TcpServerOptions) (line : Bytes) (lineNumber : Nat) :
    Status × TcpServerOptions :=
  if isCommentOrEmptyLine line then (.ok, options)
  else if byte '=' ∉ line then (makeLineError lineNumber (bytes "expected key = value"), options)
  else
    let separatorPos := line.idxOf (byte '=')
    applyConfigEntry options (line.take separatorPos) (line.drop (separatorPos + 1)) lineNumber

/-- The rounds of the loop on what is left of the text; every round but the last takes a
line feed. -/
def parseRounds : Nat → TcpServerOptions → Nat → Bytes → Result TcpServerOptions
  | 0, options, _, _ => .success options
  | rounds + 1, options, lineNumber, config =>
      let lineEnd := config.idxOf lineFeed
      let (status, options) := parseConfigLine options (config.take lineEnd) lineNumber
      if !status.isOk then .failure status
      else if lineFeed ∉ config then .success options
      else parseRounds rounds options (lineNumber + 1) (config.drop (lineEnd + 1))

def parseServerConfig (config : Bytes) : Result TcpServerOptions :=
  parseRounds (config.length + 1) defaultServerOptions 1 config

/-- What opening and reading the file comes to. -/
inductive ConfigFile where
  | unopened
  /-- Reading failed after these bytes. -/
  | stopped (read : Bytes)
  | content (config : Bytes)
  deriving DecidableEq, Repr

/-- `input.bad()`.  A read that fails inside `buffer << input.rdbuf()` marks `buffer`, not
`input`. -/
def ConfigFile.bad : ConfigFile → Bool
  | .unopened | .stopped _ | .content _ => false

def loadServerConfig (path : Bytes) (input : ConfigFile) : Result TcpServerOptions :=
  match input with
  | .unopened => .failure (.unavailable (bytes "failed to open config file: " ++ path))
  | .stopped buffer | .content buffer =>
      if input.bad then .failure (.unavailable (bytes "failed to read config file: " ++ path))
      else parseServerConfig buffer

theorem loadServerConfig_content (path config : Bytes) :
    loadServerConfig path (.content config) = parseServerConfig config := rfl

/-- A file that cannot be read to its end is taken as far as it was read. -/
theorem loadServerConfig_stopped (path read : Bytes) :
    loadServerConfig path (.stopped read) = loadServerConfig path (.content read) := rfl

end AsterKV.Config
