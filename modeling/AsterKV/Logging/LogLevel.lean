/-
# AsterKV.Logging.LogLevel -- how much is logged

Level names are compared without regard to ASCII case, and `warn` has a second one.
-/
import AsterKV.Core.Status

namespace AsterKV.Logging

open AsterKV.Core

set_option autoImplicit false

inductive LogLevel where
  | debug
  | info
  | warn
  | error
  | critical
  | off
  deriving DecidableEq, Repr

def defaultLogLevel : LogLevel := .info

/-- `ch >= 'A' && ch <= 'Z' ? ch - 'A' + 'a' : ch`. -/
def normalized (ch : UInt8) : UInt8 :=
  if byte 'A' ≤ ch && ch ≤ byte 'Z' then ch - byte 'A' + byte 'a' else ch

def equalsIgnoreCase (left right : Bytes) : Bool := left.map normalized == right.map normalized

def logLevelToString : LogLevel → Bytes
  | .debug => bytes "debug"
  | .info => bytes "info"
  | .warn => bytes "warn"
  | .error => bytes "error"
  | .critical => bytes "critical"
  | .off => bytes "off"

def logLevelFromString (level : Bytes) : Result LogLevel :=
  if equalsIgnoreCase level (bytes "debug") then .success .debug
  else if equalsIgnoreCase level (bytes "info") then .success .info
  else if equalsIgnoreCase level (bytes "warn") || equalsIgnoreCase level (bytes "warning") then
    .success .warn
  else if equalsIgnoreCase level (bytes "error") then .success .error
  else if equalsIgnoreCase level (bytes "critical") then .success .critical
  else if equalsIgnoreCase level (bytes "off") then .success .off
  else .failure (.invalidArgument (bytes "unknown log level"))

/-- Every level is read back from its own name. -/
theorem logLevelFromString_toString (level : LogLevel) :
    logLevelFromString (logLevelToString level) = .success level := by
  cases level <;> decide

end AsterKV.Logging
