/-
# AsterKV.Asterd.ListenMode -- how the daemon is told its options

With `--listen` they come from the arguments, with `--config` from a file.  A value is the
options that `runListenMode` is called with, an error what is printed before the process
exits with a failure.
-/
import AsterKV.Config.ServerConfig

namespace AsterKV.Asterd

open AsterKV.Core AsterKV.Config AsterKV.Logging AsterKV.Network AsterKV.Server AsterKV.Wal

set_option autoImplicit false

def parsePositiveSize (value err : Bytes) : Result UInt64 :=
  let parseResult := fromChars (2 ^ 64 - 1) value
  if parseResult.ec ≠ none ∨ parseResult.ptr ≠ value.length ∨ parseResult.parsedValue = 0 then
    .failure (.invalidArgument err)
  else .success (UInt64.ofNat parseResult.parsedValue)

def parseIdleTimeoutSeconds (value : Bytes) : Result UInt32 :=
  match parsePositiveSize value (bytes "idle timeout must be a positive integer") with
  | .error failure => .failure failure.val
  | .ok parsedValue =>
      if parsedValue.toNat > 2 ^ 32 - 1 then
        .failure (.invalidArgument (bytes "idle timeout is too large"))
      else .success parsedValue.toUInt32

/-- A round of the loop at `optionName`; `value` is the argument behind it, if there is one. -/
def applyListenOption (options : TcpServerOptions) (optionName : Bytes) (value : Option Bytes) :
    Except Bytes TcpServerOptions :=
  if optionName = bytes "--max-clients" then
    match value with
    | none => .error (bytes "--max-clients requires <count>\n")
    | some value =>
        match parsePositiveSize value (bytes "max clients must be a positive integer") with
        | .error failure =>
            .error (bytes "Invalid max clients: " ++ failure.val.message ++ bytes "\n")
        | .ok parsedMaxClients => .ok { options with maxClientWorkers := parsedMaxClients }
  else if optionName = bytes "--idle-timeout" then
    match value with
    | none => .error (bytes "--idle-timeout requires <seconds>\n")
    | some value =>
        match parseIdleTimeoutSeconds value with
        | .error failure =>
            .error (bytes "Invalid idle timeout: " ++ failure.val.message ++ bytes "\n")
        | .ok parsedIdleTimeout =>
            .ok { options with clientIdleTimeoutSeconds := parsedIdleTimeout }
  else if optionName = bytes "--log-level" then
    match value with
    | none => .error (bytes "--log-level requires <level>\n")
    | some value =>
        match logLevelFromString value with
        | .error failure =>
            .error (bytes "Invalid log level: " ++ failure.val.message ++ bytes "\n")
        | .ok parsedLogLevel => .ok { options with logLevel := parsedLogLevel }
  else if optionName = bytes "--wal-file" then
    match value with
    | none => .error (bytes "--wal-file requires <path>\n")
    | some walFilePath =>
        if walFilePath.isEmpty then
          .error (bytes "Invalid WAL file path: path must not be empty\n")
        else .ok { options with walFilePath := walFilePath }
  else if optionName = bytes "--wal-sync" then
    match value with
    | none => .error (bytes "--wal-sync requires <policy>\n")
    | some raw =>
        match walSyncPolicyFromString raw with
        | .error failure =>
            .error (bytes "Invalid WAL sync policy: " ++ failure.val.message ++ bytes "\n")
        | .ok policy => .ok { options with walSyncPolicy := policy }
  else .error (bytes "Unknown listen option: " ++ optionName ++ bytes "\n")

/-- The loop, on the arguments from `index` on; a round takes two of them. -/
def listenOptions : TcpServerOptions → List Bytes → Except Bytes TcpServerOptions
  | options, [] => .ok options
  | options, [optionName] => applyListenOption options optionName none
  | options, optionName :: value :: rest =>
      match applyListenOption options optionName (some value) with
      | .error printed => .error printed
      | .ok options => listenOptions options rest

def runListenModeFromArguments (argv : List Bytes) : Except Bytes TcpServerOptions :=
  match argv.drop 2 with
  | [] => .error (bytes "--listen requires <host:port>\n")
  | address :: arguments =>
      match parseTcpEndpoint address with
      | .error failure =>
          .error (bytes "Invalid listen address: " ++ failure.val.message ++ bytes "\n")
      | .ok endpoint => listenOptions { defaultServerOptions with endpoint := endpoint } arguments

def runConfigModeFromArguments (argv : List Bytes) (file : ConfigFile) :
    Except Bytes TcpServerOptions :=
  match argv with
  | [_, _, path] =>
      match loadServerConfig path file with
      | .error failure =>
          .error (bytes "Config error: " ++ failure.val.codeString ++ bytes " " ++
            failure.val.message ++ bytes "\n")
      | .ok options => .ok options
  | _ => .error (bytes "--config requires <path>\n")

end AsterKV.Asterd
