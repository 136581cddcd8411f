/-
# AsterKV.Server.TcpServerOptions -- what a server is started with
-/
import AsterKV.Logging.LogLevel
import AsterKV.Network.TcpEndpoint
import AsterKV.Network.TcpServer
import AsterKV.Wal.FileWriter

namespace AsterKV.Server

open AsterKV.Core AsterKV.Logging AsterKV.Network AsterKV.Wal

set_option autoImplicit false

/-- An empty `walFilePath` is no log. -/
structure TcpServerOptions where
  endpoint : TcpEndpoint
  maxClientWorkers : UInt64
  clientIdleTimeoutSeconds : UInt32
  logLevel : LogLevel
  walFilePath : Bytes
  walSyncPolicy : WalSyncPolicy
  deriving DecidableEq, Repr

def defaultServerOptions : TcpServerOptions where
  endpoint := { host := bytes "127.0.0.1", port := defaultClientPort }
  maxClientWorkers := defaultMaxClientWorkers
  clientIdleTimeoutSeconds := defaultClientIdleTimeoutSeconds
  logLevel := defaultLogLevel
  walFilePath := []
  walSyncPolicy := .fsyncEveryWrite

end AsterKV.Server
