/-
# AsterKV.Asterd.Main -- the daemon from its arguments to its exit status

`main` picks the mode.  The listen mode prints its options, runs the server and turns the
status of `run` into an exit status; with `EXIT_SUCCESS` it says that the server was asked to
stop, and nothing else (`exit_status`).

What the logger writes to the same stream is left out.
-/
import AsterKV.Asterd.LocalMode
import AsterKV.Asterd.StartOptions
import AsterKV.Network.RunStatus
import AsterKV.Network.Shutdown
import AsterKV.Server.TcpServerRuntime

namespace AsterKV.Asterd

open AsterKV.Core AsterKV.Config AsterKV.Logging AsterKV.Network AsterKV.Pipeline
open AsterKV.Server AsterKV.Wal
open Theory

set_option autoImplicit false

/-! ## The process -/

/-- `EXIT_SUCCESS` and `EXIT_FAILURE`. -/
inductive ExitStatus where
  | success
  | failure
  deriving DecidableEq, Repr

/-- What is written to the two output streams, and the exit status unless the process still
runs. -/
structure Process where
  out : Bytes := []
  err : Bytes := []
  exit : Option ExitStatus := none
  deriving DecidableEq, Repr

def printUsage (execName : Bytes) : Bytes :=
  let port := toDecimal defaultClientPort.toNat
  bytes "Usage: " ++ execName ++ bytes " [--version] [--help]\n" ++
  bytes "       " ++ execName ++ bytes " --local\n" ++
  bytes "       " ++ execName ++ bytes " --local <command>\n" ++
  bytes "       " ++ execName ++ bytes " --listen <host:port> [--max-clients <count>] " ++
  bytes "[--idle-timeout <seconds>] " ++
  bytes "[--log-level <level>] " ++
  bytes "[--wal-file <path>] " ++
  bytes "[--wal-sync <policy>]\n" ++
  bytes "       " ++ execName ++ bytes " --config <path>\n\n" ++
  bytes "AsterKV server daemon.\n\n" ++
  bytes "Options:\n" ++
  bytes "    --version                   Print version information.\n" ++
  bytes "    --help                      Print this help message.\n" ++
  bytes "    --local                     Run local stdin command mode without TCP networking\n" ++
  bytes "    --listen <host:port>        Run blocking sequential TCP line server until Ctrl+C\n" ++
  bytes "    --max-clients <count>       Limit active TCP client workers\n" ++
  bytes "    --idle-timeout <seconds>    Close idle TCP clients after timeout\n" ++
  bytes "    --config <path>             Load server options from config file\n" ++
  bytes "    --log-level <level>         Set log level: debug, info, warn, error, critical, off\n" ++
  bytes "    --wal-file <path>           Enable WAL file recovery and append SET/DEL mutations\n" ++
  bytes "    --wal-sync <policy>         WAL sync policy: none, fsync_on_flush, fsync_every_write\n\n" ++
  bytes "Examples:\n" ++
  bytes "  " ++ execName ++ bytes " --local PING\n" ++
  bytes "  " ++ execName ++ bytes " --local \"SET username alex\"\n" ++
  bytes "  printf 'PING'\\n | " ++ execName ++ bytes " --local\n" ++
  bytes " " ++ execName ++ bytes " --listen 127.0.0.1:" ++ port ++ bytes "\n" ++
  bytes " " ++ execName ++ bytes " --listen 127.0.0.1:" ++ port ++
  bytes " --wal-file ./data/asterkv.wal\n" ++
  bytes " " ++ execName ++ bytes " --listen 127.0.0.1:" ++ port ++
  bytes " --max-clients 128 --idle timeout 300 --log-level info\n" ++
  bytes " " ++ execName ++ bytes " --config config/asterd.conf\n"

def projectName : Bytes := bytes "AsterKV"

def versionString : Bytes := bytes "0.1.0"

/-! ## Listening -/

/-- What is printed before the server runs. -/
def listenBanner (options : TcpServerOptions) : Bytes :=
  bytes "AsterKV listening on " ++ tcpEndpointToString options.endpoint ++ bytes "\n" ++
  bytes "Max client workers: " ++ toDecimal options.maxClientWorkers.toNat ++ bytes "\n" ++
  bytes "Client idle timeout seconds: " ++ toDecimal options.clientIdleTimeoutSeconds.toNat ++
  bytes "\n" ++
  bytes "Log level: " ++ logLevelToString options.logLevel ++ bytes "\n" ++
  (if options.walFilePath.isEmpty then bytes "WAL file: disabled\n"
    else bytes "WAL file: " ++ options.walFilePath ++ bytes "\n") ++
  bytes "WAL sync policy: " ++ walSyncPolicyToString options.walSyncPolicy ++ bytes "\n" ++
  bytes "Press Ctrl+C to stop.\n"

/-- What `TcpServerRuntime::run` has returned, if it has. -/
def runStatus : Run → Option Status
  | .returned status _ => some status
  | .serving system =>
      match system.main with
      | .returned status => some status
      | _ => none

def runListenMode (options : TcpServerOptions) (disk : FileSystem) (life : Life) : Process :=
  match runStatus (lifetime options disk life).1 with
  | none => { out := listenBanner options }
  | some status =>
      if !status.isOk then
        { out := listenBanner options
          err := bytes "TCP server failed: " ++ status.codeString ++ bytes " " ++ status.message ++
            bytes "\n"
          exit := some .failure }
      else
        { out := listenBanner options ++ bytes "AsterKV server stopped.\n"
          exit := some .success }

/-- The end of `runListenModeFromArguments` and of `runConfigModeFromArguments`. -/
def listenWith (given : Except Bytes TcpServerOptions) (disk : FileSystem) (life : Life) : Process :=
  match given with
  | .error printed => { err := printed, exit := some .failure }
  | .ok options => runListenMode options disk life

/-! ## main -/

/-- `input` is the standard input, `file` what is read under the path of `--config`; `life` is
what happens to the server if there is one. -/
def main (execName : Bytes) (arguments : List Bytes) (input : Bytes) (file : ConfigFile)
    (disk : FileSystem) (life : Life) : Process :=
  match arguments with
  | [] => { out := printUsage execName, exit := some .success }
  | argument :: rest =>
      if argument = bytes "--version" then
        { out := projectName ++ bytes " daemon " ++ versionString ++ bytes "\n"
          exit := some .success }
      else if argument = bytes "--help" then
        { out := printUsage execName, exit := some .success }
      else if argument = bytes "--local" then
        { out := runLocalMode rest input, exit := some .success }
      else if argument = bytes "--listen" then
        listenWith (runListenModeFromArguments (execName :: argument :: rest)) disk life
      else if argument = bytes "--config" then
        listenWith (runConfigModeFromArguments (execName :: argument :: rest) file) disk life
      else
        { out := printUsage execName
          err := bytes "Unknown argument: " ++ argument ++ bytes "\n"
          exit := some .failure }


/-! ## A server that starts -/

theorem isOk_validateOptions {options : TcpServerOptions} (given : ServableOptions options) :
    (validateOptions (TcpServerRuntime.lineServerOptions options)).isOk = true := by
  have valid : validateOptions (TcpServerRuntime.lineServerOptions options) = .ok := by
    unfold validateOptions TcpServerRuntime.lineServerOptions
    dsimp only
    rw [if_neg given.maxClients, if_neg given.idleTimeout]
  rw [valid]
  rfl

/-- What the process makes of its log. -/
def recoveredStorage (options : TcpServerOptions) (disk : FileSystem) (life : Life) :
    Status × PipelineStorage :=
  TcpServerRuntime.recoverStorage (makePipelineStorage options { disk with pending := life.kernel })

/-- The server when it starts to accept. -/
def startedServer (options : TcpServerOptions) (disk : FileSystem) (life : Life) :
    Workers PipelineStorage :=
  .initial (recoveredStorage options disk life).2 life.stop

/-- The server after some of the turns of its life. -/
def serverAfter (options : TcpServerOptions) (disk : FileSystem) (life : Life)
    (turns : List WorkerTurn) : Workers PipelineStorage :=
  (startedServer options disk life).after (localPipeline PipelineStorage)
    (TcpServerRuntime.lineServerOptions options) turns

/-- The log cannot be recovered, a handler not installed or the socket not be listened on. -/
def StartFails (options : TcpServerOptions) (disk : FileSystem) (life : Life) : Prop :=
  (recoveredStorage options disk life).1.isOk = false ∨ (install life.signals).isOk = false ∨
    (createListeningSocket life.listening).isOk = false

/-- A call of `accept` brings nothing to go on with. -/
def AcceptFails (options : TcpServerOptions) (disk : FileSystem) (life : Life)
    (status : Status) : Prop :=
  ∃ front answer rest, life.schedule = front ++ .accept answer :: rest ∧
    (serverAfter options disk life front).main = .accepting ∧ answer.status = status ∧
    status.isOk = false

/-- A life with options that the server does not refuse. -/
theorem lifetime_of_valid {options : TcpServerOptions} (given : ServableOptions options)
    (disk : FileSystem) (life : Life) :
    (StartFails options disk life ∧ ∃ status storage, status.isOk = false ∧
      (lifetime options disk life).1 = .returned status storage) ∨
    (¬ StartFails options disk life ∧
      (lifetime options disk life).1 = .serving (serverAfter options disk life life.schedule)) := by
  have valid := isOk_validateOptions given
  unfold lifetime TcpServerRuntime.run TcpServerRuntime.create
  simp only [StartFails, serverAfter, startedServer, recoveredStorage]
  generalize TcpServerRuntime.recoverStorage _ = recovered
  obtain ⟨recoveryStatus, storage⟩ := recovered
  cases log : recoveryStatus.isOk with
  | false => exact Or.inl ⟨Or.inl rfl, recoveryStatus, storage, log, by simp⟩
  | true =>
      cases handlers : (install life.signals).isOk with
      | false =>
          exact Or.inl ⟨Or.inr (Or.inl rfl), _, storage, handlers, by simp⟩
      | true =>
          cases created : createListeningSocket life.listening with
          | error failure =>
              refine Or.inl ⟨Or.inr (Or.inr rfl), failure.val, storage, failure.property, ?_⟩
              simp [valid]
          | ok created =>
              refine Or.inr ⟨?_, ?_⟩
              · rintro (isFalse | isFalse | isFalse) <;> cases isFalse
              · simp [valid]

/-- A `run` that has returned was asked to stop, or one of its calls of `accept` failed; never
both. -/
theorem returned_because {options : TcpServerOptions} {disk : FileSystem} {life : Life}
    {status : Status} (returned : (serverAfter options disk life life.schedule).main =
      .returned status) :
    ((serverAfter options disk life life.schedule).stopped = true ∧ status = .ok ∧
      ∀ failure, ¬ AcceptFails options disk life failure) ∨
    ((serverAfter options disk life life.schedule).stopped = false ∧ status.isOk = false ∧
      AcceptFails options disk life status) := by
  have because := Workers.leaves_because (localPipeline PipelineStorage)
    (TcpServerRuntime.lineServerOptions options) (recoveredStorage options disk life).2 life.stop
    life.schedule
  change Workers.Because _ _ _ _ (serverAfter options disk life life.schedule).stopped
    (serverAfter options disk life life.schedule).main.outcome at because
  have decided : (serverAfter options disk life life.schedule).main.outcome = some status := by
    rw [returned]
    rfl
  rw [decided] at because
  generalize stops : (serverAfter options disk life life.schedule).stopped = stopped at because
  cases because with
  | asked =>
      refine Or.inl ⟨rfl, rfl, ?_⟩
      rintro failure ⟨front, answer, rest, place, accepting, rfl, failed⟩
      have failure := Workers.after_failed_accept _ _ accepting failed rest
      rw [← place] at failure
      change (serverAfter options disk life life.schedule).main.outcome = _ at failure
      rw [decided] at failure
      rw [← Option.some.inj failure] at failed
      cases failed
  | accept front rest answer place accepting failed =>
      exact Or.inr ⟨rfl, failed, front, answer, rest, place, accepting, rfl, failed⟩

/-! ## The exit status -/

theorem runListenMode_of_status {options : TcpServerOptions} {disk : FileSystem} {life : Life}
    {status : Status} (returned : runStatus (lifetime options disk life).1 = some status) :
    (runListenMode options disk life).exit =
      some (if status.isOk then .success else .failure) := by
  unfold runListenMode
  rw [returned]
  dsimp only
  cases status.isOk with
  | true => rfl
  | false => rfl

/-- The exit status of the listen mode, by what the server came to. -/
inductive Ends (options : TcpServerOptions) (disk : FileSystem) (life : Life) :
    Option ExitStatus → Prop
  | startFails (fails : StartFails options disk life) : Ends options disk life (some .failure)
  | runs (starts : ¬ StartFails options disk life)
      (goesOn : (serverAfter options disk life life.schedule).main.isReturned = false) :
      Ends options disk life none
  | asked (starts : ¬ StartFails options disk life)
      (returned : (serverAfter options disk life life.schedule).main.isReturned = true)
      (stopped : (serverAfter options disk life life.schedule).stopped = true)
      (accepts : ∀ failure, ¬ AcceptFails options disk life failure) :
      Ends options disk life (some .success)
  | acceptFails (failure : Status) (starts : ¬ StartFails options disk life)
      (returned : (serverAfter options disk life life.schedule).main.isReturned = true)
      (unasked : (serverAfter options disk life life.schedule).stopped = false)
      (accept : AcceptFails options disk life failure) : Ends options disk life (some .failure)

theorem Ends.eq_success_iff {options : TcpServerOptions} {disk : FileSystem} {life : Life}
    {exit : Option ExitStatus} (ends : Ends options disk life exit) :
    exit = some .success ↔ ¬ StartFails options disk life ∧
      (serverAfter options disk life life.schedule).main.isReturned = true ∧
      (serverAfter options disk life life.schedule).stopped = true := by
  cases ends with
  | startFails fails => simp [fails]
  | runs starts goesOn => simp [goesOn]
  | asked starts returned stopped accepts => simp [starts, returned, stopped]
  | acceptFails failure starts returned unasked accept => simp [unasked]

theorem Ends.eq_failure_iff {options : TcpServerOptions} {disk : FileSystem} {life : Life}
    {exit : Option ExitStatus} (ends : Ends options disk life exit) :
    exit = some .failure ↔ StartFails options disk life ∨
      (serverAfter options disk life life.schedule).main.isReturned = true ∧
        ∃ failure, AcceptFails options disk life failure := by
  cases ends with
  | startFails fails => simp [fails]
  | runs starts goesOn => simp [starts, goesOn]
  | asked starts returned stopped accepts => simp [starts, accepts]
  | acceptFails failure starts returned unasked accept =>
      simp only [true_iff]
      exact Or.inr ⟨returned, failure, accept⟩

theorem runListenMode_ends {options : TcpServerOptions} (given : ServableOptions options)
    (disk : FileSystem) (life : Life) :
    Ends options disk life (runListenMode options disk life).exit := by
  rcases lifetime_of_valid given disk life with
    ⟨fails, status, storage, failed, returned⟩ | ⟨starts, serving⟩
  · have status : runStatus (lifetime options disk life).1 = some status := by
      rw [returned]
      rfl
    rw [runListenMode_of_status status, failed]
    exact .startFails fails
  · cases main : (serverAfter options disk life life.schedule).main with
    | returned status =>
        have isReturned : (serverAfter options disk life life.schedule).main.isReturned = true := by
          rw [main]
          rfl
        have returned : runStatus (lifetime options disk life).1 = some status := by
          rw [serving, runStatus, main]
        rw [runListenMode_of_status returned]
        rcases returned_because main with ⟨stopped, rfl, accepts⟩ | ⟨unasked, failed, accept⟩
        · exact .asked starts isReturned stopped accepts
        · rw [failed]
          exact .acceptFails status starts isReturned unasked accept
    | _ =>
        have running : (runListenMode options disk life).exit = none := by
          unfold runListenMode
          rw [serving, runStatus, main]
        rw [running]
        exact .runs starts (by rw [main]; rfl)

/-- What is asked of the daemon: a server with these options, or one whose options are
refused, or none. -/
def askedOptions (execName : Bytes) (arguments : List Bytes) (file : ConfigFile) :
    Option (Except Bytes TcpServerOptions) :=
  match arguments with
  | [] => none
  | argument :: rest =>
      if argument = bytes "--listen" then
        some (runListenModeFromArguments (execName :: argument :: rest))
      else if argument = bytes "--config" then
        some (runConfigModeFromArguments (execName :: argument :: rest) file)
      else none

/-- The arguments ask for something that needs no server. -/
def AsksNoServer (arguments : List Bytes) : Prop :=
  ∀ argument ∈ arguments.head?,
    argument = bytes "--version" ∨ argument = bytes "--help" ∨ argument = bytes "--local"

theorem servable_of_config {argv : List Bytes} {file : ConfigFile} {options : TcpServerOptions}
    (accepted : runConfigModeFromArguments argv file = .ok options) : ServableOptions options := by
  unfold runConfigModeFromArguments at accepted
  split at accepted
  · next path =>
    split at accepted
    · cases accepted
    · next loaded =>
      cases Except.ok.inj accepted
      cases file with
      | unopened => cases loaded
      | stopped config =>
          rw [loadServerConfig_stopped] at loaded
          exact servable_of_written (exists_config_iff_written.1 ⟨config, loaded⟩)
      | content config => exact servable_of_written (exists_config_iff_written.1 ⟨config, loaded⟩)
  · cases accepted

/-- Options that are accepted are none that the server refuses. -/
theorem servable_of_asked {execName : Bytes} {arguments : List Bytes} {file : ConfigFile}
    {options : TcpServerOptions}
    (asked : askedOptions execName arguments file = some (.ok options)) :
    ServableOptions options := by
  cases arguments with
  | nil => cases asked
  | cons argument rest =>
      unfold askedOptions at asked
      dsimp only at asked
      split at asked
      · exact servable_of_written
          (written_of_arguments (fun _ _ => trivial) (Option.some.inj asked))
      · split at asked
        · exact servable_of_config (Option.some.inj asked)
        · cases asked

theorem not_asksNoServer_of_asked {execName : Bytes} {arguments : List Bytes} {file : ConfigFile}
    {given : Except Bytes TcpServerOptions}
    (asked : askedOptions execName arguments file = some given) : ¬ AsksNoServer arguments := by
  intro noServer
  cases arguments with
  | nil => cases asked
  | cons argument rest =>
      unfold askedOptions at asked
      dsimp only at asked
      rcases noServer argument rfl with rfl | rfl | rfl
      · rw [if_neg (by decide), if_neg (by decide)] at asked
        cases asked
      · rw [if_neg (by decide), if_neg (by decide)] at asked
        cases asked
      · rw [if_neg (by decide), if_neg (by decide)] at asked
        cases asked

theorem main_of_asked {execName : Bytes} {arguments : List Bytes} {file : ConfigFile}
    {given : Except Bytes TcpServerOptions}
    (asked : askedOptions execName arguments file = some given) (input : Bytes) (disk : FileSystem)
    (life : Life) : main execName arguments input file disk life = listenWith given disk life := by
  cases arguments with
  | nil => cases asked
  | cons argument rest =>
      unfold askedOptions at asked
      dsimp only at asked
      split at asked
      · next listen =>
        subst listen
        rw [← Option.some.inj asked, main, if_neg (by decide), if_neg (by decide),
          if_neg (by decide), if_pos rfl]
      · split at asked
        · next config =>
          subst config
          rw [← Option.some.inj asked, main, if_neg (by decide), if_neg (by decide),
            if_neg (by decide), if_neg (by decide), if_pos rfl]
        · cases asked

theorem main_of_unasked {execName : Bytes} {arguments : List Bytes} {file : ConfigFile}
    (unasked : askedOptions execName arguments file = none) (input : Bytes) (disk : FileSystem)
    (life : Life) :
    (AsksNoServer arguments ∧ (main execName arguments input file disk life).exit = some .success) ∨
      (¬ AsksNoServer arguments ∧
        (main execName arguments input file disk life).exit = some .failure) := by
  cases arguments with
  | nil => exact Or.inl ⟨fun _ member => (by cases member), rfl⟩
  | cons argument rest =>
      unfold askedOptions at unasked
      dsimp only at unasked
      have modes : AsksNoServer (argument :: rest) ↔ argument = bytes "--version" ∨
          argument = bytes "--help" ∨ argument = bytes "--local" := by
        simp [AsksNoServer]
      rw [modes]
      unfold main
      dsimp only
      by_cases version : argument = bytes "--version"
      · rw [if_pos version]
        exact Or.inl ⟨Or.inl version, rfl⟩
      by_cases help : argument = bytes "--help"
      · rw [if_neg version, if_pos help]
        exact Or.inl ⟨Or.inr (Or.inl help), rfl⟩
      by_cases isLocal : argument = bytes "--local"
      · rw [if_neg version, if_neg help, if_pos isLocal]
        exact Or.inl ⟨Or.inr (Or.inr isLocal), rfl⟩
      split at unasked
      · cases unasked
      · next listen =>
        split at unasked
        · cases unasked
        · next config =>
          rw [if_neg version, if_neg help, if_neg isLocal, if_neg listen, if_neg config]
          refine Or.inr ⟨?_, rfl⟩
          rintro (is | is | is)
          · exact version is
          · exact help is
          · exact isLocal is

/-- What the exit status says. -/
structure ExitStatusTells (execName : Bytes) (arguments : List Bytes) (input : Bytes)
    (file : ConfigFile) (disk : FileSystem) (life : Life) : Prop where
  success : (main execName arguments input file disk life).exit = some .success ↔
    AsksNoServer arguments ∨
    ∃ options, askedOptions execName arguments file = some (.ok options) ∧
      ¬ StartFails options disk life ∧
      (serverAfter options disk life life.schedule).main.isReturned = true ∧
      (serverAfter options disk life life.schedule).stopped = true
  failure : (main execName arguments input file disk life).exit = some .failure ↔
    (askedOptions execName arguments file = none ∧ ¬ AsksNoServer arguments) ∨
    (∃ printed, askedOptions execName arguments file = some (.error printed)) ∨
    ∃ options, askedOptions execName arguments file = some (.ok options) ∧
      (StartFails options disk life ∨
        (serverAfter options disk life life.schedule).main.isReturned = true ∧
          ∃ failure, AcceptFails options disk life failure)

/-- **What the daemon's exit status says**, whatever it is asked and whatever happens to it. -/
theorem exit_status (execName : Bytes) (arguments : List Bytes) (input : Bytes)
    (file : ConfigFile) (disk : FileSystem) (life : Life) :
    ExitStatusTells execName arguments input file disk life := by
  cases asked : askedOptions execName arguments file with
  | none =>
      rcases main_of_unasked asked input disk life with ⟨noServer, exits⟩ | ⟨unknown, exits⟩
      · constructor
        · simp [asked, exits, noServer]
        · simp [asked, exits, noServer]
      · constructor
        · simp [asked, exits, unknown]
        · simp [asked, exits, unknown]
  | some given =>
      have noServer := not_asksNoServer_of_asked asked
      have process := main_of_asked asked input disk life
      cases given with
      | error printed =>
          have exits : (main execName arguments input file disk life).exit = some .failure := by
            rw [process]
            rfl
          constructor
          · simp [asked, exits, noServer]
          · simp [asked, exits]
      | ok options =>
          have ends := runListenMode_ends (servable_of_asked asked) disk life
          have exits : (main execName arguments input file disk life).exit =
              (runListenMode options disk life).exit := by
            rw [process]
            rfl
          constructor
          · rw [exits, ends.eq_success_iff]
            simp [asked, noServer]
          · rw [exits, ends.eq_failure_iff]
            simp [asked]

/-! ## Stopping -/

/-- **A daemon that is asked to stop exits**, once `run` and its workers have had their turns:
with success, unless a call of `accept` failed before the stop was seen. -/
theorem exits_when_stopped {execName : Bytes} {arguments : List Bytes} {file : ConfigFile}
    {options : TcpServerOptions}
    (asked : askedOptions execName arguments file = some (.ok options)) (input : Bytes)
    {disk : FileSystem} {life : Life} (starts : ¬ StartFails options disk life)
    {turns : List WorkerTurn} {blocks : List (List WorkerTurn)}
    (split : life.schedule = turns ++ blocks.flatten)
    (requested : (serverAfter options disk life turns).stop.poll.1 = true)
    (fair : ∀ block ∈ blocks,
      Workers.FairBlock ((serverAfter options disk life turns).threads.length + 1) block)
    (accepts : ∀ block ∈ blocks, ∃ outcome, .accept outcome ∈ block)
    (enough : (serverAfter options disk life turns).work < blocks.length) :
    (main execName arguments input file disk life).exit ≠ none ∧
      ((main execName arguments input file disk life).exit = some .success ↔
        ∀ failure, ¬ AcceptFails options disk life failure) := by
  obtain ⟨-, status, main⟩ := Workers.returned_after_rounds (localPipeline PipelineStorage)
    (TcpServerRuntime.lineServerOptions options) requested fair accepts enough
  have same : serverAfter options disk life life.schedule =
      (serverAfter options disk life turns).after (localPipeline PipelineStorage)
        (TcpServerRuntime.lineServerOptions options) blocks.flatten := by
    rw [split]
    exact Machine.after_append _ _ _ _
  have returned : (serverAfter options disk life life.schedule).main.isReturned = true := by
    rw [same]
    exact congrArg MainPoint.isReturned main
  rw [main_of_asked asked]
  have ends := runListenMode_ends (servable_of_asked asked) disk life
  show (runListenMode options disk life).exit ≠ none ∧
    ((runListenMode options disk life).exit = some .success ↔ _)
  generalize (runListenMode options disk life).exit = exit at ends
  cases ends with
  | startFails fails => exact absurd fails starts
  | runs _ goesOn =>
      rw [returned] at goesOn
      cases goesOn
  | asked _ _ _ accepts => exact ⟨by simp, by simp [accepts]⟩
  | acceptFails failure _ _ _ accept =>
      refine ⟨by simp, by simp, fun accepts => ?_⟩
      exact absurd accept (accepts failure)

/-- A signal arrives while the first client is served. -/
def stoppedLife : Life where
  stop := .after 3
  schedule := Workers.stoppedWhileServing ++
    (List.replicate 12 (Workers.roundRobin 2 ++ [.accept .interrupted])).flatten

theorem exits_when_stopped_logged :
    let arguments := [bytes "--listen", bytes "0.0.0.0:7721", bytes "--wal-file", bytes "akv.wal"]
    (main (bytes "asterd") arguments [] .unopened (.holding none) stoppedLife).exit ≠ none ∧
      ((main (bytes "asterd") arguments [] .unopened (.holding none) stoppedLife).exit =
          some .success ↔
        ∀ failure, ¬ AcceptFails
          { defaultServerOptions with
              endpoint := ⟨bytes "0.0.0.0", 7721⟩
              walFilePath := bytes "akv.wal" }
          (.holding none) stoppedLife failure) :=
  exits_when_stopped (by decide) [] (by unfold StartFails; decide) rfl (by decide)
    (fun block member => by
      rw [List.eq_of_mem_replicate member]
      exact Workers.fairBlock_roundRobin 2 _)
    (fun block member => by
      rw [List.eq_of_mem_replicate member]
      exact ⟨.interrupted, by simp⟩)
    (by decide)

end AsterKV.Asterd
