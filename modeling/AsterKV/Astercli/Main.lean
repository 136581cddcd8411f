/-
# AsterKV.Astercli.Main -- the client from its arguments to its exit status

`main` picks the mode.  What it asks of a server depends on the arguments and the input
alone (`Invocation.requests`), so clients that are started one after another show what they
would show over the server's map (`invocations_refine_map`).  A session does to the server
what its commands do that are given to a client each, and fails when one of these does
(`session_eq_invocations`).
-/
import AsterKV.Asterd.Main
import AsterKV.Astercli.Sessions

namespace AsterKV.Astercli

open AsterKV.Core AsterKV.Network AsterKV.Pipeline AsterKV.Storage
open AsterKV.Asterd (joinArguments projectName versionString)
open Theory

set_option autoImplicit false

/-! ## main -/

def printUsage (execName : Bytes) : Bytes :=
  let port := toDecimal defaultClientPort.toNat
  bytes "Usage: " ++ execName ++ bytes " [--version] [--help]\n" ++
  bytes "       " ++ execName ++ bytes " --local <command>\n" ++
  bytes "       " ++ execName ++ bytes " --connect <host:port> [command]\n\n" ++
  bytes "AsterKV command-line client.\n\n" ++
  bytes "Options:\n" ++
  bytes "    --version                   Print version information.\n" ++
  bytes "    --help                      Print this help message.\n" ++
  bytes "    --local <command>           Execute command against local in-memory pipeline\n" ++
  bytes "    --connect <host:port>       Execute command against TCP server\n\n" ++
  bytes "Modes:\n" ++
  bytes "    --connect with command      Execute one TCP command and exit\n" ++
  bytes "    --connect without command   Start TCP REPL mode\n\n" ++
  bytes "REPL commands:\n" ++
  bytes "    help, ?                     Show REPL help\n" ++
  bytes "    exit, quit                  Exit REPL mode\n\n" ++
  bytes "Output:\n" ++
  bytes "    Successful responses are printed to stdout.\n" ++
  bytes "    Protocol errors are printed to stderr and return exit code 1.\n\n" ++
  bytes "Examples:\n" ++
  bytes "    " ++ execName ++ bytes " --local PING\n" ++
  bytes "    " ++ execName ++ bytes " --local \"SET username alex\"\n" ++
  bytes "    " ++ execName ++ bytes " --connect 127.0.0.1:" ++ port ++ bytes " PING\n" ++
  bytes "    " ++ execName ++ bytes " --connect 127.0.0.1:" ++ port ++
  bytes " SET username alex\n" ++
  bytes "    " ++ execName ++ bytes " --connect 127.0.0.1:" ++ port ++ bytes "\n"

/-- `sockets` is what the calls on the connections are going to answer, `input` the standard
input. -/
def main (execName : Bytes) (arguments : List Bytes) (sockets : List ClientSocket)
    (input : Bytes) : Printed :=
  match arguments with
  | [] => .toOut (printUsage execName)
  | argument :: rest =>
      if argument = bytes "--version" then
        .toOut (projectName ++ bytes " CLI " ++ versionString ++ bytes "\n")
      else if argument = bytes "--help" then .toOut (printUsage execName)
      else if argument = bytes "--local" then runLocalMode rest
      else if argument = bytes "--connect" then runConnectMode rest sockets input
      else
        { out := printUsage execName
          err := bytes "Unknown argument: " ++ argument ++ bytes "\n"
          failed := true }

/-! ## Invocations -/

/-- What a client is started with. -/
structure Invocation where
  execName : Bytes := bytes "astercli"
  arguments : List Bytes
  input : Bytes := []

namespace Invocation

def printed (invocation : Invocation) (sockets : List ClientSocket) : Printed :=
  main invocation.execName invocation.arguments sockets invocation.input

/-- The commands that are asked of a server. -/
def requests (invocation : Invocation) : List Bytes :=
  match invocation.arguments with
  | argument :: address :: command =>
      if argument = bytes "--connect" then
        match parseTcpEndpoint address with
        | .error _ => []
        | .ok _ =>
            if command.isEmpty then replCommands (Lines.lines lineFeed invocation.input)
            else [joinArguments command]
      else []
  | _ => []

section Shows

variable {S : Type} (ask : S → Bytes → Printed × S)

/-- What is printed, over what a command comes to. -/
def shows (state : S) (invocation : Invocation) : Printed :=
  match invocation.arguments with
  | argument :: address :: command =>
      if argument = bytes "--connect" then
        match parseTcpEndpoint address with
        | .error _ => invocation.printed []
        | .ok endpoint =>
            if command.isEmpty then replMode ask endpoint state invocation.input
            else (ask state (joinArguments command)).1
      else invocation.printed []
  | _ => invocation.printed []

end Shows

theorem main_connect (execName : Bytes) (rest : List Bytes) (sockets : List ClientSocket)
    (input : Bytes) :
    main execName (bytes "--connect" :: rest) sockets input = runConnectMode rest sockets input := by
  rw [main, if_neg (by decide), if_neg (by decide), if_neg (by decide), if_pos rfl]

/-- The modes that ask nothing of a server need none. -/
theorem printed_eq_shows (invocation : Invocation) (sockets : List ClientSocket) :
    invocation.printed sockets = invocation.shows askServer sockets := by
  obtain ⟨execName, arguments, input⟩ := invocation
  match arguments with
  | [] => rfl
  | [argument] => rfl
  | argument :: address :: command =>
      by_cases connect : argument = bytes "--connect"
      · subst connect
        unfold shows printed
        dsimp only
        rw [if_pos rfl, main_connect, main_connect, runConnectMode, runConnectMode]
        cases parseTcpEndpoint address with
        | error failure => rfl
        | ok endpoint => rfl
      · unfold shows printed main
        dsimp only
        rw [if_neg connect, if_neg connect, if_neg connect]

/-- **What a client prints depends on what its requests come to, and on nothing else.** -/
theorem shows_congr {S T : Type} {ask : S → Bytes → Printed × S} {answer : T → Bytes → Printed × T}
    {s : S} {t : T} (invocation : Invocation)
    (same : (Machine.run ask s invocation.requests).1 =
      (Machine.run answer t invocation.requests).1) :
    invocation.shows ask s = invocation.shows answer t := by
  obtain ⟨execName, arguments, input⟩ := invocation
  match arguments with
  | [] | [_] => rfl
  | argument :: address :: command =>
      unfold requests at same
      unfold shows
      dsimp only at same ⊢
      split at same
      · next connect =>
          rw [if_pos connect, if_pos connect]
          cases parsed : parseTcpEndpoint address with
          | error failure => rfl
          | ok endpoint =>
              simp only [parsed] at same ⊢
              split at same
              · next session =>
                  rw [if_pos session, if_pos session]
                  exact congrArg (Printed.followedBy (.toOut (replGreeting endpoint)))
                    (replLoop_congr _ same)
              · next single =>
                  rw [if_neg single, if_neg single]
                  exact List.head_eq_of_cons_eq same
      · next other => rw [if_neg other, if_neg other]

end Invocation

/-! ## One after another -/

variable (options : TcpLineServerOptions)

/-- The links carry the requests of the clients, one client after another, to a server that
starts from one storage and ends with another. -/
inductive CarriedInvocations : InMemoryStorage → List (Invocation × List Link) →
    InMemoryStorage → Prop
  | done (storage : InMemoryStorage) : CarriedInvocations storage [] storage
  | next {storage between last : InMemoryStorage} {invocation : Invocation} {links : List Link}
      {rest : List (Invocation × List Link)}
      (carried : Carried options storage links invocation.requests between)
      (later : CarriedInvocations between rest last) :
      CarriedInvocations storage ((invocation, links) :: rest) last

/-- A client over a map. -/
def invokeMap (map : MapMachine.Map) (invocation : Invocation) : Printed × MapMachine.Map :=
  (invocation.shows askMap map, Machine.after askMap map invocation.requests)

variable {options}

/-- A client whose requests are carried prints what it would over the map. -/
theorem Carried.invocation {storage between : InMemoryStorage} {links : List Link}
    {invocation : Invocation}
    (carried : Carried options storage links invocation.requests between) :
    invocation.printed (links.map Link.client) = (invokeMap storage.values invocation).1 ∧
      between = ⟨(invokeMap storage.values invocation).2⟩ := by
  obtain ⟨answers, stored⟩ := carried.run
  refine ⟨?_, stored⟩
  rw [Invocation.printed_eq_shows]
  exact invocation.shows_congr answers

/-- **Clients are a finite map's.**  Whatever their arguments and their inputs, clients that
are started one after another print, and return, what they do over the server's map, and the
server is left with that map. -/
theorem invocations_refine_map {storage last : InMemoryStorage}
    {invocations : List (Invocation × List Link)}
    (carried : CarriedInvocations options storage invocations last) :
    (invocations.map fun entry => entry.1.printed (entry.2.map Link.client)) =
        (Machine.run invokeMap storage.values (invocations.map Prod.fst)).1 ∧
      last = ⟨Machine.after invokeMap storage.values (invocations.map Prod.fst)⟩ := by
  induction carried with
  | done storage => exact ⟨rfl, rfl⟩
  | @next storage between last invocation links rest carried later ih =>
      obtain ⟨printed, stored⟩ := carried.invocation
      obtain ⟨shown, ends⟩ := ih
      rw [stored] at shown ends
      refine ⟨?_, ends⟩
      rw [List.map_cons, List.map_cons, Machine.run_cons, shown]
      exact congrArg (· :: _) printed

/-- A set, a command of the local mode, and a session. -/
def setInvocation : Invocation where
  arguments := [bytes "--connect", bytes "127.0.0.1:7721", bytes "SET k", bytes "v"]

def localInvocation : Invocation where
  arguments := [bytes "--local", bytes "GET k"]

def sessionInvocation : Invocation where
  arguments := [bytes "--connect", bytes "127.0.0.1:7721"]
  input := bytes "help\n get k \nexit\n"

theorem invocations_refine_map_set_get :
    [setInvocation.printed [setLink.client], localInvocation.printed [],
        sessionInvocation.printed [getLink.client]] =
      (Machine.run invokeMap ∅ [setInvocation, localInvocation, sessionInvocation]).1 := by
  have set : Carried {} .empty [setLink] setInvocation.requests _ :=
    .answered (by decide) carries_setLink (.done _ [])
  have get : Carried {} (setLink.session {} .empty).storage [getLink]
      sessionInvocation.requests _ :=
    .answered (by decide) carries_getLink (.done _ [])
  have nothing : Carried {} (setLink.session {} .empty).storage [] localInvocation.requests _ :=
    .done _ []
  exact (invocations_refine_map (.next set (.next nothing (.next get (.done _))))).1

/-- The invocation gives the client one command for a server, in one or several arguments. -/
inductive Invocation.Gives : Invocation → Bytes → Prop
  | command {execName address input : Bytes} {words : List Bytes} {endpoint : TcpEndpoint}
      (parsed : parseTcpEndpoint address = .success endpoint) (given : words ≠ []) :
      Gives ⟨execName, bytes "--connect" :: address :: words, input⟩ (joinArguments words)

theorem invokeMap_gives {invocation : Invocation} {command : Bytes}
    (gives : invocation.Gives command) (map : MapMachine.Map) :
    invokeMap map invocation = askMap map command := by
  cases gives with
  | @command execName address input words endpoint parsed given =>
      have several : ¬ words.isEmpty = true := by simpa using given
      have asked : Invocation.requests ⟨execName, bytes "--connect" :: address :: words, input⟩ =
          [joinArguments words] := by
        unfold Invocation.requests
        dsimp only
        rw [if_pos rfl, parsed]
        exact if_neg several
      have shown : Invocation.shows askMap map
          ⟨execName, bytes "--connect" :: address :: words, input⟩ =
            (askMap map (joinArguments words)).1 := by
        unfold Invocation.shows
        dsimp only
        rw [if_pos rfl, parsed]
        exact if_neg several
      rw [invokeMap, asked, shown]
      rfl

/-- Clients that are given a command each print what the map makes of the commands. -/
theorem CarriedInvocations.gives {storage ended : InMemoryStorage}
    {invocations : List (Invocation × List Link)} {commands : List Bytes}
    (carried : CarriedInvocations options storage invocations ended)
    (each : List.Forall₂ Invocation.Gives (invocations.map Prod.fst) commands) :
    (invocations.map fun entry => entry.1.printed (entry.2.map Link.client)) =
        (Machine.run askMap storage.values commands).1 ∧
      ended = ⟨Machine.after askMap storage.values commands⟩ := by
  induction carried generalizing commands with
  | done storage =>
      cases each
      exact ⟨rfl, rfl⟩
  | @next storage between last invocation links rest carried later ih =>
      cases each with
      | @cons _ command _ commands given others =>
          obtain ⟨printed, stored⟩ := carried.invocation
          obtain ⟨shown, ends⟩ := ih others
          rw [invokeMap_gives given] at printed stored
          rw [stored] at shown ends
          refine ⟨?_, ends⟩
          rw [List.map_cons, Machine.run_cons, shown]
          exact congrArg (· :: _) printed

/-- **A session is its commands.**  A client that takes commands from its input leaves the
server as clients do that are given one of them each, writes to the error stream what these
write, and fails exactly when one of these does. -/
theorem session_eq_invocations {execName address input : Bytes} {endpoint : TcpEndpoint}
    (parsed : parseTcpEndpoint address = .success endpoint) {storage last ended : InMemoryStorage}
    {links : List Link}
    (session : Carried options storage links (replCommands (Lines.lines lineFeed input)) last)
    {invocations : List (Invocation × List Link)}
    (each : List.Forall₂ Invocation.Gives (invocations.map Prod.fst)
      (replCommands (Lines.lines lineFeed input)))
    (carried : CarriedInvocations options storage invocations ended) :
    let printed := main execName [bytes "--connect", address] (links.map Link.client) input
    let outcomes := invocations.map fun entry => entry.1.printed (entry.2.map Link.client)
    last = ended ∧ printed.err = (outcomes.map Printed.err).flatten ∧
      printed.failed = outcomes.any Printed.failed := by
  intro printed outcomes
  obtain ⟨answers, stored⟩ := session.run
  obtain ⟨shown, ends⟩ := carried.gives each
  have same : (Machine.run askServer (links.map Link.client)
      (replCommands (Lines.lines lineFeed input))).1 = outcomes := by
    rw [answers]
    exact shown.symm
  have loop : printed = runConnectReplMode endpoint (links.map Link.client) input := by
    rw [show printed = _ from Invocation.main_connect execName [address] _ input, runConnectMode,
      parsed]
    rfl
  refine ⟨?_, ?_, ?_⟩
  · rw [stored, ends]
  · rw [loop, ← same]
    exact err_replLoop _ _
  · rw [loop, ← same]
    exact failed_replLoop _ _

/-- The get with its arguments apart. -/
def getInvocation : Invocation where
  arguments := [bytes "--connect", bytes "127.0.0.1:7721", bytes "get", bytes "k"]

theorem session_eq_invocations_set_get :
    (main (bytes "astercli") [bytes "--connect", bytes "127.0.0.1:7721"]
        [setLink.client, getLink.client] (bytes "SET k v\nget k\n")).failed =
      ((setInvocation.printed [setLink.client]).failed ||
        (getInvocation.printed [getLink.client]).failed) := by
  have commands : replCommands (Lines.lines lineFeed (bytes "SET k v\nget k\n")) =
      [bytes "SET k v", bytes "get k"] := by decide
  have session := Carried.answered (by decide) carries_setLink
    (.answered (by decide) carries_getLink (.done _ []))
  have set : Carried {} .empty [setLink] setInvocation.requests _ :=
    .answered (by decide) carries_setLink (.done _ [])
  have get : Carried {} (setLink.session {} .empty).storage [getLink] getInvocation.requests _ :=
    .answered (by decide) carries_getLink (.done _ [])
  have parsed : parseTcpEndpoint (bytes "127.0.0.1:7721") =
      .success ⟨bytes "127.0.0.1", 7721⟩ := by decide
  have address : parseTcpEndpoint (bytes "127.0.0.1:7721") =
      .success ⟨bytes "127.0.0.1", 7721⟩ := by decide
  have each : List.Forall₂ Invocation.Gives [setInvocation, getInvocation]
      [bytes "SET k v", bytes "get k"] :=
    .cons (.command parsed (by simp)) (.cons (.command address (by simp)) .nil)
  rw [← commands] at session each
  have failed := (@session_eq_invocations {} (bytes "astercli") _ _ _ parsed _ _ _ _ session
    [(setInvocation, [setLink]), (getInvocation, [getLink])] each
    (.next set (.next get (.done _)))).2.2
  refine failed.trans ?_
  simp

end AsterKV.Astercli
