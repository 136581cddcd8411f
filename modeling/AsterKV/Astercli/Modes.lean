/-
# AsterKV.Astercli.Modes -- the command-line client

One command over a storage of its own, one command on a server, or a loop of commands on
a server, each over a connection of its own.  The loop is written over what a command
comes to (`replLoop`), so that a server and a finite map can take each other's place in
it (`replLoop_congr`).

What the calls on the connections are going to answer is a list with one socket for each
command of the loop, used or not.
-/
import AsterKV.Asterd.LocalMode
import AsterKV.Client.PrettyResponses
import AsterKV.Network.TcpClient
import AsterKV.Network.TcpEndpoint

namespace AsterKV.Astercli

open AsterKV.Core AsterKV.Client AsterKV.Network AsterKV.Pipeline AsterKV.Protocol
open AsterKV.Storage
open AsterKV.Asterd (joinArguments)
open Theory
open TcpClient (sendCommandLine)

set_option autoImplicit false

/-! ## Printing -/

/-- What is written to the two output streams, and whether `EXIT_FAILURE` is returned. -/
structure Printed where
  out : Bytes := []
  err : Bytes := []
  failed : Bool := false
  deriving DecidableEq

namespace Printed

def toOut (text : Bytes) : Printed := { out := text }

def failure (text : Bytes) : Printed := { err := text, failed := true }

/-- A failure sticks. -/
def followedBy (first later : Printed) : Printed where
  out := first.out ++ later.out
  err := first.err ++ later.err
  failed := first.failed || later.failed

end Printed

def printUserResponse (raw : Bytes) : Printed :=
  match parseProtocolResponse raw with
  | .error failure =>
      .failure (bytes "CLI response parsing error: " ++ failure.val.codeString ++ bytes " " ++
        failure.val.message ++ bytes "\n")
  | .ok response =>
      let rendered := renderPrettyResponse response
      if response.kind = .error then .failure rendered else .toOut rendered

def printClientError (status : Status) : Printed :=
  .failure (bytes "TCP client error: " ++ status.codeString ++ bytes " " ++ status.message ++
    bytes "\n")

/-! ## Local -/

/-- `runLocalMode`, given the arguments behind `--local`. -/
def runLocalMode (arguments : List Bytes) : Printed :=
  if arguments.isEmpty then .failure (bytes "--local requires <command>\n")
  else printUserResponse (processLine InMemoryStorage.empty (joinArguments arguments)).1

/-! ## Connected -/

def runConnectSingleCommandMode (socket : ClientSocket) (cmd : Bytes) : Printed :=
  match (sendCommandLine {} socket cmd).1 with
  | .error failure => printClientError failure.val
  | .ok response => printUserResponse response

/-- `std::isspace` in the C locale, as the parser has it. -/
def isWhitespace (value : UInt8) : Bool := isAsciiWhitespace value

def trim (value : Bytes) : Bytes := (value.dropWhile isWhitespace).rdropWhile isWhitespace

/-- `std::tolower` in the C locale. -/
def toLower (value : UInt8) : UInt8 :=
  if byte 'A' ≤ value && value ≤ byte 'Z' then value + 32 else value

def equalsIgnoreCase (left right : Bytes) : Bool := left.map toLower == right.map toLower

def isExitCommand (cmd : Bytes) : Bool :=
  let trimmed := trim cmd
  equalsIgnoreCase trimmed (bytes "exit") || equalsIgnoreCase trimmed (bytes "quit")

def isHelpCommand (commandLine : Bytes) : Bool :=
  let trimmed := trim commandLine
  equalsIgnoreCase trimmed (bytes "help") || equalsIgnoreCase trimmed (bytes "?")

def replHelp : Bytes :=
  bytes "AsterKV REPL commands:\n" ++
  bytes "    help, ?         Show this help message\n" ++
  bytes "    exit, quit      Exit REPL mode\n\n" ++
  bytes "Server commands:\n" ++
  bytes "    PING\n" ++
  bytes "    SET <key> <value>\n" ++
  bytes "    GET <key>\n" ++
  bytes "    DEL <key>\n" ++
  bytes "    EXISTS <key>\n"

def replPrompt : Bytes := bytes "asterkv > "

def replGoodbye : Bytes := bytes "Goodbye.\n"

def replGreeting (endpoint : TcpEndpoint) : Bytes :=
  bytes "AsterKV TCP REPL\n" ++ bytes "Connected to " ++ tcpEndpointToString endpoint ++
    bytes "\nType 'help' for commands, 'exit' or 'quit' to leave.\n"

section Loop

variable {S : Type} (ask : S → Bytes → Printed × S)

/-- The loop of `runConnectReplMode` on the lines that `getline` is going to read, over
what a command comes to. -/
def replLoop : S → List Bytes → Printed
  | _, [] => .toOut (replPrompt ++ bytes "\n" ++ replGoodbye)
  | state, cmdLine :: rest =>
      let trimmed := trim cmdLine
      (Printed.toOut replPrompt).followedBy
        (if trimmed.isEmpty then replLoop state rest
        else if isExitCommand trimmed then .toOut replGoodbye
        else if isHelpCommand trimmed then (Printed.toOut replHelp).followedBy (replLoop state rest)
        else (ask state trimmed).1.followedBy (replLoop (ask state trimmed).2 rest))

def replMode (endpoint : TcpEndpoint) (state : S) (input : Bytes) : Printed :=
  (Printed.toOut (replGreeting endpoint)).followedBy
    (replLoop ask state (Lines.lines lineFeed input))

end Loop

/-- One command of the loop, over its own connection. -/
def askServer (sockets : List ClientSocket) (trimmed : Bytes) : Printed × List ClientSocket :=
  (runConnectSingleCommandMode (sockets.headD {}) trimmed, sockets.tail)

def runConnectReplMode (endpoint : TcpEndpoint) (sockets : List ClientSocket) (input : Bytes) :
    Printed :=
  replMode askServer endpoint sockets input

/-- `runConnectMode`, given the arguments behind `--connect`. -/
def runConnectMode (arguments : List Bytes) (sockets : List ClientSocket) (input : Bytes) :
    Printed :=
  match arguments with
  | [] => .failure (bytes "--connect requires <host:port>\n")
  | address :: command =>
      match parseTcpEndpoint address with
      | .error failure =>
          .failure (bytes "Invalid connect address: " ++ failure.val.message ++ bytes "\n")
      | .ok endpoint =>
          if command.isEmpty then runConnectReplMode endpoint sockets input
          else runConnectSingleCommandMode (sockets.headD {}) (joinArguments command)

/-! ## The loop -/

/-- The commands of the loop, in order. -/
def replCommands : List Bytes → List Bytes
  | [] => []
  | cmdLine :: rest =>
      let trimmed := trim cmdLine
      if trimmed.isEmpty then replCommands rest
      else if isExitCommand trimmed then []
      else if isHelpCommand trimmed then replCommands rest
      else trimmed :: replCommands rest

section Loop

variable {S T : Type} {ask : S → Bytes → Printed × S} {answer : T → Bytes → Printed × T}

/-- **What the loop prints depends on what its commands come to, and on nothing else.** -/
theorem replLoop_congr {s : S} {t : T} (lines : List Bytes)
    (same : (Machine.run ask s (replCommands lines)).1 =
      (Machine.run answer t (replCommands lines)).1) :
    replLoop ask s lines = replLoop answer t lines := by
  induction lines generalizing s t with
  | nil => rfl
  | cons cmdLine rest ih =>
      rw [replCommands] at same
      rw [replLoop, replLoop]
      refine congrArg _ ?_
      split
      · next empty =>
          rw [if_pos empty] at same
          exact ih same
      · next filled =>
          rw [if_neg filled] at same
          split
          · rfl
          · next stays =>
              rw [if_neg stays] at same
              split
              · next help =>
                  rw [if_pos help] at same
                  rw [ih same]
              · next command =>
                  rw [if_neg command, Machine.run_cons, Machine.run_cons] at same
                  obtain ⟨first, later⟩ := List.cons.inj same
                  rw [first, ih later]

/-- The loop fails when one of its commands does. -/
theorem failed_replLoop (s : S) (lines : List Bytes) :
    (replLoop ask s lines).failed =
      (Machine.run ask s (replCommands lines)).1.any Printed.failed := by
  induction lines generalizing s with
  | nil => rfl
  | cons cmdLine rest ih =>
      rw [replLoop, replCommands]
      simp only [Printed.followedBy, Printed.toOut, Bool.false_or]
      split
      · exact ih s
      · split
        · rfl
        · split
          · exact ih s
          · rw [ih, Machine.run_cons, List.any_cons]

/-- The error stream of the loop is that of its commands. -/
theorem err_replLoop (s : S) (lines : List Bytes) :
    (replLoop ask s lines).err =
      ((Machine.run ask s (replCommands lines)).1.map Printed.err).flatten := by
  induction lines generalizing s with
  | nil => rfl
  | cons cmdLine rest ih =>
      rw [replLoop, replCommands]
      simp only [Printed.followedBy, Printed.toOut, List.nil_append]
      split
      · exact ih s
      · split
        · rfl
        · split
          · exact ih s
          · rw [ih, Machine.run_cons, List.map_cons, List.flatten_cons]

end Loop

end AsterKV.Astercli
