/-
# AsterKV.Astercli.Sessions -- the command-line client and a server

A link is the two ends of one connection; it carries a command when each end receives
what the other sent, cut in any way.  Over such links the loop shows what it would show
over the server's map (`repl_refines_map`), and a command has the same outcome on a fresh
server as in the local mode (`local_eq_connected_iff`).
-/
import AsterKV.Astercli.Modes
import AsterKV.Network.ConcurrentRequests

namespace AsterKV.Astercli

open AsterKV.Core AsterKV.Client AsterKV.Network AsterKV.Pipeline AsterKV.Protocol
open AsterKV.Storage
open AsterKV.Asterd (joinArguments)
open Theory
open MapMachine (Answer)
open TcpClient (sendCommandLine validateCommandLine responseTooLargeStatus)

set_option autoImplicit false

/-! ## Answers -/

/-- What an answer is printed as. -/
def printAnswer (answer : Answer) : Printed :=
  if answer.fails then .failure answer.text else .toOut answer.text

theorem printUserResponse_render {answer : Answer} (wellFormed : answer.WellFormed)
    (sized : answer.render.length < 2 ^ 64) :
    printUserResponse answer.render = printAnswer answer := by
  obtain ⟨response, read, text, fails⟩ := Answer.parse_render wellFormed sized
  rw [printUserResponse, read]
  show (if response.kind = .error then Printed.failure (renderPrettyResponse response)
    else .toOut (renderPrettyResponse response)) = _
  rw [text, printAnswer]
  simp only [fails]

/-- What the user of a healthy client sees of an answer. -/
theorem runConnectSingleCommandMode_answered {client : ClientSocket}
    (healthy : TcpClient.Healthy client) {command : Bytes}
    (accepted : (validateCommandLine command).isOk = true) {answer : Answer}
    (wellFormed : answer.WellFormed) (response : clientStream client.incoming = answer.render) :
    runConnectSingleCommandMode client command =
      if answer.render.length ≤ defaultTcpClientMaxResponseBytes.toNat then printAnswer answer
      else printClientError responseTooLargeStatus := by
  have defaults : (TcpClient.validateOptions {}).isOk = true := by decide
  have filled : clientStream client.incoming ≠ [] := by
    rw [response]
    exact render_ne_nil answer
  rw [runConnectSingleCommandMode,
    TcpClient.sendCommandLine_answered defaults accepted healthy filled, response]
  by_cases small : answer.render.length ≤ defaultTcpClientMaxResponseBytes.toNat
  · rw [if_pos small, if_pos small]
    refine printUserResponse_render wellFormed (Nat.lt_of_le_of_lt small ?_)
    decide
  · rw [if_neg small, if_neg small]
    rfl

/-- A command on a finite map: the client refuses some lines and some responses. -/
def askMap (map : MapMachine.Map) (command : Bytes) : Printed × MapMachine.Map :=
  let commandStatus := validateCommandLine command
  if !commandStatus.isOk then (printClientError commandStatus, map)
  else
    let (answer, map) := MapMachine.step map command
    if answer.render.length ≤ defaultTcpClientMaxResponseBytes.toNat then (printAnswer answer, map)
    else (printClientError responseTooLargeStatus, map)

theorem askMap_refused {command : Bytes} (refused : (validateCommandLine command).isOk = false)
    (map : MapMachine.Map) :
    askMap map command = (printClientError (validateCommandLine command), map) :=
  if_pos (by rw [refused]; rfl)

theorem askMap_accepted {command : Bytes} (accepted : (validateCommandLine command).isOk = true)
    (map : MapMachine.Map) :
    askMap map command =
      let (answer, map) := MapMachine.step map command
      (if answer.render.length ≤ defaultTcpClientMaxResponseBytes.toNat then printAnswer answer
        else printClientError responseTooLargeStatus, map) := by
  simp only [askMap, accepted, Bool.not_true, Bool.false_eq_true, if_false]
  by_cases small : (MapMachine.step map command).1.render.length ≤
      defaultTcpClientMaxResponseBytes.toNat
  · rw [if_pos small, if_pos small]
  · rw [if_neg small, if_neg small]

/-! ## Links -/

/-- The two ends of a connection. -/
structure Link where
  client : ClientSocket
  connection : Socket

variable (options : TcpLineServerOptions)

/-- What the server does with a connection. -/
def Link.session (link : Link) (storage : InMemoryStorage) : Session InMemoryStorage :=
  (serveClient (localPipeline InMemoryStorage) options storage link.connection .never).2

/-- Nothing disturbs either end, and each receives what the other sends. -/
structure Link.Carries (storage : InMemoryStorage) (link : Link) (command : Bytes) : Prop where
  healthy : TcpClient.Healthy link.client
  undisturbed : Undisturbed options link.connection
  request : clientStream link.connection.incoming = (sendCommandLine {} link.client command).2
  response : clientStream link.client.incoming = (link.session options storage).output

section Carries

variable {options} {storage : InMemoryStorage} {link : Link} {command : Bytes}

/-- A carried command is executed once, and its user sees the map's answer. -/
theorem Link.Carries.ask (carries : link.Carries options storage command)
    (accepted : (validateCommandLine command).isOk = true) :
    runConnectSingleCommandMode link.client command = (askMap storage.values command).1 ∧
      (link.session options storage).storage = ⟨(askMap storage.values command).2⟩ := by
  have defaults : (TcpClient.validateOptions {}).isOk = true := by decide
  have exchange := TcpClient.sendCommandLine_healthy defaults accepted carries.healthy
  obtain ⟨-, output, stored⟩ :=
    carries.undisturbed.serveClient options (localPipeline InMemoryStorage) storage
  obtain ⟨answers, next⟩ := processLine_eq_step storage command
  rw [carries.request, exchange, commandLines_request accepted] at output stored
  have response : clientStream link.client.incoming =
      (MapMachine.step storage.values command).1.render := by
    rw [carries.response, ← answers]
    refine output.trans ?_
    simp [localPipeline]
  have wellFormed := (Answer.wellFormed_step storage.values command).1
  rw [askMap_accepted accepted]
  refine ⟨runConnectSingleCommandMode_answered carries.healthy accepted wellFormed response, ?_⟩
  rw [← next]
  exact stored

end Carries

/-- The links carry the commands one after another to a server, which starts from one
storage and ends with another; for a command that the client refuses there is no connection. -/
inductive Carried : InMemoryStorage → List Link → List Bytes → InMemoryStorage → Prop
  | done (storage : InMemoryStorage) (links : List Link) : Carried storage links [] storage
  | refused {storage last : InMemoryStorage} {links : List Link} {command : Bytes}
      {commands : List Bytes} (link : Link) (status : (validateCommandLine command).isOk = false)
      (rest : Carried storage links commands last) :
      Carried storage (link :: links) (command :: commands) last
  | answered {storage last : InMemoryStorage} {link : Link} {links : List Link} {command : Bytes}
      {commands : List Bytes} (accepted : (validateCommandLine command).isOk = true)
      (carries : link.Carries options storage command)
      (rest : Carried (link.session options storage).storage links commands last) :
      Carried storage (link :: links) (command :: commands) last

theorem runConnectSingleCommandMode_refused {command : Bytes}
    (refused : (validateCommandLine command).isOk = false) (socket : ClientSocket) :
    runConnectSingleCommandMode socket command = printClientError (validateCommandLine command) := by
  have valid : (TcpClient.validateOptions {}).isOk = true := by decide
  have result : (sendCommandLine {} socket command).1 =
      .failure (validateCommandLine command) := by
    simp only [sendCommandLine, valid, refused, Bool.not_true, Bool.not_false, Bool.false_eq_true,
      if_false, if_true]
  rw [runConnectSingleCommandMode, result]
  exact congrArg printClientError (Result.normalizeFailureStatus_val refused)

/-- **Carried commands are answered by a map.** -/
theorem Carried.run {storage last : InMemoryStorage} {links : List Link} {commands : List Bytes}
    (carried : Carried options storage links commands last) :
    (Machine.run askServer (links.map Link.client) commands).1 =
        (Machine.run askMap storage.values commands).1 ∧
      last = ⟨Machine.after askMap storage.values commands⟩ := by
  induction carried with
  | done storage links => exact ⟨rfl, rfl⟩
  | refused link status rest ih =>
      obtain ⟨answers, ends⟩ := ih
      rw [Machine.run_cons, Machine.run_cons, Machine.after_cons, askMap_refused status]
      refine ⟨?_, ends⟩
      rw [← answers]
      exact congrArg (· :: _) (runConnectSingleCommandMode_refused status link.client)
  | answered accepted carries rest ih =>
      obtain ⟨answers, ends⟩ := ih
      obtain ⟨shown, stored⟩ := carries.ask accepted
      rw [stored] at answers ends
      rw [Machine.run_cons, Machine.run_cons, Machine.after_cons]
      refine ⟨?_, ends⟩
      rw [← answers]
      exact congrArg (· :: _) shown

/-! ## Sessions -/

/-- **The loop is a finite map.**  Whatever the input and however the connections cut their
bytes, the loop prints what it would print over the server's map, its exit status says
whether some command failed, and the server is left with that map. -/
theorem repl_refines_map (endpoint : TcpEndpoint) {storage last : InMemoryStorage}
    {links : List Link} {input : Bytes}
    (carried : Carried options storage links (replCommands (Lines.lines lineFeed input)) last) :
    let commands := replCommands (Lines.lines lineFeed input)
    let printed := runConnectReplMode endpoint (links.map Link.client) input
    printed = replMode askMap endpoint storage.values input ∧
      printed.failed = (Machine.run askMap storage.values commands).1.any Printed.failed ∧
      last = ⟨Machine.after askMap storage.values commands⟩ := by
  intro commands printed
  obtain ⟨answers, ends⟩ := carried.run
  refine ⟨?_, ?_, ends⟩
  · exact congrArg (Printed.followedBy (.toOut (replGreeting endpoint))) (replLoop_congr _ answers)
  · rw [← answers]
    exact failed_replLoop _ _

/-- A set, whose request is cut in two, and a get in other letters. -/
def setLink : Link where
  client := { sends := [.sent 2, .temporary .interrupted],
              incoming := [.received ⟨bytes "+OK\r\n", by decide, by decide⟩ 0] }
  connection := { incoming := [.received ⟨bytes "SET k", by decide, by decide⟩ 0,
                    .received ⟨bytes " v\n", by decide, by decide⟩ 1, .closed] }

def getLink : Link where
  client := { incoming := [.received ⟨bytes "$1\r", by decide, by decide⟩ 0, .again 1,
                .received ⟨bytes "\nv\r\n", by decide, by decide⟩ 2, .closed] }
  connection := { incoming := [.received ⟨bytes "get k\n", by decide, by decide⟩ 0] }

theorem carries_setLink : setLink.Carries {} .empty (bytes "SET k v") :=
  ⟨⟨by decide, by decide, by decide, by decide⟩, ⟨by decide, by decide⟩, by decide, by decide⟩

theorem carries_getLink :
    getLink.Carries {} (setLink.session {} .empty).storage (bytes "get k") :=
  ⟨⟨by decide, by decide, by decide, by decide⟩, ⟨by decide, by decide⟩, by decide, by decide⟩

theorem repl_refines_map_set_get :
    (runConnectReplMode ⟨bytes "127.0.0.1", 7721⟩ [setLink.client, getLink.client]
      (bytes "SET k v\n\n get k \nquit\nPING\n")).failed = false := by
  have commands : replCommands (Lines.lines lineFeed (bytes "SET k v\n\n get k \nquit\nPING\n")) =
      [bytes "SET k v", bytes "get k"] := by decide
  have carried := Carried.answered (by decide) carries_setLink
    (.answered (by decide) carries_getLink (.done _ []))
  rw [← commands] at carried
  have failed := (repl_refines_map {} ⟨bytes "127.0.0.1", 7721⟩ carried).2.1
  rw [commands] at failed
  exact failed.trans (by decide)

/-! ## The two modes of one command -/

theorem printUserResponse_fresh (line : Bytes) :
    printUserResponse (processLine InMemoryStorage.empty line).1 =
        printAnswer (MapMachine.step ∅ line).1 ∧
      (MapMachine.step ∅ line).1.render.length ≤ 64 := by
  obtain ⟨wellFormed, held⟩ := Answer.wellFormed_step ∅ line
  have small := Answer.length_render_le wellFormed fun value is => by
    obtain ⟨key, found⟩ := held value is
    cases found
  refine ⟨?_, small⟩
  rw [(processLine_eq_step .empty line).1]
  exact printUserResponse_render wellFormed (Nat.lt_of_le_of_lt small (by decide))

/-- An answer is not taken for an error of the client. -/
theorem printAnswer_ne_clientError (answer : Answer) (status : Status) :
    printAnswer answer ≠ printClientError status := by
  intro same
  have front := congrArg (fun printed => printed.err.head?) same
  have client : (printClientError status).err.head? = some (byte 'T') := rfl
  cases answer with
  | pong | ok | stored value | present found => cases front.trans client
  | notFound => exact absurd (front.trans client) (by decide)
  | invalidArgument reason =>
      have shown : (printAnswer (.invalidArgument reason)).err.head? = some (byte 'e') := rfl
      exact absurd (shown.symm.trans (front.trans client)) (by decide)

/-- **A command has the same outcome on a fresh server as in the local mode**, what is
printed and what is returned, exactly when the client accepts its line. -/
theorem local_eq_connected_iff {address : Bytes} {endpoint : TcpEndpoint}
    (parsed : parseTcpEndpoint address = .success endpoint) {arguments : List Bytes}
    (given : arguments ≠ []) {link : Link} {last : InMemoryStorage}
    (carried : Carried options .empty [link] [joinArguments arguments] last) (input : Bytes) :
    runConnectMode (address :: arguments) [link.client] input = runLocalMode arguments ↔
      (validateCommandLine (joinArguments arguments)).isOk = true := by
  obtain ⟨shown, small⟩ := printUserResponse_fresh (joinArguments arguments)
  have locally : runLocalMode arguments =
      printAnswer (MapMachine.step ∅ (joinArguments arguments)).1 := by
    rw [runLocalMode, if_neg (by simpa using given), shown]
  have connected : runConnectMode (address :: arguments) [link.client] input =
      (askMap ∅ (joinArguments arguments)).1 := by
    rw [runConnectMode, parsed]
    show (if arguments.isEmpty then _ else _) = _
    rw [if_neg (by simpa using given)]
    exact List.head_eq_of_cons_eq carried.run.1
  rw [locally, connected]
  cases accepted : (validateCommandLine (joinArguments arguments)).isOk with
  | false =>
      rw [askMap_refused accepted]
      exact iff_of_false (printAnswer_ne_clientError _ _).symm Bool.false_ne_true
  | true =>
      refine iff_of_true ?_ rfl
      have inLimit : (MapMachine.step ∅ (joinArguments arguments)).1.render.length ≤
          defaultTcpClientMaxResponseBytes.toNat := Nat.le_trans small (by decide)
      rw [askMap_accepted accepted]
      exact if_pos inLimit

theorem local_eq_connected_get :
    runConnectMode [bytes "127.0.0.1:7721", bytes "get", bytes "k"]
        [{ incoming := [.received ⟨bytes "-ERR not_found key not found\r\n", by decide, by decide⟩ 0] }]
        [] =
      .failure (bytes "error: not_found key not found\n") := by
  have carries : Link.Carries {} .empty
      ⟨{ incoming := [.received ⟨bytes "-ERR not_found key not found\r\n", by decide, by decide⟩ 0] },
        { incoming := [.received ⟨bytes "get k\n", by decide, by decide⟩ 0] }⟩
      (joinArguments [bytes "get", bytes "k"]) :=
    ⟨⟨by decide, by decide, by decide, by decide⟩, ⟨by decide, by decide⟩, by decide, by decide⟩
  have carried := Carried.answered (by decide) carries (.done _ [])
  have parsed : parseTcpEndpoint (bytes "127.0.0.1:7721") =
      .success ⟨bytes "127.0.0.1", 7721⟩ := by decide
  rw [(local_eq_connected_iff {} parsed (by simp) carried []).2 (by decide)]
  decide

end AsterKV.Astercli
