/-
# AsterKV.Astercli.ConcurrentSessions -- a session among other clients

The loop of `astercli --connect` takes a connection for each command, and the next one when
the response has ended.  Meanwhile the server serves others.  What it executes is the
session's commands, in their order, with lines of others between them, and the user sees
what the loop prints over a map on which all of these are executed (`session_among_others`).
-/
import AsterKV.Astercli.Sessions
import AsterKV.Network.RealTime

namespace AsterKV.Astercli

open AsterKV.Core AsterKV.Client AsterKV.Network AsterKV.Pipeline AsterKV.Protocol
open AsterKV.Storage
open Theory
open MapMachine (Answer)
open TcpClient (sendCommandLine validateCommandLine responseTooLargeStatus)

set_option autoImplicit false

/-! ## Calls -/

/-- One command of a session: the two ends of its connection, and the worker behind it. -/
structure Call where
  command : Bytes
  socket : ClientSocket
  connection : Socket
  worker : ClientWorker InMemoryStorage

/-- The line that the call is for the server. -/
def Call.entry (call : Call) : Nat × Bytes := (call.worker.client, call.command)

variable (options : TcpLineServerOptions)

/-- The worker has returned, nothing disturbs either end, and each receives what the other
sends. -/
structure Call.Answered (system : Workers InMemoryStorage) (call : Call) : Prop where
  thread : call.worker ∈ system.threads
  returned : ∃ status, call.worker.serving.point = .returned status
  connected : system.accepted[call.worker.client]? = some call.connection
  undisturbed : Undisturbed options call.connection
  healthy : TcpClient.Healthy call.socket
  request : clientStream call.connection.incoming = (sendCommandLine {} call.socket call.command).2
  response : clientStream call.socket.incoming = call.worker.serving.session.output

/-- The commands are called one after another over these connections; for a command that the
client refuses there is no call. -/
inductive Converses (system : Workers InMemoryStorage) :
    List ClientSocket → List Bytes → List Call → Prop
  | done (sockets : List ClientSocket) : Converses system sockets [] []
  | refused {sockets : List ClientSocket} {command : Bytes} {commands : List Bytes}
      {calls : List Call} (socket : ClientSocket)
      (status : (validateCommandLine command).isOk = false)
      (rest : Converses system sockets commands calls) :
      Converses system (socket :: sockets) (command :: commands) calls
  | answered {sockets : List ClientSocket} {commands : List Bytes} {call : Call}
      {calls : List Call} (accepted : (validateCommandLine call.command).isOk = true)
      (answered : call.Answered options system) (rest : Converses system sockets commands calls) :
      Converses system (call.socket :: sockets) (call.command :: commands) (call :: calls)

/-- A command on a map that others use: some lines of theirs come before it. -/
def askAmong (state : List (List Bytes) × MapMachine.Map) (command : Bytes) :
    Printed × (List (List Bytes) × MapMachine.Map) :=
  if (validateCommandLine command).isOk then
    let (printed, map) := askMap (Machine.after MapMachine.step state.2 (state.1.headD [])) command
    (printed, state.1.tail, map)
  else (printClientError (validateCommandLine command), state)

/-- An accepted command is one of the machine among others. -/
theorem askAmong_accepted {command : Bytes} (accepted : (validateCommandLine command).isOk = true)
    (state : List (List Bytes) × MapMachine.Map) :
    askAmong state command =
      let (answer, state) := Machine.among MapMachine.step state command
      (if answer.render.length ≤ defaultTcpClientMaxResponseBytes.toNat then printAnswer answer
        else printClientError responseTooLargeStatus, state) := by
  rw [askAmong, if_pos accepted, askMap_accepted accepted]
  rfl

section Calls

variable {options} {start : InMemoryStorage} {stop : StopRequested} {schedule : List WorkerTurn}
  {system : Workers InMemoryStorage}

/-- A call is executed once, and its user sees the answer that it has at its place. -/
theorem Call.Answered.told {call : Call} (answered : call.Answered options system)
    (reached : system =
      (Workers.initial start stop).after (localPipeline InMemoryStorage) options schedule)
    (running : system.stop.poll.1 = false)
    (accepted : (validateCommandLine call.command).isOk = true) :
    ∃ answer,
      Machine.told MapMachine.step call.worker.client start.values system.executed =
        [(call.command, answer)] ∧
      runConnectSingleCommandMode call.socket call.command =
        if answer.render.length ≤ defaultTcpClientMaxResponseBytes.toNat then printAnswer answer
        else printClientError responseTooLargeStatus := by
  obtain ⟨status, returned⟩ := answered.returned
  obtain ⟨sent, output⟩ := Workers.told_returned reached running answered.thread returned
    answered.connected answered.undisturbed
  rw [answered.request, TcpClient.sendCommandLine_healthy (by decide) accepted answered.healthy,
    commandLines_request accepted] at sent
  obtain ⟨⟨line, answer⟩, one, same⟩ := List.map_eq_singleton_iff.1 sent
  obtain rfl : line = call.command := same
  refine ⟨answer, one, ?_⟩
  have wellFormed : answer.WellFormed := by
    obtain ⟨front, back, -, -, -, rfl⟩ := Machine.split_of_told one
    exact (Answer.wellFormed_step _ _).1
  refine runConnectSingleCommandMode_answered answered.healthy accepted wellFormed ?_
  rw [answered.response, output, one]
  simp

/-- The calls are executed once each. -/
theorem Converses.single
    (reached : system =
      (Workers.initial start stop).after (localPipeline InMemoryStorage) options schedule)
    (running : system.stop.poll.1 = false) {sockets : List ClientSocket} {commands : List Bytes}
    {calls : List Call} (converses : Converses options system sockets commands calls) :
    ∀ entry ∈ calls.map Call.entry, ∃ answer,
      Machine.told MapMachine.step entry.1 start.values system.executed = [(entry.2, answer)] := by
  induction converses with
  | done sockets => exact fun _ member => absurd member List.not_mem_nil
  | refused socket status rest ih => exact ih
  | answered accepted answered rest ih =>
      intro entry member
      rcases List.mem_cons.1 member with rfl | later
      · obtain ⟨answer, one, -⟩ := answered.told reached running accepted
        exact ⟨answer, one⟩
      · exact ih entry later

/-- **Commands among others.**  Calls that are told what a machine among others answers
show what the map among these would show. -/
theorem Converses.run
    (reached : system =
      (Workers.initial start stop).after (localPipeline InMemoryStorage) options schedule)
    (running : system.stop.poll.1 = false) {sockets : List ClientSocket} {commands : List Bytes}
    {calls : List Call} (converses : Converses options system sockets commands calls)
    {state : List (List Bytes) × MapMachine.Map}
    (told : List.Forall₂ (fun entry answer =>
        Machine.told MapMachine.step entry.1 start.values system.executed = [(entry.2, answer)])
      (calls.map Call.entry)
      (Machine.run (Machine.among MapMachine.step) state (calls.map Call.command)).1) :
    (Machine.run askServer sockets commands).1 = (Machine.run askAmong state commands).1 := by
  induction converses generalizing state with
  | done sockets => rfl
  | @refused sockets command commands calls socket status rest ih =>
      have refused : askAmong state command =
          (printClientError (validateCommandLine command), state) :=
        if_neg (by simp [status])
      rw [Machine.run_cons, Machine.run_cons, refused, ← ih told]
      exact congrArg (· :: _) (runConnectSingleCommandMode_refused status socket)
  | @answered sockets commands call calls accepted answered rest ih =>
      rw [List.map_cons, List.map_cons, Machine.run_cons] at told
      obtain ⟨here, later⟩ := List.forall₂_cons.1 told
      obtain ⟨answer, one, shown⟩ := answered.told reached running accepted
      obtain rfl := (Prod.mk.inj (List.head_eq_of_cons_eq (one.symm.trans here))).2
      rw [Machine.run_cons, Machine.run_cons, askAmong_accepted accepted, ← ih later]
      exact congrArg (· :: _) shown

end Calls

/-! ## Sessions -/

/-- **A session among other clients.**  In every interleaving of `run` with its workers, while
no stop is requested: when each call of the loop is answered before the next one is accepted,
the executed lines are the session's commands in its order with lines of others before,
between and behind them, and the loop prints what it prints over a map on which these are
executed. -/
theorem session_among_others (endpoint : TcpEndpoint) {start : InMemoryStorage}
    {stop : StopRequested} {schedule : List WorkerTurn} {system : Workers InMemoryStorage}
    (reached : system =
      (Workers.initial start stop).after (localPipeline InMemoryStorage) options schedule)
    (running : system.stop.poll.1 = false) {sockets : List ClientSocket} {input : Bytes}
    {calls : List Call}
    (converses :
      Converses options system sockets (replCommands (Lines.lines lineFeed input)) calls)
    (inTurn : (calls.map (·.worker.client)).IsChain
      (Workers.Precedes (localPipeline InMemoryStorage) options start stop schedule)) :
    ∃ others last,
      system.executed = Machine.weave others (calls.map Call.entry) ++ last ∧
      others.length = calls.length ∧
      (∀ entry ∈ others.flatten ++ last, entry.1 ∉ calls.map (·.worker.client)) ∧
      runConnectReplMode endpoint sockets input =
        replMode askAmong endpoint (others.map (List.map Prod.snd), start.values) input := by
  have : Trans (Workers.Precedes (localPipeline InMemoryStorage) options start stop schedule)
      (Workers.Precedes (localPipeline InMemoryStorage) options start stop schedule)
      (Workers.Precedes (localPipeline InMemoryStorage) options start stop schedule) :=
    ⟨Workers.Precedes.trans⟩
  have names : (calls.map Call.entry).map Prod.fst = calls.map (·.worker.client) := List.map_map
  have ordered : ((calls.map Call.entry).map Prod.fst).Pairwise
      (Machine.Ordered system.executed) := by
    rw [names, reached]
    exact (List.isChain_iff_pairwise.1 inTurn).imp Workers.Precedes.ordered
  obtain ⟨others, last, executed, count, foreign, told⟩ :=
    Machine.exists_weave _ (converses.single reached running) ordered
  rw [names] at foreign
  rw [List.length_map] at count
  rw [show (calls.map Call.entry).map Prod.snd = calls.map Call.command from List.map_map] at told
  refine ⟨others, last, executed, count, foreign, ?_⟩
  exact congrArg (Printed.followedBy (.toOut (replGreeting endpoint)))
    (replLoop_congr _ (converses.run reached running told))

/-- Another client sets the key between the session's set and its get. -/
def otherRequest : Client where
  socket := { incoming := [.received ⟨bytes "SET k w\n", by decide, by decide⟩ 0] }

/-- The set and the other client are taken in; then the set is through. -/
def bothThenSet : List WorkerTurn :=
  [.main, .main, .main, .accept (.accepted setRequest), .main, .main, .main,
    .main, .main, .main, .main, .accept (.accepted otherRequest), .main, .main, .main] ++
    List.replicate 10 (.worker 0)

/-- The other client's line is executed, then the get is taken in and served. -/
def otherThenGet : List WorkerTurn :=
  List.replicate 3 (.worker 1) ++
    [.main, .main, .main, .main, .main, .accept (.accepted getRequest), .main, .main, .main] ++
    List.replicate 7 (.worker 2)

def afterOther : Workers InMemoryStorage :=
  (Workers.initial .empty .never).after (localPipeline InMemoryStorage) {} (bothThenSet ++ otherThenGet)

def throughWorker : ClientWorker InMemoryStorage :=
  ((Workers.initial .empty .never).after (localPipeline InMemoryStorage) {}
    bothThenSet).threads[0]?.get (by decide)

def setCallWorker : ClientWorker InMemoryStorage := afterOther.threads[0]?.get (by decide)

def getCallWorker : ClientWorker InMemoryStorage := afterOther.threads[2]?.get (by decide)

def setCall : Call where
  command := bytes "SET k v"
  socket := { incoming := [.received ⟨bytes "+O", by decide, by decide⟩ 0, .interrupted,
                .received ⟨bytes "K\r\n", by decide, by decide⟩ 1] }
  connection := setRequest.socket
  worker := setCallWorker

def getCall : Call where
  command := bytes "GET k"
  socket := { incoming := [.received ⟨bytes "$1\r\nw", by decide, by decide⟩ 0, .again 1,
                .received ⟨bytes "\r\n", by decide, by decide⟩ 2, .closed] }
  connection := getRequest.socket
  worker := getCallWorker

theorem session_among_others_set_get :
    ∃ others last,
      afterOther.executed =
        Machine.weave others [(0, bytes "SET k v"), (2, bytes "GET k")] ++ last ∧
      runConnectReplMode ⟨bytes "127.0.0.1", 7721⟩ [setCall.socket, getCall.socket]
          (bytes "SET k v\n GET k\n") =
        replMode askAmong ⟨bytes "127.0.0.1", 7721⟩ (others.map (List.map Prod.snd), ∅)
          (bytes "SET k v\n GET k\n") := by
  have setThread : afterOther.threads[0]? = some setCallWorker := (Option.some_get _).symm
  have set : setCall.Answered {} afterOther :=
    ⟨List.mem_of_getElem? setThread, ⟨.ok, by decide⟩, by rfl,
      ⟨by decide, by decide⟩, ⟨by decide, by decide, by decide, by decide⟩, by decide, by decide⟩
  have getThread : afterOther.threads[2]? = some getCallWorker := (Option.some_get _).symm
  have get : getCall.Answered {} afterOther :=
    ⟨List.mem_of_getElem? getThread, ⟨.ok, by decide⟩, by rfl,
      ⟨by decide, by decide⟩, ⟨by decide, by decide, by decide, by decide⟩, by decide, by decide⟩
  have commands : replCommands (Lines.lines lineFeed (bytes "SET k v\n GET k\n")) =
      [setCall.command, getCall.command] := by decide
  have converses := Converses.answered (by decide) set (.answered (by decide) get (.done []))
  rw [← commands] at converses
  have precedes : Workers.Precedes (localPipeline InMemoryStorage) {} .empty .never
      (bothThenSet ++ otherThenGet) 0 2 :=
    ⟨bothThenSet, otherThenGet, rfl,
      ⟨0, throughWorker, (Option.some_get _).symm, by decide, fun _ => ⟨.ok, by decide⟩⟩,
      by decide⟩
  obtain ⟨others, last, executed, -, -, shown⟩ :=
    session_among_others {} ⟨bytes "127.0.0.1", 7721⟩ rfl (by decide) converses
      (.cons_cons precedes (.singleton _))
  exact ⟨others, last, executed, shown⟩

end AsterKV.Astercli
