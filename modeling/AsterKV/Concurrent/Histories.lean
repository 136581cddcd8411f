/-
# AsterKV.Concurrent.Histories -- the order behind a schedule

`Tracks` couples a system with a recorder of its history: map and counter are the
recorder's sequential ledger, and the log is the acknowledged mutations of its order,
with the one record whose mutation is still under way behind them.  A mutation takes
effect when it changes the map, a failed or refused one where that is decided, a
read when it reads.
-/
import AsterKV.Concurrent.Transitions
import AsterKV.Theory.Linearizability
import AsterKV.Wal.CleanRuns

namespace AsterKV.Wal

open AsterKV.Core AsterKV.Storage

set_option autoImplicit false

namespace Ledger

/-- What one map with its counter may answer: the engine's reply, or, where appends
can fail, that of a mutation whose append failed. -/
inductive Admits (mayFail : Prop) (ledger : Ledger) (c : Call) : Reply → Ledger → Prop where
  | answer : Admits mayFail ledger c (ledger.call c).1 (ledger.call c).2
  | failedAppend (may : mayFail) (record : ValidRecord) (intent : ledger.intent c = some record)
      (status : Status) (unavailable : status.code = .unavailable) :
      Admits mayFail ledger c (.status status) ledger

theorem call_of_none {ledger : Ledger} {c : Call} (intent : ledger.intent c = none) :
    ledger.call c = (ledger.refusal c, ledger) := by
  rw [call, intent]

theorem call_of_some {ledger : Ledger} {c : Call} {record : ValidRecord}
    (intent : ledger.intent c = some record) :
    ledger.call c = (.status .ok, ledger.advance record.val) := by
  rw [call, intent]

theorem admits_refusal {mayFail : Prop} {ledger : Ledger} {c : Call}
    (intent : ledger.intent c = none) : Admits mayFail ledger c (ledger.refusal c) ledger := by
  have admits := @Admits.answer mayFail ledger c
  rwa [call_of_none intent] at admits

theorem admits_advance {mayFail : Prop} {ledger : Ledger} {c : Call} {record : ValidRecord}
    (intent : ledger.intent c = some record) :
    Admits mayFail ledger c (.status .ok) (ledger.advance record.val) := by
  have admits := @Admits.answer mayFail ledger c
  rwa [call_of_some intent] at admits

/-- An admitted answer either acknowledges the record the ledger moved by, or nothing
moved. -/
theorem Admits.cases {mayFail : Prop} {ledger next : Ledger} {c : Call} {reply : Reply}
    (admits : Admits mayFail ledger c reply next) :
    (next = ledger ∧ Node.acknowledgedRecord ledger.next (c, reply) = none) ∨
      ∃ record, ledger.intent c = some record ∧ next = ledger.advance record.val ∧
        Node.acknowledgedRecord ledger.next (c, reply) = some record.val := by
  cases admits with
  | answer =>
      have logged := Node.acknowledgedRecord_call ledger c
      cases intent : ledger.intent c with
      | none =>
          rw [intent] at logged
          rw [call_of_none intent] at logged ⊢
          exact Or.inl ⟨rfl, logged⟩
      | some record =>
          rw [intent] at logged
          rw [call_of_some intent] at logged ⊢
          exact Or.inr ⟨record, rfl, rfl, logged⟩
  | failedAppend may record intent status unavailable =>
      refine Or.inl ⟨rfl, ?_⟩
      rw [Node.acknowledgedRecord, if_neg]
      simp [Reply.isAcknowledged, Status.isOk, unavailable]

end Ledger

namespace Node

theorem acknowledgedRecords_append (number : WalSequenceNumber) (first second : List (Call × Reply)) :
    acknowledgedRecords number (first ++ second) =
      acknowledgedRecords number first ++
        acknowledgedRecords
          (number + UInt64.ofNat (acknowledgedRecords number first).length) second := by
  induction first generalizing number with
  | nil =>
      show acknowledgedRecords number second = acknowledgedRecords (number + 0) second
      rw [UInt64.add_zero]
  | cons answered rest ih =>
      cases logged : acknowledgedRecord number answered with
      | none =>
          rw [List.cons_append, acknowledgedRecords_none logged, acknowledgedRecords_none logged, ih]
      | some record =>
          rw [List.cons_append, acknowledgedRecords_some logged, acknowledgedRecords_some logged, ih,
            List.cons_append, List.length_cons, number_succ]

theorem acknowledgedRecords_singleton (number : WalSequenceNumber) (answered : Call × Reply) :
    acknowledgedRecords number [answered] = (acknowledgedRecord number answered).toList := by
  cases logged : acknowledgedRecord number answered with
  | none => rw [acknowledgedRecords_none logged]; rfl
  | some record => rw [acknowledgedRecords_some logged]; rfl

end Node

end AsterKV.Wal

namespace AsterKV.Concurrent

open AsterKV.Core AsterKV.Storage AsterKV.Wal Theory Theory.Linearizability

set_option autoImplicit false

variable {C : Type}

/-! ## What the observations say -/

namespace Observation

/-- What the clients see. -/
def event? : Observation C → Option (Event C Call Reply)
  | .called client c => some (.call client c)
  | .returned client _ reply => some (.ret client reply)
  | _ => none

/-- The record of an append that returned OK. -/
def record? : Observation C → Option WalRecord
  | .append _ _ record status _ => if status.isOk then some record else none
  | _ => none

/-- The bytes the step added to the file. -/
def written : Observation C → Bytes
  | .append _ _ _ _ written => written
  | _ => []

/-- A step that wanted to append a valid record and could not. -/
def isFailedAppend : Observation C → Bool
  | .append _ _ _ status _ => status.code == .unavailable
  | _ => false

end Observation

def clientHistory (seen : List (Observation C)) : List (Event C Call Reply) :=
  seen.filterMap Observation.event?

/-- The records of the appends that returned OK, in order. -/
def appendedRecords (seen : List (Observation C)) : List WalRecord :=
  seen.filterMap Observation.record?

def writtenBytes (seen : List (Observation C)) : Bytes := seen.flatMap Observation.written

theorem filterMap_snoc {α β : Type} (f : α → Option β) (list : List α) (last : α) :
    (list ++ [last]).filterMap f = list.filterMap f ++ (f last).toList := by
  rw [List.filterMap_append]
  cases answer : f last <;> simp [answer]

theorem writtenBytes_snoc (seen : List (Observation C)) (shown : Observation C) :
    writtenBytes (seen ++ [shown]) = writtenBytes seen ++ shown.written := by
  simp [writtenBytes]

/-- The acknowledged mutations of an order, as the records they log. -/
def recordsOf (number : WalSequenceNumber) (order : List (Operation C Call Reply)) :
    List WalRecord :=
  Node.acknowledgedRecords number (order.map Operation.exchange)

theorem recordsOf_snoc (number : WalSequenceNumber) (order : List (Operation C Call Reply))
    (op : Operation C Call Reply) :
    recordsOf number (order ++ [op]) =
      recordsOf number order ++
        (Node.acknowledgedRecord (number + UInt64.ofNat (recordsOf number order).length)
          op.exchange).toList := by
  rw [recordsOf, List.map_append, Node.acknowledgedRecords_append, List.map_singleton,
    Node.acknowledgedRecords_singleton]
  rfl

/-! ## The coupling -/

structure Tracks (mayFail : Prop) (start : Node) (s : System C) (seen : List (Observation C))
    (r : Recorder C Call Reply Ledger) : Prop where
  recorded : Recorded (Ledger.Admits mayFail) start.ledger r
  history : r.history = clientHistory seen
  standing : ∀ client, (r.standing client).view = (s.phase client).view
  state : r.state = s.ledger
  logged : appendedRecords seen = recordsOf start.ledger.next r.order ++ s.inFlight
  counted : s.ledger.next =
    start.ledger.next + UInt64.ofNat (recordsOf start.ledger.next r.order).length
  content : s.node.fs.content = start.fs.content ++ writtenBytes seen

theorem tracks_start (mayFail : Prop) (node : Node) :
    Tracks mayFail node (System.initial node : System C) [] (Recorder.start node.ledger) where
  recorded := recorded_start _ _
  history := rfl
  standing _ := rfl
  state := rfl
  logged := rfl
  counted := (UInt64.add_zero _).symm
  content := (List.append_nil _).symm

section Moves

variable {mayFail : Prop} {start : Node} {s next : System C} {seen : List (Observation C)}
  {r : Recorder C Call Reply Ledger} {shown : Observation C}

/-- A step in which nothing takes effect. -/
theorem Tracks.silent (tracks : Tracks mayFail start s seen r) (event : shown.event? = none)
    (view : ∀ other, (next.phase other).view = (s.phase other).view)
    (ledger : next.ledger = s.ledger) (inFlight : next.inFlight = s.inFlight ++ shown.record?.toList)
    (content : next.node.fs.content = s.node.fs.content ++ shown.written) :
    Tracks mayFail start next (seen ++ [shown]) r where
  recorded := tracks.recorded
  history := by
    rw [tracks.history, clientHistory, clientHistory, filterMap_snoc, event]
    exact (List.append_nil _).symm
  standing other := (tracks.standing other).trans (view other).symm
  state := tracks.state.trans ledger.symm
  logged := by
    rw [inFlight, ← List.append_assoc, ← tracks.logged, appendedRecords, appendedRecords,
      filterMap_snoc]
  counted := by rw [ledger, tracks.counted]
  content := by rw [content, tracks.content, writtenBytes_snoc, List.append_assoc]

variable [DecidableEq C]

/-- The views of all clients after one of them took a move of the recorder. -/
theorem standing_update {standing : C → Standing Call Reply} {client : C}
    {now : Standing Call Reply} (view : now.view = (next.phase client).view)
    (same : ∀ other, (standing other).view = (s.phase other).view)
    (others : ∀ other, other ≠ client → next.phase other = s.phase other) (other : C) :
    (Function.update standing client now other).view = (next.phase other).view := by
  by_cases is : other = client
  · rw [is, Function.update_self, view]
  · rw [Function.update_of_ne is, others other is, same other]

/-- A step in which a client's call takes effect. -/
theorem Tracks.point (tracks : Tracks mayFail start s seen r) {client : C} {c : Call}
    {reply : Reply} (pending : (s.phase client).view = some (c, none))
    (done : (next.phase client).view = some (c, some reply))
    (others : ∀ other, other ≠ client → next.phase other = s.phase other)
    (admits : Ledger.Admits mayFail s.ledger c reply next.ledger) (event : shown.event? = none)
    (record : shown.record? = none)
    (inFlight : s.inFlight =
      (Node.acknowledgedRecord s.ledger.next (c, reply)).toList ++ next.inFlight)
    (content : next.node.fs.content = s.node.fs.content ++ shown.written) :
    ∃ r, Tracks mayFail start next (seen ++ [shown]) r := by
  obtain ⟨calledAt, waiting⟩ :=
    Standing.view_eq_pending ((tracks.standing client).trans pending)
  have admitted : Ledger.Admits mayFail r.state c reply next.ledger := by
    rw [tracks.state]
    exact admits
  have records : recordsOf start.ledger.next (r.order ++ [⟨client, c, reply, calledAt⟩]) =
      recordsOf start.ledger.next r.order ++
        (Node.acknowledgedRecord s.ledger.next (c, reply)).toList := by
    rw [recordsOf_snoc, tracks.counted]
    rfl
  refine ⟨r.point client calledAt c reply next.ledger,
    { recorded := tracks.recorded.point waiting admitted
      history := ?_, standing := ?_, state := rfl, logged := ?_, counted := ?_, content := ?_ }⟩
  · rw [Recorder.point, tracks.history, clientHistory, clientHistory, filterMap_snoc, event]
    exact (List.append_nil _).symm
  · exact standing_update done.symm tracks.standing others
  · rw [Recorder.point, records, List.append_assoc, ← inFlight, ← tracks.logged, appendedRecords,
      appendedRecords, filterMap_snoc, record]
    exact List.append_nil _
  · rw [Recorder.point, records]
    rcases admits.cases with ⟨same, unlogged⟩ | ⟨valid, -, advanced, logged⟩
    · rw [same, unlogged, tracks.counted]
      simp
    · rw [advanced, logged, Ledger.advance, tracks.counted, List.length_append, UInt64.ofNat_add,
        UInt64.add_assoc]
      rfl
  · rw [content, tracks.content, writtenBytes_snoc, List.append_assoc]

theorem Tracks.call (tracks : Tracks mayFail start s seen r) {client : C} {c : Call}
    (phase : (next.phase client).view = some (c, none))
    (others : ∀ other, other ≠ client → next.phase other = s.phase other)
    (ledger : next.ledger = s.ledger) (inFlight : next.inFlight = s.inFlight)
    (content : next.node.fs.content = s.node.fs.content) :
    Tracks mayFail start next (seen ++ [.called client c]) (r.call client c) where
  recorded := tracks.recorded.call client c
  history := by
    rw [Recorder.call, tracks.history, clientHistory, clientHistory, filterMap_snoc]
    rfl
  standing := standing_update phase.symm tracks.standing others
  state := tracks.state.trans ledger.symm
  logged := by
    rw [inFlight, appendedRecords, filterMap_snoc]
    exact (List.append_nil _).trans tracks.logged
  counted := by
    rw [ledger]
    exact tracks.counted
  content := by
    rw [content, tracks.content, writtenBytes_snoc]
    exact congrArg _ (List.append_nil _).symm

theorem Tracks.ret (tracks : Tracks mayFail start s seen r) {client : C} {c : Call} {reply : Reply}
    (done : (s.phase client).view = some (c, some reply))
    (phase : (next.phase client).view = none)
    (others : ∀ other, other ≠ client → next.phase other = s.phase other)
    (ledger : next.ledger = s.ledger) (inFlight : next.inFlight = s.inFlight)
    (content : next.node.fs.content = s.node.fs.content) :
    Tracks mayFail start next (seen ++ [.returned client c reply]) (r.ret client reply) := by
  obtain ⟨calledAt, standing⟩ := Standing.view_eq_done ((tracks.standing client).trans done)
  refine { recorded := tracks.recorded.ret standing
           history := ?_, standing := ?_, state := ?_, logged := ?_, counted := ?_, content := ?_ }
  · rw [Recorder.ret, tracks.history, clientHistory, clientHistory, filterMap_snoc]
    rfl
  · exact standing_update phase.symm tracks.standing others
  · exact tracks.state.trans ledger.symm
  · rw [inFlight, appendedRecords, filterMap_snoc]
    exact (List.append_nil _).trans tracks.logged
  · rw [ledger]
    exact tracks.counted
  · rw [content, tracks.content, writtenBytes_snoc]
    exact congrArg _ (List.append_nil _).symm

end Moves

/-! ## Every schedule -/

section Schedules

variable {mayFail : Prop} {start : Node} {s next : System C} {seen : List (Observation C)}
  {r : Recorder C Call Reply Ledger} {shown : Observation C}

theorem ledger_eq_of_uncounted (same : next.ownerPhase.uncounted = s.ownerPhase.uncounted)
    (node : next.node.ledger = s.node.ledger) : next.ledger = s.ledger := by
  have storage : next.node.engine.storage = s.node.engine.storage := congrArg Ledger.storage node
  have counter : next.node.engine.nextSequenceNumber = s.node.engine.nextSequenceNumber :=
    congrArg Ledger.next node
  rw [System.ledger, System.ledger, storage, counter, same]

theorem ledger_of_counted (counted : s.ownerPhase.uncounted = false) : s.ledger = s.node.ledger := by
  rw [System.ledger, counted]
  rfl

variable [DecidableEq C]

theorem view_moveTo {client : C} {phase : Phase} (view : phase.view = (s.phase client).view)
    (other : C) : ((s.moveTo client phase).phase other).view = (s.phase other).view := by
  by_cases same : other = client
  · rw [same, System.moveTo_phase_self, view]
  · rw [System.moveTo_phase_of_ne s same]

/-- **What a turn means to the clients' history**: nothing, a call, the point at which
a call takes effect, or a return.  The records in flight and the file are told along. -/
inductive Effect (mayFail : Prop) (client : C) (s : System C) (shown : Observation C)
    (next : System C) : Prop where
  | nothing (event : shown.event? = none)
      (view : (next.phase client).view = (s.phase client).view) (ledger : next.ledger = s.ledger)
      (inFlight : next.inFlight = s.inFlight ++ shown.record?.toList)
      (content : next.node.fs.content = s.node.fs.content ++ shown.written)
  | call (c : Call) (is : shown = .called client c) (idle : s.phase client = .idle)
      (view : (next.phase client).view = some (c, none)) (ledger : next.ledger = s.ledger)
      (inFlight : next.inFlight = s.inFlight)
      (content : next.node.fs.content = s.node.fs.content)
  | point (c : Call) (reply : Reply) (event : shown.event? = none) (record : shown.record? = none)
      (pending : (s.phase client).view = some (c, none))
      (done : (next.phase client).view = some (c, some reply))
      (admits : Ledger.Admits mayFail s.ledger c reply next.ledger)
      (inFlight : s.inFlight =
        (Node.acknowledgedRecord s.ledger.next (c, reply)).toList ++ next.inFlight)
      (content : next.node.fs.content = s.node.fs.content ++ shown.written)
  | ret (c : Call) (reply : Reply) (is : shown = .returned client c reply)
      (done : (s.phase client).view = some (c, some reply)) (idle : next.phase client = .idle)
      (ledger : next.ledger = s.ledger) (inFlight : next.inFlight = s.inFlight)
      (content : next.node.fs.content = s.node.fs.content)

/-- A waiting call is decided without a change of map and counter. -/
theorem effect_decided (coherent : Coherent s) {client : C} {c : Call} {reply : Reply}
    {node : Node} (waiting : (s.phase client).Waiting c)
    (admits : Ledger.Admits mayFail s.node.ledger c reply s.node.ledger)
    (unlogged : Node.acknowledgedRecord s.node.ledger.next (c, reply) = none)
    (ledger : node.ledger = s.node.ledger) (event : shown.event? = none)
    (record : shown.record? = none)
    (content : node.fs.content = s.node.fs.content ++ shown.written) :
    Effect mayFail client s shown
      ({ s with node := node }.moveTo client (.leaving c reply)) := by
  have before := coherent.ownerPhase_eq waiting.inside
  have after : ({ s with node := node }.moveTo client (.leaving c reply)).ownerPhase =
      .leaving c reply := coherent.ownerPhase_moved waiting.inside _ _
  have counted : s.ledger = s.node.ledger := ledger_of_counted (by rw [before, waiting.uncounted])
  have kept : ({ s with node := node }.moveTo client (.leaving c reply)).ledger = s.node.ledger :=
    (ledger_of_counted (by rw [after]; rfl)).trans ledger
  refine .point c reply event record waiting.view (by rw [System.moveTo_phase_self]; rfl) ?_ ?_
    content
  · rw [counted, kept]
    exact admits
  · rw [counted, unlogged, System.inFlight, System.inFlight, before, after, waiting.inFlight]
    rfl

/-- A turn moves no other client. -/
theorem Transition.others {client : C} (transition : Transition client s shown next) :
    ∀ other, other ≠ client → next.phase other = s.phase other := by
  intro other ne
  cases transition with
  | stay => rfl
  | call | read | acquire | look | refuse | reject | fail | append | apply | count | release | ret =>
      exact System.moveTo_phase_of_ne _ ne _

/-- **Every turn has one of the four effects.** -/
theorem Transition.effect (coherent : Coherent s) {client : C}
    (transition : Transition client s shown next)
    (blame : shown.isFailedAppend = true → mayFail) : Effect mayFail client s shown next := by
  cases transition with
  | stay => exact .nothing rfl rfl rfl (List.append_nil _).symm (List.append_nil _).symm
  | call c idle =>
      have same := coherent.ownerPhase_outside (by rw [idle]; rfl) (.called c)
      refine .call c rfl idle (by rw [System.moveTo_phase_self]; rfl) ?_ ?_ rfl
      · exact ledger_eq_of_uncounted (congrArg _ same) rfl
      · exact congrArg Phase.inFlight same
  | read c called reads =>
      have same := coherent.ownerPhase_outside (by rw [called]; rfl)
        (.answered c (s.node.ledger.refusal c))
      have ledger : (s.moveTo client (.answered c (s.node.ledger.refusal c))).ledger = s.ledger :=
        ledger_eq_of_uncounted (congrArg _ same) rfl
      have intent : s.ledger.intent c = none := by
        cases c with
        | get | exists? => rfl
        | set | remove => cases reads
      -- a read looks at the map only, so the counter that lags behind does not matter
      have reply : s.node.ledger.refusal c = s.ledger.refusal c := by
        cases c with
        | get | exists? => rfl
        | set | remove => cases reads
      refine .point c _ rfl rfl (by rw [called]; rfl) (by rw [System.moveTo_phase_self]; rfl) ?_ ?_
        (List.append_nil _).symm
      · rw [ledger, reply]
        exact Ledger.admits_refusal intent
      · have unlogged := Node.acknowledgedRecord_call s.ledger c
        rw [Ledger.call_of_none intent, intent] at unlogged
        rw [reply, unlogged, System.inFlight, System.inFlight, ← reply, same]
        rfl
  | acquire c called mutation nobody =>
      have before := System.ownerPhase_of_free nobody
      have after : ({ s with owner := some client }.moveTo client (.holding c)).ownerPhase =
          .holding c := System.ownerPhase_moveTo_of_owner rfl _
      refine .nothing rfl (view_moveTo (by rw [called]; rfl) client) ?_ ?_ (List.append_nil _).symm
      · exact ledger_eq_of_uncounted (by rw [before, after]; rfl) rfl
      · rw [System.inFlight, System.inFlight, before, after]
        rfl
  | look key found holding answer =>
      have before := coherent.ownerPhase_eq (by rw [holding]; rfl)
      have after := coherent.ownerPhase_moved (by rw [holding]; rfl) s.node
        (if found then .present key else .absent key)
      refine .nothing rfl (view_moveTo (by rw [holding]; cases found <;> rfl) client) ?_ ?_
        (List.append_nil _).symm
      · exact ledger_eq_of_uncounted (by rw [before, after, holding]; cases found <;> rfl) rfl
      · rw [System.inFlight, System.inFlight, before, after, holding]
        cases found <;> rfl
  | refuse c node waiting intent kept missing =>
      refine effect_decided coherent waiting (Ledger.admits_refusal intent) ?_ kept.ledger rfl rfl
        (kept.content.trans (List.append_nil _).symm)
      have unlogged := Node.acknowledgedRecord_call s.node.ledger c
      rwa [Ledger.call_of_none intent, intent] at unlogged
  | reject c record status node waiting intent refusal invalid kept =>
      have rejected : status.isOk = false := by simp [Status.isOk, invalid]
      refine effect_decided coherent waiting (refusal ▸ Ledger.admits_refusal intent) ?_
        kept.ledger rfl ?_ (kept.content.trans (List.append_nil _).symm)
      · have unlogged := Node.acknowledgedRecord_call s.node.ledger c
        rwa [Ledger.call_of_none intent, intent, refusal] at unlogged
      · simp [Observation.record?, rejected]
  | fail c record status written node waiting intent unavailable ready ledger content =>
      have failed : status.isOk = false := by simp [Status.isOk, unavailable]
      have may : mayFail := blame (by simp [Observation.isFailedAppend, unavailable])
      refine effect_decided coherent waiting (.failedAppend may record intent status unavailable) ?_
        ledger rfl ?_ content
      · rw [Node.acknowledgedRecord, if_neg]
        simp [Reply.isAcknowledged, failed]
      · simp [Observation.record?, failed]
  | append c record node waiting intent ready ledger content =>
      have before := coherent.ownerPhase_eq waiting.inside
      have after : ({ s with node := node }.moveTo client (.appended c record.val)).ownerPhase =
          .appended c record.val := coherent.ownerPhase_moved waiting.inside _ _
      refine .nothing rfl (@view_moveTo C { s with node := node } _ client _
        (by rw [waiting.view]; rfl) client) ?_ ?_ content
      · exact ledger_eq_of_uncounted (by rw [before, after, waiting.uncounted]; rfl) ledger
      · rw [System.inFlight, System.inFlight, before, after, waiting.inFlight]
        rfl
  | apply c record appended intent =>
      have before := coherent.ownerPhase_eq (by rw [appended]; rfl)
      have counted : s.ledger = s.node.ledger :=
        ledger_of_counted (by rw [before, appended]; rfl)
      let moved : System C :=
        { s with node.engine.storage := record.val.applyTo s.node.engine.storage }.moveTo client
          (.applied c)
      have after : moved.ownerPhase = .applied c := coherent.ownerPhase_moved (by rw [appended]; rfl) _ _
      have advanced : moved.ledger = s.node.ledger.advance record.val := by
        rw [System.ledger, after]
        rfl
      refine @Effect.point C mayFail client s _ moved c (.status .ok) rfl rfl
        (by rw [appended]; rfl) (by rw [System.moveTo_phase_self]; rfl) ?_ ?_
        (List.append_nil _).symm
      · rw [counted, advanced]
        exact Ledger.admits_advance intent
      · have logged := Node.acknowledgedRecord_call s.node.ledger c
        rw [Ledger.call_of_some intent, intent] at logged
        rw [counted, logged, System.inFlight, System.inFlight, before, after, appended]
        rfl
  | count c applied =>
      have before := coherent.ownerPhase_eq (by rw [applied]; rfl)
      let moved : System C :=
        { s with
            node.engine.nextSequenceNumber := s.node.engine.nextSequenceNumber + 1 }.moveTo client
          (.leaving c (.status .ok))
      have after : moved.ownerPhase = .leaving c (.status .ok) :=
        coherent.ownerPhase_moved (by rw [applied]; rfl) _ _
      refine @Effect.nothing C mayFail client s _ moved rfl (view_moveTo (by rw [applied]; rfl) client)
        ?_ ?_ (List.append_nil _).symm
      · rw [System.ledger, System.ledger, before, after, applied]
        rfl
      · rw [System.inFlight, System.inFlight, before, after, applied]
        rfl
  | release c reply leaving =>
      have before := coherent.ownerPhase_eq (by rw [leaving]; rfl)
      have after : ({ s with owner := none }.moveTo client (.answered c reply)).ownerPhase = .idle :=
        System.ownerPhase_of_free rfl
      refine .nothing rfl (view_moveTo (by rw [leaving]; rfl) client) ?_ ?_ (List.append_nil _).symm
      · exact ledger_eq_of_uncounted (by rw [before, after, leaving]; rfl) rfl
      · rw [System.inFlight, System.inFlight, before, after, leaving]
        rfl
  | ret c reply answered =>
      have same := coherent.ownerPhase_outside (by rw [answered]; rfl) .idle
      refine .ret c reply rfl (by rw [answered]; rfl) (System.moveTo_phase_self ..) ?_ ?_ rfl
      · exact ledger_eq_of_uncounted (congrArg _ same) rfl
      · exact congrArg Phase.inFlight same

/-- **One turn moves the recorder at most once.** -/
theorem Tracks.transition (tracks : Tracks mayFail start s seen r) (coherent : Coherent s)
    {client : C} (transition : Transition client s shown next)
    (blame : shown.isFailedAppend = true → mayFail) :
    ∃ r, Tracks mayFail start next (seen ++ [shown]) r := by
  have others := transition.others
  cases transition.effect coherent blame with
  | nothing event view ledger inFlight content =>
      refine ⟨r, tracks.silent event (fun other => ?_) ledger inFlight content⟩
      by_cases same : other = client
      · rw [same, view]
      · rw [others other same]
  | call c is idle view ledger inFlight content =>
      subst is
      exact ⟨r.call client c, tracks.call view others ledger inFlight content⟩
  | point c reply event record pending done admits inFlight content =>
      exact tracks.point pending done others admits event record inFlight content
  | ret c reply is done idle ledger inFlight content =>
      subst is
      exact ⟨r.ret client reply,
        tracks.ret done (by rw [idle]; rfl) others ledger inFlight content⟩

/-- **Every schedule has a recorder that tracks it.** -/
theorem exists_tracks {node : Node} (ready : Node.Ready node) (mayFail : Prop)
    (schedule : List (C × Directive))
    (blame : ∀ shown ∈ (Machine.run System.step (System.initial node) schedule).1,
      shown.isFailedAppend = true → mayFail) :
    Coherent (Machine.after System.step (System.initial node) schedule) ∧
      ∃ r, Tracks mayFail node (Machine.after System.step (System.initial node) schedule)
        (Machine.run System.step (System.initial node) schedule).1 r := by
  have all := Machine.run_accumulates System.step schedule
    (P := fun s seen => Coherent s ∧
    ((∀ shown ∈ seen, shown.isFailedAppend = true → mayFail) → ∃ r, Tracks mayFail node s seen r))
    (fun s seen turn _ => by
      rintro ⟨coherent, tracked⟩
      have transition := step_transition coherent turn
      refine ⟨transition.coherent coherent, fun blame => ?_⟩
      obtain ⟨r, tracks⟩ := tracked fun shown member =>
        blame shown (List.mem_append_left _ member)
      exact tracks.transition coherent transition
        (blame _ (List.mem_append_right _ List.mem_cons_self)))
    ⟨coherent_initial ready, fun _ => ⟨_, tracks_start mayFail node⟩⟩
  rw [List.nil_append] at all
  exact ⟨all.1, all.2 blame⟩

end Schedules

end AsterKV.Concurrent
