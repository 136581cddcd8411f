/-
# AsterKV.Concurrent.DurableLines -- connections, kills and recoveries

An epoch is a process: it serves its connections until it is killed between any two
steps of its workers, of which the append of a record is one, and another one recovers the
log.  `Durable` is the invariant
that carries this: at any moment the file stands for map and counter once the mutation
that is logged has been applied.  So the one line a kill can catch between log and map
takes effect, and what a process held when it was killed is what the next one starts
with (`durably_linearizable`).
-/
import AsterKV.Concurrent.LineHistories

namespace AsterKV.Concurrent

open AsterKV.Core AsterKV.Pipeline AsterKV.Storage AsterKV.Wal Theory Theory.Linearizability
open Theory.Lines

set_option autoImplicit false

variable {C : Type}

/-! ## What the file stands for -/

/-- Map and counter once everything logged is applied. -/
def System.durable (s : System C) : Ledger :=
  s.inFlight.foldl Ledger.advance s.ledger

structure Durable (s : System C) : Prop where
  terminated : Terminated lineFeed s.node.fs.content
  stands : ledgerOf s.node.fs.content = some s.durable

theorem durable_initial {node : Node} (synced : Node.Synced node) :
    Durable (System.initial node : System C) where
  terminated := synced.terminated
  stands := synced.stands

section Steps

variable {s next : System C} {client : C} {shown : Observation C}

/-- Only an append changes what is durable: by its record. -/
theorem Effect.durable {mayFail : Prop} (effect : Effect mayFail client s shown next) :
    next.durable = shown.record?.toList.foldl Ledger.advance s.durable := by
  cases effect with
  | nothing event view ledger inFlight content =>
      rw [System.durable, inFlight, ledger, List.foldl_append]
      rfl
  | call c is idle view ledger inFlight content =>
      subst is
      rw [System.durable, inFlight, ledger]
      rfl
  | point c reply event record pending done admits inFlight content =>
      rw [System.durable, System.durable, inFlight, record]
      rcases admits.cases with ⟨same, unlogged⟩ | ⟨valid, -, advanced, logged⟩
      · rw [same, unlogged]
        rfl
      · rw [advanced, logged]
        rfl
  | ret c reply is done idle ledger inFlight content =>
      subst is
      rw [System.durable, inFlight, ledger]
      rfl

/-- A waiting call sees what is durable. -/
theorem durable_of_waiting (coherent : Coherent s) {c : Call}
    (waiting : (s.phase client).Waiting c) : s.durable = s.node.ledger := by
  have before := coherent.ownerPhase_eq waiting.inside
  have nothing : s.inFlight = [] := by rw [System.inFlight, before, waiting.inFlight]
  rw [System.durable, nothing]
  exact ledger_of_counted (by rw [before, waiting.uncounted])

variable [DecidableEq C]

/-- **The file stands for what is durable at every moment.** -/
theorem Transition.durable (coherent : Coherent s) (transition : Transition client s shown next)
    (succeeds : shown.isFailedAppend = false) (durable : Durable s) : Durable next := by
  have clean := transition.clean succeeds
  have effect : Effect False client s shown next :=
    transition.effect coherent fun failed => by cases succeeds.symm.trans failed
  have ledger := effect.durable
  have unlogged : shown.record? = none → next.node.fs.content = s.node.fs.content ++ shown.written →
      Durable next := by
    intro none content
    rw [clean.nothing none, List.append_nil] at content
    rw [none] at ledger
    exact ⟨content ▸ durable.terminated, by rw [content, ledger]; exact durable.stands⟩
  cases transition with
  | append c record node waiting intent ready same content =>
      have now := durable_of_waiting coherent waiting
      have intended := Ledger.intended_of_intent intent
      have terminated : Terminated lineFeed node.fs.content := by
        rw [content]
        exact terminated_append _ durable.terminated (terminated_recordLine record.val)
      refine ⟨terminated, ?_⟩
      rw [ledger]
      show ledgerOf node.fs.content = some (s.durable.advance record.val)
      rw [content]
      refine ledgerOf_append_line durable.terminated durable.stands ?_ ?_
      · rw [now]
        exact intended.number
      · rw [now]
        exact intended.applicable
  | fail c record status written node waiting intent unavailable =>
      simp [Observation.isFailedAppend, unavailable] at succeeds
  | reject c record status node waiting intent refusal invalid kept =>
      refine unlogged ?_ (kept.content.trans (List.append_nil _).symm)
      simp [Observation.record?, Status.isOk, invalid]
  | refuse c node waiting intent kept =>
      exact unlogged rfl (kept.content.trans (List.append_nil _).symm)
  | stay | call | read | acquire | look | apply | count | release | ret =>
      exact unlogged rfl (List.append_nil _).symm

end Steps

/-! ## One epoch -/

section Epoch

/-- A process killed between two steps, and the recovery after it. -/
theorem restart_durable {s : System C} (ready : Node.Ready s.node) (durable : Durable s)
    {outcomes : Outcomes} (clean : outcomes.NoFailure) :
    (s.node.restart false outcomes).1 = .ok ∧ Node.Synced (s.node.restart false outcomes).2 ∧
      (s.node.restart false outcomes).2.ledger = s.durable := by
  obtain ⟨status, launched⟩ := Node.restart_ok
    ((Node.restart_isOk_iff ready false clean).2 (by rw [durable.stands]; rfl))
  have ledger : (s.node.restart false outcomes).2.ledger = s.durable :=
    Option.some.inj (launched.stands.symm.trans durable.stands)
  have content := launched.content
  exact ⟨status, { launched.toReady with
    terminated := content ▸ durable.terminated
    stands := content ▸ launched.stands }, ledger⟩

variable [DecidableEq C]

/-- The file stands for what is durable wherever a process is killed. -/
theorem run_durable {node : Node} (synced : Node.Synced node)
    {schedule : List (C × LineDirective)}
    (succeed : ∀ shown ∈ (Machine.run LineSystem.step (LineSystem.initial node) schedule).1,
      shown.isFailedAppend = false) :
    Durable (Machine.after LineSystem.step (LineSystem.initial node) schedule).engine := by
  have first : Coherent (LineSystem.initial node : LineSystem C).engine ∧
      Durable (LineSystem.initial node : LineSystem C).engine :=
    ⟨coherent_initial synced.toReady, durable_initial synced⟩
  have all := @Machine.run_accumulates _ _ _ LineSystem.step schedule
    (fun s seen => (∀ shown ∈ seen, shown.isFailedAppend = false) →
      Coherent s.engine ∧ Durable s.engine)
    (fun s seen turn _ so_far succeed => by
      obtain ⟨coherent, durable⟩ := so_far fun shown member =>
        succeed shown (List.mem_append_left _ member)
      have last := succeed _ (List.mem_append_right _ List.mem_cons_self)
      rcases step_engine s turn with same | ⟨directive, shown, moved⟩
      · rw [same]
        exact ⟨coherent, durable⟩
      · have transition := step_transition coherent (turn.1, directive)
        rw [shown] at last
        rw [moved]
        exact ⟨transition.coherent coherent, transition.durable coherent last durable⟩)
    (LineSystem.initial node) [] (fun _ => first)
  rw [List.nil_append] at all
  exact (all succeed).2

/-- **What is durable linearizes what was seen**: the line a kill caught between log and
map takes effect. -/
theorem durable_linearization {s : LineSystem C} (coherent : LineCoherent s) {init : Ledger}
    {seen : List (LineObservation C)} {r : Recorder C Bytes Bytes Ledger}
    (records : Records (LineAdmits False) init (lineSeen s seen) r) :
    ∃ order, Linearization (LineAdmits False) init (lineHistory seen) order s.engine.durable := by
  rcases inFlight_cases coherent.engine with none | ⟨client, c, record, phase, one, -⟩
  · refine ⟨r.order, ?_⟩
    rw [System.durable, none]
    exact records.linearization
  · have fits := coherent.fits client
    have knows := coherent.engine.knows client
    have inside : (s.engine.phase client).inside = true := by
      rw [phase]
      rfl
    have owner := coherent.engine.ownerPhase_eq inside
    rw [phase] at fits knows
    obtain ⟨valid, intent, same⟩ := knows
    have counted : s.engine.ledger = s.engine.node.ledger :=
      ledger_of_counted (by rw [owner, phase]; rfl)
    have moved : s.engine.durable = s.engine.ledger.advance record.val := by
      rw [System.durable, one]
      rfl
    obtain ⟨line, calls, pending⟩ : ∃ line, lineCall line = some c ∧
        s.view client = some (line, .none) := by
      cases at_line : s.phase client with
      | idle | received | serialized =>
          rw [at_line] at fits
          cases fits
      | dispatched line =>
          rw [at_line] at fits
          obtain ⟨asked, reply, calls, view⟩ := fits
          obtain ⟨rfl, -⟩ := Prod.mk.inj (Option.some.inj view)
          refine ⟨line, calls, ?_⟩
          rw [LineSystem.view, at_line, phase]
          rfl
    let caught : Seen C Bytes Bytes Ledger :=
      { history := lineHistory seen
        view := Function.update s.view client
          (some (line, some (lineResponse line (.status .ok))))
        state := s.engine.durable }
    have point : Visible (LineAdmits False) (lineSeen s seen) caught := by
      refine .point client line (lineResponse line (.status .ok)) rfl pending rfl
        (.call c calls _ _ ?_)
      show Ledger.Admits False s.engine.ledger c _ s.engine.durable
      rw [moved, counted, ← same]
      exact Ledger.admits_advance intent
    obtain ⟨r, records⟩ := records.visible point
    exact ⟨r.order, records.linearization⟩

end Epoch

/-! ## All epochs -/

/-- A process's whole life: the turns of its workers, and what the kernel answers to the
recovery after the kill. -/
structure Epoch (C : Type) where
  schedule : List (C × LineDirective)
  outcomes : Outcomes

/-- What an epoch shows, and what its recovery returns. -/
structure Outcome (C : Type) where
  seen : List (LineObservation C)
  recovery : Status

variable [DecidableEq C]

/-- A process serves its connections, is killed, and another one recovers. -/
def runEpoch (node : Node) (epoch : Epoch C) : Outcome C × Node :=
  let (seen, last) := Machine.run LineSystem.step (LineSystem.initial node) epoch.schedule
  let (recovery, again) := last.engine.node.restart false epoch.outcomes
  (⟨seen, recovery⟩, again)

/-- **One epoch**: its order ends in what the recovery holds. -/
theorem runEpoch_linearizes {node : Node} (synced : Node.Synced node) {epoch : Epoch C}
    (clean : epoch.outcomes.NoFailure)
    (succeed : ∀ shown ∈ (runEpoch node epoch).1.seen, shown.isFailedAppend = false) :
    (runEpoch node epoch).1.recovery = .ok ∧ Node.Synced (runEpoch node epoch).2 ∧
      ∃ order, Linearization (LineAdmits False) node.ledger
        (lineHistory (runEpoch node epoch).1.seen) order (runEpoch node epoch).2.ledger := by
  obtain ⟨coherent, r, records⟩ := exists_line_records synced.toReady False epoch.schedule
    fun shown member failed => by cases (succeed shown member).symm.trans failed
  obtain ⟨status, again, ledger⟩ :=
    restart_durable coherent.engine.ready (run_durable synced succeed) clean
  obtain ⟨order, linear⟩ := durable_linearization coherent records
  refine ⟨status, again, order, ?_⟩
  rw [show (runEpoch node epoch).2.ledger = _ from ledger]
  exact linear

/-- **Durable linearizability.**  Processes on one log, each serving any number of
connections in any interleaving and killed between any two steps, no append and no recovery
failing and the sequence numbers sufficing: every recovery returns OK, and the responses of
all processes are those of one sequential order of the lines on one finite map, epoch after
epoch. -/
theorem durably_linearizable {node : Node} (synced : Node.Synced node) {epochs : List (Epoch C)}
    (clean : ∀ epoch ∈ epochs, epoch.outcomes.NoFailure)
    (succeed : ∀ outcome ∈ (Machine.run runEpoch node epochs).1,
      ∀ shown ∈ outcome.seen, shown.isFailedAppend = false)
    (room : Room node.ledger (((Machine.run runEpoch node epochs).1.map fun outcome =>
      changes (lineHistory outcome.seen)).sum)) :
    let outcomes := (Machine.run runEpoch node epochs).1
    let last := Machine.after runEpoch node epochs
    (∀ outcome ∈ outcomes, outcome.recovery = .ok) ∧
      ∃ orders, Epochs (MapAdmits False) node.engine.storage.values
        (outcomes.map fun outcome => lineHistory outcome.seen) orders
        last.engine.storage.values := by
  induction epochs generalizing node with
  | nil => exact ⟨fun _ member => absurd member List.not_mem_nil, [], .nil _⟩
  | cons epoch rest ih =>
      rw [Machine.run_cons] at succeed room
      rw [List.map_cons, List.sum_cons, Nat.add_comm] at room
      obtain ⟨status, again, order, linear⟩ := runEpoch_linearizes synced
        (clean epoch List.mem_cons_self) (succeed _ List.mem_cons_self)
      obtain ⟨first, left⟩ := linearization_map room linear
      obtain ⟨recovered, orders, later⟩ := ih again
        (fun other member => clean other (List.mem_cons_of_mem _ member))
        (fun outcome member => succeed outcome (List.mem_cons_of_mem _ member)) left
      refine ⟨fun outcome member => ?_, order :: orders, .cons first later⟩
      rcases List.mem_cons.1 member with rfl | member
      · exact status
      · exact recovered outcome member

/-- A set whose process is killed with the record in the log and the map unchanged, and
a get of the next process. -/
def killedSet : List (Epoch Bool) :=
  [⟨[(false, .submit (bytes "SET k v")), (false, .go {}), (false, .go {}), (false, .go {})], {}⟩,
    ⟨[(true, .submit (bytes "get k")), (true, .go {}), (true, .go {}), (true, .go {}),
      (true, .go {})], {}⟩]

theorem durably_linearizable_killed_set :
    let start := (Node.launch (bytes "wal") {} (.holding none)).2
    let histories := (Machine.run runEpoch start killedSet).1.map fun outcome =>
      lineHistory outcome.seen
    histories = [[.call false (bytes "SET k v")],
        [.call true (bytes "get k"), .ret true (bytes "$1\r\nv\r\n")]] ∧
      ∃ orders final, Epochs (MapAdmits False) ∅ histories orders final := by
  obtain ⟨synced, -, -⟩ :=
    @Node.fresh_start (bytes "wal") {} (.holding none) rfl (by decide)
  have clean : ∀ epoch ∈ killedSet, epoch.outcomes.NoFailure := by
    intro epoch member
    rcases List.mem_pair.1 member with rfl | rfl <;> exact Outcomes.noFailure_default
  obtain ⟨-, orders, chain⟩ :=
    durably_linearizable synced clean (by decide) ⟨by decide, by decide⟩
  exact ⟨by decide, orders, _, chain⟩

end AsterKV.Concurrent
