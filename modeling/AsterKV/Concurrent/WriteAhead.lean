/-
# AsterKV.Concurrent.WriteAhead -- nothing is seen before it is logged

Clients start on a fresh log and no append fails.  Killed between any two steps, the
process leaves a file whose recovery holds every mutation of the clients' order, and
besides them at most the one that was logged and not yet applied.
-/
import AsterKV.Concurrent.Linearizable

namespace AsterKV.Wal

open AsterKV.Core AsterKV.Storage Theory Theory.Linearizability

set_option autoImplicit false

/-- The acknowledged mutations of a sequential run replay to where the run went. -/
theorem Ledger.replay_of_sequential {mayFail : Prop} {ledger last : Ledger}
    {exchanges : List (Call × Reply)}
    (run : Sequential (Ledger.Admits mayFail) ledger exchanges last) :
    Journal.replay applyRecord (Node.acknowledgedRecords ledger.next exchanges) ledger.storage =
      some last.storage := by
  induction exchanges generalizing ledger with
  | nil =>
      cases run
      rfl
  | cons exchange rest ih =>
      obtain ⟨next, admits, later⟩ := run
      have ih := ih later
      rcases admits.cases with ⟨rfl, unlogged⟩ | ⟨record, intent, rfl, logged⟩
      · rw [Node.acknowledgedRecords_none unlogged]
        exact ih
      · have applicable := (Ledger.intended_of_intent intent).applicable
        rw [Node.acknowledgedRecords_some logged, Journal.replay_cons,
          applyRecord_of_applicable applicable]
        exact ih

end AsterKV.Wal

namespace AsterKV.Concurrent

open AsterKV.Core AsterKV.Storage AsterKV.Wal Theory Theory.Linearizability

set_option autoImplicit false

variable {C : Type}

/-! ## Schedules in which no append fails -/

/-- A step that adds to the file exactly the line of a record that got through. -/
structure Observation.Clean (shown : Observation C) : Prop where
  whole : shown.Whole
  nothing : shown.record? = none → shown.written = []

theorem writtenBytes_eq_logBytes {seen : List (Observation C)}
    (clean : ∀ shown ∈ seen, shown.Clean) : writtenBytes seen = logBytes (appendedRecords seen) := by
  induction seen using List.reverseRecOn with
  | nil => rfl
  | append_singleton rest shown ih =>
      have last := clean shown (List.mem_append_right _ List.mem_cons_self)
      have ih := ih fun other member => clean other (List.mem_append_left _ member)
      rw [writtenBytes_snoc, ih, appendedRecords, appendedRecords, filterMap_snoc, logBytes, logBytes,
        List.map_append, List.flatten_append]
      congr 1
      cases logged : shown.record? with
      | none => rw [last.nothing logged]; rfl
      | some record =>
          rw [(last.whole record logged).2]
          exact (List.append_nil _).symm

section Schedules

variable [DecidableEq C]

theorem Transition.clean {s next : System C} {client : C}
    {shown : Observation C} (transition : Transition client s shown next)
    (succeeds : shown.isFailedAppend = false) : shown.Clean := by
  have whole := transition.whole
  cases transition with
  | append c valid node waiting intent ready ledger content =>
      exact ⟨whole, fun none => by simp [Observation.record?] at none⟩
  | reject c record status node waiting intent refusal invalid kept =>
      exact ⟨whole, fun _ => rfl⟩
  | fail c record status written node waiting intent unavailable ready ledger content =>
      simp [Observation.isFailedAppend, unavailable] at succeeds
  | stay | call | read | acquire | look | refuse | apply | count | release | ret =>
      exact ⟨whole, fun _ => rfl⟩

end Schedules

/-! ## The file at any moment -/

/-- What is in flight: nothing, or one record that its owner has appended and not yet
applied, and that applies to the map. -/
theorem inFlight_cases {s : System C} (coherent : Coherent s) :
    s.inFlight = [] ∨ ∃ client c, ∃ record : ValidRecord,
      s.phase client = .appended c record.val ∧ s.inFlight = [record.val] ∧
        record.val.Applicable s.node.engine.storage := by
  unfold System.inFlight System.ownerPhase
  split
  · next client owner =>
      have knows := coherent.knows client
      cases phase : s.phase client with
      | appended c record =>
          rw [phase] at knows
          obtain ⟨valid, intent, rfl⟩ := knows
          exact Or.inr ⟨client, c, valid, phase, rfl, (Ledger.intended_of_intent intent).applicable⟩
      | idle | called | holding | absent | present | applied | leaving | answered => exact Or.inl rfl
  · exact Or.inl rfl

/-- A read in a sequential run sees what the records before it stand for. -/
theorem observed_of_sequential {front back : List (Operation C Call Reply)}
    {op : Operation C Call Reply} {final : Ledger}
    (run : Sequential (Ledger.Admits False) { storage := .empty, next := 1 }
      ((front ++ op :: back).map Operation.exchange) final)
    (reads : op.input.isMutation = false) :
    ∃ observed, restored (recordsOf 1 front) = some observed ∧
      op.output = (StorageEngine.call observed op.input).1 := by
  rw [List.map_append] at run
  obtain ⟨middle, before, next, admits, -⟩ := sequential_append.1 run
  refine ⟨middle.storage, Ledger.replay_of_sequential before, ?_⟩
  obtain ⟨client, input, output, calledAt⟩ := op
  have admits : Ledger.Admits False middle input output next := admits
  cases admits with
  | answer =>
      cases input with
      | get | exists? => rfl
      | set | remove => cases reads
  | failedAppend may => exact may.elim

theorem recordsOf_prefix (number : WalSequenceNumber) (front back : List (Operation C Call Reply)) :
    recordsOf number front <+: recordsOf number (front ++ back) := by
  rw [recordsOf, recordsOf, List.map_append, Node.acknowledgedRecords_append]
  exact List.prefix_append _ _

variable [DecidableEq C]

/-- **Write-ahead visibility.**  Clients of an engine that recovered an absent file,
no append failing, in any interleaving: there is a sequential order behind what they
saw, and when the process is killed at any moment, recovery returns OK with the map
that results from all mutations of this order, those whose callers were told OK and
those some read has seen among them, and from the one record that may be logged but
not applied. -/
theorem write_ahead {filePath : Bytes} {options : WalBackedStorageOptions} {fs : FileSystem}
    {schedule : List (C × Directive)} (absent : fs.file = none)
    (recovered : (Node.launch filePath options fs).1 = .ok)
    (succeed : ∀ shown ∈ (Machine.run System.step
      (System.initial (Node.launch filePath options fs).2) schedule).1,
      shown.isFailedAppend = false) :
    let start : System C := System.initial (Node.launch filePath options fs).2
    let seen := (Machine.run System.step start schedule).1
    let last := Machine.after System.step start schedule
    ∃ order final,
      Linearization (Ledger.Admits False) { storage := .empty, next := 1 } (clientHistory seen)
        order final ∧
      last.node.fs.content = logBytes (recordsOf 1 order ++ last.inFlight) ∧
      (∀ outcomes, outcomes.NoFailure →
        let again := last.node.restart false outcomes
        again.1 = .ok ∧
          restored (recordsOf 1 order ++ last.inFlight) = some again.2.engine.storage ∧
          (again.2.engine.storage = last.node.engine.storage ∨
            ∃ client c record, last.phase client = .appended c record ∧
              last.inFlight = [record] ∧
              again.2.engine.storage = record.applyTo last.node.engine.storage)) ∧
      ∀ front op back, order = front ++ op :: back → op.input.isMutation = false →
        ∃ observed, restored (recordsOf 1 front) = some observed ∧
          op.output = (StorageEngine.call observed op.input).1 ∧
          recordsOf 1 front <+: recordsOf 1 order := by
  intro start seen last
  obtain ⟨synced, empty, fresh⟩ := Node.fresh_start absent recovered
  have clean : ∀ shown ∈ seen, shown.Clean :=
    fun shown member => run_shows Transition.clean (coherent_initial synced.toReady) schedule
      shown member (succeed shown member)
  obtain ⟨coherent, r, tracks⟩ := @exists_tracks C _ _ synced.toReady False schedule
    fun shown member failed => by cases (succeed shown member).symm.trans failed
  have linear := tracks.recorded.linear
  have logged : appendedRecords seen = _ := tracks.logged
  rw [tracks.history, fresh] at linear
  rw [fresh] at logged
  have content : last.node.fs.content = logBytes (recordsOf 1 r.order ++ last.inFlight) := by
    have all : last.node.fs.content = _ := tracks.content
    rw [all, empty, List.nil_append, writtenBytes_eq_logBytes clean, logged]
  have valid : ∀ record ∈ recordsOf 1 r.order ++ last.inFlight,
      (validateWalRecord record).isOk = true := by
    intro record member
    rw [← logged] at member
    obtain ⟨shown, inSeen, isRecord⟩ := List.mem_filterMap.1 member
    exact ((clean shown inSeen).whole record isRecord).1
  have replayed : restored (recordsOf 1 r.order) = some last.node.engine.storage := by
    have replay := Ledger.replay_of_sequential linear.sequential
    rw [tracks.state] at replay
    exact replay
  obtain ⟨storage, whole, near⟩ : ∃ storage,
      restored (recordsOf 1 r.order ++ last.inFlight) = some storage ∧
        (storage = last.node.engine.storage ∨
          ∃ client c record, last.phase client = .appended c record ∧ last.inFlight = [record] ∧
            storage = record.applyTo last.node.engine.storage) := by
    rcases inFlight_cases coherent with none | ⟨client, c, record, phase, one, applicable⟩
    · have none : last.inFlight = [] := none
      exact ⟨_, by rw [none, List.append_nil, replayed], Or.inl rfl⟩
    · have one : last.inFlight = [record.val] := one
      refine ⟨_, ?_, Or.inr ⟨client, c, record.val, phase, one, rfl⟩⟩
      rw [one, restored_snoc replayed, if_pos applicable]
  have stands : ledgerOf last.node.fs.content = some { storage := storage, next := _ } :=
    ledgerOf_eq_some.2 ⟨_, content ▸ readContent_logBytes valid, whole, rfl⟩
  refine ⟨r.order, r.state, linear, content, fun outcomes noFailure => ?_, ?_⟩
  · obtain ⟨status, launched⟩ := Node.restart_ok
      ((Node.restart_isOk_iff coherent.ready false noFailure).2 (by rw [stands]; rfl))
    have same : (last.node.restart false outcomes).2.engine.storage = storage :=
      congrArg Ledger.storage (Option.some.inj (launched.stands.symm.trans stands))
    exact ⟨status, by rw [same, whole], by rw [same]; exact near⟩
  · rintro front op back split reads
    rw [split] at linear ⊢
    obtain ⟨observed, replayedFront, output⟩ := observed_of_sequential linear.sequential reads
    exact ⟨observed, replayedFront, output, recordsOf_prefix 1 front (op :: back)⟩

/-- One client sets and is stopped between its append and its change of the map; the
other has read before. -/
def stoppedSet : List (Bool × Directive) :=
  [(false, .call (.set (bytes "k") (bytes "v"))), (false, .go {}), (false, .go {}),
    (true, .call (.get (bytes "k"))), (true, .go {}), (true, .go {})]

theorem write_ahead_stopped_set :
    let start := (Node.launch (bytes "wal") {} (.holding none)).2
    ((Machine.after System.step (System.initial start) stoppedSet).node.restart false {}).1 =
      .ok := by
  obtain ⟨order, final, -, -, recovery, -⟩ :=
    @write_ahead Bool _ (bytes "wal") {} (.holding none) stoppedSet rfl (by decide) (by decide)
  exact (recovery {} Outcomes.noFailure_default).1

end AsterKV.Concurrent
