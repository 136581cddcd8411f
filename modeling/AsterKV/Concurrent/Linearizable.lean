/-
# AsterKV.Concurrent.Linearizable -- the clients see one map

Whatever the schedule, the replies are those of one sequential order on one map with
its counter, and the log is that order's acknowledged mutations.
-/
import AsterKV.Concurrent.Removals

namespace AsterKV.Concurrent

open AsterKV.Core AsterKV.Storage AsterKV.Wal Theory Theory.Linearizability

set_option autoImplicit false

variable {C : Type}

/-- An append that returned OK wrote its record's line, and the record validates. -/
def Observation.Whole (shown : Observation C) : Prop :=
  ∀ record ∈ shown.record?,
    (validateWalRecord record).isOk = true ∧ shown.written = recordLine record

/-- The key of a remove that found it is still there. -/
def Phase.FoundFor (phase : Phase) (key : Bytes) : Prop :=
  phase = .present key ∨ ∃ record, phase = .appended (.remove key) record

theorem remove_of_found {s : System C} (coherent : Coherent s) {client : C} {key : Bytes}
    (found : (s.phase client).FoundFor key) : (s.node.engine.storage.remove key).1 = .ok := by
  have knows := coherent.knows client
  have present : s.node.engine.storage.exists? key = .ok true := by
    rcases found with phase | ⟨record, phase⟩
    · rw [phase] at knows
      exact knows
    · rw [phase] at knows
      obtain ⟨valid, intent, -⟩ := knows
      have isDel : isDelOf key valid.val = true := by
        rcases (Ledger.intended_of_intent intent).shape with ⟨value, impossible, -⟩ | ⟨-, eq⟩
        · cases impossible
        · rw [eq]
          simp [isDelOf, makeDelRecord, Call.key]
      exact (remove_of_isDelOf intent isDel).2
  rcases s.node.engine.storage.exists?_cases key with
    answer | ⟨-, -, answer⟩ | ⟨named, ⟨value, held⟩, -⟩
  · cases present.symm.trans answer
  · cases present.symm.trans answer
  · rw [InMemoryStorage.remove_of_lookup named held]

section Schedules

variable [DecidableEq C]

theorem Transition.whole {s next : System C} {client : C}
    {shown : Observation C} (transition : Transition client s shown next) :
    shown.Whole := by
  intro record logged
  cases transition with
  | append c valid node waiting intent ready ledger content =>
      cases Option.some.inj logged
      exact ⟨valid.property, rfl⟩
  | reject c other status node waiting intent refusal invalid kept =>
      have rejected : status.isOk = false := by simp [Status.isOk, invalid]
      simp [Observation.record?, rejected] at logged
  | fail c other status written node waiting intent unavailable ready ledger content =>
      have failed : status.isOk = false := by simp [Status.isOk, unavailable]
      simp [Observation.record?, failed] at logged
  | stay | call | read | acquire | look | refuse | apply | count | release | ret =>
      cases logged

/-- **Concurrent clients are linearizable and logged in that order.**  For any number
of clients, any schedule of their steps and anything the kernel answers:

* the replies are those of some sequential order on one map, which keeps each
  client's order and real time, and in which a mutation fails only if some append
  failed;
* the records appended are those of the successful mutations of this order, with at
  most one behind them whose mutation is under way, and the file has their lines;
* a remove that found its key does not miss it later;
* of racing removes of a present key one wins. -/
theorem linearizable {node : Node} (ready : Node.Ready node) (schedule : List (C × Directive)) :
    let seen := (Machine.run System.step (System.initial node) schedule).1
    let last := Machine.after System.step (System.initial node) schedule
    (∃ order final,
      Linearization (Ledger.Admits (∃ shown ∈ seen, shown.isFailedAppend = true)) node.ledger
        (clientHistory seen) order final ∧
      final.storage = last.node.engine.storage ∧
      appendedRecords seen = recordsOf node.ledger.next order ++ last.inFlight) ∧
    (last.node.fs.content = node.fs.content ++ writtenBytes seen ∧
      ∀ shown ∈ seen, ∀ record ∈ shown.record?, shown.written = recordLine record) ∧
    (∀ client key, (last.phase client).FoundFor key →
      (last.node.engine.storage.remove key).1 = .ok) ∧
    ∀ key, last.node.engine.storage.exists? key = .ok true →
      (∀ client, (last.phase client).mutates key = false) →
      ∀ turns,
        let later := (Machine.run System.step last turns).1
        (∀ shown ∈ later, shown.isSetCall key = false) →
        (∀ shown ∈ later, shown.isLostDel key = false) →
        wonRemoves key later ≤ 1 ∧ appendedDels key later ≤ 1 ∧
          ((∃ client, Observation.called client (.remove key) ∈ later) →
            (∀ client, ((Machine.after System.step last turns).phase client).mutates key = false) →
            wonRemoves key later = 1 ∧ appendedDels key later = 1) := by
  intro seen last
  obtain ⟨coherent, r, tracks⟩ := exists_tracks ready
    (∃ shown ∈ seen, shown.isFailedAppend = true) schedule
    fun shown member failed => ⟨shown, member, failed⟩
  refine ⟨⟨r.order, r.state, ?_, ?_, tracks.logged⟩, ⟨tracks.content, ?_⟩, ?_, ?_⟩
  · rw [show clientHistory seen = r.history from tracks.history.symm]
    exact tracks.recorded.linear
  · rw [tracks.state]
    rfl
  · exact fun shown member record logged =>
      (run_shows Transition.whole (coherent_initial ready) schedule shown member record logged).2
  · exact fun client key found => remove_of_found coherent found
  · exact fun key present quiet turns noSet getsThrough =>
      one_remove_wins coherent present quiet turns noSet getsThrough

end Schedules

/-- Two clients removing the same key, the second waiting for the mutex while the
first holds it. -/
def racingRemoves : List (Bool × Directive) :=
  [(false, .call (.remove (bytes "k"))), (true, .call (.remove (bytes "k"))), (true, .go {}),
    (false, .go {}), (true, .go {}), (true, .go {}), (true, .go {}), (true, .go {}),
    (true, .go {}), (false, .go {}), (true, .go {}), (false, .go {}), (false, .go {}),
    (false, .go {}), (false, .go {})]

theorem linearizable_racing_removes :
    let start := (Node.launch (bytes "wal") {}
      (.holding (some (bytes "AKVWAL1 1 set 6b 76\n")))).2
    wonRemoves (bytes "k") (Machine.run System.step (System.initial start) racingRemoves).1 = 1 ∧
      appendedDels (bytes "k")
        (Machine.run System.step (System.initial start) racingRemoves).1 = 1 := by
  have launched := @Node.launch_ok (bytes "wal") {}
    (.holding (some (bytes "AKVWAL1 1 set 6b 76\n"))) (by decide)
  have race := (linearizable (C := Bool) launched.2.toReady []).2.2.2 (bytes "k") (by decide)
    (by decide) racingRemoves (by decide) (by decide)
  exact race.2.2 (by decide) (by decide)

end AsterKV.Concurrent
