/-
# AsterKV.Wal.CleanRuns -- runs in which no system call fails

A clean run is a run of the bare ledger: `clean_step` and `clean_restart` say that a
synced node answers as its ledger does and stays synced, so whole runs follow by
simulation.  `restart_transparency` and `log_content` are the two results: restarts
cannot be noticed, and the file is the list of acknowledged mutations.
-/
import AsterKV.Wal.Node

namespace AsterKV.Wal

open AsterKV.Core AsterKV.Storage Theory Theory.Lines

set_option autoImplicit false

namespace Node

/-! ## One event -/

/-- The bytes a call adds to the log when its append succeeds. -/
def intendedBytes (ledger : Ledger) (c : Call) : Bytes :=
  match ledger.intent c with
  | some record => recordLine record.val
  | none => []

/-- What a call does to a synced node when nothing fails. -/
structure CleanStep (node : Node) (c : Call) (reply : Reply) (next : Node) : Prop where
  reply_eq : reply = (node.ledger.call c).1
  ledger_eq : next.ledger = (node.ledger.call c).2
  content : next.fs.content = node.fs.content ++ intendedBytes node.ledger c
  synced : Synced next

theorem clean_step {node : Node} (synced : Synced node) {outcomes : Outcomes}
    (clean : outcomes.NoFailure) (c : Call) :
    CleanStep node c (node.step (outcomes, c)).1 (node.step (outcomes, c)).2 := by
  rcases step_cases synced.toReady outcomes c with ⟨intent, eq⟩ | ⟨record, intent, logged⟩
  · have call : node.ledger.call c = (node.ledger.refusal c, node.ledger) := by
      rw [Ledger.call, intent]
    rw [eq]
    exact { reply_eq := by rw [call]
            ledger_eq := by rw [call]; rfl
            content := by
              rw [intendedBytes, intent, List.append_nil]
              rfl
            synced := { ready_facing synced.toReady outcomes with
                        terminated := synced.terminated
                        stands := synced.stands } }
  · have call : node.ledger.call c = (.status .ok, node.ledger.advance record.val) := by
      rw [Ledger.call, intent]
    have succeeds : node.engine.writer.appendSucceeds outcomes (recordLine record.val) = true :=
      WalFileWriter.appendSucceeds_of_noFailure _ clean _
    obtain ⟨reply, ledger⟩ := logged.ok (logged.isAcknowledged.trans succeeds)
    have content := logged.content
    rw [WalFileWriter.accepted_of_appendSucceeds succeeds] at content
    have intended := Ledger.intended_of_intent intent
    exact { reply_eq := by rw [call, reply]
            ledger_eq := by rw [call, ledger]
            content := by rw [intendedBytes, intent, content]
            synced := { logged.ready with
                        terminated := by
                          rw [content]
                          exact terminated_append lineFeed synced.terminated
                            (terminated_recordLine record.val)
                        stands := by
                          rw [content, ledger]
                          exact ledgerOf_append_line synced.terminated synced.stands
                            intended.number intended.applicable } }

theorem clean_restart {node : Node} (synced : Synced node) (orderly : Bool) {outcomes : Outcomes}
    (clean : outcomes.NoFailure) :
    (node.restart orderly outcomes).1 = .ok ∧
      (node.restart orderly outcomes).2.ledger = node.ledger ∧
      Synced (node.restart orderly outcomes).2 := by
  have stands : (ledgerOf node.fs.content).isSome := by
    rw [synced.stands]
    rfl
  obtain ⟨status, launched⟩ := restart_ok ((restart_isOk_iff synced.toReady orderly clean).2 stands)
  have same : (node.restart orderly outcomes).2.ledger = node.ledger :=
    Option.some.inj (launched.stands.symm.trans synced.stands)
  exact ⟨status, same, { launched.toReady with
    terminated := launched.content ▸ synced.terminated
    stands := by rw [launched.content, launched.stands] }⟩

/-- A start on an absent or empty file is synced with an empty map. -/
theorem synced_launch {filePath : Bytes} {options : WalBackedStorageOptions} {fs : FileSystem}
    (terminated : Terminated lineFeed fs.content)
    (ok : (launch filePath options fs).1.isOk = true) :
    Synced (launch filePath options fs).2 := by
  obtain ⟨-, launched⟩ := launch_ok ok
  exact { launched.toReady with
    terminated := launched.content ▸ terminated
    stands := by rw [launched.content, launched.stands] }

/-! ## Runs with restarts -/

/-- What happens to a process: a call, or its end and a new start. -/
inductive Event where
  | call (outcomes : Outcomes) (call : Call)
  | restart (orderly : Bool) (outcomes : Outcomes)
  deriving DecidableEq

inductive Answer where
  | reply (reply : Reply)
  | recovered (status : Status)
  deriving DecidableEq

namespace Event

def outcomes : Event → Outcomes
  | .call outcomes _ => outcomes
  | .restart _ outcomes => outcomes

def call? : Event → Option Call
  | .call _ c => some c
  | .restart _ _ => none

end Event

def Answer.reply? : Answer → Option Reply
  | .reply answered => some answered
  | .recovered _ => none

def handle (node : Node) : Event → Answer × Node
  | .call outcomes c => let (reply, next) := node.step (outcomes, c); (.reply reply, next)
  | .restart orderly outcomes =>
      let (status, next) := node.restart orderly outcomes
      (.recovered status, next)

/-- The bare ledger under the same events: a restart is no event to it. -/
def ledgerHandle (ledger : Ledger) : Event → Answer × Ledger
  | .call _ c => let (reply, next) := ledger.call c; (.reply reply, next)
  | .restart _ _ => (.recovered .ok, ledger)

theorem handle_simulates {node : Node} {ledger : Ledger} {event : Event}
    (related : Synced node ∧ node.ledger = ledger) (clean : event.outcomes.NoFailure) :
    (node.handle event).1 = (ledgerHandle ledger event).1 ∧
      Synced (node.handle event).2 ∧ (node.handle event).2.ledger = (ledgerHandle ledger event).2 := by
  obtain ⟨synced, rfl⟩ := related
  cases event with
  | call outcomes c =>
      have step := clean_step synced clean c
      exact ⟨congrArg Answer.reply step.reply_eq, step.synced, step.ledger_eq⟩
  | restart orderly outcomes =>
      obtain ⟨status, same, synced'⟩ := clean_restart synced orderly clean
      exact ⟨congrArg Answer.recovered status, synced', same⟩

theorem step_simulates {node : Node} {ledger : Ledger} {request : Outcomes × Call}
    (related : Synced node ∧ node.ledger = ledger) (clean : request.1.NoFailure) :
    (node.step request).1 = (ledger.call request.2).1 ∧
      Synced (node.step request).2 ∧ (node.step request).2.ledger = (ledger.call request.2).2 := by
  obtain ⟨synced, rfl⟩ := related
  have step := clean_step synced clean request.2
  exact ⟨step.reply_eq, step.synced, step.ledger_eq⟩

/-- The ledger's replies do not depend on the restarts among the events. -/
theorem ledger_replies (ledger : Ledger) (events : List Event) (quiet : List (Outcomes × Call))
    (same : quiet.map Prod.snd = events.filterMap Event.call?) :
    (Machine.run ledgerHandle ledger events).1.filterMap Answer.reply? =
      (Machine.run (fun l (request : Outcomes × Call) => l.call request.2) ledger quiet).1 := by
  induction events generalizing ledger quiet with
  | nil =>
      have : quiet = [] := by simpa using same
      rw [this]
      rfl
  | cons event rest ih =>
      cases event with
      | call outcomes c =>
          cases quiet with
          | nil => simp [Event.call?] at same
          | cons request more =>
              simp only [List.map_cons, Event.call?, List.filterMap_cons, List.cons.injEq] at same
              obtain ⟨first, later⟩ := same
              have ih := ih (ledger.call c).2 more later
              simp only [Machine.run_cons, ledgerHandle, List.filterMap_cons, Answer.reply?, first, ih]
      | restart orderly outcomes =>
          have ih := ih ledger quiet same
          simpa only [Machine.run_cons, ledgerHandle, List.filterMap_cons, Answer.reply?] using ih

/-- **Restarts cannot be noticed.**  From a recovery on an absent file, with nothing
failing, every later recovery returns OK with the map and the counter held before
it, and every call answers as in a run without restarts. -/
theorem restart_transparency {filePath : Bytes} {options : WalBackedStorageOptions}
    {fs : FileSystem} {events : List Event} (absent : fs.file = none) (named : filePath ≠ [])
    (parent : (validateParentDirectory fs.parent).isOk = true) (first : fs.pending.NoFailure)
    (clean : ∀ event ∈ events, event.outcomes.NoFailure) :
    (launch filePath options fs).1 = .ok ∧
      (∀ front orderly outcomes, front ++ [.restart orderly outcomes] <+: events →
        let before := Machine.after handle (launch filePath options fs).2 front
        let recovered := before.restart orderly outcomes
        recovered.1 = .ok ∧ recovered.2.engine.storage = before.engine.storage ∧
          recovered.2.engine.nextSequenceNumber = before.engine.nextSequenceNumber) ∧
      ∀ quiet : List (Outcomes × Call), (∀ request ∈ quiet, request.1.NoFailure) →
        quiet.map Prod.snd = events.filterMap Event.call? →
        (Machine.run handle (launch filePath options fs).2 events).1.filterMap Answer.reply? =
          (Machine.run step (launch filePath options fs).2 quiet).1 := by
  have content : fs.content = [] := by rw [FileSystem.content, absent]; rfl
  have ok : (launch filePath options fs).1.isOk = true :=
    launch_isOk named parent first (by rw [content]; rfl)
  have synced : Synced (launch filePath options fs).2 :=
    synced_launch (by rw [content]; exact terminated_nil lineFeed) ok
  generalize (launch filePath options fs).2 = start at synced
  refine ⟨(launch_ok ok).1, ?_, ?_⟩
  · intro front orderly outcomes isPrefix
    have member : ∀ event ∈ front ++ [.restart orderly outcomes], event.outcomes.NoFailure :=
      fun event member => clean event (isPrefix.subset member)
    have reached := (Machine.run_simulation handle (R := fun n l => Synced n ∧ n.ledger = l)
      (fun _ _ _ => handle_simulates) ⟨synced, rfl⟩
      fun event inFront => member event (List.mem_append_left _ inFront)).2.1
    obtain ⟨status, same, -⟩ := clean_restart reached orderly
      (member (.restart orderly outcomes) (List.mem_append_right _ List.mem_cons_self))
    exact ⟨status, congrArg Ledger.storage same, congrArg Ledger.next same⟩
  · intro quiet cleanQuiet same
    have restarted := (Machine.run_simulation handle (R := fun n l => Synced n ∧ n.ledger = l)
      (fun _ _ _ => handle_simulates) ⟨synced, rfl⟩ clean).1
    have plain := (Machine.run_simulation step (R := fun n l => Synced n ∧ n.ledger = l)
      (fun _ _ _ => step_simulates) ⟨synced, rfl⟩ cleanQuiet).1
    rw [restarted, plain]
    exact ledger_replies start.ledger events quiet same

/-- A set, a crash, and a get that still finds the value. -/
theorem restart_transparency_set_get :
    (Machine.run handle (launch (bytes "wal") {} (.holding none)).2
      [.call { writes := [.accepted 2] } (.set (bytes "k") (bytes "v")), .restart false {},
        .call {} (.get (bytes "k"))]).1.filterMap Answer.reply? =
      [.status .ok, .value (.success (bytes "v"))] := by
  have noFailure : ∀ event ∈ [Event.call { writes := [.accepted 2] } (.set (bytes "k") (bytes "v")),
      .restart false {}, .call {} (.get (bytes "k"))], event.outcomes.NoFailure := by
    intro event member
    rcases List.mem_cons.1 member with rfl | member
    · exact { Outcomes.noFailure_default with writes := by simp [Event.outcomes] }
    · rcases List.mem_pair.1 member with rfl | rfl <;> exact Outcomes.noFailure_default
  have transparent := (@restart_transparency (bytes "wal") {} (.holding none) _ rfl
    (by decide) rfl Outcomes.noFailure_default noFailure).2.2
    [({}, .set (bytes "k") (bytes "v")), ({}, .get (bytes "k"))]
    (by simp [Outcomes.noFailure_default]) rfl
  rw [transparent]
  decide

/-! ## What the file holds -/

/-- The record a mutation of this number logs. -/
def recordOf (number : WalSequenceNumber) : Call → Option WalRecord
  | .set key value => some (makeSetRecord number key value)
  | .remove key => some (makeDelRecord number key)
  | .get _ | .exists? _ => none

/-- The record of a call that returned OK. -/
def acknowledgedRecord (number : WalSequenceNumber) (answered : Call × Reply) :
    Option WalRecord :=
  if answered.2.isAcknowledged then recordOf number answered.1 else none

/-- One record for each acknowledged mutation, in order, numbered from here on. -/
def acknowledgedRecords : WalSequenceNumber → List (Call × Reply) → List WalRecord
  | _, [] => []
  | number, answered :: rest =>
      match acknowledgedRecord number answered with
      | some record => record :: acknowledgedRecords (number + 1) rest
      | none => acknowledgedRecords number rest

/-- The calls of a run with their replies. -/
def history (node : Node) (requests : List (Outcomes × Call)) : List (Call × Reply) :=
  (requests.map Prod.snd).zip (Machine.run step node requests).1

theorem history_cons (node : Node) (request : Outcomes × Call)
    (rest : List (Outcomes × Call)) :
    history node (request :: rest) =
      (request.2, (node.step request).1) :: history (node.step request).2 rest := rfl

theorem recordOf_of_intent {ledger : Ledger} {c : Call} {record : ValidRecord}
    (intent : ledger.intent c = some record) : recordOf ledger.next c = some record.val := by
  rcases (Ledger.intended_of_intent intent).shape with ⟨value, shape, eq⟩ | ⟨shape, eq⟩
  · rw [shape, eq]
    rfl
  · rw [shape, eq]
    rfl

/-- A ledger's reply acknowledges exactly the record it logs. -/
theorem acknowledgedRecord_call (ledger : Ledger) (c : Call) :
    acknowledgedRecord ledger.next (c, (ledger.call c).1) =
      (ledger.intent c).map Subtype.val := by
  cases intent : ledger.intent c with
  | none =>
      have call : ledger.call c = (ledger.refusal c, ledger) := by rw [Ledger.call, intent]
      rw [acknowledgedRecord, call, if_neg (by simp [Ledger.isAcknowledged_refusal intent])]
      rfl
  | some record =>
      have call : ledger.call c = (.status .ok, ledger.advance record.val) := by
        rw [Ledger.call, intent]
      rw [acknowledgedRecord, call]
      exact recordOf_of_intent intent

theorem acknowledgedRecords_some {number : WalSequenceNumber} {answered : Call × Reply}
    {record : WalRecord} (logged : acknowledgedRecord number answered = some record)
    (rest : List (Call × Reply)) :
    acknowledgedRecords number (answered :: rest) =
      record :: acknowledgedRecords (number + 1) rest := by
  rw [acknowledgedRecords, logged]

theorem acknowledgedRecords_none {number : WalSequenceNumber} {answered : Call × Reply}
    (unlogged : acknowledgedRecord number answered = none) (rest : List (Call × Reply)) :
    acknowledgedRecords number (answered :: rest) = acknowledgedRecords number rest := by
  rw [acknowledgedRecords, unlogged]

theorem acknowledgedRecord_eq_some {number : WalSequenceNumber} {answered : Call × Reply}
    {record : WalRecord} (logged : acknowledgedRecord number answered = some record) :
    answered.2.isAcknowledged = true ∧ answered.1.isMutation = true ∧
      record.sequenceNumber = number ∧
      (record.type = .set → answered.1 = .set record.key record.value) := by
  obtain ⟨c, reply⟩ := answered
  unfold acknowledgedRecord at logged
  split at logged
  · next acknowledged =>
      refine ⟨acknowledged, ?_⟩
      cases c with
      | set key value =>
          cases Option.some.inj logged
          exact ⟨rfl, rfl, fun _ => rfl⟩
      | remove key =>
          cases Option.some.inj logged
          exact ⟨rfl, rfl, fun set => by cases set⟩
      | get key => cases logged
      | exists? key => cases logged
  · cases logged

theorem number_succ (number : WalSequenceNumber) (n : Nat) :
    number + 1 + UInt64.ofNat n = number + UInt64.ofNat (n + 1) := by
  rw [UInt64.ofNat_add, UInt64.add_assoc, UInt64.add_comm 1]
  rfl

/-- What a clean run adds to the log, and where it leaves the counter. -/
theorem clean_run {node : Node} (synced : Synced node) {requests : List (Outcomes × Call)}
    (clean : ∀ request ∈ requests, request.1.NoFailure) :
    let records := acknowledgedRecords node.ledger.next (history node requests)
    let last := Machine.after step node requests
    last.fs.content = node.fs.content ++ logBytes records ∧
      last.ledger.next = node.ledger.next + UInt64.ofNat records.length ∧
      (∀ record ∈ records, (validateWalRecord record).isOk = true) ∧ Synced last := by
  induction requests generalizing node with
  | nil =>
      refine ⟨(List.append_nil _).symm, ?_, by simp [history, acknowledgedRecords], synced⟩
      exact (UInt64.add_zero _).symm
  | cons request rest ih =>
      have step := clean_step synced (clean request List.mem_cons_self) request.2
      obtain ⟨content, next, valid, last⟩ :=
        ih step.synced fun r member => clean r (List.mem_cons_of_mem _ member)
      simp only [Machine.after_cons]
      have logged := acknowledgedRecord_call node.ledger request.2
      rw [history_cons, step.reply_eq]
      rw [step.ledger_eq] at content next valid
      rw [step.content] at content
      cases intent : node.ledger.intent request.2 with
      | none =>
          have call : node.ledger.call request.2 = (node.ledger.refusal request.2, node.ledger) := by
            rw [Ledger.call, intent]
          rw [call] at content next valid
          rw [intendedBytes, intent, List.append_nil] at content
          rw [intent] at logged
          rw [acknowledgedRecords_none logged]
          exact ⟨content, next, valid, last⟩
      | some record =>
          have call : node.ledger.call request.2 =
              (.status .ok, node.ledger.advance record.val) := by
            rw [Ledger.call, intent]
          rw [call] at content next valid
          rw [intendedBytes, intent] at content
          rw [intent] at logged
          rw [acknowledgedRecords_some logged]
          refine ⟨?_, ?_, ?_, last⟩
          · rw [content, List.append_assoc]
            rfl
          · rw [next, Ledger.advance, List.length_cons, number_succ]
          · exact List.forall_mem_cons.2 ⟨record.property, valid⟩

/-- The records of a history are numbered without gaps. -/
theorem acknowledgedRecords_number (number : WalSequenceNumber) (calls : List (Call × Reply))
    (i : Nat) (inRange : i < (acknowledgedRecords number calls).length) :
    (acknowledgedRecords number calls)[i].sequenceNumber = number + UInt64.ofNat i := by
  induction calls generalizing number i with
  | nil => exact absurd inRange (Nat.not_lt_zero i)
  | cons first rest ih =>
      cases logged : acknowledgedRecord number first with
      | none =>
          simp only [acknowledgedRecords_none logged] at inRange ⊢
          exact ih number i inRange
      | some record =>
          simp only [acknowledgedRecords_some logged] at inRange ⊢
          cases i with
          | zero =>
              rw [List.getElem_cons_zero, (acknowledgedRecord_eq_some logged).2.2.1]
              exact (UInt64.add_zero _).symm
          | succ i => rw [List.getElem_cons_succ, ih, number_succ]

/-- As long as the counter does not wrap, the numbers are 1, 2, 3, … -/
theorem toNat_one_add {n : Nat} (bound : n < 2 ^ 64 - 1) :
    (1 + UInt64.ofNat n).toNat = n + 1 := by
  rw [UInt64.toNat_add, UInt64.toNat_ofNat', UInt64.toNat_one]
  omega

/-- The mutations of a run bound its records. -/
theorem length_acknowledgedRecords (number : WalSequenceNumber) (calls : List (Call × Reply)) :
    (acknowledgedRecords number calls).length ≤ calls.countP fun answered => answered.1.isMutation := by
  induction calls generalizing number with
  | nil => exact Nat.le_refl 0
  | cons first rest ih =>
      rw [List.countP_cons]
      cases logged : acknowledgedRecord number first with
      | none =>
          rw [acknowledgedRecords_none logged]
          exact (ih number).trans (Nat.le_add_right _ _)
      | some record =>
          rw [acknowledgedRecords_some logged, List.length_cons,
            if_pos (acknowledgedRecord_eq_some logged).2.1]
          exact Nat.succ_le_succ (ih (number + 1))

/-- Every record comes from an acknowledged call. -/
theorem mem_acknowledgedRecords {number : WalSequenceNumber} {calls : List (Call × Reply)}
    {record : WalRecord} (member : record ∈ acknowledgedRecords number calls) :
    ∃ answered ∈ calls, ∃ logged, acknowledgedRecord logged answered = some record := by
  induction calls generalizing number with
  | nil => exact absurd member List.not_mem_nil
  | cons first rest ih =>
      cases logged : acknowledgedRecord number first with
      | none =>
          rw [acknowledgedRecords_none logged] at member
          obtain ⟨answered, inRest, is⟩ := ih member
          exact ⟨answered, List.mem_cons_of_mem _ inRest, is⟩
      | some head =>
          rw [acknowledgedRecords_some logged] at member
          rcases List.mem_cons.1 member with rfl | later
          · exact ⟨first, List.mem_cons_self, number, logged⟩
          · obtain ⟨answered, inRest, is⟩ := ih later
            exact ⟨answered, List.mem_cons_of_mem _ inRest, is⟩

/-- The first records of a run are the records of its first requests. -/
theorem exists_prefix_of_records {node : Node} {number : WalSequenceNumber}
    {requests : List (Outcomes × Call)} {front : List WalRecord}
    (isPrefix : front <+: acknowledgedRecords number (history node requests)) :
    ∃ earlier, earlier <+: requests ∧
      acknowledgedRecords number (history node earlier) = front := by
  induction requests generalizing node number front with
  | nil => exact ⟨[], List.nil_prefix, (List.prefix_nil.1 isPrefix).symm⟩
  | cons request rest ih =>
      rw [history_cons] at isPrefix
      cases logged : acknowledgedRecord number (request.2, (node.step request).1) with
      | none =>
          rw [acknowledgedRecords_none logged] at isPrefix
          obtain ⟨earlier, first, is⟩ := ih isPrefix
          refine ⟨request :: earlier, List.cons_prefix_cons.2 ⟨rfl, first⟩, ?_⟩
          rw [history_cons, acknowledgedRecords_none logged, is]
      | some record =>
          rw [acknowledgedRecords_some logged] at isPrefix
          rcases List.prefix_cons_iff.1 isPrefix with rfl | ⟨more, rfl, morePrefix⟩
          · exact ⟨[], List.nil_prefix, rfl⟩
          · obtain ⟨earlier, first, is⟩ := ih morePrefix
            refine ⟨request :: earlier, List.cons_prefix_cons.2 ⟨rfl, first⟩, ?_⟩
            rw [history_cons, acknowledgedRecords_some logged, is]

theorem history_append (node : Node) (first second : List (Outcomes × Call)) :
    history node (first ++ second) =
      history node first ++ history (Machine.after step node first) second := by
  induction first generalizing node with
  | nil => rfl
  | cons request rest ih =>
      rw [List.cons_append, history_cons, ih, history_cons, Machine.after_cons, List.cons_append]

theorem countP_history (node : Node) (requests : List (Outcomes × Call)) :
    (history node requests).countP (fun answered => answered.1.isMutation) =
      requests.countP fun request => request.2.isMutation := by
  induction requests generalizing node with
  | nil => rfl
  | cons request rest ih => rw [history_cons, List.countP_cons, List.countP_cons, ih]

/-- In a log that replays, every record applies to the map the records before it
stand for. -/
theorem applicable_of_restored {front back : List WalRecord} {record : WalRecord}
    {storage : InMemoryStorage} (valid : (validateWalRecord record).isOk = true)
    (replayed : restored (front ++ record :: back) = some storage) :
    ∃ before, restored front = some before ∧ record.Applicable before := by
  rw [show front ++ record :: back = (front ++ [record]) ++ back by simp] at replayed
  obtain ⟨middle, replayed⟩ := Journal.replay_of_prefix (List.prefix_append _ back) replayed
  obtain ⟨before, first, applicable, -⟩ := @restored_snoc_inv front ⟨record, valid⟩ middle replayed
  exact ⟨before, first, applicable⟩

/-- A recovery on an absent file starts from nothing. -/
theorem fresh_start {filePath : Bytes} {options : WalBackedStorageOptions} {fs : FileSystem}
    (absent : fs.file = none) (recovered : (launch filePath options fs).1 = .ok) :
    let start := (launch filePath options fs).2
    Synced start ∧ start.fs.content = [] ∧ start.ledger = { storage := .empty, next := 1 } := by
  have content : fs.content = [] := by rw [FileSystem.content, absent]; rfl
  have ok : (launch filePath options fs).1.isOk = true := by rw [recovered]; rfl
  have launched := (launch_ok ok).2
  have stands := launched.stands
  rw [content, ledgerOf_nil] at stands
  exact ⟨synced_launch (by rw [content]; exact terminated_nil lineFeed) ok,
    launched.content.trans content, (Option.some.inj stands).symm⟩

/-- After a clean run from nothing the file is the lines of the records. -/
theorem fresh_run {start : Node} (synced : Synced start) (empty : start.fs.content = [])
    (ledger : start.ledger = { storage := .empty, next := 1 }) {requests : List (Outcomes × Call)}
    (clean : ∀ request ∈ requests, request.1.NoFailure) :
    let records := acknowledgedRecords 1 (history start requests)
    let last := Machine.after step start requests
    Synced last ∧ last.fs.content = logBytes records ∧
      last.engine.nextSequenceNumber = 1 + UInt64.ofNat records.length ∧
      (∀ record ∈ records, (validateWalRecord record).isOk = true) ∧
      restored records = some last.engine.storage := by
  have one : start.ledger.next = 1 := by rw [ledger]
  obtain ⟨content, next, valid, lastSynced⟩ := clean_run synced clean
  rw [one] at content next valid
  rw [empty, List.nil_append] at content
  refine ⟨lastSynced, content, next, valid, ?_⟩
  obtain ⟨records, read, replayed, -⟩ := ledgerOf_eq_some.1 lastSynced.stands
  rw [content, readContent_logBytes valid] at read
  cases Except.ok.inj read
  exact replayed

/-- **The file is the list of acknowledged mutations.**  In every clean run from a
recovery on an absent file the file is the serialized records of the acknowledged
calls, numbered 1, 2, 3, …, the counter is one more than the last number, every del
names a key of the map before it, and a call that is not an acknowledged mutation
leaves file and counter alone. -/
theorem log_content {filePath : Bytes} {options : WalBackedStorageOptions} {fs : FileSystem}
    {requests : List (Outcomes × Call)} (absent : fs.file = none)
    (recovered : (launch filePath options fs).1 = .ok)
    (clean : ∀ request ∈ requests, request.1.NoFailure)
    (few : (requests.countP fun request => request.2.isMutation) < 2 ^ 64 - 1) :
    let start := (launch filePath options fs).2
    let last := Machine.after step start requests
    let records := acknowledgedRecords 1 (history start requests)
    (∃ pieces : List Bytes, records.map serialize = pieces.map Result.success ∧
      last.fs.file = some pieces.flatten) ∧
    (∀ i (inRange : i < records.length), records[i].sequenceNumber.toNat = i + 1) ∧
    last.engine.nextSequenceNumber.toNat = records.length + 1 ∧
    (∀ front record back, records = front ++ record :: back → record.type = .del →
      ∃ before, restored front = some before ∧ (before.lookup record.key).isSome) ∧
    ∀ front request, front ++ [request] <+: requests →
      let before := Machine.after step start front
      let after := (before.step request).2
      (before.step request).1.isAcknowledged = false →
        after.fs.file = before.fs.file ∧
          after.engine.nextSequenceNumber = before.engine.nextSequenceNumber := by
  intro start last records
  obtain ⟨synced, empty, ledger⟩ := fresh_start absent recovered
  obtain ⟨lastSynced, lastContent, next, valid, replayed⟩ := fresh_run synced empty ledger clean
  have short : records.length < 2 ^ 64 - 1 := by
    have bounded := length_acknowledgedRecords 1 (history start requests)
    rw [countP_history] at bounded
    exact lt_of_le_of_lt bounded few
  refine ⟨⟨records.map recordLine, ?_, ?_⟩, ?_, ?_, ?_, ?_⟩
  · rw [List.map_map]
    exact List.map_congr_left fun record member => serialize_valid ⟨record, valid record member⟩
  · obtain ⟨bytes, present⟩ := Option.isSome_iff_exists.1 lastSynced.present
    have same : last.fs.content = bytes := by rw [FileSystem.content, present]; rfl
    rw [present, ← same, lastContent]
    rfl
  · intro i inRange
    rw [acknowledgedRecords_number, toNat_one_add (lt_trans inRange short)]
  · rw [next, toNat_one_add short]
  · intro front record back split del
    have same : restored (front ++ record :: back) = some last.engine.storage := by
      rw [← split]
      exact replayed
    have member : record ∈ records := by
      rw [split]
      exact List.mem_append_right _ List.mem_cons_self
    obtain ⟨before, first, applicable⟩ :=
      applicable_of_restored (valid record member) same
    exact ⟨before, first, applicable del⟩
  · intro front request isPrefix before after unacknowledged
    have member : ∀ r ∈ front ++ [request], r.1.NoFailure := fun r member =>
      clean r (isPrefix.subset member)
    have reached : Synced before :=
      (clean_run synced fun r inFront => member r (List.mem_append_left _ inFront)).2.2.2
    rcases step_cases reached.toReady request.1 request.2 with ⟨-, eq⟩ | ⟨record, -, logged⟩
    · have same : after = before.facing request.1 := congrArg Prod.snd eq
      rw [same]
      exact ⟨rfl, rfl⟩
    · have clean := member request (List.mem_append_right _ List.mem_cons_self)
      have acknowledged := logged.isAcknowledged.trans
        (WalFileWriter.appendSucceeds_of_noFailure _ clean _)
      cases unacknowledged.symm.trans acknowledged

/-- Two sets around a refused one, a remove and a get: three lines. -/
theorem log_content_mixed :
    (Machine.after step (launch (bytes "wal") {} (.holding none)).2
      [({}, .set (bytes "k") (bytes "v")), ({}, .set (bytes "k") []),
        ({}, .set (bytes "l") (bytes "w")), ({}, .remove (bytes "k")),
        ({}, .get (bytes "l"))]).engine.nextSequenceNumber.toNat = 4 := by
  have content := @log_content (bytes "wal") {} (.holding none)
    [({}, .set (bytes "k") (bytes "v")), ({}, .set (bytes "k") []),
      ({}, .set (bytes "l") (bytes "w")), ({}, .remove (bytes "k")), ({}, .get (bytes "l"))]
    rfl (by decide) (by simp [Outcomes.noFailure_default]) (by decide)
  have next := content.2.2.1
  rw [next]
  decide

end Node

end AsterKV.Wal
