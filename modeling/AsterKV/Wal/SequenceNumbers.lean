/-
# AsterKV.Wal.SequenceNumbers -- whether a number is used twice

The counter moves when a mutation returns OK, but its record can be in the file before
that: an append that wrote its whole line and failed to sync it leaves a complete record
whose number is handed out again (`number_reused`).  Along a run one bit keeps account of
that (`taken`).  The numbers of the complete records are strictly increasing for as long
as no mutation gets its line whole into the file while the bit is set, and no longer
(`numbers_increase_iff`).  A line behind a torn one is not a record, whatever it was to be.
-/
import AsterKV.Wal.RejectedMutations

namespace AsterKV.Wal

open AsterKV.Core AsterKV.Storage Theory Theory.Lines

set_option autoImplicit false

/-! ## Complete records -/

/-- The records of the file that are there with their line feed, in file order. -/
def completeRecords (content : Bytes) : List WalRecord :=
  (lines lineFeed (body lineFeed content)).filterMap fun line => (deserialize line).toOption

/-- The line an append continues, ended by a whole record, is that record only if nothing
stood before it. -/
theorem deserialize_continued (before : Bytes) (record : ValidRecord) :
    (deserialize (before ++ recordText record.val)).toOption =
      if before = [] then some record.val else none := by
  by_cases empty : before = []
  · rw [if_pos empty, empty, List.nil_append, deserialize_recordText]
    rfl
  · rw [if_neg empty]
    have rejected := deserialize_glued empty record.val
    cases decoded : deserialize (before ++ recordText record.val) with
    | error failure => rfl
    | ok other =>
        rw [decoded] at rejected
        cases rejected

/-- **A part of a line adds its record exactly when it is all of the line, at the start of
one.** -/
theorem completeRecords_appended (content : Bytes) {record : ValidRecord} {part : Bytes}
    (isPrefix : part <+: recordLine record.val) :
    completeRecords (content ++ part) = completeRecords content ++
      if Terminated lineFeed content ∧ part = recordLine record.val then [record.val] else [] := by
  rcases part_cases isPrefix with whole | ⟨-, clean⟩
  · subst whole
    rw [completeRecords, body_of_terminated lineFeed (terminated_append_recordLine content _),
      lines_append_recordLine, List.filterMap_append, completeRecords]
    congr 1
    rw [List.filterMap_cons, List.filterMap_nil, deserialize_continued]
    by_cases fresh : tail lineFeed content = []
    · rw [if_pos fresh, if_pos ⟨(tail_eq_nil lineFeed).1 fresh, rfl⟩]
    · rw [if_neg fresh, if_neg fun both => fresh ((tail_eq_nil lineFeed).2 both.1)]
  · have short : part ≠ recordLine record.val := by
      intro whole
      rw [whole] at clean
      exact clean (by simp [recordLine])
    rw [completeRecords, body_append_clean lineFeed clean, if_neg fun both => short both.2,
      List.append_nil, completeRecords]

/-- The numbers of the complete records are strictly increasing in file order. -/
def Increasing (content : Bytes) : Prop :=
  (completeRecords content).Pairwise fun first second =>
    first.sequenceNumber < second.sequenceNumber

instance (content : Bytes) : Decidable (Increasing content) :=
  inferInstanceAs (Decidable (List.Pairwise _ _))

namespace Node

/-! ## The number that comes next -/

/-- The append gets its whole line into the file, at the start of a line. -/
def LandsWhole (node : Node) (outcomes : Outcomes) (record : ValidRecord) : Prop :=
  Terminated lineFeed node.fs.content ∧
    node.engine.writer.accepted outcomes (recordLine record.val) = recordLine record.val

instance (node : Node) (outcomes : Outcomes) (record : ValidRecord) :
    Decidable (LandsWhole node outcomes record) :=
  inferInstanceAs (Decidable (Terminated _ _ ∧ _ = _))

/-- Whether the next number is on a complete record already: an append got its whole line
into the file and failed, and no mutation has returned OK since. -/
def taken (node : Node) (before : Bool) (request : Outcomes × Call) : Bool :=
  match node.ledger.intent request.2 with
  | none => before
  | some record =>
      if node.engine.writer.appendSucceeds request.1 (recordLine record.val) then false
      else before || decide (LandsWhole node request.1 record)

/-- A call, with the account of the next number. -/
def tracked (state : Node × Bool) (request : Outcomes × Call) : Reply × Node × Bool :=
  ((state.1.step request).1, (state.1.step request).2, taken state.1 state.2 request)

/-- The call gets no whole line into the file while the next number is taken. -/
def Fresh (state : Node × Bool) (request : Outcomes × Call) : Prop :=
  ∀ record ∈ state.1.ledger.intent request.2, LandsWhole state.1 request.1 record → state.2 = false

instance (state : Node × Bool) (request : Outcomes × Call) : Decidable (Fresh state request) :=
  inferInstanceAs (Decidable (∀ record ∈ state.1.ledger.intent request.2,
    LandsWhole state.1 request.1 record → state.2 = false))

/-- The complete records have numbers below the next one, or that one if it is taken.  A
counter that wrapped to 0 hands out no number any more. -/
structure Numbered (state : Node × Bool) : Prop extends Ready state.1 where
  taken : state.2 = true → ∃ record ∈ completeRecords state.1.fs.content,
    record.sequenceNumber = state.1.ledger.next
  below : state.1.ledger.next ≠ 0 → ∀ record ∈ completeRecords state.1.fs.content,
    record.sequenceNumber < state.1.ledger.next ∨
      state.2 = true ∧ record.sequenceNumber = state.1.ledger.next

/-- The complete records behind an append. -/
theorem completeRecords_logged {node : Node} {outcomes : Outcomes} {record : ValidRecord}
    {reply : Reply} {next : Node} (logged : Logged node outcomes record reply next) :
    completeRecords next.fs.content = completeRecords node.fs.content ++
      if LandsWhole node outcomes record then [record.val] else [] := by
  rw [logged.content]
  exact completeRecords_appended _ (WalFileWriter.accepted_prefix _ _ _)

/-- The numbers go on increasing exactly when the call is fresh. -/
theorem increasing_iff_fresh {state : Node × Bool} (inv : Numbered state)
    (good : Increasing state.1.fs.content) (request : Outcomes × Call) :
    Increasing (tracked state request).2.1.fs.content ↔ Fresh state request := by
  obtain ⟨node, before⟩ := state
  obtain ⟨outcomes, c⟩ := request
  rcases step_cases inv.toReady outcomes c with ⟨intent, eq⟩ | ⟨record, intent, logged⟩
  · have same : (tracked (node, before) (outcomes, c)).2.1 = node.facing outcomes :=
      congrArg Prod.snd eq
    rw [same]
    exact ⟨fun _ => by simp [Fresh, intent], fun _ => good⟩
  · have number : record.val.sequenceNumber = node.ledger.next :=
      (Ledger.intended_of_intent intent).number
    have fresh : Fresh (node, before) (outcomes, c) ↔
        (LandsWhole node outcomes record → before = false) := by
      simp [Fresh, intent]
    rw [fresh, Increasing, show (tracked (node, before) (outcomes, c)).2.1 =
      (node.step (outcomes, c)).2 from rfl, completeRecords_logged logged]
    by_cases lands : LandsWhole node outcomes record
    · rw [if_pos lands, List.pairwise_append]
      constructor
      · rintro ⟨-, -, apart⟩ -
        rw [Bool.eq_false_iff]
        intro isTaken
        obtain ⟨earlier, member, same⟩ := inv.taken isTaken
        have less := apart earlier member record.val List.mem_cons_self
        rw [number, same] at less
        exact absurd less (UInt64.lt_irrefl _)
      · intro free
        refine ⟨good, List.pairwise_singleton _ _, fun earlier member last isLast => ?_⟩
        rw [List.mem_singleton.1 isLast, number]
        have positive : node.ledger.next ≠ 0 := number ▸ record.number_ne_zero
        rcases inv.below positive earlier member with less | ⟨isTaken, -⟩
        · exact less
        · cases (free lands).symm.trans isTaken
    · rw [if_neg lands, List.append_nil]
      exact ⟨fun _ whole => absurd whole lands, fun _ => good⟩

theorem mem_completeRecords_logged {node : Node} {outcomes : Outcomes} {record : ValidRecord}
    {reply : Reply} {next : Node} (logged : Logged node outcomes record reply next)
    {other : WalRecord} :
    other ∈ completeRecords next.fs.content ↔
      other ∈ completeRecords node.fs.content ∨
        LandsWhole node outcomes record ∧ other = record.val := by
  rw [completeRecords_logged logged, List.mem_append]
  by_cases lands : LandsWhole node outcomes record
  · simp [lands]
  · simp [lands]

/-- After a mutation that returned OK the next number is free. -/
theorem numbered_acknowledged {node : Node} {before : Bool} (inv : Numbered (node, before))
    {outcomes : Outcomes} {record : ValidRecord} {reply : Reply} {next : Node}
    (number : record.val.sequenceNumber = node.ledger.next)
    (logged : Logged node outcomes record reply next)
    (acknowledged : reply.isAcknowledged = true) : Numbered (next, false) where
  toReady := logged.ready
  taken isTaken := by cases isTaken
  below := by
    have counted : next.ledger.next = node.ledger.next + 1 :=
      congrArg Ledger.next (logged.ok acknowledged).2
    have positive : node.ledger.next ≠ 0 := number ▸ record.number_ne_zero
    intro noWrap other member
    refine Or.inl ?_
    simp only [counted] at noWrap ⊢
    have grows := lt_succ_of_noWrap noWrap
    rcases (mem_completeRecords_logged logged).1 member with earlier | ⟨-, rfl⟩
    · rcases inv.below positive other earlier with less | ⟨-, same⟩
      · exact UInt64.lt_trans less grows
      · rw [same]
        exact grows
    · rw [number]
      exact grows

/-- After one that failed it is taken if it was, or if the line landed. -/
theorem numbered_failed {node : Node} {before : Bool} (inv : Numbered (node, before))
    {outcomes : Outcomes} {record : ValidRecord} {reply : Reply} {next : Node}
    (number : record.val.sequenceNumber = node.ledger.next)
    (logged : Logged node outcomes record reply next) (failed : reply.isAcknowledged = false) :
    Numbered (next, before || decide (LandsWhole node outcomes record)) := by
  have same : next.ledger.next = node.ledger.next :=
    congrArg Ledger.next (logged.failed failed).2
  refine { logged.ready with taken := ?_, below := ?_ }
  · intro isTaken
    simp only [same]
    rcases (Bool.or_eq_true _ _).mp isTaken with was | landed
    · obtain ⟨other, earlier, has⟩ := inv.taken was
      exact ⟨other, (mem_completeRecords_logged logged).2 (Or.inl earlier), has⟩
    · have lands : LandsWhole node outcomes record := of_decide_eq_true landed
      exact ⟨record.val, (mem_completeRecords_logged logged).2 (Or.inr ⟨lands, rfl⟩), number⟩
  · intro positive other member
    simp only [same] at positive ⊢
    rcases (mem_completeRecords_logged logged).1 member with earlier | ⟨lands, rfl⟩
    · rcases inv.below positive other earlier with less | ⟨was, has⟩
      · exact Or.inl less
      · exact Or.inr ⟨by rw [show before = true from was, Bool.true_or], has⟩
    · exact Or.inr ⟨by rw [decide_eq_true lands, Bool.or_true], number⟩

theorem numbered_step {state : Node × Bool} (inv : Numbered state) (request : Outcomes × Call) :
    Numbered (tracked state request).2 := by
  obtain ⟨node, before⟩ := state
  obtain ⟨outcomes, c⟩ := request
  rcases step_cases inv.toReady outcomes c with ⟨intent, eq⟩ | ⟨record, intent, logged⟩
  · have same : (tracked (node, before) (outcomes, c)).2 = (node.facing outcomes, before) := by
      simp only [tracked, Node.taken, intent, eq]
    rw [same]
    exact { ready_facing inv.toReady outcomes with taken := inv.taken, below := inv.below }
  · have number : record.val.sequenceNumber = node.ledger.next :=
      (Ledger.intended_of_intent intent).number
    simp only [tracked, Node.taken, intent]
    cases succeeds : node.engine.writer.appendSucceeds outcomes (recordLine record.val) with
    | true =>
        rw [if_pos rfl]
        exact numbered_acknowledged inv number logged (logged.isAcknowledged.trans succeeds)
    | false =>
        rw [if_neg Bool.false_ne_true]
        exact numbered_failed inv number logged (logged.isAcknowledged.trans succeeds)

/-- The account does not change the run. -/
theorem after_tracked (node : Node) (before : Bool) (requests : List (Outcomes × Call)) :
    (Machine.after tracked (node, before) requests).1 = Machine.after step node requests := by
  induction requests generalizing node before with
  | nil => rfl
  | cons request rest ih =>
      rw [Machine.after_cons, Machine.after_cons]
      exact ih _ _

/-- **The numbers increase exactly while no taken number lands.**  After every part of a run
from a recovery on an absent file the numbers of the complete records are strictly
increasing, if and only if no mutation of the run gets its line whole into the file, at
the start of a line, behind one that did so and failed with no acknowledged one since. -/
theorem numbers_increase_iff {filePath : Bytes} {options : WalBackedStorageOptions}
    {fs : FileSystem} {requests : List (Outcomes × Call)} (absent : fs.file = none)
    (recovered : (launch filePath options fs).1 = .ok) :
    let start := (launch filePath options fs).2
    (∀ front, front <+: requests →
      Increasing (Machine.after step start front).fs.content) ↔
      Machine.Steps tracked Fresh (start, false) requests := by
  intro start
  obtain ⟨synced, empty, -⟩ := fresh_start absent recovered
  have nothing : completeRecords start.fs.content = [] := by
    rw [show start.fs.content = [] from empty]
    rfl
  have inv : Numbered (start, false) :=
    { synced.toReady with
      taken := fun isTaken => (by cases isTaken)
      below := fun _ record member => by
        rw [nothing] at member
        cases member }
  have good : Increasing start.fs.content := by
    rw [Increasing, nothing]
    exact List.Pairwise.nil
  have all : Machine.Always tracked (fun state => Increasing state.1.fs.content) (start, false)
      requests ↔ Machine.Steps tracked Fresh (start, false) requests := by
    refine @Machine.always_iff _ _ _ tracked Numbered _ Fresh ?_ ?_ _ _ inv good
    · intro state request inv good
      exact increasing_iff_fresh inv good request
    · intro state request inv _ _
      exact numbered_step inv request
  rw [← all, Machine.always_iff_forall_prefix]
  constructor
  · intro each front isFront
    rw [after_tracked]
    exact each front isFront
  · intro each front isFront
    have here := each front isFront
    rw [after_tracked] at here
    exact here

/-- A set whose sync fails and another set: two complete records of the number 1. -/
theorem number_reused :
    let start := (launch (bytes "wal") {} (.holding none)).2
    let last := Machine.after step start [rejectedSet, ({}, .set (bytes "l") (bytes "w"))]
    completeRecords last.fs.content =
        [makeSetRecord 1 (bytes "k") (bytes "v"), makeSetRecord 1 (bytes "l") (bytes "w")] ∧
      ¬ Increasing last.fs.content := by
  decide

/-- A set whose sync fails, a torn one, and one that is acknowledged behind the torn line:
the number was used twice, but only once in a complete record. -/
theorem numbers_increase_torn :
    let start := (launch (bytes "wal") {} (.holding none)).2
    let requests : List (Outcomes × Call) :=
      [rejectedSet,
        ({ writes := [.accepted 2, .failed (.other (bytes "No space left on device"))] },
          .set (bytes "k") (bytes "v")),
        ({}, .set (bytes "k") (bytes "v"))]
    ∀ front, front <+: requests →
      Increasing (Machine.after step start front).fs.content :=
  (@numbers_increase_iff (bytes "wal") {} (.holding none) _ rfl (by decide)).2 (by decide)

end Node

end AsterKV.Wal
