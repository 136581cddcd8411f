/-
# AsterKV.Wal.AppendedLogs -- appending to a log that was recovered

The reader accepts a last line without its line feed, the writer appends behind the
last byte.  A recovered log can be appended to exactly when it ends with a whole
line (`recovery_appendable_iff`): behind anything else the next record shares a line
with what is there (`readContent_glued`).
-/
import AsterKV.Wal.CleanRuns
import AsterKV.Wal.TornLines

namespace AsterKV.Wal

open AsterKV.Core AsterKV.Storage Theory Theory.Lines

set_option autoImplicit false

/-- Behind an unterminated line, a record is not read back any more. -/
theorem readContent_glued {content : Bytes} (cut : ¬ Terminated lineFeed content)
    (record : WalRecord) (more : Bytes) :
    (readContent (content ++ recordLine record ++ more)).isOk = false := by
  have ne : tail lineFeed content ≠ [] := fun h => cut ((tail_eq_nil lineFeed).1 h)
  have clean : lineFeed ∉ tail lineFeed content ++ recordText record := by
    rw [List.mem_append, not_or]
    exact ⟨sep_notMem_tail lineFeed content, lineFeed_notMem_recordText record⟩
  have regroup : content ++ recordLine record ++ more =
      body lineFeed content ++
        (tail lineFeed content ++ recordText record ++ [lineFeed] ++ more) := by
    conv_lhs => rw [← body_append_tail lineFeed content]
    simp [recordLine]
  cases read : readContent (content ++ recordLine record ++ more) with
  | error failure => rfl
  | ok records =>
      exfalso
      rw [regroup] at read
      obtain ⟨-, rest, -, readRest, -⟩ := (readContent_append (body_terminated _ _) _).1 read
      have whole : Terminated lineFeed (tail lineFeed content ++ recordText record ++ [lineFeed]) :=
        (terminated_snoc lineFeed _ _).2 rfl
      obtain ⟨line, -, readLine, -⟩ := (readContent_append whole more).1 readRest
      obtain ⟨other, decoded, -⟩ := (readContent_line clean (by simp [ne])).1 readLine
      have rejected := deserialize_glued ne record
      rw [decoded] at rejected
      cases rejected

namespace Node

/-- The first call that logs a record behind an unterminated line makes the log
unreadable for good. -/
theorem unread_of_glued {node : Node} (ready : Ready node)
    (cut : ¬ Terminated lineFeed node.fs.content) {requests : List (Outcomes × Call)}
    (clean : ∀ request ∈ requests, request.1.NoFailure)
    (logs : ∃ request ∈ requests, node.ledger.intent request.2 ≠ none) :
    ledgerOf (Machine.after step node requests).fs.content = none := by
  induction requests generalizing node with
  | nil =>
      obtain ⟨request, member, -⟩ := logs
      exact absurd member List.not_mem_nil
  | cons request rest ih =>
      rw [Machine.after_cons]
      rcases step_cases ready request.1 request.2 with ⟨none, eq⟩ | ⟨record, -, logged⟩
      · have same : (node.step request).2 = node.facing request.1 := congrArg Prod.snd eq
        rw [same]
        apply ih (ready_facing ready request.1) cut
          fun r member => clean r (List.mem_cons_of_mem _ member)
        obtain ⟨other, member, some⟩ := logs
        rcases List.mem_cons.1 member with rfl | member
        · exact absurd none some
        · exact ⟨other, member, some⟩
      · have succeeds := WalFileWriter.appendSucceeds_of_noFailure node.engine.writer
          (clean request List.mem_cons_self) (recordLine record.val)
        have content := logged.content
        rw [WalFileWriter.accepted_of_appendSucceeds succeeds] at content
        obtain ⟨-, more, later⟩ := run_extends logged.ready rest
        rw [later, content]
        exact ledgerOf_of_unread (readContent_glued cut record.val more)

/-- **A recovered log can be appended to exactly when it ends with a whole line.**
A later recovery yields map and counter for every continuation unless the log ended
without a line feed and some call logged a record behind it. -/
theorem recovery_appendable_iff {filePath : Bytes} {options : WalBackedStorageOptions}
    {fs : FileSystem} {requests : List (Outcomes × Call)}
    (recovered : (launch filePath options fs).1 = .ok)
    (clean : ∀ request ∈ requests, request.1.NoFailure) :
    let start := (launch filePath options fs).2
    let last := Machine.after step start requests
    (∀ orderly outcomes, outcomes.NoFailure →
      let again := last.restart orderly outcomes
      again.1 = .ok ∧ again.2.engine.storage = last.engine.storage ∧
        again.2.engine.nextSequenceNumber = last.engine.nextSequenceNumber) ↔
    Terminated lineFeed fs.content ∨
      ∀ request ∈ requests, start.ledger.intent request.2 = none := by
  intro start last
  have ok : (launch filePath options fs).1.isOk = true := by rw [recovered]; rfl
  have launched : Launched filePath options fs start := (launch_ok ok).2
  have ready : Ready last := (run_extends launched.toReady requests).1
  constructor
  · intro again
    by_contra neither
    rw [not_or] at neither
    obtain ⟨cut, logs⟩ := neither
    have cut : ¬ Terminated lineFeed start.fs.content := launched.content ▸ cut
    have unread : ledgerOf last.fs.content = none := by
      apply unread_of_glued launched.toReady cut clean
      by_contra none
      exact logs fun request member => not_not.1 fun some => none ⟨request, member, some⟩
    have failed := (restart_isOk_iff ready false Outcomes.noFailure_default).not.2
      (by rw [unread]; exact Bool.false_ne_true)
    exact failed (by rw [(again false {} Outcomes.noFailure_default).1]; rfl)
  · intro appendable
    have stands : ledgerOf last.fs.content = some last.ledger := by
      rcases appendable with terminated | refused
      · exact (clean_run (synced_launch terminated ok) clean).2.2.2.stands
      · obtain ⟨ledger, content⟩ := run_refused launched.toReady refused
        rw [content, ledger, launched.content]
        exact launched.stands
    intro orderly outcomes noFailure again
    obtain ⟨status, relaunched⟩ := restart_ok ((restart_isOk_iff ready orderly noFailure).2
      (by rw [stands]; rfl))
    have same : again.2.ledger = last.ledger :=
      Option.some.inj (relaunched.stands.symm.trans stands)
    exact ⟨status, congrArg Ledger.storage same, congrArg Ledger.next same⟩

/-- A log whose last line lost its line feed, and one set behind it. -/
theorem recovery_appendable_iff_cut :
    ¬ ∀ orderly outcomes, outcomes.NoFailure →
      let last := Machine.after step
        (launch (bytes "wal") {} (.holding (some (bytes "AKVWAL1 1 set 6b 76")))).2
        [({}, .set (bytes "l") (bytes "w"))]
      let again := last.restart orderly outcomes
      again.1 = .ok ∧ again.2.engine.storage = last.engine.storage ∧
        again.2.engine.nextSequenceNumber = last.engine.nextSequenceNumber :=
  (@recovery_appendable_iff (bytes "wal") {} (.holding (some (bytes "AKVWAL1 1 set 6b 76")))
    [({}, .set (bytes "l") (bytes "w"))] (by decide)
    (by simp [Outcomes.noFailure_default])).not.2 (by decide)

/-- The same log is recovered, and the log after the set is not. -/
theorem recovered_log_not_appendable :
    let start := launch (bytes "wal") {} (.holding (some (bytes "AKVWAL1 1 set 6b 76")))
    let set := start.2.step ({}, .set (bytes "l") (bytes "w"))
    start.1 = .ok ∧ set.1 = .status .ok ∧
      (set.2.restart false {}).1 = .invalidArgument (bytes
        "failed to parse WAL record at line 1: serialized WAL record must contain 5 fields") := by
  decide

end Node

end AsterKV.Wal
