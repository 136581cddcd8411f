/-
# AsterKV.Wal.SyncPolicy -- what each sync policy promises

The promises hold after any run of the writer, whatever its calls were and however
each of them ended.  The invariant of the runs is small: the options never change, a
closed writer holds no descriptor, and under `none` nothing has been synced yet
(`Standing`).  The durable part of the disk is then read off the last call alone, since
a successful `fsync` covers every byte written before it.
-/
import AsterKV.Wal.WriterRuns

namespace AsterKV.Wal

open AsterKV.Core Theory
open Theory.Durability (Disk)

set_option autoImplicit false

/-- The disk has kept a first part of what was written. -/
theorem FileSystem.durable_prefix (fs : FileSystem) : fs.disk.durable <+: fs.disk.written :=
  Disk.durable_prefix _ (List.prefix_refl [])

namespace WalFileWriter

/-- What every run of a writer keeps. -/
structure Standing (options : WalFileWriterOptions) (syncs : Nat)
    (state : WalFileWriter × FileSystem) : Prop where
  chosen : state.1.options = options
  coherent : state.1.Coherent state.2
  unsynced : options.syncPolicy = .none → state.2.disk.syncs = syncs

theorem standing_step {options : WalFileWriterOptions} {syncs : Nat}
    {state : WalFileWriter × FileSystem} (standing : Standing options syncs state)
    (request : Outcomes × WriterCall) : Standing options syncs (step state request).2 := by
  have effects := call_effects state.1 (state.2.facing request.1) request.2
  have before : state.1.Coherent (state.2.facing request.1) :=
    ⟨standing.coherent.closed, standing.coherent.present⟩
  refine ⟨effects.options.trans standing.chosen, effects.coherent before, ?_⟩
  intro none
  rw [← standing.unsynced none]
  refine effects.unsynced ?_
  rw [standing.chosen, none]

theorem standing_after (path : Bytes) (options : WalFileWriterOptions) (fs : FileSystem)
    (calls : List (Outcomes × WriterCall)) :
    Standing options fs.disk.syncs (Machine.after step (create path options, fs) calls) := by
  refine Machine.after_invariant step ?_ ⟨rfl, coherent_create path options fs, fun _ => rfl⟩ calls
  intro state request standing
  exact standing_step standing request

/-- A call that syncs and returns OK leaves everything durable. -/
theorem durable_step {state : WalFileWriter × FileSystem} {request : Outcomes × WriterCall}
    (ok : (step state request).1.isOk = true) (syncs : state.1.SyncsOn request.2) :
    (step state request).2.2.disk.durable = state.2.disk.written ++ request.2.line := by
  have effects := call_effects state.1 (state.2.facing request.1) request.2
  obtain ⟨bytes, -, written, -, line⟩ := effects.added
  have settled : (step state request).2.2.disk.durable = (step state request).2.2.disk.written :=
    effects.settled ok syncs
  rw [settled, ← line ok]
  exact written

/-- **The sync policies keep their promises.**  After any run of a writer, with any
outcome of every call: under `fsyncEveryWrite` an append that returns OK is durable with
all that was written before it; unless the policy is `none`, so is everything written
before a flush, or the close of an open writer, that returns OK; and under `none` neither
the run nor the destructor ever asks for an `fsync`. -/
theorem sync_policies_kept (path : Bytes) (options : WalFileWriterOptions) (fs : FileSystem)
    (calls : List (Outcomes × WriterCall)) (outcomes : Outcomes) :
    let before := Machine.after step (create path options, fs) calls
    (∀ record, options.syncPolicy = .fsyncEveryWrite →
      (step before (outcomes, .append record)).1.isOk = true →
      (step before (outcomes, .append record)).2.2.disk.durable =
        before.2.disk.written ++ recordLine record) ∧
    (options.syncPolicy ≠ .none → (step before (outcomes, .flush)).1.isOk = true →
      (step before (outcomes, .flush)).2.2.disk.durable = before.2.disk.written) ∧
    (options.syncPolicy ≠ .none → before.1.isOpen = true →
      (step before (outcomes, .close)).1.isOk = true →
      (step before (outcomes, .close)).2.2.disk.durable = before.2.disk.written) ∧
    (options.syncPolicy = .none → before.2.disk.syncs = fs.disk.syncs ∧
      (before.1.destroy (before.2.facing outcomes)).disk.syncs = fs.disk.syncs) := by
  intro before
  have standing : Standing options fs.disk.syncs before := standing_after path options fs calls
  have policy : before.1.options.syncPolicy = options.syncPolicy := by rw [standing.chosen]
  refine ⟨?_, ?_, ?_, ?_⟩
  · intro record every ok
    exact durable_step ok (policy.trans every)
  · intro syncs ok
    have durable := durable_step ok (show before.1.options.syncPolicy ≠ .none by rwa [policy])
    rwa [WriterCall.line, List.append_nil] at durable
  · intro syncs isOpen ok
    have notClosed : before.1.isClosed = false := by
      rw [← Bool.not_eq_true]
      intro closed
      rw [standing.coherent.closed closed] at isOpen
      cases isOpen
    have durable := durable_step ok (show before.1.SyncsOn .close from
      ⟨by rwa [policy], notClosed, isOpen⟩)
    rwa [WriterCall.line, List.append_nil] at durable
  · intro none
    refine ⟨standing.unsynced none, ?_⟩
    rw [destroy_unsynced _ _ (policy.trans none)]
    exact standing.unsynced none

/-- A failed sync, an interrupted one, and a flush that makes up for both. -/
theorem sync_policies_kept_flush :
    let record := makeSetRecord 1 (bytes "k") (bytes "v")
    let failing : Outcomes := { fsyncs := [.failed (.other (bytes "Input/output error"))] }
    let before := Machine.after step (create (bytes "wal") {}, .holding none)
      [(failing, .append record), (failing, .flush)]
    (step before ({ fsyncs := [.failed .interrupted] }, .flush)).2.2.disk.durable =
        recordLine record ∧ before.2.disk.durable = [] :=
  ⟨(sync_policies_kept (bytes "wal") {} (.holding none) _ _).2.1 (by decide) (by decide),
    by decide⟩

end WalFileWriter

end AsterKV.Wal
