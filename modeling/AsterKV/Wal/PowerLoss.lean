/-
# AsterKV.Wal.PowerLoss -- what is left of the log when the machine stops

A killed process leaves its file as it was; a power loss keeps only what was durable, and
some first part of what was written behind it (`Survivor`).  The engine syncs its file but
not the directory that it creates the file in: of a log that was not there when the machine
came up, a power loss may leave nothing at all.

* `power_loss` -- under `fsyncEveryWrite` everything acknowledged is left in the file, at
  every moment, the middle of a call included, if the file is left;
* `unsynced_policies` -- under the other two the engine never syncs: nothing that it writes
  is durable while it runs, and every earlier state may be what is left.
-/
import AsterKV.Wal.AcknowledgedMutations
import AsterKV.Wal.SyncPolicy
import AsterKV.Wal.TruncatedLogs

namespace AsterKV.Wal

open AsterKV.Core AsterKV.Storage Theory Theory.Lines
open Theory.Durability (Disk)

set_option autoImplicit false

/-! ## The disk under the engine -/

namespace WalFileWriter

/-- An append syncs under `fsyncEveryWrite` only. -/
theorem durable_appendRecord (writer : WalFileWriter) (record : WalRecord) (fs : FileSystem)
    (lazy : writer.options.syncPolicy ≠ .fsyncEveryWrite) :
    (writer.appendRecord record fs).2.2.disk.durable = fs.disk.durable := by
  unfold appendRecord
  cases writer.isClosed with
  | true => rfl
  | false =>
  simp only [Bool.false_eq_true, if_false]
  cases serialize record with
  | error failure => rfl
  | ok line =>
  obtain ⟨keeps, sameDisk, -⟩ := openFile_keeps writer fs
  generalize writer.openFile fs = opened at keeps sameDisk ⊢
  obtain ⟨openStatus, next, middle⟩ := opened
  simp only at keeps sameDisk ⊢
  cases openStatus.isOk with
  | false => exact congrArg Disk.durable sameDisk
  | true =>
  have written := writeAllLoop_disk next.fileDescriptor middle.pending.writes line middle
  simp only [Bool.not_true, Bool.false_eq_true, if_false, keeps.options, lazy, writeAll]
  have same : (writeAllLoop next.fileDescriptor middle.pending.writes line middle).2.disk.durable =
      fs.disk.durable := by
    rw [written, ← sameDisk]
    rfl
  split <;> exact same

/-- The destructor writes nothing, and leaves a settled disk settled. -/
theorem disk_destroy (writer : WalFileWriter) (fs : FileSystem) :
    (writer.destroy fs).disk.written = fs.disk.written ∧
      (fs.disk.Settled → (writer.destroy fs).disk.Settled) := by
  have synced : ∀ (descriptor : Int) (outcomes : List CallOutcome) (fs : FileSystem),
      (discardedCall (.fsync descriptor) outcomes fs).disk.written = fs.disk.written ∧
        (fs.disk.Settled → (discardedCall (.fsync descriptor) outcomes fs).disk.Settled) := by
    intro descriptor outcomes fs
    rw [discardedCall, FileSystem.disk_record]
    refine ⟨Disk.written_sync _ _, fun settled => ?_⟩
    cases outcomes.head?.all (· == .done) with
    | true => exact Disk.settled_sync _
    | false => exact settled
  have closed : ∀ (descriptor : Int) (outcomes : List CallOutcome) (fs : FileSystem),
      (discardedCall (.close descriptor) outcomes fs).disk = fs.disk := fun _ _ _ =>
    FileSystem.disk_record _ _
  unfold destroy
  split
  · split
    · have first := synced writer.fileDescriptor fs.pending.fsyncs fs
      have last := closed writer.fileDescriptor fs.pending.closes
        { discardedCall (.fsync writer.fileDescriptor) fs.pending.fsyncs fs with
          pending.fsyncs := (discardedCall (.fsync writer.fileDescriptor) fs.pending.fsyncs
            fs).pending.fsyncs.tail }
      rw [← show _ = (discardedCall (.fsync writer.fileDescriptor) fs.pending.fsyncs fs).disk
        from last] at first
      exact first
    · have last := closed writer.fileDescriptor fs.pending.closes fs
      rw [← show _ = fs.disk from last]
      exact ⟨rfl, id⟩
  · exact ⟨rfl, id⟩

end WalFileWriter

namespace WalBackedStorage

/-- A record that validates is appended, and nothing else is done to the file. -/
theorem logMutation_appends (engine : WalBackedStorage) {record : WalRecord}
    (valid : (validateWalRecord record).isOk = true)
    (apply : InMemoryStorage → Status × InMemoryStorage) (fs : FileSystem) :
    (engine.logMutation record apply fs).2.1.writer = (engine.writer.appendRecord record fs).2.1 ∧
      (engine.logMutation record apply fs).2.2 = (engine.writer.appendRecord record fs).2.2 := by
  unfold logMutation
  generalize engine.writer.appendRecord record fs = appended
  obtain ⟨appendStatus, writer, after⟩ := appended
  simp only [valid, Bool.not_true, Bool.false_eq_true, if_false]
  split
  · exact ⟨rfl, rfl⟩
  · split <;> exact ⟨rfl, rfl⟩

/-- A recovery reads the file, and opens it. -/
theorem disk_recover (engine : WalBackedStorage) (fs : FileSystem) :
    (engine.recover fs).2.1.writer.options = engine.writer.options ∧
      (engine.recover fs).2.2.disk = fs.disk := by
  have opened : ∀ other : WalBackedStorage, other.writer = engine.writer →
      (other.openWriter fs).2.1.writer.options = engine.writer.options ∧
        (other.openWriter fs).2.2.disk = fs.disk := by
    rintro other same
    obtain ⟨keeps, disk, -⟩ := WalFileWriter.openFile_keeps other.writer fs
    exact ⟨keeps.options.trans (by rw [same]), disk⟩
  unfold recover
  dsimp only
  split
  · exact ⟨rfl, rfl⟩
  · split
    · exact ⟨rfl, rfl⟩
    · split
      · exact opened _ rfl
      · split
        · exact ⟨rfl, rfl⟩
        · split
          · exact ⟨rfl, rfl⟩
          · exact opened _ rfl

end WalBackedStorage

namespace Node

/-- A call that logs a record is one append to the file. -/
theorem step_appends {node : Node} {outcomes : Outcomes} {c : Call} {record : ValidRecord}
    (intent : node.ledger.intent c = some record) :
    (node.step (outcomes, c)).2.engine.writer =
        (node.engine.writer.appendRecord record.val (node.facing outcomes).fs).2.1 ∧
      (node.step (outcomes, c)).2.fs =
        (node.engine.writer.appendRecord record.val (node.facing outcomes).fs).2.2 := by
  cases c with
  | set key value =>
      have shape : record.val = makeSetRecord node.engine.nextSequenceNumber key value :=
        Ledger.validated_eq_some intent
      have valid := record.property
      rw [shape] at valid ⊢
      exact node.engine.logMutation_appends valid (fun storage => storage.set key value)
        (node.facing outcomes).fs
  | remove key =>
      have shown := node.engine.storage.exists?_cases key
      rw [Ledger.intent] at intent
      rcases shown with answer | ⟨-, -, answer⟩ | ⟨-, -, answer⟩
      · rw [show node.ledger.storage.exists? key = _ from answer] at intent
        cases intent
      · rw [show node.ledger.storage.exists? key = _ from answer] at intent
        cases intent
      · rw [show node.ledger.storage.exists? key = _ from answer] at intent
        have shape : record.val = makeDelRecord node.engine.nextSequenceNumber key :=
          Ledger.validated_eq_some intent
        have valid := record.property
        rw [shape] at valid ⊢
        have logged := node.engine.logMutation_appends valid (fun storage => storage.remove key)
          (node.facing outcomes).fs
        have remove : node.engine.remove key (node.facing outcomes).fs =
            node.engine.logMutation (makeDelRecord node.engine.nextSequenceNumber key)
              (fun storage => storage.remove key) (node.facing outcomes).fs := by
          rw [WalBackedStorage.remove, answer]
        rw [← remove] at logged
        exact logged
  | get key => cases intent
  | exists? key => cases intent

/-- The policy the engine was started with, and the disk's account of the file: what it held
when the machine came up, and what was written since. -/
structure Accounted (held : Bytes) (policy : WalSyncPolicy) (node : Node) : Prop where
  started : node.engine.options.writerOptions.syncPolicy = policy
  chosen : node.engine.writer.options.syncPolicy = policy
  written : held ++ node.fs.disk.written = node.fs.content

/-- What a call does to the disk. -/
structure DiskStep (held : Bytes) (policy : WalSyncPolicy) (node : Node)
    (request : Outcomes × Call) : Prop where
  accounted : Accounted held policy (node.step request).2
  settled : policy = .fsyncEveryWrite → (node.step request).1.isAcknowledged = true →
    (node.step request).2.fs.disk.Settled
  refused : node.ledger.intent request.2 = none → (node.step request).2.fs.disk = node.fs.disk
  lazy : policy ≠ .fsyncEveryWrite → (node.step request).2.fs.disk.durable = node.fs.disk.durable

theorem disk_step {held : Bytes} {policy : WalSyncPolicy} {node : Node} (ready : Ready node)
    (known : Accounted held policy node) (request : Outcomes × Call) :
    DiskStep held policy node request := by
  obtain ⟨outcomes, c⟩ := request
  rcases step_cases ready outcomes c with ⟨intent, eq⟩ | ⟨record, intent, logged⟩
  · refine ⟨?_, fun _ acknowledged => ?_, fun _ => ?_, fun _ => ?_⟩
    · rw [eq]
      exact ⟨known.started, known.chosen, known.written⟩
    · rw [eq, Ledger.isAcknowledged_refusal intent] at acknowledged
      cases acknowledged
    · rw [eq]
      rfl
    · rw [eq]
      rfl
  · obtain ⟨writer, fs⟩ := @step_appends node outcomes c record intent
    have effects := WalFileWriter.appendRecord_effects node.engine.writer record.val
      (node.facing outcomes).fs
    have spec := WalFileWriter.appendRecord_spec (usable ready outcomes) record
    obtain ⟨added, content, written, -, -⟩ := effects.added
    refine ⟨⟨?_, ?_, ?_⟩, fun every acknowledged => ?_, fun none => ?_, fun lazy => ?_⟩
    · rw [logged.options]
      exact known.started
    · rw [writer, effects.options]
      exact known.chosen
    · rw [fs, written, content, ← List.append_assoc]
      exact congrArg (· ++ added) known.written
    · rw [fs]
      refine effects.settled ?_ (known.chosen.trans every)
      exact spec.isOk.trans (logged.isAcknowledged.symm.trans acknowledged)
    · rw [intent] at none
      cases none
    · rw [fs]
      exact WalFileWriter.durable_appendRecord _ _ _ (known.chosen ▸ lazy)

/-- A start leaves the disk alone. -/
theorem accounted_launch {held filePath : Bytes} {options : WalBackedStorageOptions}
    {fs : FileSystem} (written : held ++ fs.disk.written = fs.content)
    (recovered : (launch filePath options fs).1.isOk = true) :
    Accounted held options.writerOptions.syncPolicy (launch filePath options fs).2 ∧
      (launch filePath options fs).2.fs.disk = fs.disk := by
  have launched := (launch_ok recovered).2
  obtain ⟨chosen, disk⟩ := (WalBackedStorage.create .empty filePath options).disk_recover fs
  have disk : (launch filePath options fs).2.fs.disk = fs.disk := disk
  have chosen : (launch filePath options fs).2.engine.writer.options = options.writerOptions := chosen
  refine ⟨⟨?_, ?_, ?_⟩, disk⟩
  · rw [launched.options_eq]
  · rw [chosen]
  · rw [disk, written, launched.content]

/-- A recovery on a machine that has come up. -/
theorem unused_start {filePath : Bytes} {options : WalBackedStorageOptions} {fs : FileSystem}
    (unused : fs.calls = []) (recovered : (launch filePath options fs).1 = .ok) :
    Accounted fs.content options.writerOptions.syncPolicy (launch filePath options fs).2 ∧
      (launch filePath options fs).2.fs.disk = Disk.empty := by
  have nothing : fs.disk = Disk.empty := by rw [FileSystem.disk, unused]; rfl
  have written : fs.content ++ fs.disk.written = fs.content := by
    rw [nothing]
    exact List.append_nil _
  obtain ⟨accounted, disk⟩ := accounted_launch written (by rw [recovered]; rfl)
  exact ⟨accounted, disk.trans nothing⟩

/-! ## Runs -/

/-- Under `fsyncEveryWrite`, with nothing failing, all that was written is durable between
calls. -/
structure Durable (held : Bytes) (node : Node) : Prop extends Synced node where
  accounted : Accounted held .fsyncEveryWrite node
  settled : node.fs.disk.Settled

section Durable

variable {held : Bytes} {node : Node}

theorem Durable.durable_eq (durable : Durable held node) :
    held ++ node.fs.disk.durable = node.fs.content := by
  rw [show node.fs.disk.durable = node.fs.disk.written from durable.settled]
  exact durable.accounted.written

theorem durable_step (durable : Durable held node) {outcomes : Outcomes}
    (clean : outcomes.NoFailure) (c : Call) : Durable held (node.step (outcomes, c)).2 := by
  have step := clean_step durable.toSynced clean c
  have onDisk := disk_step durable.toReady durable.accounted (outcomes, c)
  refine { step.synced with accounted := onDisk.accounted, settled := ?_ }
  cases intent : node.ledger.intent c with
  | none =>
      rw [onDisk.refused intent]
      exact durable.settled
  | some record =>
      refine onDisk.settled rfl ?_
      rw [step.reply_eq, Ledger.call, intent]
      rfl

theorem durable_restart (durable : Durable held node) (orderly : Bool) {outcomes : Outcomes}
    (clean : outcomes.NoFailure) : Durable held (node.restart orderly outcomes).2 := by
  obtain ⟨status, -, synced⟩ := clean_restart durable.toSynced orderly clean
  have ended : ∀ fs : FileSystem, held ++ fs.disk.written = fs.content → fs.disk.Settled →
      (launch node.engine.filePath node.engine.options fs).1 = .ok →
      Accounted held .fsyncEveryWrite (launch node.engine.filePath node.engine.options fs).2 ∧
        (launch node.engine.filePath node.engine.options fs).2.fs.disk.Settled := by
    intro fs written settled recovered
    obtain ⟨accounted, disk⟩ := accounted_launch written (by rw [recovered]; rfl)
    rw [durable.accounted.started] at accounted
    exact ⟨accounted, by rw [disk]; exact settled⟩
  cases orderly with
  | false =>
      simp only [restart, Bool.false_eq_true, if_false] at status synced ⊢
      obtain ⟨accounted, settled⟩ := ended (node.facing outcomes).fs durable.accounted.written
        durable.settled status
      exact { synced with accounted := accounted, settled := settled }
  | true =>
      simp only [restart, if_true] at status synced ⊢
      obtain ⟨written, settled⟩ := node.engine.writer.disk_destroy (node.facing outcomes).fs
      have file := (node.engine.writer.destroy_keeps (node.facing outcomes).fs).1
      have content : (node.engine.writer.destroy (node.facing outcomes).fs).content =
          node.fs.content := by
        rw [FileSystem.content, file]
        rfl
      obtain ⟨accounted, settled⟩ := ended _
        (by rw [written, content]; exact durable.accounted.written) (settled durable.settled) status
      exact { synced with accounted := accounted, settled := settled }

theorem durable_after (durable : Durable held node) {events : List Event}
    (clean : ∀ event ∈ events, event.outcomes.NoFailure) :
    Durable held (Machine.after handle node events) := by
  induction events generalizing node with
  | nil => exact durable
  | cons event events ih =>
      have first := clean event List.mem_cons_self
      refine ih ?_ fun other member => clean other (List.mem_cons_of_mem _ member)
      cases event with
      | call outcomes c => exact durable_step durable first c
      | restart orderly outcomes => exact durable_restart durable orderly first

end Durable

/-! ## Power losses -/

/-- What a power loss between two moments may leave of the log on a machine that came up with
`start`: the file with a first part of what it held, or no file. -/
inductive Survivor (start before after : FileSystem) : Option Bytes → Prop
  | file {kept : Bytes} (durable : start.content ++ before.disk.durable <+: kept)
      (written : kept <+: after.content) : Survivor start before after (some kept)
  -- the entry of a file that was created since is in a directory that nobody syncs
  | nothing (created : start.file = none) : Survivor start before after none

/-- A new process finds this. -/
def recoverKept (node : Node) (kept : Option Bytes) (outcomes : Outcomes) : Status × Node :=
  launch node.engine.filePath node.engine.options
    { node.fs with file := kept, pending := outcomes }

theorem recoverKept_ok {node : Node} {kept : Option Bytes} {outcomes : Outcomes}
    (ok : (node.recoverKept kept outcomes).1.isOk = true) :
    (node.recoverKept kept outcomes).1 = .ok ∧
      mapOf (kept.getD []) = some (node.recoverKept kept outcomes).2.engine.storage := by
  obtain ⟨status, launched⟩ := launch_ok ok
  exact ⟨status, congrArg (Option.map Ledger.storage) launched.stands⟩

theorem recoverKept_of_mapOf {node : Node} (ready : Ready node) {kept : Option Bytes}
    {storage : InMemoryStorage} (stands : mapOf (kept.getD []) = some storage)
    {outcomes : Outcomes} (clean : outcomes.NoFailure) :
    (node.recoverKept kept outcomes).1 = .ok ∧
      (node.recoverKept kept outcomes).2.engine.storage = storage := by
  have isSome : (ledgerOf (kept.getD [])).isSome := by
    obtain ⟨ledger, found, -⟩ := Option.map_eq_some_iff.1 stands
    rw [found]
    rfl
  have ok := @launch_isOk node.engine.filePath node.engine.options
    { node.fs with file := kept, pending := outcomes } ready.named ready.parent clean isSome
  obtain ⟨status, same⟩ := recoverKept_ok ok
  exact ⟨status, Option.some.inj (same.symm.trans stands)⟩

/-- The set in flight, with its value cut. -/
def CutSet (before : InMemoryStorage) (c : Call) (storage : InMemoryStorage) : Prop :=
  ∃ key value j, c = .set key value ∧ 0 < j ∧ j < value.length ∧
    storage = (before.set key (value.take j)).2

/-- A part of the line in flight leaves the map as it was, or adds the call, or a set of
its key to some first bytes of the value. -/
theorem mapOf_part {node : Node} (synced : Synced node) {c : Call} {record : ValidRecord}
    (intended : node.ledger.Intended c record.val) {part : Bytes}
    (isPart : part <+: recordLine record.val) {storage : InMemoryStorage}
    (stands : mapOf (node.fs.content ++ part) = some storage) :
    storage = node.engine.storage ∨ storage = record.val.applyTo node.engine.storage ∨
      CutSet node.engine.storage c storage := by
  have held : mapOf node.fs.content = some node.engine.storage :=
    congrArg (Option.map Ledger.storage) synced.stands
  by_cases nothing : part = []
  · rw [nothing, List.append_nil, held] at stands
    exact Or.inl (Option.some.inj stands).symm
  · rw [mapOf_appended_whole synced.terminated isPart nothing, held, Option.bind_some] at stands
    obtain ⟨other, decoded, -⟩ := lineEffect_eq_some.1 stands
    obtain ⟨as, -⟩ := readAs_of_part isPart decoded
    have applicable : other.Applicable node.engine.storage :=
      (applicable_of_readAs as _).2 intended.applicable
    rw [lineEffect_of_decoded decoded, if_pos applicable] at stands
    rw [← Option.some.inj stands]
    rcases as with rfl | ⟨set, j, positive, short, rfl⟩
    · exact Or.inr (Or.inl rfl)
    · refine Or.inr (Or.inr ?_)
      rcases intended.shape with ⟨value, call, shape⟩ | ⟨-, shape⟩
      · have named : c.key ≠ [] := intended.key ▸ record.key_ne_nil
        rw [shape] at short ⊢
        refine ⟨c.key, value, j, call, positive, short, ?_⟩
        rw [InMemoryStorage.set_of_ne named]
        rfl
      · rw [shape] at set
        cases set

/-- **No power loss takes an acknowledged mutation from a log that it leaves.**  Under
`fsyncEveryWrite`, on a machine that came up with a log of whole lines or with none, with
nothing failing, after any calls and restarts, the power goes while one more call is running.
A recovery of the file that is left fails or holds the map from before that call, the map
after it, or, when the call is a set, the map with a cut value under its key; it holds the
map from before when nothing of the call was left, and the one from after it when everything
was.  Only a log that was created since may be gone, and then the recovery returns OK with
nothing. -/
theorem power_loss {filePath : Bytes} {options : WalBackedStorageOptions} {fs : FileSystem}
    (every : options.writerOptions.syncPolicy = .fsyncEveryWrite) (unused : fs.calls = [])
    (whole : Terminated lineFeed fs.content) (recovered : (launch filePath options fs).1 = .ok)
    {events : List Event} (clean : ∀ event ∈ events, event.outcomes.NoFailure)
    {inFlight : Outcomes} (cleanCall : inFlight.NoFailure) (c : Call) :
    let before := Machine.after handle (launch filePath options fs).2 events
    let after := (before.step (inFlight, c)).2
    fs.content ++ before.fs.disk.durable = before.fs.content ∧
      (∀ kept, Survivor fs before.fs after.fs (some kept) → ∀ outcomes,
        let again := before.recoverKept (some kept) outcomes
        (again.1.isOk = false ∨ again.1 = .ok ∧
          (again.2.engine.storage = before.engine.storage ∨
            again.2.engine.storage = after.engine.storage ∨
            CutSet before.engine.storage c again.2.engine.storage)) ∧
        (outcomes.NoFailure → kept = before.fs.content →
          again.1 = .ok ∧ again.2.engine.storage = before.engine.storage) ∧
        (outcomes.NoFailure → kept = after.fs.content →
          again.1 = .ok ∧ again.2.engine.storage = after.engine.storage)) ∧
      (Survivor fs before.fs after.fs none → fs.file = none ∧
        ∀ outcomes : Outcomes, outcomes.NoFailure →
          (before.recoverKept none outcomes).1 = .ok ∧
            (before.recoverKept none outcomes).2.engine.storage = .empty) := by
  intro before after
  have synced : Synced (launch filePath options fs).2 :=
    synced_launch whole (by rw [recovered]; rfl)
  obtain ⟨accounted, disk⟩ := unused_start unused recovered
  rw [every] at accounted
  have settled : (launch filePath options fs).2.fs.disk.Settled := by
    rw [disk]
    rfl
  have durable : Durable fs.content before :=
    durable_after { synced with accounted := accounted, settled := settled } clean
  have step := clean_step durable.toSynced cleanCall c
  have held : ∀ {node : Node}, Synced node → mapOf node.fs.content = some node.engine.storage :=
    fun synced => congrArg (Option.map Ledger.storage) synced.stands
  refine ⟨durable.durable_eq, fun kept survivor outcomes => ?_, fun survivor => ?_⟩
  case refine_2 =>
    cases survivor with
    | nothing created =>
        exact ⟨created, fun outcomes quiet => recoverKept_of_mapOf durable.toReady rfl quiet⟩
  obtain ⟨kept_durable, kept_written⟩ := survivor
  rw [durable.durable_eq] at kept_durable
  obtain ⟨part, rfl⟩ := kept_durable
  refine ⟨?_, fun quiet same => ?_, fun quiet same => ?_⟩
  · cases answer : (before.recoverKept (some (before.fs.content ++ part)) outcomes).1.isOk with
    | false => exact Or.inl rfl
    | true =>
        obtain ⟨status, stands⟩ := recoverKept_ok answer
        rw [Option.getD_some] at stands
        refine Or.inr ⟨status, ?_⟩
        have isPart : part <+: intendedBytes before.ledger c := by
          rw [step.content] at kept_written
          exact (List.prefix_append_right_inj _).1 kept_written
        cases intent : before.ledger.intent c with
        | none =>
            rw [intendedBytes, intent] at isPart
            obtain rfl := List.prefix_nil.1 isPart
            have same : mapOf (before.fs.content ++ []) = some before.engine.storage := by
              rw [List.append_nil]
              exact held durable.toSynced
            exact Or.inl (Option.some.inj (stands.symm.trans same))
        | some record =>
            rw [intendedBytes, intent] at isPart
            have advanced : after.engine.storage = record.val.applyTo before.engine.storage := by
              have ledger := step.ledger_eq
              rw [Ledger.call, intent] at ledger
              exact congrArg Ledger.storage ledger
            rw [advanced]
            exact mapOf_part durable.toSynced (Ledger.intended_of_intent intent) isPart stands
  · rw [same]
    exact @recoverKept_of_mapOf _ durable.toReady (some _) _ (held durable.toSynced) _ quiet
  · rw [same]
    exact @recoverKept_of_mapOf _ durable.toReady (some _) _ (held step.synced) _ quiet

/-- A log of one set that was there when the machine came up. -/
def loggedSet : FileSystem := .holding (some (bytes "AKVWAL1 1 set 6b 76\n"))

/-- The machine stops within the append of a second set: its record is there but for its
line feed and the last byte of its value. -/
theorem power_loss_second_set :
    let before := Machine.after handle (launch (bytes "wal") {} loggedSet).2
      [.call {} (.get (bytes "k")), .restart false {}]
    let again := before.recoverKept (some (before.fs.content ++ bytes "AKVWAL1 2 set 6b 78")) {}
    again.1 = .ok ∧ CutSet before.engine.storage (.set (bytes "k") (bytes "xy"))
      again.2.engine.storage := by
  intro before again
  have loss := (@power_loss (bytes "wal") {} loggedSet rfl rfl (by decide) (by decide)
    [.call {} (.get (bytes "k")), .restart false {}]
    (by simp [Event.outcomes, Outcomes.noFailure_default]) {} Outcomes.noFailure_default
    (.set (bytes "k") (bytes "xy"))).2.1
    (before.fs.content ++ bytes "AKVWAL1 2 set 6b 78")
    (.file (by decide) (by decide)) {}
  rcases loss.1 with failed | ⟨status, old | new | cut⟩
  · exact absurd failed (by decide)
  · exact absurd old (by decide)
  · exact absurd new (by decide)
  · exact ⟨status, cut⟩

/-! ## The other policies -/

/-- While it runs, an engine that does not sync every write makes nothing durable. -/
theorem durable_run {held : Bytes} {policy : WalSyncPolicy} (lazy : policy ≠ .fsyncEveryWrite)
    {node : Node} (ready : Ready node) (known : Accounted held policy node)
    (requests : List (Outcomes × Call)) :
    (Machine.after step node requests).fs.disk.durable = node.fs.disk.durable := by
  induction requests generalizing node with
  | nil => rfl
  | cons request requests ih =>
      have onDisk := disk_step ready known request
      rw [Machine.after_cons, ih (ready_step ready request) onDisk.accounted]
      exact onDisk.lazy lazy

/-- **The other policies promise nothing for a power loss.**  Under `none` as under
`fsyncOnFlush`, on a machine that came up with a log of whole lines or with none, whatever the
kernel answers, nothing that the engine writes is durable while it runs; with nothing failing,
every state the engine has held may be what a power loss leaves. -/
theorem unsynced_policies {filePath : Bytes} {options : WalBackedStorageOptions} {fs : FileSystem}
    (lazy : options.writerOptions.syncPolicy ≠ .fsyncEveryWrite) (unused : fs.calls = [])
    (whole : Terminated lineFeed fs.content) (recovered : (launch filePath options fs).1 = .ok)
    (requests : List (Outcomes × Call)) :
    let start := (launch filePath options fs).2
    let last := Machine.after step start requests
    last.fs.disk.durable = [] ∧
      ((∀ request ∈ requests, request.1.NoFailure) → ∀ earlier, earlier <+: requests →
        ∃ kept, Survivor fs last.fs last.fs (some kept) ∧ ∀ outcomes, outcomes.NoFailure →
          (last.recoverKept (some kept) outcomes).1 = .ok ∧
            (last.recoverKept (some kept) outcomes).2.engine.storage =
              (Machine.after step start earlier).engine.storage) := by
  intro start last
  have synced : Synced start := synced_launch whole (by rw [recovered]; rfl)
  obtain ⟨accounted, disk⟩ := unused_start unused recovered
  have nothing : last.fs.disk.durable = [] := by
    rw [durable_run lazy synced.toReady accounted, disk]
    rfl
  refine ⟨nothing, fun clean earlier first => ?_⟩
  obtain ⟨content, -, -, held⟩ := clean_run synced fun request member =>
    clean request (first.subset member)
  have ready := (run_extends synced.toReady requests).1
  obtain ⟨later, rfl⟩ := first
  have grown : (Machine.after step start earlier).fs.content <+: last.fs.content := by
    obtain ⟨-, added, content⟩ := run_extends held.toReady later
    rw [show last = Machine.after step (Machine.after step start earlier) later from
      Machine.after_append step start earlier later, content]
    exact List.prefix_append _ _
  have kept : fs.content ++ last.fs.disk.durable <+:
      (Machine.after step start earlier).fs.content := by
    rw [nothing, List.append_nil, content, (launch_ok (by rw [recovered]; rfl)).2.content]
    exact List.prefix_append _ _
  refine ⟨_, .file kept grown, fun outcomes quiet => ?_⟩
  exact @recoverKept_of_mapOf _ ready (some _) _
    (congrArg (Option.map Ledger.storage) held.stands) _ quiet

/-- Two acknowledged sets under `fsyncOnFlush`, and a machine that forgets the second. -/
theorem unsynced_policies_second_set :
    let options : WalBackedStorageOptions := { writerOptions := { syncPolicy := .fsyncOnFlush } }
    let start := (launch (bytes "wal") options loggedSet).2
    let first : Outcomes × Call := ({}, .set (bytes "k") (bytes "w"))
    let second : Outcomes × Call := ({}, .set (bytes "l") (bytes "w"))
    let last := Machine.after step start [first, second]
    ∃ kept, Survivor loggedSet last.fs last.fs (some kept) ∧
      (last.recoverKept (some kept) {}).1 = .ok ∧
      (last.recoverKept (some kept) {}).2.engine.storage = (start.step first).2.engine.storage := by
  intro options start first second last
  obtain ⟨kept, survivor, forgets⟩ := (@unsynced_policies (bytes "wal")
    { writerOptions := { syncPolicy := .fsyncOnFlush } } loggedSet (by decide) rfl (by decide)
    (by decide) [first, second]).2 (by simp [first, second, Outcomes.noFailure_default]) [first]
    (List.prefix_append [first] [second])
  exact ⟨kept, survivor, forgets {} Outcomes.noFailure_default⟩

end Node

end AsterKV.Wal
