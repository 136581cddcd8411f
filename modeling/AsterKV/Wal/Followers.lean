/-
# AsterKV.Wal.Followers -- what a reader of the log makes of it

`replayFile` hands the records of a log file to any target.  A target that takes the
mutations a map can take (`Follows`) is a follower of the engine that writes the file: read
at any moment of its run, over any number of restarts, the file gives the target what the
engine holds (`follower_agrees`).
-/
import AsterKV.Wal.CleanRuns

namespace AsterKV.Wal

open AsterKV.Core AsterKV.Storage Theory Theory.Lines

set_option autoImplicit false

section

variable {τ : Type} [WalReplayTarget τ]

def replayFile (path : Bytes) (fs : FileSystem) (target : τ) : Status × τ :=
  match readRecordsFromFile path fs with
  | .error failure => (failure.val, target)
  | .ok records => replayRecords records target

/-- The target keeps related to a map: it takes a set of a key that is not empty and a del of
a key that is there. -/
structure Follows (R : InMemoryStorage → τ → Prop) : Prop where
  set : ∀ storage target key value, R storage target → key ≠ [] →
    (WalReplayTarget.set target key value).1.isOk = true ∧
      R (storage.insert key value) (WalReplayTarget.set target key value).2
  del : ∀ storage target key, R storage target → key ≠ [] → (storage.lookup key).isSome →
    (WalReplayTarget.del target key).1.isOk = true ∧
      R (storage.erase key) (WalReplayTarget.del target key).2

variable {R : InMemoryStorage → τ → Prop}

/-- What the map takes, a follower takes. -/
theorem Follows.apply (follows : Follows R) {record : ValidRecord} {storage after : InMemoryStorage}
    {target : τ} (related : R storage target)
    (applied : applyRecord record.val storage = some after) :
    ∃ target', applyRecord record.val target = some target' ∧ R after target' := by
  rw [applyRecord_valid] at applied
  split at applied
  · next applicable =>
    cases Option.some.inj applied
    unfold applyRecord replayRecord
    simp only [record.property, Bool.not_true, Bool.false_eq_true, if_false]
    cases kind : record.val.type with
    | set =>
        obtain ⟨taken, keeps⟩ :=
          follows.set storage target record.val.key record.val.value related record.key_ne_nil
        have becomes : record.val.applyTo storage =
            storage.insert record.val.key record.val.value := by
          rw [WalRecord.applyTo, kind]
        rw [becomes]
        exact ⟨_, by simp [taken], keeps⟩
    | del =>
        obtain ⟨taken, keeps⟩ :=
          follows.del storage target record.val.key related record.key_ne_nil (applicable kind)
        have becomes : record.val.applyTo storage = storage.erase record.val.key := by
          rw [WalRecord.applyTo, kind]
        rw [becomes]
        exact ⟨_, by simp [taken], keeps⟩
  · cases applied

/-- A file that stands for a map gives a follower what it gives the map. -/
theorem replayFile_of_ledgerOf (follows : Follows R) {path : Bytes} (named : path ≠ [])
    {fs : FileSystem} {content : Bytes} (present : fs.file = some content)
    (clean : fs.pending.NoFailure) {ledger : Ledger} (stands : ledgerOf content = some ledger)
    {target : τ} (blank : R .empty target) :
    (replayFile path fs target).1 = .ok ∧ R ledger.storage (replayFile path fs target).2 := by
  obtain ⟨records, read, restores, -⟩ := ledgerOf_eq_some.1 stands
  have valid := valid_of_readContent read
  have reads : readRecordsFromFile path fs = .ok records :=
    (readRecordsFromFile_of_noFailure named present clean).trans read
  have takes : ∀ record ∈ records, ∀ storage after target, R storage target →
      applyRecord record storage = some after →
      ∃ target', applyRecord record target = some target' ∧ R after target' :=
    fun record member _ _ _ related applied =>
      @Follows.apply τ _ R follows ⟨record, valid record member⟩ _ _ _ related applied
  obtain ⟨target', replayed, related⟩ := Journal.replay_simulation takes blank restores
  have replays := replayRecords_ok_iff.2 replayed
  unfold replayFile
  rw [reads]
  dsimp only
  rw [replays]
  exact ⟨rfl, related⟩

/-- **A follower of the log has what the engine has.**  From a recovery that returned OK on a
file of whole lines, after any calls and restarts with nothing failing, replaying the file
into a blank follower returns OK and relates it to the engine's map. -/
theorem follower_agrees (follows : Follows R) {filePath : Bytes} {options : WalBackedStorageOptions}
    {fs : FileSystem} (terminated : Terminated lineFeed fs.content)
    (recovered : (Node.launch filePath options fs).1.isOk = true) {events : List Node.Event}
    (clean : ∀ event ∈ events, event.outcomes.NoFailure) {outcomes : Outcomes}
    (reads : outcomes.NoFailure) {target : τ} (blank : R .empty target) :
    let node := Machine.after Node.handle (Node.launch filePath options fs).2 events
    (replayFile filePath (node.facing outcomes).fs target).1 = .ok ∧
      R node.engine.storage (replayFile filePath (node.facing outcomes).fs target).2 := by
  intro node
  obtain ⟨-, launched⟩ := Node.launch_ok recovered
  have named : filePath ≠ [] := by
    rw [← launched.filePath_eq]
    exact launched.named
  have reached := (Machine.run_simulation Node.handle
    (R := fun n l => Node.Synced n ∧ n.ledger = l) (fun _ _ _ => Node.handle_simulates)
    ⟨Node.synced_launch terminated recovered, rfl⟩ clean).2.1
  obtain ⟨content, present⟩ := Option.isSome_iff_exists.1 reached.present
  have stands := reached.stands
  rw [FileSystem.content, show node.fs.file = some content from present] at stands
  have presentToo : (node.facing outcomes).fs.file = some content := present
  exact replayFile_of_ledgerOf follows named presentToo reads stands blank

end

/-- The target of the code follows by being the map. -/
theorem follows_memory : Follows (fun storage (target : InMemoryStorage) => target = storage) where
  set storage target key value same filled := by
    rw [same]
    have accepted : WalReplayTarget.set storage key value = (.ok, storage.insert key value) :=
      InMemoryStorage.set_of_ne filled
    rw [accepted]
    exact ⟨rfl, rfl⟩
  del storage target key same filled present := by
    rw [same]
    obtain ⟨value, found⟩ := Option.isSome_iff_exists.1 present
    have accepted : WalReplayTarget.del storage key = (.ok, storage.erase key) :=
      InMemoryStorage.remove_of_lookup filled found
    rw [accepted]
    exact ⟨rfl, rfl⟩

/-- A set, a set in the next process, and a removal in a third. -/
theorem follower_agrees_two_restarts :
    let events : List Node.Event := [.call {} (.set (bytes "a") (bytes "1")), .restart false {},
      .call {} (.set (bytes "b") (bytes "2")), .restart true {}, .call {} (.remove (bytes "a"))]
    let node := Machine.after Node.handle
      (Node.launch (bytes "followed") {} (.holding none)).2 events
    (replayFile (bytes "followed") (node.facing {}).fs InMemoryStorage.empty).1 = .ok ∧
      (replayFile (bytes "followed") (node.facing {}).fs InMemoryStorage.empty).2 =
        node.engine.storage := by
  intro events node
  refine @follower_agrees _ _ _ follows_memory (bytes "followed") {} (.holding none)
    (terminated_nil lineFeed) (by decide) events ?_ {} Outcomes.noFailure_default .empty rfl
  intro event member
  simp only [events, List.mem_cons, List.not_mem_nil, or_false] at member
  rcases member with rfl | rfl | rfl | rfl | rfl <;> exact Outcomes.noFailure_default

end AsterKV.Wal
