/-
# AsterKV.Wal.DescriptorOwnership -- who owns the descriptor of a closed file

On Linux `close` releases the descriptor also when it returns an error.  A writer that
closes again, because it was interrupted or because its `close` failed, then closes a
descriptor that is no longer its own.  Each call of a writer either deals with its
descriptor in order (`Lawful`) or releases it twice or keeps it after its release
(`Repeated`), and which of the two it is depends on the first `close` alone
(`ClosesAtOnce`).  The kernel of the model gives no number out twice, so a number stands for
one `open`.
-/
import AsterKV.Theory.Ownership
import AsterKV.Wal.WriterLifecycle

namespace AsterKV.Wal

open AsterKV.Core Theory
open Theory.Ownership (Event Holds Released ReleasedOnce)

set_option autoImplicit false

/-! ## System calls as events -/

/-- What a system call does with a descriptor. -/
def SystemCall.event : SystemCall → Option (Event Int)
  | .opened descriptor => some (.acquire descriptor)
  | .openFailed => none
  | .wrote descriptor _ => some (.use descriptor)
  | .writeFailed descriptor => some (.use descriptor)
  | .fsync descriptor _ => some (.use descriptor)
  | .close descriptor _ => some (.release descriptor)

namespace FileSystem

def events (fs : FileSystem) : List (Event Int) := fs.calls.filterMap SystemCall.event

/-- The calls between two states, as events; none of them opened anything. -/
structure Adds (fs after : FileSystem) (events : List (Event Int)) : Prop where
  events : after.events = fs.events ++ events
  next : after.nextDescriptor = fs.nextDescriptor

theorem Adds.nothing {fs after : FileSystem} (calls : after.calls = fs.calls)
    (next : after.nextDescriptor = fs.nextDescriptor) : fs.Adds after [] where
  events := by rw [List.append_nil, FileSystem.events, calls]; rfl
  next := next

theorem Adds.andThen {fs middle after : FileSystem} {first second : List (Event Int)}
    (adds : fs.Adds middle first) (more : middle.Adds after second) :
    fs.Adds after (first ++ second) where
  events := by rw [more.events, adds.events, List.append_assoc]
  next := more.next.trans adds.next

theorem events_of_call {fs after : FileSystem} (call : SystemCall) {event : Event Int}
    (calls : after.calls = fs.calls ++ [call]) (is : call.event = some event) :
    after.events = fs.events ++ [event] := by
  rw [FileSystem.events, calls, List.filterMap_append, List.filterMap_cons_some is]
  rfl

theorem Adds.one {fs after : FileSystem} (call : SystemCall) {event : Event Int}
    (calls : after.calls = fs.calls ++ [call]) (next : after.nextDescriptor = fs.nextDescriptor)
    (is : call.event = some event) : fs.Adds after [event] :=
  ⟨events_of_call call calls is, next⟩

end FileSystem

open FileSystem (Adds)

theorem uses_after_use {fs middle after : FileSystem} {descriptor : Int}
    (more : ∃ n, middle.Adds after (List.replicate n (.use descriptor)))
    (adds : fs.Adds middle [.use descriptor]) :
    ∃ n, fs.Adds after (List.replicate n (.use descriptor)) := by
  obtain ⟨n, more⟩ := more
  refine ⟨n + 1, ?_⟩
  rw [List.replicate_succ]
  exact adds.andThen more

theorem writeAllLoop_adds (descriptor : Int) (outcomes : List WriteOutcome) (data : Bytes)
    (fs : FileSystem) :
    ∃ n, fs.Adds (writeAllLoop descriptor outcomes data fs).2
      (List.replicate n (.use descriptor)) := by
  induction outcomes generalizing data fs with
  | nil =>
      cases data with
      | nil => exact ⟨0, .nothing rfl rfl⟩
      | cons b data => exact ⟨1, .one (.wrote descriptor (b :: data)) rfl rfl rfl⟩
  | cons outcome rest ih =>
      cases data with
      | nil => exact ⟨0, .nothing rfl rfl⟩
      | cons b data =>
          cases outcome with
          | accepted more =>
              rw [writeAllLoop]
              · exact uses_after_use (ih _ _) (.one (.wrote descriptor _) rfl rfl rfl)
              · simp
          | stalled errno => exact ⟨1, .one (.wrote descriptor []) rfl rfl rfl⟩
          | failed errno =>
              rw [writeAllLoop]
              · split
                · exact uses_after_use (ih _ _) (.one (.writeFailed descriptor) rfl rfl rfl)
                · exact ⟨1, .one (.writeFailed descriptor) rfl rfl rfl⟩
              · simp

theorem fsyncLoop_adds (descriptor : Int) (outcomes : List CallOutcome) (fs : FileSystem) :
    ∃ n, fs.Adds (fsyncLoop descriptor outcomes fs).2 (List.replicate n (.use descriptor)) := by
  induction outcomes generalizing fs with
  | nil => exact ⟨1, .one (.fsync descriptor true) rfl rfl rfl⟩
  | cons outcome rest ih =>
      cases outcome with
      | done => exact ⟨1, .one (.fsync descriptor true) rfl rfl rfl⟩
      | failed errno =>
          rw [fsyncLoop]
          split
          · exact uses_after_use (ih _) (.one (.fsync descriptor false) rfl rfl rfl)
          · exact ⟨1, .one (.fsync descriptor false) rfl rfl rfl⟩

/-- The next call returns no error. -/
def succeedsAtOnce (outcomes : List CallOutcome) : Bool := outcomes.head?.all (· == .done)

/-- The loop closes once when the first `close` returns no error; otherwise it closes again
or gives up. -/
theorem closeLoop_adds (descriptor : Int) (outcomes : List CallOutcome) (fs : FileSystem) :
    ∃ more, fs.Adds (closeLoop descriptor outcomes fs).2
        (List.replicate (more + 1) (.release descriptor)) ∧
      (succeedsAtOnce outcomes = true →
        more = 0 ∧ (closeLoop descriptor outcomes fs).1.isOk = true) ∧
      (succeedsAtOnce outcomes = false →
        1 ≤ more ∨ (closeLoop descriptor outcomes fs).1.isOk = false) := by
  induction outcomes generalizing fs with
  | nil =>
      exact ⟨0, .one (.close descriptor true) rfl rfl rfl, fun _ => ⟨rfl, rfl⟩,
        by simp [succeedsAtOnce]⟩
  | cons outcome rest ih =>
      cases outcome with
      | done =>
          exact ⟨0, .one (.close descriptor true) rfl rfl rfl, fun _ => ⟨rfl, rfl⟩,
            by simp [succeedsAtOnce]⟩
      | failed errno =>
          have tried : fs.Adds (fs.record (.close descriptor false)) [.release descriptor] :=
            .one (.close descriptor false) rfl rfl rfl
          rw [closeLoop]
          split
          · obtain ⟨more, adds, -, -⟩ := ih (fs.record (.close descriptor false))
            refine ⟨more + 1, ?_, by simp [succeedsAtOnce], fun _ => Or.inl (by omega)⟩
            rw [List.replicate_succ]
            exact tried.andThen adds
          · exact ⟨0, .one (.close descriptor false) rfl rfl rfl, by simp [succeedsAtOnce],
              fun _ => Or.inr rfl⟩

namespace WalFileWriter

/-! ## Calls -/

/-- The descriptor that the writer has. -/
def descriptor (writer : WalFileWriter) : Option Int :=
  if writer.isOpen then some writer.fileDescriptor else none

/-- A call that deals with descriptors in order. -/
inductive Lawful (writer : WalFileWriter) (fs : FileSystem) (next : WalFileWriter)
    (after : FileSystem) : Prop
  | idle (same : next.descriptor = writer.descriptor) (adds : fs.Adds after [])
  | used (d : Int) (n : Nat) (had : writer.descriptor = some d) (has : next.descriptor = some d)
      (adds : fs.Adds after (List.replicate n (.use d)))
  | opened (n : Nat) (had : writer.descriptor = none)
      (has : next.descriptor = some (fs.nextDescriptor : Int))
      (events : after.events = fs.events ++ [.acquire (fs.nextDescriptor : Int)] ++
        List.replicate n (.use (fs.nextDescriptor : Int)))
      (greater : after.nextDescriptor = fs.nextDescriptor + 1)
  | released (d : Int) (n : Nat) (had : writer.descriptor = some d) (has : next.descriptor = none)
      (adds : fs.Adds after (List.replicate n (.use d) ++ [.release d]))

/-- A call that releases its descriptor again, or keeps it after its release. -/
def Repeated (writer : WalFileWriter) (fs : FileSystem) (next : WalFileWriter)
    (after : FileSystem) : Prop :=
  ∃ d n more, writer.descriptor = some d ∧
    fs.Adds after (List.replicate n (.use d) ++ List.replicate (more + 1) (.release d)) ∧
    (1 ≤ more ∨ next.descriptor = some d)

theorem descriptor_of_open {writer : WalFileWriter} (isOpen : writer.isOpen = true) :
    writer.descriptor = some writer.fileDescriptor := by
  rw [descriptor, if_pos isOpen]

theorem descriptor_of_notOpen {writer : WalFileWriter} (notOpen : writer.isOpen = false) :
    writer.descriptor = none := by
  rw [descriptor, if_neg (by simp [notOpen])]

theorem Lawful.thenUses {writer next : WalFileWriter} {fs middle after : FileSystem}
    (lawful : Lawful writer fs next middle) (isOpen : next.isOpen = true)
    (more : ∃ n, middle.Adds after (List.replicate n (.use next.fileDescriptor))) :
    Lawful writer fs next after := by
  obtain ⟨m, more⟩ := more
  have has := descriptor_of_open isOpen
  cases lawful with
  | idle same adds => exact .used _ m (same.symm.trans has) has (adds.andThen more)
  | used d n had keeps adds =>
      obtain rfl : next.fileDescriptor = d := Option.some.inj (has.symm.trans keeps)
      refine .used _ (n + m) had keeps ?_
      rw [List.replicate_add]
      exact adds.andThen more
  | opened n had new events greater =>
      have same : next.fileDescriptor = fs.nextDescriptor := Option.some.inj (has.symm.trans new)
      rw [same] at more
      refine .opened (n + m) had new ?_ (more.next.trans greater)
      rw [more.events, events, List.replicate_add, List.append_assoc _ (List.replicate n _)]
  | released d n had gone adds =>
      rw [gone] at has
      cases has

theorem openFile_lawful (writer : WalFileWriter) (fs : FileSystem) :
    Lawful writer fs (writer.openFile fs).2.1 (writer.openFile fs).2.2 ∧
      ((writer.openFile fs).1.isOk = true → (writer.openFile fs).2.1.isOpen = true) := by
  unfold openFile
  split
  · exact ⟨.idle rfl (.nothing rfl rfl), fun ok => by cases ok⟩
  · split
    · exact ⟨.idle rfl (.nothing rfl rfl), fun ok => by cases ok⟩
    · split
      · rename_i isOpen
        exact ⟨.idle rfl (.nothing rfl rfl), fun _ => isOpen⟩
      · rename_i notOpen
        have had := descriptor_of_notOpen (by simpa using notOpen)
        have new : ∀ writer : WalFileWriter,
            ({ writer with fileDescriptor := (fs.nextDescriptor : Int) }).isOpen = true := by
          intro writer
          have : (fs.nextDescriptor : Int) ≠ invalidFileDescriptor := by
            unfold invalidFileDescriptor
            omega
          simpa [isOpen] using this
        unfold FileSystem.sysOpen
        have acquired : ∀ after : FileSystem,
            after.calls = fs.calls ++ [.opened (fs.nextDescriptor : Int)] →
            after.events = fs.events ++ [.acquire (fs.nextDescriptor : Int)] ++ [] :=
          fun after calls => by
            rw [List.append_nil]
            exact FileSystem.events_of_call _ calls rfl
        cases opens : fs.pending.opens with
        | nil =>
            exact ⟨.opened 0 had (descriptor_of_open (new writer)) (acquired _ rfl) rfl,
              fun _ => new writer⟩
        | cons outcome rest =>
            cases outcome with
            | done =>
                exact ⟨.opened 0 had (descriptor_of_open (new writer)) (acquired _ rfl) rfl,
                  fun _ => new writer⟩
            | failed errno =>
                refine ⟨.idle (had ▸ descriptor_of_notOpen rfl) ⟨?_, rfl⟩, by simp⟩
                rw [List.append_nil]
                exact List.filterMap_append.trans (List.append_nil _)

theorem syncFile_adds (writer : WalFileWriter) (fs : FileSystem) :
    ∃ n, fs.Adds (writer.syncFile fs).2 (List.replicate n (.use writer.fileDescriptor)) := by
  unfold syncFile
  split
  · exact ⟨0, .nothing rfl rfl⟩
  · exact fsyncLoop_adds _ _ _

theorem appendRecord_lawful (writer : WalFileWriter) (record : WalRecord) (fs : FileSystem) :
    Lawful writer fs (writer.appendRecord record fs).2.1 (writer.appendRecord record fs).2.2 := by
  unfold appendRecord
  cases writer.isClosed with
  | true => exact .idle rfl (.nothing rfl rfl)
  | false =>
  cases serialize record with
  | error failure => exact .idle rfl (.nothing rfl rfl)
  | ok serializedRecord =>
  obtain ⟨lawful, isOpen⟩ := openFile_lawful writer fs
  simp only [Bool.false_eq_true, if_false]
  generalize writer.openFile fs = opened at lawful isOpen ⊢
  obtain ⟨openStatus, next, middle⟩ := opened
  simp only at lawful isOpen ⊢
  cases opens : openStatus.isOk with
  | false => exact lawful
  | true =>
  simp only [Bool.not_true, Bool.false_eq_true, if_false]
  have written := lawful.thenUses (isOpen opens)
    (writeAllLoop_adds next.fileDescriptor middle.pending.writes serializedRecord middle)
  rw [writeAll]
  generalize writeAllLoop next.fileDescriptor middle.pending.writes serializedRecord middle =
    result at written ⊢
  obtain ⟨writeStatus, final⟩ := result
  simp only at written ⊢
  cases writes : writeStatus.isOk with
  | false => exact written
  | true =>
  simp only [Bool.not_true, Bool.false_eq_true, if_false]
  split
  · exact written.thenUses (isOpen opens) (syncFile_adds next final)
  · exact written

theorem flush_lawful (writer : WalFileWriter) (fs : FileSystem) :
    Lawful writer fs (writer.flush fs).2.1 (writer.flush fs).2.2 := by
  unfold flush
  cases writer.isClosed with
  | true => exact .idle rfl (.nothing rfl rfl)
  | false =>
  obtain ⟨lawful, isOpen⟩ := openFile_lawful writer fs
  simp only [Bool.false_eq_true, if_false]
  generalize writer.openFile fs = opened at lawful isOpen ⊢
  obtain ⟨openStatus, next, middle⟩ := opened
  simp only at lawful isOpen ⊢
  cases opens : openStatus.isOk with
  | false => exact lawful
  | true =>
  simp only [Bool.not_true, Bool.false_eq_true, if_false]
  split
  · exact lawful
  · exact lawful.thenUses (isOpen opens) (syncFile_adds next middle)

theorem syncUnlessNone_adds (writer : WalFileWriter) (fs : FileSystem) :
    ∃ n, fs.Adds (writer.syncUnlessNone fs).2 (List.replicate n (.use writer.fileDescriptor)) := by
  unfold syncUnlessNone
  split
  · exact ⟨0, .nothing rfl rfl⟩
  · exact fsyncLoop_adds _ _ _

/-- Where the `close` of an open writer gets as far as the kernel, the first answer is no
error. -/
def ReleasesAtOnce (writer : WalFileWriter) (outcomes : Outcomes) : Prop :=
  writer.isOpen = true →
    (writer.options.syncPolicy == .none || retriedSucceeds outcomes.fsyncs) = true →
      succeedsAtOnce outcomes.closes = true

/-- A `close` is in order exactly when its first answer is no error. -/
theorem close_cases {writer : WalFileWriter} (sound : writer.Sound) (fs : FileSystem) :
    (writer.ReleasesAtOnce fs.pending →
      Lawful writer fs (writer.close fs).2.1 (writer.close fs).2.2) ∧
    (¬ writer.ReleasesAtOnce fs.pending →
      Repeated writer fs (writer.close fs).2.1 (writer.close fs).2.2) := by
  cases isOpen : writer.isOpen with
  | false =>
      refine ⟨fun _ => ?_, fun no => absurd (fun is => by simp [isOpen] at is) no⟩
      rw [close, if_neg (by simp [isOpen] : ¬ writer.isOpen = true)]
      split <;> exact .idle rfl (.nothing rfl rfl)
  | true =>
      have had := descriptor_of_open isOpen
      obtain ⟨n, uses⟩ := syncUnlessNone_adds writer fs
      obtain ⟨syncs, -, closes⟩ := syncUnlessNone_spec writer fs
      rw [close_eq_of_open sound isOpen, ReleasesAtOnce, ← syncs, ← closes]
      generalize writer.syncUnlessNone fs = result at uses ⊢
      obtain ⟨syncStatus, middle⟩ := result
      simp only at uses ⊢
      cases syncOk : syncStatus.isOk with
      | false =>
          exact ⟨fun _ => .used _ n had had uses, fun no => absurd (fun _ is => by cases is) no⟩
      | true =>
          obtain ⟨more, releases, once, again⟩ :=
            closeLoop_adds writer.fileDescriptor middle.pending.closes middle
          simp only [closeFileDescriptor, Bool.not_true, Bool.false_eq_true, if_false, isOpen,
            forall_const]
          obtain ⟨⟨closeStatus, after⟩, closeEq⟩ : ∃ result,
            closeLoop writer.fileDescriptor middle.pending.closes middle = result := ⟨_, rfl⟩
          simp only [closeEq] at releases once again ⊢
          have events := uses.andThen releases
          constructor
          · intro atOnce
            obtain ⟨rfl, ok⟩ := once atOnce
            simp only [ok, Bool.not_true, Bool.false_eq_true, if_false]
            exact .released _ n had rfl events
          · intro failed
            refine ⟨_, n, more, had, ?_, ?_⟩
            · split <;> exact events
            · rcases again (by simpa using failed) with repeats | gaveUp
              · exact Or.inl repeats
              · simp only [gaveUp, Bool.not_false, if_true]
                exact Or.inr had

/-- The first `close` of a step that closes returns no error. -/
def ClosesAtOnce (state : WalFileWriter × FileSystem) (request : Outcomes × WriterCall) : Prop :=
  request.2 = .close → state.1.ReleasesAtOnce request.1

/-- **What one step does with descriptors.** -/
theorem step_cases {state : WalFileWriter × FileSystem} (sound : state.1.Sound)
    (request : Outcomes × WriterCall) :
    (ClosesAtOnce state request → Lawful state.1 (state.2.facing request.1)
      (step state request).2.1 (step state request).2.2) ∧
    (¬ ClosesAtOnce state request → Repeated state.1 (state.2.facing request.1)
      (step state request).2.1 (step state request).2.2) := by
  obtain ⟨outcomes, call⟩ := request
  cases call with
  | openFile =>
      exact ⟨fun _ => (openFile_lawful _ _).1, fun no => absurd (fun is => by cases is) no⟩
  | append record =>
      exact ⟨fun _ => appendRecord_lawful _ _ _, fun no => absurd (fun is => by cases is) no⟩
  | flush => exact ⟨fun _ => flush_lawful _ _, fun no => absurd (fun is => by cases is) no⟩
  | close =>
      obtain ⟨lawful, repeated⟩ := close_cases sound (state.2.facing outcomes)
      exact ⟨fun atOnce => lawful (atOnce rfl), fun no => repeated fun atOnce => no fun _ => atOnce⟩

/-! ## Runs -/

/-- The writer has dealt with all descriptors in order. -/
structure Owning (state : WalFileWriter × FileSystem) : Prop where
  holds : Holds state.2.events state.1.descriptor
  older : ∀ event ∈ state.2.events, event.resource < state.2.nextDescriptor

/-- A descriptor was released twice, or is kept after its release. -/
def Spoiled (state : WalFileWriter × FileSystem) : Prop :=
  ∃ d, .acquire d ∈ state.2.events ∧
    (2 ≤ state.2.events.count (.release d) ∨
      1 ≤ state.2.events.count (.release d) ∧ state.1.descriptor = some d)

theorem owning_create (path : Bytes) (options : WalFileWriterOptions) (fs : FileSystem) :
    Owning (create path options, { fs with calls := [] }) where
  holds := Ownership.holds_nil
  older _ member := absurd member List.not_mem_nil

theorem older_of_adds {fs after : FileSystem} {events : List (Event Int)} {d : Int}
    (older : ∀ event ∈ fs.events, event.resource < fs.nextDescriptor)
    (acquired : .acquire d ∈ fs.events) (adds : fs.Adds after events)
    (about : ∀ event ∈ events, event.resource = d) :
    ∀ event ∈ after.events, event.resource < after.nextDescriptor := by
  rw [adds.events, adds.next]
  intro event member
  rcases List.mem_append.1 member with before | new
  · exact older event before
  · rw [about event new]
    exact older _ acquired

theorem Lawful.owning {writer next : WalFileWriter} {fs after : FileSystem}
    (lawful : Lawful writer fs next after) (owning : Owning (writer, fs)) :
    Owning (next, after) := by
  obtain ⟨holds, older⟩ := owning
  simp only at holds older
  cases lawful with
  | idle same adds =>
      refine ⟨?_, ?_⟩
      · simp only [adds.events, List.append_nil, same]
        exact holds
      · simp only [adds.events, List.append_nil, adds.next]
        exact older
  | used d n had has adds =>
      rw [had] at holds
      refine ⟨?_, older_of_adds older (holds.acquired d rfl) adds fun event member => ?_⟩
      · simp only [adds.events, has]
        exact holds.use n
      · rw [List.eq_of_mem_replicate member]
        rfl
  | opened n had has events greater =>
      rw [had] at holds
      have new : ∀ event ∈ fs.events, event.resource ≠ (fs.nextDescriptor : Int) :=
        fun event member => ne_of_lt (older event member)
      refine ⟨?_, fun event member => ?_⟩
      · simp only [events, has]
        exact (holds.acquire new).use n
      · simp only [events, List.append_assoc, List.mem_append, List.mem_singleton] at member
        simp only [greater]
        rcases member with before | rfl | use
        · have := older event before
          omega
        · show (fs.nextDescriptor : Int) < _
          omega
        · rw [List.eq_of_mem_replicate use]
          show (fs.nextDescriptor : Int) < _
          omega
  | released d n had has adds =>
      rw [had] at holds
      refine ⟨?_, older_of_adds older (holds.acquired d rfl) adds fun event member => ?_⟩
      · simp only [adds.events, has, ← List.append_assoc]
        exact (holds.use n).release
      · rcases List.mem_append.1 member with use | release
        · rw [List.eq_of_mem_replicate use]
          rfl
        · rw [List.mem_singleton.1 release]
          rfl

/-- A repeated release spoils what was in order. -/
theorem Repeated.spoiled {writer next : WalFileWriter} {fs after : FileSystem}
    (repeated : Repeated writer fs next after) (owning : Owning (writer, fs)) :
    Spoiled (next, after) := by
  obtain ⟨d, n, more, had, adds, again⟩ := repeated
  have acquired : .acquire d ∈ fs.events := owning.holds.acquired d had
  have count : more + 1 ≤ after.events.count (.release d) := by
    rw [adds.events, List.count_append, List.count_append, List.count_replicate_self]
    omega
  refine ⟨d, ?_, ?_⟩
  · rw [adds.events]
    exact List.mem_append_left _ acquired
  · rcases again with repeats | kept
    · exact Or.inl (le_trans (by omega) count)
    · exact Or.inr ⟨le_trans (by omega) count, kept⟩

/-- What was done is not undone: more events, and a kept descriptor is kept or released. -/
theorem spoiled_of_more {writer next : WalFileWriter} {fs after : FileSystem}
    {events : List (Event Int)} (spoiled : Spoiled (writer, fs))
    (more : after.events = fs.events ++ events)
    (keeps : ∀ d, writer.descriptor = some d → next.descriptor = some d ∨ .release d ∈ events) :
    Spoiled (next, after) := by
  obtain ⟨d, acquired, twice⟩ := spoiled
  simp only at acquired twice
  refine ⟨d, ?_, ?_⟩
  · rw [more]
    exact List.mem_append_left _ acquired
  · simp only [more, List.count_append]
    rcases twice with twice | ⟨once, had⟩
    · exact Or.inl (by omega)
    · rcases keeps d had with kept | again
      · exact Or.inr ⟨by omega, kept⟩
      · have := List.count_pos_iff.2 again
        exact Or.inl (by omega)

theorem Lawful.stillSpoiled {writer next : WalFileWriter} {fs after : FileSystem}
    (lawful : Lawful writer fs next after) (spoiled : Spoiled (writer, fs)) :
    Spoiled (next, after) := by
  cases lawful with
  | idle same adds =>
      exact spoiled_of_more spoiled adds.events fun d had => Or.inl (same.trans had)
  | used d n had has adds =>
      refine spoiled_of_more spoiled adds.events fun e hadToo => Or.inl ?_
      rw [has, ← had, hadToo]
  | opened n had has events greater =>
      rw [List.append_assoc] at events
      refine spoiled_of_more spoiled events fun e hadToo => ?_
      rw [had] at hadToo
      cases hadToo
  | released d n had has adds =>
      refine spoiled_of_more spoiled adds.events fun e hadToo => Or.inr ?_
      rw [had] at hadToo
      cases hadToo
      simp

theorem Repeated.stillSpoiled {writer next : WalFileWriter} {fs after : FileSystem}
    (repeated : Repeated writer fs next after) (spoiled : Spoiled (writer, fs)) :
    Spoiled (next, after) := by
  obtain ⟨d, n, more, had, adds, -⟩ := repeated
  refine spoiled_of_more spoiled adds.events fun e hadToo => Or.inr ?_
  rw [had] at hadToo
  cases hadToo
  simp

/-- **Runs.**  The writer is in order after a run whose steps all close at once, and has
gone wrong after any other. -/
theorem owning_or_spoiled (path : Bytes) (options : WalFileWriterOptions) (fs : FileSystem)
    (requests : List (Outcomes × WriterCall)) :
    let start := (create path options, { fs with calls := [] })
    (Machine.Steps step ClosesAtOnce start requests → Owning (Machine.after step start requests)) ∧
      (¬ Machine.Steps step ClosesAtOnce start requests →
        Spoiled (Machine.after step start requests)) := by
  intro start
  have steady : ∀ (state : WalFileWriter × FileSystem) request, Steady state →
      Steady (step state request).2 := fun _ request steady => steady_step steady request
  refine Machine.after_dichotomy step steady ?_ ?_ ?_ (steady_create path options _)
    (owning_create path options fs) requests
  · intro state request steady owning atOnce
    have lawful := (step_cases steady.sound request).1 atOnce
    exact lawful.owning ⟨owning.holds, owning.older⟩
  · intro state request steady owning no
    have repeated := (step_cases steady.sound request).2 no
    exact repeated.spoiled ⟨owning.holds, owning.older⟩
  · intro state request steady spoiled
    by_cases atOnce : ClosesAtOnce state request
    · exact ((step_cases steady.sound request).1 atOnce).stillSpoiled spoiled
    · exact ((step_cases steady.sound request).2 atOnce).stillSpoiled spoiled

/-! ## The whole life -/

/-- The system calls of a writer from its construction to its destruction. -/
def life (path : Bytes) (options : WalFileWriterOptions) (fs : FileSystem)
    (requests : List (Outcomes × WriterCall)) (last : Outcomes) : FileSystem :=
  let state := Machine.after step (create path options, { fs with calls := [] }) requests
  state.1.destroy (state.2.facing last)

/-- The destructor closes what is open. -/
theorem destroy_adds {writer : WalFileWriter} (isOpen : writer.isOpen = true) (fs : FileSystem) :
    ∃ n, fs.Adds (writer.destroy fs)
      (List.replicate n (.use writer.fileDescriptor) ++ [.release writer.fileDescriptor]) := by
  have has : writer.fileDescriptor ≠ invalidFileDescriptor := by
    simpa [WalFileWriter.isOpen] using isOpen
  rw [destroy, if_pos has]
  by_cases policy : writer.options.syncPolicy ≠ .none
  · rw [if_pos policy]
    let synced : FileSystem :=
      { discardedCall (.fsync writer.fileDescriptor) fs.pending.fsyncs fs with
        pending.fsyncs := fs.pending.fsyncs.tail }
    have sync : fs.Adds synced [.use writer.fileDescriptor] :=
      .one (.fsync writer.fileDescriptor _) rfl rfl rfl
    exact ⟨1, sync.andThen (.one (.close writer.fileDescriptor _) rfl rfl rfl)⟩
  · rw [if_neg policy]
    exact ⟨0, .one (.close writer.fileDescriptor _) rfl rfl rfl⟩

theorem releasedOnce_destroy {state : WalFileWriter × FileSystem} (owning : Owning state)
    (last : Outcomes) : ReleasedOnce (state.1.destroy (state.2.facing last)).events := by
  have holds : Holds (state.2.facing last).events state.1.descriptor := owning.holds
  cases isOpen : state.1.isOpen with
  | false =>
      rw [descriptor_of_notOpen isOpen] at holds
      rw [destroy_of_notOpen isOpen]
      exact holds.releasedOnce
  | true =>
      rw [descriptor_of_open isOpen] at holds
      obtain ⟨n, adds⟩ := destroy_adds isOpen (state.2.facing last)
      rw [adds.events, ← List.append_assoc]
      exact ((holds.use n).release).releasedOnce

theorem not_releasedOnce_of_spoiled {writer : WalFileWriter} {fs : FileSystem}
    (spoiled : Spoiled (writer, fs)) (none : writer.descriptor = none) :
    ¬ ReleasedOnce fs.events := by
  obtain ⟨d, acquired, twice | ⟨-, had⟩⟩ := spoiled
  · exact Ownership.not_releasedOnce_of_twice acquired twice
  · rw [none] at had
    cases had

theorem not_releasedOnce_destroy {state : WalFileWriter × FileSystem} (spoiled : Spoiled state)
    (last : Outcomes) : ¬ ReleasedOnce (state.1.destroy (state.2.facing last)).events := by
  have facing : Spoiled (state.1, state.2.facing last) := spoiled
  cases isOpen : state.1.isOpen with
  | false =>
      rw [destroy_of_notOpen isOpen]
      exact not_releasedOnce_of_spoiled facing (descriptor_of_notOpen isOpen)
  | true =>
      obtain ⟨n, adds⟩ := destroy_adds isOpen (state.2.facing last)
      have ended : Spoiled (state.1.closed, state.1.destroy (state.2.facing last)) := by
        refine spoiled_of_more facing adds.events fun d had => Or.inr ?_
        rw [descriptor_of_open isOpen] at had
        cases had
        simp
      exact not_releasedOnce_of_spoiled ended (descriptor_of_notOpen rfl)

/-- **Who owns the descriptors.**  Over the whole life of a writer every descriptor it
opened is closed once and left alone after that, if and only if no `close` that
`WalFileWriter::close` issues first returns an error. -/
theorem descriptors_released_once_iff (path : Bytes) (options : WalFileWriterOptions)
    (fs : FileSystem) (requests : List (Outcomes × WriterCall)) (last : Outcomes) :
    ReleasedOnce (life path options fs requests last).events ↔
      Machine.Steps step ClosesAtOnce (create path options, { fs with calls := [] }) requests := by
  obtain ⟨owning, spoiled⟩ := owning_or_spoiled path options fs requests
  constructor
  · intro once
    by_contra no
    exact not_releasedOnce_destroy (spoiled no) last once
  · intro steps
    exact releasedOnce_destroy (owning steps) last

/-- A `close` that is interrupted, and one that fails and is left to the destructor. -/
theorem closed_again_after_error :
    (life (bytes "wal") {} (.holding none)
        [({}, .openFile), ({ closes := [.failed .interrupted] }, .close)] {}).events =
      [.acquire 3, .use 3, .release 3, .release 3] ∧
    (life (bytes "wal") {} (.holding none)
        [({}, .openFile),
          ({ closes := [.failed (.other (bytes "Input/output error"))] }, .close)] {}).events =
      [.acquire 3, .use 3, .release 3, .use 3, .release 3] ∧
    ¬ ReleasedOnce (life (bytes "wal") {} (.holding none)
        [({}, .openFile), ({ closes := [.failed .interrupted] }, .close)] {}).events ∧
    ¬ ReleasedOnce (life (bytes "wal") {} (.holding none)
        [({}, .openFile),
          ({ closes := [.failed (.other (bytes "Input/output error"))] }, .close)] {}).events := by
  refine ⟨by decide, by decide, ?_, ?_⟩
  · exact Ownership.not_releasedOnce_of_twice (r := 3) (by decide) (by decide)
  · exact Ownership.not_releasedOnce_of_twice (r := 3) (by decide) (by decide)

end WalFileWriter

end AsterKV.Wal
