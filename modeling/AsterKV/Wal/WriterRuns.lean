/-
# AsterKV.Wal.WriterRuns -- a writer over its calls, and the disk under it

A run of a writer is a list of calls on it, each with what the kernel answers
meanwhile; the order of the calls and every answer are free.  `FileSystem.disk` reads
the recorded system calls as what they do to the disk: a `write` appends, an `fsync`
that succeeds makes everything written so far durable.  Each call of the writer has one
lemma that says what it does to file and disk and what it keeps (`call_effects`).
-/
import AsterKV.Theory.Durability
import AsterKV.Theory.Machine
import AsterKV.Wal.FileWriter

namespace AsterKV.Wal

open AsterKV.Core Theory
open Theory.Durability (Disk Effect)

set_option autoImplicit false

/-! ## Runs -/

inductive WriterCall where
  | openFile
  | append (record : WalRecord)
  | flush
  | close
  deriving DecidableEq, Repr

/-- What a call that returns OK adds to the file. -/
def WriterCall.line : WriterCall → Bytes
  | .append record => recordLine record
  | .openFile | .flush | .close => []

namespace FileSystem

/-- What the kernel is going to answer from here on. -/
def facing (fs : FileSystem) (outcomes : Outcomes) : FileSystem := { fs with pending := outcomes }

end FileSystem

namespace WalFileWriter

def call (writer : WalFileWriter) (fs : FileSystem) : WriterCall →
    Status × WalFileWriter × FileSystem
  | .openFile => writer.openFile fs
  | .append record => writer.appendRecord record fs
  | .flush => writer.flush fs
  | .close => writer.close fs

/-- One call, and what the kernel answers to it. -/
def step (state : WalFileWriter × FileSystem) (request : Outcomes × WriterCall) :
    Status × WalFileWriter × FileSystem :=
  state.1.call (state.2.facing request.1) request.2

end WalFileWriter

/-! ## The disk -/

/-- What a system call does to the disk. -/
def SystemCall.effect : SystemCall → Effect UInt8
  | .wrote _ data => .append data
  | .fsync _ done => .sync done
  | .opened _ | .openFailed | .writeFailed _ | .close _ _ => .none

namespace FileSystem

/-- What the recorded calls did to the disk. -/
def disk (fs : FileSystem) : Disk UInt8 := Disk.empty.run (fs.calls.map SystemCall.effect)

theorem disk_record (fs : FileSystem) (c : SystemCall) :
    (fs.record c).disk = fs.disk.after c.effect := by
  simp [disk, record, Disk.run_concat]

theorem disk_append (fs : FileSystem) (descriptor : Int) (data : Bytes) :
    (fs.append descriptor data).disk = fs.disk.after (.append data) :=
  disk_record _ _

end FileSystem

/-- A write loop appends what it gets through. -/
theorem writeAllLoop_disk (descriptor : Int) (outcomes : List WriteOutcome) (data : Bytes)
    (fs : FileSystem) :
    (writeAllLoop descriptor outcomes data fs).2.disk =
      fs.disk.after (.append (acceptedPrefix outcomes data)) := by
  induction outcomes generalizing data fs with
  | nil =>
      cases data with
      | nil => exact (Disk.append_nil _).symm
      | cons b data => exact FileSystem.disk_append _ _ _
  | cons outcome rest ih =>
      cases data with
      | nil => exact (Disk.append_nil _).symm
      | cons b data =>
          cases outcome with
          | accepted more =>
              rw [writeAllLoop, ih, FileSystem.disk_append, Disk.append_append, acceptedPrefix]
              · simp
              · simp
          | stalled errno =>
              rw [acceptedPrefix]
              · exact FileSystem.disk_record _ _
              · simp
          | failed errno =>
              rw [writeAllLoop, acceptedPrefix]
              · have unchanged : (fs.record (.writeFailed descriptor)).disk = fs.disk :=
                  FileSystem.disk_record _ _
                split
                · rw [ih, unchanged]
                · rw [Disk.append_nil]
                  exact unchanged
              · simp
              · simp

/-- A sync loop writes nothing, and one that returns OK has settled the disk. -/
theorem fsyncLoop_disk (descriptor : Int) (outcomes : List CallOutcome) (fs : FileSystem) :
    (fsyncLoop descriptor outcomes fs).2.disk.written = fs.disk.written ∧
      ((fsyncLoop descriptor outcomes fs).1.isOk = true →
        (fsyncLoop descriptor outcomes fs).2.disk.Settled) := by
  induction outcomes generalizing fs with
  | nil =>
      have synced : (fsyncLoop descriptor [] fs).2.disk = fs.disk.after (.sync true) :=
        FileSystem.disk_record _ _
      rw [synced]
      exact ⟨Disk.written_sync _ _, fun _ => Disk.settled_sync _⟩
  | cons outcome rest ih =>
      cases outcome with
      | done =>
          have synced : (fsyncLoop descriptor (.done :: rest) fs).2.disk =
              fs.disk.after (.sync true) := FileSystem.disk_record _ _
          rw [synced]
          exact ⟨Disk.written_sync _ _, fun _ => Disk.settled_sync _⟩
      | failed errno =>
          have tried : (fs.record (.fsync descriptor false)).disk = fs.disk.after (.sync false) :=
            FileSystem.disk_record _ _
          rw [fsyncLoop]
          split
          · obtain ⟨written, settled⟩ := ih (fs.record (.fsync descriptor false))
            refine ⟨?_, settled⟩
            rw [written, tried, Disk.written_sync]
          · refine ⟨?_, fun ok => by cases ok⟩
            show (fs.record (.fsync descriptor false)).disk.written = fs.disk.written
            rw [tried, Disk.written_sync]

/-- Closing a descriptor touches neither disk nor file. -/
theorem closeLoop_keeps (descriptor : Int) (outcomes : List CallOutcome) (fs : FileSystem) :
    (closeLoop descriptor outcomes fs).2.disk = fs.disk ∧
      (closeLoop descriptor outcomes fs).2.file = fs.file := by
  induction outcomes generalizing fs with
  | nil => exact ⟨FileSystem.disk_record _ _, rfl⟩
  | cons outcome rest ih =>
      cases outcome with
      | done => exact ⟨FileSystem.disk_record _ _, rfl⟩
      | failed errno =>
          have tried : (fs.record (.close descriptor false)).disk = fs.disk :=
            FileSystem.disk_record _ _
          rw [closeLoop]
          split
          · obtain ⟨disk, file⟩ := ih (fs.record (.close descriptor false))
            exact ⟨disk.trans tried, file⟩
          · exact ⟨tried, rfl⟩

/-- A close loop returns OK when the retries end in success. -/
theorem closeLoop_isOk (descriptor : Int) (outcomes : List CallOutcome) (fs : FileSystem) :
    (closeLoop descriptor outcomes fs).1.isOk = retriedSucceeds outcomes := by
  induction outcomes generalizing fs with
  | nil => rfl
  | cons outcome rest ih =>
      cases outcome with
      | done => rfl
      | failed errno =>
          by_cases retry : errno = .interrupted
          · rw [closeLoop, if_pos retry, ih, retriedSucceeds, retry]
            rfl
          · simp [closeLoop, retriedSucceeds, retry]

/-! ## What no call changes -/

/-- A file that is there stays, and a kernel that does not fail goes on not failing. -/
structure FileSystem.Carries (fs after : FileSystem) : Prop where
  file : fs.file.isSome → after.file.isSome
  clean : fs.pending.NoFailure → after.pending.NoFailure

theorem writeAllLoop_clean (descriptor : Int) {outcomes : List WriteOutcome} (data : Bytes)
    (fs : FileSystem) (clean : fs.pending.NoFailure)
    (ahead : ∀ outcome ∈ outcomes,
      outcome = .failed .interrupted ∨ ∃ more, outcome = .accepted more) :
    (writeAllLoop descriptor outcomes data fs).2.pending.NoFailure := by
  induction outcomes generalizing data fs with
  | nil =>
      cases data with
      | nil => exact { clean with writes := ahead }
      | cons b data => exact { clean with writes := ahead }
  | cons outcome rest ih =>
      have later := fun o member => ahead o (List.mem_cons_of_mem _ member)
      cases data with
      | nil => exact { clean with writes := ahead }
      | cons b data =>
          cases outcome with
          | accepted more =>
              rw [writeAllLoop]
              · exact ih _ (fs.append _ _) clean later
              · simp
          | stalled errno =>
              rcases ahead (.stalled errno) List.mem_cons_self with same | ⟨more, same⟩
              · cases same
              · cases same
          | failed errno =>
              rw [writeAllLoop]
              · split
                · exact ih _ (fs.record _) clean later
                · exact { clean with writes := later }
              · simp

theorem fsyncLoop_clean (descriptor : Int) {outcomes : List CallOutcome} (fs : FileSystem)
    (clean : fs.pending.NoFailure)
    (ahead : ∀ outcome ∈ outcomes, outcome = .done ∨ outcome = .failed .interrupted) :
    (fsyncLoop descriptor outcomes fs).2.pending.NoFailure := by
  induction outcomes generalizing fs with
  | nil => exact { clean with fsyncs := ahead }
  | cons outcome rest ih =>
      have later := fun o member => ahead o (List.mem_cons_of_mem _ member)
      cases outcome with
      | done => exact { clean with fsyncs := later }
      | failed errno =>
          rw [fsyncLoop]
          split
          · exact ih (fs.record _) clean later
          · exact { clean with fsyncs := later }

theorem closeLoop_clean (descriptor : Int) {outcomes : List CallOutcome} (fs : FileSystem)
    (clean : fs.pending.NoFailure)
    (ahead : ∀ outcome ∈ outcomes, outcome = .done ∨ outcome = .failed .interrupted) :
    (closeLoop descriptor outcomes fs).2.pending.NoFailure := by
  induction outcomes generalizing fs with
  | nil => exact { clean with closes := ahead }
  | cons outcome rest ih =>
      have later := fun o member => ahead o (List.mem_cons_of_mem _ member)
      cases outcome with
      | done => exact { clean with closes := later }
      | failed errno =>
          rw [closeLoop]
          split
          · exact ih (fs.record _) clean later
          · exact { clean with closes := later }

theorem carries_writeAll (descriptor : Int) (data : Bytes) (fs : FileSystem) :
    fs.Carries (writeAll descriptor data fs).2 :=
  ⟨(writeAllLoop_spec descriptor fs.pending.writes data fs).2.2.2.1,
    fun clean => writeAllLoop_clean descriptor data fs clean clean.writes⟩

theorem carries_closeFileDescriptor (descriptor : Int) (fs : FileSystem) :
    fs.Carries (closeFileDescriptor descriptor fs).2 := by
  refine ⟨fun present => ?_, fun clean => closeLoop_clean descriptor fs clean clean.closes⟩
  rw [closeFileDescriptor, (closeLoop_keeps descriptor fs.pending.closes fs).2]
  exact present

namespace WalFileWriter

theorem carries_syncFile (writer : WalFileWriter) (fs : FileSystem) :
    fs.Carries (writer.syncFile fs).2 := by
  unfold syncFile
  split
  · exact ⟨id, id⟩
  · refine ⟨fun present => ?_, fun clean => fsyncLoop_clean _ fs clean clean.fsyncs⟩
    rw [(fsyncLoop_spec writer.fileDescriptor fs.pending.fsyncs fs).1]
    exact present

/-- A writer that was closed has no descriptor, and one with a descriptor has its file. -/
structure Coherent (writer : WalFileWriter) (fs : FileSystem) : Prop where
  closed : writer.isClosed = true → writer.isOpen = false
  present : writer.isOpen = true → fs.file.isSome

theorem coherent_create (path : Bytes) (options : WalFileWriterOptions) (fs : FileSystem) :
    (create path options).Coherent fs :=
  ⟨fun _ => rfl, fun isOpen => by cases isOpen⟩

structure Keeps (writer : WalFileWriter) (fs : FileSystem) (next : WalFileWriter)
    (after : FileSystem) : Prop where
  carries : fs.Carries after
  filePath : next.filePath = writer.filePath
  options : next.options = writer.options
  coherent : writer.Coherent fs → next.Coherent after

theorem Keeps.refl (writer : WalFileWriter) (fs : FileSystem) : Keeps writer fs writer fs :=
  ⟨⟨id, id⟩, rfl, rfl, id⟩

theorem Keeps.andThen {writer next : WalFileWriter} {fs middle after : FileSystem}
    (kept : Keeps writer fs next middle) (carries : middle.Carries after) :
    Keeps writer fs next after where
  carries := ⟨carries.file ∘ kept.carries.file, carries.clean ∘ kept.carries.clean⟩
  filePath := kept.filePath
  options := kept.options
  coherent before :=
    ⟨(kept.coherent before).closed, carries.file ∘ (kept.coherent before).present⟩

/-- Opening may create the file, empty. -/
theorem openFile_keeps (writer : WalFileWriter) (fs : FileSystem) :
    Keeps writer fs (writer.openFile fs).2.1 (writer.openFile fs).2.2 ∧
      (writer.openFile fs).2.2.disk = fs.disk ∧
      (writer.openFile fs).2.2.content = fs.content := by
  unfold openFile
  split
  · exact ⟨.refl writer fs, rfl, rfl⟩
  · split
    · exact ⟨.refl writer fs, rfl, rfl⟩
    · rename_i notClosed
      split
      · exact ⟨.refl writer fs, rfl, rfl⟩
      · unfold FileSystem.sysOpen
        have later : ∀ {outcome rest}, fs.pending.opens = outcome :: rest →
            fs.pending.NoFailure → { fs.pending with opens := rest }.NoFailure :=
          fun opens clean => { clean with
            opens := fun o member => clean.opens o (opens ▸ List.mem_cons_of_mem _ member) }
        cases opens : fs.pending.opens with
        | nil =>
            refine ⟨⟨⟨fun _ => rfl, fun clean => ?_⟩, rfl, rfl, fun _ => ?_⟩,
              FileSystem.disk_record _ _, rfl⟩
            · exact { clean with opens := fun o member => absurd member List.not_mem_nil }
            · exact ⟨fun closed => absurd closed notClosed, fun _ => rfl⟩
        | cons outcome rest =>
            cases outcome with
            | done =>
                refine ⟨⟨⟨fun _ => rfl, later opens⟩, rfl, rfl, fun _ => ?_⟩,
                  FileSystem.disk_record _ _, rfl⟩
                exact ⟨fun closed => absurd closed notClosed, fun _ => rfl⟩
            | failed errno =>
                refine ⟨⟨⟨id, later opens⟩, rfl, rfl, fun _ => ?_⟩,
                  FileSystem.disk_record _ _, rfl⟩
                exact ⟨fun _ => rfl, fun isOpen => by cases isOpen⟩

theorem syncFile_disk (writer : WalFileWriter) (fs : FileSystem) :
    (writer.syncFile fs).2.content = fs.content ∧
      (writer.syncFile fs).2.disk.written = fs.disk.written ∧
      ((writer.syncFile fs).1.isOk = true → (writer.syncFile fs).2.disk.Settled) := by
  unfold syncFile
  split
  · exact ⟨rfl, rfl, fun ok => by cases ok⟩
  · have file := (fsyncLoop_spec writer.fileDescriptor fs.pending.fsyncs fs).1
    exact ⟨by rw [FileSystem.content, file]; rfl, fsyncLoop_disk _ _ _⟩

/-- What one call did: the bytes it added to the file, a first part of `line` and all of it
when it returned OK, and whether it may return OK only after a sync. -/
structure Effects (writer : WalFileWriter) (fs : FileSystem) (line : Bytes) (syncs : Prop)
    (status : Status) (next : WalFileWriter) (after : FileSystem) : Prop
    extends Keeps writer fs next after where
  added : ∃ bytes, after.content = fs.content ++ bytes ∧
    after.disk.written = fs.disk.written ++ bytes ∧ bytes <+: line ∧
    (status.isOk = true → bytes = line)
  settled : status.isOk = true → syncs → after.disk.Settled
  unsynced : writer.options.syncPolicy = .none → after.disk.syncs = fs.disk.syncs

/-- A call that writes nothing and does not sync. -/
theorem Effects.idle {writer next : WalFileWriter} {fs after : FileSystem} {line : Bytes}
    {syncs : Prop} {status : Status} (nothing : status.isOk = true → line = [])
    (unneeded : status.isOk = true → ¬ syncs) (keeps : Keeps writer fs next after)
    (content : after.content = fs.content) (disk : after.disk = fs.disk) :
    Effects writer fs line syncs status next after where
  toKeeps := keeps
  added := ⟨[], by rw [content, List.append_nil], by rw [disk, List.append_nil],
    List.nil_prefix, fun ok => (nothing ok).symm⟩
  settled ok needed := absurd needed (unneeded ok)
  unsynced _ := by rw [disk]

/-- A call that fails before it writes. -/
theorem Effects.refused {writer next : WalFileWriter} {fs after : FileSystem} {line : Bytes}
    {syncs : Prop} {status : Status} (failed : status.isOk = false)
    (keeps : Keeps writer fs next after) (content : after.content = fs.content)
    (disk : after.disk = fs.disk) : Effects writer fs line syncs status next after :=
  .idle (fun ok => by simp [failed] at ok) (fun ok => by simp [failed] at ok) keeps content disk

theorem openFile_effects (writer : WalFileWriter) (fs : FileSystem) :
    Effects writer fs [] False (writer.openFile fs).1 (writer.openFile fs).2.1
      (writer.openFile fs).2.2 :=
  let ⟨keeps, disk, content⟩ := openFile_keeps writer fs
  .idle (fun _ => rfl) (fun _ => id) keeps content disk

theorem appendRecord_effects (writer : WalFileWriter) (record : WalRecord) (fs : FileSystem) :
    Effects writer fs (recordLine record) (writer.options.syncPolicy = .fsyncEveryWrite)
      (writer.appendRecord record fs).1 (writer.appendRecord record fs).2.1
      (writer.appendRecord record fs).2.2 := by
  unfold appendRecord
  cases writer.isClosed with
  | true => exact .refused rfl (.refl writer fs) rfl rfl
  | false =>
  simp only [Bool.false_eq_true, if_false]
  by_cases valid : (validateWalRecord record).isOk = true
  case neg =>
    rw [serialize_invalid (by simpa using valid)]
    exact .refused (Result.normalizeFailureStatus _).property (.refl writer fs) rfl rfl
  rw [serialize_valid ⟨record, valid⟩]
  obtain ⟨keeps, sameDisk, sameContent⟩ := openFile_keeps writer fs
  simp only [Result.success]
  generalize writer.openFile fs = opened at keeps sameDisk sameContent ⊢
  obtain ⟨openStatus, next, middle⟩ := opened
  simp only at keeps sameDisk sameContent ⊢
  cases opens : openStatus.isOk with
  | false => exact .refused opens keeps sameContent sameDisk
  | true =>
  simp only [Bool.not_true, Bool.false_eq_true, if_false]
  have written := writeAllLoop_disk next.fileDescriptor middle.pending.writes (recordLine record)
    middle
  have status := writeAllLoop_spec next.fileDescriptor middle.pending.writes (recordLine record)
    middle
  have kept := keeps.andThen (carries_writeAll next.fileDescriptor (recordLine record) middle)
  rw [writeAll] at kept ⊢
  generalize writeAllLoop next.fileDescriptor middle.pending.writes (recordLine record) middle =
    result at written status kept ⊢
  obtain ⟨writeStatus, final⟩ := result
  obtain ⟨content, _, _, _, whole, _⟩ := status
  simp only at written content whole kept ⊢
  rw [sameDisk] at written
  rw [sameContent] at content
  have unsynced : final.disk.syncs = fs.disk.syncs := by
    rw [written, Disk.syncs_append]
  have line : final.disk.written =
      fs.disk.written ++ acceptedPrefix middle.pending.writes (recordLine record) := by
    rw [written, Disk.written_append]
  have front := acceptedPrefix_prefix middle.pending.writes (recordLine record)
  cases writes : writeStatus.isOk with
  | false =>
      exact ⟨kept, ⟨_, content, line, front, fun ok => by simp [writes] at ok⟩,
        fun ok => by simp [writes] at ok, fun _ => unsynced⟩
  | true =>
  have all := whole.1 writes
  simp only [Bool.not_true, Bool.false_eq_true, if_false, keeps.options]
  by_cases every : writer.options.syncPolicy = .fsyncEveryWrite
  · obtain ⟨synced, same, settled⟩ := syncFile_disk next final
    rw [if_pos every]
    refine ⟨kept.andThen (carries_syncFile next final),
      ⟨_, synced.trans content, same.trans line, front, fun _ => all⟩,
      fun ok _ => settled ok, fun none => ?_⟩
    rw [none] at every
    cases every
  · rw [if_neg every]
    exact ⟨kept, ⟨_, content, line, front, fun _ => all⟩, fun _ is => absurd is every,
      fun _ => unsynced⟩

theorem flush_effects (writer : WalFileWriter) (fs : FileSystem) :
    Effects writer fs [] (writer.options.syncPolicy ≠ .none) (writer.flush fs).1
      (writer.flush fs).2.1 (writer.flush fs).2.2 := by
  unfold flush
  cases writer.isClosed with
  | true => exact .refused rfl (.refl writer fs) rfl rfl
  | false =>
  simp only [Bool.false_eq_true, if_false]
  obtain ⟨keeps, sameDisk, sameContent⟩ := openFile_keeps writer fs
  generalize writer.openFile fs = opened at keeps sameDisk sameContent ⊢
  obtain ⟨openStatus, next, middle⟩ := opened
  simp only at keeps sameDisk sameContent ⊢
  cases opens : openStatus.isOk with
  | false => exact .refused opens keeps sameContent sameDisk
  | true =>
  simp only [Bool.not_true, Bool.false_eq_true, if_false, keeps.options]
  by_cases none : writer.options.syncPolicy = .none
  · rw [if_pos none]
    exact .idle (fun _ => rfl) (fun _ syncs => syncs none) keeps sameContent sameDisk
  · obtain ⟨synced, same, settled⟩ := syncFile_disk next middle
    rw [if_neg none]
    refine ⟨keeps.andThen (carries_syncFile next middle),
      ⟨[], ?_, ?_, List.nil_prefix, fun _ => rfl⟩, fun ok _ => settled ok,
      fun is => absurd is none⟩
    · exact synced.trans (sameContent.trans (List.append_nil _).symm)
    · rw [same, sameDisk, List.append_nil]

theorem close_effects (writer : WalFileWriter) (fs : FileSystem) :
    Effects writer fs []
      (writer.options.syncPolicy ≠ .none ∧ writer.isClosed = false ∧ writer.isOpen = true)
      (writer.close fs).1 (writer.close fs).2.1 (writer.close fs).2.2 := by
  unfold close
  cases closed : writer.isClosed with
  | true => exact .idle (fun _ => rfl) (fun _ syncs => by simp at syncs) (.refl writer fs) rfl rfl
  | false =>
  simp only [Bool.false_eq_true, if_false]
  cases isOpen : writer.isOpen with
  | false =>
      refine .idle (fun _ => rfl) (fun _ syncs => by simp at syncs) ?_ rfl rfl
      exact ⟨⟨id, id⟩, rfl, rfl, fun before => ⟨fun _ => isOpen, before.present⟩⟩
  | true =>
  simp only [if_true]
  have flushed := flush_effects writer fs
  generalize writer.flush fs = result at flushed ⊢
  obtain ⟨flushStatus, next, middle⟩ := result
  simp only at flushed ⊢
  obtain ⟨bytes, content, written, front, nothing⟩ := flushed.added
  cases flushes : flushStatus.isOk with
  | false =>
      exact ⟨flushed.toKeeps, ⟨bytes, content, written, front, fun ok => by simp [flushes] at ok⟩,
        fun ok => by simp [flushes] at ok, flushed.unsynced⟩
  | true =>
  obtain ⟨sameDisk, sameFile⟩ := closeLoop_keeps next.fileDescriptor middle.pending.closes middle
  have kept := flushed.toKeeps.andThen (carries_closeFileDescriptor next.fileDescriptor middle)
  simp only [Bool.not_true, Bool.false_eq_true, if_false]
  rw [closeFileDescriptor] at kept ⊢
  obtain ⟨⟨closeStatus, final⟩, closeEq⟩ : ∃ result,
    closeLoop next.fileDescriptor middle.pending.closes middle = result := ⟨_, rfl⟩
  simp only [closeEq] at sameDisk sameFile kept ⊢
  have sameContent : final.content = middle.content := by
    rw [FileSystem.content, FileSystem.content, sameFile]
  have closing : ∀ (status : Status) (last : WalFileWriter), Keeps writer fs last final →
      Effects writer fs [] (writer.options.syncPolicy ≠ .none ∧ True ∧ True) status last final :=
    fun status last keeps =>
      { toKeeps := keeps
        added := ⟨bytes, sameContent.trans content, by rw [sameDisk, written], front,
          fun _ => nothing flushes⟩
        settled := fun _ policy => by
          rw [sameDisk]
          exact flushed.settled flushes policy.1
        unsynced := fun none => by
          rw [sameDisk]
          exact flushed.unsynced none }
  split
  · exact closing _ _ kept
  · refine closing _ _ ⟨kept.carries, kept.filePath, kept.options, fun _ => ?_⟩
    exact ⟨fun _ => rfl, fun isOpen => by cases isOpen⟩

/-- A call returns OK only after a sync. -/
def SyncsOn (writer : WalFileWriter) : WriterCall → Prop
  | .openFile => False
  | .append _ => writer.options.syncPolicy = .fsyncEveryWrite
  | .flush => writer.options.syncPolicy ≠ .none
  | .close =>
      writer.options.syncPolicy ≠ .none ∧ writer.isClosed = false ∧ writer.isOpen = true

/-- **What one call does to the file and the disk.** -/
theorem call_effects (writer : WalFileWriter) (fs : FileSystem) (call : WriterCall) :
    Effects writer fs call.line (writer.SyncsOn call) (writer.call fs call).1
      (writer.call fs call).2.1 (writer.call fs call).2.2 := by
  cases call with
  | openFile => exact openFile_effects writer fs
  | append record => exact appendRecord_effects writer record fs
  | flush => exact flush_effects writer fs
  | close => exact close_effects writer fs

/-- The destructor does not sync for a writer that never does. -/
theorem destroy_unsynced (writer : WalFileWriter) (fs : FileSystem)
    (none : writer.options.syncPolicy = .none) : (writer.destroy fs).disk.syncs = fs.disk.syncs := by
  unfold destroy
  split
  · simp only [none, ne_eq, not_true_eq_false, if_false, discardedCall]
    exact congrArg Disk.syncs (FileSystem.disk_record _ _)
  · rfl

end WalFileWriter

end AsterKV.Wal
