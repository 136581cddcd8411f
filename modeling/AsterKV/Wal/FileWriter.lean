/-
# AsterKV.Wal.FileWriter -- the append handle

A writer owns one descriptor, opened on first use and closed once.  `writeAll`
continues after short writes and interruptions; any other failure leaves the bytes
that were already accepted in the file.  `appendRecord_spec` says all an append
can do: it adds a prefix of the record's line, and the whole line when it returns
OK.
-/
import AsterKV.Wal.FileSystem
import AsterKV.Wal.RecordCodec

namespace AsterKV.Wal

open AsterKV.Core

set_option autoImplicit false

inductive WalSyncPolicy where
  | none
  | fsyncOnFlush
  | fsyncEveryWrite
  deriving DecidableEq, Repr

def walSyncPolicyToString : WalSyncPolicy → Bytes
  | .none => bytes "none"
  | .fsyncOnFlush => bytes "fsync_on_flush"
  | .fsyncEveryWrite => bytes "fsync_every_write"

def walSyncPolicyFromString (policy : Bytes) : Result WalSyncPolicy :=
  if policy = bytes "none" then .success .none
  else if policy = bytes "fsync_on_flush" then .success .fsyncOnFlush
  else if policy = bytes "fsync_every_write" then .success .fsyncEveryWrite
  else .failure (.invalidArgument (bytes "unknown WAL sync policy"))

/-- A policy is read from its name, and from nothing else. -/
theorem walSyncPolicyFromString_iff {text : Bytes} {policy : WalSyncPolicy} :
    walSyncPolicyFromString text = .success policy ↔ text = walSyncPolicyToString policy := by
  constructor
  · intro read
    unfold walSyncPolicyFromString at read
    split at read
    · cases Except.ok.inj read
      assumption
    · split at read
      · cases Except.ok.inj read
        assumption
      · split at read
        · cases Except.ok.inj read
          assumption
        · cases read
  · rintro rfl
    cases policy <;> decide

structure WalFileWriterOptions where
  syncPolicy : WalSyncPolicy := .fsyncEveryWrite
  deriving DecidableEq, Repr

structure WalFileWriter where
  filePath : Bytes
  options : WalFileWriterOptions
  fileDescriptor : Int
  isClosed : Bool
  deriving DecidableEq, Repr

def invalidFileDescriptor : Int := -1

def makeErrnoStatus (context : Bytes) (errno : Errno) : Status :=
  .unavailable (context ++ bytes ": " ++ errno.strerror)

/-! ## System call loops -/

/-- The loop of `writeAll`, on what the next writes will answer. -/
def writeAllLoop (descriptor : Int) : List WriteOutcome → Bytes → FileSystem → Status × FileSystem
  | outcomes, [], fs => (.ok, { fs with pending.writes := outcomes })
  | [], remaining, fs => (.ok, { fs with pending.writes := [] }.append descriptor remaining)
  | .accepted more :: rest, remaining, fs =>
      writeAllLoop descriptor rest (remaining.drop (more + 1))
        (fs.append descriptor (remaining.take (more + 1)))
  | .stalled errno :: rest, _, fs =>
      (makeErrnoStatus (bytes "failed to make WAL write progress") errno,
        { fs with pending.writes := rest }.record (.wrote descriptor []))
  | .failed errno :: rest, remaining, fs =>
      let fs := fs.record (.writeFailed descriptor)
      if errno = .interrupted then writeAllLoop descriptor rest remaining fs
      else (makeErrnoStatus (bytes "failed to write WAL record") errno,
        { fs with pending.writes := rest })

def writeAll (descriptor : Int) (data : Bytes) (fs : FileSystem) : Status × FileSystem :=
  writeAllLoop descriptor fs.pending.writes data fs

/-- `while (::fsync(fd) != 0)`, retried while interrupted. -/
def fsyncLoop (descriptor : Int) : List CallOutcome → FileSystem → Status × FileSystem
  | .failed errno :: rest, fs =>
      let fs := fs.record (.fsync descriptor false)
      if errno = .interrupted then fsyncLoop descriptor rest fs
      else (makeErrnoStatus (bytes "failed to fsync WAL file") errno,
        { fs with pending.fsyncs := rest })
  | outcomes, fs =>
      (.ok, { fs with pending.fsyncs := outcomes.tail }.record (.fsync descriptor true))

/-- `while (::close(fd) != 0)`, retried while interrupted. -/
def closeLoop (descriptor : Int) : List CallOutcome → FileSystem → Status × FileSystem
  | .failed errno :: rest, fs =>
      let fs := fs.record (.close descriptor false)
      if errno = .interrupted then closeLoop descriptor rest fs
      else (makeErrnoStatus (bytes "failed to close WAL file") errno,
        { fs with pending.closes := rest })
  | outcomes, fs =>
      (.ok, { fs with pending.closes := outcomes.tail }.record (.close descriptor true))

def closeFileDescriptor (descriptor : Int) (fs : FileSystem) : Status × FileSystem :=
  closeLoop descriptor fs.pending.closes fs

namespace WalFileWriter

/-! ## The writer -/

/-- The constructor. -/
def create (filePath : Bytes) (options : WalFileWriterOptions) : WalFileWriter :=
  { filePath := filePath, options := options, fileDescriptor := invalidFileDescriptor,
    isClosed := false }

def isOpen (writer : WalFileWriter) : Bool := writer.fileDescriptor != invalidFileDescriptor

def syncFile (writer : WalFileWriter) (fs : FileSystem) : Status × FileSystem :=
  if !writer.isOpen then (.unavailable (bytes "WAL file writer is not open"), fs)
  else fsyncLoop writer.fileDescriptor fs.pending.fsyncs fs

/-- `open()`. -/
def openFile (writer : WalFileWriter) (fs : FileSystem) : Status × WalFileWriter × FileSystem :=
  if writer.filePath.isEmpty then
    (.invalidArgument (bytes "WAL file path must not be empty"), writer, fs)
  else if writer.isClosed then
    (.unavailable (bytes "WAL file writer is closed"), writer, fs)
  else if writer.isOpen then (.ok, writer, fs)
  else match fs.sysOpen with
    | (.error errno, fs) =>
        (makeErrnoStatus (bytes "failed to open WAL file for append") errno,
          { writer with fileDescriptor := invalidFileDescriptor }, fs)
    | (.ok descriptor, fs) => (.ok, { writer with fileDescriptor := descriptor }, fs)

def appendRecord (writer : WalFileWriter) (record : WalRecord) (fs : FileSystem) :
    Status × WalFileWriter × FileSystem :=
  if writer.isClosed then (.unavailable (bytes "WAL file writer is closed"), writer, fs)
  else match serialize record with
    | .error failure => (failure.val, writer, fs)
    | .ok serializedRecord =>
        let (openStatus, writer, fs) := writer.openFile fs
        if !openStatus.isOk then (openStatus, writer, fs)
        else
          let (writeStatus, fs) := writeAll writer.fileDescriptor serializedRecord fs
          if !writeStatus.isOk then (writeStatus, writer, fs)
          else if writer.options.syncPolicy = .fsyncEveryWrite then
            let (syncStatus, fs) := writer.syncFile fs
            (syncStatus, writer, fs)
          else (.ok, writer, fs)

def flush (writer : WalFileWriter) (fs : FileSystem) : Status × WalFileWriter × FileSystem :=
  if writer.isClosed then (.unavailable (bytes "WAL file writer is closed"), writer, fs)
  else
    let (openStatus, writer, fs) := writer.openFile fs
    if !openStatus.isOk then (openStatus, writer, fs)
    else if writer.options.syncPolicy = .none then (.ok, writer, fs)
    else
      let (syncStatus, fs) := writer.syncFile fs
      (syncStatus, writer, fs)

def close (writer : WalFileWriter) (fs : FileSystem) : Status × WalFileWriter × FileSystem :=
  if writer.isClosed then (.ok, writer, fs)
  else if writer.isOpen then
    let (flushStatus, writer, fs) := writer.flush fs
    if !flushStatus.isOk then (flushStatus, writer, fs)
    else
      let (closeStatus, fs) := closeFileDescriptor writer.fileDescriptor fs
      if !closeStatus.isOk then (closeStatus, writer, fs)
      else (.ok, { writer with fileDescriptor := invalidFileDescriptor, isClosed := true }, fs)
  else (.ok, { writer with isClosed := true }, fs)

/-- One system call whose result is discarded. -/
def discardedCall (call : Bool → SystemCall) (outcomes : List CallOutcome) (fs : FileSystem) :
    FileSystem :=
  fs.record (call (outcomes.head?.all (· == .done)))

/-- `~WalFileWriter()`. -/
def destroy (writer : WalFileWriter) (fs : FileSystem) : FileSystem :=
  if writer.fileDescriptor ≠ invalidFileDescriptor then
    let fs :=
      if writer.options.syncPolicy ≠ .none then
        let fs := discardedCall (.fsync writer.fileDescriptor) fs.pending.fsyncs fs
        { fs with pending.fsyncs := fs.pending.fsyncs.tail }
      else fs
    let fs := discardedCall (.close writer.fileDescriptor) fs.pending.closes fs
    { fs with pending.closes := fs.pending.closes.tail }
  else fs

end WalFileWriter

/-- One append through a writer of its own. -/
def appendWalRecordToFile (path : Bytes) (record : WalRecord) (options : WalFileWriterOptions)
    (fs : FileSystem) : Status × FileSystem :=
  let (appendStatus, writer, fs) := (WalFileWriter.create path options).appendRecord record fs
  if !appendStatus.isOk then (appendStatus, writer.destroy fs)
  else
    let (closeStatus, writer, fs) := writer.close fs
    (closeStatus, writer.destroy fs)

/-! ## What the loops do to the file -/

@[simp] theorem isOk_makeErrnoStatus (context : Bytes) (errno : Errno) :
    (makeErrnoStatus context errno).isOk = false := rfl

@[simp] theorem code_makeErrnoStatus (context : Bytes) (errno : Errno) :
    (makeErrnoStatus context errno).code = .unavailable := rfl

/-- A status of the system call layer: OK, or unavailable. -/
def IsSystemStatus (status : Status) : Prop := status = .ok ∨ status.code = .unavailable

/-- What `writeAll` does: the accepted prefix reaches the file, and the status is
OK exactly when that is all of it. -/
theorem writeAllLoop_spec (descriptor : Int) (outcomes : List WriteOutcome) (data : Bytes)
    (fs : FileSystem) :
    let (status, after) := writeAllLoop descriptor outcomes data fs
    after.content = fs.content ++ acceptedPrefix outcomes data ∧
      after.parent = fs.parent ∧ after.pending.fsyncs = fs.pending.fsyncs ∧
      (fs.file.isSome → after.file.isSome) ∧
      (status.isOk = true ↔ acceptedPrefix outcomes data = data) ∧
      IsSystemStatus status := by
  induction outcomes generalizing data fs with
  | nil =>
      cases data with
      | nil => simp [writeAllLoop, acceptedPrefix, FileSystem.content, IsSystemStatus]
      | cons b data =>
          simp [writeAllLoop, acceptedPrefix, FileSystem.content, FileSystem.append,
            FileSystem.record, IsSystemStatus]
  | cons outcome rest ih =>
      cases data with
      | nil => simp [writeAllLoop, acceptedPrefix, FileSystem.content, IsSystemStatus]
      | cons b data =>
          cases outcome with
          | accepted more =>
              have step := ih ((b :: data).drop (more + 1))
                (fs.append descriptor ((b :: data).take (more + 1)))
              obtain ⟨content, parent, fsyncs, file, ok, code⟩ := step
              simp only [writeAllLoop, acceptedPrefix]
              refine ⟨?_, parent, fsyncs, fun _ => file rfl, ?_, code⟩
              · rw [content, FileSystem.content_append, List.append_assoc]
              · rw [ok]
                have whole := List.take_append_drop (more + 1) (b :: data)
                constructor
                · intro all
                  rw [all, whole]
                · intro all
                  exact List.append_cancel_left (all.trans whole.symm)
          | stalled errno =>
              simp [writeAllLoop, acceptedPrefix, FileSystem.content, FileSystem.record,
                IsSystemStatus]
          | failed errno =>
              by_cases retry : errno = .interrupted
              · have step := ih (b :: data) (fs.record (.writeFailed descriptor))
                simp only [writeAllLoop, acceptedPrefix, retry, if_true]
                exact step
              · simp [writeAllLoop, acceptedPrefix, retry, FileSystem.content, FileSystem.record,
                  IsSystemStatus]

/-- A sync loop only records its calls; its status is what the outcomes say. -/
theorem fsyncLoop_spec (descriptor : Int) (outcomes : List CallOutcome) (fs : FileSystem) :
    let (status, after) := fsyncLoop descriptor outcomes fs
    after.file = fs.file ∧ after.parent = fs.parent ∧
      (status.isOk = true ↔ retriedSucceeds outcomes = true) ∧ IsSystemStatus status := by
  induction outcomes generalizing fs with
  | nil => simp [fsyncLoop, retriedSucceeds, FileSystem.record, IsSystemStatus]
  | cons outcome rest ih =>
      cases outcome with
      | done => simp [fsyncLoop, retriedSucceeds, FileSystem.record, IsSystemStatus]
      | failed errno =>
          by_cases retry : errno = .interrupted
          · have step := ih (fs.record (.fsync descriptor false))
            simpa [fsyncLoop, retriedSucceeds, retry] using step
          · simp [fsyncLoop, retriedSucceeds, retry, FileSystem.record, IsSystemStatus]

namespace WalFileWriter

/-! ## What an append does -/

/-- A writer that may append: named, not closed, and its file there once open. -/
structure Usable (writer : WalFileWriter) (fs : FileSystem) : Prop where
  named : writer.filePath ≠ []
  notClosed : writer.isClosed = false
  present : writer.isOpen = true → fs.file.isSome

/-- The next append has a descriptor to write to. -/
def canOpen (writer : WalFileWriter) (outcomes : Outcomes) : Bool :=
  writer.isOpen || openSucceeds outcomes.opens

/-- The bytes of a line that an append gets into the file. -/
def accepted (writer : WalFileWriter) (outcomes : Outcomes) (line : Bytes) : Bytes :=
  if writer.canOpen outcomes then acceptedPrefix outcomes.writes line else []

/-- The append of a line returns OK. -/
def appendSucceeds (writer : WalFileWriter) (outcomes : Outcomes) (line : Bytes) : Bool :=
  writer.canOpen outcomes && acceptedPrefix outcomes.writes line == line &&
    (writer.options.syncPolicy != .fsyncEveryWrite || retriedSucceeds outcomes.fsyncs)

/-- All that `open` can do to a usable writer. -/
structure Opened (writer : WalFileWriter) (fs : FileSystem) (status : Status)
    (next : WalFileWriter) (after : FileSystem) : Prop where
  content : after.content = fs.content
  parent : after.parent = fs.parent
  writes : after.pending.writes = fs.pending.writes
  fsyncs : after.pending.fsyncs = fs.pending.fsyncs
  filePath : next.filePath = writer.filePath
  options : next.options = writer.options
  notClosed : next.isClosed = false
  isOk : status.isOk = writer.canOpen fs.pending
  isOpen : next.isOpen = writer.canOpen fs.pending
  present : next.isOpen = true → after.file.isSome
  system : IsSystemStatus status

theorem openFile_spec {writer : WalFileWriter} {fs : FileSystem} (usable : writer.Usable fs) :
    Opened writer fs (writer.openFile fs).1 (writer.openFile fs).2.1 (writer.openFile fs).2.2 := by
  obtain ⟨named, notClosed, present⟩ := usable
  by_cases isOpen : writer.isOpen = true
  · have unchanged : writer.openFile fs = (.ok, writer, fs) := by
      simp [openFile, named, notClosed, isOpen]
    rw [unchanged]
    exact ⟨rfl, rfl, rfl, rfl, rfl, rfl, notClosed, by simp [canOpen, isOpen],
      by simp [canOpen, isOpen], fun _ => present isOpen, Or.inl rfl⟩
  · have fresh : ((fs.nextDescriptor : Int) != invalidFileDescriptor) = true := by
      have : (fs.nextDescriptor : Int) ≠ invalidFileDescriptor := by
        unfold invalidFileDescriptor
        omega
      simpa using this
    have closed : writer.fileDescriptor = invalidFileDescriptor := by
      simpa [WalFileWriter.isOpen] using isOpen
    unfold openFile FileSystem.sysOpen
    simp only [named, notClosed, isOpen, List.isEmpty_iff, if_false, Bool.false_eq_true]
    cases opens : fs.pending.opens with
    | nil =>
        exact ⟨rfl, rfl, rfl, rfl, rfl, rfl, rfl, by simp [canOpen, opens, openSucceeds],
          by simp [canOpen, opens, openSucceeds, WalFileWriter.isOpen, fresh], fun _ => rfl,
          Or.inl rfl⟩
    | cons outcome rest =>
        cases outcome with
        | done =>
            exact ⟨rfl, rfl, rfl, rfl, rfl, rfl, rfl, by simp [canOpen, opens, openSucceeds],
              by simp [canOpen, opens, openSucceeds, WalFileWriter.isOpen, fresh], fun _ => rfl,
              Or.inl rfl⟩
        | failed errno =>
            exact ⟨rfl, rfl, rfl, rfl, rfl, rfl, rfl,
              by simp [canOpen, opens, openSucceeds, isOpen],
              by simp [canOpen, opens, openSucceeds, WalFileWriter.isOpen, closed],
              fun h => by simp [WalFileWriter.isOpen] at h, Or.inr rfl⟩

/-- All that `appendRecord` can do with a valid record. -/
structure Appended (writer : WalFileWriter) (line : Bytes) (fs : FileSystem) (status : Status)
    (next : WalFileWriter) (after : FileSystem) : Prop where
  content : after.content = fs.content ++ writer.accepted fs.pending line
  parent : after.parent = fs.parent
  filePath : next.filePath = writer.filePath
  options : next.options = writer.options
  notClosed : next.isClosed = false
  isOpen : next.isOpen = writer.canOpen fs.pending
  present : next.isOpen = true → after.file.isSome
  isOk : status.isOk = writer.appendSucceeds fs.pending line
  system : IsSystemStatus status

/-- **An append adds the accepted prefix of the record's line to the file.** -/
theorem appendRecord_spec {writer : WalFileWriter} {fs : FileSystem} (usable : writer.Usable fs)
    (record : ValidRecord) :
    Appended writer (recordLine record.val) fs (writer.appendRecord record.val fs).1
      (writer.appendRecord record.val fs).2.1 (writer.appendRecord record.val fs).2.2 := by
  have opened := openFile_spec usable
  unfold appendRecord
  rw [serialize_valid]
  simp only [usable.notClosed, Bool.false_eq_true, if_false, Result.success]
  obtain ⟨⟨openStatus, next, middle⟩, openEq⟩ : ∃ result, writer.openFile fs = result := ⟨_, rfl⟩
  simp only [openEq] at opened ⊢
  cases canOpen : writer.canOpen fs.pending with
  | false =>
      have failed : openStatus.isOk = false := opened.isOk.trans canOpen
      simp only [failed, Bool.not_false, if_true]
      exact ⟨by simp [opened.content, accepted, canOpen], opened.parent, opened.filePath,
        opened.options, opened.notClosed, opened.isOpen, opened.present,
        by simp [failed, appendSucceeds, canOpen], opened.system⟩
  | true =>
      have ok : openStatus.isOk = true := opened.isOk.trans canOpen
      have isOpen : next.isOpen = true := opened.isOpen.trans canOpen
      have written := writeAllLoop_spec next.fileDescriptor middle.pending.writes
        (recordLine record.val) middle
      simp only [ok, Bool.not_true, Bool.false_eq_true, if_false, writeAll]
      obtain ⟨⟨writeStatus, final⟩, writeEq⟩ : ∃ result, writeAllLoop next.fileDescriptor
        middle.pending.writes (recordLine record.val) middle = result := ⟨_, rfl⟩
      simp only [writeEq] at written ⊢
      rw [opened.writes, opened.content, opened.fsyncs, opened.parent] at written
      obtain ⟨content, parent, fsyncs, file, whole, system⟩ := written
      have present : final.file.isSome := file (opened.present isOpen)
      have whole' : writeStatus.isOk =
          (acceptedPrefix fs.pending.writes (recordLine record.val) == recordLine record.val) := by
        rw [Bool.eq_iff_iff, whole, beq_iff_eq]
      have content' : final.content =
          fs.content ++ writer.accepted fs.pending (recordLine record.val) := by
        rw [content, accepted, canOpen, if_pos rfl]
      cases writeOk : writeStatus.isOk with
      | false =>
          simp only [Bool.not_false, if_true]
          exact ⟨content', parent, opened.filePath, opened.options, opened.notClosed,
            opened.isOpen, fun _ => present,
            by rw [writeOk, appendSucceeds, ← whole', writeOk]; simp, system⟩
      | true =>
          simp only [Bool.not_true, Bool.false_eq_true, if_false, opened.options]
          by_cases sync : writer.options.syncPolicy = .fsyncEveryWrite
          · have synced := fsyncLoop_spec next.fileDescriptor final.pending.fsyncs final
            simp only [sync, if_true, syncFile, isOpen, Bool.not_true, Bool.false_eq_true, if_false]
            obtain ⟨⟨syncStatus, last⟩, syncEq⟩ : ∃ result, fsyncLoop next.fileDescriptor
              final.pending.fsyncs final = result := ⟨_, rfl⟩
            simp only [syncEq] at synced ⊢
            obtain ⟨sameFile, sameParent, syncOk, syncSystem⟩ := synced
            refine ⟨?_, sameParent.trans parent, opened.filePath, opened.options,
              opened.notClosed, opened.isOpen, fun _ => sameFile ▸ present, ?_, syncSystem⟩
            · rw [← content', FileSystem.content, FileSystem.content, sameFile]
            · rw [fsyncs] at syncOk
              rw [appendSucceeds, canOpen, ← whole', writeOk, sync, Bool.eq_iff_iff, syncOk]
              simp
          · simp only [sync, if_false]
            exact ⟨content', parent, opened.filePath, opened.options, opened.notClosed,
              opened.isOpen, fun _ => present,
              by rw [appendSucceeds, canOpen, ← whole', writeOk]; simp [sync], Or.inl rfl⟩

/-- An invalid record reaches neither the writer nor the file. -/
theorem appendRecord_invalid {writer : WalFileWriter} {fs : FileSystem} {record : WalRecord}
    (notClosed : writer.isClosed = false) (invalid : (validateWalRecord record).isOk = false) :
    writer.appendRecord record fs = (validateWalRecord record, writer, fs) := by
  rw [appendRecord, serialize_invalid invalid]
  simp [notClosed, Result.failure, Result.normalizeFailureStatus_val invalid]

/-- What an append accepts is a prefix of the line. -/
theorem accepted_prefix (writer : WalFileWriter) (outcomes : Outcomes) (line : Bytes) :
    writer.accepted outcomes line <+: line := by
  unfold accepted
  split
  · exact acceptedPrefix_prefix _ _
  · exact List.nil_prefix

/-- An append that returns OK has written the whole line. -/
theorem accepted_of_appendSucceeds {writer : WalFileWriter} {outcomes : Outcomes} {line : Bytes}
    (succeeds : writer.appendSucceeds outcomes line = true) :
    writer.accepted outcomes line = line := by
  simp only [appendSucceeds, Bool.and_eq_true, beq_iff_eq] at succeeds
  rw [accepted, if_pos succeeds.1.1, succeeds.1.2]

/-- Without failures an append returns OK. -/
theorem appendSucceeds_of_noFailure (writer : WalFileWriter) {outcomes : Outcomes}
    (clean : outcomes.NoFailure) (line : Bytes) : writer.appendSucceeds outcomes line = true := by
  simp [appendSucceeds, canOpen, openSucceeds_of_noFailure clean,
    acceptedPrefix_of_noFailure line clean.writes, retriedSucceeds_of_noFailure clean.fsyncs]

/-- The destructor leaves the file alone. -/
theorem destroy_keeps (writer : WalFileWriter) (fs : FileSystem) :
    (writer.destroy fs).file = fs.file ∧ (writer.destroy fs).parent = fs.parent ∧
      (fs.pending.NoFailure → (writer.destroy fs).pending.NoFailure) := by
  unfold destroy
  by_cases isOpen : writer.fileDescriptor ≠ invalidFileDescriptor
  · rw [if_pos isOpen]
    by_cases syncs : writer.options.syncPolicy ≠ .none
    · simp only [syncs, if_true, ne_eq, not_false_eq_true]
      refine ⟨rfl, rfl, fun clean => ?_⟩
      exact { clean with
        fsyncs := fun outcome member => clean.fsyncs outcome (List.mem_of_mem_tail member)
        closes := fun outcome member => clean.closes outcome (List.mem_of_mem_tail member) }
    · simp only [syncs, if_false]
      refine ⟨rfl, rfl, fun clean => ?_⟩
      exact { clean with
        closes := fun outcome member => clean.closes outcome (List.mem_of_mem_tail member) }
  · rw [if_neg isOpen]
    exact ⟨rfl, rfl, id⟩

end WalFileWriter

end AsterKV.Wal
