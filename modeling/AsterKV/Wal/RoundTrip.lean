/-
# AsterKV.Wal.RoundTrip -- what is appended is what is read

A log file is used by one writer after another and, in between, by appends that bring a
writer of their own.  As long as no system call fails (short writes are continued and
interrupted calls repeated), every use leaves the lines of the records appended so far
in the file and nothing else (`Holds`), so the reader returns exactly these records
(`file_round_trip`).  There no `close` is interrupted: the kernel has released the
descriptor by then, and the `close` that repeats the call fails.  An absent file is only created by the first writer that opens it:
before that there is nothing to read (`absent_file_unread`).
-/
import AsterKV.Wal.FileReader
import AsterKV.Wal.WriterRuns

namespace AsterKV.Wal

open AsterKV.Core Theory

set_option autoImplicit false

/-- One use of the log file. -/
inductive LogUse where
  /-- A new writer takes the place of the one before, which is destroyed. -/
  | create (options : WalFileWriterOptions)
  | call (call : WriterCall)
  | once (options : WalFileWriterOptions) (record : WalRecord)
  deriving DecidableEq, Repr

namespace LogUse

def record? : LogUse → Option WalRecord
  | .call (.append record) | .once _ record => some record
  | _ => none

def step (state : WalFileWriter × FileSystem) (request : Outcomes × LogUse) :
    Status × WalFileWriter × FileSystem :=
  match request.2 with
  | .create options =>
      (.ok, WalFileWriter.create state.1.filePath options,
        state.1.destroy (state.2.facing request.1))
  | .call c => WalFileWriter.step state (request.1, c)
  | .once options record =>
      let (status, fs) :=
        appendWalRecordToFile state.1.filePath record options (state.2.facing request.1)
      (status, state.1, fs)

/-- No append goes to a writer that was closed. -/
def ToOpenWriter (state : WalFileWriter × FileSystem) (request : Outcomes × LogUse) : Prop :=
  match request.2 with
  | .call (.append _) => state.1.isClosed = false
  | _ => True

instance : ∀ (state : WalFileWriter × FileSystem) (request : Outcomes × LogUse),
    Decidable (ToOpenWriter state request)
  | state, (_, .call (.append _)) => inferInstanceAs (Decidable (state.1.isClosed = false))
  | _, (_, .call .openFile) | _, (_, .call .flush) | _, (_, .call .close) | _, (_, .create _)
  | _, (_, .once _ _) => inferInstanceAs (Decidable True)

/-- The records of the appends, in order. -/
def appended (uses : List (Outcomes × LogUse)) : List WalRecord :=
  uses.filterMap fun use => use.2.record?

end LogUse

/-! ## Calls that end in success -/

namespace WalFileWriter

theorem syncFile_isOk {writer : WalFileWriter} {fs : FileSystem} (isOpen : writer.isOpen = true)
    (clean : fs.pending.NoFailure) : (writer.syncFile fs).1.isOk = true := by
  rw [syncFile, isOpen]
  have status := (fsyncLoop_spec writer.fileDescriptor fs.pending.fsyncs fs).2.2.1
  exact status.2 (retriedSucceeds_of_noFailure clean.fsyncs)

theorem openFile_isOpen {writer : WalFileWriter} {fs : FileSystem} (usable : writer.Usable fs)
    (isOpen : writer.isOpen = true) : writer.openFile fs = (.ok, writer, fs) := by
  simp [openFile, usable.named, usable.notClosed, isOpen]

theorem close_isOk {writer : WalFileWriter} {fs : FileSystem} (usable : writer.Usable fs)
    (isOpen : writer.isOpen = true) (clean : fs.pending.NoFailure) :
    (writer.close fs).1.isOk = true := by
  have closes : ∀ (fs : FileSystem), fs.pending.NoFailure →
      (closeFileDescriptor writer.fileDescriptor fs).1.isOk = true :=
    fun fs clean => (closeLoop_isOk _ _ fs).trans (retriedSucceeds_of_noFailure clean.closes)
  unfold close flush
  simp only [openFile_isOpen usable isOpen, usable.notClosed, isOpen, Status.isOk_ok,
    Bool.false_eq_true, Bool.not_true, if_false, if_true]
  by_cases none : writer.options.syncPolicy = .none
  · simp [none, closes fs clean]
  · have synced := syncFile_isOk isOpen clean
    have after := closes _ ((carries_syncFile writer fs).clean clean)
    simp [none, synced, after]

end WalFileWriter

/-- An append with a writer of its own. -/
theorem appendWalRecordToFile_spec {path : Bytes} (named : path ≠ []) (record : ValidRecord)
    (options : WalFileWriterOptions) (fs : FileSystem) (clean : fs.pending.NoFailure) :
    (appendWalRecordToFile path record.val options fs).1.isOk = true ∧
      (appendWalRecordToFile path record.val options fs).2.content =
        fs.content ++ recordLine record.val ∧
      (fs.file.isSome → (appendWalRecordToFile path record.val options fs).2.file.isSome) := by
  have usable : (WalFileWriter.create path options).Usable fs :=
    ⟨named, rfl, fun isOpen => by cases isOpen⟩
  have appended := WalFileWriter.appendRecord_spec usable record
  have keeps := (WalFileWriter.appendRecord_effects (WalFileWriter.create path options)
    record.val fs).toKeeps
  have succeeds := (WalFileWriter.create path options).appendSucceeds_of_noFailure clean
    (recordLine record.val)
  unfold appendWalRecordToFile
  generalize (WalFileWriter.create path options).appendRecord record.val fs = result
    at appended keeps ⊢
  obtain ⟨appendStatus, writer, middle⟩ := result
  simp only at appended keeps ⊢
  have content : middle.content = fs.content ++ recordLine record.val := by
    rw [appended.content, WalFileWriter.accepted_of_appendSucceeds succeeds]
  have ready : writer.Usable middle :=
    ⟨appended.filePath ▸ named, appended.notClosed, appended.present⟩
  have isOpen : writer.isOpen = true := by
    rw [appended.isOpen, WalFileWriter.canOpen, openSucceeds_of_noFailure clean, Bool.or_true]
  have closes := WalFileWriter.close_isOk ready isOpen (keeps.carries.clean clean)
  have closed := WalFileWriter.close_effects writer middle
  simp only [appended.isOk.trans succeeds, Bool.not_true, Bool.false_eq_true, if_false]
  obtain ⟨bytes, same, -, nothing, -⟩ := closed.added
  rw [List.prefix_nil.1 nothing, List.append_nil] at same
  have file := (WalFileWriter.destroy_keeps (writer.close middle).2.1 (writer.close middle).2.2).1
  refine ⟨closes, ?_, fun present => ?_⟩
  · rw [← content, ← same, FileSystem.content, file]
    rfl
  · rw [file]
    exact closed.carries.file (keeps.carries.file present)

namespace LogUse

/-! ## What the file holds -/

/-- The file holds the lines of these records, and is still there if it was at first. -/
structure Holds (path : Bytes) (start : FileSystem) (records : List WalRecord)
    (state : WalFileWriter × FileSystem) : Prop where
  filePath : state.1.filePath = path
  coherent : state.1.Coherent state.2
  content : state.2.content = logBytes records
  file : start.file.isSome → state.2.file.isSome

theorem logBytes_snoc (records : List WalRecord) (record : WalRecord) :
    logBytes (records ++ [record]) = logBytes records ++ recordLine record := by
  simp [logBytes]

/-- A call adds its line; appends to a writer that is not closed return OK. -/
theorem call_adds {writer : WalFileWriter} {fs : FileSystem} (named : writer.filePath ≠ [])
    (coherent : writer.Coherent fs) (clean : fs.pending.NoFailure) {c : WriterCall}
    (valid : ∀ record ∈ (LogUse.call c).record?, (validateWalRecord record).isOk = true)
    (toOpen : ∀ record, c = .append record → writer.isClosed = false) :
    ((LogUse.call c).record?.isSome → (writer.call fs c).1.isOk = true) ∧
      (writer.call fs c).2.2.content = fs.content ++ c.line := by
  obtain ⟨bytes, added, -, front, all⟩ := (writer.call_effects fs c).added
  cases c with
  | append record =>
      have usable : writer.Usable fs := ⟨named, toOpen record rfl, coherent.present⟩
      have appended := WalFileWriter.appendRecord_spec usable ⟨record, valid record rfl⟩
      have ok : (writer.call fs (.append record)).1.isOk = true :=
        appended.isOk.trans (writer.appendSucceeds_of_noFailure clean _)
      refine ⟨fun _ => ok, ?_⟩
      rw [added, all ok]
  | openFile | flush | close =>
      have nothing : bytes = [] := List.prefix_nil.1 front
      refine ⟨fun appends => (by cases appends), ?_⟩
      rw [added, nothing]
      rfl

/-- One use adds the line of its record, if it has one, and that append returns OK. -/
theorem holds_step {path : Bytes} (named : path ≠ []) {start : FileSystem}
    {records : List WalRecord} {state : WalFileWriter × FileSystem}
    (holds : Holds path start records state) {request : Outcomes × LogUse}
    (clean : request.1.NoFailure)
    (valid : ∀ record ∈ request.2.record?, (validateWalRecord record).isOk = true)
    (toOpen : ToOpenWriter state request) :
    (request.2.record?.isSome → (step state request).1.isOk = true) ∧
      Holds path start (records ++ request.2.record?.toList) (step state request).2 := by
  obtain ⟨writer, fs⟩ := state
  obtain ⟨outcomes, use⟩ := request
  obtain ⟨filePath, coherent, content, file⟩ := holds
  simp only at filePath coherent content file clean valid
  have writerNamed : writer.filePath ≠ [] := filePath ▸ named
  cases use with
  | create options =>
      have same := (writer.destroy_keeps (fs.facing outcomes)).1
      refine ⟨fun appends => (by cases appends), filePath,
        WalFileWriter.coherent_create _ _ _, ?_, ?_⟩
      · simp only [step, record?, Option.toList_none, List.append_nil]
        rw [FileSystem.content, same]
        exact content
      · intro there
        simp only [step]
        rw [same]
        exact file there
  | call c =>
      have before : writer.Coherent (fs.facing outcomes) := ⟨coherent.closed, coherent.present⟩
      have keeps := (writer.call_effects (fs.facing outcomes) c).toKeeps
      obtain ⟨ok, added⟩ := call_adds writerNamed before clean valid fun record same => by
        subst same
        exact toOpen
      refine ⟨ok, keeps.filePath.trans filePath, keeps.coherent before, ?_,
        fun there => keeps.carries.file (file there)⟩
      show (writer.call (fs.facing outcomes) c).2.2.content = _
      have content : (fs.facing outcomes).content = logBytes records := content
      rw [added, content]
      cases c with
      | append record => exact (logBytes_snoc records record).symm
      | openFile | flush | close => simp [record?, WriterCall.line]
  | once options record =>
      obtain ⟨ok, added, there⟩ := appendWalRecordToFile_spec writerNamed
        ⟨record, valid record rfl⟩ options (fs.facing outcomes) clean
      refine ⟨fun _ => ok, filePath, ⟨coherent.closed, fun isOpen => there (coherent.present isOpen)⟩,
        ?_, fun present => there (file present)⟩
      rw [record?, Option.toList_some, logBytes_snoc, ← content]
      exact added

/-- The same over a whole run. -/
theorem holds_run {path : Bytes} (named : path ≠ []) {start : FileSystem}
    {uses : List (Outcomes × LogUse)} {records : List WalRecord}
    {state : WalFileWriter × FileSystem} (holds : Holds path start records state)
    (clean : ∀ use ∈ uses, use.1.NoFailure)
    (valid : ∀ record ∈ appended uses, (validateWalRecord record).isOk = true)
    (toOpen : Machine.Steps step ToOpenWriter state uses) :
    (∀ answered ∈ uses.zip (Machine.run step state uses).1,
      answered.1.2.record?.isSome → answered.2.isOk = true) ∧
      Holds path start (records ++ appended uses) (Machine.run step state uses).2 := by
  induction uses generalizing records state with
  | nil =>
      refine ⟨fun answered member => (by cases member), ?_⟩
      rw [appended, List.filterMap_nil, List.append_nil]
      exact holds
  | cons use rest ih =>
      have all : appended (use :: rest) = use.2.record?.toList ++ appended rest := by
        cases record : use.2.record? <;> simp [appended, record]
      rw [all] at valid ⊢
      obtain ⟨ok, next⟩ := holds_step named holds (clean use List.mem_cons_self)
        (fun record member => valid record (List.mem_append_left _ (by simpa using member)))
        toOpen.1
      obtain ⟨oks, last⟩ := ih next (fun use member => clean use (List.mem_cons_of_mem _ member))
        (fun record member => valid record (List.mem_append_right _ member)) toOpen.2
      rw [List.append_assoc] at last
      refine ⟨fun answered member => ?_, last⟩
      rcases List.mem_cons.1 member with rfl | later
      · exact ok
      · exact oks answered later

/-- No system call fails, and no `close` has to be repeated. -/
structure ClosedAtOnce (outcomes : Outcomes) : Prop extends outcomes.NoFailure where
  atOnce : ∀ outcome ∈ outcomes.closes, outcome = .done

/-- **Records go through the file unchanged.**  Whatever mixture of writers and single
appends wrote them, under whatever sync policies, however the writes were cut up and
interrupted: every append returned OK, the file holds the lines of the records in order,
and as soon as there is a file the reader returns the records. -/
theorem file_round_trip {path : Bytes} (named : path ≠ []) (options : WalFileWriterOptions)
    (fs : FileSystem) (start : fs.content = []) {uses : List (Outcomes × LogUse)}
    (clean : ∀ use ∈ uses, ClosedAtOnce use.1)
    (valid : ∀ record ∈ appended uses, (validateWalRecord record).isOk = true)
    (toOpen : Machine.Steps step ToOpenWriter (WalFileWriter.create path options, fs) uses) :
    let run := Machine.run step (WalFileWriter.create path options, fs) uses
    (∀ answered ∈ uses.zip run.1, answered.1.2.record?.isSome → answered.2.isOk = true) ∧
    run.2.2.content = logBytes (appended uses) ∧
    (appended uses ≠ [] ∨ fs.file.isSome → run.2.2.file.isSome) ∧
    ∀ outcomes : Outcomes, outcomes.NoFailure →
      readRecordsFromFile path (run.2.2.facing outcomes) =
        if run.2.2.file.isSome then .success (appended uses)
        else .failure (.unavailable (bytes "failed to open WAL file for read")) := by
  intro run
  have holds : Holds path fs [] (WalFileWriter.create path options, fs) :=
    ⟨rfl, WalFileWriter.coherent_create path options fs, start, id⟩
  obtain ⟨ok, last⟩ := holds_run named holds (fun use member => (clean use member).toNoFailure)
    valid toOpen
  rw [List.nil_append] at last
  have content : run.2.2.content = logBytes (appended uses) := last.content
  refine ⟨ok, content, ?_, ?_⟩
  · rintro (wrote | there)
    · cases file : run.2.2.file with
      | some _ => rfl
      | none =>
          rw [FileSystem.content, file] at content
          have read := readContent_logBytes valid
          rw [← content] at read
          exact absurd (Except.ok.inj read).symm wrote
    · exact last.file there
  · intro outcomes noFailure
    cases file : run.2.2.file with
    | none =>
        have absent : (run.2.2.facing outcomes).file = none := file
        simp [readRecordsFromFile, named, absent]
    | some found =>
        have present : (run.2.2.facing outcomes).file = some found := file
        rw [readRecordsFromFile_of_noFailure named present noFailure]
        rw [FileSystem.content, file] at content
        have same : found = logBytes (appended uses) := content
        rw [same]
        exact readContent_logBytes valid

/-- Two writers and an append of its own, with a short write and interruptions. -/
theorem file_round_trip_mixed :
    let first := makeSetRecord 7 (bytes "k") [10, 32]
    let second := makeDelRecord 3 (bytes "k")
    let uses : List (Outcomes × LogUse) :=
      [({ writes := [.accepted 4, .failed .interrupted] }, .call (.append first)),
        ({}, .once { syncPolicy := .none } second), ({}, .create {}), ({}, .call (.append first)),
        ({ fsyncs := [.failed .interrupted] }, .call .close)]
    let run := Machine.run step (WalFileWriter.create (bytes "wal") {}, .holding none) uses
    readRecordsFromFile (bytes "wal") (run.2.2.facing {}) =
      .success [first, second, first] := by
  intro first second uses run
  have clean : ∀ use ∈ uses, ClosedAtOnce use.1 := by
    intro use member
    simp only [uses, List.mem_cons, List.not_mem_nil, or_false] at member
    rcases member with rfl | rfl | rfl | rfl | rfl
    · exact { Outcomes.noFailure_default with writes := by simp, atOnce := by simp }
    · exact { Outcomes.noFailure_default with atOnce := by simp }
    · exact { Outcomes.noFailure_default with atOnce := by simp }
    · exact { Outcomes.noFailure_default with atOnce := by simp }
    · exact { Outcomes.noFailure_default with fsyncs := by simp, atOnce := by simp }
  have named : bytes "wal" ≠ [] := by decide
  have trip := file_round_trip named {} (.holding none) rfl clean (by decide) (by decide)
  have there : run.2.2.file.isSome = true := trip.2.2.1 (Or.inl (by decide))
  have read := trip.2.2.2 {} Outcomes.noFailure_default
  rw [if_pos there] at read
  exact read

/-- No record, no file, and no writer that was opened: there is nothing to read. -/
theorem absent_file_unread :
    let run := Machine.run step (WalFileWriter.create (bytes "wal") {}, .holding none) []
    appended [] = [] ∧ run.2.2.content = [] ∧
      readRecordsFromFile (bytes "wal") (run.2.2.facing {}) =
        .failure (.unavailable (bytes "failed to open WAL file for read")) := by
  decide

end LogUse

end AsterKV.Wal
