/-
# AsterKV.Wal.WriterLifecycle -- open, closed, and nothing after that

A writer has a descriptor and a closed flag.  The flag is set where `close` returns OK and
nowhere else, the descriptor is given back there and nowhere else, and with the flag set no
call gets as far as the kernel (`step_of_closed`).  A `close` that fails changes neither
(`close_of_open`), so it can be called again.
-/
import AsterKV.Wal.WriterRuns

namespace AsterKV.Wal

open AsterKV.Core Theory

set_option autoImplicit false

/-! ## What the loops leave alone -/

theorem fsyncLoop_closes (descriptor : Int) (outcomes : List CallOutcome) (fs : FileSystem) :
    (fsyncLoop descriptor outcomes fs).2.pending.closes = fs.pending.closes := by
  induction outcomes generalizing fs with
  | nil => rfl
  | cons outcome rest ih =>
      cases outcome with
      | done => rfl
      | failed errno =>
          rw [fsyncLoop]
          split
          · exact ih (fs.record (.fsync descriptor false))
          · rfl

namespace WalFileWriter

/-! ## A close -/

/-- A writer is named once it has a descriptor, and gives the descriptor back to be closed. -/
structure Sound (writer : WalFileWriter) : Prop where
  named : writer.isOpen = true → writer.filePath ≠ []
  notClosed : writer.isOpen = true → writer.isClosed = false

/-- The `close` of an open writer gets through. -/
def closeSucceeds (writer : WalFileWriter) (outcomes : Outcomes) : Bool :=
  (writer.options.syncPolicy == .none || retriedSucceeds outcomes.fsyncs) &&
    retriedSucceeds outcomes.closes

/-- A writer that was closed. -/
def closed (writer : WalFileWriter) : WalFileWriter :=
  { writer with fileDescriptor := invalidFileDescriptor, isClosed := true }

theorem openFile_of_open {writer : WalFileWriter} (sound : writer.Sound)
    (isOpen : writer.isOpen = true) (fs : FileSystem) : writer.openFile fs = (.ok, writer, fs) := by
  have named : writer.filePath.isEmpty = false := by simpa using sound.named isOpen
  simp [openFile, named, sound.notClosed isOpen, isOpen]

/-- What `flush` does with an open writer. -/
def syncUnlessNone (writer : WalFileWriter) (fs : FileSystem) : Status × FileSystem :=
  if writer.options.syncPolicy = .none then (.ok, fs)
  else fsyncLoop writer.fileDescriptor fs.pending.fsyncs fs

theorem syncUnlessNone_spec (writer : WalFileWriter) (fs : FileSystem) :
    (writer.syncUnlessNone fs).1.isOk =
        (writer.options.syncPolicy == .none || retriedSucceeds fs.pending.fsyncs) ∧
      (writer.syncUnlessNone fs).2.file = fs.file ∧
      (writer.syncUnlessNone fs).2.pending.closes = fs.pending.closes := by
  unfold syncUnlessNone
  by_cases policy : writer.options.syncPolicy = .none
  · simp [policy]
  · have synced := fsyncLoop_spec writer.fileDescriptor fs.pending.fsyncs fs
    obtain ⟨file, -, ok, -⟩ := synced
    rw [if_neg policy]
    refine ⟨?_, file, fsyncLoop_closes _ _ _⟩
    rw [Bool.eq_iff_iff, ok]
    simp [policy]

theorem flush_of_open {writer : WalFileWriter} (sound : writer.Sound)
    (isOpen : writer.isOpen = true) (fs : FileSystem) :
    writer.flush fs = ((writer.syncUnlessNone fs).1, writer, (writer.syncUnlessNone fs).2) := by
  simp only [flush, sound.notClosed isOpen, openFile_of_open sound isOpen fs, Status.isOk_ok,
    Bool.not_true, Bool.false_eq_true, if_false, syncFile, isOpen, syncUnlessNone]
  split <;> rfl

/-- The close of an open writer: a sync, and the descriptor given back. -/
theorem close_eq_of_open {writer : WalFileWriter} (sound : writer.Sound)
    (isOpen : writer.isOpen = true) (fs : FileSystem) :
    writer.close fs =
      let (syncStatus, synced) := writer.syncUnlessNone fs
      if !syncStatus.isOk then (syncStatus, writer, synced)
      else
        let (closeStatus, after) := closeFileDescriptor writer.fileDescriptor synced
        if !closeStatus.isOk then (closeStatus, writer, after) else (.ok, writer.closed, after) := by
  simp only [close, sound.notClosed isOpen, isOpen, flush_of_open sound isOpen, Bool.false_eq_true,
    if_false, if_true]
  rfl

/-- **A close either gets through or leaves the writer as it was.** -/
theorem close_of_open {writer : WalFileWriter} (sound : writer.Sound)
    (isOpen : writer.isOpen = true) (fs : FileSystem) :
    (writer.close fs).1.isOk = writer.closeSucceeds fs.pending ∧
      (writer.close fs).2.1 = (if writer.closeSucceeds fs.pending then writer.closed else writer) ∧
      (writer.close fs).2.2.file = fs.file := by
  obtain ⟨syncs, file, closes⟩ := syncUnlessNone_spec writer fs
  rw [close_eq_of_open sound isOpen, closeSucceeds]
  generalize writer.syncUnlessNone fs = result at syncs file closes ⊢
  obtain ⟨syncStatus, synced⟩ := result
  simp only at syncs file closes ⊢
  rw [← syncs]
  cases syncOk : syncStatus.isOk with
  | false => exact ⟨syncOk, rfl, file⟩
  | true =>
      have closed := closeLoop_isOk writer.fileDescriptor synced.pending.closes synced
      have sameFile := (closeLoop_keeps writer.fileDescriptor synced.pending.closes synced).2
      obtain ⟨⟨closeStatus, after⟩, closeEq⟩ : ∃ result,
        closeLoop writer.fileDescriptor synced.pending.closes synced = result := ⟨_, rfl⟩
      rw [closeEq] at closed sameFile
      rw [closes] at closed
      simp only at closed sameFile
      simp only [closeFileDescriptor, closeEq, Bool.not_true, Bool.false_eq_true, if_false,
        Bool.true_and, ← closed]
      cases closeOk : closeStatus.isOk with
      | false => simp [closeOk, sameFile, file]
      | true => simp [sameFile, file]

/-! ## Invariants of the runs -/

/-- Without a name no call opens the file. -/
theorem call_unnamed {writer : WalFileWriter} (unnamed : writer.filePath = [])
    (notOpen : writer.isOpen = false) (fs : FileSystem) (call : WriterCall) :
    (writer.call fs call).2.1.isOpen = false := by
  have refused : writer.openFile fs =
      (.invalidArgument (bytes "WAL file path must not be empty"), writer, fs) := by
    simp [openFile, unnamed]
  cases call with
  | openFile =>
      rw [WalFileWriter.call, refused]
      exact notOpen
  | append record =>
      rw [WalFileWriter.call, appendRecord, refused]
      split
      · exact notOpen
      · cases serialize record with
        | error failure => exact notOpen
        | ok line => exact notOpen
  | flush =>
      rw [WalFileWriter.call, flush, refused]
      split <;> exact notOpen
  | close =>
      rw [WalFileWriter.call, close, if_neg (by simp [notOpen] : ¬ writer.isOpen = true)]
      split <;> exact notOpen

/-- What every run of a writer keeps. -/
structure Steady (state : WalFileWriter × FileSystem) : Prop where
  coherent : state.1.Coherent state.2
  named : state.1.isOpen = true → state.1.filePath ≠ []

theorem Steady.sound {state : WalFileWriter × FileSystem} (steady : Steady state) :
    state.1.Sound where
  named := steady.named
  notClosed isOpen := by
    rw [← Bool.not_eq_true]
    intro closed
    rw [steady.coherent.closed closed] at isOpen
    cases isOpen

theorem steady_create (path : Bytes) (options : WalFileWriterOptions) (fs : FileSystem) :
    Steady (create path options, fs) :=
  ⟨coherent_create path options fs, fun isOpen => by cases isOpen⟩

theorem steady_step {state : WalFileWriter × FileSystem} (steady : Steady state)
    (request : Outcomes × WriterCall) : Steady (step state request).2 := by
  have effects := call_effects state.1 (state.2.facing request.1) request.2
  refine ⟨effects.coherent ⟨steady.coherent.closed, steady.coherent.present⟩, ?_⟩
  intro isOpen unnamed
  have before : state.1.filePath = [] := effects.filePath.symm.trans unnamed
  have notOpen : state.1.isOpen = false := by
    rw [← Bool.not_eq_true]
    exact fun isOpen => steady.named isOpen before
  have still : (step state request).2.1.isOpen = false := call_unnamed before notOpen _ _
  rw [still] at isOpen
  cases isOpen

theorem steady_after (path : Bytes) (options : WalFileWriterOptions) (fs : FileSystem)
    (requests : List (Outcomes × WriterCall)) :
    Steady (Machine.after step (create path options, fs) requests) := by
  refine Machine.after_invariant step ?_ (steady_create path options fs) requests
  intro state request steady
  exact steady_step steady request

/-! ## A closed writer -/

/-- No call of a closed writer reaches the kernel, and only a close returns OK. -/
theorem step_of_closed {state : WalFileWriter × FileSystem} (closed : state.1.isClosed = true)
    (outcomes : Outcomes) (call : WriterCall) :
    (step state (outcomes, call)).2 = (state.1, state.2.facing outcomes) ∧
      ((step state (outcomes, call)).1.isOk = true ↔ call = .close) := by
  cases call with
  | openFile =>
      by_cases unnamed : state.1.filePath = [] <;>
        simp [step, WalFileWriter.call, openFile, unnamed, closed]
  | append record => simp [step, WalFileWriter.call, appendRecord, closed]
  | flush => simp [step, WalFileWriter.call, flush, closed]
  | close => simp [step, WalFileWriter.call, WalFileWriter.close, closed]

theorem after_of_closed {state : WalFileWriter × FileSystem} (closed : state.1.isClosed = true)
    (later : List (Outcomes × WriterCall)) :
    ∃ outcomes, Machine.after step state later = (state.1, state.2.facing outcomes) := by
  have kept : ∀ (s : WalFileWriter × FileSystem) (request : Outcomes × WriterCall),
      (∃ outcomes, s = (state.1, state.2.facing outcomes)) →
        ∃ outcomes, (step s request).2 = (state.1, state.2.facing outcomes) := by
    rintro s ⟨outcomes, call⟩ ⟨before, rfl⟩
    have still : (state.1, state.2.facing before).1.isClosed = true := closed
    exact ⟨outcomes, (step_of_closed still outcomes call).1⟩
  exact Machine.after_invariant step kept ⟨state.2.pending, rfl⟩ later

/-- A close that returns OK has closed the writer. -/
theorem closed_of_close {writer : WalFileWriter} (sound : writer.Sound) {fs : FileSystem}
    (ok : (writer.close fs).1.isOk = true) :
    (writer.close fs).2.1.isClosed = true ∧ (writer.close fs).2.1.isOpen = false := by
  cases isOpen : writer.isOpen with
  | true =>
      obtain ⟨succeeds, next, -⟩ := close_of_open sound isOpen fs
      rw [next, ← succeeds, if_pos ok]
      exact ⟨rfl, rfl⟩
  | false =>
      cases closed : writer.isClosed with
      | true => simp [close, closed, isOpen]
      | false =>
          simp only [close, closed, isOpen, Bool.false_eq_true, if_false]
          exact ⟨trivial, isOpen⟩

/-- The destructor has nothing to give back. -/
theorem destroy_of_notOpen {writer : WalFileWriter} (notOpen : writer.isOpen = false)
    (fs : FileSystem) : writer.destroy fs = fs := by
  have none : writer.fileDescriptor = invalidFileDescriptor := by simpa [isOpen] using notOpen
  rw [destroy, if_neg (by simpa using none)]

/-! ## The life of a writer -/

/-- What holds of a writer and its file system between two calls. -/
structure Lifecycle (state : WalFileWriter × FileSystem) : Prop where
  /-- After a close that returned OK, whatever is called: nothing is open, no system call is
  made any more, the destructor included, and only another close returns OK. -/
  closed : ∀ outcomes, (step state (outcomes, .close)).1.isOk = true →
    ∀ later, let last := Machine.after step (step state (outcomes, .close)).2 later
      last.1.isOpen = false ∧
      last.2.file = (step state (outcomes, .close)).2.2.file ∧
      last.2.calls = (step state (outcomes, .close)).2.2.calls ∧
      last.1.destroy last.2 = last.2 ∧
      ∀ answers call, (step last (answers, call)).1.isOk = true ↔ call = .close
  /-- After a close that failed the writer is open as before, and the next close returns OK
  exactly when the kernel lets it. -/
  retry : ∀ outcomes, (step state (outcomes, .close)).1.isOk = false →
    (step state (outcomes, .close)).2.1 = state.1 ∧
    (step state (outcomes, .close)).2.2.file = state.2.file ∧
    state.1.isOpen = true ∧ state.1.isClosed = false ∧
    ∀ answers, (step (step state (outcomes, .close)).2 (answers, .close)).1.isOk =
      state.1.closeSucceeds answers
  invalid : ∀ outcomes record, (validateWalRecord record).isOk = false →
    (step state (outcomes, .append record)).1.isOk = false ∧
      (step state (outcomes, .append record)).2 = (state.1, state.2.facing outcomes)

/-- **The life of a writer.**  Whatever was called on it before, and however each of the
calls ended. -/
theorem writer_lifecycle (path : Bytes) (options : WalFileWriterOptions) (fs : FileSystem)
    (requests : List (Outcomes × WriterCall)) :
    Lifecycle (Machine.after step (create path options, fs) requests) := by
  have sound := (steady_after path options fs requests).sound
  generalize Machine.after step (create path options, fs) requests = state at sound
  constructor
  case closed =>
    intro outcomes ok later last
    obtain ⟨isClosed, notOpen⟩ := closed_of_close sound ok
    obtain ⟨pending, ends⟩ := after_of_closed isClosed later
    have same : last = ((step state (outcomes, .close)).2.1,
        (step state (outcomes, .close)).2.2.facing pending) := ends
    clear_value last
    subst same
    refine ⟨notOpen, rfl, rfl, destroy_of_notOpen notOpen _, fun answers call => ?_⟩
    exact (step_of_closed isClosed answers call).2
  case retry =>
    intro outcomes failed
    have isOpen : state.1.isOpen = true := by
      rw [← Bool.not_eq_false]
      intro notOpen
      have succeeds : (step state (outcomes, .close)).1.isOk = true := by
        simp only [step, call, close, notOpen, Bool.false_eq_true, if_false]
        split <;> rfl
      rw [succeeds] at failed
      cases failed
    obtain ⟨succeeds, next, file⟩ := close_of_open sound isOpen (state.2.facing outcomes)
    have same : (step state (outcomes, .close)).2.1 = state.1 := by
      have no : state.1.closeSucceeds (state.2.facing outcomes).pending = false :=
        succeeds.symm.trans failed
      exact next.trans (if_neg (by simp [no]))
    refine ⟨same, file, isOpen, sound.notClosed isOpen, fun answers => ?_⟩
    have again := close_of_open sound isOpen ((step state (outcomes, .close)).2.2.facing answers)
    rw [step, same]
    exact again.1
  case invalid =>
    intro outcomes record invalid
    cases closed : state.1.isClosed with
    | true =>
        have refused := step_of_closed closed outcomes (.append record)
        exact ⟨by simpa using refused.2, refused.1⟩
    | false =>
        have refused : step state (outcomes, .append record) =
            (validateWalRecord record, state.1, state.2.facing outcomes) :=
          appendRecord_invalid closed invalid
        rw [refused]
        exact ⟨invalid, rfl⟩

end WalFileWriter

end AsterKV.Wal
