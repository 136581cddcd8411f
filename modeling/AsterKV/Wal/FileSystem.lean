/-
# AsterKV.Wal.FileSystem -- the file the log lives in, and what the kernel may answer

The log code reaches the operating system through `open`, `write`, `fsync`,
`close`, a stream that reads the file back and a few `std::filesystem` probes.
`Outcomes` is what the kernel is going to answer to the next calls, one list per
system call; a list that runs out answers with plain success.  Any finite run of
the real code is one choice of these lists: short writes, interruptions, failures
at any byte, failed syncs after complete writes.

`calls` records every system call in order, with its descriptor.
-/
import AsterKV.Core.Status

namespace AsterKV.Wal

open AsterKV.Core

set_option autoImplicit false

/-- `errno` after a failed call.  Only `EINTR` is told apart by the code. -/
inductive Errno where
  | interrupted
  | other (description : Bytes)
  deriving DecidableEq, Repr

/-- `std::strerror`. -/
def Errno.strerror : Errno → Bytes
  | .interrupted => bytes "Interrupted system call"
  | .other description => description

/-- How one `open`, `fsync` or `close` ends. -/
inductive CallOutcome where
  | done
  | failed (errno : Errno)
  deriving DecidableEq, Repr

/-- How one `write` ends: `accepted n` takes `n + 1` bytes, or all when fewer are
left; `stalled` returns 0 and leaves an `errno` from some earlier call. -/
inductive WriteOutcome where
  | accepted (more : Nat)
  | stalled (errno : Errno)
  | failed (errno : Errno)
  deriving DecidableEq, Repr

/-- What the next system calls are going to answer. -/
structure Outcomes where
  /-- `std::filesystem::exists` on the log file reports an error. -/
  inspectFails : Bool := false
  /-- The read stream does not open. -/
  readOpenFails : Bool := false
  /-- The read stream turns bad after this many bytes. -/
  readStops : Option Nat := none
  opens : List CallOutcome := []
  writes : List WriteOutcome := []
  fsyncs : List CallOutcome := []
  closes : List CallOutcome := []
  deriving DecidableEq, Repr

/-- The answer of a `std::filesystem` test together with its `error_code`. -/
structure Probe where
  answer : Bool
  error : Bool
  deriving DecidableEq, Repr

/-- What the log path's `parent_path()` is. -/
inductive ParentPath where
  | empty
  | entry (isPresent isDirectory : Probe)
  deriving DecidableEq, Repr

inductive SystemCall where
  | opened (descriptor : Int)
  | openFailed
  | wrote (descriptor : Int) (data : Bytes)
  | writeFailed (descriptor : Int)
  | fsync (descriptor : Int) (done : Bool)
  | close (descriptor : Int) (done : Bool)
  deriving DecidableEq, Repr

structure FileSystem where
  parent : ParentPath
  /-- The file at the log path, `none` when there is none. -/
  file : Option Bytes
  nextDescriptor : Nat
  calls : List SystemCall
  pending : Outcomes
  deriving DecidableEq, Repr

namespace FileSystem

/-- A file, or none, in the current directory, with nothing failing. -/
def holding (file : Option Bytes) : FileSystem :=
  { parent := .empty, file := file, nextDescriptor := 3, calls := [], pending := {} }

/-- The bytes a reader of the file would see, none when it is absent. -/
def content (fs : FileSystem) : Bytes := fs.file.getD []

def record (fs : FileSystem) (call : SystemCall) : FileSystem :=
  { fs with calls := fs.calls ++ [call] }

/-- `open(path, O_WRONLY | O_CREAT | O_APPEND | O_CLOEXEC, ...)`: the descriptor, or
the `errno`.  The file is created empty when it was absent. -/
def sysOpen (fs : FileSystem) : Except Errno Int × FileSystem :=
  match fs.pending.opens with
  | .failed errno :: rest => (.error errno, { fs with pending.opens := rest }.record .openFailed)
  | outcomes =>
      (.ok fs.nextDescriptor,
        { fs with
            file := some fs.content
            nextDescriptor := fs.nextDescriptor + 1
            pending.opens := outcomes.tail }.record (.opened fs.nextDescriptor))

/-- A `write` on an append-only descriptor that took these bytes. -/
def append (fs : FileSystem) (descriptor : Int) (data : Bytes) : FileSystem :=
  { fs with file := some (fs.content ++ data) }.record (.wrote descriptor data)

@[simp] theorem content_record (fs : FileSystem) (call : SystemCall) :
    (fs.record call).content = fs.content := rfl
@[simp] theorem file_record (fs : FileSystem) (call : SystemCall) :
    (fs.record call).file = fs.file := rfl
@[simp] theorem parent_record (fs : FileSystem) (call : SystemCall) :
    (fs.record call).parent = fs.parent := rfl
@[simp] theorem content_append (fs : FileSystem) (descriptor : Int) (data : Bytes) :
    (fs.append descriptor data).content = fs.content ++ data := rfl
@[simp] theorem parent_append (fs : FileSystem) (descriptor : Int) (data : Bytes) :
    (fs.append descriptor data).parent = fs.parent := rfl

end FileSystem

/-! ## Outcomes read as a whole -/

/-- The part of `data` that a write loop gets into the file. -/
def acceptedPrefix : List WriteOutcome → Bytes → Bytes
  | _, [] => []
  | [], data => data
  | .accepted more :: rest, data =>
      data.take (more + 1) ++ acceptedPrefix rest (data.drop (more + 1))
  | .stalled _ :: _, _ => []
  | .failed errno :: rest, data =>
      if errno = .interrupted then acceptedPrefix rest data else []

/-- A call retried while interrupted ends in success. -/
def retriedSucceeds : List CallOutcome → Bool
  | [] => true
  | .done :: _ => true
  | .failed errno :: rest => errno == .interrupted && retriedSucceeds rest

/-- The next `open` succeeds. -/
def openSucceeds (outcomes : List CallOutcome) : Bool :=
  match outcomes with
  | .failed _ :: _ => false
  | _ => true

/-- No system call fails: interruptions are retried and short writes continued. -/
structure Outcomes.NoFailure (outcomes : Outcomes) : Prop where
  inspect : outcomes.inspectFails = false
  readOpen : outcomes.readOpenFails = false
  read : outcomes.readStops = none
  opens : ∀ outcome ∈ outcomes.opens, outcome = .done
  writes : ∀ outcome ∈ outcomes.writes,
    outcome = .failed .interrupted ∨ ∃ more, outcome = .accepted more
  fsyncs : ∀ outcome ∈ outcomes.fsyncs, outcome = .done ∨ outcome = .failed .interrupted
  closes : ∀ outcome ∈ outcomes.closes, outcome = .done ∨ outcome = .failed .interrupted

/-- The kernel that answers every call with plain success. -/
theorem Outcomes.noFailure_default : ({} : Outcomes).NoFailure where
  inspect := rfl
  readOpen := rfl
  read := rfl
  opens := by simp
  writes := by simp
  fsyncs := by simp
  closes := by simp

theorem acceptedPrefix_prefix (outcomes : List WriteOutcome) (data : Bytes) :
    acceptedPrefix outcomes data <+: data := by
  induction outcomes generalizing data with
  | nil => cases data <;> simp [acceptedPrefix]
  | cons outcome rest ih =>
      cases data with
      | nil => simp [acceptedPrefix]
      | cons b data =>
          cases outcome with
          | accepted more =>
              obtain ⟨left, split⟩ := ih ((b :: data).drop (more + 1))
              refine ⟨left, ?_⟩
              rw [acceptedPrefix, List.append_assoc, split, List.take_append_drop]
              simp
          | stalled errno => simp [acceptedPrefix]
          | failed errno =>
              rw [acceptedPrefix]
              · split
                · exact ih _
                · exact List.nil_prefix
              · simp

theorem acceptedPrefix_of_noFailure {outcomes : List WriteOutcome} (data : Bytes)
    (clean : ∀ outcome ∈ outcomes,
      outcome = .failed .interrupted ∨ ∃ more, outcome = .accepted more) :
    acceptedPrefix outcomes data = data := by
  induction outcomes generalizing data with
  | nil => cases data <;> simp [acceptedPrefix]
  | cons outcome rest ih =>
      have ih := fun data => ih data fun o member => clean o (List.mem_cons_of_mem _ member)
      cases data with
      | nil => simp [acceptedPrefix]
      | cons b data =>
          rcases clean outcome List.mem_cons_self with rfl | ⟨more, rfl⟩
          · simp [acceptedPrefix, ih]
          · rw [acceptedPrefix, ih, List.take_append_drop]
            simp

theorem openSucceeds_of_noFailure {outcomes : Outcomes} (clean : outcomes.NoFailure) :
    openSucceeds outcomes.opens = true := by
  unfold openSucceeds
  split
  · rename_i errno rest shape
    cases clean.opens (.failed errno) (shape ▸ List.mem_cons_self)
  · rfl

theorem retriedSucceeds_of_noFailure {outcomes : List CallOutcome}
    (clean : ∀ outcome ∈ outcomes, outcome = .done ∨ outcome = .failed .interrupted) :
    retriedSucceeds outcomes = true := by
  induction outcomes with
  | nil => rfl
  | cons outcome rest ih =>
      rcases clean outcome List.mem_cons_self with rfl | rfl
      · rfl
      · simp [retriedSucceeds, ih fun o member => clean o (List.mem_cons_of_mem _ member)]

end AsterKV.Wal
