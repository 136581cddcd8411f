/-
# AsterKV.Core.Status -- status codes and results

`Core::Status` is a code with a message.  `Core::Result<T>` holds a value or a
failing status: its constructor replaces an OK status by an internal error, so a
failure is never OK (`Failure`), and the embedding makes that a field.
-/
import AsterKV.Core.Bytes

namespace AsterKV.Core

set_option autoImplicit false

inductive ErrorCode where
  | ok
  | unknown
  | invalidArgument
  | notFound
  | alreadyExists
  | conflict
  | unavailable
  | internal
  deriving DecidableEq, Repr

def errorCodeToString : ErrorCode → Bytes
  | .ok => bytes "ok"
  | .unknown => bytes "unknown"
  | .invalidArgument => bytes "invalid_argument"
  | .notFound => bytes "not_found"
  | .alreadyExists => bytes "already_exists"
  | .conflict => bytes "conflict"
  | .unavailable => bytes "unavailable"
  | .internal => bytes "internal"

structure Status where
  code : ErrorCode
  message : Bytes
  deriving DecidableEq, Repr

namespace Status

def ok : Status := ⟨.ok, []⟩

def invalidArgument (message : Bytes) : Status := ⟨.invalidArgument, message⟩

def notFound (message : Bytes) : Status := ⟨.notFound, message⟩

def unavailable (message : Bytes) : Status := ⟨.unavailable, message⟩

def internalError (message : Bytes) : Status := ⟨.internal, message⟩

def isOk (status : Status) : Bool := status.code == .ok

def codeString (status : Status) : Bytes := errorCodeToString status.code

@[simp] theorem isOk_ok : ok.isOk = true := rfl
@[simp] theorem isOk_invalidArgument (m : Bytes) : (invalidArgument m).isOk = false := rfl
@[simp] theorem isOk_notFound (m : Bytes) : (notFound m).isOk = false := rfl
@[simp] theorem isOk_unavailable (m : Bytes) : (unavailable m).isOk = false := rfl
@[simp] theorem isOk_internalError (m : Bytes) : (internalError m).isOk = false := rfl

end Status

/-- The status a `Result` can hold: never OK. -/
abbrev Failure := { status : Status // status.isOk = false }

instance decidableEqExcept {ε α : Type} [DecidableEq ε] [DecidableEq α] :
    DecidableEq (Except ε α)
  | .error a, .error b => decidable_of_iff (a = b) ⟨congrArg _, Except.error.inj⟩
  | .ok a, .ok b => decidable_of_iff (a = b) ⟨congrArg _, Except.ok.inj⟩
  | .error _, .ok _ => isFalse fun same => by cases same
  | .ok _, .error _ => isFalse fun same => by cases same

/-- `Core::Result<T>`. -/
abbrev Result (T : Type) := Except Failure T

namespace Result

variable {T : Type}

def normalizeFailureStatus (status : Status) : Failure :=
  if h : status.isOk = false then ⟨status, h⟩
  else ⟨.internalError (bytes "Result failure cannot be constructed from OK status."), rfl⟩

def success (value : T) : Result T := .ok value

def failure (status : Status) : Result T := .error (normalizeFailureStatus status)

def isOk : Result T → Bool
  | .ok _ => true
  | .error _ => false

def isError (result : Result T) : Bool := !result.isOk

def status : Result T → Status
  | .ok _ => .ok
  | .error failure => failure.val

theorem normalizeFailureStatus_val {status : Status} (h : status.isOk = false) :
    (normalizeFailureStatus status).val = status := by
  simp [normalizeFailureStatus, h]

@[simp] theorem isOk_success (value : T) : isOk (success value) = true := rfl
@[simp] theorem isOk_failure (status : Status) : isOk (failure status : Result T) = false := rfl
@[simp] theorem status_success (value : T) : status (success value) = .ok := rfl

theorem isOk_iff {result : Result T} : result.isOk = true ↔ ∃ value, result = success value := by
  cases result with
  | ok value => exact ⟨fun _ => ⟨value, rfl⟩, fun _ => rfl⟩
  | error failure => exact ⟨fun h => (Bool.false_ne_true h).elim, by rintro ⟨_, h⟩; cases h⟩

/-- A chain of results succeeds through a success of its first. -/
theorem bind_eq_success {S : Type} {first : Result S} {next : S → Result T} {value : T}
    (h : first.bind next = Result.success value) :
    ∃ middle, first = Result.success middle ∧ next middle = Result.success value := by
  cases first with
  | error failure => cases h
  | ok middle => exact ⟨middle, rfl, h⟩

/-- A result's status is OK exactly when it holds a value. -/
theorem isOk_status (result : Result T) : result.status.isOk = result.isOk := by
  cases result with
  | ok value => rfl
  | error failure => exact failure.property

end Result

end AsterKV.Core
