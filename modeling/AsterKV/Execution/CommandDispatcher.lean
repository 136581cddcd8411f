/-
# AsterKV.Execution.CommandDispatcher -- requests carried out on a storage engine
-/
import AsterKV.Command.Command
import AsterKV.Storage.StorageEngine

namespace AsterKV.Execution

open AsterKV.Core AsterKV.Command AsterKV.Storage

set_option autoImplicit false

/-- `CommandResponse` with the payload its type carries. -/
inductive CommandResponse where
  | simpleString (value : Bytes)
  | bulkString (value : Bytes)
  | integer (integerValue : Int64)
  deriving DecidableEq

variable {σ : Type} [StorageEngine σ]

def dispatchPing (storage : σ) : Result CommandResponse × σ :=
  (.success (.simpleString (bytes "PONG")), storage)

/-- `request.arguments[i]`, which validation keeps in range. -/
def argument (request : CommandRequest) (i : Nat) : Bytes := request.arguments.getD i []

def dispatchSet (storage : σ) (request : CommandRequest) : Result CommandResponse × σ :=
  let (status, storage) := StorageEngine.set storage (argument request 0) (argument request 1)
  if !status.isOk then (.failure status, storage)
  else (.success (.simpleString (bytes "OK")), storage)

def dispatchGet (storage : σ) (request : CommandRequest) : Result CommandResponse × σ :=
  match StorageEngine.get storage (argument request 0) with
  | .error failure => (.failure failure.val, storage)
  | .ok value => (.success (.bulkString value), storage)

def dispatchDel (storage : σ) (request : CommandRequest) : Result CommandResponse × σ :=
  let (status, storage) := StorageEngine.remove storage (argument request 0)
  if status.isOk then (.success (.integer 1), storage)
  else if status.code = .notFound then (.success (.integer 0), storage)
  else (.failure status, storage)

def dispatchExists (storage : σ) (request : CommandRequest) : Result CommandResponse × σ :=
  match StorageEngine.exists? storage (argument request 0) with
  | .error failure => (.failure failure.val, storage)
  | .ok found => (.success (.integer (if found then 1 else 0)), storage)

def dispatch (storage : σ) (request : CommandRequest) : Result CommandResponse × σ :=
  let validationStatus := validateCommandRequest request
  if !validationStatus.isOk then (.failure validationStatus, storage)
  else match request.type with
    | .ping => dispatchPing storage
    | .set => dispatchSet storage request
    | .get => dispatchGet storage request
    | .del => dispatchDel storage request
    | .exists? => dispatchExists storage request

end AsterKV.Execution
