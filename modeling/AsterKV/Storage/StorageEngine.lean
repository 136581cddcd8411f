/-
# AsterKV.Storage.StorageEngine -- the interface the pipeline runs over

`Storage::StorageEngine` is an abstract class with four methods.  An engine is a
state type; a method that may change the engine returns the state it leaves.
`Call` and `Reply` name one method call and its answer, so that a client of any
engine is a list of calls.
-/
import AsterKV.Core.Status

namespace AsterKV.Storage

open AsterKV.Core

set_option autoImplicit false

class StorageEngine (σ : Type) where
  set : σ → Bytes → Bytes → Status × σ
  get : σ → Bytes → Result Bytes
  remove : σ → Bytes → Status × σ
  exists? : σ → Bytes → Result Bool

inductive Call where
  | set (key value : Bytes)
  | get (key : Bytes)
  | remove (key : Bytes)
  | exists? (key : Bytes)
  deriving DecidableEq, Repr

inductive Reply where
  | status (status : Status)
  | value (result : Result Bytes)
  | flag (result : Result Bool)
  deriving DecidableEq

namespace Call

def key : Call → Bytes
  | .set key _ => key
  | .get key => key
  | .remove key => key
  | .exists? key => key

/-- The calls that may change the map. -/
def isMutation : Call → Bool
  | .set _ _ | .remove _ => true
  | .get _ | .exists? _ => false

end Call

namespace Reply

/-- The reply of a `set` or `remove` that returned OK. -/
def isAcknowledged : Reply → Bool
  | .status s => s.isOk
  | _ => false

end Reply

/-- One method call on an engine. -/
def StorageEngine.call {σ : Type} [StorageEngine σ] (engine : σ) : Call → Reply × σ
  | .set key value => let (status, next) := set engine key value; (.status status, next)
  | .get key => (.value (get engine key), engine)
  | .remove key => let (status, next) := remove engine key; (.status status, next)
  | .exists? key => (.flag (exists? engine key), engine)

end AsterKV.Storage
