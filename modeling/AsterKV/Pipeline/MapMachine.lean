/-
# AsterKV.Pipeline.MapMachine -- the pipeline as a machine on a finite map

`MapMachine.step` says what a command line means for a finite map, from the line's
words and without tokenizer, dispatcher, store or serializer; `Answer.render` is the
text of an answer.  Over `InMemoryStorage` the pipeline is this machine
(`processLine_refines_map`).
-/
import Mathlib.Data.Finmap
import AsterKV.Pipeline.LocalPipeline
import AsterKV.Protocol.CommandWords
import AsterKV.Storage.InMemoryStorage
import AsterKV.Theory.Machine

namespace AsterKV.Pipeline

open AsterKV.Core AsterKV.Command AsterKV.Execution AsterKV.Protocol AsterKV.Storage
open Theory

set_option autoImplicit false

namespace MapMachine

abbrev Map := Finmap (fun _ : Bytes => Bytes)

inductive Answer where
  | pong
  | ok
  | stored (value : Bytes)
  | notFound
  | present (found : Bool)
  | invalidArgument (reason : Bytes)
  deriving DecidableEq

/-- The text of an answer. -/
def Answer.render : Answer → Bytes
  | .pong => bytes "+PONG\r\n"
  | .ok => bytes "+OK\r\n"
  | .stored value =>
      bytes "$" ++ toDecimal value.length ++ bytes "\r\n" ++ value ++ bytes "\r\n"
  | .notFound => bytes "-ERR not_found key not found\r\n"
  | .present found => if found then bytes ":1\r\n" else bytes ":0\r\n"
  | .invalidArgument reason => bytes "-ERR invalid_argument " ++ reason ++ bytes "\r\n"

/-- What a command with its arguments means. -/
def execute (map : Map) : CommandType → List Bytes → Answer × Map
  | .ping, [] => (.pong, map)
  | .set, [key, value] => (.ok, map.insert key value)
  | .get, [key] =>
      match map.lookup key with
      | some value => (.stored value, map)
      | none => (.notFound, map)
  | .del, [key] => (.present (map.lookup key).isSome, map.erase key)
  | .exists?, [key] => (.present (map.lookup key).isSome, map)
  | _, _ => (.invalidArgument (bytes "invalid command argument count"), map)

theorem execute_of_count {type : CommandType} {arguments : List Bytes}
    (other : arguments.length ≠ expectedArgumentCount type) (map : Map) :
    execute map type arguments =
      (.invalidArgument (bytes "invalid command argument count"), map) := by
  cases type with
  | ping =>
      cases arguments with
      | nil => exact absurd rfl other
      | cons first rest => rfl
  | set =>
      rcases arguments with _ | ⟨first, _ | ⟨second, _ | ⟨third, rest⟩⟩⟩
      · rfl
      · rfl
      · exact absurd rfl other
      · rfl
  | get | del | exists? =>
      rcases arguments with _ | ⟨first, _ | ⟨second, rest⟩⟩
      · rfl
      · exact absurd rfl other
      · rfl

/-- What a command line means. -/
def step (map : Map) (line : Bytes) : Answer × Map :=
  match commandWords line with
  | [] => (.invalidArgument (bytes "command line must not be empty"), map)
  | name :: arguments =>
      match commandNamed name with
      | none => (.invalidArgument (bytes "unknown command"), map)
      | some type => execute map type arguments

end MapMachine

open MapMachine (Answer)

/-! ## Texts -/

theorem serialize_pong :
    serializeExecutionResult (.success (.simpleString (bytes "PONG"))) = Answer.pong.render := by
  decide

theorem serialize_ok :
    serializeExecutionResult (.success (.simpleString (bytes "OK"))) = Answer.ok.render := by
  decide

theorem serialize_stored (value : Bytes) :
    serializeExecutionResult (.success (.bulkString value)) = (Answer.stored value).render := by
  show serializeBulkString value = _
  simp [serializeBulkString, Answer.render, crlf, bytes]

theorem serialize_notFound :
    serializeExecutionResult (.failure InMemoryStorage.keyNotFoundStatus) =
      Answer.notFound.render := by
  decide

theorem serialize_present (found : Bool) :
    serializeExecutionResult (.success (.integer (if found then 1 else 0))) =
      (Answer.present found).render := by
  cases found <;> decide

theorem serializeStatus_invalidArgument {reason : Bytes} (filled : reason ≠ []) :
    serializeStatus (.invalidArgument reason) = (Answer.invalidArgument reason).render := by
  have code : (Status.invalidArgument reason).codeString = bytes "invalid_argument" := rfl
  have message : (Status.invalidArgument reason).message = reason := rfl
  have head : bytes "-ERR invalid_argument " = bytes "-ERR " ++ bytes "invalid_argument" ++ [space] := by
    decide
  rw [serializeStatus, if_neg (by simp), code, message, if_neg (by simpa using filled),
    Answer.render, head]
  simp [crlf]

/-- Removing a key that is not there changes nothing. -/
theorem erase_of_absent {map : MapMachine.Map} {key : Bytes} (absent : map.lookup key = none) :
    map.erase key = map := by
  refine Finmap.ext_lookup fun other => ?_
  by_cases same : other = key
  · rw [same, Finmap.lookup_erase, absent]
  · rw [Finmap.lookup_erase_ne same]

/-! ## Requests over the in-memory storage -/

section Requests

variable (storage : InMemoryStorage) {key : Bytes} (named : key ≠ [])
include named

theorem dispatchSet_of_ne (value : Bytes) :
    dispatchSet storage ⟨.set, [key, value]⟩ =
      (.success (.simpleString (bytes "OK")), storage.insert key value) := by
  have set : StorageEngine.set storage key value = (.ok, storage.insert key value) :=
    InMemoryStorage.set_of_ne named
  simp [dispatchSet, argument, set]

theorem dispatchGet_of_ne :
    dispatchGet storage ⟨.get, [key]⟩ =
      match storage.lookup key with
      | some value => (.success (.bulkString value), storage)
      | none => (.failure InMemoryStorage.keyNotFoundStatus, storage) := by
  have get : StorageEngine.get storage key = storage.get key := rfl
  simp only [dispatchGet, argument, List.getD_cons_zero, get, InMemoryStorage.get,
    List.isEmpty_iff, named, if_false]
  cases storage.lookup key with
  | none => rfl
  | some value => rfl

theorem dispatchDel_of_ne :
    dispatchDel storage ⟨.del, [key]⟩ =
      (.success (.integer (if (storage.lookup key).isSome then 1 else 0)), storage.erase key) := by
  have remove : StorageEngine.remove storage key = storage.remove key := rfl
  simp only [dispatchDel, argument, List.getD_cons_zero, remove]
  cases found : storage.lookup key with
  | none =>
      have same : storage.erase key = storage := by
        obtain ⟨map⟩ := storage
        exact congrArg InMemoryStorage.mk (erase_of_absent found)
      rw [InMemoryStorage.remove_of_absent named found, same]
      rfl
  | some value =>
      rw [InMemoryStorage.remove_of_lookup named found]
      rfl

theorem dispatchExists_of_ne :
    dispatchExists storage ⟨.exists?, [key]⟩ =
      (.success (.integer (if (storage.lookup key).isSome then 1 else 0)), storage) := by
  have answer : StorageEngine.exists? storage key = .ok (storage.lookup key).isSome :=
    InMemoryStorage.exists?_of_ne named
  simp only [dispatchExists, argument, List.getD_cons_zero, answer]

end Requests

/-- A request with the right number of non-empty arguments does what its command means. -/
theorem dispatch_eq_execute (storage : InMemoryStorage) {type : CommandType}
    {arguments : List Bytes} (count : arguments.length = expectedArgumentCount type)
    (filled : ∀ argument ∈ arguments, argument ≠ []) :
    serializeExecutionResult (dispatch storage ⟨type, arguments⟩).1 =
        (MapMachine.execute storage.values type arguments).1.render ∧
      (dispatch storage ⟨type, arguments⟩).2 =
        ⟨(MapMachine.execute storage.values type arguments).2⟩ := by
  have valid : (validateCommandRequest ⟨type, arguments⟩).isOk = true :=
    validateCommandRequest_isOk.2 count
  simp only [dispatch, valid, Bool.not_true, Bool.false_eq_true, if_false]
  cases type with
  | ping =>
      obtain rfl : arguments = [] := List.length_eq_zero_iff.1 count
      exact ⟨serialize_pong, rfl⟩
  | set =>
      obtain ⟨key, value, rfl⟩ := List.length_eq_two.1 count
      rw [dispatchSet_of_ne storage (filled key (by simp))]
      exact ⟨serialize_ok, rfl⟩
  | get =>
      obtain ⟨key, rfl⟩ := List.length_eq_one_iff.1 count
      rw [dispatchGet_of_ne storage (filled key (by simp)), MapMachine.execute,
        InMemoryStorage.lookup]
      cases storage.values.lookup key with
      | none => exact ⟨serialize_notFound, rfl⟩
      | some value => exact ⟨serialize_stored value, rfl⟩
  | del =>
      obtain ⟨key, rfl⟩ := List.length_eq_one_iff.1 count
      rw [dispatchDel_of_ne storage (filled key (by simp))]
      exact ⟨serialize_present _, rfl⟩
  | exists? =>
      obtain ⟨key, rfl⟩ := List.length_eq_one_iff.1 count
      rw [dispatchExists_of_ne storage (filled key (by simp))]
      exact ⟨serialize_present _, rfl⟩

/-- One line. -/
theorem processLine_eq_step (storage : InMemoryStorage) (line : Bytes) :
    (processLine storage line).1 = (MapMachine.step storage.values line).1.render ∧
      (processLine storage line).2 = ⟨(MapMachine.step storage.values line).2⟩ := by
  have parsed := parseCommandLine_eq line
  have filled : ∀ word ∈ commandWords line, word ≠ [] := fun _ => ne_nil_of_mem_commandWords
  unfold MapMachine.step
  generalize commandWords line = words at parsed filled ⊢
  cases words with
  | nil =>
      rw [processLine_refused parsed]
      exact ⟨serializeStatus_invalidArgument (by decide), rfl⟩
  | cons name arguments =>
      simp only at parsed ⊢
      cases found : commandNamed name with
      | none =>
          rw [found] at parsed
          rw [processLine_refused parsed]
          exact ⟨serializeStatus_invalidArgument (by decide), rfl⟩
      | some type =>
          rw [found] at parsed
          simp only at parsed ⊢
          split at parsed
          · next count =>
              rw [processLine, parsed]
              exact dispatch_eq_execute storage count
                fun argument member => filled argument (List.mem_cons_of_mem _ member)
          · next other =>
              rw [processLine_refused parsed, MapMachine.execute_of_count other]
              exact ⟨serializeStatus_invalidArgument (by decide), rfl⟩

theorem run_processLine (storage : InMemoryStorage) (lines : List Bytes) :
    (Machine.run processLine storage lines).1 =
        (Machine.run MapMachine.step storage.values lines).1.map Answer.render ∧
      Machine.after processLine storage lines =
        ⟨Machine.after MapMachine.step storage.values lines⟩ := by
  induction lines generalizing storage with
  | nil => exact ⟨rfl, rfl⟩
  | cons line rest ih =>
      obtain ⟨response, next⟩ := processLine_eq_step storage line
      obtain ⟨responses, last⟩ := ih (processLine storage line).2
      rw [next] at responses last
      simp only [Machine.run_cons, Machine.after_cons, List.map_cons, next]
      exact ⟨by rw [response, responses], last⟩

/-- **The pipeline refines a map.**  For every content and every sequence of lines, the
responses are the machine's answers, and the storage after each line is its map. -/
theorem processLine_refines_map (storage : InMemoryStorage) (lines : List Bytes) :
    (Machine.run processLine storage lines).1 =
        (Machine.run MapMachine.step storage.values lines).1.map Answer.render ∧
      lines.inits.map (Machine.after processLine storage) =
        lines.inits.map fun front => ⟨Machine.after MapMachine.step storage.values front⟩ := by
  refine ⟨(run_processLine storage lines).1, List.map_congr_left ?_⟩
  intro front _
  exact (run_processLine storage front).2

/-- Words in any case and with any spacing, a missing key, a wrong count and a blank. -/
example :
    (Machine.run MapMachine.step ∅ ([" set k\tv ", "GET k", "del k", "Del k", "get k", "set k",
        "\t"].map bytes)).1.map Answer.render =
      ["+OK\r\n", "$1\r\nv\r\n", ":1\r\n", ":0\r\n", "-ERR not_found key not found\r\n",
        "-ERR invalid_argument invalid command argument count\r\n",
        "-ERR invalid_argument command line must not be empty\r\n"].map bytes := by
  decide

end AsterKV.Pipeline
