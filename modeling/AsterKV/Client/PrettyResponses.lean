/-
# AsterKV.Client.PrettyResponses -- what the user reads

A response is shown without its frame: a value as it is, an error without its protocol
prefix.  For an answer of the map machine that is `Answer.text` (`parse_render`).
-/
import AsterKV.Client.DecodedResponses

namespace AsterKV.Client

open AsterKV.Core

set_option autoImplicit false

def errPrefix : Bytes := bytes "ERR "

def stripErrorPrefix (value : Bytes) : Bytes :=
  if value.length ≥ errPrefix.length ∧ value.take errPrefix.length = errPrefix then
    value.drop errPrefix.length
  else value

def renderPrettyResponse (response : ProtocolResponse) : Bytes :=
  match response.kind with
  | .bulkString | .simpleString | .integer => response.value ++ [lineFeed]
  | .error => bytes "error: " ++ stripErrorPrefix response.value ++ [lineFeed]

def renderPrettyResponseText (raw : Bytes) : Result Bytes :=
  match parseProtocolResponse raw with
  | .error failure => .failure failure.val
  | .ok response => .success (renderPrettyResponse response)

@[simp] theorem stripErrorPrefix_append (value : Bytes) :
    stripErrorPrefix (errPrefix ++ value) = value := by
  rw [stripErrorPrefix, if_pos ⟨by simp, List.take_left⟩, List.drop_left]

end AsterKV.Client

/-! ## Answers -/

namespace AsterKV.Pipeline.MapMachine.Answer

open AsterKV.Core AsterKV.Command AsterKV.Execution AsterKV.Client AsterKV.Protocol
open AsterKV.Storage

/-- The result that an answer stands for. -/
def result : Answer → Result CommandResponse
  | .pong => .success (.simpleString (bytes "PONG"))
  | .ok => .success (.simpleString (bytes "OK"))
  | .stored value => .success (.bulkString value)
  | .notFound => .failure InMemoryStorage.keyNotFoundStatus
  | .present found => .success (.integer (if found then 1 else 0))
  | .invalidArgument reason => .failure (.invalidArgument reason)

/-- What the user reads. -/
def text : Answer → Bytes
  | .pong => bytes "PONG\n"
  | .ok => bytes "OK\n"
  | .stored value => value ++ bytes "\n"
  | .notFound => bytes "error: not_found key not found\n"
  | .present found => if found then bytes "1\n" else bytes "0\n"
  | .invalidArgument reason => bytes "error: invalid_argument " ++ reason ++ bytes "\n"

/-- The answer is an error. -/
def fails : Answer → Bool
  | .notFound | .invalidArgument _ => true
  | .pong | .ok | .stored _ | .present _ => false

/-- The reasons for which a command line is refused. -/
def reasons : List Bytes :=
  ["command line must not be empty", "unknown command", "invalid command argument count"].map bytes

/-- The answer is one that a command line can get. -/
def WellFormed : Answer → Prop
  | .invalidArgument reason => reason ∈ reasons
  | _ => True

theorem oneLine_of_mem_reasons {reason : Bytes} (member : reason ∈ reasons) : OneLine reason := by
  rcases List.mem_cons.1 member with rfl | member
  · decide
  · rcases List.mem_pair.1 member with rfl | rfl <;> decide

/-- **A line gets a well formed answer**, and a value only if some key holds it. -/
theorem wellFormed_step (map : Map) (line : Bytes) :
    (step map line).1.WellFormed ∧
      ∀ value, (step map line).1 = .stored value → ∃ key, map.lookup key = some value := by
  have refused : ∀ {reason : Bytes}, reason ∈ reasons → (invalidArgument reason).WellFormed ∧
      ∀ value, invalidArgument reason = .stored value → ∃ key, map.lookup key = some value :=
    fun member => ⟨member, fun _ is => by cases is⟩
  unfold step
  cases commandWords line with
  | nil => exact refused (by decide)
  | cons name arguments =>
      dsimp only
      cases commandNamed name with
      | none => exact refused (by decide)
      | some type =>
          dsimp only
          by_cases count : arguments.length = expectedArgumentCount type
          case neg =>
            rw [execute_of_count count]
            exact refused (by decide)
          cases type with
          | ping =>
              obtain rfl : arguments = [] := List.length_eq_zero_iff.1 count
              exact ⟨trivial, fun _ is => by cases is⟩
          | set =>
              obtain ⟨key, value, rfl⟩ := List.length_eq_two.1 count
              exact ⟨trivial, fun _ is => by cases is⟩
          | get =>
              obtain ⟨key, rfl⟩ := List.length_eq_one_iff.1 count
              rw [execute]
              cases found : map.lookup key with
              | none => exact ⟨trivial, fun _ is => by cases is⟩
              | some value =>
                  refine ⟨trivial, fun other is => ⟨key, ?_⟩⟩
                  cases is
                  exact found
          | del | exists? =>
              obtain ⟨key, rfl⟩ := List.length_eq_one_iff.1 count
              exact ⟨trivial, fun _ is => by cases is⟩

/-- Only a value makes a long response. -/
theorem length_render_le {answer : Answer} (wellFormed : answer.WellFormed)
    (noValue : ∀ value, answer ≠ .stored value) : answer.render.length ≤ 64 := by
  cases answer with
  | pong | ok | notFound => decide
  | stored value => exact absurd rfl (noValue value)
  | present found => cases found <;> decide
  | invalidArgument reason =>
      rcases List.mem_cons.1 wellFormed with rfl | member
      · decide
      · rcases List.mem_pair.1 member with rfl | rfl <;> decide

section Answers

variable {answer : Answer} (wellFormed : answer.WellFormed)
include wellFormed

theorem serialize_result : serializeExecutionResult answer.result = answer.render := by
  cases answer with
  | pong => exact serialize_pong
  | ok => exact serialize_ok
  | stored value => exact serialize_stored value
  | notFound => exact serialize_notFound
  | present found => exact serialize_present found
  | invalidArgument reason => exact serializeStatus_invalidArgument (oneLine_of_mem_reasons wellFormed).1

/-- An answer's value is part of its text. -/
theorem transmissible_result (sized : answer.render.length < 2 ^ 64) :
    Transmissible answer.result := by
  cases answer with
  | pong => exact (by decide : OneLine (bytes "PONG"))
  | ok => exact (by decide : OneLine (bytes "OK"))
  | stored value =>
      have part : value.length ≤ (stored value).render.length := by
        simp only [render, List.length_append]
        omega
      exact Nat.lt_of_le_of_lt part sized
  | notFound => exact (by decide : OneLine (bytes "key not found"))
  | present found => exact trivial
  | invalidArgument reason => exact oneLine_of_mem_reasons wellFormed

theorem renderPretty_result :
    renderPrettyResponse (expectedResponse answer.result) = answer.text ∧
      ((expectedResponse answer.result).kind = .error ↔ answer.fails = true) := by
  cases answer with
  | pong | ok | notFound => decide
  | stored value => exact ⟨rfl, by simp [result, fails, expectedResponse, Result.success]⟩
  | present found => cases found <;> decide
  | invalidArgument reason =>
      have code : (Status.invalidArgument reason).codeString = bytes "invalid_argument" := rfl
      have message : errPrefix ++ (Status.invalidArgument reason).codeString ++ bytes " " ++ reason =
          errPrefix ++ (bytes "invalid_argument " ++ reason) := by
        rw [code]
        simp [bytes]
      refine ⟨?_, fun _ => rfl, fun _ => rfl⟩
      show bytes "error: " ++ stripErrorPrefix (errPrefix ++
        (Status.invalidArgument reason).codeString ++ bytes " " ++ reason) ++ [lineFeed] = _
      rw [message, stripErrorPrefix_append]
      simp [text, bytes, lineFeed]

/-- **The user reads the answer.** -/
theorem parse_render (sized : answer.render.length < 2 ^ 64) :
    ∃ response, parseProtocolResponse answer.render = .success response ∧
      renderPrettyResponse response = answer.text ∧
      (response.kind = .error ↔ answer.fails = true) := by
  have read := parse_serialize (transmissible_result wellFormed sized)
  rw [serialize_result wellFormed] at read
  exact ⟨_, read, renderPretty_result wellFormed⟩

end Answers

end AsterKV.Pipeline.MapMachine.Answer
