/-
# AsterKV.Client.DecodedResponses -- what the server answers is what the client decodes

The serializer and the client's parser share nothing but the wire format.  A result
crosses the wire unchanged when its text is one line, or when it is a bulk string
(`parse_serialize`), and everything the pipeline answers over an in-memory storage is
of this kind (`executeLine_transmissible`).
-/
import AsterKV.Client.ResponseRenderer
import AsterKV.Pipeline.MapMachine

namespace AsterKV.Client

open AsterKV.Core AsterKV.Command AsterKV.Execution AsterKV.Pipeline AsterKV.Protocol
open AsterKV.Storage

set_option autoImplicit false

/-- What a line comes to before it is serialized: the dispatcher's response, or the
status that the parser or the dispatcher fails with. -/
def executeLine {σ : Type} [StorageEngine σ] (storage : σ) (line : Bytes) :
    Result CommandResponse :=
  match parseCommandLine line with
  | .error failure => .error failure
  | .ok commandRequest => (dispatch storage commandRequest).1

theorem processLine_eq_serialize {σ : Type} [StorageEngine σ] (storage : σ) (line : Bytes) :
    (processLine storage line).1 = serializeExecutionResult (executeLine storage line) := by
  unfold processLine executeLine
  cases parseCommandLine line with
  | error failure => rfl
  | ok commandRequest => rfl

/-- What the client should see of a result. -/
def expectedResponse : Result CommandResponse → ProtocolResponse
  | .ok (.simpleString text) => ⟨.simpleString, text⟩
  | .ok (.integer number) => ⟨.integer, toSignedDecimal number⟩
  | .ok (.bulkString value) => ⟨.bulkString, value⟩
  | .error failure =>
      ⟨.error, bytes "ERR " ++ failure.val.codeString ++ bytes " " ++ failure.val.message⟩

/-! ## Across the wire -/

/-- A text that a line can carry. -/
def OneLine (text : Bytes) : Prop := text ≠ [] ∧ lineFeed ∉ text

instance (text : Bytes) : Decidable (OneLine text) := by
  unfold OneLine
  infer_instance

/-- Texts are lines, and the size of a value is a `std::size_t`. -/
def Transmissible : Result CommandResponse → Prop
  | .ok (.simpleString text) => OneLine text
  | .ok (.integer _) => True
  | .ok (.bulkString value) => value.length < 2 ^ 64
  | .error failure => OneLine failure.val.message

theorem crlf_eq : crlf = bytes "\r\n" := rfl

theorem all_isDigit_toDecimal (n : Nat) : (toDecimal n).all isDigit = true := by
  rw [List.all_eq_true]
  intro ch member
  exact isDigit_of_mem_toDecimal member

theorem isValidIntegerPayload_toSignedDecimal (number : Int64) :
    isValidIntegerPayload (toSignedDecimal number) = true := by
  have digits := all_isDigit_toDecimal number.toInt.natAbs
  have filled := toDecimal_ne_nil number.toInt.natAbs
  unfold toSignedDecimal
  split
  · simp [isValidIntegerPayload, digits, filled]
  · obtain ⟨front, rest, shape⟩ := List.exists_cons_of_ne_nil filled
    rw [shape] at digits ⊢
    have digit : isDigit front = true := by
      rw [List.all_cons, Bool.and_eq_true] at digits
      exact digits.1
    have positive : front ≠ byte '-' := by
      intro minus
      rw [minus] at digit
      exact absurd digit (by decide)
    rw [isValidIntegerPayload, if_neg positive, digits]

theorem toSignedDecimal_ne_nil (number : Int64) : toSignedDecimal number ≠ [] := by
  unfold toSignedDecimal
  split
  · exact List.cons_ne_nil _ _
  · exact toDecimal_ne_nil _

/-! A line is read alike whatever follows it. -/

theorem parse_simpleString {text : Bytes} (oneLine : OneLine text) (rest : Bytes) :
    parseProtocolResponse (serializeSimpleString text ++ rest) =
      .success ⟨.simpleString, text⟩ := by
  have clean : lineFeed ∉ byte '+' :: text := by
    rw [List.mem_cons, not_or]
    exact ⟨by decide, oneLine.2⟩
  exact parseLineResponse_crlf .simpleString (byte '+') clean oneLine.1 (fun is => by cases is) rest

theorem parse_integer (number : Int64) (rest : Bytes) :
    parseProtocolResponse (serializeInteger number ++ rest) =
      .success ⟨.integer, toSignedDecimal number⟩ := by
  have clean : lineFeed ∉ byte ':' :: toSignedDecimal number := by
    rw [List.mem_cons, not_or]
    exact ⟨by decide, lineFeed_notMem_toSignedDecimal number⟩
  exact parseLineResponse_crlf .integer (byte ':') clean (toSignedDecimal_ne_nil number)
    (fun _ => isValidIntegerPayload_toSignedDecimal number) rest

theorem parse_bulkString {value : Bytes} (fits : value.length < 2 ^ 64) :
    parseProtocolResponse (serializeBulkString value) = .success ⟨.bulkString, value⟩ :=
  parseBulkStringResponse_crlf fits

/-- The line of a failing status, without its sign. -/
def errorText (status : Status) : Bytes :=
  bytes "ERR " ++ status.codeString ++
    (if status.message.isEmpty then [] else space :: status.message)

theorem serializeStatus_failure (failure : Failure) :
    serializeStatus failure.val = byte '-' :: (errorText failure.val ++ bytes "\r\n") := by
  have front : bytes "-ERR " = byte '-' :: bytes "ERR " := rfl
  rw [serializeStatus, failure.property, if_neg (by simp), front, crlf_eq]
  rfl

theorem parse_errorText {failure : Failure} (clean : lineFeed ∉ failure.val.message)
    (rest : Bytes) :
    parseProtocolResponse (serializeStatus failure.val ++ rest) =
      .success ⟨.error, errorText failure.val⟩ := by
  have cleanText : lineFeed ∉ byte '-' :: errorText failure.val := by
    have word : lineFeed ∉ failure.val.codeString := lineFeed_notMem_errorCodeToString _
    have start : lineFeed ∉ bytes "ERR " := by decide
    have blank : lineFeed ≠ space := by decide
    have sign : lineFeed ≠ byte '-' := by decide
    unfold errorText
    split <;> simp [word, start, blank, sign, clean]
  have filled : errorText failure.val ≠ [] := by simp [errorText, bytes]
  rw [serializeStatus_failure]
  exact parseLineResponse_crlf .error (byte '-') cleanText filled (fun is => by cases is) rest

theorem parse_status {failure : Failure} (oneLine : OneLine failure.val.message) :
    parseProtocolResponse (serializeStatus failure.val) =
      .success ⟨.error,
        bytes "ERR " ++ failure.val.codeString ++ bytes " " ++ failure.val.message⟩ := by
  have blank : bytes " " = [space] := rfl
  have read := parse_errorText oneLine.2 []
  rw [List.append_nil] at read
  rw [read, errorText, if_neg (by simpa using oneLine.1), blank,
    List.append_assoc, List.append_assoc, List.append_assoc, List.singleton_append]

/-- **A transmissible result crosses the wire unchanged.** -/
theorem parse_serialize {result : Result CommandResponse} (fits : Transmissible result) :
    parseProtocolResponse (serializeExecutionResult result) = .success (expectedResponse result) := by
  cases result with
  | error failure => exact parse_status fits
  | ok response =>
      cases response with
      | simpleString text =>
          have read := parse_simpleString fits []
          rwa [List.append_nil] at read
      | bulkString value => exact parse_bulkString fits
      | integer number =>
          have read := parse_integer number []
          rwa [List.append_nil] at read

/-! ## What the pipeline answers -/

/-- The parser's messages are lines. -/
theorem oneLine_of_refused {line : Bytes} {failure : Failure}
    (refused : parseCommandLine line = .error failure) : OneLine failure.val.message := by
  rw [parseCommandLine_eq] at refused
  generalize commandWords line = words at refused
  cases words with
  | nil =>
      cases Except.error.inj refused
      decide
  | cons name arguments =>
      simp only at refused
      cases named : commandNamed name with
      | none =>
          rw [named] at refused
          cases Except.error.inj refused
          decide
      | some type =>
          rw [named] at refused
          simp only at refused
          split at refused
          · cases refused
          · cases Except.error.inj refused
            decide

/-- The stored values have a size, as every `std::string` has. -/
def Sized (storage : InMemoryStorage) : Prop :=
  ∀ key value, storage.lookup key = some value → value.length < 2 ^ 64

/-- The line is a `GET`, in any letter case, of a key that holds the value. -/
def GetsValue (storage : InMemoryStorage) (line value : Bytes) : Prop :=
  ∃ name key, commandWords line = [name, key] ∧ commandNamed name = some .get ∧
    storage.lookup key = some value

theorem getsValue_iff {storage : InMemoryStorage} {line value : Bytes} :
    GetsValue storage line value ↔
      ∃ key, parseCommandLine line = .success ⟨.get, [key]⟩ ∧ storage.lookup key = some value := by
  constructor
  · rintro ⟨name, key, words, named, found⟩
    exact ⟨key, parseCommandLine_eq_success_iff.2 ⟨name, words, named, rfl⟩, found⟩
  · rintro ⟨key, parsed, found⟩
    obtain ⟨name, words, named, -⟩ := parseCommandLine_eq_success_iff.1 parsed
    exact ⟨name, key, words, named, found⟩

/-- A result that is sent as a line which can carry it. -/
def SentAsLine : Result CommandResponse → Prop
  | .ok (.bulkString _) => False
  | result => Transmissible result

/-- Only a value that is found is not sent as a line. -/
theorem executeLine_cases (storage : InMemoryStorage) (line : Bytes) :
    (∃ value, GetsValue storage line value ∧
      executeLine storage line = .success (.bulkString value)) ∨
    (¬ ∃ value, GetsValue storage line value) ∧ SentAsLine (executeLine storage line) := by
  simp only [getsValue_iff]
  unfold executeLine
  cases parsed : parseCommandLine line with
  | error failure =>
      refine Or.inr ⟨?_, oneLine_of_refused parsed⟩
      rintro ⟨value, key, accepted, -⟩
      cases accepted
  | ok request =>
      have count := arguments_of_parseCommandLine parsed
      have filled := argument_ne_nil parsed
      have valid : (validateCommandRequest request).isOk = true :=
        validateCommandRequest_isOk.2 count
      obtain ⟨type, arguments⟩ := request
      simp only [dispatch, valid, Bool.not_true, Bool.false_eq_true, if_false]
      cases type with
      | ping =>
          refine Or.inr ⟨?_, ?_⟩
          · rintro ⟨value, key, accepted, -⟩
            cases accepted
          · show OneLine (bytes "PONG")
            decide
      | set =>
          obtain ⟨key, value, rfl⟩ := List.length_eq_two.1 count
          simp only [dispatchSet_of_ne storage (filled key (by simp))]
          refine Or.inr ⟨?_, ?_⟩
          · rintro ⟨value, key, accepted, -⟩
            cases accepted
          · show OneLine (bytes "OK")
            decide
      | get =>
          obtain ⟨key, rfl⟩ := List.length_eq_one_iff.1 count
          simp only [dispatchGet_of_ne storage (filled key (by simp))]
          cases found : storage.lookup key with
          | none =>
              refine Or.inr ⟨?_, ?_⟩
              · rintro ⟨value, other, accepted, held⟩
                cases accepted
                rw [found] at held
                cases held
              · show OneLine (bytes "key not found")
                decide
          | some value => exact Or.inl ⟨value, ⟨key, rfl, found⟩, rfl⟩
      | del =>
          obtain ⟨key, rfl⟩ := List.length_eq_one_iff.1 count
          simp only [dispatchDel_of_ne storage (filled key (by simp))]
          refine Or.inr ⟨?_, trivial⟩
          rintro ⟨value, key, accepted, -⟩
          cases accepted
      | exists? =>
          obtain ⟨key, rfl⟩ := List.length_eq_one_iff.1 count
          simp only [dispatchExists_of_ne storage (filled key (by simp))]
          refine Or.inr ⟨?_, trivial⟩
          rintro ⟨value, key, accepted, -⟩
          cases accepted

theorem executeLine_transmissible {storage : InMemoryStorage} (sized : Sized storage)
    (line : Bytes) : Transmissible (executeLine storage line) := by
  rcases executeLine_cases storage line with ⟨value, ⟨name, key, -, -, found⟩, executes⟩ | ⟨-, sent⟩
  · rw [executes]
    exact sized key value found
  · cases result : executeLine storage line with
    | error failure =>
        rw [result] at sent
        exact sent
    | ok response =>
        rw [result] at sent
        cases response with
        | simpleString text => exact sent
        | bulkString value => exact sent.elim
        | integer number => exact trivial

/-- **What the server answers is what the client decodes**: kind and payload of the
dispatcher's response, or the code and the message of the failing status. -/
theorem decodes_what_was_answered {storage : InMemoryStorage} (sized : Sized storage)
    (line : Bytes) :
    parseProtocolResponse (processLine storage line).1 =
      .success (expectedResponse (executeLine storage line)) := by
  rw [processLine_eq_serialize]
  exact parse_serialize (executeLine_transmissible sized line)

/-- A stored value with a line end and a digit in it. -/
def storageWithLineEnd : InMemoryStorage := InMemoryStorage.empty.insert (bytes "k") (bytes "$1\r\n")

theorem sized_storageWithLineEnd : Sized storageWithLineEnd := by
  intro key value found
  by_cases same : key = bytes "k"
  · rw [same, storageWithLineEnd, InMemoryStorage.lookup_insert] at found
    cases Option.some.inj found
    decide
  · rw [storageWithLineEnd, InMemoryStorage.lookup_insert_of_ne _ _ same,
      InMemoryStorage.lookup_empty] at found
    cases found

theorem decodes_line_end :
    parseProtocolResponse (processLine storageWithLineEnd (bytes "GET k")).1 =
      .success ⟨.bulkString, bytes "$1\r\n"⟩ := by
  rw [decodes_what_was_answered sized_storageWithLineEnd]
  decide

end AsterKV.Client
