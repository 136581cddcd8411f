/-
# AsterKV.Protocol.CommandLayouts -- the lines of a command

A line is read as a command exactly when it lays out a spelling of the command's name and
as many arguments as it takes (`parseCommandLine_iff`); what the tokenizer yields are the
maximal runs without whitespace, in order.
-/
import Mathlib.Data.List.Forall2
import AsterKV.Protocol.CommandWords

namespace AsterKV.Protocol

open AsterKV.Core AsterKV.Command
open Theory.Words (LaidOut MaximalRun)

set_option autoImplicit false

/-! ## Names -/

/-- The name with each letter in upper or in lower case. -/
def IsSpelling (name : Bytes) (type : CommandType) : Prop :=
  List.Forall₂ (fun ch letter => ch = letter ∨ ch = letter + 32) name (commandTypeToString type)

def IsUpper (letter : UInt8) : Prop := byte 'A' ≤ letter ∧ letter ≤ byte 'Z'

instance (letter : UInt8) : Decidable (IsUpper letter) := by
  unfold IsUpper
  infer_instance

theorem isUpper_commandTypeToString (type : CommandType) :
    ∀ letter ∈ commandTypeToString type, IsUpper letter := by
  intro letter member
  -- checked as a `Bool`, one letter at a time: there are 256 bytes, and a name has at most twelve
  have shape : (commandTypeToString type).all (fun letter => decide (IsUpper letter)) = true := by
    cases type <;> decide
  exact of_decide_eq_true (List.all_eq_true.1 shape letter member)

theorem toUpper_eq_iff {ch letter : UInt8} (upper : IsUpper letter) :
    toUpper ch = letter ↔ ch = letter ∨ ch = letter + 32 := by
  have lowerA : (byte 'a').toNat = 97 := by decide
  have lowerZ : (byte 'z').toNat = 122 := by decide
  have upperA : (byte 'A').toNat = 65 := by decide
  have upperZ : (byte 'Z').toNat = 90 := by decide
  have shift : (32 : UInt8).toNat = 32 := by decide
  have range : 65 ≤ letter.toNat ∧ letter.toNat ≤ 90 := by
    rwa [IsUpper, UInt8.le_iff_toNat_le, UInt8.le_iff_toNat_le, upperA, upperZ] at upper
  have sum : (letter + 32).toNat = letter.toNat + 32 := by
    rw [UInt8.toNat_add, shift]
    omega
  simp only [toUpper, Bool.and_eq_true, decide_eq_true_eq, UInt8.le_iff_toNat_le, lowerA, lowerZ,
    ← UInt8.toNat_inj, sum]
  split
  · rename_i lower
    have le : (32 : UInt8) ≤ ch := by
      rw [UInt8.le_iff_toNat_le, shift]
      omega
    rw [UInt8.toNat_sub_of_le _ _ le, shift]
    omega
  · omega

/-- The names are written in upper case, so comparing without case compares with them. -/
theorem map_toUpper_commandTypeToString (type : CommandType) :
    (commandTypeToString type).map toUpper = commandTypeToString type := by
  cases type <;> decide

theorem asciiEqualsIgnoreCase_iff {name : Bytes} {type : CommandType} :
    asciiEqualsIgnoreCase name (commandTypeToString type) = true ↔ IsSpelling name type := by
  rw [asciiEqualsIgnoreCase, beq_iff_eq, map_toUpper_commandTypeToString, IsSpelling,
    ← List.forall₂_eq_eq_eq, List.forall₂_map_left_iff]
  have upper := isUpper_commandTypeToString type
  generalize commandTypeToString type = letters at upper ⊢
  induction letters generalizing name with
  | nil => simp
  | cons letter letters ih =>
      obtain ⟨first, rest⟩ := List.forall_mem_cons.1 upper
      cases name with
      | nil => simp
      | cons ch name => simp only [List.forall₂_cons, toUpper_eq_iff first, ih rest]

/-- A name is read as the command it spells. -/
theorem commandNamed_eq_some_iff {name : Bytes} {type : CommandType} :
    commandNamed name = some type ↔ IsSpelling name type := by
  rw [← asciiEqualsIgnoreCase_iff, asciiEqualsIgnoreCase, beq_iff_eq,
    map_toUpper_commandTypeToString]
  constructor
  · intro named
    have equal := List.find?_some named
    rwa [asciiEqualsIgnoreCase, beq_iff_eq, map_toUpper_commandTypeToString] at equal
  · intro upper
    have same : ∀ other, asciiEqualsIgnoreCase name (commandTypeToString other) =
        (commandTypeToString type == commandTypeToString other) := fun other => by
      rw [asciiEqualsIgnoreCase, map_toUpper_commandTypeToString, upper]
    simp only [commandNamed, same]
    cases type <;> decide

/-! ## Lines -/

theorem parseCommandLine_iff {line : Bytes} {request : CommandRequest} :
    parseCommandLine line = .success request ↔
      ∃ name, IsSpelling name request.type ∧
        request.arguments.length = expectedArgumentCount request.type ∧
        LaidOut isAsciiWhitespace (name :: request.arguments) line := by
  rw [parseCommandLine_eq_success_iff]
  have words : ∀ name, LaidOut isAsciiWhitespace (name :: request.arguments) line ↔
      commandWords line = name :: request.arguments := fun _ => Theory.Words.laidOut_iff
  simp only [words, ← commandNamed_eq_some_iff]
  constructor
  · rintro ⟨name, found, named, count⟩
    exact ⟨name, named, count, found⟩
  · rintro ⟨name, named, count, found⟩
    exact ⟨name, found, named, count⟩

/-- **Command parsing inverts every layout, and accepts nothing else.** -/
theorem command_line_layouts :
    (∀ line request, parseCommandLine line = .success request ↔
      ∃ name, IsSpelling name request.type ∧
        request.arguments.length = expectedArgumentCount request.type ∧
        LaidOut isAsciiWhitespace (name :: request.arguments) line) ∧
    ∀ line, ∃ runs : List (Nat × Bytes),
      (runs.Pairwise fun first second => first.1 < second.1) ∧
        (∀ start word, (start, word) ∈ runs ↔ MaximalRun isAsciiWhitespace line start word) ∧
        tokenizeCommandLine line = runs.map Prod.snd := by
  refine ⟨fun line request => parseCommandLine_iff, fun line => ?_⟩
  refine ⟨Theory.Words.runs isAsciiWhitespace line, Theory.Words.runs_sorted line,
    fun start word => Theory.Words.mem_runs_iff, ?_⟩
  rw [tokenizeCommandLine_eq, commandWords, Theory.Words.words_eq_map_runs]

end AsterKV.Protocol
