/-
# AsterKV.Protocol.CommandWords -- what the parser makes of a line's words

The tokenizer's loop finds the words of a line, so a request depends on them alone
(`parseCommandLine_eq`), and no argument of an accepted request is empty.
-/
import AsterKV.Protocol.Parser
import AsterKV.Theory.Words

namespace AsterKV.Protocol

open AsterKV.Core AsterKV.Command
open Theory (Words.words)

set_option autoImplicit false

/-- The maximal runs without whitespace. -/
def commandWords (line : Bytes) : List Bytes := Theory.Words.words isAsciiWhitespace line

theorem tokenizeRounds_eq (rounds : Nat) (line : Bytes) (enough : line.length ≤ rounds) :
    tokenizeRounds rounds line = commandWords line := by
  induction rounds generalizing line with
  | zero =>
      have empty : line = [] := List.length_eq_zero_iff.1 (by omega)
      rw [empty]
      rfl
  | succ rounds ih =>
      rw [tokenizeRounds, commandWords, ← Theory.Words.words_dropWhile]
      have shorter := List.length_dropWhile_le isAsciiWhitespace line
      cases rest : line.dropWhile isAsciiWhitespace with
      | nil => rfl
      | cons a more =>
          have stopped := List.head?_dropWhile_not isAsciiWhitespace line
          rw [rest] at stopped shorter
          have word : isAsciiWhitespace a = false := stopped
          have fewer : ((a :: more).dropWhile (!isAsciiWhitespace ·)).length ≤ rounds := by
            rw [List.dropWhile_cons_of_pos (by simp [word])]
            have := List.length_dropWhile_le (!isAsciiWhitespace ·) more
            rw [List.length_cons] at shorter
            omega
          rw [Theory.Words.words_cons_of_not word]
          exact congrArg _ (ih _ fewer)

/-- **The tokens of a line are its words.** -/
theorem tokenizeCommandLine_eq (line : Bytes) : tokenizeCommandLine line = commandWords line :=
  tokenizeRounds_eq _ line (Nat.le_refl _)

theorem ne_nil_of_mem_commandWords {line word : Bytes} (member : word ∈ commandWords line) :
    word ≠ [] :=
  Theory.Words.ne_nil_of_mem_words isAsciiWhitespace member

theorem isBlank_iff (line : Bytes) : isBlank line = true ↔ commandWords line = [] := by
  rw [isBlank, List.all_eq_true, commandWords, Theory.Words.words_eq_nil]

/-- The command whose name this is, in any case. -/
def commandNamed (name : Bytes) : Option CommandType :=
  [CommandType.ping, .set, .get, .del, .exists?].find? fun type =>
    asciiEqualsIgnoreCase name (commandTypeToString type)

theorem commandTypeFromString_eq {name : Bytes} (filled : name ≠ []) :
    commandTypeFromString name =
      match commandNamed name with
      | none => .failure (.invalidArgument (bytes "unknown command"))
      | some type => .success type := by
  unfold commandTypeFromString commandNamed
  rw [if_neg (by simpa using filled)]
  simp only [List.find?, commandTypeToString]
  cases asciiEqualsIgnoreCase name (bytes "PING") with
  | true => rfl
  | false =>
  cases asciiEqualsIgnoreCase name (bytes "SET") with
  | true => rfl
  | false =>
  cases asciiEqualsIgnoreCase name (bytes "GET") with
  | true => rfl
  | false =>
  cases asciiEqualsIgnoreCase name (bytes "DEL") with
  | true => rfl
  | false =>
  cases asciiEqualsIgnoreCase name (bytes "EXISTS") with
  | true => rfl
  | false => rfl

/-- **A line's request, from its words.** -/
theorem parseCommandLine_eq (line : Bytes) :
    parseCommandLine line =
      match commandWords line with
      | [] => .failure emptyCommandLineStatus
      | name :: arguments =>
          match commandNamed name with
          | none => .failure (.invalidArgument (bytes "unknown command"))
          | some type =>
              if arguments.length = expectedArgumentCount type then .success ⟨type, arguments⟩
              else .failure (.invalidArgument (bytes "invalid command argument count")) := by
  unfold parseCommandLine
  rw [tokenizeCommandLine_eq]
  cases found : commandWords line with
  | nil => simp
  | cons name arguments =>
      have blank : isBlank line = false := by
        rw [Bool.eq_false_iff, ne_eq, isBlank_iff, found]
        exact List.cons_ne_nil _ _
      have filled : line.isEmpty = false := by
        cases line with
        | nil => cases found
        | cons b rest => rfl
      have nameFilled : name ≠ [] :=
        ne_nil_of_mem_commandWords (found ▸ List.mem_cons_self : name ∈ commandWords line)
      simp only [filled, blank, Bool.or_self, Bool.false_eq_true, if_false]
      rw [commandTypeFromString_eq nameFilled]
      cases commandNamed name with
      | none => rfl
      | some type =>
          simp only [Result.success, validateCommandRequest]
          by_cases count : arguments.length = expectedArgumentCount type
          · simp [count]
          · simp [count]

/-- An accepted line is a command's name and as many words as it takes. -/
theorem parseCommandLine_eq_success_iff {line : Bytes} {request : CommandRequest} :
    parseCommandLine line = .success request ↔
      ∃ name, commandWords line = name :: request.arguments ∧
        commandNamed name = some request.type ∧
        request.arguments.length = expectedArgumentCount request.type := by
  rw [parseCommandLine_eq]
  obtain ⟨type, arguments⟩ := request
  constructor
  · intro accepted
    cases found : commandWords line with
    | nil =>
        rw [found] at accepted
        cases accepted
    | cons name rest =>
        rw [found] at accepted
        simp only at accepted
        cases named : commandNamed name with
        | none =>
            rw [named] at accepted
            cases accepted
        | some type =>
            rw [named] at accepted
            simp only at accepted
            split at accepted
            · rename_i count
              cases Except.ok.inj accepted
              exact ⟨name, rfl, named, count⟩
            · cases accepted
  · rintro ⟨name, found, named, count⟩
    simp only [found, named, count, if_true]

/-- No argument of an accepted request is empty. -/
theorem argument_ne_nil {line : Bytes} {request : CommandRequest}
    (accepted : parseCommandLine line = .success request) :
    ∀ argument ∈ request.arguments, argument ≠ [] := by
  obtain ⟨name, found, -, -⟩ := parseCommandLine_eq_success_iff.1 accepted
  intro argument member
  have word : argument ∈ commandWords line := found ▸ List.mem_cons_of_mem _ member
  exact ne_nil_of_mem_commandWords word

end AsterKV.Protocol
