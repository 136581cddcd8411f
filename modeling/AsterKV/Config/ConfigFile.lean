/-
# AsterKV.Config.ConfigFile -- what a configuration file comes to

The loop over the text is the library's loader on the lines of the text
(`parseServerConfig_eq`), so what a file comes to is a matter of its lines:
`config_file_semantics` collects the laws.
-/
import AsterKV.Config.ConfigLines

namespace AsterKV.Config

open AsterKV.Core AsterKV.Server
open Theory

set_option autoImplicit false

/-- The lines of a text, what follows its last line feed included. -/
def configLines (config : Bytes) : List Bytes := config.splitOn lineFeed

/-- What loading comes to, as the caller sees it. -/
def loadedResult : Except (Nat × Bytes) TcpServerOptions → Result TcpServerOptions
  | .error (lineNumber, message) => .failure (makeLineError lineNumber message)
  | .ok options => .success options

theorem parseRounds_eq (rounds : Nat) (options : TcpServerOptions) (lineNumber : Nat)
    (config : Bytes) (enough : config.length < rounds) :
    parseRounds rounds options lineNumber config =
      loadedResult
        (Settings.load Setting.record lineSetting options lineNumber (configLines config)) := by
  induction rounds generalizing options lineNumber config with
  | zero => omega
  | succ rounds ih =>
      rw [parseRounds]
      by_cases present : lineFeed ∈ config
      · obtain ⟨line, rest, rfl, first⟩ := List.eq_append_cons_of_mem present
        obtain ⟨lineEnd, linePart, restPart⟩ := parts_at_first first rest
        have lines : configLines (line ++ lineFeed :: rest) = line :: configLines rest :=
          List.splitOn_append_cons_self_of_not_mem first rest
        have shorter : rest.length < rounds := by
          rw [List.length_append, List.length_cons] at enough
          omega
        simp only [lineEnd, linePart, restPart, parseConfigLine_eq, present, not_true_eq_false,
          if_false, lines, Settings.load]
        cases reads : lineSetting line with
        | error message => rfl
        | ok setting =>
            cases setting with
            | none => exact ih options (lineNumber + 1) rest shorter
            | some setting =>
                exact ih (Setting.set options setting) (lineNumber + 1) rest shorter
      · have lineEnd : config.idxOf lineFeed = config.length := List.idxOf_eq_length present
        have lines : configLines config = [config] := List.splitOn_eq_singleton present
        simp only [lineEnd, List.take_length, parseConfigLine_eq, present, not_false_eq_true,
          if_true, lines, Settings.load]
        cases reads : lineSetting config with
        | error message => rfl
        | ok setting => cases setting <;> rfl

/-- **A configuration text is loaded line by line.** -/
theorem parseServerConfig_eq (config : Bytes) :
    parseServerConfig config =
      loadedResult
        (Settings.load Setting.record lineSetting defaultServerOptions 1 (configLines config)) :=
  parseRounds_eq _ _ _ config (Nat.lt_succ_self _)

/-! ## The laws of the lines -/

theorem parseServerConfig_eq_success_iff {config : Bytes} {options : TcpServerOptions} :
    parseServerConfig config = .success options ↔
      Settings.load Setting.record lineSetting defaultServerOptions 1 (configLines config) =
        .ok options := by
  rw [parseServerConfig_eq]
  cases Settings.load Setting.record lineSetting defaultServerOptions 1 (configLines config) with
  | error reported =>
      constructor
      · intro accepted
        cases accepted
      · intro loaded
        cases loaded
  | ok loaded =>
      constructor
      · intro accepted
        rw [Except.ok.inj accepted]
      · intro same
        rw [Except.ok.inj same]
        rfl

/-- Neither ignored nor an assignment. -/
def Invalid (line : Bytes) : Prop := ¬ Ignored line ∧ ∀ setting, ¬ Assigns line setting

theorem exists_lineSetting_iff {line : Bytes} :
    (∃ setting, lineSetting line = .ok setting) ↔ Ignored line ∨ ∃ setting, Assigns line setting := by
  constructor
  · rintro ⟨setting, reads⟩
    cases setting with
    | none => exact Or.inl (lineSetting_eq_none_iff.1 reads)
    | some setting => exact Or.inr ⟨setting, lineSetting_eq_some_iff.1 reads⟩
  · rintro (ignored | ⟨setting, assigns⟩)
    · exact ⟨none, lineSetting_eq_none_iff.2 ignored⟩
    · exact ⟨some setting, lineSetting_eq_some_iff.2 assigns⟩

theorem invalid_of_lineSetting {line message : Bytes} (fails : lineSetting line = .error message) :
    Invalid line := by
  constructor
  · intro ignored
    rw [lineSetting_eq_none_iff.2 ignored] at fails
    cases fails
  · intro setting assigns
    rw [lineSetting_eq_some_iff.2 assigns] at fails
    cases fails

/-- Two lines that do not set the same option. -/
def SetDifferentKeys (first second : Bytes) : Prop :=
  ∀ setting other, Assigns first setting → Assigns second other → setting.key ≠ other.key

theorem apart_of_setDifferentKeys (first second : Bytes) (different : SetDifferentKeys first second) :
    Settings.Apart Setting.record lineSetting first second := fun setting other reads readsOther =>
  different setting other (lineSetting_eq_some_iff.1 reads) (lineSetting_eq_some_iff.1 readsOther)

/-! ## Line endings -/

/-- Two lines that are alike, or of which one has a carriage return more at its end. -/
def SameButReturn (line other : Bytes) : Prop :=
  other = line ∨ other = line ++ [carriageReturn] ∨ line = other ++ [carriageReturn]

theorem lineSetting_append_return (line : Bytes) :
    lineSetting (line ++ [carriageReturn]) = lineSetting line := by
  have blank : isAsciiSpace carriageReturn = true := by decide
  have skipped : isCommentOrEmptyLine (line ++ [carriageReturn]) = isCommentOrEmptyLine line := by
    rw [isCommentOrEmptyLine, isCommentOrEmptyLine, trim_append_of_space line blank]
  by_cases ignored : Ignored line
  · have ignoredToo := ignored
    rw [← isCommentOrEmptyLine_iff, ← skipped, isCommentOrEmptyLine_iff] at ignoredToo
    rw [lineSetting_eq_none_iff.2 ignored, lineSetting_eq_none_iff.2 ignoredToo]
  · have counts := ignored
    rw [← isCommentOrEmptyLine_iff, ← skipped, isCommentOrEmptyLine_iff] at counts
    by_cases present : byte '=' ∈ line
    · obtain ⟨key, value, rfl, first⟩ := List.eq_append_cons_of_mem present
      rw [List.append_assoc, List.cons_append] at counts ⊢
      rw [lineSetting_parts first counts, lineSetting_parts first ignored,
        trim_append_of_space value blank]
    · have absent : byte '=' ∉ line ++ [carriageReturn] := by
        rw [List.mem_append, not_or]
        exact ⟨present, by decide⟩
      rw [lineSetting, lineSetting, skipped, if_pos present, if_pos absent]

theorem lineSetting_of_sameButReturn {line other : Bytes} (same : SameButReturn line other) :
    lineSetting other = lineSetting line := by
  rcases same with rfl | rfl | rfl
  · rfl
  · exact lineSetting_append_return line
  · exact (lineSetting_append_return other).symm

/-! ## The file -/

/-- What holds of a configuration text. -/
structure ConfigFileSemantics (config : Bytes) : Prop where
  accepts : (∃ options, parseServerConfig config = .success options) ↔
    ∀ line ∈ configLines config, ¬ Ignored line → ∃ setting, Assigns line setting
  /-- An option that is set has the value of the last line that sets it. -/
  lastSet : ∀ options, parseServerConfig config = .success options →
    ∀ before line after setting, configLines config = before ++ line :: after →
      Assigns line setting →
      (∀ later ∈ after, ∀ other, Assigns later other → other.key ≠ setting.key) →
      Setting.get options setting.key = setting
  /-- An option that is not set has its default. -/
  notSet : ∀ options, parseServerConfig config = .success options →
    ∀ key, (∀ line ∈ configLines config, ∀ setting, Assigns line setting → setting.key ≠ key) →
      Setting.get options key = Setting.get defaultServerOptions key
  reordered : ∀ other,
    Settings.Reordered SetDifferentKeys (configLines config) (configLines other) →
      ∀ options, parseServerConfig other = .success options ↔
        parseServerConfig config = .success options
  /-- Texts that differ in blank lines and comments only. -/
  padded : ∀ other,
    (configLines other).filter (!isCommentOrEmptyLine ·) =
        (configLines config).filter (!isCommentOrEmptyLine ·) →
      ∀ options, parseServerConfig other = .success options ↔
        parseServerConfig config = .success options
  /-- Texts that differ in the endings of their lines only. -/
  endings : ∀ other, List.Forall₂ SameButReturn (configLines config) (configLines other) →
    parseServerConfig other = parseServerConfig config
  firstInvalid : ∀ failure, parseServerConfig config = .error failure →
    ∃ before line after message, configLines config = before ++ line :: after ∧
      (∀ earlier ∈ before, ¬ Invalid earlier) ∧ Invalid line ∧
      failure.val = makeLineError (before.length + 1) message

/-- **What a configuration file comes to.** -/
theorem config_file_semantics (config : Bytes) : ConfigFileSemantics config where
  accepts := by
    have valid : ∀ line, (∃ setting, lineSetting line = .ok setting) ↔
        (¬ Ignored line → ∃ setting, Assigns line setting) := fun line => by
      rw [exists_lineSetting_iff, or_iff_not_imp_left]
    simp only [parseServerConfig_eq_success_iff, Settings.load_eq_ok_iff, valid,
      exists_and_left, exists_eq, and_true]
  lastSet options accepted before line after setting lines assigns last := by
    rw [parseServerConfig_eq_success_iff, lines] at accepted
    refine Settings.get_of_last accepted (lineSetting_eq_some_iff.2 assigns) ?_
    exact fun later member other reads => last later member other (lineSetting_eq_some_iff.1 reads)
  notSet options accepted key none := by
    rw [parseServerConfig_eq_success_iff] at accepted
    refine Settings.get_of_none accepted fun line member setting reads => ?_
    exact none line member setting (lineSetting_eq_some_iff.1 reads)
  reordered other reordered options := by
    rw [parseServerConfig_eq_success_iff, parseServerConfig_eq_success_iff]
    exact Settings.load_reordered apart_of_setDifferentKeys reordered
  padded other same options := by
    rw [parseServerConfig_eq_success_iff, parseServerConfig_eq_success_iff]
    refine Settings.load_padded (fun line skipped => ?_) same
    exact lineSetting_eq_none_iff.2 (isCommentOrEmptyLine_iff.1 (by simpa using skipped))
  endings other same := by
    rw [parseServerConfig_eq, parseServerConfig_eq]
    refine congrArg loadedResult (Settings.load_congr (same.imp fun line line' => ?_) _ _)
    exact lineSetting_of_sameButReturn
  firstInvalid failure failed := by
    rw [parseServerConfig_eq] at failed
    cases loaded : Settings.load Setting.record lineSetting defaultServerOptions 1
      (configLines config) with
    | ok options =>
        rw [loaded] at failed
        cases failed
    | error reported =>
        obtain ⟨lineNumber, message⟩ := reported
        rw [loaded] at failed
        obtain ⟨before, line, after, lines, valid, fails, rfl⟩ :=
          Settings.load_eq_error_iff.1 loaded
        refine ⟨before, line, after, message, lines, fun earlier member => ?_,
          invalid_of_lineSetting fails, ?_⟩
        · intro invalid
          rcases exists_lineSetting_iff.1 (valid earlier member) with ignored | ⟨setting, assigns⟩
          · exact invalid.1 ignored
          · exact invalid.2 setting assigns
        · rw [← Except.error.inj failed, Nat.add_comm]
          rfl

end AsterKV.Config
