/-
# AsterKV.Asterd.OptionSources -- flags and lines come to the same

The two ways to give an option are read by code of their own.  Either way a value is taken
for what `valueSetting` finds in it (`applyListenOption_flag`, `lineSetting_of_writes`), so the
arguments and the counting lines of a file are loaded by one loader from the same entries.
-/
import AsterKV.Asterd.ListenMode
import AsterKV.Config.ConfigFile

namespace AsterKV.Asterd

open AsterKV.Core AsterKV.Config AsterKV.Logging AsterKV.Network AsterKV.Server AsterKV.Wal
open Theory

set_option autoImplicit false

inductive ListenFlag where
  | maxClients
  | idleTimeout
  | logLevel
  | walFile
  | walSync
  deriving DecidableEq, Repr

namespace ListenFlag

def text : ListenFlag → Bytes
  | maxClients => bytes "--max-clients"
  | idleTimeout => bytes "--idle-timeout"
  | logLevel => bytes "--log-level"
  | walFile => bytes "--wal-file"
  | walSync => bytes "--wal-sync"

/-- The key that sets the same option in a file. -/
def key : ListenFlag → ConfigKey
  | maxClients => .maxClients
  | idleTimeout => .idleTimeoutSeconds
  | logLevel => .logLevel
  | walFile => .walFile
  | walSync => .walSync

/-- No flag sets the endpoint. -/
theorem key_ne_listen (flag : ListenFlag) : flag.key ≠ .listen := by cases flag <;> decide

end ListenFlag

structure Assignment where
  flag : ListenFlag
  value : Bytes
  deriving DecidableEq, Repr

def Assignment.entry (assignment : Assignment) : ConfigKey × Bytes :=
  (assignment.flag.key, assignment.value)

def flagArguments (assignments : List Assignment) : List Bytes :=
  assignments.flatMap fun assignment => [assignment.flag.text, assignment.value]

/-! ## The lines of the same options -/

/-- The line gives the option the value; blanks may stand around both. -/
def Writes (entry : ConfigKey × Bytes) (line : Bytes) : Prop :=
  ∃ indent beforeSign afterSign trailing : Bytes,
    line = indent ++ entry.1.text ++ beforeSign ++ byte '=' :: (afterSign ++ entry.2 ++ trailing) ∧
    (∀ ch ∈ indent, isAsciiSpace ch = true) ∧ (∀ ch ∈ beforeSign, isAsciiSpace ch = true) ∧
    (∀ ch ∈ afterSign, isAsciiSpace ch = true) ∧ ∀ ch ∈ trailing, isAsciiSpace ch = true

/-- Blank lines and comments apart, the text has a line for each assignment, in their order,
and a line for the endpoint anywhere among them. -/
def Corresponds (config endpointText : Bytes) (assignments : List Assignment) : Prop :=
  ∃ before listen after,
    (configLines config).filter (!isCommentOrEmptyLine ·) = before ++ listen :: after ∧
    Writes (.listen, endpointText) listen ∧
    List.Forall₂ Writes (assignments.map Assignment.entry) (before ++ after)

def configLine (entry : ConfigKey × Bytes) : Bytes := entry.1.text ++ bytes " = " ++ entry.2

/-- A file with these options. -/
def configText (endpointText : Bytes) (assignments : List Assignment) : Bytes :=
  [lineFeed].intercalate (((.listen, endpointText) :: assignments.map Assignment.entry).map configLine)

/-- One line, without a blank at either end. -/
structure PlainValue (value : Bytes) : Prop where
  oneLine : lineFeed ∉ value
  trimmed : Trimmed value

/-- Both are refused, or both give the same options. -/
def Agree (fromArguments fromFile : Except Bytes TcpServerOptions) : Prop :=
  (∃ printed printedToo, fromArguments = .error printed ∧ fromFile = .error printedToo) ∨
    ∃ options, fromArguments = .ok options ∧ fromFile = .ok options

/-! ## What is read of an entry -/

def entryRead (entry : ConfigKey × Bytes) : Except Bytes (Option Setting) :=
  match valueSetting entry.1 entry.2 with
  | .error message => .error message
  | .ok setting => .ok (some setting)

theorem ConfigKey.plain (key : ConfigKey) :
    byte '=' ∉ key.text ∧ trim key.text = key.text ∧
      ∃ front rest, key.text = front :: rest ∧ isAsciiSpace front = false ∧ front ≠ byte '#' := by
  cases key <;> exact ⟨by decide, by decide, _, _, rfl, by decide, by decide⟩

theorem sign_notMem_of_blank {blanks : Bytes} (blank : ∀ ch ∈ blanks, isAsciiSpace ch = true) :
    byte '=' ∉ blanks := fun member => absurd (blank _ member) (by decide)

theorem not_ignored_of_writes {line : Bytes} {entry : ConfigKey × Bytes} (writes : Writes entry line) :
    isCommentOrEmptyLine line = false := by
  obtain ⟨indent, beforeSign, afterSign, trailing, rfl, blankIndent, -⟩ := writes
  obtain ⟨-, -, front, rest, text, filled, noComment⟩ := ConfigKey.plain entry.1
  have behind := trim_blanks
    (entry.1.text ++ (beforeSign ++ byte '=' :: (afterSign ++ entry.2 ++ trailing))) blankIndent
    (by simp : ∀ ch ∈ ([] : Bytes), isAsciiSpace ch = true)
  obtain ⟨more, trimmed⟩ := exists_trim_cons
    (rest ++ (beforeSign ++ byte '=' :: (afterSign ++ entry.2 ++ trailing))) filled
  rw [text, List.cons_append, trimmed, List.append_nil] at behind
  rw [isCommentOrEmptyLine, text]
  simp only [List.append_assoc, List.cons_append] at behind ⊢
  rw [behind]
  simpa using noComment

/-- A line is read as the value it gives the option. -/
theorem lineSetting_of_writes {line : Bytes} {entry : ConfigKey × Bytes} (writes : Writes entry line)
    (trimmed : Trimmed entry.2) : lineSetting line = entryRead entry := by
  have counts : ¬ Ignored line := fun ignored => by
    rw [← isCommentOrEmptyLine_iff, not_ignored_of_writes writes] at ignored
    cases ignored
  obtain ⟨indent, beforeSign, afterSign, trailing, rfl, blankIndent, blankBefore, blankAfter,
    blankTrailing⟩ := writes
  obtain ⟨noSign, keyTrimmed, -⟩ := ConfigKey.plain entry.1
  have first : byte '=' ∉ indent ++ entry.1.text ++ beforeSign := by
    simp only [List.mem_append, not_or]
    exact ⟨⟨sign_notMem_of_blank blankIndent, noSign⟩, sign_notMem_of_blank blankBefore⟩
  rw [lineSetting_parts first counts, trim_blanks _ blankIndent blankBefore, keyTrimmed,
    trim_blanks _ blankAfter blankTrailing, trim_of_trimmed trimmed,
    entrySetting_of_text entry.1 rfl]
  rfl

theorem parsePositiveSize_eq (value err : Bytes) :
    parsePositiveSize value err =
      match positiveSize value with
      | none => .failure (.invalidArgument err)
      | some size => .success size := by
  unfold parsePositiveSize positiveSize
  simp only
  split <;> rfl

/-- A flag with its value is read as the value says: it is refused exactly when the value is
refused in a file. -/
theorem applyListenOption_flag (options : TcpServerOptions) (flag : ListenFlag) (value : Bytes) :
    (∃ message printed, valueSetting flag.key value = .error message ∧
      applyListenOption options flag.text (some value) = .error printed) ∨
    ∃ setting, valueSetting flag.key value = .ok setting ∧
      applyListenOption options flag.text (some value) = .ok (Setting.set options setting) := by
  cases flag with
  | maxClients =>
      rw [ListenFlag.text, ListenFlag.key, applyListenOption, if_pos rfl, parsePositiveSize_eq,
        valueSetting]
      cases positiveSize value with
      | none => exact Or.inl ⟨_, _, rfl, rfl⟩
      | some count => exact Or.inr ⟨_, rfl, rfl⟩
  | idleTimeout =>
      rw [ListenFlag.text, ListenFlag.key, applyListenOption, if_neg (by decide), if_pos rfl,
        parseIdleTimeoutSeconds, parsePositiveSize_eq, valueSetting]
      cases positiveSize value with
      | none => exact Or.inl ⟨_, _, rfl, rfl⟩
      | some seconds =>
          by_cases tooLarge : seconds.toNat > 2 ^ 32 - 1
          · simp only [Result.success, if_pos tooLarge]
            exact Or.inl ⟨_, _, rfl, rfl⟩
          · simp only [Result.success, if_neg tooLarge]
            exact Or.inr ⟨_, rfl, rfl⟩
  | logLevel =>
      rw [ListenFlag.text, ListenFlag.key, applyListenOption, if_neg (by decide),
        if_neg (by decide), if_pos rfl, valueSetting]
      cases logLevelFromString value with
      | error failure => exact Or.inl ⟨_, _, rfl, rfl⟩
      | ok level => exact Or.inr ⟨_, rfl, rfl⟩
  | walFile =>
      rw [ListenFlag.text, ListenFlag.key, applyListenOption, if_neg (by decide),
        if_neg (by decide), if_neg (by decide), if_pos rfl, valueSetting]
      cases value with
      | nil => exact Or.inl ⟨_, _, rfl, rfl⟩
      | cons ch path => exact Or.inr ⟨_, rfl, rfl⟩
  | walSync =>
      rw [ListenFlag.text, ListenFlag.key, applyListenOption, if_neg (by decide),
        if_neg (by decide), if_neg (by decide), if_neg (by decide), if_pos rfl, valueSetting]
      cases walSyncPolicyFromString value with
      | error failure => exact Or.inl ⟨_, _, rfl, rfl⟩
      | ok policy => exact Or.inr ⟨_, rfl, rfl⟩

/-! ## Arguments and files as entries -/

theorem listenOptions_eq_ok_iff {assignments : List Assignment} {options result : TcpServerOptions}
    {number : Nat} :
    listenOptions options (flagArguments assignments) = .ok result ↔
      Settings.load Setting.record entryRead options number (assignments.map Assignment.entry) =
        .ok result := by
  induction assignments generalizing options number with
  | nil => simp [flagArguments, listenOptions, Settings.load]
  | cons assignment rest ih =>
      have arguments : flagArguments (assignment :: rest) =
          assignment.flag.text :: assignment.value :: flagArguments rest := rfl
      rw [arguments, listenOptions, List.map_cons, Settings.load]
      rcases applyListenOption_flag options assignment.flag assignment.value with
        ⟨message, printed, refused, fails⟩ | ⟨setting, reads, applied⟩
      · have read : entryRead assignment.entry = .error message := by
          rw [entryRead, Assignment.entry, refused]
        rw [fails, read]
        simp
      · have read : entryRead assignment.entry = .ok (some setting) := by
          rw [entryRead, Assignment.entry, reads]
        rw [applied, read]
        exact ih

/-- **The arguments, as entries.** -/
theorem runListenModeFromArguments_eq_ok_iff {execName endpointText : Bytes}
    {assignments : List Assignment} {options : TcpServerOptions} :
    runListenModeFromArguments
        (execName :: bytes "--listen" :: endpointText :: flagArguments assignments) = .ok options ↔
      Settings.load Setting.record entryRead defaultServerOptions 1
        ((.listen, endpointText) :: assignments.map Assignment.entry) = .ok options := by
  rw [runListenModeFromArguments, Settings.load]
  simp only [List.drop_succ_cons, List.drop_zero, entryRead, valueSetting]
  cases parseTcpEndpoint endpointText with
  | error failure => simp
  | ok endpoint => exact listenOptions_eq_ok_iff

theorem key_of_entryRead {entry : ConfigKey × Bytes} {setting : Setting}
    (read : entryRead entry = .ok (some setting)) : setting.key = entry.1 := by
  unfold entryRead at read
  split at read
  · cases read
  · rename_i valid
    cases Option.some.inj (Except.ok.inj read)
    exact (valueSetting_eq_ok_iff.1 valid).1.symm

theorem notListen_of_read {assignments : List Assignment} {lines : List Bytes}
    (read : List.Forall₂ (fun entry line => lineSetting line = entryRead entry)
      (assignments.map Assignment.entry) lines) :
    ∀ line ∈ lines, ∀ setting, lineSetting line = .ok (some setting) → setting.key ≠ .listen := by
  rw [List.forall₂_map_left_iff] at read
  induction read with
  | nil => simp
  | @cons assignment line _ _ first _ ih =>
      refine List.forall_mem_cons.2 ⟨fun setting reads => ?_, ih⟩
      rw [first] at reads
      rw [key_of_entryRead reads]
      exact assignment.flag.key_ne_listen

theorem plain_entries {endpointText : Bytes} {assignments : List Assignment}
    (plainEndpoint : PlainValue endpointText)
    (plain : ∀ assignment ∈ assignments, PlainValue assignment.value) :
    ∀ entry ∈ (ConfigKey.listen, endpointText) :: assignments.map Assignment.entry,
      PlainValue entry.2 := by
  refine List.forall_mem_cons.2 ⟨plainEndpoint, fun entry member => ?_⟩
  obtain ⟨assignment, isOne, rfl⟩ := List.mem_map.1 member
  exact plain assignment isOne

/-- **The file, as entries.** -/
theorem parseServerConfig_of_corresponds {config endpointText : Bytes}
    {assignments : List Assignment} (plainEndpoint : PlainValue endpointText)
    (plain : ∀ assignment ∈ assignments, PlainValue assignment.value)
    (corresponds : Corresponds config endpointText assignments) {options : TcpServerOptions} :
    parseServerConfig config = .success options ↔
      Settings.load Setting.record entryRead defaultServerOptions 1
        ((.listen, endpointText) :: assignments.map Assignment.entry) = .ok options := by
  obtain ⟨before, listen, after, counting, writesListen, writes⟩ := corresponds
  have trimmed : ∀ entry ∈ (.listen, endpointText) :: assignments.map Assignment.entry,
      Trimmed entry.2 := fun entry member => (plain_entries plainEndpoint plain entry member).trimmed
  have written : List.Forall₂ Writes ((.listen, endpointText) :: assignments.map Assignment.entry)
      (listen :: (before ++ after)) := .cons writesListen writes
  have read : List.Forall₂ (fun entry line => lineSetting line = entryRead entry)
      ((.listen, endpointText) :: assignments.map Assignment.entry)
      (listen :: (before ++ after)) :=
    ((List.forall₂_and_left _ _).2 ⟨trimmed, written⟩).imp fun entry line both =>
      lineSetting_of_writes both.2 both.1
  obtain ⟨readListen, readRest⟩ := List.forall₂_cons.1 read
  have isApart : ∀ other ∈ before, Settings.Apart Setting.record lineSetting listen other := by
    intro other isBefore setting otherSetting reads readsOther same
    rw [readListen] at reads
    refine notListen_of_read readRest other (List.mem_append_left _ isBefore) _ readsOther ?_
    exact same.symm.trans (key_of_entryRead reads)
  have moved := Settings.reordered_behind [] after isApart
  have padded : (configLines config).filter (!isCommentOrEmptyLine ·) =
      (before ++ listen :: after).filter (!isCommentOrEmptyLine ·) := by
    rw [← counting, List.filter_filter]
    simp
  rw [parseServerConfig_eq_success_iff, ← Settings.load_congr read,
    Settings.load_padded (fun line skipped => ?_) padded]
  · exact Settings.load_reordered (fun _ _ same => same) moved
  · exact lineSetting_eq_none_iff.2 (isCommentOrEmptyLine_iff.1 (by simpa using skipped))

theorem runConfigModeFromArguments_eq_ok_iff {execName path config : Bytes}
    {options : TcpServerOptions} :
    runConfigModeFromArguments [execName, bytes "--config", path] (.content config) = .ok options ↔
      parseServerConfig config = .success options := by
  rw [runConfigModeFromArguments, loadServerConfig_content]
  cases parseServerConfig config with
  | error failure => simp [Result.success]
  | ok loaded => simp [Result.success]

theorem agree_of_ok_iff {fromArguments fromFile : Except Bytes TcpServerOptions}
    (same : ∀ options, fromArguments = .ok options ↔ fromFile = .ok options) :
    Agree fromArguments fromFile := by
  cases fromArguments with
  | ok options => exact Or.inr ⟨options, rfl, (same options).1 rfl⟩
  | error printed =>
      cases fromFile with
      | ok options => cases (same options).2 rfl
      | error printedToo => exact Or.inl ⟨printed, printedToo, rfl, rfl⟩

/-! ## A file for any options -/

theorem writes_configLine (entry : ConfigKey × Bytes) : Writes entry (configLine entry) := by
  have blank : ∀ ch ∈ [space], isAsciiSpace ch = true := by
    intro ch member
    rw [List.mem_singleton.1 member]
    rfl
  refine ⟨[], [space], [space], [], ?_, by simp, blank, blank, by simp⟩
  show entry.1.text ++ [space, byte '=', space] ++ entry.2 = _
  simp

theorem configLines_configText {endpointText : Bytes} {assignments : List Assignment}
    (plainEndpoint : PlainValue endpointText)
    (plain : ∀ assignment ∈ assignments, PlainValue assignment.value) :
    configLines (configText endpointText assignments) =
      ((.listen, endpointText) :: assignments.map Assignment.entry).map configLine := by
  refine List.splitOn_intercalate _ (fun line member => ?_) (by simp)
  obtain ⟨entry, isOne, rfl⟩ := List.mem_map.1 member
  have value := (plain_entries plainEndpoint plain entry isOne).oneLine
  have keyText : lineFeed ∉ entry.1.text := by cases entry.1 <;> decide
  have sign : lineFeed ∉ bytes " = " := by decide
  simp only [configLine, List.mem_append, not_or]
  exact ⟨⟨keyText, sign⟩, value⟩

theorem corresponds_configText {endpointText : Bytes} {assignments : List Assignment}
    (plainEndpoint : PlainValue endpointText)
    (plain : ∀ assignment ∈ assignments, PlainValue assignment.value) :
    Corresponds (configText endpointText assignments) endpointText assignments := by
  refine ⟨[], configLine (.listen, endpointText),
    (assignments.map Assignment.entry).map configLine, ?_, writes_configLine _, ?_⟩
  · rw [configLines_configText plainEndpoint plain, List.filter_eq_self.2]
    · rfl
    · intro line member
      obtain ⟨entry, -, rfl⟩ := List.mem_map.1 member
      rw [not_ignored_of_writes (writes_configLine entry)]
      rfl
  · rw [List.nil_append, List.forall₂_map_right_iff, List.forall₂_same]
    exact fun entry _ => writes_configLine entry

/-- **Flags and files agree.**  What the arguments come to and what a file with the
corresponding lines comes to is the same, and there is such a file. -/
theorem flags_and_file_agree {execName endpointText path : Bytes} {assignments : List Assignment}
    (plainEndpoint : PlainValue endpointText)
    (plain : ∀ assignment ∈ assignments, PlainValue assignment.value) :
    Corresponds (configText endpointText assignments) endpointText assignments ∧
    ∀ config, Corresponds config endpointText assignments →
      Agree
        (runListenModeFromArguments
          (execName :: bytes "--listen" :: endpointText :: flagArguments assignments))
        (runConfigModeFromArguments [execName, bytes "--config", path] (.content config)) := by
  refine ⟨corresponds_configText plainEndpoint plain, fun config corresponds => ?_⟩
  refine agree_of_ok_iff fun options => ?_
  rw [runListenModeFromArguments_eq_ok_iff, runConfigModeFromArguments_eq_ok_iff,
    parseServerConfig_of_corresponds plainEndpoint plain corresponds]

/-- The limit is given twice, and the endpoint behind it. -/
theorem flags_and_file_agree_repeated :
    let assignments : List Assignment :=
      [⟨.maxClients, bytes "16"⟩, ⟨.walSync, bytes "none"⟩, ⟨.idleTimeout, bytes "0060"⟩,
        ⟨.maxClients, bytes "8"⟩]
    let config := bytes "# limits\nmax_clients=16\n\nwal_sync = none\nlisten = 0.0.0.0:7722\n" ++
      bytes " idle_timeout_seconds =0060\nmax_clients = 8 \n"
    Agree
      (runListenModeFromArguments
        (bytes "asterd" :: bytes "--listen" :: bytes "0.0.0.0:7722" :: flagArguments assignments))
      (runConfigModeFromArguments [bytes "asterd", bytes "--config", bytes "asterd.conf"]
        (.content config)) := by
  intro assignments config
  have plainEndpoint : PlainValue (bytes "0.0.0.0:7722") :=
    ⟨by decide, by simp [Trimmed, bytes]; decide⟩
  have plain : ∀ assignment ∈ assignments, PlainValue assignment.value := by
    intro assignment member
    simp only [assignments, List.mem_cons, List.not_mem_nil, or_false] at member
    rcases member with rfl | rfl | rfl | rfl
    · exact ⟨by decide, by simp [Trimmed, bytes]; decide⟩
    · exact ⟨by decide, by simp [Trimmed, bytes]; decide⟩
    · exact ⟨by decide, by simp [Trimmed, bytes]; decide⟩
    · exact ⟨by decide, by simp [Trimmed, bytes]; decide⟩
  have blank : ∀ ch ∈ [space], isAsciiSpace ch = true := by simp; decide
  have none : ∀ ch ∈ ([] : Bytes), isAsciiSpace ch = true := by simp
  refine (flags_and_file_agree plainEndpoint plain).2 config ⟨[bytes "max_clients=16",
    bytes "wal_sync = none"], bytes "listen = 0.0.0.0:7722",
    [bytes " idle_timeout_seconds =0060", bytes "max_clients = 8 "], by decide,
    ⟨[], [space], [space], [], by decide, none, blank, blank, none⟩, ?_⟩
  refine .cons ⟨[], [], [], [], by decide, none, none, none, none⟩ (.cons ?_ (.cons ?_ (.cons ?_ .nil)))
  · exact ⟨[], [space], [space], [], by decide, none, blank, blank, none⟩
  · exact ⟨[space], [space], [], [], by decide, blank, blank, none, none⟩
  · exact ⟨[], [space], [space], [space], by decide, none, blank, blank, blank⟩

end AsterKV.Asterd
