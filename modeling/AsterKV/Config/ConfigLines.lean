/-
# AsterKV.Config.ConfigLines -- what a line of a configuration file says

A line is blank or a comment (`Ignored`), or it sets one option (`Assigns`), or it is
invalid.  Which of these it is, what it sets and what is said against it depend on the line
alone (`parseConfigLine_eq`): not on the options so far, and on its number only for the
number in the message.
-/
import AsterKV.Config.ServerConfig
import AsterKV.Theory.Settings

namespace AsterKV.Config

open AsterKV.Core AsterKV.Logging AsterKV.Network AsterKV.Server AsterKV.Wal
open Theory

set_option autoImplicit false

/-! ## Settings -/

inductive ConfigKey where
  | listen
  | maxClients
  | idleTimeoutSeconds
  | logLevel
  | walFile
  | walSync
  deriving DecidableEq, Repr

def ConfigKey.text : ConfigKey → Bytes
  | .listen => bytes "listen"
  | .maxClients => bytes "max_clients"
  | .idleTimeoutSeconds => bytes "idle_timeout_seconds"
  | .logLevel => bytes "log_level"
  | .walFile => bytes "wal_file"
  | .walSync => bytes "wal_sync"

/-- An option and its value. -/
inductive Setting where
  | listen (endpoint : TcpEndpoint)
  | maxClients (count : UInt64)
  | idleTimeoutSeconds (seconds : UInt32)
  | logLevel (level : LogLevel)
  | walFile (path : Bytes)
  | walSync (policy : WalSyncPolicy)
  deriving DecidableEq, Repr

namespace Setting

def key : Setting → ConfigKey
  | .listen _ => .listen
  | .maxClients _ => .maxClients
  | .idleTimeoutSeconds _ => .idleTimeoutSeconds
  | .logLevel _ => .logLevel
  | .walFile _ => .walFile
  | .walSync _ => .walSync

def set (options : TcpServerOptions) : Setting → TcpServerOptions
  | .listen endpoint => { options with endpoint := endpoint }
  | .maxClients count => { options with maxClientWorkers := count }
  | .idleTimeoutSeconds seconds => { options with clientIdleTimeoutSeconds := seconds }
  | .logLevel level => { options with logLevel := level }
  | .walFile path => { options with walFilePath := path }
  | .walSync policy => { options with walSyncPolicy := policy }

def get (options : TcpServerOptions) : ConfigKey → Setting
  | .listen => .listen options.endpoint
  | .maxClients => .maxClients options.maxClientWorkers
  | .idleTimeoutSeconds => .idleTimeoutSeconds options.clientIdleTimeoutSeconds
  | .logLevel => .logLevel options.logLevel
  | .walFile => .walFile options.walFilePath
  | .walSync => .walSync options.walSyncPolicy

/-- The server's options, one setting for each key. -/
def record : Settings.Record TcpServerOptions Setting ConfigKey where
  key := key
  set := set
  get := get
  get_set options setting := by cases setting <;> rfl
  get_set_of_ne options setting key other := by
    cases setting <;> cases key <;> first | rfl | exact absurd rfl other
  ext first second same := by
    cases first
    cases second
    have endpoint := Setting.listen.inj (same .listen)
    have count := Setting.maxClients.inj (same .maxClients)
    have seconds := Setting.idleTimeoutSeconds.inj (same .idleTimeoutSeconds)
    have level := Setting.logLevel.inj (same .logLevel)
    have path := Setting.walFile.inj (same .walFile)
    have policy := Setting.walSync.inj (same .walSync)
    simp only at endpoint count seconds level path policy
    rw [endpoint, count, seconds, level, path, policy]

/-- The texts of a value. -/
def ValueText : Setting → Bytes → Prop
  | .listen endpoint, text =>
      ∃ portText, EndpointText text endpoint.host portText endpoint.port.toNat
  | .maxClients count, text => Numeral text count.toNat ∧ count ≠ 0
  | .idleTimeoutSeconds seconds, text => Numeral text seconds.toNat ∧ seconds ≠ 0
  | .logLevel level, text => logLevelFromString text = .success level
  | .walFile path, text => text = path ∧ path ≠ []
  | .walSync policy, text => text = walSyncPolicyToString policy

end Setting

/-! ## Values -/

/-- The size that `std::from_chars` finds in the whole text, unless it is 0. -/
def positiveSize (value : Bytes) : Option UInt64 :=
  let result := fromChars (2 ^ 64 - 1) value
  if result.ec ≠ none ∨ result.ptr ≠ value.length ∨ result.parsedValue = 0 then none
  else some (UInt64.ofNat result.parsedValue)

theorem positiveSize_eq_some_iff {value : Bytes} {size : UInt64} :
    positiveSize value = some size ↔ Numeral value size.toNat ∧ size ≠ 0 := by
  have zero : size ≠ 0 ↔ size.toNat ≠ 0 := by
    rw [ne_eq, ne_eq, ← UInt64.toNat_inj]
    rfl
  rw [positiveSize, zero]
  constructor
  · intro found
    split at found
    · cases found
    · rename_i whole
      simp only [ne_eq, not_or, not_not] at whole
      obtain ⟨ec, ptr, positive⟩ := whole
      obtain ⟨numeral, fits⟩ := fromChars_whole_iff.1 ⟨ec, ptr, rfl⟩
      cases Option.some.inj found
      have same : (UInt64.ofNat (fromChars (2 ^ 64 - 1) value).parsedValue).toNat =
          (fromChars (2 ^ 64 - 1) value).parsedValue := by
        rw [UInt64.toNat_ofNat']
        omega
      rw [same]
      exact ⟨numeral, positive⟩
  · rintro ⟨numeral, positive⟩
    have bound := size.toNat_lt
    obtain ⟨ec, ptr, parsed⟩ := fromChars_whole_iff.2 ⟨numeral, (by omega : _ ≤ 2 ^ 64 - 1)⟩
    simp only [ec, ptr, parsed, positive, ne_eq, not_true_eq_false, false_or, if_false,
      UInt64.ofNat_toNat]

/-- A size that 32 bits hold is narrowed to the number it was. -/
theorem narrowed_iff {value : Bytes} {seconds : UInt32} :
    (∃ size, positiveSize value = some size ∧ ¬ size.toNat > 2 ^ 32 - 1 ∧
      size.toUInt32 = seconds) ↔ Numeral value seconds.toNat ∧ seconds ≠ 0 := by
  have zero : ∀ seconds : UInt32, seconds ≠ 0 ↔ seconds.toNat ≠ 0 := fun seconds => by
    rw [ne_eq, ne_eq, ← UInt32.toNat_inj]
    rfl
  have zeroSize : ∀ size : UInt64, size ≠ 0 ↔ size.toNat ≠ 0 := fun size => by
    rw [ne_eq, ne_eq, ← UInt64.toNat_inj]
    rfl
  constructor
  · rintro ⟨size, found, fits, rfl⟩
    obtain ⟨numeral, positive⟩ := positiveSize_eq_some_iff.1 found
    have same : size.toUInt32.toNat = size.toNat := by
      rw [UInt64.toNat_toUInt32]
      omega
    rw [zero, same]
    exact ⟨numeral, (zeroSize size).1 positive⟩
  · rintro ⟨numeral, positive⟩
    have bound := seconds.toNat_lt
    have wide : seconds.toUInt64.toNat = seconds.toNat := UInt32.toNat_toUInt64 seconds
    refine ⟨seconds.toUInt64, positiveSize_eq_some_iff.2 ⟨?_, ?_⟩, ?_, ?_⟩
    · rwa [wide]
    · rw [zeroSize, wide]
      exact (zero seconds).1 positive
    · omega
    · rw [← UInt32.toNat_inj, UInt64.toNat_toUInt32, wide]
      omega

/-! ## Blanks around a text -/

theorem trim_of_blank {value : Bytes} (blank : ∀ ch ∈ value, isAsciiSpace ch = true) :
    trim value = [] := by
  rw [trim, List.dropWhile_eq_nil_iff.2 blank, List.rdropWhile_nil]

theorem trim_append_of_space (value : Bytes) {ch : UInt8} (is : isAsciiSpace ch = true) :
    trim (value ++ [ch]) = trim value := by
  by_cases blank : ∀ c ∈ value, isAsciiSpace c = true
  · rw [trim_of_blank blank, trim_of_blank]
    intro c member
    rcases List.mem_append.1 member with inValue | last
    · exact blank c inValue
    · rwa [List.mem_singleton.1 last]
  · have kept : value.dropWhile isAsciiSpace ≠ [] := fun empty =>
      blank (List.dropWhile_eq_nil_iff.1 empty)
    have behind : (value ++ [ch]).dropWhile isAsciiSpace = value.dropWhile isAsciiSpace ++ [ch] := by
      rw [List.dropWhile_append, if_neg (by simpa using kept)]
    rw [trim, behind, List.rdropWhile_concat_pos _ _ _ is, trim]

/-- A text without a blank at either end. -/
def Trimmed (value : Bytes) : Prop :=
  (∀ ch ∈ value.head?, isAsciiSpace ch = false) ∧ ∀ ch ∈ value.getLast?, isAsciiSpace ch = false

theorem trim_of_trimmed {value : Bytes} (trimmed : Trimmed value) : trim value = value := by
  obtain ⟨first, last⟩ := trimmed
  have front : value.dropWhile isAsciiSpace = value := by
    cases value with
    | nil => rfl
    | cons ch rest => rw [List.dropWhile_cons_of_neg (by simp [first ch rfl])]
  rw [trim, front, List.rdropWhile_eq_self_iff]
  intro filled
  simp [last _ (List.getLast?_eq_some_getLast filled)]

theorem trimmed_trim (value : Bytes) : Trimmed (trim value) := by
  unfold trim
  constructor
  · intro ch member
    have stopped := List.head?_dropWhile_not isAsciiSpace value
    obtain ⟨behind, whole⟩ := List.rdropWhile_prefix isAsciiSpace (value.dropWhile isAsciiSpace)
    have first : (value.dropWhile isAsciiSpace).head? = some ch := by
      rw [← whole, List.head?_append, Option.mem_def.1 member, Option.some_or]
    rw [first] at stopped
    exact stopped
  · intro ch member
    obtain ⟨filled, rfl⟩ := List.mem_getLast?_eq_getLast member
    have stopped := List.rdropWhile_last_not isAsciiSpace (value.dropWhile isAsciiSpace) filled
    simpa using stopped

theorem trim_trim (value : Bytes) : trim (trim value) = trim value :=
  trim_of_trimmed (trimmed_trim value)

theorem trim_append_of_blank (value : Bytes) {after : Bytes}
    (blank : ∀ ch ∈ after, isAsciiSpace ch = true) : trim (value ++ after) = trim value := by
  induction after using List.reverseRecOn with
  | nil => rw [List.append_nil]
  | append_singleton rest last ih =>
      rw [← List.append_assoc, trim_append_of_space _ (blank last (by simp))]
      exact ih fun ch member => blank ch (List.mem_append_left _ member)

/-- Blanks around a text do not count. -/
theorem trim_blanks {before after : Bytes} (value : Bytes)
    (blankBefore : ∀ ch ∈ before, isAsciiSpace ch = true)
    (blankAfter : ∀ ch ∈ after, isAsciiSpace ch = true) :
    trim (before ++ value ++ after) = trim value := by
  rw [trim_append_of_blank _ blankAfter, trim, trim, List.dropWhile_append_of_pos blankBefore]

theorem trim_eq_nil_iff {value : Bytes} :
    trim value = [] ↔ ∀ ch ∈ value, isAsciiSpace ch = true := by
  refine ⟨fun empty => ?_, trim_of_blank⟩
  have kept := List.rdropWhile_eq_nil_iff.1 empty
  refine List.dropWhile_eq_nil_iff.1 (List.eq_nil_iff_forall_not_mem.2 fun ch member => ?_)
  have stopped := List.head?_dropWhile_not isAsciiSpace value
  obtain ⟨front, rest, shape⟩ := List.exists_cons_of_ne_nil (List.ne_nil_of_mem member)
  rw [shape] at kept stopped
  have blank : isAsciiSpace front = true := kept front List.mem_cons_self
  have filled : isAsciiSpace front = false := stopped
  rw [blank] at filled
  cases filled

/-- A text that starts with no blank starts alike when trimmed. -/
theorem exists_trim_cons {front : UInt8} (rest : Bytes) (filled : isAsciiSpace front = false) :
    ∃ more, trim (front :: rest) = front :: more := by
  have kept : (front :: rest).dropWhile isAsciiSpace = front :: rest := by
    rw [List.dropWhile_cons_of_neg (by simp [filled])]
  obtain ⟨behind, whole⟩ := List.rdropWhile_prefix isAsciiSpace (front :: rest)
  rw [trim, kept]
  cases shape : (front :: rest).rdropWhile isAsciiSpace with
  | nil =>
      have blank := List.rdropWhile_eq_nil_iff.1 shape front List.mem_cons_self
      rw [filled] at blank
      cases blank
  | cons first more =>
      rw [shape, List.cons_append] at whole
      exact ⟨more, by rw [(List.cons.inj whole).1]⟩

/-- Blank, or `#` behind blanks. -/
def Ignored (line : Bytes) : Prop :=
  (∀ ch ∈ line, isAsciiSpace ch = true) ∨
    ∃ blanks comment, line = blanks ++ byte '#' :: comment ∧
      ∀ ch ∈ blanks, isAsciiSpace ch = true

theorem isCommentOrEmptyLine_iff {line : Bytes} :
    isCommentOrEmptyLine line = true ↔ Ignored line := by
  unfold isCommentOrEmptyLine Ignored
  constructor
  · intro skipped
    split at skipped
    · rename_i empty
      exact Or.inl (trim_eq_nil_iff.1 empty)
    · rename_i front rest shape
      have sharp : front = byte '#' := by simpa using skipped
      obtain ⟨behind, whole⟩ := List.rdropWhile_prefix isAsciiSpace (line.dropWhile isAsciiSpace)
      rw [show (line.dropWhile isAsciiSpace).rdropWhile isAsciiSpace = _ from shape, sharp] at whole
      refine Or.inr ⟨line.takeWhile isAsciiSpace, rest ++ behind, ?_, fun ch member => ?_⟩
      · rw [← List.cons_append, whole, List.takeWhile_append_dropWhile]
      · exact List.mem_takeWhile_imp member
  · rintro (blank | ⟨blanks, comment, rfl, blank⟩)
    · rw [trim_of_blank blank]
    · have front : trim (blanks ++ byte '#' :: comment) = trim (byte '#' :: comment) := by
        have around := trim_blanks (byte '#' :: comment) blank
          (by simp : ∀ ch ∈ ([] : Bytes), isAsciiSpace ch = true)
        rwa [List.append_nil] at around
      obtain ⟨more, shape⟩ := exists_trim_cons comment (by decide : isAsciiSpace (byte '#') = false)
      rw [front, shape]
      simp

/-! ## Lines -/

def ConfigKey.all : List ConfigKey :=
  [.listen, .maxClients, .idleTimeoutSeconds, .logLevel, .walFile, .walSync]

def ConfigKey.ofText (text : Bytes) : Option ConfigKey := all.find? (·.text == text)

/-- What a value says for a key, or what is said against it. -/
def valueSetting (key : ConfigKey) (value : Bytes) : Except Bytes Setting :=
  match key with
  | .listen =>
      match parseTcpEndpoint value with
      | .error failure => .error (bytes "invalid listen endpoint: " ++ failure.val.message)
      | .ok endpoint => .ok (.listen endpoint)
  | .maxClients =>
      match positiveSize value with
      | none => .error (key.text ++ bytes " must be a positive integer")
      | some count => .ok (.maxClients count)
  | .idleTimeoutSeconds =>
      match positiveSize value with
      | none => .error (key.text ++ bytes " must be a positive integer")
      | some seconds =>
          if seconds.toNat > 2 ^ 32 - 1 then .error (key.text ++ bytes " is too large")
          else .ok (.idleTimeoutSeconds seconds.toUInt32)
  | .logLevel =>
      match logLevelFromString value with
      | .error failure => .error (bytes "invalid log_level: " ++ failure.val.message)
      | .ok level => .ok (.logLevel level)
  | .walFile =>
      if value.isEmpty then .error (bytes "wal_file must not be empty") else .ok (.walFile value)
  | .walSync =>
      match walSyncPolicyFromString value with
      | .error failure => .error failure.val.message
      | .ok policy => .ok (.walSync policy)

def entrySetting (key value : Bytes) : Except Bytes Setting :=
  if key.isEmpty then .error (bytes "config key must not be empty")
  else match ConfigKey.ofText key with
    | none => .error (bytes "unknown config key: " ++ key)
    | some key => valueSetting key value

/-- What a line says, `none` when it is ignored. -/
def lineSetting (line : Bytes) : Except Bytes (Option Setting) :=
  if isCommentOrEmptyLine line then .ok none
  else if byte '=' ∉ line then .error (bytes "expected key = value")
  else
    let separatorPos := line.idxOf (byte '=')
    match entrySetting (trim (line.take separatorPos)) (trim (line.drop (separatorPos + 1))) with
    | .error message => .error message
    | .ok setting => .ok (some setting)

theorem ConfigKey.ofText_eq_some_iff {text : Bytes} {key : ConfigKey} :
    ofText text = some key ↔ text = key.text := by
  constructor
  · intro found
    have same := List.find?_some found
    exact (beq_iff_eq.1 same).symm
  · rintro rfl
    cases key <;> decide

theorem entrySetting_of_text (key : ConfigKey) {text : Bytes} (same : text = key.text)
    (value : Bytes) : entrySetting text value = valueSetting key value := by
  subst same
  have filled : key.text.isEmpty = false := by cases key <;> decide
  simp only [entrySetting, filled, Bool.false_eq_true, if_false,
    ConfigKey.ofText_eq_some_iff.2 rfl]

theorem parsePositiveSizeValue_eq (value : Bytes) (lineNumber : Nat) (fieldName : Bytes) :
    parsePositiveSizeValue value lineNumber fieldName =
      match positiveSize (trim value) with
      | none => .failure
          (makeLineError lineNumber (fieldName ++ bytes " must be a positive integer"))
      | some size => .success size := by
  unfold parsePositiveSizeValue positiveSize
  simp only
  split <;> rfl

theorem applyConfigEntry_eq (options : TcpServerOptions) (key value : Bytes) (lineNumber : Nat) :
    applyConfigEntry options key value lineNumber =
      match entrySetting (trim key) (trim value) with
      | .error message => (makeLineError lineNumber message, options)
      | .ok setting => (.ok, Setting.set options setting) := by
  unfold applyConfigEntry
  simp only [parsePositiveUint32Value, parsePositiveSizeValue_eq, trim_trim]
  generalize trim key = key
  generalize trim value = value
  by_cases empty : key.isEmpty = true
  · simp only [entrySetting, if_pos empty]
  rw [if_neg empty]
  by_cases listen : key = bytes "listen"
  · rw [if_pos listen, entrySetting_of_text .listen listen, valueSetting]
    cases parseTcpEndpoint value <;> rfl
  rw [if_neg listen]
  by_cases maxClients : key = bytes "max_clients"
  · rw [if_pos maxClients, entrySetting_of_text .maxClients maxClients, valueSetting]
    cases positiveSize value <;> rfl
  rw [if_neg maxClients]
  by_cases idleTimeout : key = bytes "idle_timeout_seconds"
  · rw [if_pos idleTimeout, entrySetting_of_text .idleTimeoutSeconds idleTimeout, valueSetting]
    cases positiveSize value with
    | none => rfl
    | some seconds =>
        by_cases tooLarge : seconds.toNat > 2 ^ 32 - 1
        · simp only [Result.success, if_pos tooLarge]
          rfl
        · simp only [Result.success, if_neg tooLarge]
          rfl
  rw [if_neg idleTimeout]
  by_cases logLevel : key = bytes "log_level"
  · rw [if_pos logLevel, entrySetting_of_text .logLevel logLevel, valueSetting]
    cases logLevelFromString value <;> rfl
  rw [if_neg logLevel]
  by_cases walFile : key = bytes "wal_file"
  · rw [if_pos walFile, entrySetting_of_text .walFile walFile, valueSetting]
    cases value <;> rfl
  rw [if_neg walFile]
  by_cases walSync : key = bytes "wal_sync"
  · rw [if_pos walSync, entrySetting_of_text .walSync walSync, valueSetting]
    cases walSyncPolicyFromString value <;> rfl
  rw [if_neg walSync]
  have unknown : ConfigKey.ofText key = none := by
    rw [Option.eq_none_iff_forall_ne_some]
    intro known found
    have same := ConfigKey.ofText_eq_some_iff.1 found
    cases known with
    | listen => exact listen same
    | maxClients => exact maxClients same
    | idleTimeoutSeconds => exact idleTimeout same
    | logLevel => exact logLevel same
    | walFile => exact walFile same
    | walSync => exact walSync same
  simp only [entrySetting, if_neg empty, unknown]

/-- What the call does with a line: the options change by what the line says, or the message
is put behind its number. -/
theorem parseConfigLine_eq (options : TcpServerOptions) (line : Bytes) (lineNumber : Nat) :
    parseConfigLine options line lineNumber =
      match lineSetting line with
      | .error message => (makeLineError lineNumber message, options)
      | .ok none => (.ok, options)
      | .ok (some setting) => (.ok, Setting.set options setting) := by
  unfold parseConfigLine lineSetting
  split
  · rfl
  · split
    · rfl
    · simp only [applyConfigEntry_eq]
      cases entrySetting _ _ <;> rfl

/-! ## What is valid -/

theorem valueSetting_eq_ok_iff {key : ConfigKey} {value : Bytes} {setting : Setting} :
    valueSetting key value = .ok setting ↔ key = setting.key ∧ setting.ValueText value := by
  constructor
  · intro valid
    cases key with
    | listen =>
        cases read : parseTcpEndpoint value with
        | error failure =>
            rw [valueSetting, read] at valid
            cases valid
        | ok endpoint =>
            rw [valueSetting, read] at valid
            cases Except.ok.inj valid
            exact ⟨rfl, parseTcpEndpoint_iff.1 read⟩
    | maxClients =>
        cases read : positiveSize value with
        | none =>
            rw [valueSetting, read] at valid
            cases valid
        | some count =>
            rw [valueSetting, read] at valid
            cases Except.ok.inj valid
            exact ⟨rfl, positiveSize_eq_some_iff.1 read⟩
    | idleTimeoutSeconds =>
        cases read : positiveSize value with
        | none =>
            rw [valueSetting, read] at valid
            cases valid
        | some size =>
            rw [valueSetting, read] at valid
            simp only at valid
            split at valid
            · cases valid
            · rename_i fits
              cases Except.ok.inj valid
              exact ⟨rfl, narrowed_iff.1 ⟨size, read, fits, rfl⟩⟩
    | logLevel =>
        cases read : logLevelFromString value with
        | error failure =>
            rw [valueSetting, read] at valid
            cases valid
        | ok level =>
            rw [valueSetting, read] at valid
            cases Except.ok.inj valid
            exact ⟨rfl, read⟩
    | walFile =>
        rw [valueSetting] at valid
        split at valid
        · cases valid
        · rename_i filled
          cases Except.ok.inj valid
          exact ⟨rfl, rfl, by simpa using filled⟩
    | walSync =>
        cases read : walSyncPolicyFromString value with
        | error failure =>
            rw [valueSetting, read] at valid
            cases valid
        | ok policy =>
            rw [valueSetting, read] at valid
            cases Except.ok.inj valid
            exact ⟨rfl, walSyncPolicyFromString_iff.1 read⟩
  · rintro ⟨rfl, text⟩
    cases setting with
    | listen endpoint =>
        have read := parseTcpEndpoint_iff.2 text
        rw [Setting.key, valueSetting, read]
        rfl
    | maxClients count => rw [Setting.key, valueSetting, positiveSize_eq_some_iff.2 text]
    | idleTimeoutSeconds seconds =>
        obtain ⟨size, read, fits, rfl⟩ := narrowed_iff.2 text
        rw [Setting.key, valueSetting, read]
        simp only [if_neg fits]
    | logLevel level =>
        have read : logLevelFromString value = .success level := text
        rw [Setting.key, valueSetting, read]
        rfl
    | walFile path =>
        obtain ⟨rfl, filled⟩ := text
        rw [Setting.key, valueSetting, if_neg (by simpa using filled)]
    | walSync policy =>
        have read := walSyncPolicyFromString_iff.2 text
        rw [Setting.key, valueSetting, read]
        rfl

theorem entrySetting_eq_ok_iff {key value : Bytes} {setting : Setting} :
    entrySetting key value = .ok setting ↔ key = setting.key.text ∧ setting.ValueText value := by
  constructor
  · intro valid
    unfold entrySetting at valid
    split at valid
    · cases valid
    · split at valid
      · cases valid
      · rename_i known found
        obtain ⟨same, text⟩ := valueSetting_eq_ok_iff.1 valid
        exact ⟨same ▸ ConfigKey.ofText_eq_some_iff.1 found, text⟩
  · rintro ⟨rfl, text⟩
    rw [entrySetting_of_text setting.key rfl]
    exact valueSetting_eq_ok_iff.2 ⟨rfl, text⟩

/-- The line is no comment, and behind blanks and before the first `=` it names the option
whose value stands behind that. -/
structure Assigns (line : Bytes) (setting : Setting) : Prop where
  counts : ¬ Ignored line
  entry : ∃ key value, line = key ++ byte '=' :: value ∧ byte '=' ∉ key ∧
    trim key = setting.key.text ∧ setting.ValueText (trim value)

theorem lineSetting_eq_none_iff {line : Bytes} : lineSetting line = .ok none ↔ Ignored line := by
  rw [← isCommentOrEmptyLine_iff, lineSetting]
  constructor
  · intro reads
    split at reads
    · assumption
    · split at reads
      · cases reads
      · simp only at reads
        split at reads
        · cases reads
        · cases Except.ok.inj reads
  · intro skipped
    rw [if_pos skipped]

/-- A line with a separator, by what stands before its first one. -/
theorem lineSetting_parts {key value : Bytes} (first : byte '=' ∉ key)
    (counts : ¬ Ignored (key ++ byte '=' :: value)) :
    lineSetting (key ++ byte '=' :: value) =
      match entrySetting (trim key) (trim value) with
      | .error message => .error message
      | .ok setting => .ok (some setting) := by
  obtain ⟨separator, keyPart, valuePart⟩ := parts_at_first first value
  have present : byte '=' ∈ key ++ byte '=' :: value := by simp
  rw [lineSetting, if_neg fun skipped => counts (isCommentOrEmptyLine_iff.1 skipped),
    if_neg (not_not.2 present)]
  simp only [separator, keyPart, valuePart]

theorem lineSetting_eq_some_iff {line : Bytes} {setting : Setting} :
    lineSetting line = .ok (some setting) ↔ Assigns line setting := by
  constructor
  · intro reads
    have counts : ¬ Ignored line := fun ignored => by
      rw [lineSetting_eq_none_iff.2 ignored] at reads
      cases Except.ok.inj reads
    by_cases present : byte '=' ∈ line
    · obtain ⟨key, value, rfl, first⟩ := List.eq_append_cons_of_mem present
      rw [lineSetting_parts first counts] at reads
      split at reads
      · cases reads
      · rename_i read
        cases Option.some.inj (Except.ok.inj reads)
        obtain ⟨name, text⟩ := entrySetting_eq_ok_iff.1 read
        exact ⟨counts, key, value, rfl, first, name, text⟩
    · rw [lineSetting, if_neg fun skipped => counts (isCommentOrEmptyLine_iff.1 skipped),
        if_pos present] at reads
      cases reads
  · rintro ⟨counts, key, value, rfl, first, name, text⟩
    rw [lineSetting_parts first counts, entrySetting_eq_ok_iff.2 ⟨name, text⟩]

end AsterKV.Config
