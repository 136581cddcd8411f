/-
# AsterKV.Asterd.StartOptions -- what the daemon can be started with

Not every value of `TcpServerOptions` can be asked for.  `options_given` says which can: by a
file, and by arguments.  A file cannot give what trimming or the cutting into lines takes
away, an argument not what stands behind a NUL; neither can give an endpoint or a count that
the server would refuse.
-/
import AsterKV.Asterd.OptionSources
import AsterKV.Theory.Lines

namespace AsterKV.Asterd

open AsterKV.Core AsterKV.Config AsterKV.Logging AsterKV.Network AsterKV.Server AsterKV.Wal
open Theory

set_option autoImplicit false

/-- What every option value has that is asked for in one of the two ways. -/
structure ServableOptions (options : TcpServerOptions) : Prop where
  host : options.endpoint.host ≠ []
  oneColon : colon ∉ options.endpoint.host
  port : 1 ≤ options.endpoint.port.toNat
  maxClients : options.maxClientWorkers ≠ 0
  idleTimeout : options.clientIdleTimeoutSeconds ≠ 0

/-- Options that can be written in a file. -/
structure FileOptions (options : TcpServerOptions) : Prop extends ServableOptions options where
  hostLine : lineFeed ∉ options.endpoint.host
  hostStart : ∀ ch ∈ options.endpoint.host.head?, isAsciiSpace ch = false
  path : PlainValue options.walFilePath

/-- What can be an argument of a process: it ends at its first NUL. -/
def IsArgument (value : Bytes) : Prop := (0 : UInt8) ∉ value

/-- Options that can be written in arguments. -/
structure ArgumentOptions (options : TcpServerOptions) : Prop extends ServableOptions options where
  hostArgument : IsArgument options.endpoint.host
  path : IsArgument options.walFilePath

/-! ## Values -/

/-- For each option a text is allowed that is read as its value, or the value is the default. -/
def Written (allowed : Bytes → Prop) (options : TcpServerOptions) : Prop :=
  ∀ key, Setting.get options key = Setting.get defaultServerOptions key ∨
    ∃ value, allowed value ∧ (Setting.get options key).ValueText value

theorem key_get (options : TcpServerOptions) (key : ConfigKey) :
    (Setting.get options key).key = key := by
  cases key <;> rfl

theorem ConfigKey.all (key : ConfigKey) : key ∈ [ConfigKey.listen, .maxClients,
    .idleTimeoutSeconds, .logLevel, .walFile, .walSync] := by
  cases key <;> decide

/-- The options one by one, where what the program prints of a value is allowed. -/
theorem written_iff {allowed : Bytes → Prop} (decimals : ∀ n, allowed (toDecimal n))
    (levels : ∀ level, allowed (logLevelToString level))
    (policies : ∀ policy, allowed (walSyncPolicyToString policy))
    (default : allowed (tcpEndpointToString defaultServerOptions.endpoint))
    {options : TcpServerOptions} :
    Written allowed options ↔
      (∃ value, allowed value ∧ parseTcpEndpoint value = .success options.endpoint) ∧
        options.maxClientWorkers ≠ 0 ∧ options.clientIdleTimeoutSeconds ≠ 0 ∧
        (options.walFilePath = [] ∨ allowed options.walFilePath) := by
  constructor
  · intro written
    refine ⟨?_, ?_, ?_, ?_⟩
    · rcases written .listen with same | ⟨value, isAllowed, text⟩
      · rw [Setting.listen.inj same]
        exact ⟨_, default, by decide⟩
      · exact ⟨value, isAllowed, parseTcpEndpoint_iff.2 text⟩
    · rcases written .maxClients with same | ⟨value, -, text⟩
      · rw [Setting.maxClients.inj same]
        decide
      · exact text.2
    · rcases written .idleTimeoutSeconds with same | ⟨value, -, text⟩
      · rw [Setting.idleTimeoutSeconds.inj same]
        decide
      · exact text.2
    · rcases written .walFile with same | ⟨value, isAllowed, text⟩
      · exact Or.inl (Setting.walFile.inj same)
      · rw [← text.1]
        exact Or.inr isAllowed
  · rintro ⟨⟨endpointText, isAllowed, read⟩, count, seconds, path⟩ key
    cases key with
    | listen => exact Or.inr ⟨endpointText, isAllowed, parseTcpEndpoint_iff.1 read⟩
    | maxClients => exact Or.inr ⟨_, decimals _, numeral_toDecimal _, count⟩
    | idleTimeoutSeconds => exact Or.inr ⟨_, decimals _, numeral_toDecimal _, seconds⟩
    | logLevel => exact Or.inr ⟨_, levels _, logLevelFromString_toString _⟩
    | walFile =>
        by_cases empty : options.walFilePath = []
        · exact Or.inl (congrArg Setting.walFile empty)
        · exact Or.inr ⟨_, path.resolve_left empty, rfl, empty⟩
    | walSync => exact Or.inr ⟨_, policies _, rfl⟩

/-! ## Files -/

/-- The lines of a text are any lines. -/
theorem exists_config_iff {options : TcpServerOptions} :
    (∃ config, parseServerConfig config = .success options) ↔
      ∃ lines, (∀ line ∈ lines, lineFeed ∉ line) ∧
        Settings.load Setting.record lineSetting defaultServerOptions 1 lines = .ok options := by
  simp only [parseServerConfig_eq_success_iff]
  constructor
  · rintro ⟨config, loaded⟩
    exact ⟨configLines config, fun line member => Lines.notMem_of_mem_splitOn _ member, loaded⟩
  · rintro ⟨lines, oneLine, loaded⟩
    -- An empty text has a line of its own, so one is put in front.
    refine ⟨[lineFeed].intercalate ([] :: lines), ?_⟩
    have parts : configLines ([lineFeed].intercalate ([] :: lines)) = [] :: lines :=
      List.splitOn_intercalate _ (List.forall_mem_cons.2 ⟨List.not_mem_nil, oneLine⟩) (by simp)
    have skipped : lineSetting [] = .ok none := by decide
    rw [Settings.load_eq_ok_iff] at loaded
    rw [parts, Settings.load, skipped]
    exact Settings.load_eq_ok_iff.2 loaded

theorem mem_of_mem_trim {value : Bytes} {ch : UInt8} (member : ch ∈ trim value) : ch ∈ value :=
  (List.dropWhile_suffix _).subset ((List.rdropWhile_prefix _ _).subset member)

theorem entryRead_of_valueText {setting : Setting} {value : Bytes} (text : setting.ValueText value) :
    entryRead (setting.key, value) = .ok (some setting) := by
  have reads : valueSetting setting.key value = .ok setting := valueSetting_eq_ok_iff.2 ⟨rfl, text⟩
  rw [entryRead, reads]

theorem valueText_of_entryRead {entry : ConfigKey × Bytes} {setting : Setting}
    (read : entryRead entry = .ok (some setting)) : setting.ValueText entry.2 := by
  unfold entryRead at read
  split at read
  · cases read
  · rename_i valid
    cases Option.some.inj (Except.ok.inj read)
    exact (valueSetting_eq_ok_iff.1 valid).2

/-- What a line sets is what some trimmed text of one line is read as. -/
theorem settable_line_iff {setting : Setting} :
    Settings.Settable lineSetting (lineFeed ∉ ·) setting ↔
      ∃ value, PlainValue value ∧ setting.ValueText value := by
  constructor
  · rintro ⟨line, oneLine, reads⟩
    obtain ⟨-, key, value, rfl, -, -, text⟩ := lineSetting_eq_some_iff.1 reads
    refine ⟨trim value, ⟨fun member => oneLine ?_, trimmed_trim value⟩, text⟩
    exact List.mem_append_right _ (List.mem_cons_of_mem _ (mem_of_mem_trim member))
  · rintro ⟨value, plain, text⟩
    refine ⟨configLine (setting.key, value), ?_, ?_⟩
    · have keyText : lineFeed ∉ setting.key.text := by cases setting.key <;> decide
      have sign : lineFeed ∉ bytes " = " := by decide
      simp only [configLine, List.mem_append, not_or]
      exact ⟨⟨keyText, sign⟩, plain.oneLine⟩
    · rw [lineSetting_of_writes (writes_configLine _) plain.trimmed, entryRead_of_valueText text]

theorem exists_config_iff_written {options : TcpServerOptions} :
    (∃ config, parseServerConfig config = .success options) ↔ Written PlainValue options := by
  rw [exists_config_iff, Settings.exists_load_iff (key_get options) ConfigKey.all, Written]
  simp only [Setting.record, settable_line_iff]

/-- A text without blanks can stand in a file. -/
theorem plainValue_of_filled {value : Bytes} (filled : value.all (!isAsciiSpace ·) = true) :
    PlainValue value := by
  have noBlank : ∀ ch ∈ value, isAsciiSpace ch = false := by simpa using filled
  refine ⟨fun member => absurd (noBlank _ member) (by decide), ?_, ?_⟩
  · exact fun ch first => noBlank ch (List.mem_of_mem_head? first)
  · exact fun ch last => noBlank ch (List.mem_of_mem_getLast? last)

theorem filled_of_digit {ch : UInt8} (digit : isDigit ch = true) : isAsciiSpace ch = false := by
  cases blank : isAsciiSpace ch with
  | false => rfl
  | true =>
      have places : ch = space ∨ ch = byte '\t' ∨ ch = carriageReturn ∨ ch = lineFeed := by
        simpa [isAsciiSpace, or_assoc] using blank
      rcases places with rfl | rfl | rfl | rfl <;> exact absurd digit (by decide)

theorem plainValue_toDecimal (n : Nat) : PlainValue (toDecimal n) :=
  plainValue_of_filled (List.all_eq_true.2 fun _ member => by
    rw [filled_of_digit (isDigit_of_mem_toDecimal member)]
    rfl)

/-- Whatever the texts may be, the counts and the port are none that the server refuses. -/
theorem servable_of_written {allowed : Bytes → Prop} {options : TcpServerOptions}
    (written : Written allowed options) : ServableOptions options := by
  have anyText : Written (fun _ => True) options := fun key =>
    (written key).imp_right fun ⟨value, _, text⟩ => ⟨value, trivial, text⟩
  obtain ⟨⟨value, -, read⟩, count, seconds, -⟩ :=
    (written_iff (fun _ => trivial) (fun _ => trivial) (fun _ => trivial) trivial).1 anyText
  obtain ⟨portText, text⟩ := parseTcpEndpoint_iff.1 read
  exact ⟨text.filled, text.oneColon, text.positive, count, seconds⟩

/-- **The options of files.** -/
theorem written_in_file_iff {options : TcpServerOptions} :
    Written PlainValue options ↔ FileOptions options := by
  rw [written_iff plainValue_toDecimal
    (fun level => plainValue_of_filled (by cases level <;> decide))
    (fun policy => plainValue_of_filled (by cases policy <;> decide))
    (plainValue_of_filled (by decide))]
  constructor
  · rintro ⟨⟨value, plain, read⟩, count, seconds, path⟩
    obtain ⟨portText, text⟩ := parseTcpEndpoint_iff.1 read
    have shape := text.parts
    refine ⟨⟨text.filled, text.oneColon, text.positive, count, seconds⟩, fun member => ?_,
      fun ch first => ?_, ?_⟩
    · refine plain.oneLine ?_
      rw [shape]
      exact List.mem_append_left _ member
    · refine plain.trimmed.1 ch ?_
      rw [shape, List.head?_append, Option.mem_def.1 first]
      rfl
    · rcases path with empty | plainPath
      · rw [empty]
        exact plainValue_of_filled rfl
      · exact plainPath
  · intro given
    have text := endpointText_toString given.host given.oneColon given.port
    refine ⟨⟨_, ⟨?_, ?_, ?_⟩, parseTcpEndpoint_iff.2 ⟨_, text⟩⟩, given.maxClients,
      given.idleTimeout, Or.inr given.path⟩
    · rw [text.parts, List.mem_append, List.mem_cons, not_or, not_or]
      exact ⟨given.hostLine, by decide, (plainValue_toDecimal _).oneLine⟩
    · obtain ⟨front, rest, shape⟩ := List.exists_cons_of_ne_nil given.host
      intro ch first
      refine given.hostStart ch ?_
      rw [text.parts, shape] at first
      rw [shape]
      exact first
    · intro ch last
      rw [text.parts, List.getLast?_append_of_ne_nil _ (List.cons_ne_nil _ _),
        List.getLast?_cons_of_ne_nil (toDecimal_ne_nil _)] at last
      exact (plainValue_toDecimal _).trimmed.2 ch last

/-! ## Arguments -/

/-- An option is one of the flags, with a value behind it. -/
theorem flag_of_applied {options result : TcpServerOptions} {optionName : Bytes}
    {value : Option Bytes} (applied : applyListenOption options optionName value = .ok result) :
    ∃ flag text, optionName = ListenFlag.text flag ∧ value = some text := by
  cases value with
  | none =>
      simp only [applyListenOption] at applied
      split_ifs at applied
  | some text =>
      by_cases maxClients : optionName = bytes "--max-clients"
      · exact ⟨.maxClients, text, maxClients, rfl⟩
      by_cases idleTimeout : optionName = bytes "--idle-timeout"
      · exact ⟨.idleTimeout, text, idleTimeout, rfl⟩
      by_cases logLevel : optionName = bytes "--log-level"
      · exact ⟨.logLevel, text, logLevel, rfl⟩
      by_cases walFile : optionName = bytes "--wal-file"
      · exact ⟨.walFile, text, walFile, rfl⟩
      by_cases walSync : optionName = bytes "--wal-sync"
      · exact ⟨.walSync, text, walSync, rfl⟩
      rw [applyListenOption, if_neg maxClients, if_neg idleTimeout, if_neg logLevel,
        if_neg walFile, if_neg walSync] at applied
      cases applied

/-- Arguments that are accepted are flags with their values. -/
theorem flagArguments_of_accepted {options result : TcpServerOptions} {arguments : List Bytes}
    (accepted : listenOptions options arguments = .ok result) :
    ∃ assignments, arguments = flagArguments assignments := by
  fun_induction listenOptions options arguments with
  | case1 options => exact ⟨[], rfl⟩
  | case2 options optionName =>
      obtain ⟨_, _, _, nothing⟩ := flag_of_applied accepted
      cases nothing
  | case3 options optionName value rest printed refused => cases accepted
  | case4 options optionName value rest next applied ih =>
      obtain ⟨flag, text, rfl, some⟩ := flag_of_applied applied
      obtain ⟨assignments, rfl⟩ := ih accepted
      exact ⟨⟨flag, value⟩ :: assignments, rfl⟩

/-- What a flag sets is what some argument is read as. -/
theorem settable_assignment_iff {allowed : Bytes → Prop} {setting : Setting} :
    Settings.Settable (fun assignment => entryRead assignment.entry)
        (fun assignment : Assignment => allowed assignment.value) setting ↔
      setting.key ≠ .listen ∧ ∃ value, allowed value ∧ setting.ValueText value := by
  constructor
  · rintro ⟨assignment, isAllowed, reads⟩
    have key := key_of_entryRead reads
    refine ⟨?_, assignment.value, isAllowed, valueText_of_entryRead reads⟩
    rw [key]
    exact assignment.flag.key_ne_listen
  · rintro ⟨notListen, value, isAllowed, text⟩
    have known : ∃ flag : ListenFlag, flag.key = setting.key := by
      cases setting with
      | listen endpoint => exact absurd rfl notListen
      | maxClients count => exact ⟨.maxClients, rfl⟩
      | idleTimeoutSeconds seconds => exact ⟨.idleTimeout, rfl⟩
      | logLevel level => exact ⟨.logLevel, rfl⟩
      | walFile path => exact ⟨.walFile, rfl⟩
      | walSync policy => exact ⟨.walSync, rfl⟩
    obtain ⟨flag, same⟩ := known
    refine ⟨⟨flag, value⟩, isAllowed, ?_⟩
    show entryRead (flag.key, value) = _
    rw [same, entryRead_of_valueText text]

/-- What the arguments behind the endpoint set. -/
theorem exists_assignments_iff {allowed : Bytes → Prop} {options result : TcpServerOptions} :
    (∃ assignments : List Assignment, (∀ assignment ∈ assignments, allowed assignment.value) ∧
        listenOptions options (flagArguments assignments) = .ok result) ↔
      ∀ key, Setting.get result key = Setting.get options key ∨
        key ≠ .listen ∧ ∃ value, allowed value ∧ (Setting.get result key).ValueText value := by
  have entries : ∀ assignments : List Assignment,
      Settings.load Setting.record (fun assignment => entryRead assignment.entry) options 1
          assignments =
        Settings.load Setting.record entryRead options 1 (assignments.map Assignment.entry) := by
    intro assignments
    refine Settings.load_congr ?_ options 1
    rw [List.forall₂_map_left_iff, List.forall₂_same]
    exact fun _ _ => rfl
  simp only [@listenOptions_eq_ok_iff _ options result 1, ← entries]
  rw [Settings.exists_load_iff (key_get result) ConfigKey.all]
  simp only [Setting.record, settable_assignment_iff, key_get]

/-! ## Options in arguments -/

theorem isArgument_toDecimal (n : Nat) : IsArgument (toDecimal n) := fun member =>
  absurd (isDigit_of_mem_toDecimal member) (by decide)

theorem isArgument_append {front rest : Bytes} :
    IsArgument (front ++ rest) ↔ IsArgument front ∧ IsArgument rest := by
  simp only [IsArgument, List.mem_append, not_or]

theorem written_in_arguments_parts {options : TcpServerOptions} :
    Written IsArgument options ↔
      (∃ value, IsArgument value ∧ parseTcpEndpoint value = .success options.endpoint) ∧
        options.maxClientWorkers ≠ 0 ∧ options.clientIdleTimeoutSeconds ≠ 0 ∧
        (options.walFilePath = [] ∨ IsArgument options.walFilePath) :=
  written_iff isArgument_toDecimal
    (fun level => by unfold IsArgument; cases level <;> decide)
    (fun policy => by unfold IsArgument; cases policy <;> decide)
    (by unfold IsArgument; decide)

/-- **The options of arguments.** -/
theorem written_in_arguments_iff {options : TcpServerOptions} :
    Written IsArgument options ↔ ArgumentOptions options := by
  rw [written_in_arguments_parts]
  constructor
  · rintro ⟨⟨value, isArgument, read⟩, count, seconds, path⟩
    obtain ⟨portText, text⟩ := parseTcpEndpoint_iff.1 read
    rw [text.parts, isArgument_append] at isArgument
    refine ⟨⟨text.filled, text.oneColon, text.positive, count, seconds⟩, isArgument.1, ?_⟩
    rcases path with empty | isPath
    · rw [empty]
      exact List.not_mem_nil
    · exact isPath
  · intro given
    have text := endpointText_toString given.host given.oneColon given.port
    refine ⟨⟨_, ?_, parseTcpEndpoint_iff.2 ⟨_, text⟩⟩, given.maxClients, given.idleTimeout,
      Or.inr given.path⟩
    rw [text.parts, isArgument_append]
    refine ⟨given.hostArgument, ?_⟩
    show IsArgument ([colon] ++ _)
    rw [isArgument_append]
    exact ⟨by unfold IsArgument; decide, isArgument_toDecimal _⟩

theorem isArgument_flagArguments {assignments : List Assignment}
    (values : ∀ assignment ∈ assignments, IsArgument assignment.value) :
    ∀ argument ∈ flagArguments assignments, IsArgument argument := by
  intro argument member
  obtain ⟨assignment, isOne, part⟩ := List.mem_flatMap.1 member
  rcases List.mem_pair.1 part with rfl | rfl
  · unfold IsArgument
    cases assignment.flag <;> decide
  · exact values assignment isOne

theorem value_mem_flagArguments {assignments : List Assignment} {assignment : Assignment}
    (member : assignment ∈ assignments) : assignment.value ∈ flagArguments assignments :=
  List.mem_flatMap.2 ⟨assignment, member, by simp⟩

theorem runListenModeFromArguments_cons {execName mode endpointText : Bytes}
    {arguments : List Bytes} {options : TcpServerOptions} :
    runListenModeFromArguments (execName :: mode :: endpointText :: arguments) = .ok options ↔
      ∃ endpoint, parseTcpEndpoint endpointText = .success endpoint ∧
        listenOptions { defaultServerOptions with endpoint := endpoint } arguments = .ok options := by
  rw [runListenModeFromArguments]
  simp only [List.drop_succ_cons, List.drop_zero]
  cases parseTcpEndpoint endpointText with
  | error failure => simp [Result.success]
  | ok endpoint => simp [Result.success]

/-- What arguments that are accepted set is written in them. -/
theorem written_of_arguments {allowed : Bytes → Prop} {execName mode : Bytes}
    {arguments : List Bytes} {options : TcpServerOptions}
    (areAllowed : ∀ argument ∈ arguments, allowed argument)
    (accepted : runListenModeFromArguments (execName :: mode :: arguments) = .ok options) :
    Written allowed options := by
  cases arguments with
  | nil => cases accepted
  | cons endpointText rest =>
      obtain ⟨endpoint, read, accepted⟩ := runListenModeFromArguments_cons.1 accepted
      obtain ⟨assignments, rfl⟩ := flagArguments_of_accepted accepted
      obtain ⟨isEndpoint, areValues⟩ := List.forall_mem_cons.1 areAllowed
      have set := exists_assignments_iff.1
        ⟨assignments, fun _ member => areValues _ (value_mem_flagArguments member), accepted⟩
      intro key
      by_cases listen : key = .listen
      · have same : Setting.get options key = .listen endpoint := by
          rcases set key with same | ⟨notListen, -⟩
          · rw [same, listen]
            rfl
          · exact absurd listen notListen
        rw [same]
        exact Or.inr ⟨endpointText, isEndpoint, parseTcpEndpoint_iff.1 read⟩
      · rcases set key with same | ⟨-, written⟩
        · left
          rw [same]
          cases key <;> first | rfl | exact absurd rfl listen
        · exact Or.inr written

theorem exists_arguments_iff_written {execName : Bytes} {options : TcpServerOptions} :
    (∃ arguments : List Bytes, (∀ argument ∈ arguments, IsArgument argument) ∧
        runListenModeFromArguments (execName :: bytes "--listen" :: arguments) = .ok options) ↔
      Written IsArgument options := by
  constructor
  · rintro ⟨arguments, areArguments, accepted⟩
    exact written_of_arguments areArguments accepted
  · intro written
    obtain ⟨⟨endpointText, isEndpoint, read⟩, -⟩ := written_in_arguments_parts.1 written
    obtain ⟨assignments, areValues, accepted⟩ :=
      (@exists_assignments_iff IsArgument
        { defaultServerOptions with endpoint := options.endpoint } options).2 fun key => by
          by_cases listen : key = .listen
          · rw [listen]
            exact Or.inl rfl
          · refine (written key).imp (fun same => ?_) fun value => ⟨listen, value⟩
            rw [same]
            cases key <;> first | rfl | exact absurd rfl listen
    refine ⟨endpointText :: flagArguments assignments,
      List.forall_mem_cons.2 ⟨isEndpoint, isArgument_flagArguments areValues⟩, ?_⟩
    exact runListenModeFromArguments_cons.2 ⟨options.endpoint, read, accepted⟩

/-- **What the daemon can be started with**: by a file, and by arguments. -/
theorem options_given (execName : Bytes) (options : TcpServerOptions) :
    ((∃ config, parseServerConfig config = .success options) ↔ FileOptions options) ∧
      ((∃ arguments : List Bytes, (∀ argument ∈ arguments, IsArgument argument) ∧
          runListenModeFromArguments (execName :: bytes "--listen" :: arguments) = .ok options) ↔
        ArgumentOptions options) := by
  rw [exists_config_iff_written, written_in_file_iff, exists_arguments_iff_written,
    written_in_arguments_iff]
  exact ⟨Iff.rfl, Iff.rfl⟩

/-- A path with a blank at its end can be an argument only. -/
example : ArgumentOptions { defaultServerOptions with walFilePath := bytes "asterkv.wal " } ∧
    ¬ FileOptions { defaultServerOptions with walFilePath := bytes "asterkv.wal " } := by
  refine ⟨⟨⟨by decide, by decide, by decide, by decide, by decide⟩, ?_, ?_⟩, fun given => ?_⟩
  · unfold IsArgument
    decide
  · unfold IsArgument
    decide
  · exact absurd (given.path.trimmed.2 space rfl) (by decide)

end AsterKV.Asterd
