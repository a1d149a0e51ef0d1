import Sshdt.Lib.NetDisplay
import Sshdt.Lib.OsPath
import Sshdt.Config.Build

/-
  The saved options of the launch-at-login service
  (`src/main.rs` and `src/service.rs`).

  `service enable` writes the server options of its own
  command line to the registry (`startup_args`). At login
  the program reads them back (`saved_args`) and parses them
  as if they had been typed (`parse_saved_service_args`).

  The argument parser is the `argh` crate. It is a parameter
  (`Argh`) with the two facts about it that matter here; the
  loop `arghLoop` is one parser that has them.

  Key definitions include:
    * `ServerOptions`
    * `startupArgs`
    * `trySavedArgs`
    * `parseSavedServiceArgs`
    * `Argh`

  Key theorems include:
    * `startupArgs_ok`
    * `collect_savedItems`
    * `restored_iff`
-/

------------------------------------------------------------
-- Server Options
------------------------------------------------------------

namespace Sshdt

/- The server options of `Args`, with those for logging. -/
structure ServerOptions extends Args where
  logFile : Option PathBuf
  debug : Bool
  verbose : Bool
  quiet : Bool
  deriving DecidableEq, Repr

namespace ServerOptions

/- The options of a command line without options. -/
def none : ServerOptions where
  toArgs := Args.none
  logFile := Option.none
  debug := false
  verbose := false
  quiet := false

/- The values that are kept as the strings they were given. -/
def textValues
    (o : ServerOptions) : List Text :=
  o.hostKeyPassphrase.toList ++ o.password.toList ++
    o.pubkey ++ o.shell.toList ++ o.allowUser ++
    o.devtunnelId.toList ++ o.devtunnelLabel ++
    o.devtunnelTimeout.toList

/- The values that are paths. -/
def paths
    (o : ServerOptions) : List PathBuf :=
  o.hostKey ++ o.config.toList ++ o.logFile.toList ++
    o.authorizedKeys ++ o.sftpRoot.toList ++
    o.devtunnelBin.toList

/- The options with every path replaced. -/
def mapPaths
    (f : PathBuf → PathBuf)
    (o : ServerOptions) : ServerOptions :=
  { o with
    hostKey := o.hostKey.map f
    config := o.config.map f
    logFile := o.logFile.map f
    authorizedKeys := o.authorizedKeys.map f
    sftpRoot := o.sftpRoot.map f
    devtunnelBin := o.devtunnelBin.map f }

end ServerOptions

end Sshdt

------------------------------------------------------------
-- Writing The Options
------------------------------------------------------------

namespace Sshdt

/- `push_option`, on the text of the value. -/
def pushOption
    (result : List Text)
    (name : Text)
    (value : Option Text) : List Text :=
  match value with
  | some value => result ++ [name, value]
  | none => result

/- `push_switch`. -/
def pushSwitch
    (result : List Text)
    (name : Text)
    (enabled : Bool) : List Text :=
  if enabled then result ++ [name] else result

/- `push_path_option`. -/
def pushPathOption
    (rules : PathRules)
    (currentDir : Except Text OsString)
    (result : List Text)
    (name : Text)
    (path : PathBuf) : Except Text (List Text) := do
  let path := OsString.ofText path
  let absolute ←
    if rules.isAbsolute path then
      .ok path
    else
      match currentDir with
      | .ok d => .ok (rules.join d path)
      | .error _ =>
          .error
            "failed to resolve the current directory".toList
  .ok (result ++ [name, absolute.toStringLossy])

/- `startup_args`. -/
def startupArgs
    (rules : PathRules)
    (currentDir : Except Text OsString)
    (args : ServerOptions) : Except Text (List Text) := do
  let pushPath := pushPathOption rules currentDir
  let result := pushSwitch [] "--devtunnel-enable".toList
    args.devtunnelEnable
  let result := pushSwitch result
    "--devtunnel-disable".toList args.devtunnelDisable
  let result := pushOption result "--devtunnel-id".toList
    args.devtunnelId
  let result := args.devtunnelLabel.foldl
    (fun result label => pushOption result
      "--devtunnel-label".toList (some label)) result
  let result ← args.devtunnelBin.toList.foldlM
    (pushPath · "--devtunnel-bin".toList ·) result
  let result := pushSwitch result
    "--devtunnel-auto-create".toList args.devtunnelAutoCreate
  let result := pushOption result
    "--devtunnel-timeout".toList args.devtunnelTimeout
  let result := pushOption result "--port".toList
    (args.port.map fun port => Text.ofNat port.toNat)
  let result ← args.hostKey.foldlM
    (pushPath · "--host-key".toList ·) result
  let result ← args.config.toList.foldlM
    (pushPath · "--config".toList ·) result
  let result := pushSwitch result "--no-config".toList
    args.noConfig
  let result ← args.logFile.toList.foldlM
    (pushPath · "--log-file".toList ·) result
  let result := pushSwitch result "--debug".toList args.debug
  let result := pushSwitch result "--verbose".toList
    args.verbose
  let result := pushSwitch result "--quiet".toList args.quiet
  let result := pushOption result "--bind".toList
    (args.bind.map IpAddr.toText)
  let result := pushOption result
    "--host-key-passphrase".toList args.hostKeyPassphrase
  let result := pushOption result "--password".toList
    args.password
  let result ← args.authorizedKeys.foldlM
    (pushPath · "--authorized-keys".toList ·) result
  let result := args.pubkey.foldl
    (fun result key => pushOption result "--pubkey".toList
      (some key)) result
  let result := pushOption result "--shell".toList args.shell
  let result ← args.sftpRoot.toList.foldlM
    (pushPath · "--sftp-root".toList ·) result
  let result := pushSwitch result "--strict-user".toList
    args.strictUser
  let result := args.allowUser.foldl
    (fun result user => pushOption result
      "--allow-user".toList (some user)) result
  let result := pushSwitch result "--no-forward".toList
    args.noForward
  let result := pushOption result "--login-grace".toList
    (args.loginGrace.map fun secs => Text.ofNat secs.toNat)
  let result := pushOption result "--max-startups".toList
    (args.maxStartups.map fun max => Text.ofNat max.toNat)
  .ok result

end Sshdt

------------------------------------------------------------
-- Reading The Options Back
------------------------------------------------------------

namespace Sshdt

/- What the registry answers to `get_multi_string`. -/
inductive RegistryAnswer where
  | value (args : List Text)
  | fileNotFound
  | failed
  deriving DecidableEq, Repr

/- `try_saved_args`. -/
def trySavedArgs
    (answer : RegistryAnswer) :
    Except Text (Option (List Text)) :=
  match answer with
  | .value args =>
      .ok (some (args.filter fun argument =>
        !argument.isEmpty))
  | .fileNotFound => .ok none
  | .failed =>
      .error
        ("failed to read configured sshdt service " ++
          "options").toList

/- `saved_args`. -/
def savedArgs
    (answer : RegistryAnswer) : Except Text (List Text) := do
  match ← trySavedArgs answer with
  | some args => .ok args
  | none =>
      .error
        "sshdt service options are not configured".toList

/- `parse_saved_service_args`, over `Args::from_args`. -/
def parseSavedServiceArgs
    (fromArgs : List Text → Except Text ServerOptions)
    (arguments : List Text) : Except Text ServerOptions :=
  match fromArgs arguments with
  | .ok args => .ok args
  | .error output =>
      .error
        ("invalid saved sshdt service options: ".toList ++
          Text.trim output)

/- The options with which the service starts at login. -/
def savedOptions
    (fromArgs : List Text → Except Text ServerOptions)
    (answer : RegistryAnswer) : Except Text ServerOptions := do
  let arguments ← savedArgs answer
  parseSavedServiceArgs fromArgs arguments

end Sshdt

------------------------------------------------------------
-- The Argument Parser
------------------------------------------------------------

namespace Sshdt

/- The fields of `Args` marked as switches. -/
inductive Switch where
  | noConfig
  | debug
  | verbose
  | quiet
  | strictUser
  | noForward
  | devtunnelEnable
  | devtunnelDisable
  | devtunnelAutoCreate
  deriving DecidableEq, Repr

/- The fields of `Args` marked as options. -/
inductive OptionField where
  | port
  | hostKey
  | config
  | logFile
  | bind
  | hostKeyPassphrase
  | password
  | authorizedKeys
  | pubkey
  | shell
  | sftpRoot
  | allowUser
  | loginGrace
  | maxStartups
  | devtunnelId
  | devtunnelLabel
  | devtunnelBin
  | devtunnelTimeout
  deriving DecidableEq, Repr

/- The long name that `argh` derives from a field's name. -/
def longName
    (field : String) : Text :=
  "--".toList ++
    field.toList.map fun c => if c = '_' then '-' else c

def Switch.flag : Switch → Text
| .noConfig => longName "no_config"
| .debug => longName "debug"
| .verbose => longName "verbose"
| .quiet => longName "quiet"
| .strictUser => longName "strict_user"
| .noForward => longName "no_forward"
| .devtunnelEnable => longName "devtunnel_enable"
| .devtunnelDisable => longName "devtunnel_disable"
| .devtunnelAutoCreate => longName "devtunnel_auto_create"

def OptionField.flag : OptionField → Text
| .port => longName "port"
| .hostKey => longName "host_key"
| .config => longName "config"
| .logFile => longName "log_file"
| .bind => longName "bind"
| .hostKeyPassphrase => longName "host_key_passphrase"
| .password => longName "password"
| .authorizedKeys => longName "authorized_keys"
| .pubkey => longName "pubkey"
| .shell => longName "shell"
| .sftpRoot => longName "sftp_root"
| .allowUser => longName "allow_user"
| .loginGrace => longName "login_grace"
| .maxStartups => longName "max_startups"
| .devtunnelId => longName "devtunnel_id"
| .devtunnelLabel => longName "devtunnel_label"
| .devtunnelBin => longName "devtunnel_bin"
| .devtunnelTimeout => longName "devtunnel_timeout"

/- One use of a switch, or of an option with its value. -/
inductive Item where
  | switch (s : Switch)
  | option (field : OptionField) (value : Text)
  deriving DecidableEq, Repr

namespace Item

/- The arguments of one item. -/
def words : Item → List Text
| .switch s => [s.flag]
| .option field value => [field.flag, value]

/- The value an item gives to a field. -/
def valueOf
    (field : OptionField) : Item → Option Text
| .switch _ => none
| .option field' value =>
    if field' = field then some value else none

/- The values given to a field, in order. -/
def values
    (field : OptionField)
    (items : List Item) : List Text :=
  items.filterMap (valueOf field)

/- The value of a field that may be given once. -/
def once
    {α : Type}
    (fromStr : Text → Option α)
    (values : List Text) : Option (Option α) :=
  match values with
  | [] => some none
  | [value] => (fromStr value).map some
  | _ => none

/-
  The options that a sequence of items stands for: `Option`
  fields take at most one value, `Vec` fields any number, and
  each value must parse at its field's type.
-/
def collect
    (items : List Item) : Option ServerOptions := do
  let port ← once Text.parseU16 (values .port items)
  let config ← once some (values .config items)
  let logFile ← once some (values .logFile items)
  let bind ← once IpAddr.parse (values .bind items)
  let hostKeyPassphrase ←
    once some (values .hostKeyPassphrase items)
  let password ← once some (values .password items)
  let shell ← once some (values .shell items)
  let sftpRoot ← once some (values .sftpRoot items)
  let loginGrace ←
    once Text.parseU64 (values .loginGrace items)
  let maxStartups ←
    once Text.parseU32 (values .maxStartups items)
  let devtunnelId ← once some (values .devtunnelId items)
  let devtunnelBin ← once some (values .devtunnelBin items)
  let devtunnelTimeout ←
    once some (values .devtunnelTimeout items)
  some
    { port, config, logFile, bind, hostKeyPassphrase
      password, shell, sftpRoot, loginGrace, maxStartups
      devtunnelId, devtunnelBin, devtunnelTimeout
      hostKey := values .hostKey items
      authorizedKeys := values .authorizedKeys items
      pubkey := values .pubkey items
      allowUser := values .allowUser items
      devtunnelLabel := values .devtunnelLabel items
      noConfig := items.contains (.switch .noConfig)
      debug := items.contains (.switch .debug)
      verbose := items.contains (.switch .verbose)
      quiet := items.contains (.switch .quiet)
      strictUser := items.contains (.switch .strictUser)
      noForward := items.contains (.switch .noForward)
      devtunnelEnable :=
        items.contains (.switch .devtunnelEnable)
      devtunnelDisable :=
        items.contains (.switch .devtunnelDisable)
      devtunnelAutoCreate :=
        items.contains (.switch .devtunnelAutoCreate) }

end Item

/-
  `Args::from_args` of the `argh` crate, on the server
  options. The argument after an option's name is its value,
  whatever it looks like, so items are read back from their
  words; and no string value comes from elsewhere than the
  arguments.
-/
structure Argh where
  fromArgs : List Text → Except Text ServerOptions
  reads_items :
    ∀ items o, Item.collect items = some o →
      fromArgs (items.flatMap Item.words) = .ok o
  values_given :
    ∀ arguments o, fromArgs arguments = .ok o →
      ∀ value ∈ o.textValues, value ∈ arguments

end Sshdt

------------------------------------------------------------
-- The Items That Are Saved
------------------------------------------------------------

namespace Sshdt

/- The text under which a path is saved. -/
def savedPath
    (rules : PathRules)
    (d : OsString)
    (path : PathBuf) : Text :=
  (rules.resolve d (OsString.ofText path)).toStringLossy

/- Whether a switch is set. -/
def Switch.get
    (o : ServerOptions) : Switch → Bool
| .noConfig => o.noConfig
| .debug => o.debug
| .verbose => o.verbose
| .quiet => o.quiet
| .strictUser => o.strictUser
| .noForward => o.noForward
| .devtunnelEnable => o.devtunnelEnable
| .devtunnelDisable => o.devtunnelDisable
| .devtunnelAutoCreate => o.devtunnelAutoCreate

/- The values saved for an option. -/
def savedValues
    (rules : PathRules)
    (d : OsString)
    (o : ServerOptions) : OptionField → List Text
| .port =>
    (o.port.map fun port => Text.ofNat port.toNat).toList
| .hostKey => o.hostKey.map (savedPath rules d)
| .config => o.config.toList.map (savedPath rules d)
| .logFile => o.logFile.toList.map (savedPath rules d)
| .bind => (o.bind.map IpAddr.toText).toList
| .hostKeyPassphrase => o.hostKeyPassphrase.toList
| .password => o.password.toList
| .authorizedKeys =>
    o.authorizedKeys.map (savedPath rules d)
| .pubkey => o.pubkey
| .shell => o.shell.toList
| .sftpRoot => o.sftpRoot.toList.map (savedPath rules d)
| .allowUser => o.allowUser
| .loginGrace =>
    (o.loginGrace.map fun secs =>
      Text.ofNat secs.toNat).toList
| .maxStartups =>
    (o.maxStartups.map fun max =>
      Text.ofNat max.toNat).toList
| .devtunnelId => o.devtunnelId.toList
| .devtunnelLabel => o.devtunnelLabel
| .devtunnelBin =>
    o.devtunnelBin.toList.map (savedPath rules d)
| .devtunnelTimeout => o.devtunnelTimeout.toList

/- A field that is saved. -/
inductive SavedField where
  | switch (s : Switch)
  | option (field : OptionField)
  deriving DecidableEq, Repr

/- The order in which `startup_args` writes the fields. -/
def savedOrder : List SavedField :=
  [.switch .devtunnelEnable, .switch .devtunnelDisable,
    .option .devtunnelId, .option .devtunnelLabel,
    .option .devtunnelBin, .switch .devtunnelAutoCreate,
    .option .devtunnelTimeout, .option .port,
    .option .hostKey, .option .config, .switch .noConfig,
    .option .logFile, .switch .debug, .switch .verbose,
    .switch .quiet, .option .bind,
    .option .hostKeyPassphrase, .option .password,
    .option .authorizedKeys, .option .pubkey, .option .shell,
    .option .sftpRoot, .switch .strictUser,
    .option .allowUser, .switch .noForward,
    .option .loginGrace, .option .maxStartups]

/- The items saved for one field. -/
def savedField
    (rules : PathRules)
    (d : OsString)
    (o : ServerOptions) :
    SavedField → List Item
| .switch s => if s.get o then [.switch s] else []
| .option field =>
    (savedValues rules d o field).map (.option field)

/- All items that are saved. -/
def savedItems
    (rules : PathRules)
    (d : OsString)
    (o : ServerOptions) : List Item :=
  savedOrder.flatMap (savedField rules d o)

end Sshdt

------------------------------------------------------------
-- What Is Written
------------------------------------------------------------

namespace Sshdt

/- The words of an option with each of some values. -/
def optionWords
    (name : Text)
    (values : List Text) : List Text :=
  values.flatMap fun value => [name, value]

theorem pushSwitch_eq
    (result : List Text)
    (name : Text)
    (enabled : Bool) :
    pushSwitch result name enabled =
      result ++ if enabled then [name] else [] := by
  cases enabled <;> simp [pushSwitch]

theorem pushOption_eq
    (result : List Text)
    (name : Text)
    (value : Option Text) :
    pushOption result name value =
      result ++ optionWords name value.toList := by
  cases value <;> simp [pushOption, optionWords]

theorem foldl_pushOption
    (name : Text)
    (values result : List Text) :
    values.foldl
        (fun result value =>
          pushOption result name (some value)) result =
      result ++ optionWords name values := by
  induction values generalizing result with
  | nil => simp [optionWords]
  | cons value values ih =>
      rw [List.foldl_cons, ih]
      simp [pushOption, optionWords]

theorem pushPathOption_ok
    (rules : PathRules)
    (d : OsString)
    (result : List Text)
    (name : Text)
    (path : PathBuf) :
    pushPathOption rules (.ok d) result name path =
      .ok (result ++ [name, savedPath rules d path]) := by
  by_cases hAbsolute :
      rules.isAbsolute (OsString.ofText path) = true
  · simp [pushPathOption, savedPath, PathRules.resolve,
      hAbsolute, bind, Except.bind]
  · simp [pushPathOption, savedPath, PathRules.resolve,
      hAbsolute, bind, Except.bind]

theorem foldlM_pushPathOption
    (rules : PathRules)
    (d : OsString)
    (name : Text)
    (paths : List PathBuf)
    (result : List Text) :
    paths.foldlM
        (pushPathOption rules (.ok d) · name ·) result =
      .ok (result ++
        optionWords name
          (paths.map (savedPath rules d))) := by
  induction paths generalizing result with
  | nil => simp [optionWords, pure, Except.pure]
  | cons path paths ih =>
      rw [List.foldlM_cons, pushPathOption_ok]
      change paths.foldlM _ _ = _
      rw [ih]
      simp [optionWords]

theorem words_savedField_switch
    (rules : PathRules)
    (d : OsString)
    (o : ServerOptions)
    (s : Switch) :
    (savedField rules d o (.switch s)).flatMap Item.words =
      if s.get o then [s.flag] else [] := by
  by_cases hSet : s.get o = true
  · simp [savedField, hSet, Item.words]
  · simp [savedField, hSet]

theorem words_savedField_option
    (rules : PathRules)
    (d : OsString)
    (o : ServerOptions)
    (field : OptionField) :
    (savedField rules d o (.option field)).flatMap Item.words =
      optionWords field.flag
        (savedValues rules d o field) := by
  simp [savedField, optionWords, List.flatMap_map,
    Item.words]

/- The list that `startup_args` writes, item by item. -/
theorem startupArgs_ok
    (rules : PathRules)
    (d : OsString)
    (o : ServerOptions) :
    startupArgs rules (.ok d) o =
      .ok ((savedItems rules d o).flatMap Item.words) := by
  have hItems :
      (savedItems rules d o).flatMap Item.words =
        savedOrder.flatMap fun key =>
          (savedField rules d o key).flatMap Item.words := by
    simp [savedItems, List.flatMap_assoc]
  rw [hItems]
  simp only [startupArgs, foldl_pushOption,
    foldlM_pushPathOption, bind, Except.bind]
  simp only [pushSwitch_eq, pushOption_eq, savedOrder,
    List.flatMap_cons, List.flatMap_nil,
    words_savedField_switch, words_savedField_option,
    Switch.get, Switch.flag, OptionField.flag, savedValues,
    List.append_nil, List.nil_append, List.append_assoc]
  rfl

end Sshdt

------------------------------------------------------------
-- What Is Read Back
------------------------------------------------------------

namespace Sshdt

/- Values of one field out of a single occurrence of it. -/
theorem flatMap_single
    {α β : Type}
    [DecidableEq α]
    {keys : List α}
    {key : α}
    (hOnce : keys.count key = 1)
    (values : List β) :
    (keys.flatMap fun key' =>
        if key' = key then values else []) =
      values := by
  induction keys with
  | nil => simp at hOnce
  | cons key' keys ih =>
      rw [List.flatMap_cons]
      by_cases hKey : key' = key
      · subst hKey
        have hNone : keys.count key' = 0 := by
          simpa using hOnce
        have hRest :
            (keys.flatMap fun other =>
              if other = key' then values else []) = [] := by
          rw [List.flatMap_eq_nil_iff]
          intro other hMember
          have hNe : other ≠ key' := by
            intro hEq
            subst hEq
            exact List.count_eq_zero.mp hNone hMember
          simp [hNe]
        simp [hRest]
      · have hCount : keys.count key = 1 := by
          simpa [hKey] using hOnce
        simp [hKey, ih hCount]

theorem values_savedItems
    (rules : PathRules)
    (d : OsString)
    (o : ServerOptions)
    (field : OptionField) :
    Item.values field (savedItems rules d o) =
      savedValues rules d o field := by
  have hField :
      ∀ key,
        (savedField rules d o key).filterMap
            (Item.valueOf field) =
          if key = .option field then
            savedValues rules d o field
          else
            [] := by
    intro key
    cases key with
    | switch s =>
        by_cases hSet : s.get o = true
        · simp [savedField, hSet, Item.valueOf]
        · simp [savedField, hSet]
    | option field' =>
        by_cases hSame : field' = field
        · subst hSame
          simp [savedField, List.filterMap_map,
            Function.comp_def, Item.valueOf]
        · simp [savedField, List.filterMap_map,
            Function.comp_def, Item.valueOf, hSame]
  have hOnce : savedOrder.count (.option field) = 1 := by
    cases field <;> decide
  simp only [Item.values, savedItems, List.filterMap_flatMap,
    hField]
  exact flatMap_single hOnce _

theorem contains_savedItems
    (rules : PathRules)
    (d : OsString)
    (o : ServerOptions)
    (s : Switch) :
    (savedItems rules d o).contains (.switch s) =
      s.get o := by
  have hOrder : (.switch s) ∈ savedOrder := by
    cases s <;> decide
  rw [Bool.eq_iff_iff, List.contains_iff_mem, savedItems,
    List.mem_flatMap]
  constructor
  · rintro ⟨key, _, hMember⟩
    cases key with
    | switch s' =>
        by_cases hSet : s'.get o = true
        · have hSame : s = s' := by
            simpa [savedField, hSet] using hMember
          exact hSame ▸ hSet
        · simp [savedField, hSet] at hMember
    | option field => simp [savedField] at hMember
  · intro hSet
    exact ⟨.switch s, hOrder, by simp [savedField, hSet]⟩

theorem once_text
    (value : Option Text) :
    Item.once some value.toList = some value := by
  cases value <;> rfl

theorem once_path
    (f : PathBuf → Text)
    (path : Option PathBuf) :
    Item.once some (path.toList.map f) =
      some (path.map f) := by
  cases path <;> rfl

theorem once_number
    {α : Type}
    {bound : Nat}
    {toNat : α → Nat}
    {ofNat : Nat → α}
    (hBound : ∀ n, toNat n < bound)
    (hOf : ∀ n, ofNat (toNat n) = n)
    (value : Option α) :
    Item.once
        (fun t => (Text.parseUnsigned bound t).map ofNat)
        (value.map fun n => Text.ofNat (toNat n)).toList =
      some value := by
  cases value with
  | none => rfl
  | some n =>
      simp [Item.once, Text.parseUnsigned_ofNat (hBound n),
        hOf]

/- The saved items stand for the options with saved paths. -/
theorem collect_savedItems
    (rules : PathRules)
    (d : OsString)
    (o : ServerOptions) :
    Item.collect (savedItems rules d o) =
      some (o.mapPaths (savedPath rules d)) := by
  have hPort :
      Item.once Text.parseU16
          (savedValues rules d o .port) =
        some o.port :=
    once_number UInt16.toNat_lt (fun _ => UInt16.ofNat_toNat)
      o.port
  have hGrace :
      Item.once Text.parseU64
          (savedValues rules d o .loginGrace) =
        some o.loginGrace :=
    once_number UInt64.toNat_lt (fun _ => UInt64.ofNat_toNat)
      o.loginGrace
  have hStartups :
      Item.once Text.parseU32
          (savedValues rules d o .maxStartups) =
        some o.maxStartups :=
    once_number UInt32.toNat_lt (fun _ => UInt32.ofNat_toNat)
      o.maxStartups
  have hBind :
      Item.once IpAddr.parse
          (savedValues rules d o .bind) =
        some o.bind := by
    cases hValue : o.bind with
    | none => simp [savedValues, hValue, Item.once]
    | some addr =>
        simp [savedValues, hValue, Item.once,
          IpAddr.parse_toText]
  simp only [Item.collect, values_savedItems,
    contains_savedItems, hPort, hGrace, hStartups, hBind]
  simp only [savedValues, once_text, once_path, Option.bind_eq_bind,
    Option.bind_some]
  rfl

end Sshdt

------------------------------------------------------------
-- The Round Trip
------------------------------------------------------------

namespace Sshdt

/-
  The options that come back are those that were saved, and
  each path is the resolved one. Blanking the paths keeps
  their number in every field, so the two parts together
  fix every path of every field.
-/
structure Restored
    (rules : PathRules)
    (d : OsString)
    (o o' : ServerOptions) : Prop where
  options :
    o'.mapPaths (fun _ => []) = o.mapPaths (fun _ => [])
  paths :
    o'.paths.map OsString.ofText =
      o.paths.map fun path =>
        rules.resolve d (OsString.ofText path)

/- No string option is empty. -/
def ServerOptions.NoEmptyValue
    (o : ServerOptions) : Prop :=
  ∀ value ∈ o.textValues, value ≠ []

/- Every relative path, joined to the directory, is Unicode. -/
def ServerOptions.UnicodePaths
    (rules : PathRules)
    (d : OsString)
    (o : ServerOptions) : Prop :=
  ∀ path ∈ o.paths,
    rules.isAbsolute (OsString.ofText path) = false →
      (rules.join d (OsString.ofText path)).isUnicode = true

theorem paths_mapPaths
    (f : PathBuf → PathBuf)
    (o : ServerOptions) :
    (o.mapPaths f).paths = o.paths.map f := by
  simp [ServerOptions.paths, ServerOptions.mapPaths,
    Option.toList_map]

theorem textValues_mapPaths
    (f : PathBuf → PathBuf)
    (o : ServerOptions) :
    (o.mapPaths f).textValues = o.textValues :=
  rfl

theorem mapPaths_mapPaths
    (f g : PathBuf → PathBuf)
    (o : ServerOptions) :
    (o.mapPaths f).mapPaths g = o.mapPaths (g ∘ f) := by
  simp [ServerOptions.mapPaths]

theorem ofText_savedPath_iff
    {rules : PathRules}
    {d : OsString}
    {path : PathBuf} :
    OsString.ofText (savedPath rules d path) =
        rules.resolve d (OsString.ofText path) ↔
      (rules.isAbsolute (OsString.ofText path) = false →
        (rules.join d (OsString.ofText path)).isUnicode =
          true) := by
  rw [savedPath, OsString.ofText_toStringLossy_iff,
    PathRules.resolve]
  by_cases hAbsolute :
      rules.isAbsolute (OsString.ofText path) = true
  · simp [hAbsolute]
  · simp [hAbsolute]

/- The saved options are faithful if the paths are. -/
theorem restored_savedPath_iff
    (rules : PathRules)
    (d : OsString)
    (o : ServerOptions) :
    Restored rules d o (o.mapPaths (savedPath rules d)) ↔
      o.UnicodePaths rules d := by
  constructor
  · intro hRestored path hPath
    have hPaths := hRestored.paths
    rw [paths_mapPaths, List.map_map,
      List.map_inj_left] at hPaths
    exact ofText_savedPath_iff.mp (hPaths path hPath)
  · intro hUnicode
    refine ⟨?_, ?_⟩
    · rw [mapPaths_mapPaths]
      rfl
    · rw [paths_mapPaths, List.map_map, List.map_inj_left]
      intro path hPath
      exact ofText_savedPath_iff.mpr (hUnicode path hPath)

theorem flag_ne_nil
    (field : OptionField) :
    field.flag ≠ [] := by
  cases field <;> simp [OptionField.flag, longName]

theorem switchFlag_ne_nil
    (s : Switch) :
    s.flag ≠ [] := by
  cases s <;> simp [Switch.flag, longName]

theorem savedPath_ne_nil
    (rules : PathRules)
    (d : rules.CurrentDir)
    (path : PathBuf) :
    savedPath rules d path ≠ [] := by
  intro hNil
  apply rules.resolve_ne_nil d (OsString.ofText path)
  exact OsString.toStringLossy_eq_nil.mp hNil

theorem toText_ne_nil
    (addr : IpAddr) :
    addr.toText ≠ [] := by
  intro hNil
  have hParse := IpAddr.parse_toText addr
  rw [hNil] at hParse
  have hNone : IpAddr.parse [] = none := by
    decide
  rw [hNone] at hParse
  cases hParse

theorem map_ne_nil
    {α : Type}
    {f : α → Text}
    (hShown : ∀ x, f x ≠ [])
    (xs : List α) :
    ∀ value ∈ xs.map f, value ≠ [] := by
  intro value hMember
  rcases List.mem_map.mp hMember with ⟨x, _, rfl⟩
  exact hShown x

/- The only empty values are empty string options. -/
theorem savedValues_ne_nil
    (rules : PathRules)
    (d : rules.CurrentDir)
    {o : ServerOptions}
    (hValues : o.NoEmptyValue)
    (field : OptionField) :
    ∀ value ∈ savedValues rules d o field, value ≠ [] := by
  have hPath := map_ne_nil (savedPath_ne_nil rules d)
  have hNumber : ∀ n, Text.ofNat n ≠ [] :=
    fun n => Nat.toDigits_ne_nil
  have hText :
      ∀ values, values ⊆ o.textValues →
        ∀ value ∈ values, value ≠ [] := by
    intro values hSubset value hMember
    exact hValues value (hSubset hMember)
  cases field with
  | port | loginGrace | maxStartups =>
      rw [savedValues, Option.toList_map]
      exact map_ne_nil (fun n => hNumber _) _
  | bind =>
      rw [savedValues, Option.toList_map]
      exact map_ne_nil toText_ne_nil _
  | hostKey | authorizedKeys => exact hPath _
  | config | logFile | sftpRoot | devtunnelBin =>
      exact hPath _
  | hostKeyPassphrase | password | pubkey | shell =>
      apply hText
      intro value hMember
      simp only [savedValues] at hMember
      simp [ServerOptions.textValues, hMember]
  | allowUser | devtunnelId | devtunnelLabel
  | devtunnelTimeout =>
      apply hText
      intro value hMember
      simp only [savedValues] at hMember
      simp [ServerOptions.textValues, hMember]

/- Every word that is saved, if no string option is empty. -/
theorem words_ne_nil
    (rules : PathRules)
    (d : rules.CurrentDir)
    {o : ServerOptions}
    (hValues : o.NoEmptyValue) :
    ∀ word ∈ (savedItems rules d o).flatMap Item.words,
      word ≠ [] := by
  intro word hWord
  rcases List.mem_flatMap.mp hWord with
    ⟨item, hItem, hWord⟩
  rcases List.mem_flatMap.mp hItem with ⟨key, _, hItem⟩
  cases key with
  | switch s =>
      by_cases hSet : s.get o = true
      · simp only [savedField, hSet, if_true,
          List.mem_singleton] at hItem
        subst hItem
        simp only [Item.words, List.mem_singleton] at hWord
        subst hWord
        exact switchFlag_ne_nil s
      · simp [savedField, hSet] at hItem
  | option field =>
      rcases List.mem_map.mp hItem with
        ⟨value, hValue, rfl⟩
      simp only [Item.words, List.mem_cons,
        List.not_mem_nil, or_false] at hWord
      rcases hWord with rfl | rfl
      · exact flag_ne_nil field
      · exact savedValues_ne_nil rules d hValues field _
          hValue

/- Reading the saved list back, without its empty words. -/
theorem savedOptions_value
    (fromArgs : List Text → Except Text ServerOptions)
    (arguments : List Text) :
    savedOptions fromArgs (.value arguments) =
      parseSavedServiceArgs fromArgs
        (arguments.filter fun argument =>
          !argument.isEmpty) :=
  rfl

theorem parseSavedServiceArgs_ok
    {fromArgs : List Text → Except Text ServerOptions}
    {arguments : List Text}
    {o : ServerOptions} :
    parseSavedServiceArgs fromArgs arguments = .ok o ↔
      fromArgs arguments = .ok o := by
  unfold parseSavedServiceArgs
  split
  · rename_i hArgs
    rw [hArgs]
  · rename_i hArgs
    rw [hArgs]
    simp

/- Without empty values the parser reads every item back. -/
theorem savedOptions_noEmpty
    (argh : Argh)
    (rules : PathRules)
    (d : rules.CurrentDir)
    {o : ServerOptions}
    (hValues : o.NoEmptyValue) :
    savedOptions argh.fromArgs
        (.value
          ((savedItems rules d o).flatMap Item.words)) =
      .ok (o.mapPaths (savedPath rules d)) := by
  have hKeep :
      ((savedItems rules d o).flatMap Item.words).filter
          (fun word => !word.isEmpty) =
        (savedItems rules d o).flatMap Item.words := by
    rw [List.filter_eq_self]
    intro word hWord
    simpa [List.isEmpty_iff] using
      words_ne_nil rules d hValues word hWord
  rw [savedOptions_value, hKeep, parseSavedServiceArgs_ok]
  exact argh.reads_items _ _ (collect_savedItems rules d o)

/- An empty string option cannot come back. -/
theorem savedOptions_values
    (argh : Argh)
    {arguments : List Text}
    {o : ServerOptions}
    (hRead :
      savedOptions argh.fromArgs (.value arguments) =
        .ok o) :
    o.NoEmptyValue := by
  rw [savedOptions_value, parseSavedServiceArgs_ok] at hRead
  intro value hValue hNil
  have hGiven := argh.values_given _ _ hRead value hValue
  rw [hNil] at hGiven
  simp at hGiven

theorem restored_textValues
    {rules : PathRules}
    {d : OsString}
    {o o' : ServerOptions}
    (hRestored : Restored rules d o o') :
    o'.textValues = o.textValues := by
  rw [← textValues_mapPaths (fun _ => []) o',
    hRestored.options, textValues_mapPaths]

/-
  Saved options come back as they were if and only if no
  string option is empty and every path that is completed
  with the current directory is Unicode. Empty words are
  dropped from the saved list, so an empty value leaves its
  option's name behind to take the next word.
-/
theorem restored_iff
    (argh : Argh)
    (rules : PathRules)
    (d : rules.CurrentDir)
    (o : ServerOptions) :
    (∃ saved o',
        startupArgs rules (.ok d) o = .ok saved ∧
        savedOptions argh.fromArgs (.value saved) = .ok o' ∧
        Restored rules d o o') ↔
      o.NoEmptyValue ∧ o.UnicodePaths rules d := by
  constructor
  · rintro ⟨saved, o', hSaved, hRead, hRestored⟩
    have hValues : o.NoEmptyValue := by
      have hRestoredValues := savedOptions_values argh hRead
      unfold ServerOptions.NoEmptyValue at *
      rwa [restored_textValues hRestored]
        at hRestoredValues
    refine ⟨hValues, ?_⟩
    rw [startupArgs_ok, Except.ok.injEq] at hSaved
    subst hSaved
    rw [savedOptions_noEmpty argh rules d hValues,
      Except.ok.injEq] at hRead
    subst hRead
    exact (restored_savedPath_iff rules d o).mp hRestored
  · rintro ⟨hValues, hUnicode⟩
    refine ⟨_, _, startupArgs_ok rules d o,
      savedOptions_noEmpty argh rules d hValues, ?_⟩
    exact (restored_savedPath_iff rules d o).mpr hUnicode

end Sshdt

------------------------------------------------------------
-- A Parser
------------------------------------------------------------

namespace Sshdt

def Switch.all : List Switch :=
  [.noConfig, .debug, .verbose, .quiet, .strictUser,
    .noForward, .devtunnelEnable, .devtunnelDisable,
    .devtunnelAutoCreate]

def OptionField.all : List OptionField :=
  [.port, .hostKey, .config, .logFile, .bind,
    .hostKeyPassphrase, .password, .authorizedKeys,
    .pubkey, .shell, .sftpRoot, .allowUser, .loginGrace,
    .maxStartups, .devtunnelId, .devtunnelLabel,
    .devtunnelBin, .devtunnelTimeout]

namespace Item

/-
  The items of an argument list: a switch stands alone, and
  an option takes the argument after it. Other arguments,
  which `argh` may give to a subcommand, are not read.
-/
def parse : List Text → Option (List Item)
| [] => some []
| word :: rest =>
    match Switch.all.find? (·.flag = word) with
    | some s => (parse rest).map (.switch s :: ·)
    | none =>
        match OptionField.all.find? (·.flag = word),
            rest with
        | some field, value :: rest =>
            (parse rest).map (.option field value :: ·)
        | _, _ => none

theorem find_switch
    (s : Switch) :
    Switch.all.find? (·.flag = s.flag) = some s := by
  cases s <;> decide

theorem find_switch_option
    (field : OptionField) :
    Switch.all.find? (·.flag = field.flag) = none := by
  cases field <;> decide

theorem find_option
    (field : OptionField) :
    OptionField.all.find? (·.flag = field.flag) =
      some field := by
  cases field <;> decide

theorem parse_words
    (items : List Item) :
    parse (items.flatMap words) = some items := by
  induction items with
  | nil => rfl
  | cons item items ih =>
      cases item with
      | switch s =>
          simp only [List.flatMap_cons, words,
            List.singleton_append]
          unfold parse
          simp [find_switch, ih]
      | option field value =>
          simp [words, parse, find_switch_option,
            find_option, ih]

theorem words_parse
    {arguments : List Text}
    {items : List Item}
    (hParse : parse arguments = some items) :
    items.flatMap words = arguments := by
  fun_induction parse arguments generalizing items with
  | case1 =>
      cases hParse
      rfl
  | case2 word rest s hSwitch ih =>
      rcases Option.map_eq_some_iff.mp hParse with
        ⟨items', hRest, rfl⟩
      have hFlag := List.find?_some hSwitch
      simp only [decide_eq_true_eq] at hFlag
      simp [words, ih hRest, hFlag]
  | case3 word hSwitch field value rest hOption ih =>
      rcases Option.map_eq_some_iff.mp hParse with
        ⟨items', hRest, rfl⟩
      have hFlag := List.find?_some hOption
      simp only [decide_eq_true_eq] at hFlag
      simp [words, ih hRest, hFlag]
  | case4 => cases hParse

/- A value of a field is one of the arguments. -/
theorem mem_words_of_mem_values
    {field : OptionField}
    {items : List Item}
    {value : Text}
    (hValue : value ∈ values field items) :
    value ∈ items.flatMap words := by
  rcases List.mem_filterMap.mp hValue with
    ⟨item, hItem, hOf⟩
  rw [List.mem_flatMap]
  refine ⟨item, hItem, ?_⟩
  cases item with
  | switch s => cases hOf
  | option field' value' =>
      simp only [valueOf] at hOf
      split at hOf <;> [skip; cases hOf]
      simp only [Option.some.injEq] at hOf
      subst hOf
      simp [words]

theorem toList_of_once
    {values : List Text}
    {value : Option Text}
    (hOnce : once some values = some value) :
    value.toList = values := by
  match values, hOnce with
  | [], hOnce =>
      cases hOnce
      rfl
  | [_], hOnce =>
      cases hOnce
      rfl

/- Where the string values of collected options come from. -/
theorem textValues_collect
    {items : List Item}
    {o : ServerOptions}
    (hCollect : collect items = some o) :
    o.textValues =
      values .hostKeyPassphrase items ++
        values .password items ++ values .pubkey items ++
        values .shell items ++ values .allowUser items ++
        values .devtunnelId items ++
        values .devtunnelLabel items ++
        values .devtunnelTimeout items := by
  -- One step for each field that may be given once.
  rcases Option.bind_eq_some_iff.mp hCollect with
    ⟨_, _, hCollect⟩
  rcases Option.bind_eq_some_iff.mp hCollect with
    ⟨_, _, hCollect⟩
  rcases Option.bind_eq_some_iff.mp hCollect with
    ⟨_, _, hCollect⟩
  rcases Option.bind_eq_some_iff.mp hCollect with
    ⟨_, _, hCollect⟩
  rcases Option.bind_eq_some_iff.mp hCollect with
    ⟨_, hPassphrase, hCollect⟩
  rcases Option.bind_eq_some_iff.mp hCollect with
    ⟨_, hPassword, hCollect⟩
  rcases Option.bind_eq_some_iff.mp hCollect with
    ⟨_, hShell, hCollect⟩
  rcases Option.bind_eq_some_iff.mp hCollect with
    ⟨_, _, hCollect⟩
  rcases Option.bind_eq_some_iff.mp hCollect with
    ⟨_, _, hCollect⟩
  rcases Option.bind_eq_some_iff.mp hCollect with
    ⟨_, _, hCollect⟩
  rcases Option.bind_eq_some_iff.mp hCollect with
    ⟨_, hId, hCollect⟩
  rcases Option.bind_eq_some_iff.mp hCollect with
    ⟨_, _, hCollect⟩
  rcases Option.bind_eq_some_iff.mp hCollect with
    ⟨_, hTimeout, hCollect⟩
  simp only [Option.some.injEq] at hCollect
  subst hCollect
  simp only [ServerOptions.textValues,
    toList_of_once hPassphrase, toList_of_once hPassword,
    toList_of_once hShell, toList_of_once hId,
    toList_of_once hTimeout]

end Item

/- A parser of exactly the items. -/
def arghLoop
    (arguments : List Text) : Except Text ServerOptions :=
  match (Item.parse arguments).bind Item.collect with
  | some o => .ok o
  | none => .error "Unrecognized argument".toList

theorem arghLoop_ok
    {arguments : List Text}
    {o : ServerOptions} :
    arghLoop arguments = .ok o ↔
      ∃ items, Item.parse arguments = some items ∧
        Item.collect items = some o := by
  rw [← Option.bind_eq_some_iff]
  unfold arghLoop
  split
  · rename_i hBind
    simp [hBind]
  · rename_i hBind
    simp [hBind]

/- The parser has the facts asked of `argh`. -/
def Argh.loop : Argh where
  fromArgs := arghLoop
  reads_items := by
    intro items o hCollect
    exact arghLoop_ok.mpr
      ⟨items, Item.parse_words items, hCollect⟩
  values_given := by
    intro arguments o hRead value hValue
    rcases arghLoop_ok.mp hRead with
      ⟨items, hParse, hCollect⟩
    rw [← Item.words_parse hParse]
    rw [Item.textValues_collect hCollect] at hValue
    simp only [List.mem_append] at hValue
    rcases hValue with
      ((((((hValue | hValue) | hValue) | hValue) | hValue) |
        hValue) | hValue) | hValue
    all_goals exact Item.mem_words_of_mem_values hValue

end Sshdt

------------------------------------------------------------
-- An Empty Password
------------------------------------------------------------

namespace Sshdt

/- The options of `--password "" --strict-user`. -/
def emptyPassword : ServerOptions :=
  { ServerOptions.none with
    password := some []
    strictUser := true }

/-
  The empty password is dropped, and the switch after it
  becomes the password.
-/
theorem emptyPassword_not_restored :
    ∃ (argh : Argh) (rules : PathRules)
      (d : rules.CurrentDir) (saved : List Text)
      (o : ServerOptions),
      startupArgs rules (.ok d) emptyPassword = .ok saved ∧
        savedOptions argh.fromArgs (.value saved) = .ok o ∧
        o.password = some "--strict-user".toList ∧
        o.strictUser = false ∧
        ¬ Restored rules d emptyPassword o := by
  refine ⟨Argh.loop, PathRules.drive,
    ⟨OsString.ofText "C:\\".toList, by decide⟩,
    ["--password".toList, [], "--strict-user".toList],
    { ServerOptions.none with
      password := some "--strict-user".toList },
    by decide, by decide, rfl, rfl, ?_⟩
  intro hRestored
  have hValues := restored_textValues hRestored
  revert hValues
  decide

end Sshdt
