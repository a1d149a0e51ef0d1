import Mathlib.Logic.Relation
import Sshdt.Lib.CrashLogic
import Sshdt.Service.SavedArgs

/-
  Launch at login in the Windows registry
  (`src/service.rs`).

  `service enable` saves the options and the executable and
  then writes the entry that Windows runs at login. `service
  disable` removes the entry, and `service uninstall` the
  saved settings behind it. Each write may be refused, and
  each command may be cut short between two writes.

  The commands are scripts of registry calls. A call that
  opens a key to read one value of it, or to remove one, is
  one call here.

  Key definitions include:
    * `Registry`
    * `enable`
    * `uninstall`
    * `Stage`
    * `Consistent`
    * `Steps`

  Key theorems include:
    * `enable_triple`
    * `uninstall_triple`
    * `registry_crash_safe`
    * `enabled_until_changed`
    * `login_restores_options`
-/

------------------------------------------------------------
-- The Registry
------------------------------------------------------------

namespace Sshdt

namespace Service

/- `SETTINGS_KEY`, `RUN_KEY`, `STARTUP_APPROVED_KEY`. -/
inductive RegistryKey where
  | settings
  | run
  | startupApproved
  | other (path : Text)
  deriving DecidableEq, Repr

/- The types of the values that are read and written. -/
inductive RegistryValue where
  | multi (args : List Text)
  | string (text : Text)
  | bytes (data : List UInt8)
  deriving DecidableEq, Repr

/- The first byte of a text in UTF-16, or of its end. -/
def firstByteOf : Text → UInt8
| [] => 0
| c :: _ =>
    if c.toNat < 0x10000 then
      UInt8.ofNat c.toNat
    else
      UInt8.ofNat (0xD800 + (c.toNat - 0x10000) / 0x400)

/- `first` of a value of any type. -/
def RegistryValue.first : RegistryValue → Option UInt8
| .multi args => some (firstByteOf (args.head?.getD []))
| .string text => some (firstByteOf text)
| .bytes data => data.head?

/- The keys of the current user, with their named values. -/
abbrev Registry :=
  RegistryKey → Option (Text → Option RegistryValue)

/- `FILE_NOT_FOUND`, or any other error. -/
inductive RegistryError where
  | notFound
  | other
  deriving DecidableEq, Repr

/- The calls. `get` and `remove` open the key as well. -/
inductive RegistryCall where
  | create (key : RegistryKey)
  | openWrite (key : RegistryKey)
  | set (key : RegistryKey) (name : Text)
      (value : RegistryValue)
  | remove (key : RegistryKey) (name : Text)
  | removeTree (key : RegistryKey)
  | get (key : RegistryKey) (name : Text)
  deriving DecidableEq, Repr

/- What a call gives: a value, if it is one that reads. -/
abbrev RegistryReply :=
  Except RegistryError (Option RegistryValue)

namespace Registry

/- The value under a name, if the key and the value exist. -/
def value
    (r : Registry)
    (key : RegistryKey)
    (name : Text) : Option RegistryValue :=
  (r key).bind fun values => values name

/- A call is performed. -/
def perform
    (r : Registry) :
    RegistryCall → Registry × RegistryReply
| .create key =>
    (Function.update r key
      (some ((r key).getD fun _ => none)), .ok none)
| .openWrite key =>
    (r, if (r key).isSome then .ok none else .error .notFound)
| .set key name value =>
    match r key with
    | none => (r, .error .notFound)
    | some values =>
        (Function.update r key
          (some (Function.update values name (some value))),
          .ok none)
| .remove key name =>
    match r.value key name, r key with
    | some _, some values =>
        (Function.update r key
          (some (Function.update values name none)), .ok none)
    | _, _ => (r, .error .notFound)
| .removeTree key =>
    match r key with
    | none => (r, .error .notFound)
    | some _ => (Function.update r key none, .ok none)
| .get key name =>
    match r.value key name with
    | none => (r, .error .notFound)
    | some value => (r, .ok (some value))

end Registry

/- The registry; a call that is refused gives an error. -/
def registry :
    Device Registry RegistryCall RegistryReply where
  perform := Registry.perform
  refusal := .error .other

/- Scripts of registry calls; an error is its text. -/
abbrev Reg (α : Type) :=
  Script RegistryCall RegistryReply Text α

/- A call that has to succeed, with its context. -/
def call
    (q : RegistryCall)
    (context : String) : Reg (Option RegistryValue) :=
  .ask q fun reply =>
    match reply with
    | .ok value => .done value
    | .error _ => .fail context.toList

end Service

end Sshdt

------------------------------------------------------------
-- The Commands
------------------------------------------------------------

namespace Sshdt

namespace Service

/- `APP_NAME`. -/
def appName : Text :=
  "sshdt".toList

/- `ARGS_VALUE`. -/
def argsValue : Text :=
  "ServiceArgs".toList

/- `EXECUTABLE_VALUE`. -/
def executableValue : Text :=
  "ServiceExecutable".toList

/- `STARTUP_ENABLED`. -/
def startupEnabled : List UInt8 :=
  0x02 :: List.replicate 11 0

/- `str::strip_prefix`. -/
def stripTextPrefix
    (text start : Text) : Option Text :=
  if start.isPrefixOf text then
    some (text.drop start.length)
  else
    none

/- `quoted_path`. -/
def quotedPath
    (path : OsString) : Text :=
  let raw := path.toStringLossy
  let clean :=
    match stripTextPrefix raw "\\\\?\\UNC\\".toList with
    | some path => "\\\\".toList ++ path
    | none =>
        (stripTextPrefix raw "\\\\?\\".toList).getD raw
  ['"'] ++ clean ++ ['"']

/- `launch_command`. -/
def launchCommand
    (executable : OsString)
    (consoleHost : Option OsString) : Text :=
  let service :=
    quotedPath executable ++ " --service-run".toList
  match consoleHost with
  | some host =>
      quotedPath host ++ " --headless ".toList ++ service
  | none => service

/-
  What `service enable` is given: its options, the path of
  the program and that of `conhost.exe`, if there is one.
-/
structure Request where
  args : List Text
  executable : OsString
  consoleHost : Option OsString

/- The command line that is run at login. -/
def Request.command
    (E : Request) : Text :=
  launchCommand E.executable E.consoleHost

/- The end of `enable`: the Windows startup settings. -/
def approve : Reg Unit :=
  .ask (.openWrite .startupApproved) fun reply =>
    match reply with
    | .ok _ => do
        let _ ← call
          (.set .startupApproved appName
            (.bytes startupEnabled))
          "failed to enable sshdt in Windows startup settings"
        .done ()
    | .error .notFound => .done ()
    | .error .other =>
        .fail "failed to open Windows startup settings".toList

/- `enable`. -/
def enable
    (E : Request) : Reg Unit := do
  let _ ← call (.create .settings)
    "failed to open sshdt service settings"
  let _ ← call (.set .settings argsValue (.multi E.args))
    "failed to save sshdt service options"
  let _ ← call
    (.set .settings executableValue
      (.string E.executable.toStringLossy))
    "failed to save the sshdt service executable"
  let _ ← call (.create .run)
    "failed to enable sshdt launch at login"
  let _ ← call (.set .run appName (.string E.command))
    "failed to enable sshdt launch at login"
  approve

/- A removal that has nothing to do when nothing is there. -/
def removeCall
    (q : RegistryCall)
    (context : String) : Reg Unit :=
  .ask q fun reply =>
    match reply with
    | .ok _ => .done ()
    | .error .notFound => .done ()
    | .error .other => .fail context.toList

/- `remove_value`. -/
def removeValue
    (key : RegistryKey)
    (name : Text)
    (context : String) : Reg Unit :=
  removeCall (.remove key name) context

/- `disable`. -/
def disable : Reg Unit :=
  removeValue .run appName
    "failed to disable sshdt launch at login"

/- `uninstall`, after `stop` with its result. -/
def uninstall
    (stopped : Except Text Unit) : Reg Unit :=
  match stopped with
  | .error e => .fail e
  | .ok _ => do
      disable
      removeValue .startupApproved appName
        "failed to remove sshdt from Windows startup settings"
      removeCall (.removeTree .settings)
        "failed to remove sshdt service settings"

/- What the registry answers to `try_saved_args`. -/
def savedAnswer : Reg RegistryAnswer :=
  .ask (.get .settings argsValue) fun reply =>
    match reply with
    | .ok (some (.multi args)) => .done (.value args)
    | .error .notFound => .done .fileNotFound
    | _ => .done .failed

/- `saved_executable`. -/
def savedExecutable : Reg Text :=
  .ask (.get .settings executableValue) fun reply =>
    match reply with
    | .ok (some (.string text)) => .done text
    | _ =>
        .fail ("failed to read the configured sshdt " ++
          "executable").toList

/- `has_run_entry`. -/
def hasRunEntry : Reg Bool :=
  .ask (.get .run appName) fun reply =>
    match reply with
    | .ok (some (.string _)) => .done true
    | .error .notFound => .done false
    | _ =>
        .fail ("failed to read sshdt launch-at-login " ++
          "state").toList

/- `startup_approved`. -/
def startupApproved : Reg Bool :=
  .ask (.get .startupApproved appName) fun reply =>
    match reply with
    | .ok value =>
        .done ((value.bind RegistryValue.first) ==
          startupEnabled.head?)
    | .error .notFound => .done true
    | .error .other =>
        .fail "failed to read Windows startup settings".toList

/- `launch_at_login_enabled`. -/
def launchAtLoginEnabled : Reg Bool := do
  if ← hasRunEntry then startupApproved else .done false

/- `is_configured`. -/
def isConfigured : Reg Bool := do
  match trySavedArgs (← savedAnswer) with
  | .error e => .fail e
  | .ok none => .done false
  | .ok (some _) =>
      .ask (.get .settings executableValue) fun reply =>
        match reply with
        | .ok (some (.string _)) => .done true
        | .error .notFound => .done false
        | _ =>
            .fail ("failed to read sshdt service " ++
              "configuration").toList

/- The options of the service that is started at login. -/
def loginOptions
    (fromArgs : List Text → Except Text ServerOptions) :
    Reg ServerOptions := do
  match savedOptions fromArgs (← savedAnswer) with
  | .error e => .fail e
  | .ok options => .done options

end Service

end Sshdt

------------------------------------------------------------
-- What A Call Changes
------------------------------------------------------------

namespace Sshdt

namespace Service

namespace Registry

variable {r : Registry}
variable {key key' : RegistryKey}
variable {name name' : Text}

/- Creating a key changes no value. -/
@[simp]
theorem value_create :
    (r.perform (.create key)).1.value key' name' =
      r.value key' name' := by
  simp only [perform, value]
  by_cases hKey : key' = key
  · subst hKey
    rw [Function.update_self]
    cases hValues : r key' <;> rfl
  · rw [Function.update_of_ne hKey]

/- A value that is set is the one that changes. -/
theorem value_set
    {value' : RegistryValue}
    {reply : Option RegistryValue}
    (hReply :
      (r.perform (.set key name value')).2 = .ok reply) :
    (r.perform (.set key name value')).1.value key' name' =
      if key' = key ∧ name' = name then some value'
      else r.value key' name' := by
  cases hValues : r key with
  | none =>
      simp only [perform, hValues] at hReply
      cases hReply
  | some values =>
      simp only [perform, hValues, value]
      by_cases hKey : key' = key
      · subst hKey
        rw [Function.update_self]
        by_cases hName : name' = name
        · simp [hName]
        · simp [hName, hValues]
      · simp [hKey]

/- A call that is answered with an error has no effect. -/
theorem perform_error
    {q : RegistryCall}
    {e : RegistryError}
    (hReply : (r.perform q).2 = .error e) :
    (r.perform q).1 = r := by
  cases q with
  | create key => cases hReply
  | openWrite key => rfl
  | set key name value =>
      cases hValues : r key with
      | none => simp [perform, hValues]
      | some values => simp [perform, hValues] at hReply
  | remove key name =>
      simp only [perform] at hReply ⊢
      split
      · rename_i hValue hValues
        simp [hValue, hValues] at hReply
      · rfl
  | removeTree key =>
      cases hValues : r key with
      | none => simp [perform, hValues]
      | some values => simp [perform, hValues] at hReply
  | get key name =>
      simp only [perform]
      split <;> rfl

/- A value that is removed is the one that changes. -/
theorem value_remove :
    (r.perform (.remove key name)).1.value key' name' =
      if key' = key ∧ name' = name then none
      else r.value key' name' := by
  simp only [perform]
  split
  · rename_i value hValue values hValues
    simp only [Registry.value]
    by_cases hKey : key' = key
    · subst hKey
      rw [Function.update_self]
      by_cases hName : name' = name
      · simp [hName]
      · simp [hName, hValues]
    · simp [hKey]
  · rename_i hNot
    by_cases hSame : key' = key ∧ name' = name
    · rw [if_pos hSame, hSame.1, hSame.2]
      cases hValues : r key with
      | none => simp [value, hValues]
      | some values =>
          cases hValue : r.value key name with
          | none => rfl
          | some value => exact absurd hValues (hNot _ _ hValue)
    · rw [if_neg hSame]

/- A key that is removed has no values. -/
theorem value_removeTree :
    (r.perform (.removeTree key)).1.value key' name' =
      if key' = key then none else r.value key' name' := by
  simp only [perform]
  cases hValues : r key with
  | none =>
      by_cases hKey : key' = key
      · simp [hKey, value, hValues]
      · simp [hKey]
  | some values =>
      simp only [value]
      by_cases hKey : key' = key
      · simp [hKey]
      · simp [hKey]

end Registry

end Service

end Sshdt

------------------------------------------------------------
-- What The Commands Leave
------------------------------------------------------------

namespace Sshdt

namespace Service

variable {r₀ r : Registry}

/- The values that belong to the service. -/
def Own
    (key : RegistryKey)
    (name : Text) : Prop :=
  (key = .settings ∧
      (name = argsValue ∨ name = executableValue)) ∨
    (key = .run ∧ name = appName) ∨
    (key = .startupApproved ∧ name = appName)

/-
  What `enable` has done to a registry after `n` of its three
  writes: the options, the executable, and the entry that is
  run at login. Other programs' values are as they were.
-/
structure Written
    (E : Request)
    (r₀ : Registry)
    (n : Nat)
    (r : Registry) : Prop where
  args :
    r.value .settings argsValue =
      if 1 ≤ n then some (.multi E.args)
      else r₀.value .settings argsValue
  executable :
    r.value .settings executableValue =
      if 2 ≤ n then
        some (.string E.executable.toStringLossy)
      else r₀.value .settings executableValue
  run :
    r.value .run appName =
      if 3 ≤ n then some (.string E.command)
      else r₀.value .run appName
  frame :
    ∀ key name, ¬ Own key name →
      r.value key name = r₀.value key name

/- The Windows startup settings do not hold the entry back. -/
def Approved
    (r : Registry) : Prop :=
  ∀ value, r.value .startupApproved appName = some value →
    value.first = some 0x02

/-
  What `disable` and `uninstall` have done after `n` of the
  removals: the entry, its approval, and the settings.
-/
structure Removed
    (r₀ : Registry)
    (n : Nat)
    (r : Registry) : Prop where
  run :
    r.value .run appName =
      if 1 ≤ n then none else r₀.value .run appName
  approved :
    r.value .startupApproved appName =
      if 2 ≤ n then none
      else r₀.value .startupApproved appName
  settings :
    ∀ name,
      r.value .settings name =
        if 3 ≤ n then none else r₀.value .settings name
  frame :
    ∀ key name, key ≠ .settings → ¬ Own key name →
      r.value key name = r₀.value key name

/- A call with its context, from before it to behind it. -/
theorem triple_call
    {q : RegistryCall}
    {context : String}
    {pre post crash : Registry → Prop}
    (hBefore : ∀ r, pre r → crash r)
    (hCall :
      ∀ r reply, pre r → (r.perform q).2 = .ok reply →
        post (r.perform q).1)
    (hAfter : ∀ r, post r → crash r) :
    registry.Triple pre (call q context) (fun _ => post)
      crash := by
  refine .ask hBefore (.fail hBefore) fun r hPre => ?_
  change registry.Triple (fun f => f = (r.perform q).1)
    (match (r.perform q).2 with
    | .ok value => .done value
    | .error _ => .fail context.toList) _ _
  cases hReply : (r.perform q).2 with
  | ok reply =>
      have hPost := hCall r reply hPre hReply
      refine .pure ?_ ?_
      · rintro f rfl
        exact hPost
      · rintro f rfl
        exact hAfter _ hPost
  | error e =>
      rw [Registry.perform_error hReply]
      refine .fail ?_
      rintro f rfl
      exact hBefore _ hPre

/- A removal, whether there is something to remove or not. -/
theorem triple_removeCall
    {q : RegistryCall}
    {context : String}
    {pre post crash : Registry → Prop}
    (hBefore : ∀ r, pre r → crash r)
    (hCall : ∀ r, pre r → post (r.perform q).1)
    (hAfter : ∀ r, post r → crash r) :
    registry.Triple pre (removeCall q context)
      (fun _ => post) crash := by
  refine .ask hBefore (.fail hBefore) fun r hPre => ?_
  change registry.Triple (fun f => f = (r.perform q).1)
    (match (r.perform q).2 with
    | .ok _ => .done ()
    | .error .notFound => .done ()
    | .error .other => .fail context.toList) _ _
  have hPost := hCall r hPre
  split
  · refine .pure ?_ ?_
    · rintro f rfl
      exact hPost
    · rintro f rfl
      exact hAfter _ hPost
  · refine .pure ?_ ?_
    · rintro f rfl
      exact hPost
    · rintro f rfl
      exact hAfter _ hPost
  · refine .fail ?_
    rintro f rfl
    exact hAfter _ hPost

theorem args_ne_executable :
    argsValue ≠ executableValue := by
  decide

theorem own_args : Own .settings argsValue :=
  Or.inl ⟨rfl, Or.inl rfl⟩

theorem own_executable : Own .settings executableValue :=
  Or.inl ⟨rfl, Or.inr rfl⟩

theorem own_run : Own .run appName :=
  Or.inr (Or.inl ⟨rfl, rfl⟩)

theorem own_approved : Own .startupApproved appName :=
  Or.inr (Or.inr ⟨rfl, rfl⟩)

/- The script has not written anything yet. -/
theorem written_zero
    (E : Request)
    (r : Registry) :
    Written E r 0 r :=
  ⟨rfl, rfl, rfl, fun _ _ _ => rfl⟩

/- To create a key is not a write. -/
theorem Written.create
    {E : Request}
    {n : Nat}
    (hWritten : Written E r₀ n r)
    (key : RegistryKey) :
    Written E r₀ n (r.perform (.create key)).1 where
  args := by simpa using hWritten.args
  executable := by simpa using hWritten.executable
  run := by simpa using hWritten.run
  frame := fun key' name hOwn => by
    simpa using hWritten.frame key' name hOwn

/- A value of the service that is set touches no other. -/
theorem frame_set
    {key : RegistryKey}
    {name : Text}
    {value : RegistryValue}
    {reply : Option RegistryValue}
    (hFrame :
      ∀ key name, ¬ Own key name →
        r.value key name = r₀.value key name)
    (hOwn : Own key name)
    (hReply :
      (r.perform (.set key name value)).2 = .ok reply) :
    ∀ key' name', ¬ Own key' name' →
      (r.perform (.set key name value)).1.value key' name' =
        r₀.value key' name' := by
  intro key' name' hNot
  rw [Registry.value_set hReply, if_neg]
  · exact hFrame key' name' hNot
  · rintro ⟨rfl, rfl⟩
    exact hNot hOwn

/- The approval is the last write of `enable`. -/
theorem approve_triple
    (E : Request)
    (r₀ : Registry) :
    registry.Triple (Written E r₀ 3) approve
      (fun _ r => Written E r₀ 3 r ∧ Approved r)
      (fun r => Written E r₀ 3 r) := by
  refine .ask (fun _ h => h) (.fail fun _ h => h)
    fun r hWritten => ?_
  change registry.Triple (fun f => f = r)
    (match if (r .startupApproved).isSome then
        (.ok none : RegistryReply) else .error .notFound with
    | .ok _ => _
    | .error .notFound => _
    | .error .other => _) _ _
  cases hKey : (r .startupApproved).isSome with
  | true =>
      have hSet : ∀ context,
          registry.Triple (fun f => f = r)
            (call
              (.set .startupApproved appName
                (.bytes startupEnabled)) context)
            (fun _ f => Written E r₀ 3 f ∧ Approved f)
            (fun f => Written E r₀ 3 f) := by
        intro context
        refine triple_call ?_ ?_ (fun _ h => h.1)
        · rintro f rfl
          exact hWritten
        · rintro f reply rfl hReply
          have hValue := @Registry.value_set f .startupApproved
          refine ⟨⟨?_, ?_, ?_, frame_set hWritten.frame
            own_approved hReply⟩, ?_⟩
          · simpa [hValue hReply] using hWritten.args
          · simpa [hValue hReply] using hWritten.executable
          · simpa [hValue hReply] using hWritten.run
          · intro value hApproved
            rw [hValue hReply, if_pos ⟨rfl, rfl⟩,
              Option.some.injEq] at hApproved
            subst hApproved
            rfl
      exact (hSet _).bind fun _ =>
        .pure (fun _ h => h) (fun _ h => h.1)
  | false =>
      refine .pure ?_ ?_
      · rintro f rfl
        refine ⟨hWritten, fun value hValue => ?_⟩
        rw [Option.isSome_eq_false_iff,
          Option.isNone_iff_eq_none] at hKey
        simp [Registry.value, hKey] at hValue
      · rintro f rfl
        exact hWritten

/- Each of the three writes is one more. -/
theorem Written.setArgs
    {E : Request}
    {reply : Option RegistryValue}
    (hWritten : Written E r₀ 0 r)
    (hReply :
      (r.perform
        (.set .settings argsValue (.multi E.args))).2 =
          .ok reply) :
    Written E r₀ 1
      (r.perform
        (.set .settings argsValue (.multi E.args))).1 where
  args := by simp [Registry.value_set hReply]
  executable := by
    simpa [Registry.value_set hReply,
      args_ne_executable.symm] using hWritten.executable
  run := by
    simpa [Registry.value_set hReply] using hWritten.run
  frame := frame_set hWritten.frame own_args hReply

theorem Written.setExecutable
    {E : Request}
    {reply : Option RegistryValue}
    (hWritten : Written E r₀ 1 r)
    (hReply :
      (r.perform
        (.set .settings executableValue
          (.string E.executable.toStringLossy))).2 =
            .ok reply) :
    Written E r₀ 2
      (r.perform
        (.set .settings executableValue
          (.string E.executable.toStringLossy))).1 where
  args := by
    simpa [Registry.value_set hReply,
      args_ne_executable] using hWritten.args
  executable := by simp [Registry.value_set hReply]
  run := by
    simpa [Registry.value_set hReply] using hWritten.run
  frame := frame_set hWritten.frame own_executable hReply

theorem Written.setRun
    {E : Request}
    {reply : Option RegistryValue}
    (hWritten : Written E r₀ 2 r)
    (hReply :
      (r.perform
        (.set .run appName (.string E.command))).2 =
          .ok reply) :
    Written E r₀ 3
      (r.perform
        (.set .run appName (.string E.command))).1 where
  args := by
    simpa [Registry.value_set hReply] using hWritten.args
  executable := by
    simpa [Registry.value_set hReply]
      using hWritten.executable
  run := by simp [Registry.value_set hReply]
  frame := frame_set hWritten.frame own_run hReply

/-
  An `enable` that returns has made all of its writes. One
  that is cut short or refused has made the first of them,
  in the order in which they are needed at login.
-/
theorem enable_triple
    (E : Request)
    (r₀ : Registry) :
    registry.Triple (fun r => r = r₀) (enable E)
      (fun _ r => Written E r₀ 3 r ∧ Approved r)
      (fun r => ∃ n, n ≤ 3 ∧ Written E r₀ n r) := by
  have hCut :
      ∀ {n}, n ≤ 3 → ∀ r, Written E r₀ n r →
        ∃ n, n ≤ 3 ∧ Written E r₀ n r :=
    fun hLe r hWritten => ⟨_, hLe, hWritten⟩
  have hStart : ∀ r, r = r₀ → Written E r₀ 0 r := by
    rintro r rfl
    exact written_zero E r
  have hSettings := @triple_call (.create .settings)
    "failed to open sshdt service settings" _
    (Written E r₀ 0) _
    (fun r h => hCut (Nat.zero_le 3) r (hStart r h))
    (fun r _ h _ => (hStart r h).create .settings)
    (hCut (Nat.zero_le 3))
  have hArgs := @triple_call
    (.set .settings argsValue (.multi E.args))
    "failed to save sshdt service options"
    (Written E r₀ 0) (Written E r₀ 1) _
    (hCut (Nat.zero_le 3)) (fun _ _ h hReply =>
      h.setArgs hReply) (hCut (by decide : 1 ≤ 3))
  have hExecutable := @triple_call
    (.set .settings executableValue
      (.string E.executable.toStringLossy))
    "failed to save the sshdt service executable"
    (Written E r₀ 1) (Written E r₀ 2) _
    (hCut (by decide : 1 ≤ 3)) (fun _ _ h hReply =>
      h.setExecutable hReply) (hCut (by decide : 2 ≤ 3))
  have hRunKey := @triple_call (.create .run)
    "failed to enable sshdt launch at login"
    (Written E r₀ 2) (Written E r₀ 2) _
    (hCut (by decide : 2 ≤ 3))
    (fun _ _ h _ => h.create .run)
    (hCut (by decide : 2 ≤ 3))
  have hRun := @triple_call
    (.set .run appName (.string E.command))
    "failed to enable sshdt launch at login"
    (Written E r₀ 2) (Written E r₀ 3) _
    (hCut (by decide : 2 ≤ 3)) (fun _ _ h hReply =>
      h.setRun hReply) (hCut le_rfl)
  have hApprove := (approve_triple E r₀).consequence
    (fun _ h => h) (fun _ _ h => h) (hCut le_rfl)
  exact hSettings.bind fun _ => hArgs.bind fun _ =>
    hExecutable.bind fun _ => hRunKey.bind fun _ =>
      hRun.bind fun _ => hApprove

/- Nothing was removed yet. -/
theorem removed_zero
    (r : Registry) :
    Removed r 0 r :=
  ⟨rfl, rfl, fun _ => rfl, fun _ _ _ _ => rfl⟩

theorem Removed.run'
    (hRemoved : Removed r₀ 0 r) :
    Removed r₀ 1 (r.perform (.remove .run appName)).1 where
  run := by simp [Registry.value_remove]
  approved := by
    simpa [Registry.value_remove] using hRemoved.approved
  settings := fun name => by
    simpa [Registry.value_remove] using hRemoved.settings name
  frame := fun key name hKey hOwn => by
    rw [Registry.value_remove, if_neg]
    · exact hRemoved.frame key name hKey hOwn
    · rintro ⟨rfl, rfl⟩
      exact hOwn own_run

theorem Removed.approved'
    (hRemoved : Removed r₀ 1 r) :
    Removed r₀ 2
      (r.perform (.remove .startupApproved appName)).1 where
  run := by
    simpa [Registry.value_remove] using hRemoved.run
  approved := by simp [Registry.value_remove]
  settings := fun name => by
    simpa [Registry.value_remove] using hRemoved.settings name
  frame := fun key name hKey hOwn => by
    rw [Registry.value_remove, if_neg]
    · exact hRemoved.frame key name hKey hOwn
    · rintro ⟨rfl, rfl⟩
      exact hOwn own_approved

theorem Removed.settings'
    (hRemoved : Removed r₀ 2 r) :
    Removed r₀ 3 (r.perform (.removeTree .settings)).1 where
  run := by
    simpa [Registry.value_removeTree] using hRemoved.run
  approved := by
    simpa [Registry.value_removeTree] using hRemoved.approved
  settings := fun name => by
    simp [Registry.value_removeTree]
  frame := fun key name hKey hOwn => by
    rw [Registry.value_removeTree, if_neg hKey]
    exact hRemoved.frame key name hKey hOwn

/- `disable` removes the entry, or has not begun to. -/
theorem disable_triple
    (r₀ : Registry) :
    registry.Triple (Removed r₀ 0) disable
      (fun _ => Removed r₀ 1)
      (fun r => ∃ n, n ≤ 1 ∧ Removed r₀ n r) :=
  triple_removeCall (fun _ h => ⟨0, by decide, h⟩)
    (fun _ h => h.run') (fun _ h => ⟨1, le_rfl, h⟩)

/-
  An `uninstall` that returns has removed everything; one
  that is cut short has removed the entry before anything
  that it needs.
-/
theorem uninstall_triple
    (stopped : Except Text Unit)
    (r₀ : Registry) :
    registry.Triple (fun r => r = r₀) (uninstall stopped)
      (fun _ => Removed r₀ 3)
      (fun r => ∃ n, n ≤ 3 ∧ Removed r₀ n r) := by
  have hStart : ∀ r, r = r₀ → Removed r₀ 0 r := by
    rintro r rfl
    exact removed_zero r
  cases stopped with
  | error e =>
      exact .fail fun r h => ⟨0, by decide, hStart r h⟩
  | ok _ =>
      have hDisable := (disable_triple r₀).consequence
        hStart (fun _ _ h => h)
        (fun r h => h.imp fun n h => And.imp_left
          (fun hLe => hLe.trans (by decide : 1 ≤ 3)) h)
      have hApproved := @triple_removeCall
        (.remove .startupApproved appName)
        "failed to remove sshdt from Windows startup settings"
        (Removed r₀ 1) (Removed r₀ 2)
        (fun r => ∃ n, n ≤ 3 ∧ Removed r₀ n r)
        (fun _ h => ⟨1, by decide, h⟩)
        (fun _ h => h.approved')
        (fun _ h => ⟨2, by decide, h⟩)
      have hSettings := @triple_removeCall
        (.removeTree .settings)
        "failed to remove sshdt service settings"
        (Removed r₀ 2) (Removed r₀ 3)
        (fun r => ∃ n, n ≤ 3 ∧ Removed r₀ n r)
        (fun _ h => ⟨2, by decide, h⟩)
        (fun _ h => h.settings')
        (fun _ h => ⟨3, le_rfl, h⟩)
      exact hDisable.bind fun _ => hApproved.bind fun _ =>
        hSettings

end Service

end Sshdt

------------------------------------------------------------
-- What Is Read Back
------------------------------------------------------------

namespace Sshdt

namespace Service

variable {r₀ r : Registry}

/- Reading a value does not change the registry. -/
theorem run_get
    {α : Type}
    {key : RegistryKey}
    {name : Text}
    (k : RegistryReply → Reg α) :
    registry.run r (.ask (.get key name) k) =
      registry.run r
        (k
          (match r.value key name with
          | none => .error .notFound
          | some value => .ok (some value))) := by
  change registry.run (r.perform (.get key name)).1
    (k (r.perform (.get key name)).2) = _
  cases hValue : r.value key name <;>
    simp [Registry.perform, hValue]

/- An entry is reported only if there is one. -/
theorem entry_of_run
    (hEntry : (registry.run r hasRunEntry).2 = .ok true) :
    ∃ command,
      r.value .run appName = some (.string command) := by
  rw [hasRunEntry, run_get] at hEntry
  cases hRun : r.value .run appName with
  | none =>
      rw [hRun] at hEntry
      cases hEntry
  | some entry =>
      rw [hRun] at hEntry
      cases entry with
      | string command => exact ⟨command, rfl⟩
      | multi args => cases hEntry
      | bytes data => cases hEntry

/- The startup settings let the entry through. -/
theorem run_startupApproved
    (hApproved : Approved r) :
    (registry.run r startupApproved).2 = .ok true := by
  rw [startupApproved, run_get]
  cases hValue : r.value .startupApproved appName with
  | none => rfl
  | some value =>
      have hFirst := hApproved value hValue
      change Except.ok
        ((some value).bind RegistryValue.first ==
          startupEnabled.head?) = _
      rw [Option.bind_some, hFirst]
      rfl

theorem run_launchAtLoginEnabled
    {command : Text}
    (hRun : r.value .run appName = some (.string command))
    (hApproved : Approved r) :
    (registry.run r launchAtLoginEnabled).2 = .ok true := by
  have hBind :
      registry.run r launchAtLoginEnabled =
        registry.run r startupApproved := by
    change registry.run r
      (.ask (.get .run appName) fun reply => _) = _
    rw [run_get, hRun]
    rfl
  rw [hBind]
  exact run_startupApproved hApproved

theorem run_launchAtLoginEnabled_none
    (hRun : r.value .run appName = none) :
    (registry.run r launchAtLoginEnabled).2 =
      .ok false := by
  change (registry.run r
    (.ask (.get .run appName) fun reply => _)).2 = _
  rw [run_get, hRun]
  rfl

/- The options and the executable are there. -/
theorem run_isConfigured
    {args : List Text}
    {text : Text}
    (hArgs :
      r.value .settings argsValue = some (.multi args))
    (hText :
      r.value .settings executableValue =
        some (.string text)) :
    (registry.run r isConfigured).2 = .ok true ∧
      (registry.run r savedAnswer).2 = .ok (.value args) ∧
      (registry.run r savedExecutable).2 = .ok text := by
  refine ⟨?_, ?_, ?_⟩
  · change (registry.run r
      (.ask (.get .settings argsValue) fun reply => _)).2 = _
    rw [run_get, hArgs]
    change (registry.run r
      (.ask (.get .settings executableValue)
        fun reply => _)).2 = _
    rw [run_get, hText]
    rfl
  · rw [savedAnswer, run_get, hArgs]
    rfl
  · rw [savedExecutable, run_get, hText]
    rfl

theorem run_isConfigured_none
    (hArgs : r.value .settings argsValue = none) :
    (registry.run r isConfigured).2 = .ok false := by
  change (registry.run r
    (.ask (.get .settings argsValue) fun reply => _)).2 = _
  rw [run_get, hArgs]
  rfl

end Service

end Sshdt

------------------------------------------------------------
-- All Runs
------------------------------------------------------------

namespace Sshdt

namespace Service

variable {r₀ r₁ r : Registry}

/-
  A step without `enable`: `disable` or `uninstall`, to its
  end or not, or other programs. These change neither the
  settings nor the entry, which they may remove.
-/
inductive Quiet : Registry → Registry → Prop
| disable
    {r r' : Registry}
    {ending : Ending Text Unit}
    (hExec : registry.Exec r disable r' ending) :
    Quiet r r'
| uninstall
    {r r' : Registry}
    {stopped : Except Text Unit}
    {ending : Ending Text Unit}
    (hExec :
      registry.Exec r (uninstall stopped) r' ending) :
    Quiet r r'
| others
    {r r' : Registry}
    (hSettings :
      ∀ name,
        r'.value .settings name = r.value .settings name)
    (hRun :
      r'.value .run appName = r.value .run appName ∨
        r'.value .run appName = none) :
    Quiet r r'

/- A step of any kind, one after another. -/
def Steps
    (r r' : Registry) : Prop :=
  Quiet r r' ∨
    ∃ E ending, registry.Exec r (enable E) r' ending

/- What an execution of a command leaves in any case. -/
theorem exec_crash
    {s : Reg Unit}
    {r' : Registry}
    {ending : Ending Text Unit}
    {pre crash : Registry → Prop}
    {post : Unit → Registry → Prop}
    (hTriple : registry.Triple pre s post crash)
    (hPre : pre r)
    (hWeak : ∀ r, post () r → crash r)
    (hExec : registry.Exec r s r' ending) :
    crash r' := by
  have hEnd := hTriple r r' ending hPre hExec
  cases ending with
  | value a => exact hWeak r' hEnd
  | error e => exact hEnd
  | cut => exact hEnd

/- A quiet step removes the entry, or changes nothing of it. -/
theorem Quiet.keeps
    {r' : Registry}
    (hQuiet : Quiet r r') :
    r'.value .run appName = none ∨
      r'.value .run appName = r.value .run appName ∧
        ∀ name,
          r'.value .settings name =
            r.value .settings name := by
  have hRemoved :
      ∀ n, Removed r n r' →
        r'.value .run appName = none ∨
          r'.value .run appName = r.value .run appName ∧
            ∀ name,
              r'.value .settings name =
                r.value .settings name := by
    intro n hRemoved
    by_cases hRun : 1 ≤ n
    · exact Or.inl (by simpa [hRun] using hRemoved.run)
    · refine Or.inr ⟨by simpa [hRun] using hRemoved.run, ?_⟩
      intro name
      have hSettings := hRemoved.settings name
      rwa [if_neg (by omega)] at hSettings
  cases hQuiet with
  | disable hExec =>
      rcases exec_crash (disable_triple r) (removed_zero r)
        (fun _ h => ⟨1, le_rfl, h⟩) hExec with ⟨n, _, h⟩
      exact hRemoved n h
  | @uninstall stopped _ hExec =>
      rcases exec_crash (uninstall_triple stopped r) rfl
        (fun _ h => ⟨3, le_rfl, h⟩) hExec with ⟨n, _, h⟩
      exact hRemoved n h
  | others hSettings hRun =>
      rcases hRun with hSame | hNone
      · exact Or.inr ⟨hSame, hSettings⟩
      · exact Or.inl hNone

/-
  Whenever there is an entry, the service that it starts
  finds its options, and `service start` the executable.
-/
def Consistent
    (r : Registry) : Prop :=
  ∀ entry, r.value .run appName = some entry →
    (∃ command, entry = .string command) ∧
      (∃ args,
        r.value .settings argsValue =
          some (.multi args)) ∧
      ∃ text,
        r.value .settings executableValue =
          some (.string text)

theorem Written.consistent
    {E : Request}
    {n : Nat}
    (hConsistent : Consistent r₀)
    (hWritten : Written E r₀ n r) :
    Consistent r := by
  intro entry hEntry
  rw [hWritten.run] at hEntry
  by_cases hRun : 3 ≤ n
  · rw [if_pos hRun, Option.some.injEq] at hEntry
    refine ⟨⟨_, hEntry.symm⟩, ⟨E.args, ?_⟩,
      ⟨E.executable.toStringLossy, ?_⟩⟩
    · rw [hWritten.args, if_pos (by omega)]
    · rw [hWritten.executable, if_pos (by omega)]
  · rw [if_neg hRun] at hEntry
    rcases hConsistent entry hEntry with
      ⟨hCommand, ⟨args, hArgs⟩, ⟨text, hText⟩⟩
    refine ⟨hCommand, ?_, ?_⟩
    · rw [hWritten.args]
      split <;> [exact ⟨_, rfl⟩; exact ⟨args, hArgs⟩]
    · rw [hWritten.executable]
      split <;> [exact ⟨_, rfl⟩; exact ⟨text, hText⟩]

/- Every step keeps the registry consistent. -/
theorem Steps.consistent
    {r' : Registry}
    (hStep : Steps r r')
    (hConsistent : Consistent r) :
    Consistent r' := by
  rcases hStep with hQuiet | ⟨E, ending, hExec⟩
  · intro entry hEntry
    rcases hQuiet.keeps with hNone | ⟨hRun, hSettings⟩
    · rw [hNone] at hEntry
      cases hEntry
    · rw [hRun] at hEntry
      rw [hSettings, hSettings]
      exact hConsistent entry hEntry
  · rcases exec_crash (enable_triple E r) rfl
      (fun _ h => ⟨3, le_rfl, h.1⟩) hExec with
      ⟨n, _, hWritten⟩
    exact hWritten.consistent hConsistent

theorem consistent_of_steps
    (hFirst : Consistent r₀)
    (hSteps : Relation.ReflTransGen Steps r₀ r) :
    Consistent r := by
  induction hSteps with
  | refl => exact hFirst
  | tail _ hStep ih => exact hStep.consistent ih

/-
  In every run of the commands, of which any may be refused
  a call or cut short, an entry that Windows finds at login
  starts a service that has its options and its executable.
-/
theorem registry_crash_safe
    (hFirst : Consistent r₀)
    (hSteps : Relation.ReflTransGen Steps r₀ r)
    (hEntry : (registry.run r hasRunEntry).2 = .ok true) :
    (registry.run r isConfigured).2 = .ok true ∧
      (∃ args,
        (registry.run r savedAnswer).2 =
          .ok (.value args)) ∧
      ∃ text,
        (registry.run r savedExecutable).2 = .ok text := by
  rcases entry_of_run hEntry with ⟨command, hRun⟩
  rcases consistent_of_steps hFirst hSteps _ hRun with
    ⟨_, ⟨args, hArgs⟩, ⟨text, hText⟩⟩
  rcases run_isConfigured hArgs hText with
    ⟨hConfigured, hAnswer, hExecutable⟩
  exact ⟨hConfigured, ⟨args, hAnswer⟩, ⟨text, hExecutable⟩⟩

/- An `enable` on a computer without `conhost.exe`. -/
def sampleRequest : Request where
  args := ["--password".toList, "pw".toList]
  executable := OsString.ofText "C:\\sshdt.exe".toList
  consoleHost := none

/- The registry before anything was enabled. -/
def emptyRegistry : Registry :=
  fun _ => none

/- An `enable` that was cut short behind its first write. -/
def cutRegistry : Registry :=
  ((emptyRegistry.perform (.create .settings)).1.perform
    (.set .settings argsValue
      (.multi sampleRequest.args))).1

/- Another one that was not. -/
def enabledRegistry : Registry :=
  (registry.run cutRegistry (enable sampleRequest)).1

theorem enabledRegistry_steps :
    Relation.ReflTransGen Steps emptyRegistry
      enabledRegistry :=
  .tail (.single (Or.inr ⟨sampleRequest, .cut,
    .performed (.performed (.cut _ _))⟩))
    (Or.inr ⟨sampleRequest, .value (),
      Device.exec_run cutRegistry (enable sampleRequest)⟩)

theorem enabledRegistry_safe :
    (registry.run cutRegistry isConfigured).2 = .ok false ∧
      (registry.run enabledRegistry isConfigured).2 =
        .ok true :=
  ⟨rfl, (registry_crash_safe (fun _ h => by cases h)
    enabledRegistry_steps rfl).1⟩

/-
  What the commands that return have done, whatever was cut
  short before them.
-/
theorem commands_take_effect
    (r₀ r : Registry) :
    (∀ E, registry.Exec r₀ (enable E) r (.value ()) →
      (registry.run r launchAtLoginEnabled).2 = .ok true ∧
        (registry.run r isConfigured).2 = .ok true ∧
        (registry.run r savedAnswer).2 =
          .ok (.value E.args) ∧
        (registry.run r savedExecutable).2 =
          .ok E.executable.toStringLossy ∧
        r.value .run appName =
          some (.string E.command)) ∧
    (registry.Exec r₀ disable r (.value ()) →
      (registry.run r launchAtLoginEnabled).2 = .ok false ∧
        ∀ name,
          r.value .settings name =
            r₀.value .settings name) ∧
    (∀ stopped,
      registry.Exec r₀ (uninstall stopped) r (.value ()) →
        (registry.run r launchAtLoginEnabled).2 =
            .ok false ∧
          (registry.run r isConfigured).2 = .ok false ∧
          r.value .startupApproved appName = none) := by
  refine ⟨fun E hExec => ?_, fun hExec => ?_,
    fun stopped hExec => ?_⟩
  · rcases enable_triple E r₀ r₀ r _ rfl hExec with
      ⟨hWritten, hApproved⟩
    have hArgs := hWritten.args
    have hText := hWritten.executable
    have hRun := hWritten.run
    rw [if_pos (by decide)] at hArgs hText hRun
    rcases run_isConfigured hArgs hText with
      ⟨hConfigured, hAnswer, hExecutable⟩
    exact ⟨run_launchAtLoginEnabled hRun hApproved,
      hConfigured, hAnswer, hExecutable, hRun⟩
  · have hRemoved :=
      disable_triple r₀ r₀ r _ (removed_zero r₀) hExec
    exact ⟨run_launchAtLoginEnabled_none hRemoved.run,
      hRemoved.settings⟩
  · have hRemoved :=
      uninstall_triple stopped r₀ r₀ r _ rfl hExec
    exact ⟨run_launchAtLoginEnabled_none hRemoved.run,
      run_isConfigured_none (hRemoved.settings _),
      hRemoved.approved⟩

theorem enabledRegistry_launch :
    (registry.run enabledRegistry launchAtLoginEnabled).2 =
      .ok true :=
  ((commands_take_effect cutRegistry enabledRegistry).1
    sampleRequest
    (Device.exec_run cutRegistry (enable sampleRequest))).1

end Service

end Sshdt

------------------------------------------------------------
-- From One Command Line To The Other
------------------------------------------------------------

namespace Sshdt

namespace Service

variable {r₀ r₁ r : Registry}

/- What a command leaves of an enabled service. -/
def Kept
    (E : Request)
    (r : Registry) : Prop :=
  r.value .run appName ≠ none →
    r.value .settings argsValue = some (.multi E.args) ∧
      r.value .settings executableValue =
        some (.string E.executable.toStringLossy) ∧
      r.value .run appName = some (.string E.command)

theorem kept_of_quiet
    {E : Request}
    (hEnable : registry.Exec r₀ (enable E) r₁ (.value ()))
    (hQuiet : Relation.ReflTransGen Quiet r₁ r) :
    Kept E r := by
  induction hQuiet with
  | refl =>
      have hWritten :=
        (enable_triple E r₀ r₀ r₁ _ rfl hEnable).1
      exact fun _ =>
        ⟨hWritten.args, hWritten.executable, hWritten.run⟩
  | tail _ hStep ih =>
      intro hEntry
      rcases hStep.keeps with hNone | ⟨hRun, hSettings⟩
      · exact absurd hNone hEntry
      · rw [hSettings, hSettings, hRun]
        rw [hRun] at hEntry
        exact ih hEntry

/-
  The options of a `service enable` that returned are those
  of the service that is started at login, until the entry
  is removed or another `enable` begins: through any number
  of disabled or broken-off removals and of other programs.
-/
theorem login_restores_options
    (argh : Argh)
    (rules : PathRules)
    (d : rules.CurrentDir)
    {o : ServerOptions}
    {E : Request}
    (hValues : o.NoEmptyValue)
    (hUnicode : o.UnicodePaths rules d)
    (hArgs : startupArgs rules (.ok d) o = .ok E.args)
    (hEnable : registry.Exec r₀ (enable E) r₁ (.value ()))
    (hQuiet : Relation.ReflTransGen Quiet r₁ r)
    (hEntry : (registry.run r hasRunEntry).2 = .ok true) :
    r.value .run appName = some (.string E.command) ∧
      ∃ o',
        (registry.run r (loginOptions argh.fromArgs)).2 =
            .ok o' ∧
          Restored rules d o o' := by
  rcases entry_of_run hEntry with ⟨command, hRun⟩
  rcases kept_of_quiet hEnable hQuiet (by simp [hRun]) with
    ⟨hSaved, _, hCommand⟩
  refine ⟨hCommand, o.mapPaths (savedPath rules d), ?_,
    (restored_savedPath_iff rules d o).mpr hUnicode⟩
  rw [startupArgs_ok, Except.ok.injEq] at hArgs
  have hOptions := savedOptions_noEmpty argh rules d hValues
  rw [hArgs] at hOptions
  change (registry.run r
    (.ask (.get .settings argsValue) fun reply => _)).2 = _
  rw [run_get, hSaved]
  change (registry.run r
    (match savedOptions argh.fromArgs (.value E.args) with
    | .error e => .fail e
    | .ok options => .done options)).2 = _
  rw [hOptions]
  rfl

/- The options of `--password pw`. -/
def sampleOptions : ServerOptions :=
  { ServerOptions.none with password := some "pw".toList }

theorem sampleOptions_restored :
    ∃ (d : PathRules.drive.CurrentDir) (o' : ServerOptions),
      (registry.run enabledRegistry
          (loginOptions Argh.loop.fromArgs)).2 = .ok o' ∧
        Restored PathRules.drive d sampleOptions o' := by
  have hValues : sampleOptions.NoEmptyValue := by
    unfold ServerOptions.NoEmptyValue
    decide
  have hUnicode :
      ∀ d, sampleOptions.UnicodePaths PathRules.drive d := by
    have hPaths : sampleOptions.paths = [] := by decide
    intro d path hPath
    simp [hPaths] at hPath
  refine ⟨⟨OsString.ofText "C:\\".toList, by decide⟩, ?_⟩
  exact (login_restores_options Argh.loop PathRules.drive _
    hValues (hUnicode _) (by decide)
    (Device.exec_run cutRegistry (enable sampleRequest))
    .refl rfl).2

end Service

end Sshdt
