import Sshdt.Config.Basic

/-
  The `sshd_config` reader (`src/sshd_config.rs`).

  `splitLine` is the line handling of `parse`: comment
  stripping, trimming and the split into a lowercased
  keyword and a trimmed value. `applyDirective` is the match
  over the keyword. `parse` folds it over the numbered lines
  and then applies the two deferred clearing flags and the
  Dev Tunnels validation.

  Key definitions include:
    * `SshdConfig.stripComment`
    * `SshdConfig.splitLine`
    * `SshdConfig.directives`
    * `SshdConfig.applyDirective`
    * `SshdConfig.parse`
    * `SshdConfig.parseForUser`
    * `Config.loadFile`

  Key theorems include:
    * `SshdConfig.applyDirective_auth`
    * `SshdConfig.parse_auth`
    * `SshdConfig.parseForUser_auth`
-/

------------------------------------------------------------
-- Lines
------------------------------------------------------------

namespace Sshdt

namespace SshdConfig

/- The keywords that `parse` tells apart. -/
inductive Keyword where
  | port
  | listenAddress
  | hostKey
  | authorizedKeysFile
  | passwordAuthentication
  | pubkeyAuthentication
  | allowTcpForwarding
  | loginGraceTime
  | maxStartups
  | acceptEnv
  | devTunnelEnable
  | devTunnelBin
  | devTunnelId
  | devTunnelLabel
  | devTunnelAutoCreate
  | devTunnelTimeout
  | shell
  | forceCommand
  | banner
  | subsystem
  | other (name : Text)
  deriving DecidableEq, Repr

/- The keyword with the given lowercased spelling. -/
def Keyword.ofText
    (lower : Text) : Keyword :=
  match String.ofList lower with
  | "port" => .port
  | "listenaddress" => .listenAddress
  | "hostkey" => .hostKey
  | "authorizedkeysfile" => .authorizedKeysFile
  | "passwordauthentication" => .passwordAuthentication
  | "pubkeyauthentication" => .pubkeyAuthentication
  | "allowtcpforwarding" => .allowTcpForwarding
  | "logingracetime" => .loginGraceTime
  | "maxstartups" => .maxStartups
  | "acceptenv" => .acceptEnv
  | "devtunnelenable" => .devTunnelEnable
  | "devtunnelbin" => .devTunnelBin
  | "devtunnelid" => .devTunnelId
  | "devtunnellabel" => .devTunnelLabel
  | "devtunnelautocreate" => .devTunnelAutoCreate
  | "devtunneltimeout" => .devTunnelTimeout
  | "shell" => .shell
  | "forcecommand" => .forceCommand
  | "banner" => .banner
  | "subsystem" => .subsystem
  | _ => .other lower

/-
  The loop of `strip_comment`. The flag tells whether the
  previous character was whitespace or the line start.
-/
def stripCommentFrom
    (prevWs : Bool) : Text → Text
| [] => []
| c :: rest =>
    if c = '#' && prevWs then
      []
    else
      c :: stripCommentFrom (Text.isWhitespace c) rest

/- `strip_comment`. -/
def stripComment
    (line : Text) : Text :=
  stripCommentFrom true line

/-
  The lowercased keyword and the trimmed value of a line, or
  nothing for a blank or comment-only line.
-/
def splitLine
    (raw : Text) : Option (Text × Text) :=
  let line := Text.trim (stripComment raw)
  if line = [] then
    none
  else
    match Text.splitOnceP Text.isWhitespace line with
    | some (key, value) =>
        some (Text.toAsciiLowercase key, Text.trim value)
    | none => some (Text.toAsciiLowercase line, [])

/- The entry of a raw line, if it has one. -/
def lineEntry
    (raw : Text) : Option (Keyword × Text) :=
  (splitLine raw).map fun (key, value) =>
    (Keyword.ofText key, value)

/- The entries of a configuration text, in order. -/
def directives
    (input : Text) : List (Keyword × Text) :=
  (Text.lines input).filterMap lineEntry

end SshdConfig

end Sshdt

------------------------------------------------------------
-- Values
------------------------------------------------------------

namespace Sshdt

namespace SshdConfig

/- `parse_yes_no`. -/
def parseYesNo
    (value : Text) : Option Bool :=
  match String.ofList (Text.toAsciiLowercase value) with
  | "yes" => some true
  | "no" => some false
  | _ => none

/- `parse_listen_address`. -/
def parseListenAddress
    (value : Text) : Option IpAddr :=
  let value := Text.trim value
  match value.dropPrefix? ['['] with
  | some rest =>
      IpAddr.parse ((rest.splitOn ']').head?.getD [])
  | none =>
      match IpAddr.parse value with
      | some addr => some addr
      | none =>
          match Text.rsplitOnce ':' value with
          | some (host, _) => IpAddr.parse host
          | none => none

/- `parse_time`. -/
def parseTime
    (value : Text) : Option UInt64 :=
  let value := Text.trim value
  match Text.parseU64 value with
  | some secs => some secs
  | none =>
      let scaled := fun (mult : UInt64) =>
        (Text.parseU64 (Text.trim value.dropLast)).bind
          (checkedMul · mult)
      match value.getLast? with
      | some 's' | some 'S' => scaled 1
      | some 'm' | some 'M' => scaled 60
      | some 'h' | some 'H' => scaled 3600
      | _ => none

/- `read_banner`. -/
def readBanner
    (host : Host)
    (value : Text) : Text :=
  (host.readToString value).getD value

/- `invalid`, with the line number of its context. -/
def invalid
    (lineno : Nat)
    (directive : String)
    (value : Text) : Error :=
  .configFile "<sshd_config>".toList
    (.invalidValue (lineno + 1) directive.toList value)

/- `Option::ok_or_else` with an `invalid` error. -/
def orInvalid
    {α : Type}
    (parsed : Option α)
    (lineno : Nat)
    (directive : String)
    (value : Text) : Except Error α :=
  match parsed with
  | some a => .ok a
  | none => .error (invalid lineno directive value)

end SshdConfig

end Sshdt

------------------------------------------------------------
-- Parsing
------------------------------------------------------------

namespace Sshdt

namespace SshdConfig

/- The mutable variables of `parse`. -/
structure ParseState where
  config : Config
  acceptEnvSeen : Bool
  passwordDisabled : Bool
  pubkeyDisabled : Bool

/- The variables before the first line. -/
def ParseState.initial : ParseState where
  config := Config.default
  acceptEnvSeen := false
  passwordDisabled := false
  pubkeyDisabled := false

/- The match over the keyword in `parse`. -/
def applyDirective
    (host : Host)
    (lineno : Nat)
    (st : ParseState)
    (keyword : Keyword)
    (value : Text) : Except Error ParseState :=
  let config := st.config
  match keyword with
  | .port => do
      let port ← orInvalid (Text.parseU16 value)
        lineno "Port" value
      .ok { st with config := { config with port } }
  | .listenAddress => do
      let bind ← orInvalid (parseListenAddress value)
        lineno "ListenAddress" value
      .ok { st with config := { config with bind } }
  | .hostKey =>
      let hostKeys := config.hostKeys ++ [value]
      .ok { st with config := { config with hostKeys } }
  | .authorizedKeysFile =>
      let authorizedKeys :=
        config.authorizedKeys ++ Text.splitWhitespace value
      .ok { st with
        config := { config with authorizedKeys } }
  | .passwordAuthentication =>
      let enabled := parseYesNo value
      let allowAnonymous :=
        if enabled.isSome then
          false
        else
          config.allowAnonymous
      .ok { st with
        config := { config with allowAnonymous }
        passwordDisabled :=
          st.passwordDisabled || enabled == some false }
  | .pubkeyAuthentication =>
      let enabled := parseYesNo value
      let allowAnonymous :=
        if enabled.isSome then
          false
        else
          config.allowAnonymous
      .ok { st with
        config := { config with allowAnonymous }
        pubkeyDisabled :=
          st.pubkeyDisabled || enabled == some false }
  | .allowTcpForwarding =>
      let allowTcpForwarding :=
        Text.toAsciiLowercase value != "no".toList
      .ok { st with
        config := { config with allowTcpForwarding } }
  | .loginGraceTime => do
      let loginGraceSecs ← orInvalid (parseTime value)
        lineno "LoginGraceTime" value
      .ok { st with
        config := { config with loginGraceSecs } }
  | .maxStartups => do
      let first := (value.splitOn ':').head?.getD value
      let maxStartups ← orInvalid (Text.parseU32 first)
        lineno "MaxStartups" value
      .ok { st with config := { config with maxStartups } }
  | .acceptEnv =>
      let before :=
        if st.acceptEnvSeen then config.acceptEnv else []
      let acceptEnv := before ++ Text.splitWhitespace value
      .ok { st with
        config := { config with acceptEnv }
        acceptEnvSeen := true }
  | .devTunnelEnable => do
      let enabled ← orInvalid (parseYesNo value)
        lineno "DevTunnelEnable" value
      let devTunnel := { config.devTunnel with enabled }
      .ok { st with config := { config with devTunnel } }
  | .devTunnelBin =>
      if value = [] then
        .error (invalid lineno "DevTunnelBin" value)
      else
        let devTunnel :=
          { config.devTunnel with bin := some value }
        .ok { st with config := { config with devTunnel } }
  | .devTunnelId =>
      if !validTunnelId value then
        .error (invalid lineno "DevTunnelId" value)
      else
        let devTunnel :=
          { config.devTunnel with id := some value }
        .ok { st with config := { config with devTunnel } }
  | .devTunnelLabel =>
      let labels := config.devTunnel.labels ++ [value]
      let devTunnel := { config.devTunnel with labels }
      .ok { st with config := { config with devTunnel } }
  | .devTunnelAutoCreate => do
      let autoCreate ← orInvalid (parseYesNo value)
        lineno "DevTunnelAutoCreate" value
      let devTunnel := { config.devTunnel with autoCreate }
      .ok { st with config := { config with devTunnel } }
  | .devTunnelTimeout => do
      let timeoutSecs ← orInvalid (parseTunnelTimeout value)
        lineno "DevTunnelTimeout" value
      let devTunnel := { config.devTunnel with timeoutSecs }
      .ok { st with config := { config with devTunnel } }
  | .shell | .forceCommand =>
      let shell := some value
      .ok { st with config := { config with shell } }
  | .banner =>
      let banner := some (readBanner host value)
      .ok { st with config := { config with banner } }
  | .subsystem => .ok st
  | .other _ => .ok st

/- The loop body of `parse`. -/
def parseLine
    (host : Host)
    (st : ParseState)
    (numbered : Text × Nat) : Except Error ParseState :=
  match splitLine numbered.1 with
  | none => .ok st
  | some (key, value) =>
      applyDirective host numbered.2 st
        (Keyword.ofText key) value

/- The deferred clearing at the end of `parse`. -/
def clearDisabled
    (st : ParseState) : Config :=
  let config := st.config
  let config :=
    if st.passwordDisabled then
      { config with password := none }
    else
      config
  if st.pubkeyDisabled then
    { config with
      authorizedKeys := [], authorizedKeyLines := [] }
  else
    config

/- `parse`. -/
def parse
    (host : Host)
    (input : Text) : Except Error Config := do
  let st ← (Text.lines input).zipIdx.foldlM
    (parseLine host) ParseState.initial
  let config := clearDisabled st
  config.validateDevTunnel
  .ok config

/- The loop of `parse_for_user` over the key files. -/
def homeRelative
    (home : Option PathBuf) :
    List PathBuf → Except Error (List PathBuf)
| [] => .ok []
| path :: paths =>
    if Path.isRelative path then
      match home with
      | none =>
          .error (.configFile "<sshd_config>".toList
            (.relativeKeysWithoutHome path))
      | some home => do
          let paths ← homeRelative (some home) paths
          .ok (Path.push home path :: paths)
    else do
      let paths ← homeRelative home paths
      .ok (path :: paths)

/- `parse_for_user`. -/
def parseForUser
    (host : Host)
    (input : Text)
    (home : Option PathBuf) : Except Error Config := do
  let config ← parse host input
  let authorizedKeys ← homeRelative home config.authorizedKeys
  .ok { config with authorizedKeys }

end SshdConfig

/- `Config::load_file`. -/
def Config.loadFile
    (host : Host)
    (path : PathBuf) : Except Error Config :=
  if (Path.extension path).any
      (Text.toAsciiLowercase · = "toml".toList) then
    .error (.configFile path .tomlNotSupported)
  else
    match host.readToString path with
    | none => .error (.configFile path .unreadable)
    | some content =>
        match SshdConfig.parseForUser host content
            host.homeDir with
        | .error (.configFile _ message) =>
            .error (.configFile path message)
        | result => result

end Sshdt

------------------------------------------------------------
-- Authentication Settings Of A Parsed Text
------------------------------------------------------------

namespace Sshdt

namespace SshdConfig

/- The two authentication toggles. -/
def isAuthToggle
    (keyword : Keyword) : Bool :=
  keyword == .passwordAuthentication ||
    keyword == .pubkeyAuthentication

/- A toggle entry that `parse` acts on: its value is yes or no. -/
def decidesAuth
    (entry : Keyword × Text) : Bool :=
  isAuthToggle entry.1 && (parseYesNo entry.2).isSome

/- An entry that defers the clearing of the key files. -/
def disablesPubkey
    (entry : Keyword × Text) : Bool :=
  entry.1 == .pubkeyAuthentication &&
    parseYesNo entry.2 == some false

/- The key files that an entry adds. -/
def keyFiles
    (entry : Keyword × Text) : List PathBuf :=
  if entry.1 = .authorizedKeysFile then
    Text.splitWhitespace entry.2
  else
    []

/-
  The authentication part of a parse state, relative to an
  earlier one and the entries read in between.
-/
structure AuthStep
    (st st' : ParseState)
    (entries : List (Keyword × Text)) : Prop where
  allowAnonymous :
    st'.config.allowAnonymous =
      (st.config.allowAnonymous && !entries.any decidesAuth)
  authorizedKeys :
    st'.config.authorizedKeys =
      st.config.authorizedKeys ++ entries.flatMap keyFiles
  pubkeyDisabled :
    st'.pubkeyDisabled =
      (st.pubkeyDisabled || entries.any disablesPubkey)
  password : st'.config.password = st.config.password
  authorizedKeyLines :
    st'.config.authorizedKeyLines =
      st.config.authorizedKeyLines

theorem AuthStep.refl
    (st : ParseState) :
    AuthStep st st [] := by
  constructor <;> simp

theorem AuthStep.trans
    {st₁ st₂ st₃ : ParseState}
    {entries₁ entries₂ : List (Keyword × Text)}
    (hFirst : AuthStep st₁ st₂ entries₁)
    (hSecond : AuthStep st₂ st₃ entries₂) :
    AuthStep st₁ st₃ (entries₁ ++ entries₂) where
  allowAnonymous := by
    rw [hSecond.allowAnonymous, hFirst.allowAnonymous]
    simp [Bool.and_assoc]
  authorizedKeys := by
    rw [hSecond.authorizedKeys, hFirst.authorizedKeys]
    simp
  pubkeyDisabled := by
    rw [hSecond.pubkeyDisabled, hFirst.pubkeyDisabled]
    simp [Bool.or_assoc]
  password := hSecond.password.trans hFirst.password
  authorizedKeyLines :=
    hSecond.authorizedKeyLines.trans
      hFirst.authorizedKeyLines

/- A step that leaves the authentication fields alone. -/
theorem AuthStep.of_frame
    {st st' : ParseState}
    {keyword : Keyword}
    {value : Text}
    (hToggle : isAuthToggle keyword = false)
    (hFiles : keyword ≠ .authorizedKeysFile)
    (hAnonymous :
      st'.config.allowAnonymous = st.config.allowAnonymous)
    (hKeys :
      st'.config.authorizedKeys = st.config.authorizedKeys)
    (hDisabled : st'.pubkeyDisabled = st.pubkeyDisabled)
    (hPassword : st'.config.password = st.config.password)
    (hLines :
      st'.config.authorizedKeyLines =
        st.config.authorizedKeyLines) :
    AuthStep st st' [(keyword, value)] := by
  have hPubkey : keyword ≠ .pubkeyAuthentication := by
    rintro rfl
    cases hToggle
  constructor <;>
    simp [*, decidesAuth, disablesPubkey, keyFiles]

/- What one directive does to the authentication settings. -/
theorem applyDirective_auth
    {host : Host}
    {lineno : Nat}
    {st st' : ParseState}
    {keyword : Keyword}
    {value : Text}
    (hApply :
      applyDirective host lineno st keyword value =
        .ok st') :
    AuthStep st st' [(keyword, value)] := by
  cases keyword with
  | authorizedKeysFile =>
      simp only [applyDirective, Except.ok.injEq] at hApply
      subst hApply
      constructor <;>
        simp [decidesAuth, isAuthToggle, disablesPubkey,
          keyFiles]
  | passwordAuthentication =>
      simp only [applyDirective, Except.ok.injEq] at hApply
      subst hApply
      constructor <;>
        simp [decidesAuth, isAuthToggle, disablesPubkey,
          keyFiles]
      cases parseYesNo value <;> simp
  | pubkeyAuthentication =>
      simp only [applyDirective, Except.ok.injEq] at hApply
      subst hApply
      constructor <;>
        simp [decidesAuth, isAuthToggle, disablesPubkey,
          keyFiles]
      cases parseYesNo value <;> simp
  | port | listenAddress | loginGraceTime | maxStartups
  | devTunnelEnable | devTunnelAutoCreate
  | devTunnelTimeout =>
      simp only [applyDirective,
        Except.bind_ok_iff] at hApply
      rcases hApply with ⟨parsed, _, hOk⟩
      simp only [Except.ok.injEq] at hOk
      subst hOk
      exact AuthStep.of_frame rfl (by decide)
        rfl rfl rfl rfl rfl
  | devTunnelBin | devTunnelId =>
      simp only [applyDirective] at hApply
      split at hApply
      · cases hApply
      · simp only [Except.ok.injEq] at hApply
        subst hApply
        exact AuthStep.of_frame rfl (by decide)
          rfl rfl rfl rfl rfl
  | hostKey | allowTcpForwarding | acceptEnv
  | devTunnelLabel | shell | forceCommand | banner
  | subsystem =>
      simp only [applyDirective, Except.ok.injEq] at hApply
      subst hApply
      exact AuthStep.of_frame rfl (by decide)
        rfl rfl rfl rfl rfl
  | other name =>
      simp only [applyDirective, Except.ok.injEq] at hApply
      subst hApply
      exact AuthStep.of_frame rfl (by simp)
        rfl rfl rfl rfl rfl

/- What the whole loop does to the authentication settings. -/
theorem foldlM_parseLine_auth
    {host : Host}
    {numbered : List (Text × Nat)}
    {st st' : ParseState}
    (hFold :
      numbered.foldlM (parseLine host) st = .ok st') :
    AuthStep st st'
      ((numbered.map Prod.fst).filterMap lineEntry) := by
  induction numbered generalizing st with
  | nil =>
      simp only [List.foldlM_nil, pure, Except.pure,
        Except.ok.injEq] at hFold
      subst hFold
      exact AuthStep.refl st
  | cons line numbered ih =>
      rw [List.foldlM_cons, Except.bind_ok_iff] at hFold
      rcases hFold with ⟨next, hLine, hRest⟩
      have hTail := ih hRest
      cases hSplit : splitLine line.1 with
      | none =>
          simp only [parseLine, hSplit,
            Except.ok.injEq] at hLine
          subst hLine
          simpa [lineEntry, hSplit] using hTail
      | some entry =>
          simp only [parseLine, hSplit] at hLine
          have hHead := applyDirective_auth hLine
          simpa [lineEntry, hSplit] using
            hHead.trans hTail

/-
  The authentication settings of a parsed text, in terms of
  its entries.
-/
theorem parse_auth
    {host : Host}
    {input : Text}
    {config : Config}
    (hParse : parse host input = .ok config) :
    config.allowAnonymous =
        !(directives input).any decidesAuth ∧
      config.password = none ∧
      config.authorizedKeyLines = [] ∧
      config.authorizedKeys =
        if (directives input).any disablesPubkey then
          []
        else
          (directives input).flatMap keyFiles := by
  simp only [parse, Except.bind_ok_iff] at hParse
  rcases hParse with ⟨st, hFold, _, _, hOk⟩
  simp only [Except.ok.injEq] at hOk
  subst hOk
  have hAuth :
      AuthStep ParseState.initial st (directives input) := by
    have hLoop := foldlM_parseLine_auth hFold
    rwa [List.zipIdx_map_fst] at hLoop
  rcases hAuth with
    ⟨hAnonymous, hKeys, hDisabled, hPassword, hLines⟩
  simp only [ParseState.initial, Config.default,
    Bool.true_and, Bool.false_or, List.nil_append]
    at hAnonymous hKeys hDisabled hPassword hLines
  refine ⟨?_, ?_, ?_, ?_⟩
  · rw [← hAnonymous]
    simp only [clearDisabled]
    split <;> split <;> rfl
  · simp only [clearDisabled]
    split <;> split <;> simp [hPassword]
  · simp only [clearDisabled]
    split <;> split <;> simp [hLines]
  · rw [← hDisabled, ← hKeys]
    simp only [clearDisabled]
    split <;> split <;> simp_all

/- Resolving key files against the home keeps their number. -/
theorem homeRelative_length
    {home : Option PathBuf}
    {paths resolved : List PathBuf}
    (hResolve : homeRelative home paths = .ok resolved) :
    resolved.length = paths.length := by
  induction paths generalizing resolved with
  | nil =>
      simp only [homeRelative, Except.ok.injEq] at hResolve
      subst hResolve
      rfl
  | cons path paths ih =>
      simp only [homeRelative] at hResolve
      split at hResolve
      · cases home with
        | none => cases hResolve
        | some home =>
            rcases Except.bind_ok_iff.mp hResolve with
              ⟨rest, hRest, hOk⟩
            simp only [Except.ok.injEq] at hOk
            subst hOk
            simp [ih hRest]
      · rcases Except.bind_ok_iff.mp hResolve with
          ⟨rest, hRest, hOk⟩
        simp only [Except.ok.injEq] at hOk
        subst hOk
        simp [ih hRest]

/-
  The authentication settings of a configuration file,
  where the key files matter only by their number.
-/
theorem parseForUser_auth
    {host : Host}
    {input : Text}
    {home : Option PathBuf}
    {config : Config}
    (hParse : parseForUser host input home = .ok config) :
    config.allowAnonymous =
        !(directives input).any decidesAuth ∧
      config.password = none ∧
      config.authorizedKeyLines = [] ∧
      (config.authorizedKeys = [] ↔
        (directives input).any disablesPubkey = true ∨
          (directives input).flatMap keyFiles = []) := by
  simp only [parseForUser, Except.bind_ok_iff] at hParse
  rcases hParse with ⟨parsed, hParsed, keys, hKeys, hOk⟩
  simp only [Except.ok.injEq] at hOk
  subst hOk
  rcases parse_auth hParsed with
    ⟨hAnonymous, hPassword, hLines, hFiles⟩
  refine ⟨hAnonymous, hPassword, hLines, ?_⟩
  have hLength := homeRelative_length hKeys
  rw [← List.length_eq_zero_iff, hLength,
    List.length_eq_zero_iff, hFiles]
  split <;> simp_all

end SshdConfig

/- A loaded file is the parse of its content. -/
theorem Config.loadFile_ok
    {host : Host}
    {path : PathBuf}
    {config : Config}
    (hLoad : Config.loadFile host path = .ok config) :
    ∃ content,
      host.readToString path = some content ∧
        SshdConfig.parseForUser host content host.homeDir =
          .ok config := by
  simp only [Config.loadFile] at hLoad
  split at hLoad
  · cases hLoad
  · cases hRead : host.readToString path with
    | none => simp [hRead] at hLoad
    | some content =>
        simp only [hRead] at hLoad
        refine ⟨content, rfl, ?_⟩
        cases hParse :
            SshdConfig.parseForUser host content
              host.homeDir with
        | ok parsed => simpa [hParse] using hLoad
        | error error =>
            cases error <;> simp [hParse] at hLoad

end Sshdt
