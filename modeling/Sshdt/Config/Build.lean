import Sshdt.Config.SshdConfig

/-
  The effective configuration of the command line
  (`build_config` in `src/main.rs`): defaults, then the
  configuration file, then the flags.

  Key definitions include:
    * `Args`
    * `selectConfigPath`
    * `buildConfig`
    * `loadedText`

  Key theorems include:
    * `buildConfig_auth`
-/

------------------------------------------------------------
-- Command-Line Arguments
------------------------------------------------------------

namespace Sshdt

/-
  The server options of `Args`. The switches that choose
  another mode of the program (`version`, `check`,
  `service_run`, the subcommand) and the logging options are
  not read by `build_config`.
-/
structure Args where
  port : Option UInt16
  hostKey : List PathBuf
  config : Option PathBuf
  noConfig : Bool
  bind : Option IpAddr
  hostKeyPassphrase : Option Text
  password : Option Text
  authorizedKeys : List PathBuf
  pubkey : List Text
  shell : Option Text
  sftpRoot : Option PathBuf
  strictUser : Bool
  allowUser : List Text
  noForward : Bool
  loginGrace : Option UInt64
  maxStartups : Option UInt32
  devtunnelEnable : Bool
  devtunnelDisable : Bool
  devtunnelId : Option Text
  devtunnelLabel : List Text
  devtunnelBin : Option PathBuf
  devtunnelAutoCreate : Bool
  devtunnelTimeout : Option Text
  deriving DecidableEq, Repr

/- The arguments of a command line without options. -/
def Args.none : Args where
  port := Option.none
  hostKey := []
  config := Option.none
  noConfig := false
  bind := Option.none
  hostKeyPassphrase := Option.none
  password := Option.none
  authorizedKeys := []
  pubkey := []
  shell := Option.none
  sftpRoot := Option.none
  strictUser := false
  allowUser := []
  noForward := false
  loginGrace := Option.none
  maxStartups := Option.none
  devtunnelEnable := false
  devtunnelDisable := false
  devtunnelId := Option.none
  devtunnelLabel := []
  devtunnelBin := Option.none
  devtunnelAutoCreate := false
  devtunnelTimeout := Option.none

/- `select_config_path`. -/
def selectConfigPath
    (host : Host)
    (explicit : Option PathBuf)
    (noConfig : Bool) : Option PathBuf :=
  match explicit with
  | some path => some path
  | none =>
      if noConfig then
        none
      else
        match host.homeDir with
        | none => none
        | some home =>
            let path := Path.push
              (Path.push home ".ssh".toList)
              "sshdt_config".toList
            if host.pathExists path then some path else none

end Sshdt

------------------------------------------------------------
-- Layering The Flags
------------------------------------------------------------

namespace Sshdt

/-
  The flag layer of `build_config` on the Dev Tunnels
  settings, before the timeout is read.
-/
def layerDevTunnel
    (args : Args)
    (tunnel : DevTunnelConfig) : DevTunnelConfig where
  enabled :=
    if args.devtunnelDisable then
      false
    else
      args.devtunnelEnable || tunnel.enabled
  id := args.devtunnelId.or tunnel.id
  labels :=
    if args.devtunnelLabel.isEmpty then
      tunnel.labels
    else
      args.devtunnelLabel
  bin := args.devtunnelBin.or tunnel.bin
  autoCreate := args.devtunnelAutoCreate || tunnel.autoCreate
  timeoutSecs := tunnel.timeoutSecs

/- The flag layer of `build_config`. -/
def layerFlags
    (args : Args)
    (config : Config) : Config :=
  { config with
    port := args.port.getD config.port
    bind := args.bind.getD config.bind
    hostKeys :=
      if args.hostKey.isEmpty then
        config.hostKeys
      else
        args.hostKey
    hostKeyPassphrase :=
      args.hostKeyPassphrase.or config.hostKeyPassphrase
    password := args.password.or config.password
    -- Key files and inline keys add to those of the file.
    authorizedKeys :=
      config.authorizedKeys ++ args.authorizedKeys
    authorizedKeyLines :=
      config.authorizedKeyLines ++ args.pubkey
    shell := args.shell.or config.shell
    sftpRoot := args.sftpRoot.or config.sftpRoot
    requireCurrentUser :=
      args.strictUser || config.requireCurrentUser
    allowUsers := config.allowUsers ++ args.allowUser
    allowTcpForwarding :=
      !args.noForward && config.allowTcpForwarding
    loginGraceSecs :=
      args.loginGrace.getD config.loginGraceSecs
    maxStartups := args.maxStartups.getD config.maxStartups
    devTunnel := layerDevTunnel args config.devTunnel }

/- The timeout flag, which may be malformed. -/
def layerTimeout
    (args : Args)
    (config : Config) : Except Error Config :=
  match args.devtunnelTimeout with
  | none => .ok config
  | some timeout =>
      match parseTunnelTimeout timeout with
      | none =>
          .error (.config
            ("timeout must be a positive duration such " ++
              "as 30s or 2m").toList)
      | some timeoutSecs =>
          .ok { config with
            devTunnel :=
              { config.devTunnel with timeoutSecs } }

/- The configuration file of the command line, or defaults. -/
def baseConfig
    (host : Host)
    (args : Args) : Except Error Config :=
  match selectConfigPath host args.config args.noConfig with
  | some path => Config.loadFile host path
  | none => .ok Config.default

/- `build_config`. -/
def buildConfig
    (host : Host)
    (args : Args) : Except Error Config :=
  if args.config.isSome && args.noConfig then
    .error (.config
      ("--config and --no-config cannot be used " ++
        "together").toList)
  else if args.devtunnelEnable && args.devtunnelDisable then
    .error (.config
      ("--devtunnel-enable and --devtunnel-disable " ++
        "cannot be used together").toList)
  else do
    let config ← baseConfig host args
    let config ← layerTimeout args (layerFlags args config)
    config.validateDevTunnel
    .ok config

/-
  The text of the configuration file that `build_config`
  reads, empty when it reads none.
-/
def loadedText
    (host : Host)
    (args : Args) : Text :=
  match selectConfigPath host args.config args.noConfig with
  | some path => (host.readToString path).getD []
  | none => []

end Sshdt

------------------------------------------------------------
-- Authentication Settings Of The Effective Configuration
------------------------------------------------------------

namespace Sshdt

open SshdConfig

/- The timeout flag touches the Dev Tunnels settings only. -/
theorem layerTimeout_frame
    {args : Args}
    {config config' : Config}
    (hLayer : layerTimeout args config = .ok config') :
    config'.allowAnonymous = config.allowAnonymous ∧
      config'.hasExplicitAuth = config.hasExplicitAuth := by
  simp only [layerTimeout] at hLayer
  split at hLayer
  · simp only [Except.ok.injEq] at hLayer
    subst hLayer
    exact ⟨rfl, rfl⟩
  · split at hLayer
    · cases hLayer
    · simp only [Except.ok.injEq] at hLayer
      subst hLayer
      exact ⟨rfl, rfl⟩

/- The authentication settings of the file layer. -/
theorem baseConfig_auth
    {host : Host}
    {args : Args}
    {base : Config}
    (hBase : baseConfig host args = .ok base) :
    base.allowAnonymous =
        !(directives (loadedText host args)).any
          decidesAuth ∧
      base.password = none ∧
      base.authorizedKeyLines = [] ∧
      (base.authorizedKeys = [] ↔
        (directives (loadedText host args)).any
            disablesPubkey = true ∨
          (directives (loadedText host args)).flatMap
            keyFiles = []) := by
  cases hPath :
      selectConfigPath host args.config args.noConfig with
  | none =>
      simp only [baseConfig, hPath,
        Except.ok.injEq] at hBase
      subst hBase
      simp [loadedText, hPath, directives, Text.lines,
        Text.splitInclusive, Config.default]
  | some path =>
      simp only [baseConfig, hPath] at hBase
      rcases Config.loadFile_ok hBase with
        ⟨content, hRead, hParse⟩
      simpa [loadedText, hPath, hRead] using
        parseForUser_auth hParse

/-
  The authentication settings of the effective
  configuration: anonymous access stays allowed unless an
  entry decides it, and credentials come from the flags or
  from key files that no entry clears.
-/
theorem buildConfig_auth
    {host : Host}
    {args : Args}
    {config : Config}
    (hBuild : buildConfig host args = .ok config) :
    config.allowAnonymous =
        !(directives (loadedText host args)).any
          decidesAuth ∧
      (config.hasExplicitAuth = false ↔
        args.password = none ∧
          args.authorizedKeys = [] ∧ args.pubkey = [] ∧
          ((directives (loadedText host args)).any
              disablesPubkey = true ∨
            (directives (loadedText host args)).flatMap
              keyFiles = [])) := by
  simp only [buildConfig] at hBuild
  split at hBuild
  · cases hBuild
  split at hBuild
  · cases hBuild
  rcases Except.bind_ok_iff.mp hBuild with
    ⟨base, hBase, hRest⟩
  rcases Except.bind_ok_iff.mp hRest with
    ⟨layered, hLayered, hValid⟩
  rcases Except.bind_ok_iff.mp hValid with ⟨_, _, hOk⟩
  simp only [Except.ok.injEq] at hOk
  subst hOk
  have hFile := baseConfig_auth hBase
  rcases hFile with ⟨hAnonymous, hPassword, hLines, hKeys⟩
  rcases layerTimeout_frame hLayered with
    ⟨hSameAnonymous, hSameExplicit⟩
  refine ⟨?_, ?_⟩
  · rw [hSameAnonymous]
    exact hAnonymous
  · rw [hSameExplicit, ← hKeys]
    simp only [Config.hasExplicitAuth, layerFlags,
      hPassword, hLines, Option.or_none, List.nil_append]
    cases args.password <;>
      simp [List.isEmpty_iff, and_comm, and_left_comm,
        and_assoc]

end Sshdt
