import Sshdt.Lib.Machine
import Sshdt.Server.Auth
import Sshdt.Server.Session

/-
  Building a server from its configuration
  (`ServerBuilder::build` in `src/server.rs`), with the
  loading of host keys (`src/hostkey.rs`).

  Private keys belong to the SSH library. Generating one
  writes it to the host, so that step returns the host it
  leaves behind.

  Key definitions include:
    * `HostKeyLibrary`
    * `loadOrGenerate`
    * `ServerInner`
    * `Server`
    * `ServerBuilder.build`

  Key theorems include:
    * `ServerBuilder.build_ok`
    * `resolveAllowedUsers_ok`
-/

------------------------------------------------------------
-- Host Keys
------------------------------------------------------------

namespace Sshdt

/- The parts of the key library that host keys use. -/
structure HostKeyLibrary
    (PrivateKey : Type) where
  loadSecretKey :
    Host → PathBuf → Option Text → Option PrivateKey
  generateAndPersist :
    Host → PathBuf → Except Error (PrivateKey × Host)

variable {PrivateKey : Type}

/- `default_host_key_path`. -/
def defaultHostKeyPath
    (host : Host) : Except Error PathBuf :=
  match host.homeDir with
  | some home =>
      .ok (Path.push (Path.push home ".sshdt".toList)
        "host_ed25519".toList)
  | none =>
      .error (.hostKeyGenerate
        "could not determine the home directory".toList)

/- `load_or_generate_one`. -/
def loadOrGenerateOne
    (lib : HostKeyLibrary PrivateKey)
    (passphrase : Option Text)
    (host : Host)
    (path : PathBuf) : Except Error (PrivateKey × Host) :=
  if host.pathExists path then
    match lib.loadSecretKey host path passphrase with
    | some key => .ok (key, host)
    | none => .error (.hostKeyLoad path)
  else
    lib.generateAndPersist host path

/- The loop of `load_or_generate` over its paths. -/
def loadOrGenerateAll
    (lib : HostKeyLibrary PrivateKey)
    (passphrase : Option Text)
    (host : Host) :
    List PathBuf → Except Error (List PrivateKey × Host)
  | [] => .ok ([], host)
  | path :: paths => do
      let (key, host) ←
        loadOrGenerateOne lib passphrase host path
      let (keys, host) ←
        loadOrGenerateAll lib passphrase host paths
      .ok (key :: keys, host)

/- `load_or_generate`. -/
def loadOrGenerate
    (lib : HostKeyLibrary PrivateKey)
    (host : Host)
    (paths : List PathBuf)
    (passphrase : Option Text) :
    Except Error (List PrivateKey × Host) :=
  if paths.isEmpty then do
    let path ← defaultHostKeyPath host
    let (key, host) ←
      loadOrGenerateOne lib passphrase host path
    .ok ([key], host)
  else
    loadOrGenerateAll lib passphrase host paths

end Sshdt

------------------------------------------------------------
-- Servers And Their Builder
------------------------------------------------------------

namespace Sshdt

variable {PublicKey KeyData PrivateKey : Type}

/- `ForwardRequest`. -/
structure ForwardRequest where
  host : Text
  port : UInt16
  originatorHost : Text
  originatorPort : UInt16
  deriving DecidableEq, Repr

/- `ForwardDecision`. -/
inductive ForwardDecision where
  | allow
  | deny
  deriving DecidableEq, Repr

/- `Forwarder`. -/
abbrev Forwarder : Type :=
  ForwardRequest → ForwardDecision

/-
  `ServerInner`. The session handler is only tested for its
  presence here.
-/
structure ServerInner
    (PublicKey : Type) where
  auth : AuthConfig PublicKey
  authenticator : Option (Authenticator PublicKey)
  commandResolver : CommandResolver
  forwarder : Option Forwarder
  allowTcpForwarding : Bool
  sftpRoot : Option PathBuf
  acceptEnv : List Text
  banner : Option Text
  allowedUsers : List Text

/-
  `Server`, with the fields of its `russh` configuration
  that the builder computes.
-/
structure Server
    (PublicKey PrivateKey : Type) where
  inner : ServerInner PublicKey
  methods : List MethodKind
  keys : List PrivateKey
  bind : SocketAddr
  maxStartups : UInt32
  loginGrace : Duration

/- `ServerBuilder`. -/
structure ServerBuilder
    (PublicKey : Type) where
  config : Config
  authenticator : Option (Authenticator PublicKey)
  commandResolver : Option CommandResolver
  forwarder : Option Forwarder

namespace ServerBuilder

/- `ServerBuilder::from_config`. -/
def fromConfig
    (config : Config) : ServerBuilder PublicKey where
  config := config
  authenticator := none
  commandResolver := none
  forwarder := none

/- The error of strict-user mode without a known user. -/
def unknownUser : Error :=
  .config ("strict-user mode is enabled but the current " ++
    "OS user could not be determined (USER/LOGNAME/" ++
    "USERNAME are unset); pass --allow-user instead").toList

/- The username allowlist that `build` resolves. -/
def resolveAllowedUsers
    (host : Host)
    (config : Config) : Except Error (List Text) :=
  if config.requireCurrentUser then
    match currentOsUser host with
    | some user => .ok (config.allowUsers ++ [user])
    | none =>
        if config.allowUsers.isEmpty then
          .error unknownUser
        else
          .ok config.allowUsers
  else
    .ok config.allowUsers

/- The login grace period; zero seconds stands for none. -/
def loginGrace
    (config : Config) : Duration :=
  if config.loginGraceSecs = 0 then
    Duration.fromSecs ((2 ^ 64 - 1) / 2)
  else
    Duration.fromSecs config.loginGraceSecs.toNat

/- `ServerBuilder::build`. -/
def build
    (lib : KeyLibrary PublicKey KeyData)
    (hostKeyLib : HostKeyLibrary PrivateKey)
    (host : Host)
    (builder : ServerBuilder PublicKey) :
    Except Error (Server PublicKey PrivateKey) := do
  let config := builder.config
  let passphrase := config.hostKeyPassphrase.or
    (host.envVar "SSHDT_HOST_KEY_PASSPHRASE".toList)
  let (keys, host) ←
    loadOrGenerate hostKeyLib host config.hostKeys passphrase
  if keys.isEmpty then
    .error .noHostKey
  else
    let auth ← AuthConfig.fromConfig lib host config
    let allowedUsers ← resolveAllowedUsers host config
    .ok {
      inner := {
        auth
        authenticator := builder.authenticator
        commandResolver := builder.commandResolver.getD
          (DefaultResolver.resolve host
            (DefaultResolver.new host config.shell))
        forwarder := builder.forwarder
        allowTcpForwarding := config.allowTcpForwarding
        sftpRoot := config.sftpRoot
        acceptEnv := config.acceptEnv
        banner := config.banner
        allowedUsers }
      methods := auth.methodSet builder.authenticator.isSome
      keys
      bind := SocketAddr.new config.bind config.port
      maxStartups := config.maxStartups
      loginGrace := loginGrace config }

end ServerBuilder

end Sshdt

------------------------------------------------------------
-- What A Built Server Holds
------------------------------------------------------------

namespace Sshdt

variable {PublicKey KeyData PrivateKey : Type}

namespace ServerBuilder

/-
  A resolved allowlist extends the configured one by at most
  the current user, and strict-user mode never leaves it
  empty.
-/
theorem resolveAllowedUsers_ok
    {host : Host}
    {config : Config}
    {allowed : List Text}
    (hResolve : resolveAllowedUsers host config = .ok allowed) :
    allowed =
        config.allowUsers ++
          (if config.requireCurrentUser then
            (currentOsUser host).toList
          else
            []) ∧
      (config.requireCurrentUser = true → allowed ≠ []) := by
  simp only [resolveAllowedUsers] at hResolve
  split at hResolve
  · next hStrict =>
      cases hUser : currentOsUser host with
      | some user =>
          simp only [hUser, Except.ok.injEq] at hResolve
          subst hResolve
          simp [hStrict]
      | none =>
          simp only [hUser] at hResolve
          split at hResolve
          · cases hResolve
          · next hUsers =>
              simp only [Except.ok.injEq] at hResolve
              subst hResolve
              simpa [hStrict] using hUsers
  · next hStrict =>
      simp only [Except.ok.injEq] at hResolve
      subst hResolve
      simp [hStrict]

/-
  The parts of a built server that decide authentication.
  The host they are read from is the one that loading the
  host keys left behind.
-/
theorem build_ok
    {lib : KeyLibrary PublicKey KeyData}
    {hostKeyLib : HostKeyLibrary PrivateKey}
    {host : Host}
    {builder : ServerBuilder PublicKey}
    {server : Server PublicKey PrivateKey}
    (hBuild : build lib hostKeyLib host builder = .ok server) :
    ∃ keys host',
      loadOrGenerate hostKeyLib host builder.config.hostKeys
          (builder.config.hostKeyPassphrase.or
            (host.envVar
              "SSHDT_HOST_KEY_PASSPHRASE".toList)) =
          .ok (keys, host') ∧
        AuthConfig.fromConfig lib host' builder.config =
          .ok server.inner.auth ∧
        resolveAllowedUsers host' builder.config =
          .ok server.inner.allowedUsers ∧
        server.inner.authenticator = builder.authenticator := by
  simp only [build, Except.bind_ok_iff] at hBuild
  rcases hBuild with ⟨⟨keys, host'⟩, hKeys, hRest⟩
  simp only at hRest
  split at hRest
  · cases hRest
  · simp only [Except.bind_ok_iff] at hRest
    rcases hRest with ⟨auth, hAuth, allowed, hAllowed, hOk⟩
    simp only [Except.ok.injEq] at hOk
    subst hOk
    exact ⟨keys, host', hKeys, hAuth, hAllowed, rfl⟩

end ServerBuilder

end Sshdt
