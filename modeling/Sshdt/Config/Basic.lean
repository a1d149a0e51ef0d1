import Sshdt.Lib.Path
import Sshdt.Lib.Net

/-
  The declarative server configuration (`src/config.rs`), the
  errors of the library (`src/error.rs`) and the part of the
  host environment that configuration code reads.

  Error messages are kept as data: a message that the source
  formats from a line number, a directive and a value is the
  constructor with these three fields.

  Key definitions include:
    * `Error`
    * `Host`
    * `DevTunnelConfig`
    * `validTunnelId`
    * `parseTunnelTimeout`
    * `Config`
    * `Config.validateDevTunnel`
    * `Config.hasExplicitAuth`
-/

------------------------------------------------------------
-- Errors And Host Environment
------------------------------------------------------------

/- A successful bind ran both of its parts. -/
theorem Except.bind_ok_iff
    {ε α β : Type}
    {x : Except ε α}
    {f : α → Except ε β}
    {b : β} :
    (x >>= f) = .ok b ↔ ∃ a, x = .ok a ∧ f a = .ok b := by
  cases x with
  | error e => simp [bind, Except.bind]
  | ok a => simp [bind, Except.bind]

namespace Sshdt

/-
  The text of a configuration-file error. `invalidValue` is
  `line {line}: invalid {directive} value {value:?}`.
-/
inductive ConfigMessage where
  | invalidValue (line : Nat) (directive value : Text)
  | relativeKeysWithoutHome (path : PathBuf)
  | tomlNotSupported
  | unreadable
  deriving DecidableEq, Repr

/- `sshdt::Error`, as far as configuration produces it. -/
inductive Error where
  | hostKeyLoad (path : PathBuf)
  | hostKeyGenerate (message : Text)
  | noHostKey
  | authorizedKeys (path : PathBuf)
  | publicKey (line : Text)
  | config (message : Text)
  | configFile (path : PathBuf) (message : ConfigMessage)
  deriving DecidableEq, Repr

/-
  What the process reads from its host: files, the home
  directory and environment variables. `none` is a failed
  read, a missing directory or an unset variable.
-/
structure Host where
  readToString : PathBuf → Option Text
  pathExists : PathBuf → Bool
  isDir : PathBuf → Bool
  homeDir : Option PathBuf
  envVar : Text → Option Text

end Sshdt

------------------------------------------------------------
-- Dev Tunnel Settings
------------------------------------------------------------

namespace Sshdt

/- `DevTunnelConfig`. -/
structure DevTunnelConfig where
  enabled : Bool
  id : Option Text
  labels : List Text
  bin : Option PathBuf
  autoCreate : Bool
  timeoutSecs : UInt64
  deriving DecidableEq, Repr

/- `DevTunnelConfig::default`. -/
def DevTunnelConfig.default : DevTunnelConfig where
  enabled := false
  id := none
  labels := []
  bin := none
  autoCreate := false
  timeoutSecs := 30

/- `u8::is_ascii_lowercase`. -/
def isAsciiLowercase
    (b : UInt8) : Bool :=
  97 ≤ b && b ≤ 122

/- `u8::is_ascii_digit`. -/
def isAsciiDigit
    (b : UInt8) : Bool :=
  48 ≤ b && b ≤ 57

/- `u8::is_ascii_alphanumeric`. -/
def isAsciiAlphanumeric
    (b : UInt8) : Bool :=
  isAsciiLowercase b || (65 ≤ b && b ≤ 90) ||
    isAsciiDigit b

/- The local function `label` of `valid_tunnel_id`. -/
def validTunnelLabel
    (value : Text)
    (min max : Nat) : Bool :=
  let bytes := value.asBytes
  (min ≤ bytes.length && bytes.length ≤ max) &&
    bytes.head?.any isAsciiAlphanumeric &&
    bytes.getLast?.any isAsciiAlphanumeric &&
    bytes.all fun b =>
      isAsciiLowercase b || isAsciiDigit b || b == 45

/- `valid_tunnel_id`. -/
def validTunnelId
    (value : Text) : Bool :=
  let parts := value.splitOn '.'
  validTunnelLabel (parts.head?.getD []) 3 49 &&
    (parts[1]?).all (validTunnelLabel · 1 32) &&
    (parts[2]?).isNone

/- `u64::checked_mul`. -/
def checkedMul
    (a b : UInt64) : Option UInt64 :=
  if a.toNat * b.toNat < 2 ^ 64 then
    some (a * b)
  else
    none

/-
  `parse_tunnel_timeout`. The suffix is recognised by the
  last byte, which is then a character of its own.
-/
def parseTunnelTimeout
    (value : Text) : Option UInt64 :=
  let (digits, multiplier) : Text × UInt64 :=
    match value.asBytes.getLast? with
    | some 115 | some 83 => (value.dropLast, 1)
    | some 109 | some 77 => (value.dropLast, 60)
    | some 104 | some 72 => (value.dropLast, 3600)
    | _ => (value, 1)
  ((Text.parseU64 digits).bind
    (checkedMul · multiplier)).filter (0 < ·)

end Sshdt

------------------------------------------------------------
-- Server Configuration
------------------------------------------------------------

namespace Sshdt

/- `Config`. -/
structure Config where
  devTunnel : DevTunnelConfig
  bind : IpAddr
  port : UInt16
  hostKeys : List PathBuf
  hostKeyPassphrase : Option Text
  password : Option Text
  authorizedKeys : List PathBuf
  authorizedKeyLines : List Text
  allowAnonymous : Bool
  shell : Option Text
  sftpRoot : Option PathBuf
  allowTcpForwarding : Bool
  loginGraceSecs : UInt64
  maxStartups : UInt32
  acceptEnv : List Text
  banner : Option Text
  requireCurrentUser : Bool
  allowUsers : List Text
  deriving DecidableEq, Repr

/- `default_accept_env`. -/
def defaultAcceptEnv : List Text :=
  ["TERM".toList, "LANG".toList, "LC_*".toList]

namespace Config

/- `Config::default`. -/
def default : Config where
  devTunnel := DevTunnelConfig.default
  bind := IpAddr.localhost
  port := 2222
  hostKeys := []
  hostKeyPassphrase := none
  password := none
  authorizedKeys := []
  authorizedKeyLines := []
  allowAnonymous := true
  shell := none
  sftpRoot := none
  allowTcpForwarding := true
  loginGraceSecs := 60
  maxStartups := 32
  acceptEnv := defaultAcceptEnv
  banner := none
  requireCurrentUser := false
  allowUsers := []

/- The label check of `validate_dev_tunnel`. -/
def validLabel
    (label : Text) : Bool :=
  let bytes := label.asBytes
  (1 ≤ bytes.length && bytes.length ≤ 50) &&
    bytes.all fun b =>
      isAsciiAlphanumeric b || b == 95 || b == 45 || b == 61

/- `Config::validate_dev_tunnel`. -/
def validateDevTunnel
    (config : Config) : Except Error Unit :=
  let tunnel := config.devTunnel
  if tunnel.timeoutSecs = 0 then
    .error (.config
      "DevTunnelTimeout must be greater than zero".toList)
  else if tunnel.id.any (fun id => !validTunnelId id) then
    .error (.config "invalid DevTunnelId".toList)
  else if tunnel.labels.any (fun l => !validLabel l) then
    .error (.config
      ("DevTunnelLabel must contain 1 to 50 ASCII " ++
        "letters, digits, underscores, hyphens or " ++
        "equals signs").toList)
  else if 100 < tunnel.labels.eraseDups.length then
    .error (.config
      ("DevTunnelLabel supports at most 100 unique " ++
        "labels").toList)
  else
    .ok ()

/- `Config::has_explicit_auth`. -/
def hasExplicitAuth
    (config : Config) : Bool :=
  config.password.isSome || !config.authorizedKeys.isEmpty ||
    !config.authorizedKeyLines.isEmpty

/- The default configuration passes its own validation. -/
theorem validateDevTunnel_default :
    default.validateDevTunnel = .ok () := by
  decide

end Config

end Sshdt
