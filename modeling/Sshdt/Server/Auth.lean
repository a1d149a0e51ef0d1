import Sshdt.Config.Build

/-
  Declarative authentication (`src/auth.rs`).

  Public keys belong to the SSH library: their type, the
  parser of an OpenSSH line and the key data that two keys
  are compared by are parameters.

  Key definitions include:
    * `KeyLibrary`
    * `AuthConfig.fromConfig`
    * `AuthConfig.methodSet`
    * `AuthConfig.checkPassword`
    * `AuthConfig.checkPublickey`
    * `loadedKeys`

  Key theorems include:
    * `constantTimeEq_iff`
    * `AuthConfig.fromConfig_ok`
    * `AuthConfig.fromConfig_of_noKeys`
-/

------------------------------------------------------------
-- Methods, Requests And Results
------------------------------------------------------------

namespace Sshdt

/- The parts of the key library that authentication uses. -/
structure KeyLibrary
    (PublicKey KeyData : Type) where
  fromOpenssh : Text → Option PublicKey
  keyData : PublicKey → KeyData

/- `russh::MethodKind`. -/
inductive MethodKind where
  | none
  | password
  | publicKey
  | hostBased
  | keyboardInteractive
  deriving DecidableEq, Repr

/- `AuthMethod`. -/
inductive AuthMethod
    (PublicKey : Type) where
  | none
  | password (password : Text)
  | publicKey (key : PublicKey)
  deriving DecidableEq, Repr

/- The method kind that an attempt belongs to. -/
def AuthMethod.kind
    {PublicKey : Type} : AuthMethod PublicKey → MethodKind
  | .none => .none
  | .password _ => .password
  | .publicKey _ => .publicKey

/- `AuthRequest`. -/
structure AuthRequest
    (PublicKey : Type) where
  user : Text
  method : AuthMethod PublicKey
  deriving DecidableEq, Repr

/- `AuthResult`. -/
inductive AuthResult where
  | accept
  | reject
  | partialSuccess
  deriving DecidableEq, Repr

/-
  `Authenticator`: the custom hook, as the decision it
  makes on each request.
-/
abbrev Authenticator
    (PublicKey : Type) : Type :=
  AuthRequest PublicKey → AuthResult

end Sshdt

------------------------------------------------------------
-- Comparing Passwords
------------------------------------------------------------

namespace Sshdt

/- `constant_time_eq`. -/
def constantTimeEq
    (a b : List UInt8) : Bool :=
  if a.length ≠ b.length then
    false
  else
    (a.zip b).foldl
      (fun diff pair => diff ||| (pair.1 ^^^ pair.2)) 0 == 0

/- A byte disjunction vanishes when both of its parts do. -/
theorem uint8_or_eq_zero_iff
    (a b : UInt8) :
    a ||| b = 0 ↔ a = 0 ∧ b = 0 := by
  simp only [← UInt8.toBitVec_inj, UInt8.toBitVec_or]
  exact BitVec.or_eq_zero_iff

/- A byte difference vanishes on equal bytes. -/
theorem uint8_xor_eq_zero_iff
    (a b : UInt8) :
    a ^^^ b = 0 ↔ a = b := by
  simp only [← UInt8.toBitVec_inj, UInt8.toBitVec_xor]
  exact BitVec.xor_eq_zero_iff

/-
  The accumulated difference of two byte lists of the same
  length vanishes when nothing was accumulated before and
  the lists agree.
-/
theorem foldl_diff_eq_zero_iff
    {a b : List UInt8}
    (hLength : a.length = b.length)
    (diff : UInt8) :
    (a.zip b).foldl
        (fun diff pair => diff ||| (pair.1 ^^^ pair.2))
        diff = 0 ↔
      diff = 0 ∧ a = b := by
  induction a generalizing b diff with
  | nil =>
      cases b with
      | nil => simp
      | cons y ys => simp at hLength
  | cons x xs ih =>
      cases b with
      | nil => simp at hLength
      | cons y ys =>
          simp only [List.length_cons,
            Nat.add_right_cancel_iff] at hLength
          simp only [List.zip_cons_cons, List.foldl_cons,
            ih hLength, uint8_or_eq_zero_iff,
            uint8_xor_eq_zero_iff, List.cons.injEq,
            and_assoc]

/- The constant-time comparison decides equality of bytes. -/
theorem constantTimeEq_iff
    (a b : List UInt8) :
    constantTimeEq a b = true ↔ a = b := by
  simp only [constantTimeEq]
  split
  case isTrue hLength =>
    simp only [Bool.false_eq_true, false_iff]
    rintro rfl
    exact hLength rfl
  case isFalse hLength =>
    rw [beq_iff_eq,
      foldl_diff_eq_zero_iff (not_not.mp hLength)]
    simp

end Sshdt

------------------------------------------------------------
-- Resolved Authentication
------------------------------------------------------------

namespace Sshdt

variable {PublicKey KeyData : Type}

/- `AuthConfig`. -/
structure AuthConfig
    (PublicKey : Type) where
  anonymous : Bool
  password : Option Text
  authorizedKeys : List PublicKey
  deriving DecidableEq, Repr

/- The key of one line of a key file, if it holds one. -/
def keyOfLine
    (lib : KeyLibrary PublicKey KeyData)
    (raw : Text) : Option PublicKey :=
  let line := raw.trim
  if line.isEmpty || line.head? == some '#' then
    none
  else
    lib.fromOpenssh line

/-
  `load_authorized_keys_file`: lines that hold no valid key
  are skipped, a file that cannot be read is an error.
-/
def loadAuthorizedKeysFile
    (lib : KeyLibrary PublicKey KeyData)
    (host : Host)
    (path : PathBuf)
    (out : List PublicKey) :
    Except Error (List PublicKey) :=
  match host.readToString path with
  | none => .error (.authorizedKeys path)
  | some content =>
      .ok (out ++ content.lines.filterMap (keyOfLine lib))

/- `parse_public_key_line`. -/
def parsePublicKeyLine
    (lib : KeyLibrary PublicKey KeyData)
    (line : Text) : Except Error PublicKey :=
  match lib.fromOpenssh line.trim with
  | some key => .ok key
  | none => .error (.publicKey line)

namespace AuthConfig

/- `AuthConfig::from_config`. -/
def fromConfig
    (lib : KeyLibrary PublicKey KeyData)
    (host : Host)
    (cfg : Config) : Except Error (AuthConfig PublicKey) := do
  let fileKeys ← cfg.authorizedKeys.foldlM
    (fun out path => loadAuthorizedKeysFile lib host path out)
    []
  let authorizedKeys ← cfg.authorizedKeyLines.foldlM
    (fun out line => do
      let key ← parsePublicKeyLine lib line
      .ok (out ++ [key]))
    fileKeys
  .ok {
    anonymous := cfg.allowAnonymous && !cfg.hasExplicitAuth
    password := cfg.password
    authorizedKeys }

/- `AuthConfig::method_set`. -/
def methodSet
    (auth : AuthConfig PublicKey)
    (hasHook : Bool) : List MethodKind :=
  if hasHook then
    [.none, .publicKey, .password]
  else
    (if auth.anonymous then [.none] else []) ++
      (if auth.authorizedKeys.isEmpty then
        []
      else
        [.publicKey]) ++
      (if auth.password.isSome then [.password] else [])

/- `AuthConfig::check_password`. -/
def checkPassword
    (auth : AuthConfig PublicKey)
    (password : Text) : Bool :=
  match auth.password with
  | some expected =>
      constantTimeEq expected.asBytes password.asBytes
  | none => false

/- `AuthConfig::check_publickey`. -/
def checkPublickey
    [DecidableEq KeyData]
    (lib : KeyLibrary PublicKey KeyData)
    (auth : AuthConfig PublicKey)
    (key : PublicKey) : Bool :=
  auth.authorizedKeys.any fun k =>
    lib.keyData k == lib.keyData key

end AuthConfig

end Sshdt

------------------------------------------------------------
-- What The Checks Accept
------------------------------------------------------------

namespace Sshdt

variable {PublicKey KeyData : Type}

/- The keys that a configuration names and that can be read. -/
def loadedKeys
    (lib : KeyLibrary PublicKey KeyData)
    (host : Host)
    (cfg : Config) : List PublicKey :=
  (cfg.authorizedKeys.flatMap fun path =>
      ((host.readToString path).getD []).lines.filterMap
        (keyOfLine lib)) ++
    cfg.authorizedKeyLines.filterMap fun line =>
      lib.fromOpenssh line.trim

/- Reading the key files appends their keys in order. -/
theorem foldlM_loadAuthorizedKeysFile
    {lib : KeyLibrary PublicKey KeyData}
    {host : Host}
    {paths : List PathBuf}
    {out keys : List PublicKey}
    (hLoad :
      paths.foldlM
        (fun out path =>
          loadAuthorizedKeysFile lib host path out) out =
        .ok keys) :
    keys =
      out ++ paths.flatMap fun path =>
        ((host.readToString path).getD []).lines.filterMap
          (keyOfLine lib) := by
  induction paths generalizing out with
  | nil =>
      simp only [List.foldlM_nil, pure, Except.pure,
        Except.ok.injEq] at hLoad
      simp [hLoad]
  | cons path paths ih =>
      rw [List.foldlM_cons, Except.bind_ok_iff] at hLoad
      rcases hLoad with ⟨next, hFile, hRest⟩
      cases hRead : host.readToString path with
      | none => simp [loadAuthorizedKeysFile, hRead] at hFile
      | some content =>
          simp only [loadAuthorizedKeysFile, hRead,
            Except.ok.injEq] at hFile
          subst hFile
          simp [ih hRest, hRead]

/- Parsing the inline keys appends them in order. -/
theorem foldlM_parsePublicKeyLine
    {lib : KeyLibrary PublicKey KeyData}
    {lines : List Text}
    {out keys : List PublicKey}
    (hParse :
      lines.foldlM
        (fun out line => do
          let key ← parsePublicKeyLine lib line
          Except.ok (out ++ [key])) out = .ok keys) :
    keys =
      out ++ lines.filterMap fun line =>
        lib.fromOpenssh line.trim := by
  induction lines generalizing out with
  | nil =>
      simp only [List.foldlM_nil, pure, Except.pure,
        Except.ok.injEq] at hParse
      simp [hParse]
  | cons line lines ih =>
      rw [List.foldlM_cons, Except.bind_ok_iff] at hParse
      rcases hParse with ⟨next, hLine, hRest⟩
      rcases Except.bind_ok_iff.mp hLine with
        ⟨key, hKey, hOk⟩
      simp only [Except.ok.injEq] at hOk
      subst hOk
      simp only [parsePublicKeyLine] at hKey
      cases hOpen : lib.fromOpenssh line.trim with
      | none => simp [hOpen] at hKey
      | some found =>
          simp only [hOpen, Except.ok.injEq] at hKey
          subst hKey
          simp [ih hRest, hOpen]

namespace AuthConfig

/- What a resolved authentication holds. -/
theorem fromConfig_ok
    {lib : KeyLibrary PublicKey KeyData}
    {host : Host}
    {cfg : Config}
    {auth : AuthConfig PublicKey}
    (hAuth : fromConfig lib host cfg = .ok auth) :
    auth.anonymous =
        (cfg.allowAnonymous && !cfg.hasExplicitAuth) ∧
      auth.password = cfg.password ∧
      auth.authorizedKeys = loadedKeys lib host cfg := by
  simp only [fromConfig, Except.bind_ok_iff] at hAuth
  rcases hAuth with ⟨fileKeys, hFiles, keys, hLines, hOk⟩
  simp only [Except.ok.injEq] at hOk
  subst hOk
  refine ⟨rfl, rfl, ?_⟩
  simp only [loadedKeys]
  rw [foldlM_parsePublicKeyLine hLines,
    foldlM_loadAuthorizedKeysFile hFiles]
  simp

/- A configuration without keys always resolves. -/
theorem fromConfig_of_noKeys
    (lib : KeyLibrary PublicKey KeyData)
    (host : Host)
    {cfg : Config}
    (hFiles : cfg.authorizedKeys = [])
    (hLines : cfg.authorizedKeyLines = []) :
    fromConfig lib host cfg = .ok {
      anonymous := cfg.allowAnonymous && !cfg.hasExplicitAuth
      password := cfg.password
      authorizedKeys := [] } := by
  simp only [fromConfig, hFiles, hLines, List.foldlM_nil]
  rfl

/- A password attempt succeeds on the configured bytes. -/
theorem checkPassword_iff
    (auth : AuthConfig PublicKey)
    (password : Text) :
    auth.checkPassword password = true ↔
      ∃ expected,
        auth.password = some expected ∧
          expected.asBytes = password.asBytes := by
  simp only [checkPassword]
  cases auth.password with
  | none => simp
  | some expected => simp [constantTimeEq_iff]

/- A key attempt succeeds on the data of a loaded key. -/
theorem checkPublickey_iff
    [DecidableEq KeyData]
    (lib : KeyLibrary PublicKey KeyData)
    (auth : AuthConfig PublicKey)
    (key : PublicKey) :
    auth.checkPublickey lib key = true ↔
      ∃ k ∈ auth.authorizedKeys,
        lib.keyData k = lib.keyData key := by
  simp [checkPublickey]

end AuthConfig

end Sshdt
