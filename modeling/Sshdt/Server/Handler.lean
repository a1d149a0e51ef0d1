import Sshdt.Server.Builder

/-
  Authentication on one connection (`src/handler.rs`): the
  decision on each attempt and what a success does to the
  handler.

  The handler's channel table is modelled on its own, since
  authentication neither reads nor writes it.

  Key definitions include:
    * `ConnectionHandler`
    * `ConnectionHandler.decide`
    * `Attempt`
    * `ConnectionHandler.attempt`
    * `ConnectionHandler.runAttempts`
    * `ExactAuthentication`
    * `FailsClosed`

  Key theorems include:
    * `build_exactAuthentication`
    * `failsClosed_iff`
-/

------------------------------------------------------------
-- Connection Handler
------------------------------------------------------------

namespace Sshdt

/- `russh::server::Auth`. -/
inductive Auth where
  | accept
  | reject
      (proceedWithMethods : Option (List MethodKind))
      (partialSuccess : Bool)
  deriving DecidableEq, Repr

variable {PublicKey KeyData : Type}

/-
  `ConnectionHandler`, without its channels. The permit is
  recorded by whether the handler holds one.
-/
structure ConnectionHandler
    (PublicKey : Type) where
  inner : ServerInner PublicKey
  authed : Bool
  startupPermit : Bool

namespace ConnectionHandler

/- `ConnectionHandler::new`, before any authentication. -/
def new
    (inner : ServerInner PublicKey)
    (startupPermit : Bool) : ConnectionHandler PublicKey where
  inner := inner
  authed := false
  startupPermit := startupPermit

/- `mark_authenticated`. -/
def markAuthenticated
    (handler : ConnectionHandler PublicKey) :
    ConnectionHandler PublicKey :=
  { handler with authed := true, startupPermit := false }

/- `reject`: the configured methods stay available. -/
def reject
    (handler : ConnectionHandler PublicKey) : Auth :=
  .reject
    (some (handler.inner.auth.methodSet
      handler.inner.authenticator.isSome))
    false

/- `user_allowed`. -/
def userAllowed
    (handler : ConnectionHandler PublicKey)
    (user : Text) : Bool :=
  handler.inner.allowedUsers.isEmpty ||
    handler.inner.allowedUsers.any fun name => name == user

variable [DecidableEq KeyData]

/- The built-in check of `decide`. -/
def checkMethod
    (lib : KeyLibrary PublicKey KeyData)
    (handler : ConnectionHandler PublicKey) :
    AuthMethod PublicKey → Bool
  | .none => handler.inner.auth.anonymous
  | .password p => handler.inner.auth.checkPassword p
  | .publicKey k => handler.inner.auth.checkPublickey lib k

/- `decide`. -/
def decide
    (lib : KeyLibrary PublicKey KeyData)
    (handler : ConnectionHandler PublicKey)
    (user : Text)
    (method : AuthMethod PublicKey) : Auth :=
  if !handler.userAllowed user then
    handler.reject
  else
    match handler.inner.authenticator with
    | some hook =>
        match hook { user, method } with
        | .accept => .accept
        | .partialSuccess =>
            .reject (some (handler.inner.auth.methodSet true))
              true
        | .reject => handler.reject
    | none =>
        if handler.checkMethod lib method then
          .accept
        else
          handler.reject

/- The common shape of the three signed-in methods. -/
def authWith
    (lib : KeyLibrary PublicKey KeyData)
    (handler : ConnectionHandler PublicKey)
    (user : Text)
    (method : AuthMethod PublicKey) :
    Auth × ConnectionHandler PublicKey :=
  let auth := handler.decide lib user method
  if auth = .accept then
    (auth, handler.markAuthenticated)
  else
    (auth, handler)

/- `auth_none`. -/
def authNone
    (lib : KeyLibrary PublicKey KeyData)
    (handler : ConnectionHandler PublicKey)
    (user : Text) : Auth × ConnectionHandler PublicKey :=
  handler.authWith lib user .none

/- `auth_password`. -/
def authPassword
    (lib : KeyLibrary PublicKey KeyData)
    (handler : ConnectionHandler PublicKey)
    (user password : Text) :
    Auth × ConnectionHandler PublicKey :=
  handler.authWith lib user (.password password)

/- `auth_publickey`. -/
def authPublickey
    (lib : KeyLibrary PublicKey KeyData)
    (handler : ConnectionHandler PublicKey)
    (user : Text)
    (key : PublicKey) : Auth × ConnectionHandler PublicKey :=
  handler.authWith lib user (.publicKey key)

/-
  `auth_publickey_offered`: the early answer to an unsigned
  key, which never authenticates.
-/
def authPublickeyOffered
    (lib : KeyLibrary PublicKey KeyData)
    (handler : ConnectionHandler PublicKey)
    (user : Text)
    (key : PublicKey) : Auth × ConnectionHandler PublicKey :=
  if !handler.userAllowed user then
    (handler.reject, handler)
  else if handler.inner.authenticator.isSome ||
      handler.inner.auth.checkPublickey lib key then
    (.accept, handler)
  else
    (handler.reject, handler)

end ConnectionHandler

end Sshdt

------------------------------------------------------------
-- Sequences Of Attempts
------------------------------------------------------------

namespace Sshdt

variable {PublicKey KeyData : Type}

/- One authentication message of the client. -/
inductive Attempt
    (PublicKey : Type) where
  | none (user : Text)
  | password (user password : Text)
  | publickeyOffered (user : Text) (key : PublicKey)
  | publickey (user : Text) (key : PublicKey)
  deriving DecidableEq, Repr

variable [DecidableEq KeyData]

namespace ConnectionHandler

/- The handler method that an attempt calls. -/
def attempt
    (lib : KeyLibrary PublicKey KeyData)
    (handler : ConnectionHandler PublicKey) :
    Attempt PublicKey → Auth × ConnectionHandler PublicKey
  | .none user => handler.authNone lib user
  | .password user password =>
      handler.authPassword lib user password
  | .publickeyOffered user key =>
      handler.authPublickeyOffered lib user key
  | .publickey user key => handler.authPublickey lib user key

/- The handler after a sequence of attempts. -/
def runAttempts
    (lib : KeyLibrary PublicKey KeyData)
    (handler : ConnectionHandler PublicKey)
    (attempts : List (Attempt PublicKey)) :
    ConnectionHandler PublicKey :=
  attempts.foldl
    (fun handler a => (handler.attempt lib a).2) handler

/-
  The attempt is answered with success and is more than an
  offer of a key.
-/
def authenticates
    (lib : KeyLibrary PublicKey KeyData)
    (handler : ConnectionHandler PublicKey)
    (a : Attempt PublicKey) : Bool :=
  match a with
  | .publickeyOffered _ _ => false
  | a => (handler.attempt lib a).1 == .accept

/- What one attempt does to the handler. -/
theorem attempt_handler
    (lib : KeyLibrary PublicKey KeyData)
    (handler : ConnectionHandler PublicKey)
    (a : Attempt PublicKey) :
    (handler.attempt lib a).2 =
      if handler.authenticates lib a then
        handler.markAuthenticated
      else
        handler := by
  cases a with
  | publickeyOffered user key =>
      simp only [attempt, authPublickeyOffered, authenticates]
      split <;> [rfl; split <;> rfl]
  | none user =>
      simp only [attempt, authNone, authWith, authenticates]
      split <;> simp_all
  | password user password =>
      simp only [attempt, authPassword, authWith,
        authenticates]
      split <;> simp_all
  | publickey user key =>
      simp only [attempt, authPublickey, authWith,
        authenticates]
      split <;> simp_all

/- Answers depend on the server state of a handler only. -/
theorem decide_congr
    (lib : KeyLibrary PublicKey KeyData)
    {handler handler' : ConnectionHandler PublicKey}
    (hInner : handler'.inner = handler.inner)
    (user : Text)
    (method : AuthMethod PublicKey) :
    handler'.decide lib user method =
      handler.decide lib user method := by
  rcases handler with ⟨inner, authed, permit⟩
  rcases handler' with ⟨inner', authed', permit'⟩
  simp only at hInner
  subst hInner
  cases method <;> rfl

/- The answer of the signed-in methods is the decision. -/
@[simp]
theorem authWith_fst
    (lib : KeyLibrary PublicKey KeyData)
    (handler : ConnectionHandler PublicKey)
    (user : Text)
    (method : AuthMethod PublicKey) :
    (handler.authWith lib user method).1 =
      handler.decide lib user method := by
  simp only [authWith]
  split <;> rfl

theorem authenticates_congr
    (lib : KeyLibrary PublicKey KeyData)
    {handler handler' : ConnectionHandler PublicKey}
    (hInner : handler'.inner = handler.inner)
    (a : Attempt PublicKey) :
    handler'.authenticates lib a =
      handler.authenticates lib a := by
  cases a with
  | publickeyOffered user key => rfl
  | none user =>
      simp [authenticates, attempt, authNone,
        decide_congr lib hInner]
  | password user password =>
      simp [authenticates, attempt, authPassword,
        decide_congr lib hInner]
  | publickey user key =>
      simp [authenticates, attempt, authPublickey,
        decide_congr lib hInner]

/-
  The flag and the permit after a sequence of attempts: the
  flag is set, and the permit given up, as soon as some
  attempt authenticates.
-/
theorem runAttempts_state
    (lib : KeyLibrary PublicKey KeyData)
    (handler : ConnectionHandler PublicKey)
    (attempts : List (Attempt PublicKey)) :
    (handler.runAttempts lib attempts).inner =
        handler.inner ∧
      (handler.runAttempts lib attempts).authed =
        (handler.authed ||
          attempts.any (handler.authenticates lib)) ∧
      (handler.runAttempts lib attempts).startupPermit =
        (handler.startupPermit &&
          !attempts.any (handler.authenticates lib)) := by
  induction attempts generalizing handler with
  | nil => simp [runAttempts]
  | cons a attempts ih =>
      have hTail := ih (handler.attempt lib a).2
      have hInner :
          (handler.attempt lib a).2.inner =
            handler.inner := by
        rw [attempt_handler]
        split <;> rfl
      have hSame :
          (handler.attempt lib a).2.authenticates lib =
            handler.authenticates lib := by
        funext b
        exact authenticates_congr lib hInner b
      rw [hSame, hInner] at hTail
      rcases hTail with ⟨hTailInner, hAuthed, hPermit⟩
      refine ⟨hTailInner, ?_, ?_⟩
      · simp only [runAttempts, List.foldl_cons] at hAuthed ⊢
        rw [hAuthed, attempt_handler]
        cases hOk : handler.authenticates lib a <;>
          simp [hOk, markAuthenticated]
      · simp only [runAttempts, List.foldl_cons] at hPermit ⊢
        rw [hPermit, attempt_handler]
        cases hOk : handler.authenticates lib a <;>
          simp [hOk, markAuthenticated]

end ConnectionHandler

end Sshdt

------------------------------------------------------------
-- Exactness Of Authentication
------------------------------------------------------------

namespace Sshdt

variable {PublicKey KeyData PrivateKey : Type}
variable [DecidableEq KeyData]

/- The credential that a configuration admits for a method. -/
def CredentialAdmitted
    (lib : KeyLibrary PublicKey KeyData)
    (host : Host)
    (config : Config) :
    AuthMethod PublicKey → Prop
  | .none =>
      config.allowAnonymous = true ∧
        config.password = none ∧
        config.authorizedKeys = [] ∧
        config.authorizedKeyLines = []
  | .password p =>
      ∃ expected,
        config.password = some expected ∧
          expected.asBytes = p.asBytes
  | .publicKey k =>
      ∃ loaded ∈ loadedKeys lib host config,
        lib.keyData loaded = lib.keyData k

/- The users that a resolved allowlist permits. -/
def Permitted
    (allowed : List Text)
    (user : Text) : Prop :=
  allowed = [] ∨ user ∈ allowed

/-
  Authentication on the connections of a server follows its
  configuration exactly, and the authenticated flag and the
  startup permit follow the authentication.
-/
structure ExactAuthentication
    (lib : KeyLibrary PublicKey KeyData)
    (host : Host)
    (config : Config)
    (inner : ServerInner PublicKey) : Prop where
  allowedUsers :
    inner.allowedUsers =
      config.allowUsers ++
        (if config.requireCurrentUser then
          (currentOsUser host).toList
        else
          [])
  strict :
    config.requireCurrentUser = true →
      inner.allowedUsers ≠ []
  accepts :
    ∀ handler : ConnectionHandler PublicKey,
      handler.inner = inner → ∀ user method,
        handler.decide lib user method = .accept ↔
          Permitted inner.allowedUsers user ∧
            CredentialAdmitted lib host config method
  advertised :
    ∀ handler : ConnectionHandler PublicKey,
      handler.inner = inner → ∀ kind,
        kind ∈ inner.auth.methodSet false ↔
          ∃ user method,
            AuthMethod.kind method = kind ∧
              Permitted inner.allowedUsers user ∧
              handler.decide lib user method = .accept
  offered :
    ∀ handler : ConnectionHandler PublicKey,
      handler.inner = inner → ∀ user key,
        (handler.authPublickeyOffered lib user key).1 =
            .accept ↔
          (handler.authPublickey lib user key).1 = .accept
  consequences :
    ∀ permit : Bool, ∀ attempts : List (Attempt PublicKey),
      let start := ConnectionHandler.new inner permit
      let final := start.runAttempts lib attempts
      final.authed =
          attempts.any (start.authenticates lib) ∧
        final.startupPermit =
          (permit && !attempts.any (start.authenticates lib))
  firstSuccess :
    ∀ permit : Bool, ∀ before : List (Attempt PublicKey),
    ∀ a : Attempt PublicKey,
      let start := ConnectionHandler.new inner permit
      ((start.runAttempts lib before).authed = false ∧
          (start.runAttempts lib
            (before ++ [a])).authed = true) ↔
        (before.all fun b => !start.authenticates lib b) =
            true ∧
          start.authenticates lib a = true

namespace ConnectionHandler

theorem userAllowed_iff
    (handler : ConnectionHandler PublicKey)
    (user : Text) :
    handler.userAllowed user = true ↔
      Permitted handler.inner.allowedUsers user := by
  simp [userAllowed, Permitted]

/- The decision of a server without a custom hook. -/
theorem decide_accept_iff
    (lib : KeyLibrary PublicKey KeyData)
    {handler : ConnectionHandler PublicKey}
    (hHook : handler.inner.authenticator = none)
    (user : Text)
    (method : AuthMethod PublicKey) :
    handler.decide lib user method = .accept ↔
      Permitted handler.inner.allowedUsers user ∧
        handler.checkMethod lib method = true := by
  rw [← userAllowed_iff]
  simp only [decide, hHook]
  cases handler.userAllowed user <;>
    cases handler.checkMethod lib method <;>
    simp [reject]

/- An offer is answered as the signed attempt would be. -/
theorem offered_accept_iff
    (lib : KeyLibrary PublicKey KeyData)
    {handler : ConnectionHandler PublicKey}
    (hHook : handler.inner.authenticator = none)
    (user : Text)
    (key : PublicKey) :
    (handler.authPublickeyOffered lib user key).1 = .accept ↔
      (handler.authPublickey lib user key).1 = .accept := by
  simp only [authPublickey, authWith_fst,
    decide_accept_iff lib hHook, checkMethod,
    ← userAllowed_iff, authPublickeyOffered, hHook]
  cases handler.userAllowed user <;>
    cases handler.inner.auth.checkPublickey lib key <;>
    simp [reject]

end ConnectionHandler

/- The built-in checks admit the configured credentials. -/
theorem checkMethod_iff
    {lib : KeyLibrary PublicKey KeyData}
    {host : Host}
    {config : Config}
    {handler : ConnectionHandler PublicKey}
    (hAuth :
      AuthConfig.fromConfig lib host config =
        .ok handler.inner.auth)
    (method : AuthMethod PublicKey) :
    handler.checkMethod lib method = true ↔
      CredentialAdmitted lib host config method := by
  rcases AuthConfig.fromConfig_ok hAuth with
    ⟨hAnonymous, hPassword, hKeys⟩
  cases method with
  | none =>
      simp only [ConnectionHandler.checkMethod, hAnonymous,
        CredentialAdmitted, Config.hasExplicitAuth]
      cases config.password <;>
        simp [List.isEmpty_iff]
  | password p =>
      simp only [ConnectionHandler.checkMethod,
        AuthConfig.checkPassword_iff, hPassword,
        CredentialAdmitted]
  | publicKey k =>
      simp only [ConnectionHandler.checkMethod,
        AuthConfig.checkPublickey_iff, hKeys,
        CredentialAdmitted]

/- Some user is permitted by every allowlist. -/
theorem exists_permitted
    (allowed : List Text) :
    ∃ user, Permitted allowed user := by
  cases allowed with
  | nil => exact ⟨[], Or.inl rfl⟩
  | cons user rest => exact ⟨user, Or.inr List.mem_cons_self⟩

/- A kind is advertised when one of its credentials passes. -/
theorem mem_methodSet_iff
    (lib : KeyLibrary PublicKey KeyData)
    (handler : ConnectionHandler PublicKey)
    (kind : MethodKind) :
    kind ∈ handler.inner.auth.methodSet false ↔
      ∃ method : AuthMethod PublicKey,
        method.kind = kind ∧
          handler.checkMethod lib method = true := by
  constructor
  · intro hMem
    simp only [AuthConfig.methodSet, Bool.false_eq_true,
      if_false, List.mem_append] at hMem
    rcases hMem with (hNone | hKey) | hPassword
    · refine ⟨.none, ?_⟩
      split at hNone <;>
        simp_all [AuthMethod.kind,
          ConnectionHandler.checkMethod]
    · cases hKeys : handler.inner.auth.authorizedKeys with
      | nil => simp [hKeys] at hKey
      | cons key keys =>
          refine ⟨.publicKey key, ?_, ?_⟩
          · simpa [hKeys, AuthMethod.kind, eq_comm] using hKey
          · simp [ConnectionHandler.checkMethod,
              AuthConfig.checkPublickey, hKeys]
    · cases hSome : handler.inner.auth.password with
      | none => simp [hSome] at hPassword
      | some password =>
          refine ⟨.password password, ?_, ?_⟩
          · simpa [hSome, AuthMethod.kind, eq_comm]
              using hPassword
          · simp [ConnectionHandler.checkMethod,
              AuthConfig.checkPassword_iff, hSome]
  · rintro ⟨method, rfl, hCheck⟩
    cases method with
    | none =>
        simp_all [AuthConfig.methodSet, AuthMethod.kind,
          ConnectionHandler.checkMethod]
    | password p =>
        simp only [ConnectionHandler.checkMethod,
          AuthConfig.checkPassword_iff] at hCheck
        rcases hCheck with ⟨expected, hSome, _⟩
        simp [AuthConfig.methodSet, AuthMethod.kind, hSome]
    | publicKey k =>
        simp only [ConnectionHandler.checkMethod,
          AuthConfig.checkPublickey_iff] at hCheck
        rcases hCheck with ⟨key, hKey, _⟩
        have hKeys := List.ne_nil_of_mem hKey
        simp [AuthConfig.methodSet, AuthMethod.kind, hKeys]

/-
  A server state that was resolved from a configuration and
  has no custom authenticator decides every attempt by that
  configuration.
-/
theorem exactAuthentication_of_resolved
    {lib : KeyLibrary PublicKey KeyData}
    {host : Host}
    {config : Config}
    {inner : ServerInner PublicKey}
    (hAuth :
      AuthConfig.fromConfig lib host config = .ok inner.auth)
    (hAllowed :
      ServerBuilder.resolveAllowedUsers host config =
        .ok inner.allowedUsers)
    (hHook : inner.authenticator = none) :
    ExactAuthentication lib host config inner := by
  rcases ServerBuilder.resolveAllowedUsers_ok hAllowed with
    ⟨hUsers, hStrict⟩
  refine ⟨hUsers, hStrict, ?_, ?_, ?_, ?_, ?_⟩
  · rintro handler rfl user method
    rw [ConnectionHandler.decide_accept_iff lib hHook,
      checkMethod_iff hAuth]
  · rintro handler rfl kind
    rw [mem_methodSet_iff lib]
    constructor
    · rintro ⟨method, hKind, hCheck⟩
      rcases exists_permitted handler.inner.allowedUsers with
        ⟨user, hUser⟩
      refine ⟨user, method, hKind, hUser, ?_⟩
      rw [ConnectionHandler.decide_accept_iff lib hHook]
      exact ⟨hUser, hCheck⟩
    · rintro ⟨user, method, hKind, _, hAccept⟩
      rw [ConnectionHandler.decide_accept_iff lib hHook]
        at hAccept
      exact ⟨method, hKind, hAccept.2⟩
  · rintro handler rfl user key
    exact ConnectionHandler.offered_accept_iff lib hHook
      user key
  · intro permit attempts start final
    exact (start.runAttempts_state lib attempts).2
  · intro permit before a start
    rw [(start.runAttempts_state lib before).2.1,
      (start.runAttempts_state lib (before ++ [a])).2.1]
    have hStart : start.authed = false := rfl
    simp only [hStart, Bool.false_or, List.any_append,
      List.any_cons, List.any_nil, Bool.or_false,
      ← List.not_any_eq_all_not, Bool.not_eq_true']
    cases before.any (start.authenticates lib) <;> simp

/-
  A server built without a custom authenticator decides
  every attempt by its configuration. The key files are
  those of the host that loading the host keys left behind.
-/
theorem build_exactAuthentication
    {lib : KeyLibrary PublicKey KeyData}
    {hostKeyLib : HostKeyLibrary PrivateKey}
    {host : Host}
    {builder : ServerBuilder PublicKey}
    {server : Server PublicKey PrivateKey}
    (hBuild :
      ServerBuilder.build lib hostKeyLib host builder =
        .ok server)
    (hHook : builder.authenticator = none) :
    ∃ keys host',
      loadOrGenerate hostKeyLib host builder.config.hostKeys
          (builder.config.hostKeyPassphrase.or
            (host.envVar
              "SSHDT_HOST_KEY_PASSPHRASE".toList)) =
          .ok (keys, host') ∧
        ExactAuthentication lib host' builder.config
          server.inner := by
  rcases ServerBuilder.build_ok hBuild with
    ⟨keys, host', hKeys, hAuth, hAllowed, hSame⟩
  exact ⟨keys, host', hKeys,
    exactAuthentication_of_resolved hAuth hAllowed
      (hSame.trans hHook)⟩

/-
  Keys kept as the words of their OpenSSH line and compared
  by algorithm and encoded data.
-/
def wordKeys : KeyLibrary (List Text) (List Text) where
  fromOpenssh line :=
    match Text.splitWhitespace line with
    | algorithm :: data :: comment =>
        if algorithm = "ssh-ed25519".toList then
          some (algorithm :: data :: comment)
        else
          none
    | _ => none
  keyData key := key.take 2

/- Host keys that are present and load without a passphrase. -/
def presentHostKeys : HostKeyLibrary Unit where
  loadSecretKey _ _ _ := some ()
  generateAndPersist _ path := .error (.hostKeyLoad path)

/- A host whose only file has the given path and content. -/
def singleFileHost
    (path : PathBuf)
    (content : Text) : Host where
  readToString p := if p = path then some content else none
  pathExists p := p = path
  isDir _ := false
  homeDir := none
  envVar _ := none

/- A password, an inline key and one permitted user. -/
def exampleConfig : Config :=
  { Config.default with
    hostKeys := ["/hostkey".toList]
    password := some "secret".toList
    authorizedKeyLines :=
      ["ssh-ed25519 AAAAC3NzaC1lZDI1NTE5AAAAINdamAGCsQq31Uv+08lkBzoO4XLz2qYjJa8CGmj3B1Ea dev@laptop".toList]
    allowUsers := ["dev".toList] }

/- The server of that configuration. -/
def exampleBuild : Except Error (Server (List Text) Unit) :=
  ServerBuilder.build wordKeys presentHostKeys
    (singleFileHost "/hostkey".toList [])
    (ServerBuilder.fromConfig exampleConfig)

theorem exampleServer_exactAuthentication :
    ∃ server keys host',
      exampleBuild = .ok server ∧
        loadOrGenerate presentHostKeys
            (singleFileHost "/hostkey".toList [])
            exampleConfig.hostKeys none =
            .ok (keys, host') ∧
        ExactAuthentication wordKeys host' exampleConfig
          server.inner := by
  have hOk : exampleBuild.isOk = true := by
    decide +kernel
  cases hBuild : exampleBuild with
  | error error =>
      rw [hBuild] at hOk
      cases hOk
  | ok server =>
      rcases build_exactAuthentication hBuild rfl with
        ⟨keys, host', hKeys, hExact⟩
      exact ⟨server, keys, host', rfl, hKeys, hExact⟩

end Sshdt

------------------------------------------------------------
-- From Directives To Decisions
------------------------------------------------------------

namespace Sshdt

open SshdConfig

variable {PublicKey KeyData : Type}
variable [DecidableEq KeyData]

/-
  The text or the effective configuration asks for
  authentication: a toggle occurs in the text with any
  value, or a credential remains configured.
-/
def AsksForAuth
    (host : Host)
    (args : Args)
    (config : Config) : Prop :=
  (∃ entry ∈ directives (loadedText host args),
      isAuthToggle entry.1 = true) ∨
    config.hasExplicitAuth = true

/-
  Anonymous access is off: the resolved authentication says
  so, and without a custom authenticator the `none` method
  is rejected for every username.
-/
def FailsClosed
    (lib : KeyLibrary PublicKey KeyData)
    (host : Host)
    (config : Config) : Prop :=
  ∀ auth, AuthConfig.fromConfig lib host config = .ok auth →
    auth.anonymous = false ∧
      ∀ handler : ConnectionHandler PublicKey,
        handler.inner.auth = auth →
        handler.inner.authenticator = none →
        ∀ user,
          handler.decide lib user .none ≠ .accept

/-
  What decides anonymous access among the inputs: a toggle
  whose value is yes or no, a credential of the flags, or an
  entry that names a key file.
-/
def DecidesAuth
    (host : Host)
    (args : Args) : Prop :=
  (∃ entry ∈ directives (loadedText host args),
      decidesAuth entry = true) ∨
    args.password ≠ none ∨
    args.authorizedKeys ≠ [] ∨
    args.pubkey ≠ [] ∨
    ∃ entry ∈ directives (loadedText host args),
      keyFiles entry ≠ []

/- Anonymous access that is allowed accepts everyone. -/
theorem failsClosed_iff
    (lib : KeyLibrary PublicKey KeyData)
    (host : Host)
    (config : Config) :
    FailsClosed lib host config ↔
      config.allowAnonymous = false ∨
        config.hasExplicitAuth = true := by
  constructor
  · intro hClosed
    by_contra hOpen
    rw [not_or, Bool.not_eq_false, Bool.not_eq_true]
      at hOpen
    rcases hOpen with ⟨hAllow, hExplicit⟩
    have hKeys := hExplicit
    simp only [Config.hasExplicitAuth, Bool.or_eq_false_iff,
      Bool.not_eq_false', List.isEmpty_iff] at hKeys
    have hAnonymous := (hClosed _
      (AuthConfig.fromConfig_of_noKeys lib host
        hKeys.1.2 hKeys.2)).1
    simp [hAllow, hExplicit] at hAnonymous
  · intro hOff auth hAuth
    have hAnonymous : auth.anonymous = false := by
      rw [(AuthConfig.fromConfig_ok hAuth).1]
      rcases hOff with hAllow | hExplicit
      · simp [hAllow]
      · simp [hExplicit]
    refine ⟨hAnonymous, ?_⟩
    intro handler hSame hHook user hAccept
    rw [ConnectionHandler.decide_accept_iff lib hHook]
      at hAccept
    rw [ConnectionHandler.checkMethod, hSame,
      hAnonymous] at hAccept
    cases hAccept.2

/-
  Anonymous access is off in the effective configuration
  exactly when an input decides it.
-/
theorem buildConfig_closed_iff
    {host : Host}
    {args : Args}
    {config : Config}
    (hBuild : buildConfig host args = .ok config) :
    config.allowAnonymous = false ∨
        config.hasExplicitAuth = true ↔
      DecidesAuth host args := by
  rcases buildConfig_auth hBuild with
    ⟨hAnonymous, hExplicit⟩
  rw [← Bool.not_eq_false config.hasExplicitAuth, hExplicit,
    hAnonymous, DecidesAuth]
  simp only [Bool.not_eq_false', List.any_eq_true,
    List.flatMap_eq_nil_iff]
  constructor
  · rintro (hDecided | hConfigured)
    · exact Or.inl hDecided
    · by_contra hNone
      simp only [not_or, not_exists, not_and, not_not]
        at hNone
      rcases hNone with ⟨_, hPassword, hFiles, hLines, hKeys⟩
      exact hConfigured
        ⟨hPassword, hFiles, hLines, Or.inr hKeys⟩
  · rintro (hDecided | hPassword | hFiles | hLines | hKeys)
    · exact Or.inl hDecided
    · exact Or.inr fun hNone => hPassword hNone.1
    · exact Or.inr fun hNone => hFiles hNone.2.1
    · exact Or.inr fun hNone => hLines hNone.2.2.1
    · -- Clearing the key files is itself a decision.
      rcases hKeys with ⟨entry, hEntry, hWords⟩
      by_cases hOff :
          ∃ entry ∈ directives (loadedText host args),
            disablesPubkey entry = true
      · rcases hOff with ⟨off, hMem, hDisables⟩
        refine Or.inl ⟨off, hMem, ?_⟩
        simp only [disablesPubkey, Bool.and_eq_true,
          beq_iff_eq] at hDisables
        simp [decidesAuth, isAuthToggle, hDisables]
      · refine Or.inr fun hNone => ?_
        rcases hNone.2.2.2 with hDisabled | hNoWords
        · exact hOff hDisabled
        · exact hWords (hNoWords entry hEntry)

/-
  A text or a configuration that asks for authentication
  gets it exactly when an input decides it, or when nothing
  asks for it in the first place: a toggle with any other
  value than yes or no is ignored.
-/
theorem authDirectives_failClosed_iff
    {host : Host}
    {args : Args}
    {config : Config}
    (hBuild : buildConfig host args = .ok config)
    (lib : KeyLibrary PublicKey KeyData)
    (keyHost : Host) :
    (AsksForAuth host args config →
        FailsClosed lib keyHost config) ↔
      DecidesAuth host args ∨
        ∀ entry ∈ directives (loadedText host args),
          isAuthToggle entry.1 = false := by
  rw [failsClosed_iff, buildConfig_closed_iff hBuild]
  constructor
  · intro hClaim
    by_cases hToggle :
        ∃ entry ∈ directives (loadedText host args),
          isAuthToggle entry.1 = true
    · exact Or.inl (hClaim (Or.inl hToggle))
    · refine Or.inr fun entry hEntry => ?_
      rw [← Bool.not_eq_true]
      exact fun hIs => hToggle ⟨entry, hEntry, hIs⟩
  · rintro (hDecides | hNoToggle) hAsks
    · exact hDecides
    · rcases hAsks with ⟨entry, hEntry, hIs⟩ | hExplicit
      · rw [hNoToggle entry hEntry] at hIs
        cases hIs
      · exact (buildConfig_closed_iff hBuild).mp
          (Or.inr hExplicit)

/- A command line that reads the given configuration file. -/
def configArgs : Args :=
  { Args.none with config := some "/sshdt_config".toList }

/- The effective configuration of a file with this text. -/
def configOfText
    (text : Text) : Except Error Config :=
  buildConfig
    (singleFileHost "/sshdt_config".toList text) configArgs

theorem passwordAuthentication_no_failsClosed :
    ∃ config,
      configOfText "PasswordAuthentication no".toList =
          .ok config ∧
        (AsksForAuth
            (singleFileHost "/sshdt_config".toList
              "PasswordAuthentication no".toList)
            configArgs config →
          FailsClosed wordKeys
            (singleFileHost "/sshdt_config".toList [])
            config) := by
  have hBuild :
      configOfText "PasswordAuthentication no".toList =
        .ok { Config.default with allowAnonymous := false } := by
    decide
  refine ⟨_, hBuild,
    (authDirectives_failClosed_iff hBuild wordKeys
      _).mpr (Or.inl (Or.inl ?_))⟩
  exact ⟨(.passwordAuthentication, "no".toList),
    by decide, by decide⟩

/-
  A toggle with another value leaves the server open to
  everyone, without an error.
-/
theorem passwordAuthentication_maybe_staysOpen :
    ∃ config,
      configOfText "PasswordAuthentication maybe".toList =
          .ok config ∧
        AsksForAuth
          (singleFileHost "/sshdt_config".toList
            "PasswordAuthentication maybe".toList)
          configArgs config ∧
        ¬ FailsClosed wordKeys
          (singleFileHost "/sshdt_config".toList [])
          config := by
  refine ⟨Config.default, by decide, Or.inl ?_, ?_⟩
  · exact ⟨(.passwordAuthentication, "maybe".toList),
      by decide, rfl⟩
  · rw [failsClosed_iff]
    decide

end Sshdt
