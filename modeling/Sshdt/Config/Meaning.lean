import Sshdt.Lib.Bindings
import Sshdt.Config.SshdConfig

/-
  What an `sshd_config` text means, entry by entry.

  `configMeaning` gives every field of the configuration
  straight from the entries of a text: the last matching
  entry, all matching entries, or a question about them. It
  is compared with `parse`, which updates one record line by
  line with a first-seen flag and two deferred clearings.

  Key definitions include:
    * `SshdConfig.lastDecoded`
    * `SshdConfig.configMeaning`
    * `SshdConfig.entryValid`
    * `SshdConfig.Acceptable`
    * `SshdConfig.stateOf`

  Key theorems include:
    * `SshdConfig.applyDirective_stateOf`
    * `SshdConfig.foldlM_stateOf`
    * `SshdConfig.parse_ok_iff`
    * `SshdConfig.parse_meaning`
-/

------------------------------------------------------------
-- Meaning Of The Entries
------------------------------------------------------------

namespace Sshdt

namespace SshdConfig

/- The decoded value of the last matching entry. -/
def lastDecoded
    {α : Type}
    (keyword : Keyword → Bool)
    (decode : Text → Option α)
    (entries : List (Keyword × Text))
    (fallback : α) : α :=
  ((Bindings.lastValue keyword entries).bind decode).getD
    fallback

/- The words of all matching entries, in order. -/
def allWords
    (keyword : Keyword)
    (entries : List (Keyword × Text)) : List Text :=
  (Bindings.values (· == keyword) entries).flatMap
    Text.splitWhitespace

/- The number before the first colon of `MaxStartups`. -/
def decodeMaxStartups
    (value : Text) : Option UInt32 :=
  Text.parseU32 ((value.splitOn ':').head?.getD value)

/- `AllowTcpForwarding`: anything but `no`. -/
def decodeForwarding
    (value : Text) : Option Bool :=
  some (Text.toAsciiLowercase value != "no".toList)

def decodeBin
    (value : Text) : Option PathBuf :=
  if value = [] then none else some value

def decodeId
    (value : Text) : Option Text :=
  if validTunnelId value then some value else none

/- The tunnel settings that the entries mean. -/
def tunnelMeaning
    (entries : List (Keyword × Text)) : DevTunnelConfig where
  enabled :=
    lastDecoded (· == .devTunnelEnable) parseYesNo entries
      DevTunnelConfig.default.enabled
  id :=
    lastDecoded (· == .devTunnelId)
      (fun value => (decodeId value).map some) entries
      DevTunnelConfig.default.id
  labels := Bindings.values (· == .devTunnelLabel) entries
  bin :=
    lastDecoded (· == .devTunnelBin)
      (fun value => (decodeBin value).map some) entries
      DevTunnelConfig.default.bin
  autoCreate :=
    lastDecoded (· == .devTunnelAutoCreate) parseYesNo
      entries DevTunnelConfig.default.autoCreate
  timeoutSecs :=
    lastDecoded (· == .devTunnelTimeout) parseTunnelTimeout
      entries DevTunnelConfig.default.timeoutSecs

/- Some entry is `PubkeyAuthentication no`. -/
def pubkeyDisabledBy
    (entries : List (Keyword × Text)) : Bool :=
  entries.any disablesPubkey

/- Some entry has the keyword. -/
def mentions
    (keyword : Keyword)
    (entries : List (Keyword × Text)) : Bool :=
  entries.any fun entry => entry.1 == keyword

/- The configuration that the entries mean. -/
def configMeaning
    (host : Host)
    (entries : List (Keyword × Text)) : Config where
  devTunnel := tunnelMeaning entries
  bind :=
    lastDecoded (· == .listenAddress) parseListenAddress
      entries Config.default.bind
  port :=
    lastDecoded (· == .port) Text.parseU16 entries
      Config.default.port
  hostKeys := Bindings.values (· == .hostKey) entries
  hostKeyPassphrase := Config.default.hostKeyPassphrase
  password := Config.default.password
  authorizedKeys :=
    if pubkeyDisabledBy entries then
      []
    else
      allWords .authorizedKeysFile entries
  authorizedKeyLines := Config.default.authorizedKeyLines
  allowAnonymous := !entries.any decidesAuth
  shell :=
    lastDecoded
      (fun keyword =>
        keyword == .shell || keyword == .forceCommand)
      (fun value => some (some value)) entries
      Config.default.shell
  sftpRoot := Config.default.sftpRoot
  allowTcpForwarding :=
    lastDecoded (· == .allowTcpForwarding) decodeForwarding
      entries Config.default.allowTcpForwarding
  loginGraceSecs :=
    lastDecoded (· == .loginGraceTime) parseTime entries
      Config.default.loginGraceSecs
  maxStartups :=
    lastDecoded (· == .maxStartups) decodeMaxStartups
      entries Config.default.maxStartups
  acceptEnv :=
    if mentions .acceptEnv entries then
      allWords .acceptEnv entries
    else
      Config.default.acceptEnv
  banner :=
    lastDecoded (· == .banner)
      (fun value => some (some (readBanner host value)))
      entries Config.default.banner
  requireCurrentUser := Config.default.requireCurrentUser
  allowUsers := Config.default.allowUsers

/-
  The value of the entry is one that its keyword takes. Only
  these nine keywords refuse any value.
-/
def entryValid
    (entry : Keyword × Text) : Bool :=
  match entry.1 with
  | .port => (Text.parseU16 entry.2).isSome
  | .listenAddress => (parseListenAddress entry.2).isSome
  | .loginGraceTime => (parseTime entry.2).isSome
  | .maxStartups => (decodeMaxStartups entry.2).isSome
  | .devTunnelEnable => (parseYesNo entry.2).isSome
  | .devTunnelBin => (decodeBin entry.2).isSome
  | .devTunnelId => (decodeId entry.2).isSome
  | .devTunnelAutoCreate => (parseYesNo entry.2).isSome
  | .devTunnelTimeout => (parseTunnelTimeout entry.2).isSome
  | _ => true

/- The labels that `validate_dev_tunnel` lets pass. -/
def labelsValid
    (entries : List (Keyword × Text)) : Bool :=
  let labels := Bindings.values (· == .devTunnelLabel) entries
  labels.all Config.validLabel &&
    decide (labels.eraseDups.length ≤ 100)

/- The texts that `parse` accepts, by their entries. -/
def Acceptable
    (entries : List (Keyword × Text)) : Prop :=
  (∀ entry ∈ entries, entryValid entry = true) ∧
    labelsValid entries = true

end SshdConfig

end Sshdt

------------------------------------------------------------
-- The Loop
------------------------------------------------------------

namespace Sshdt

namespace SshdConfig

/- The variables of `parse` after some entries. -/
def stateOf
    (host : Host)
    (entries : List (Keyword × Text)) : ParseState where
  config := { configMeaning host entries with
    authorizedKeys := allWords .authorizedKeysFile entries }
  acceptEnvSeen := mentions .acceptEnv entries
  passwordDisabled :=
    entries.any fun entry =>
      entry.1 == .passwordAuthentication &&
        parseYesNo entry.2 == some false
  pubkeyDisabled := pubkeyDisabledBy entries

section Snoc

variable (entries : List (Keyword × Text))
variable (key : Keyword)
variable (value : Text)

@[simp]
theorem lastDecoded_snoc
    {α : Type}
    (keyword : Keyword → Bool)
    (decode : Text → Option α)
    (fallback : α) :
    lastDecoded keyword decode (entries ++ [(key, value)])
        fallback =
      if keyword key then
        (decode value).getD fallback
      else
        lastDecoded keyword decode entries fallback := by
  cases hKey : keyword key <;> simp [lastDecoded, hKey]

@[simp]
theorem allWords_snoc
    (keyword : Keyword) :
    allWords keyword (entries ++ [(key, value)]) =
      allWords keyword entries ++
        if key == keyword then
          Text.splitWhitespace value
        else
          [] := by
  cases hKey : key == keyword <;> simp [allWords, hKey]

@[simp]
theorem mentions_snoc
    (keyword : Keyword) :
    mentions keyword (entries ++ [(key, value)]) =
      (mentions keyword entries || key == keyword) := by
  simp [mentions]

@[simp]
theorem pubkeyDisabledBy_snoc :
    pubkeyDisabledBy (entries ++ [(key, value)]) =
      (pubkeyDisabledBy entries ||
        disablesPubkey (key, value)) := by
  simp [pubkeyDisabledBy]

/- Words come from entries only. -/
theorem allWords_of_not_mentions
    {keyword : Keyword}
    (hNot : mentions keyword entries = false) :
    allWords keyword entries = [] := by
  simp only [mentions, List.any_eq_false] at hNot
  rw [allWords, Bindings.values_eq_nil]
  · rfl
  · intro entry hMem
    simpa using hNot entry hMem

end Snoc

/- The loop body does what one more entry means. -/
theorem applyDirective_stateOf
    (host : Host)
    (lineno : Nat)
    (entries : List (Keyword × Text))
    {keyword : Keyword}
    {value : Text}
    (hValid : entryValid (keyword, value) = true) :
    applyDirective host lineno (stateOf host entries)
        keyword value =
      .ok (stateOf host (entries ++ [(keyword, value)])) := by
  cases keyword with
  | port | listenAddress | loginGraceTime
  | devTunnelEnable | devTunnelAutoCreate
  | devTunnelTimeout =>
      rcases Option.isSome_iff_exists.mp hValid with
        ⟨decoded, hDecoded⟩
      simp only at hDecoded
      simp [applyDirective, hDecoded, orInvalid, bind,
        Except.bind, stateOf, configMeaning, tunnelMeaning,
        disablesPubkey, decidesAuth, isAuthToggle]
  | maxStartups =>
      rcases Option.isSome_iff_exists.mp hValid with
        ⟨decoded, hDecoded⟩
      simp only [decodeMaxStartups] at hDecoded
      simp [applyDirective, hDecoded, orInvalid, bind,
        Except.bind, stateOf, configMeaning, tunnelMeaning,
        disablesPubkey, decidesAuth, isAuthToggle,
        decodeMaxStartups]
  | devTunnelBin =>
      have hSome : value ≠ [] := by
        intro hEmpty
        simp [entryValid, decodeBin, hEmpty] at hValid
      simp [applyDirective, hSome, stateOf, configMeaning,
        tunnelMeaning, disablesPubkey, decidesAuth,
        isAuthToggle, decodeBin]
  | devTunnelId =>
      have hId : validTunnelId value = true := by
        by_contra hNot
        simp [entryValid, decodeId, hNot] at hValid
      simp [applyDirective, hId, stateOf, configMeaning,
        tunnelMeaning, disablesPubkey, decidesAuth,
        isAuthToggle, decodeId]
  | passwordAuthentication | pubkeyAuthentication =>
      simp [applyDirective, stateOf, configMeaning,
        tunnelMeaning, disablesPubkey, decidesAuth,
        isAuthToggle, Bool.and_comm]
  | acceptEnv =>
      have hBefore :
          (if (stateOf host entries).acceptEnvSeen then
              (stateOf host entries).config.acceptEnv
            else
              []) =
            allWords .acceptEnv entries := by
        by_cases hSeen : mentions .acceptEnv entries = true
        · simp [stateOf, configMeaning, hSeen]
        · simp only [stateOf, hSeen]
          exact (allWords_of_not_mentions entries
            (by simpa using hSeen)).symm
      simp only [applyDirective, hBefore]
      simp [stateOf, configMeaning, tunnelMeaning,
        disablesPubkey, decidesAuth, isAuthToggle]
  | hostKey | authorizedKeysFile | allowTcpForwarding
  | devTunnelLabel | shell | forceCommand | banner
  | subsystem | other =>
      simp [applyDirective, stateOf, configMeaning,
        tunnelMeaning, disablesPubkey, decidesAuth,
        isAuthToggle, decodeForwarding]

/- A value that its keyword does not take ends the loop. -/
theorem applyDirective_error
    (host : Host)
    (lineno : Nat)
    (st : ParseState)
    {keyword : Keyword}
    {value : Text}
    (hInvalid : entryValid (keyword, value) = false) :
    ∃ error,
      applyDirective host lineno st keyword value =
        .error error := by
  cases keyword with
  | port | listenAddress | loginGraceTime
  | devTunnelEnable | devTunnelAutoCreate
  | devTunnelTimeout =>
      have hNone := Option.isSome_eq_false_iff.mp hInvalid
      simp only [Option.isNone_iff_eq_none] at hNone
      simp [applyDirective, hNone, orInvalid, bind,
        Except.bind]
  | maxStartups =>
      have hNone := Option.isSome_eq_false_iff.mp hInvalid
      simp only [Option.isNone_iff_eq_none,
        decodeMaxStartups] at hNone
      simp [applyDirective, hNone, orInvalid, bind,
        Except.bind]
  | devTunnelBin =>
      have hEmpty : value = [] := by
        by_contra hSome
        simp [entryValid, decodeBin, hSome] at hInvalid
      simp [applyDirective, hEmpty]
  | devTunnelId =>
      have hId : validTunnelId value = false := by
        by_contra hSome
        simp [entryValid, decodeId, hSome] at hInvalid
      simp [applyDirective, hId]
  | passwordAuthentication | pubkeyAuthentication
  | acceptEnv | hostKey | authorizedKeysFile
  | allowTcpForwarding | devTunnelLabel | shell
  | forceCommand | banner | subsystem | other =>
      simp [entryValid] at hInvalid

/-
  The loop over the lines, from the state that some entries
  mean: valid entries lead to the state that they mean in
  addition, and an invalid one to an error.
-/
theorem foldlM_stateOf
    (host : Host)
    (numbered : List (Text × Nat))
    (before : List (Keyword × Text)) :
    ((∀ entry ∈ (numbered.map Prod.fst).filterMap lineEntry,
        entryValid entry = true) →
      numbered.foldlM (parseLine host) (stateOf host before) =
        .ok (stateOf host (before ++
          (numbered.map Prod.fst).filterMap lineEntry))) ∧
    ((∃ entry ∈ (numbered.map Prod.fst).filterMap lineEntry,
        entryValid entry = false) →
      ∃ error,
        numbered.foldlM (parseLine host)
          (stateOf host before) = .error error) := by
  induction numbered generalizing before with
  | nil => simp [pure, Except.pure]
  | cons line numbered ih =>
      rw [List.foldlM_cons, List.map_cons]
      cases hSplit : splitLine line.1 with
      | none =>
          have hLine : parseLine host (stateOf host before)
              line = .ok (stateOf host before) := by
            rw [parseLine, hSplit]
          have hNone : lineEntry line.1 = none := by
            rw [lineEntry, hSplit]
            rfl
          rw [hLine, List.filterMap_cons_none hNone]
          exact ih before
      | some entry =>
          rcases entry with ⟨key, value⟩
          have hLine : parseLine host (stateOf host before)
              line = applyDirective host line.2
                (stateOf host before) (Keyword.ofText key)
                value := by
            rw [parseLine, hSplit]
          have hSome : lineEntry line.1 =
              some (Keyword.ofText key, value) := by
            rw [lineEntry, hSplit]
            rfl
          rw [hLine, List.filterMap_cons_some hSome]
          cases hValid : entryValid
              (Keyword.ofText key, value) with
          | true =>
              rw [applyDirective_stateOf host line.2 before
                hValid]
              rcases ih
                (before ++ [(Keyword.ofText key, value)])
                with ⟨hRest, hRestError⟩
              rw [List.append_assoc, List.singleton_append]
                at hRest
              constructor
              · intro hAll
                exact hRest fun entry hMem =>
                  hAll entry (List.mem_cons_of_mem _ hMem)
              · rintro ⟨entry, hMem, hBad⟩
                rcases List.mem_cons.mp hMem with
                  rfl | hMem
                · rw [hValid] at hBad
                  cases hBad
                · exact hRestError ⟨entry, hMem, hBad⟩
          | false =>
              rcases applyDirective_error host line.2
                (stateOf host before) hValid with
                ⟨error, hError⟩
              rw [hError]
              constructor
              · intro hAll
                have hHead := hAll _ List.mem_cons_self
                rw [hValid] at hHead
                cases hHead
              · intro _
                exact ⟨error, rfl⟩

end SshdConfig

end Sshdt

------------------------------------------------------------
-- Whole Texts
------------------------------------------------------------

namespace Sshdt

namespace SshdConfig

/- Without a password and key lines, one clearing is left. -/
theorem clearDisabled_eq
    (st : ParseState)
    (hPassword : st.config.password = none)
    (hLines : st.config.authorizedKeyLines = []) :
    clearDisabled st =
      { st.config with
        authorizedKeys :=
          if st.pubkeyDisabled then
            []
          else
            st.config.authorizedKeys } := by
  rcases st with ⟨config, seen, password, pubkey⟩
  rcases config
  simp only at hPassword hLines
  subst hPassword hLines
  cases password <;> cases pubkey <;> rfl

/- The deferred clearing completes the meaning. -/
theorem clearDisabled_stateOf
    (host : Host)
    (entries : List (Keyword × Text)) :
    clearDisabled (stateOf host entries) =
      configMeaning host entries := by
  rw [clearDisabled_eq _ rfl rfl]
  rfl

/- A decoded timeout is positive, and so is the default. -/
theorem tunnelMeaning_timeoutSecs
    (entries : List (Keyword × Text)) :
    (tunnelMeaning entries).timeoutSecs ≠ 0 := by
  simp only [tunnelMeaning, lastDecoded]
  cases hLast :
      (Bindings.lastValue (· == .devTunnelTimeout)
        entries).bind parseTunnelTimeout with
  | none => decide
  | some secs =>
      rcases Option.bind_eq_some_iff.mp hLast with
        ⟨value, _, hParse⟩
      have hPositive := (Option.filter_eq_some_iff.mp hParse).2
      intro hZero
      simp only [Option.getD_some] at hZero
      rw [hZero] at hPositive
      cases hPositive

/- A decoded id is valid, and there is none by default. -/
theorem tunnelMeaning_id
    (entries : List (Keyword × Text)) :
    (tunnelMeaning entries).id.any
      (fun id => !validTunnelId id) = false := by
  simp only [tunnelMeaning, lastDecoded]
  cases hLast :
      (Bindings.lastValue (· == .devTunnelId) entries).bind
        (fun value => (decodeId value).map some) with
  | none => rfl
  | some id =>
      rcases Option.bind_eq_some_iff.mp hLast with
        ⟨value, _, hDecode⟩
      cases hValid : validTunnelId value with
      | false => simp [decodeId, hValid] at hDecode
      | true =>
          simp only [decodeId, hValid, if_true,
            Option.map_some, Option.some.injEq] at hDecode
          subst hDecode
          simp [hValid]

/- The checks of `validate_dev_tunnel`, all at once. -/
theorem validateDevTunnel_ok_iff
    (config : Config) :
    config.validateDevTunnel = .ok () ↔
      config.devTunnel.timeoutSecs ≠ 0 ∧
        config.devTunnel.id.any
          (fun id => !validTunnelId id) = false ∧
        config.devTunnel.labels.all Config.validLabel =
          true ∧
        config.devTunnel.labels.eraseDups.length ≤ 100 := by
  have hAll :
      config.devTunnel.labels.any
          (fun l => !Config.validLabel l) = true ↔
        ¬ config.devTunnel.labels.all Config.validLabel =
          true := by
    rw [List.all_eq_not_any_not]
    simp
  -- A failed check gives an error and contradicts its part.
  have hRefuses :
      ∀ {message : Text} {checks : Prop}, ¬ checks →
        ((.error (.config message) : Except Error Unit) =
            .ok () ↔ checks) := by
    intro message checks hNot
    constructor
    · intro hEqual
      cases hEqual
    · intro hChecks
      exact absurd hChecks hNot
  unfold Config.validateDevTunnel
  dsimp only
  split
  · next hZero => exact hRefuses fun hChecks => hChecks.1 hZero
  · next hTimeout =>
      split
      · next hId =>
          apply hRefuses
          rintro ⟨_, hNone, _⟩
          rw [hNone] at hId
          cases hId
      · next hId =>
          split
          · next hLabels =>
              apply hRefuses
              rintro ⟨_, _, hGood, _⟩
              exact hAll.mp hLabels hGood
          · next hLabels =>
              have hGood := not_not.mp
                (fun hNot => hLabels (hAll.mpr hNot))
              split
              · next hMany =>
                  apply hRefuses
                  rintro ⟨_, _, _, hFew⟩
                  omega
              · next hFew =>
                  exact ⟨fun _ =>
                    ⟨hTimeout, Bool.eq_false_iff.mpr hId,
                      hGood, by omega⟩, fun _ => rfl⟩

/- Only labels can fail the validation at the end. -/
theorem validateDevTunnel_meaning
    (host : Host)
    (entries : List (Keyword × Text)) :
    (configMeaning host entries).validateDevTunnel =
        .ok () ↔
      labelsValid entries = true := by
  rw [validateDevTunnel_ok_iff, labelsValid, Bool.and_eq_true,
    decide_eq_true_eq]
  constructor
  · rintro ⟨_, _, hLabels, hFew⟩
    exact ⟨hLabels, hFew⟩
  · rintro ⟨hLabels, hFew⟩
    exact ⟨tunnelMeaning_timeoutSecs entries,
      tunnelMeaning_id entries, hLabels, hFew⟩

/- The loop over a text whose entries are all valid. -/
theorem foldlM_valid
    (host : Host)
    {input : Text}
    (hValid :
      ∀ entry ∈ directives input, entryValid entry = true) :
    (Text.lines input).zipIdx.foldlM (parseLine host)
        ParseState.initial =
      .ok (stateOf host (directives input)) := by
  have hLoop :=
    (foldlM_stateOf host (Text.lines input).zipIdx []).1
  rw [List.zipIdx_map_fst] at hLoop
  exact hLoop hValid

theorem foldlM_invalid
    (host : Host)
    {input : Text}
    (hInvalid :
      ∃ entry ∈ directives input, entryValid entry = false) :
    ∃ error,
      (Text.lines input).zipIdx.foldlM (parseLine host)
        ParseState.initial = .error error := by
  have hLoop :=
    (foldlM_stateOf host (Text.lines input).zipIdx []).2
  rw [List.zipIdx_map_fst] at hLoop
  exact hLoop hInvalid

/- What `parse` accepts, and what it makes of it. -/
theorem parse_ok_iff
    (host : Host)
    (input : Text)
    (config : Config) :
    parse host input = .ok config ↔
      Acceptable (directives input) ∧
        config = configMeaning host (directives input) := by
  by_cases hValid :
      ∀ entry ∈ directives input, entryValid entry = true
  · simp only [parse, foldlM_valid host hValid,
      Except.bind_ok_iff]
    constructor
    · rintro ⟨st, hSt, _, hLabels, hConfig⟩
      cases hSt
      rw [clearDisabled_stateOf] at hLabels hConfig
      exact ⟨⟨hValid,
        (validateDevTunnel_meaning host _).mp hLabels⟩,
        (Except.ok.inj hConfig).symm⟩
    · rintro ⟨⟨_, hLabels⟩, rfl⟩
      refine ⟨_, rfl, (), ?_, ?_⟩
      · rw [clearDisabled_stateOf]
        exact (validateDevTunnel_meaning host _).mpr hLabels
      · rw [clearDisabled_stateOf]
  · constructor
    · intro hParse
      rw [not_forall] at hValid
      rcases hValid with ⟨entry, hEntry⟩
      rw [Classical.not_imp, Bool.not_eq_true] at hEntry
      rcases foldlM_invalid host ⟨entry, hEntry⟩ with
        ⟨error, hError⟩
      simp only [parse, hError] at hParse
      cases hParse
    · rintro ⟨⟨hAll, _⟩, _⟩
      exact absurd hAll hValid

/- `parse` fails on all other texts. -/
theorem parse_error_iff
    (host : Host)
    (input : Text) :
    (∃ error, parse host input = .error error) ↔
      ¬ Acceptable (directives input) := by
  constructor
  · rintro ⟨error, hError⟩ hAcceptable
    have hOk := (parse_ok_iff host input _).mpr
      ⟨hAcceptable, rfl⟩
    rw [hError] at hOk
    cases hOk
  · intro hNot
    cases hParse : parse host input with
    | error error => exact ⟨error, rfl⟩
    | ok config =>
        exact absurd ((parse_ok_iff host input config).mp
          hParse).1 hNot

end SshdConfig

end Sshdt

------------------------------------------------------------
-- Entries Without Effect
------------------------------------------------------------

namespace Sshdt

namespace SshdConfig

/- The keywords that the meaning asks about. -/
def recognised : Keyword → Bool
  | .subsystem => false
  | .other _ => false
  | _ => true

section Filter

variable {keep : Keyword → Bool}
variable (entries : List (Keyword × Text))

/- The entries whose keywords are kept. -/
def keeping
    (keep : Keyword → Bool)
    (entries : List (Keyword × Text)) :
    List (Keyword × Text) :=
  entries.filter fun entry => keep entry.1

theorem values_keeping
    {keyword : Keyword → Bool}
    (hKeep : ∀ key, keyword key = true → keep key = true) :
    Bindings.values keyword (keeping keep entries) =
      Bindings.values keyword entries :=
  Bindings.values_filter fun entry => hKeep entry.1

theorem lastDecoded_keeping
    {α : Type}
    {keyword : Keyword → Bool}
    {decode : Text → Option α}
    {fallback : α}
    (hKeep : ∀ key, keyword key = true → keep key = true) :
    lastDecoded keyword decode (keeping keep entries)
        fallback =
      lastDecoded keyword decode entries fallback := by
  rw [lastDecoded, lastDecoded, keeping,
    Bindings.lastValue_filter fun entry => hKeep entry.1]

theorem any_keeping
    {p : Keyword × Text → Bool}
    (hKeep : ∀ entry, p entry = true → keep entry.1 = true) :
    (keeping keep entries).any p = entries.any p := by
  rw [keeping, List.any_filter]
  congr 1
  funext entry
  cases hEntry : p entry with
  | false => simp
  | true => simp [hKeep entry hEntry]

/- A kept keyword, as a predicate that is asked about. -/
theorem keep_of_beq
    {keyword : Keyword}
    (hKeep : keep keyword = true) :
    ∀ key, (key == keyword) = true → keep key = true := by
  intro key hKey
  rw [beq_iff_eq.mp hKey]
  exact hKeep

/-
  Every field but the two that the toggles govern, when all
  other keywords that matter are kept.
-/
theorem configMeaning_keeping
    (host : Host)
    (hKeep :
      ∀ key, recognised key = true →
        isAuthToggle key = false → keep key = true) :
    configMeaning host (keeping keep entries) =
      { configMeaning host entries with
        allowAnonymous := !(keeping keep entries).any decidesAuth
        authorizedKeys :=
          if pubkeyDisabledBy (keeping keep entries) then
            []
          else
            allWords .authorizedKeysFile entries } := by
  have hOne :
      ∀ keyword, recognised keyword = true →
        isAuthToggle keyword = false →
          ∀ key, (key == keyword) = true →
            keep key = true := by
    intro keyword hRecognised hToggle
    exact keep_of_beq (hKeep keyword hRecognised hToggle)
  have hShell :
      ∀ key : Keyword,
        (key == .shell || key == .forceCommand) = true →
          keep key = true := by
    intro key hKey
    rw [Bool.or_eq_true] at hKey
    rcases hKey with hShell | hForce
    · exact hOne .shell rfl rfl key hShell
    · exact hOne .forceCommand rfl rfl key hForce
  have hMentions :
      mentions .acceptEnv (keeping keep entries) =
        mentions .acceptEnv entries :=
    any_keeping entries fun entry hEntry =>
      hOne .acceptEnv rfl rfl entry.1 hEntry
  have hWords :
      ∀ keyword, recognised keyword = true →
        isAuthToggle keyword = false →
          allWords keyword (keeping keep entries) =
            allWords keyword entries := by
    intro keyword hRecognised hToggle
    rw [allWords, allWords,
      values_keeping entries (hOne keyword hRecognised hToggle)]
  simp only [configMeaning, tunnelMeaning, hMentions,
    hWords .acceptEnv rfl rfl,
    hWords .authorizedKeysFile rfl rfl,
    values_keeping entries (hOne .hostKey rfl rfl),
    values_keeping entries (hOne .devTunnelLabel rfl rfl),
    lastDecoded_keeping entries hShell,
    lastDecoded_keeping entries (hOne .port rfl rfl),
    lastDecoded_keeping entries (hOne .listenAddress rfl rfl),
    lastDecoded_keeping entries
      (hOne .allowTcpForwarding rfl rfl),
    lastDecoded_keeping entries
      (hOne .loginGraceTime rfl rfl),
    lastDecoded_keeping entries (hOne .maxStartups rfl rfl),
    lastDecoded_keeping entries (hOne .banner rfl rfl),
    lastDecoded_keeping entries
      (hOne .devTunnelEnable rfl rfl),
    lastDecoded_keeping entries (hOne .devTunnelBin rfl rfl),
    lastDecoded_keeping entries (hOne .devTunnelId rfl rfl),
    lastDecoded_keeping entries
      (hOne .devTunnelAutoCreate rfl rfl),
    lastDecoded_keeping entries
      (hOne .devTunnelTimeout rfl rfl)]

/- Dropping entries that are never refused. -/
theorem acceptable_keeping
    (hKeep :
      ∀ key, recognised key = true →
        isAuthToggle key = false → keep key = true) :
    Acceptable (keeping keep entries) ↔
      Acceptable entries := by
  have hDropped :
      ∀ entry : Keyword × Text, keep entry.1 = false →
        entryValid entry = true := by
    rintro ⟨key, value⟩ hDropped
    by_cases hRecognised : recognised key = true
    · by_cases hToggle : isAuthToggle key = false
      · rw [hKeep key hRecognised hToggle] at hDropped
        cases hDropped
      · cases key <;>
          first | rfl | exact absurd rfl hToggle
    · cases key <;> first | rfl | exact absurd rfl hRecognised
  have hLabels :
      labelsValid (keeping keep entries) =
        labelsValid entries := by
    unfold labelsValid
    rw [values_keeping entries
      (keep_of_beq (hKeep .devTunnelLabel rfl rfl))]
  unfold Acceptable
  rw [hLabels]
  refine and_congr_left fun _ => ?_
  constructor
  · intro hAll entry hMem
    cases hKept : keep entry.1 with
    | false => exact hDropped entry hKept
    | true =>
        exact hAll entry (List.mem_filter.mpr ⟨hMem, hKept⟩)
  · intro hAll entry hMem
    exact hAll entry (List.mem_of_mem_filter hMem)

end Filter

/- Deciding entries are toggles, and toggles are kept. -/
theorem configMeaning_recognised
    (host : Host)
    (entries : List (Keyword × Text)) :
    configMeaning host (keeping recognised entries) =
      configMeaning host entries := by
  have hDecides :
      (keeping recognised entries).any decidesAuth =
        entries.any decidesAuth := by
    apply any_keeping
    rintro ⟨key, value⟩ hDecides
    cases key <;> first | rfl | cases hDecides
  have hDisables :
      pubkeyDisabledBy (keeping recognised entries) =
        pubkeyDisabledBy entries := by
    apply any_keeping
    rintro ⟨key, value⟩ hDisables
    cases key <;> first | rfl | cases hDisables
  rw [configMeaning_keeping entries host
    (fun _ hRecognised _ => hRecognised), hDecides, hDisables]
  rfl

theorem acceptable_recognised
    (entries : List (Keyword × Text)) :
    Acceptable (keeping recognised entries) ↔
      Acceptable entries :=
  acceptable_keeping entries (fun _ hRecognised _ => hRecognised)

/- Without toggles nothing is decided or disabled. -/
theorem configMeaning_untoggled
    (host : Host)
    (entries : List (Keyword × Text)) :
    configMeaning host
        (keeping (fun key => !isAuthToggle key) entries) =
      { configMeaning host entries with
        allowAnonymous := true
        authorizedKeys :=
          allWords .authorizedKeysFile entries } := by
  have hNone :
      ∀ p : Keyword × Text → Bool,
        (∀ entry, p entry = true →
          isAuthToggle entry.1 = true) →
          (keeping (fun key => !isAuthToggle key)
            entries).any p = false := by
    intro p hToggles
    rw [List.any_eq_false]
    intro entry hMem hEntry
    have hKept : (!isAuthToggle entry.1) = true :=
      (List.mem_filter.mp hMem).2
    rw [hToggles entry hEntry] at hKept
    cases hKept
  have hDecides :=
    hNone decidesAuth fun entry hDecides =>
      (Bool.and_eq_true _ _ ▸ hDecides).1
  have hDisables :
      pubkeyDisabledBy
          (keeping (fun key => !isAuthToggle key) entries) =
        false := by
    apply hNone disablesPubkey
    rintro ⟨key, value⟩ hDisables
    cases key <;> first | rfl | cases hDisables
  rw [configMeaning_keeping entries host
    (fun _ _ hToggle => by rw [hToggle]; rfl), hDecides,
    hDisables]
  rfl

/- Texts that agree on what is recognised parse alike. -/
theorem parse_toOption_congr
    (host : Host)
    {input input' : Text}
    (hSame :
      directives input' =
        keeping recognised (directives input)) :
    (parse host input').toOption =
      (parse host input).toOption := by
  cases hParse : parse host input with
  | ok config =>
      have hOther : parse host input' = .ok config := by
        rw [parse_ok_iff, hSame, acceptable_recognised,
          configMeaning_recognised, ← parse_ok_iff]
        exact hParse
      rw [hOther]
  | error error =>
      have hOther :
          ∃ error', parse host input' = .error error' := by
        rw [parse_error_iff, hSame, acceptable_recognised,
          ← parse_error_iff]
        exact ⟨error, hParse⟩
      rcases hOther with ⟨error', hOther⟩
      rw [hOther]
      rfl

/-
  `parse` is the meaning of the entries: what it makes of an
  accepted text, which texts it refuses, that entries with
  any other keyword do nothing, and that the authentication
  toggles reach only anonymous access and the key files.
-/
theorem parse_meaning
    (host : Host)
    (input : Text) :
    (∀ config, parse host input = .ok config →
      config = configMeaning host (directives input)) ∧
    ((∃ error, parse host input = .error error) ↔
      (∃ entry ∈ directives input,
          entryValid entry = false) ∨
        labelsValid (directives input) = false) ∧
    (∀ input',
      directives input' =
          keeping recognised (directives input) →
        (parse host input').toOption =
          (parse host input).toOption) ∧
    (∀ input' config,
      directives input' =
          keeping (fun key => !isAuthToggle key)
            (directives input) →
        parse host input = .ok config →
          parse host input' = .ok { config with
            allowAnonymous := true
            authorizedKeys :=
              allWords .authorizedKeysFile
                (directives input) }) := by
  refine ⟨?_, ?_, ?_, ?_⟩
  · intro config hParse
    exact ((parse_ok_iff host input config).mp hParse).2
  · rw [parse_error_iff, Acceptable, not_and_or, not_forall]
    simp only [Classical.not_imp, Bool.not_eq_true]
  · intro input' hSame
    exact parse_toOption_congr host hSame
  · intro input' config hSame hParse
    rcases (parse_ok_iff host input config).mp hParse with
      ⟨hAcceptable, rfl⟩
    rw [parse_ok_iff, hSame]
    refine ⟨?_, (configMeaning_untoggled host _).symm⟩
    exact (acceptable_keeping _ (fun _ _ hToggle => by
      rw [hToggle]; rfl)).mpr hAcceptable

end SshdConfig

end Sshdt
