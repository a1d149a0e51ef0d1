import Sshdt.Config.Basic
import Sshdt.Lib.Bindings
import Sshdt.Lib.Json
import Sshdt.Lib.Script

/-
  Setting up a hosted tunnel (`attempt` in
  `src/devtunnel/host.rs`).

  An attempt is a script: its questions are the argument
  lists that it starts the `devtunnel` program with, and a
  reply is all that the process does until the attempt is
  through with it. The JSON reader is a parameter. What the
  attempt only logs is left out.

  Key definitions include:
    * `ProcessRun`
    * `command`
    * `notFound`
    * `hasPort`
    * `missingLabels`
    * `attempt`
    * `Permitted`

  Key theorems include:
    * `missingLabels_spec`
    * `attempt_permitted`
-/

------------------------------------------------------------
-- Processes And Commands
------------------------------------------------------------

namespace Sshdt

namespace DevTunnel

/- Where a line of output comes from. -/
inductive Stream where
  | stdout
  | stderr
  deriving DecidableEq, Repr

/- `ProcessEvent`. -/
inductive ProcessEvent where
  | line (stream : Stream) (line : Text)
  | exited (success : Bool) (code : Option Int)
  deriving DecidableEq, Repr

/-
  What becomes of a process that is started: it cannot be
  started, or it gives some events, after which the setup
  deadline passes or the events end.
-/
inductive ProcessRun where
  | spawnFails
  | gives (events : List ProcessEvent) (timedOut : Bool)
  deriving DecidableEq, Repr

/- `Output`. -/
structure Output where
  success : Bool
  code : Option Int
  stdout : Text
  stderr : Text
  deriving DecidableEq, Repr

/-
  The errors of an attempt. `cliFailed` is `Dev Tunnel CLI
  failed with code {code:?}: {text}`, its text sanitized;
  `loginRequired` is `login required; run devtunnel user
  login under the SSH server account`.
-/
inductive AttemptError where
  | spawnFails
  | timedOut
  | outputExceedsLimit
  | noExitStatus
  | loginRequired
  | cliFailed (code : Option Int) (text : Text)
  | invalidJson (context : Text)
  | incompatibleProtocol (port : UInt16)
  | lacksPort (id : Text) (port : UInt16)
  | portMissing (port : UInt16)
  | labelsMissing (id : Text)
  | hostTimedOut
  | hostExited (code : Option Int)
  | hostEnded
  | noId
  deriving DecidableEq, Repr

/- A script over the processes that an attempt starts. -/
abbrev Cli (α : Type) :=
  Script (List Text) ProcessRun AttemptError α

/- One line of output added to what was collected. -/
def pushLine
    (target line : Text) : Option Text :=
  if target.asBytes.length + line.asBytes.length >
      1024 * 1024 then
    none
  else
    some (target ++ line ++ ['\n'])

/- The event loop of `command`. -/
def collect
    (timedOut : Bool) :
    Text → Text → List ProcessEvent →
      Except AttemptError Output
  | _, _, [] =>
      .error (if timedOut then .timedOut else .noExitStatus)
  | stdout, stderr, .exited success code :: _ =>
      .ok { success, code, stdout, stderr }
  | stdout, stderr, .line .stdout line :: events =>
      match pushLine stdout line with
      | none => .error .outputExceedsLimit
      | some stdout => collect timedOut stdout stderr events
  | stdout, stderr, .line .stderr line :: events =>
      match pushLine stderr line with
      | none => .error .outputExceedsLimit
      | some stderr => collect timedOut stdout stderr events

/- What `command` makes of a process. -/
def ProcessRun.output : ProcessRun → Except AttemptError Output
  | .spawnFails => .error .spawnFails
  | .gives events timedOut => collect timedOut [] [] events

/- A script that goes on with a result. -/
def ofExcept
    {α : Type} : Except AttemptError α → Cli α
  | .ok a => .done a
  | .error e => .fail e

/- `command`. -/
def command
    (args : List Text) : Cli Output :=
  .ask args fun run => ofExcept run.output

end DevTunnel

end Sshdt

------------------------------------------------------------
-- Reading Replies
------------------------------------------------------------

namespace Sshdt

namespace DevTunnel

/- `not_found`. -/
def notFound
    (output : Output) : Bool :=
  output.code == some 2 &&
    Text.contains "tunnel not found".toList
      (Text.toAsciiLowercase (output.stdout ++ output.stderr))

/- `failure`. -/
def failure
    (output : Output) : AttemptError :=
  let combined := output.stderr ++ [' '] ++ output.stdout
  let lower := Text.toAsciiLowercase combined
  if Text.contains "login".toList lower ||
      Text.contains "not logged".toList lower ||
      Text.contains "unauthorized".toList lower ||
      Text.contains "authentication".toList lower then
    .loginRequired
  else
    .cliFailed output.code combined

/- `tunnel`. -/
def tunnel
    (value : Json) : Json :=
  (value.get "tunnel".toList).getD value

/- The ports that the details of a tunnel list. -/
def ports
    (value : Json) : List Json :=
  (((tunnel value).get "ports".toList).bind
    Json.asArray).getD []

/- The number of a listed port. -/
def portNumber
    (p : Json) : Option UInt64 :=
  (p.get "portNumber".toList).bind Json.asU64

/- The protocol of a listed port. -/
def protocol
    (p : Json) : Option Text :=
  (p.get "protocol".toList).bind Json.asStr

/- `has_port`. -/
def hasPort
    (value : Json)
    (port : UInt16) : Bool :=
  (ports value).any fun p =>
    portNumber p == some port.toUInt64 &&
      protocol p == some "auto".toList

/- The port is listed, with whatever protocol. -/
def listsPort
    (value : Json)
    (port : UInt16) : Bool :=
  (ports value).any fun p =>
    portNumber p == some port.toUInt64

/- The label is among the labels of the tunnel. -/
def hasLabel
    (value : Json)
    (label : Text) : Bool :=
  (((tunnel value).get "labels".toList).bind
    Json.asArray).any fun labels =>
      labels.any fun item => item.asStr == some label

/- The loop body of `missing_labels`. -/
def missingTurn
    (value : Json)
    (missing : List Text)
    (label : Text) : List Text :=
  if !hasLabel value label && !missing.contains label then
    missing ++ [label]
  else
    missing

/- `missing_labels`. -/
def missingLabels
    (config : DevTunnelConfig)
    (value : Json) : List Text :=
  config.labels.foldl (missingTurn value) []

end DevTunnel

end Sshdt

------------------------------------------------------------
-- The Attempt
------------------------------------------------------------

namespace Sshdt

namespace DevTunnel

def userShowArgs : List Text :=
  ["user".toList, "show".toList, "--json".toList]

def showArgs
    (id : Text) : List Text :=
  ["show".toList, id, "--json".toList]

def createArgs
    (id : Text) : List Text :=
  ["create".toList, id, "--json".toList]

def portCreateArgs
    (id : Text)
    (port : UInt16) : List Text :=
  ["port".toList, "create".toList, id, "-p".toList,
    Text.ofNat port.toNat, "--protocol".toList,
    "auto".toList, "--json".toList]

def updateArgs
    (id : Text)
    (labels : List Text) : List Text :=
  ["update".toList, id] ++
    (labels.flatMap fun label =>
      ["--add-labels".toList, label]) ++
    ["--json".toList]

def hostArgs
    (id : Text) : List Text :=
  ["host".toList, id]

variable (fromStr : Text → Option Json)

/- `serde_json::from_str`, with the context of its error. -/
def parseJson
    (text context : Text) : Cli Json :=
  match fromStr text with
  | none => .fail (.invalidJson context)
  | some value => .done value

/- The login check. -/
def checkLogin : Cli Unit := do
  let user ← command userShowArgs
  if !user.success then
    .fail (failure user)
  else
    let account ← parseJson fromStr user.stdout
      "invalid Dev Tunnel login response".toList
    if (account.get "status".toList).bind Json.asStr ≠
        some "Logged in".toList then
      .fail .loginRequired
    else
      .done ()

/- A `show` that has to succeed, with its details. -/
def showDetails
    (id context : Text) : Cli Json := do
  let shown ← command (showArgs id)
  if !shown.success then
    .fail (failure shown)
  else
    parseJson fromStr shown.stdout context

/- The details of the tunnel, which may be created first. -/
def ensureTunnel
    (config : DevTunnelConfig)
    (id : Text) : Cli Json := do
  let shown ← command (showArgs id)
  if shown.success then
    parseJson fromStr shown.stdout
      "invalid Dev Tunnel details".toList
  else if !notFound shown || !config.autoCreate then
    .fail (failure shown)
  else
    -- A failed creation may mean a concurrent creator.
    let _created ← command (createArgs id)
    showDetails fromStr id
      "invalid Dev Tunnel details".toList

/- The details with the SSH port, which may be created. -/
def ensurePort
    (config : DevTunnelConfig)
    (id : Text)
    (port : UInt16)
    (value : Json) : Cli Json :=
  if hasPort value port then
    .done value
  else if listsPort value port then
    .fail (.incompatibleProtocol port)
  else if !config.autoCreate then
    .fail (.lacksPort id port)
  else do
    let _created ← command (portCreateArgs id port)
    let value ← showDetails fromStr id
      "invalid Dev Tunnel port details".toList
    if !hasPort value port then
      .fail (.portMissing port)
    else
      .done value

/- The labels, which are added when some are missing. -/
def ensureLabels
    (config : DevTunnelConfig)
    (id : Text)
    (value : Json) : Cli Unit :=
  let missing := missingLabels config value
  if missing.isEmpty then
    .done ()
  else do
    let updated ← command (updateArgs id missing)
    if !updated.success then
      .fail (failure updated)
    else
      let value ← showDetails fromStr id
        "invalid Dev Tunnel label details".toList
      if !(missingLabels config value).isEmpty then
        .fail (.labelsMissing id)
      else
        .done ()

/- The loop that waits for the host process. -/
def waitReady
    (timedOut : Bool) :
    List ProcessEvent → Except AttemptError Unit
  | [] => .error (if timedOut then .hostTimedOut else .hostEnded)
  | .exited _ code :: _ => .error (.hostExited code)
  | .line _ line :: events =>
      if Text.contains
          "Ready to accept connections for tunnel:".toList
          line then
        .ok ()
      else
        waitReady timedOut events

/- Starting `host`. -/
def startHost
    (id : Text) : Cli Unit :=
  .ask (hostArgs id) fun run =>
    match run with
    | .spawnFails => .fail .spawnFails
    | .gives events timedOut =>
        ofExcept (waitReady timedOut events)

/-
  `attempt`. It is only called with an id; its `unwrap`
  would panic otherwise.
-/
def attempt
    (config : DevTunnelConfig)
    (port : UInt16) : Cli Unit :=
  match config.id with
  | none => .fail .noId
  | some id => do
      checkLogin fromStr
      let value ← ensureTunnel fromStr config id
      let value ← ensurePort fromStr config id port value
      ensureLabels fromStr config id value
      startHost id

end DevTunnel

end Sshdt

------------------------------------------------------------
-- Missing Labels
------------------------------------------------------------

namespace Sshdt

namespace DevTunnel

/-
  The list holds exactly the configured labels that the
  tunnel does not have, each once and in configured order.
-/
structure MissingExactly
    (config : DevTunnelConfig)
    (value : Json)
    (labels : List Text) : Prop where
  exact' :
    ∀ label, label ∈ labels ↔
      label ∈ config.labels ∧ hasLabel value label = false
  once : labels.Nodup
  ordered : labels.Sublist config.labels

/- The loop of `missing_labels` over the first labels. -/
theorem foldl_missingTurn
    (value : Json)
    (labels : List Text) :
    (∀ label, label ∈ labels.foldl (missingTurn value) [] ↔
        label ∈ labels ∧ hasLabel value label = false) ∧
      (labels.foldl (missingTurn value) []).Nodup ∧
      (labels.foldl (missingTurn value) []).Sublist
        labels := by
  induction labels using List.reverseRecOn with
  | nil => simp
  | append_singleton labels label ih =>
      rcases ih with ⟨hMem, hOnce, hOrdered⟩
      rw [List.foldl_append, List.foldl_cons, List.foldl_nil]
      by_cases hAdds :
          hasLabel value label = false ∧
            label ∉ labels.foldl (missingTurn value) []
      · rw [missingTurn, if_pos (by simpa using hAdds)]
        refine ⟨fun other => ?_, ?_, ?_⟩
        · rw [List.mem_append, List.mem_append, hMem,
            List.mem_singleton]
          constructor
          · rintro (⟨hOld, hLacks⟩ | rfl)
            · exact ⟨Or.inl hOld, hLacks⟩
            · exact ⟨Or.inr rfl, hAdds.1⟩
          · rintro ⟨hOld | rfl, hLacks⟩
            · exact Or.inl ⟨hOld, hLacks⟩
            · exact Or.inr rfl
        · rw [List.nodup_append]
          refine ⟨hOnce, by simp, ?_⟩
          intro other hOld new hNew hSame
          rw [hSame, List.mem_singleton.mp hNew] at hOld
          exact hAdds.2 hOld
        · exact hOrdered.append (List.Sublist.refl _)
      · rw [missingTurn, if_neg (by simpa using hAdds)]
        refine ⟨fun other => ?_, hOnce,
          hOrdered.trans (List.sublist_append_left _ _)⟩
        rw [hMem, List.mem_append, List.mem_singleton]
        constructor
        · rintro ⟨hOld, hLacks⟩
          exact ⟨Or.inl hOld, hLacks⟩
        · rintro ⟨hOld | rfl, hLacks⟩
          · exact ⟨hOld, hLacks⟩
          · by_contra hNot
            refine hAdds ⟨hLacks, fun hIn => ?_⟩
            exact hNot ((hMem other).mp hIn)

theorem missingLabels_spec
    (config : DevTunnelConfig)
    (value : Json) :
    MissingExactly config value
      (missingLabels config value) := by
  rcases foldl_missingTurn value config.labels with
    ⟨hMem, hOnce, hOrdered⟩
  exact ⟨hMem, hOnce, hOrdered⟩

/- Nothing is missing when every label is there. -/
theorem hasLabel_of_missingLabels_nil
    {config : DevTunnelConfig}
    {value : Json}
    (hNone : (missingLabels config value).isEmpty = true) :
    ∀ label ∈ config.labels, hasLabel value label = true := by
  intro label hMem
  by_contra hLacks
  have hMissing :=
    ((missingLabels_spec config value).exact' label).mpr
      ⟨hMem, by simpa using hLacks⟩
  rw [List.isEmpty_iff.mp hNone] at hMissing
  cases hMissing

end DevTunnel

end Sshdt

------------------------------------------------------------
-- What An Attempt May Start
------------------------------------------------------------

namespace Sshdt

namespace DevTunnel

/- What an attempt has started so far, with the replies. -/
abbrev History := List (List Text × ProcessRun)

/- The last reply to a command. -/
def latest
    (args : List Text)
    (h : History) : Option ProcessRun :=
  Bindings.lastValue (fun asked => asked == args) h

variable (fromStr : Text → Option Json)

/- The reply is a success whose output is this value. -/
def Gives
    (run : ProcessRun)
    (value : Json) : Prop :=
  ∃ output,
    run.output = .ok output ∧ output.success = true ∧
      fromStr output.stdout = some value

/- The latest `show` succeeded with these details. -/
def Details
    (id : Text)
    (h : History)
    (value : Json) : Prop :=
  ∃ run,
    latest (showArgs id) h = some run ∧
      Gives fromStr run value

/- A login check reported `Logged in`. -/
def LoggedIn
    (h : History) : Prop :=
  ∃ run account,
    (userShowArgs, run) ∈ h ∧ Gives fromStr run account ∧
      (account.get "status".toList).bind Json.asStr =
        some "Logged in".toList

/- Some `show` listed the port with protocol auto. -/
def PortSeen
    (id : Text)
    (port : UInt16)
    (h : History) : Prop :=
  ∃ run value,
    (showArgs id, run) ∈ h ∧ Gives fromStr run value ∧
      ∃ p ∈ ports value,
        portNumber p = some port.toUInt64 ∧
          protocol p = some "auto".toList

/-
  The commands that an attempt may start after a history:
  those that only look, and the four others under their
  conditions.
-/
inductive Permitted
    (config : DevTunnelConfig)
    (port : UInt16)
    (id : Text)
    (h : History) : List Text → Prop
  | userShow : Permitted config port id h userShowArgs
  | show' : Permitted config port id h (showArgs id)
  | create
      (run : ProcessRun)
      (output : Output)
      (hAuto : config.autoCreate = true)
      (hLatest : latest (showArgs id) h = some run)
      (hOutput : run.output = .ok output)
      (hFailed : output.success = false)
      (hCode : output.code = some 2)
      (hText :
        "tunnel not found".toList <:+:
          Text.toAsciiLowercase
            (output.stdout ++ output.stderr)) :
      Permitted config port id h (createArgs id)
  | portCreate
      (value : Json)
      (hAuto : config.autoCreate = true)
      (hDetails : Details fromStr id h value)
      (hUnlisted :
        ∀ p ∈ ports value,
          portNumber p ≠ some port.toUInt64) :
      Permitted config port id h (portCreateArgs id port)
  | update
      (value : Json)
      (labels : List Text)
      (hDetails : Details fromStr id h value)
      (hMissing : MissingExactly config value labels) :
      Permitted config port id h (updateArgs id labels)
  | host
      (value : Json)
      (hLogin : LoggedIn fromStr h)
      (hPort : PortSeen fromStr id port h)
      (hDetails : Details fromStr id h value)
      (hLabels :
        ∀ label ∈ config.labels,
          hasLabel value label = true) :
      Permitted config port id h (hostArgs id)

end DevTunnel

end Sshdt

------------------------------------------------------------
-- Every Run Of An Attempt
------------------------------------------------------------

namespace Sshdt

namespace DevTunnel

variable {fromStr : Text → Option Json}
variable {config : DevTunnelConfig}
variable {port : UInt16}
variable {id : Text}
variable {h : History}

theorem latest_snoc_self
    (args : List Text)
    (run : ProcessRun) :
    latest args (h ++ [(args, run)]) = some run := by
  simp [latest]

theorem notFound_iff
    {output : Output} :
    notFound output = true ↔
      output.code = some 2 ∧
        "tunnel not found".toList <:+:
          Text.toAsciiLowercase
            (output.stdout ++ output.stderr) := by
  rw [notFound, Bool.and_eq_true, Text.contains_iff,
    beq_iff_eq]

/- What once was said stays in the history. -/
def Lasting
    (K : History → Prop) : Prop :=
  ∀ h exchange, K h → K (h ++ [exchange])

theorem lasting_loggedIn :
    Lasting (LoggedIn fromStr) := by
  rintro h exchange ⟨run, account, hMem, hRest⟩
  exact ⟨run, account, List.mem_append_left _ hMem, hRest⟩

theorem lasting_portSeen :
    Lasting (PortSeen fromStr id port) := by
  rintro h exchange ⟨run, value, hMem, hRest⟩
  exact ⟨run, value, List.mem_append_left _ hMem, hRest⟩

theorem Lasting.and
    {K L : History → Prop}
    (hK : Lasting K)
    (hL : Lasting L) :
    Lasting fun h => K h ∧ L h := by
  rintro h exchange ⟨hFirst, hSecond⟩
  exact ⟨hK h exchange hFirst, hL h exchange hSecond⟩

/- The abbreviation of the rule's first argument. -/
abbrev Checked
    {α : Type}
    (fromStr : Text → Option Json)
    (config : DevTunnelConfig)
    (port : UInt16)
    (id : Text)
    (T : History → α → Prop)
    (h : History)
    (s : Cli α) : Prop :=
  Script.All (Permitted fromStr config port id) T h s

/- A permitted command, by what its output allows next. -/
theorem checked_command
    {args : List Text}
    {T : History → Output → Prop}
    (hPermitted : Permitted fromStr config port id h args)
    (hThen :
      ∀ run output, run.output = .ok output →
        T (h ++ [(args, run)]) output) :
    Checked fromStr config port id T h (command args) := by
  refine ⟨hPermitted, fun run => ?_⟩
  cases hOutput : run.output with
  | error e =>
      simp only [hOutput, ofExcept, Script.All]
  | ok output =>
      simp only [hOutput, ofExcept, Script.All]
      exact hThen run output hOutput

theorem checked_parseJson
    {text context : Text}
    {T : History → Json → Prop}
    (hThen : ∀ value, fromStr text = some value → T h value) :
    Checked fromStr config port id T h
      (parseJson fromStr text context) := by
  unfold parseJson
  split
  · trivial
  · next value hValue => exact hThen value hValue

theorem checked_checkLogin :
    Checked fromStr config port id
      (fun h _ => LoggedIn fromStr h) h
      (checkLogin fromStr) := by
  refine Script.All.bind
    (T := fun h user =>
      ∃ run, (userShowArgs, run) ∈ h ∧ run.output = .ok user)
    (checked_command .userShow fun run user hOutput =>
      ⟨run, by simp, hOutput⟩) ?_
  rintro h user ⟨run, hMem, hOutput⟩
  split
  · trivial
  · next hSuccess =>
      refine Script.All.bind
        (T := fun h' account =>
          h' = h ∧ fromStr user.stdout = some account)
        (checked_parseJson fun account hAccount =>
          ⟨rfl, hAccount⟩) ?_
      rintro h' account ⟨rfl, hAccount⟩
      split
      · trivial
      · next hStatus =>
          exact ⟨run, account, hMem,
            ⟨user, hOutput, by simpa using hSuccess,
              hAccount⟩,
            not_not.mp hStatus⟩

/- A `show` that has to succeed leaves its details. -/
theorem checked_showDetails
    {K : History → Prop}
    {context : Text}
    (hLasting : Lasting K)
    (hKnown : K h) :
    Checked fromStr config port id
      (fun h value => K h ∧ Details fromStr id h value) h
      (showDetails fromStr id context) := by
  refine Script.All.bind
    (T := fun h shown =>
      K h ∧ ∃ run, latest (showArgs id) h = some run ∧
        run.output = .ok shown)
    (checked_command .show' fun run shown hOutput =>
      ⟨hLasting _ _ hKnown, run, latest_snoc_self _ _,
        hOutput⟩) ?_
  rintro h shown ⟨hKnown, run, hLatest, hOutput⟩
  split
  · trivial
  · next hSuccess =>
      exact checked_parseJson fun value hValue =>
        ⟨hKnown, run, hLatest, shown, hOutput,
          by simpa using hSuccess, hValue⟩

theorem checked_ensureTunnel
    {K : History → Prop}
    (hLasting : Lasting K)
    (hKnown : K h) :
    Checked fromStr config port id
      (fun h value => K h ∧ Details fromStr id h value) h
      (ensureTunnel fromStr config id) := by
  refine Script.All.bind
    (T := fun h shown =>
      K h ∧ ∃ run, latest (showArgs id) h = some run ∧
        run.output = .ok shown)
    (checked_command .show' fun run shown hOutput =>
      ⟨hLasting _ _ hKnown, run, latest_snoc_self _ _,
        hOutput⟩) ?_
  rintro h shown ⟨hKnown, run, hLatest, hOutput⟩
  split
  · next hSuccess =>
      exact checked_parseJson fun value hValue =>
        ⟨hKnown, run, hLatest, shown, hOutput, hSuccess,
          hValue⟩
  · next hFailed =>
      split
      · trivial
      · next hAllowed =>
          simp only [Bool.or_eq_true, Bool.not_eq_true',
            not_or, Bool.not_eq_false] at hAllowed
          rcases hAllowed with ⟨hNotFound, hAuto⟩
          rcases notFound_iff.mp hNotFound with ⟨hCode, hText⟩
          refine Script.All.bind (T := fun h _ => K h)
            (checked_command
              (.create run shown hAuto hLatest hOutput
                (by simpa using hFailed) hCode hText)
              fun run output _ => hLasting _ _ hKnown) ?_
          intro h _ hKnown
          exact checked_showDetails hLasting hKnown

/- The port check in the words of the listing. -/
theorem hasPort_iff
    {value : Json} :
    hasPort value port = true ↔
      ∃ p ∈ ports value,
        portNumber p = some port.toUInt64 ∧
          protocol p = some "auto".toList := by
  rw [hasPort, List.any_eq_true]
  constructor
  · rintro ⟨p, hMem, hPort⟩
    rw [Bool.and_eq_true, beq_iff_eq, beq_iff_eq] at hPort
    exact ⟨p, hMem, hPort⟩
  · rintro ⟨p, hMem, hPort⟩
    refine ⟨p, hMem, ?_⟩
    rw [Bool.and_eq_true, beq_iff_eq, beq_iff_eq]
    exact hPort

/- Details with the port are a `show` that has seen it. -/
theorem Details.portSeen
    {value : Json}
    (hDetails : Details fromStr id h value)
    (hPort : hasPort value port = true) :
    PortSeen fromStr id port h := by
  rcases hDetails with ⟨run, hLatest, hGives⟩
  refine ⟨run, value, ?_, hGives, hasPort_iff.mp hPort⟩
  rcases Bindings.mem_of_lastValue hLatest with
    ⟨asked, hMem, hAsked⟩
  rwa [beq_iff_eq.mp hAsked] at hMem

theorem checked_ensurePort
    {K : History → Prop}
    {value : Json}
    (hLasting : Lasting K)
    (hKnown : K h)
    (hDetails : Details fromStr id h value) :
    Checked fromStr config port id
      (fun h value =>
        (K h ∧ PortSeen fromStr id port h) ∧
          Details fromStr id h value) h
      (ensurePort fromStr config id port value) := by
  unfold ensurePort
  split
  · next hPort =>
      exact ⟨⟨hKnown, hDetails.portSeen hPort⟩, hDetails⟩
  · split
    · trivial
    · next hUnlisted =>
        split
        · trivial
        · next hAuto =>
            rw [Bool.not_eq_true', Bool.not_eq_false]
              at hAuto
            refine Script.All.bind (T := fun h _ => K h)
              (checked_command
                (.portCreate value hAuto hDetails ?_)
                fun run output _ => hLasting _ _ hKnown) ?_
            · intro p hMem hNumber
              apply hUnlisted
              rw [listsPort, List.any_eq_true]
              exact ⟨p, hMem, beq_iff_eq.mpr hNumber⟩
            · intro h _ hKnown
              refine Script.All.bind
                (checked_showDetails hLasting hKnown) ?_
              rintro h value ⟨hKnown, hDetails⟩
              split
              · trivial
              · next hPort =>
                  rw [Bool.not_eq_true', Bool.not_eq_false]
                    at hPort
                  exact ⟨⟨hKnown, hDetails.portSeen hPort⟩,
                    hDetails⟩

theorem checked_ensureLabels
    {K : History → Prop}
    {value : Json}
    (hLasting : Lasting K)
    (hKnown : K h)
    (hDetails : Details fromStr id h value) :
    Checked fromStr config port id
      (fun h _ =>
        K h ∧ ∃ value, Details fromStr id h value ∧
          ∀ label ∈ config.labels,
            hasLabel value label = true) h
      (ensureLabels fromStr config id value) := by
  unfold ensureLabels
  dsimp only
  split
  · next hNone =>
      exact ⟨hKnown, value, hDetails,
        hasLabel_of_missingLabels_nil hNone⟩
  · refine Script.All.bind (T := fun h _ => K h)
      (checked_command
        (.update value _ hDetails
          (missingLabels_spec config value))
        fun run output _ => hLasting _ _ hKnown) ?_
    intro h updated hKnown
    split
    · trivial
    · refine Script.All.bind
        (checked_showDetails hLasting hKnown) ?_
      rintro h value ⟨hKnown, hDetails⟩
      split
      · trivial
      · next hNone =>
          rw [Bool.not_eq_true', Bool.not_eq_false] at hNone
          exact ⟨hKnown, value, hDetails,
            hasLabel_of_missingLabels_nil hNone⟩

theorem checked_startHost
    {T : History → Unit → Prop}
    (hPermitted :
      Permitted fromStr config port id h (hostArgs id))
    (hThen : ∀ h, T h ()) :
    Checked fromStr config port id T h (startHost id) := by
  refine ⟨hPermitted, fun run => ?_⟩
  cases run with
  | spawnFails => trivial
  | gives events timedOut =>
      cases hReady : waitReady timedOut events with
      | error e => simp only [hReady, ofExcept, Script.All]
      | ok ready =>
          simp only [hReady, ofExcept, Script.All]
          exact hThen _

/- Every command of an attempt is permitted when it starts. -/
theorem checked_attempt
    (hId : config.id = some id) :
    Checked fromStr config port id (fun _ _ => True) []
      (attempt fromStr config port) := by
  unfold attempt
  rw [hId]
  refine Script.All.bind checked_checkLogin ?_
  intro h _ hLogin
  refine Script.All.bind
    (checked_ensureTunnel lasting_loggedIn hLogin) ?_
  rintro h value ⟨hLogin, hDetails⟩
  refine Script.All.bind
    (checked_ensurePort lasting_loggedIn hLogin hDetails) ?_
  rintro h value ⟨hKnown, hDetails⟩
  refine Script.All.bind
    (checked_ensureLabels
      (lasting_loggedIn.and lasting_portSeen) hKnown
      hDetails) ?_
  rintro h _ ⟨⟨hLogin, hPort⟩, value, hDetails, hLabels⟩
  exact checked_startHost
    (.host value hLogin hPort hDetails hLabels)
    (fun _ => trivial)

/-
  For every configuration, port and sequence of replies, the
  next command of an attempt is one that may be started
  after what was replied so far.
-/
theorem attempt_permitted
    (fromStr : Text → Option Json)
    (config : DevTunnelConfig)
    (port : UInt16)
    (replies : List ProcessRun)
    (args : List Text)
    (hNext :
      (attempt fromStr config port).pending replies =
        some args) :
    ∃ id,
      config.id = some id ∧
        Permitted fromStr config port id
          ((attempt fromStr config port).history replies)
          args := by
  cases hId : config.id with
  | none =>
      simp only [attempt, hId, Script.pending] at hNext
      cases hNext
  | some id =>
      refine ⟨id, rfl, ?_⟩
      have hAll := (checked_attempt hId).pending hNext
      rwa [List.nil_append] at hAll

/- The outputs of a first setup, as their JSON is read. -/
def sampleJson
    (text : Text) : Option Json :=
  if text = "\x7b\"status\":\"Logged in\"\x7d\n".toList then
    some (.object
      [("status".toList, .string "Logged in".toList)])
  else if text = "\x7b\"tunnel\":\x7b\"ports\":[]\x7d\x7d\n".toList then
    some (.object
      [("tunnel".toList, .object
        [("ports".toList, .array [])])])
  else
    none

/- A process that prints a line and exits. -/
def printed
    (stream : Stream)
    (line : String)
    (code : Int) : ProcessRun :=
  .gives
    [.line stream line.toList,
      .exited (code == 0) (some code)]
    false

/- A tunnel that is not there yet and is created. -/
def firstSetup : List ProcessRun :=
  [printed .stdout "\x7b\"status\":\"Logged in\"\x7d" 0,
    printed .stderr "Tunnel not found." 2,
    printed .stdout "\x7b\x7d" 0,
    printed .stdout "\x7b\"tunnel\":\x7b\"ports\":[]\x7d\x7d" 0]

def autoCreating : DevTunnelConfig :=
  { DevTunnelConfig.default with
    enabled := true
    id := some "my-tunnel".toList
    autoCreate := true }

theorem firstSetup_creates_port :
    (attempt sampleJson autoCreating 2222).pending
        (firstSetup.take 2) =
      some (createArgs "my-tunnel".toList) ∧
    (attempt sampleJson autoCreating 2222).pending
        firstSetup =
      some (portCreateArgs "my-tunnel".toList 2222) ∧
    ∃ id,
      autoCreating.id = some id ∧
        Permitted sampleJson autoCreating 2222 id
          ((attempt sampleJson autoCreating 2222).history
            firstSetup)
          (portCreateArgs "my-tunnel".toList 2222) := by
  refine ⟨by decide +kernel, by decide +kernel, ?_⟩
  exact attempt_permitted sampleJson autoCreating 2222
    firstSetup _ (by decide +kernel)

end DevTunnel

end Sshdt
