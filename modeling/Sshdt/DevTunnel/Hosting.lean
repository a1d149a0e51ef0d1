import Sshdt.DevTunnel.Connector
import Sshdt.DevTunnel.Host
import Sshdt.DevTunnel.Logs
import Sshdt.DevTunnel.Network

/-
  The task that hosts a tunnel (`start` in
  `src/devtunnel/host.rs`).

  The task takes the lock of its process, checks the
  configuration and takes the lock of the tunnel. Then it
  attempts to host the tunnel again and again: an attempt
  that failed and a host process that ended are followed by
  a pause, which a change of the network may cut short
  unless the failure is a lasting one. The task ends when
  the server does.

  The results of the two locks, the replies of the processes
  that an attempt starts and the time are data of the steps.

  Key definitions include:
    * `isPermanent`
    * `Hosting`
    * `Hosting.step`
    * `Hosting.Inv`
    * `Hosting.Begins`
    * `Spaced`

  Key theorems include:
    * `isPermanent_of_lasts`
    * `Spaced.three`
    * `Hosting.step_inv`
    * `Hosting.step_begins`
    * `Hosting.Rests.step`
-/

------------------------------------------------------------
-- Reasons
------------------------------------------------------------

/- `IpAddr::is_unspecified`. -/
def IpAddr.isUnspecified : IpAddr → Bool
| .v4 addr => addr == 0
| .v6 addr => addr == 0

namespace Sshdt

namespace DevTunnel

/- `{code:?}` of an exit code. -/
def debugCode : Option Int → Text
| none => "None".toList
| some code =>
    "Some(".toList ++ (if code < 0 then ['-'] else []) ++
      Text.ofNat code.natAbs ++ ")".toList

/-
  `to_string` of the error of an attempt. `spawnFailure` is
  the text of the error of a process that did not start.
-/
def AttemptError.reason
    (spawnFailure : Text) : AttemptError → Text
| .spawnFails => spawnFailure
| .timedOut => "Dev Tunnel setup timed out".toList
| .outputExceedsLimit =>
    "Dev Tunnel command output exceeds limit".toList
| .noExitStatus =>
    "Dev Tunnel command ended without exit status".toList
| .loginRequired =>
    ("login required; run devtunnel user login under the " ++
      "SSH server account").toList
| .cliFailed code text =>
    "Dev Tunnel CLI failed with code ".toList ++
      debugCode code ++ ": ".toList ++ sanitize text
| .invalidJson context => context
| .incompatibleProtocol port =>
    "tunnel port ".toList ++ Text.ofNat port.toNat ++
      (" has an incompatible protocol; update it " ++
        "explicitly with devtunnel").toList
| .lacksPort id port =>
    "tunnel ".toList ++ id ++ " lacks port ".toList ++
      Text.ofNat port.toNat ++
      (" with protocol auto; DevTunnelAutoCreate is " ++
        "disabled").toList
| .portMissing port =>
    "tunnel port ".toList ++ Text.ofNat port.toNat ++
      " is missing or has an incompatible protocol".toList
| .labelsMissing id =>
    "tunnel ".toList ++ id ++
      " is missing configured labels after update".toList
| .hostTimedOut =>
    "Dev Tunnel host startup timed out".toList
| .hostExited code =>
    ("Dev Tunnel host exited before readiness with " ++
      "code ").toList ++ debugCode code
| .hostEnded =>
    "Dev Tunnel host ended before readiness".toList
| .noId => []

/- The parts that make a failure a lasting one. -/
def permanentParts : List Text :=
  ["login required".toList, "DevTunnelAutoCreate".toList,
    "Tunnel not found".toList, "No such file".toList,
    "not found".toList, "incompatible protocol".toList]

/- `permanent`. -/
def isPermanent
    (reason : Text) : Bool :=
  permanentParts.any fun part => Text.contains part reason

/- The errors that the user has to do something about. -/
def AttemptError.lasts : AttemptError → Bool
| .loginRequired | .incompatibleProtocol _ | .lacksPort _ _
| .portMissing _ => true
| _ => false

theorem isPermanent_of_infix
    {part reason : Text}
    (hPart : part ∈ permanentParts)
    (hInfix : part <:+: reason) :
    isPermanent reason = true :=
  List.any_eq_true.mpr
    ⟨part, hPart, Text.contains_iff.mpr hInfix⟩

/- Each of them is found by its text. -/
theorem isPermanent_of_lasts
    {e : AttemptError}
    (hLasts : e.lasts = true)
    (spawnFailure : Text) :
    isPermanent (e.reason spawnFailure) = true := by
  cases e with
  | loginRequired =>
      refine isPermanent_of_infix (by decide +kernel :
        "login required".toList ∈ permanentParts) ?_
      change "login required".toList <:+:
        AttemptError.loginRequired.reason []
      decide +kernel
  | incompatibleProtocol port =>
      refine isPermanent_of_infix (by decide +kernel :
        "incompatible protocol".toList ∈ permanentParts) ?_
      exact List.infix_append_of_infix_right
        (by decide +kernel)
  | lacksPort id port =>
      refine isPermanent_of_infix (by decide +kernel :
        "DevTunnelAutoCreate".toList ∈ permanentParts) ?_
      exact List.infix_append_of_infix_right
        (by decide +kernel)
  | portMissing port =>
      refine isPermanent_of_infix (by decide +kernel :
        "incompatible protocol".toList ∈ permanentParts) ?_
      exact List.infix_append_of_infix_right
        (by decide +kernel)
  | _ => cases hLasts

end DevTunnel

end Sshdt

------------------------------------------------------------
-- The Task And Its Steps
------------------------------------------------------------

namespace Sshdt

namespace DevTunnel

/- The state that a status names. -/
inductive TunnelState where
  | skipped
  | starting
  | connected
  | retrying
  | stopped
  deriving DecidableEq, Repr

/- What `status` writes, next to the process id. -/
structure Status where
  id : Option Text
  state : TunnelState
  reason : Text
  deriving DecidableEq, Repr

/- Why an attempt began when it did. -/
inductive StartCause where
  | first
  | permanent
  | timed
  | early
  deriving DecidableEq, Repr

/- The beginning of an attempt. -/
structure Start where
  time : Instant
  cause : StartCause
  deriving DecidableEq, Repr

/-
  Where the task is. In `attempting` the attempt has got
  these replies; `closing` is `shutdown_logged`, and says
  whether the server is stopping.
-/
inductive HostPhase where
  | opening
  | checking
  | skipped
  | attempting (replies : List ProcessRun)
  | pausing (permanent : Bool) (until' : Instant)
  | connected
  | closing (stopping : Bool)
  | ended
  deriving DecidableEq, Repr

/- What `start` is given, and what it runs on. -/
structure HostSetup where
  fromStr : Text → Option Json
  config : DevTunnelConfig
  addr : SocketAddr
  hasSource : Bool

/-
  The task. `child` are the arguments of the process that it
  owns, `last` and `written` the last status and their
  number, and `starts` the attempts so far, newest first.
-/
structure Hosting where
  phase : HostPhase
  child : Option (List Text)
  retry : Retry
  network : NetworkChanges
  channel : Watch Instant
  cancelled : Bool
  last : Option Status
  written : Nat
  starts : List Start

/- How opening the log and taking the first lock went. -/
inductive Opening where
  | fails
  | held
  | locked
  deriving DecidableEq, Repr

/- How taking the lock of the tunnel went. -/
inductive TunnelLock where
  | fails (reason : Text)
  | held
  | locked
  deriving DecidableEq, Repr

/-
  What happens to the task. `stop` is the drop or the use of
  the sender of `HostHandle`, and `cancel` the branch of a
  `select!` that saw it. In `panics` an attempt finds that
  its deadline is out of range, which ends the task.
-/
inductive HostEvent where
  | stop
  | notify
  | opened (result : Opening)
  | checked (lock : TunnelLock)
  | panics
  | spawn
  | reply (run : ProcessRun) (spawnFailure : Text)
  | wake
  | pass (result : Pass)
  | child (event : Option ProcessEvent)
  | closed
  | cancel

namespace HostSetup

/-
  The checks before the lock of the tunnel: its id, or the
  id and the reason of the status that is written.
-/
def checked
    (c : HostSetup) : Except (Option Text × Text) Text :=
  match c.config.id.filter validTunnelId with
  | none =>
      .error (none, ("DevTunnelId must contain an " ++
        "explicit valid tunnel ID").toList)
  | some id =>
      if c.addr.ip.isLoopback = false ∧
          c.addr.ip.isUnspecified = false then
        .error (some id, ("SSH listener must accept " ++
          "loopback connections").toList)
      else if c.config.timeoutSecs = 0 then
        .error (some id, ("DevTunnelTimeout must be " ++
          "greater than zero").toList)
      else
        .ok id

/- The script of an attempt. -/
def script
    (c : HostSetup) : Cli Unit :=
  attempt c.fromStr c.config c.addr.port

end HostSetup

namespace Hosting

/- The task of a server that starts. -/
def spawned
    (c : HostSetup) : Hosting where
  phase := if c.config.enabled then .opening else .ended
  child := none
  retry := .default
  network :=
    { events := none, pending := none, nextAllowed := 0 }
  channel := Watch.channel 0
  cancelled := false
  last := none
  written := 0
  starts := []

/- `status`. -/
def writeStatus
    (s : Hosting)
    (id : Option Text)
    (state : TunnelState)
    (reason : Text) : Hosting :=
  { s with
    last := some { id, state, reason := sanitize reason }
    written := s.written + 1 }

/- The task goes to wait for the end of the server. -/
def skip
    (s : Hosting)
    (id : Option Text)
    (reason : Text) : Hosting :=
  { s.writeStatus id .skipped reason with phase := .skipped }

/- The head of the loop. -/
def beginAttempt
    (c : HostSetup)
    (now : Instant)
    (cause : StartCause)
    (s : Hosting) : Hosting :=
  { s.writeStatus c.config.id .starting
      "checking tunnel configuration".toList with
    network := s.network.beginWait s.channel
    phase := .attempting []
    starts := { time := now, cause } :: s.starts }

/- The lock of the tunnel is held: the loop begins. -/
def beginLoop
    (c : HostSetup)
    (now : Instant)
    (s : Hosting) : Hosting :=
  beginAttempt c now .first
    { s with
      retry := .default
      channel := Watch.channel now
      network :=
        { events := if c.hasSource then some 0 else none
          pending := none
          nextAllowed := now } }

/- The pause after a failure. -/
def pause
    (now : Instant)
    (permanent : Bool)
    (s : Hosting) : Hosting :=
  { s with
    child := none
    retry := (s.retry.failed now).2
    phase :=
      .pausing permanent
        (now +
          if permanent then
            max (s.retry.failed now).1 (Duration.fromSecs 60)
          else
            (s.retry.failed now).1) }

/- An attempt has failed. -/
def attemptFailed
    (c : HostSetup)
    (now : Instant)
    (reason : Text)
    (s : Hosting) : Hosting :=
  pause now (isPermanent reason)
    (s.writeStatus c.config.id
      (if isPermanent reason then .skipped else .retrying)
      reason)

/- The tunnel is ready. -/
def ready
    (c : HostSetup)
    (now : Instant)
    (s : Hosting) : Hosting :=
  { s.writeStatus c.config.id .connected
      "tunnel ready".toList with
    retry := s.retry.ready now
    phase := .connected }

/- The task is over; what it owned is dropped. -/
def stopped
    (c : HostSetup)
    (s : Hosting) : Hosting :=
  { s.writeStatus c.config.id .stopped
      "SSH server stopped".toList with
    child := none
    phase := .ended }

/- The reply of the process that the attempt asked for. -/
def replied
    (c : HostSetup)
    (now : Instant)
    (replies : List ProcessRun)
    (spawnFailure : Text)
    (s : Hosting) : Hosting :=
  match c.script.outcome replies with
  | none =>
      { s with child := none, phase := .attempting replies }
  | some (.ok _) => s.ready c now
  | some (.error e) =>
      s.attemptFailed c now (e.reason spawnFailure)

/- An event of the host process. -/
def childEvent
    (c : HostSetup)
    (s : Hosting) : Option ProcessEvent → Hosting
| some (.line _ _) => s
| some (.exited _ code) =>
    { s.writeStatus c.config.id .retrying
        ("host process exited with code ".toList ++
          debugCode code) with
      network := s.network.beginWait s.channel
      phase := .closing false }
| none =>
    { s with
      network := s.network.beginWait s.channel
      phase := .closing false }


/- The process of a reply was there. -/
def started : ProcessRun → Bool
| .spawnFails => false
| .gives _ _ => true

/- One step at a time of the clock. -/
def step
    (c : HostSetup)
    (now : Instant)
    (s : Hosting) : HostEvent → Option Hosting
| .stop => some { s with cancelled := true }
| .notify =>
    some
      { s with channel := s.channel.sendModify fun _ => now }
| .opened result =>
    if s.phase = .opening then
      some
        { s with
          phase :=
            if result = .locked then .checking else .ended }
    else
      none
| .checked lock =>
    if s.phase = .checking then
      match c.checked with
      | .error (id, reason) => some (s.skip id reason)
      | .ok id =>
          match lock with
          | .fails reason => some (s.skip (some id) reason)
          | .held =>
              some (s.skip (some id)
                ("another sshdt process already hosts " ++
                  "this tunnel").toList)
          | .locked => some (s.beginLoop c now)
    else
      none
| .panics =>
    if s.phase = .attempting [] ∧ s.child = none then
      some { s with phase := .ended }
    else
      none
| .spawn =>
    match s.phase, s.child with
    | .attempting replies, none =>
        (c.script.pending replies).map fun args =>
          { s with child := some args }
    | _, _ => none
| .reply run spawnFailure =>
    match s.phase with
    | .attempting replies =>
        if s.child.isSome = started run then
          some
            (s.replied c now (replies ++ [run]) spawnFailure)
        else
          none
    | _ => none
| .wake =>
    match s.phase with
    | .pausing true until' =>
        if until' ≤ now then
          some (s.beginAttempt c now .permanent)
        else
          none
    | _ => none
| .pass result =>
    match s.phase with
    | .pausing false until' =>
        let selected :=
          s.network.select s.channel now until'
        let s' := { s with network := selected.1 }
        if selected.2 = result then
          match result with
          | .done early =>
              some (s'.beginAttempt c now
                (if early then .early else .timed))
          | _ => some s'
        else
          none
    | _ => none
| .child event =>
    if s.phase = .connected then
      some (s.childEvent c event)
    else
      none
| .closed =>
    match s.phase with
    | .closing true => some (s.stopped c)
    | .closing false => some (s.pause now false)
    | _ => none
| .cancel =>
    if s.cancelled = true then
      match s.phase with
      | .skipped => some { s with phase := .ended }
      | .attempting _ => some (s.stopped c)
      | .pausing _ _ => some (s.stopped c)
      | .connected => some { s with phase := .closing true }
      | _ => none
    else
      none

end Hosting

end DevTunnel

end Sshdt

------------------------------------------------------------
-- What An Attempt Ends With
------------------------------------------------------------

namespace Sshdt

namespace DevTunnel

namespace HostSetup

variable {c : HostSetup}

/- An attempt that succeeded has started a host last. -/
theorem script_host
    {replies : List ProcessRun}
    {args : List Text}
    {run : ProcessRun}
    (hPending : c.script.pending replies = some args)
    (hOutcome :
      c.script.outcome (replies ++ [run]) = some (.ok ())) :
    Hosting.started run = true ∧
      ∃ id, c.config.id = some id ∧ args = hostArgs id := by
  cases hId : c.config.id with
  | none =>
      simp only [script, attempt, hId, Script.pending]
        at hPending
      cases hPending
  | some id =>
      -- Whatever was said before, `startHost` comes last.
      have hAll :
          Script.All (fun _ _ => True)
            (fun h _ =>
              ∃ h' run, Hosting.started run = true ∧
                h = h' ++ [(hostArgs id, run)])
            [] c.script := by
        unfold script attempt
        rw [hId]
        refine Script.All.bind (Script.All.trivial _ _) ?_
        intro h _ _
        refine Script.All.bind (Script.All.trivial _ _) ?_
        intro h _ _
        refine Script.All.bind (Script.All.trivial _ _) ?_
        intro h _ _
        refine Script.All.bind (Script.All.trivial _ _) ?_
        intro h _ _
        refine ⟨True.intro, fun run => ?_⟩
        cases run with
        | spawnFails => exact True.intro
        | gives events timedOut =>
            cases hReady : waitReady timedOut events with
            | error e =>
                simp only [hReady, ofExcept, Script.All]
            | ok ready =>
                simp only [hReady, ofExcept, Script.All]
                exact ⟨h, _, rfl, rfl⟩
      rcases hAll.outcome hOutcome with
        ⟨h', run', hStarted, hLast⟩
      rw [List.nil_append,
        Script.history_concat hPending] at hLast
      have hPair := (List.append_inj' hLast rfl).2
      simp only [List.cons.injEq, Prod.mk.injEq,
        and_true] at hPair
      rcases hPair with ⟨rfl, rfl⟩
      exact ⟨hStarted, id, rfl, rfl⟩

/- The checks let a valid id through. -/
theorem checked_ok
    {id : Text}
    (hChecked : c.checked = .ok id) :
    c.config.id = some id ∧ validTunnelId id = true := by
  unfold checked at hChecked
  split at hChecked
  · cases hChecked
  · rename_i id' hId
    split at hChecked <;> [cases hChecked; skip]
    split at hChecked <;> cases hChecked
    rcases Option.filter_eq_some_iff.mp hId with
      ⟨hId, hValid⟩
    exact ⟨hId, hValid⟩

/- An attempt with an id starts with a question. -/
theorem script_pending
    {id : Text}
    (hId : c.config.id = some id) :
    c.script.pending [] = some userShowArgs := by
  unfold script attempt
  rw [hId]
  rfl

end HostSetup

end DevTunnel

end Sshdt

------------------------------------------------------------
-- The Time Between Attempts
------------------------------------------------------------

namespace Sshdt

namespace DevTunnel

/- The time since the attempt before, at least. -/
def StartCause.gap : StartCause → Duration
| .first => 0
| .permanent => Duration.fromSecs 60
| .timed => Duration.fromSecs 30
| .early => settleTime

/-
  The attempts of a task, newest first. Each keeps the gap
  of its cause, and an early one comes late enough after the
  attempt before the last.
-/
def Spaced : List Start → Prop
| later :: last :: rest =>
    later.cause ≠ .first ∧
      last.time + later.cause.gap ≤ later.time ∧
      (later.cause = .early →
        ∀ before ∈ rest.head?,
          before.time + earlyRetryInterval ≤ later.time) ∧
      Spaced (last :: rest)
| _ => True

theorem Spaced.tail
    {start : Start}
    {starts : List Start}
    (hSpaced : Spaced (start :: starts)) :
    Spaced starts := by
  cases starts with
  | nil => trivial
  | cons last rest => exact hSpaced.2.2.2

/- Attempts do not go back in time. -/
theorem Spaced.pairwise
    {starts : List Start}
    (hSpaced : Spaced starts) :
    starts.Pairwise fun later before =>
      before.time ≤ later.time := by
  induction starts with
  | nil => exact .nil
  | cons later rest ih =>
      have hRest := ih hSpaced.tail
      refine List.pairwise_cons.mpr ⟨?_, hRest⟩
      intro before hMem
      cases rest with
      | nil => cases hMem
      | cons last rest =>
          have hGap :=
            (Nat.le_add_right _ _).trans hSpaced.2.1
          rcases List.mem_cons.mp hMem with rfl | hMem
          · exact hGap
          · exact (List.rel_of_pairwise_cons hRest hMem).trans
              hGap

/- Without a change of the network it is half a minute. -/
theorem Spaced.unchanged
    {starts : List Start}
    {first later : Start}
    (hSpaced : Spaced (later :: starts))
    (hMem : first ∈ starts)
    (hCause : later.cause ≠ .early) :
    first.time + Duration.fromSecs 30 ≤ later.time := by
  cases starts with
  | nil => cases hMem
  | cons last rest =>
      have hLast : first.time ≤ last.time := by
        rcases List.mem_cons.mp hMem with rfl | hMem
        · exact le_rfl
        · exact List.rel_of_pairwise_cons
            hSpaced.tail.pairwise hMem
      have hLong :
          Duration.fromSecs 30 ≤ later.cause.gap := by
        cases hKind : later.cause with
        | first => exact absurd hKind hSpaced.1
        | permanent => decide
        | timed => exact le_rfl
        | early => exact absurd hKind hCause
      exact (Nat.add_le_add hLast hLong).trans hSpaced.2.1

/- The second of two attempts is not the newest. -/
theorem mem_of_sublist
    {α : Type}
    {a b : α}
    {last : α}
    {rest : List α}
    (hSub : [b, a].Sublist (last :: rest)) :
    a ∈ rest := by
  cases hSub with
  | cons _ hSub => exact hSub.subset (by simp)
  | cons_cons _ hSub => exact hSub.subset (by simp)

/- Any three attempts take half a minute at least. -/
theorem Spaced.three
    {starts : List Start}
    {first second third : Start}
    (hSpaced : Spaced starts)
    (hSub : [third, second, first].Sublist starts) :
    first.time + Duration.fromSecs 30 ≤ third.time := by
  induction starts with
  | nil => cases hSub
  | cons later rest ih =>
      cases hSub with
      | cons _ hSub => exact ih hSpaced.tail hSub
      | cons_cons _ hSub =>
          cases rest with
          | nil => cases hSub
          | cons last rest =>
              have hMem := mem_of_sublist hSub
              by_cases hCause : third.cause = .early
              · rcases hSpaced with ⟨_, _, hEarly, hRest⟩
                cases rest with
                | nil => cases hMem
                | cons before rest =>
                    have hSince := hEarly hCause before rfl
                    have hBefore :
                        first.time ≤ before.time := by
                      rcases List.mem_cons.mp hMem with
                        rfl | hMem
                      · exact le_rfl
                      · exact List.rel_of_pairwise_cons
                          hRest.tail.pairwise hMem
                    exact (Nat.add_le_add_right hBefore
                      _).trans hSince
              · exact hSpaced.unchanged
                  (List.mem_cons_of_mem _ hMem) hCause

end DevTunnel

end Sshdt

------------------------------------------------------------
-- The Clock Of A Task
------------------------------------------------------------

namespace Sshdt

namespace DevTunnel

/- A delay and the next one are half a minute at least. -/
theorem Retry.failed_delay
    {retry : Retry}
    (hDelay : Duration.fromSecs 30 ≤ retry.delay)
    (now : Instant) :
    Duration.fromSecs 30 ≤ (retry.failed now).1 ∧
      Duration.fromSecs 30 ≤ (retry.failed now).2.delay := by
  have hFirst :
      Duration.fromSecs 30 ≤ (retry.failed now).1 := by
    simp only [Retry.failed]
    split
    · exact le_rfl
    · exact hDelay
  refine ⟨hFirst, le_min ?_ (by decide)⟩
  exact hFirst.trans (Nat.le_mul_of_pos_right _ (by decide))

/-
  What is known of the attempts of a task and of the times
  that its pauses are made of.
-/
structure Timing
    (now : Instant)
    (starts : List Start)
    (retry : Retry)
    (network : NetworkChanges)
    (channel : Watch Instant) : Prop where
  past : ∀ start ∈ starts.head?, start.time ≤ now
  spaced : Spaced starts
  delay : Duration.fromSecs 30 ≤ retry.delay
  allowed :
    ∀ last before rest, starts = last :: before :: rest →
      before.time + earlyRetryInterval ≤ last.time ∨
        last.time + earlyRetryInterval ≤ network.nextAllowed
  pending :
    ∀ sent, network.pending = some sent →
      ∀ start ∈ starts.head?, start.time ≤ sent
  unread :
    ∀ seen, network.events = some seen →
      seen ≠ channel.version →
        ∀ start ∈ starts.head?, start.time ≤ channel.value

namespace Timing

variable {now : Instant}
variable {starts : List Start}
variable {retry retry' : Retry}
variable {network : NetworkChanges}
variable {channel : Watch Instant}

theorem later
    {now' : Instant}
    (hTiming : Timing now starts retry network channel)
    (hLater : now ≤ now') :
    Timing now' starts retry network channel :=
  { hTiming with
    past := fun start hStart =>
      (hTiming.past start hStart).trans hLater }

/- The retry state may change as long as it waits. -/
theorem setRetry
    (hTiming : Timing now starts retry network channel)
    (hDelay : Duration.fromSecs 30 ≤ retry'.delay) :
    Timing now starts retry' network channel :=
  { hTiming with delay := hDelay }

/- The callback sends the current time. -/
theorem notify
    (hTiming : Timing now starts retry network channel) :
    Timing now starts retry network
      (channel.sendModify fun _ => now) :=
  { hTiming with
    unread := fun _ _ _ start hStart =>
      hTiming.past start hStart }

/- `begin_wait` forgets what was sent before. -/
theorem beginWait
    (hTiming : Timing now starts retry network channel) :
    Timing now starts retry (network.beginWait channel)
      channel where
  past := hTiming.past
  spaced := hTiming.spaced
  delay := hTiming.delay
  allowed := hTiming.allowed
  pending := by simp [NetworkChanges.beginWait]
  unread := by
    intro seen hEvents hUnread
    rcases Option.map_eq_some_iff.mp hEvents with
      ⟨_, _, hSeen⟩
    exact absurd hSeen.symm hUnread

/- A new attempt, under the condition of its cause. -/
theorem start
    {cause : StartCause}
    (hDelay : Duration.fromSecs 30 ≤ retry.delay)
    (hSpaced : Spaced ({ time := now, cause } :: starts))
    (hAllowed :
      ∀ last ∈ starts.head?,
        last.time + earlyRetryInterval ≤ now ∨
          now + earlyRetryInterval ≤ network.nextAllowed) :
    Timing now ({ time := now, cause } :: starts) retry
      (network.beginWait channel) channel where
  past := by
    intro start hStart
    cases hStart
    exact le_rfl
  spaced := hSpaced
  delay := hDelay
  allowed := by
    rintro last before rest hStarts
    cases hStarts
    exact hAllowed before rfl
  pending := by simp [NetworkChanges.beginWait]
  unread := by
    intro seen hEvents hUnread
    rcases Option.map_eq_some_iff.mp hEvents with
      ⟨_, _, hSeen⟩
    exact absurd hSeen.symm hUnread

/- An attempt after a pause of its full length. -/
theorem startAfter
    {cause : StartCause}
    {network' : NetworkChanges}
    (hTiming : Timing now starts retry network channel)
    (hCause : cause = .permanent ∨ cause = .timed)
    (hPause :
      ∀ last ∈ starts.head?, last.time + cause.gap ≤ now) :
    Timing now ({ time := now, cause } :: starts) retry
      (network'.beginWait channel) channel := by
  have hLong : earlyRetryInterval ≤ cause.gap := by
    rcases hCause with rfl | rfl <;> decide
  refine start hTiming.delay ?_ fun last hLast =>
    Or.inl ((Nat.add_le_add_left hLong _).trans
      (hPause last hLast))
  cases starts with
  | nil => trivial
  | cons last rest =>
      refine ⟨?_, hPause last rfl, ?_, hTiming.spaced⟩
      · rcases hCause with rfl | rfl <;> simp
      · rcases hCause with rfl | rfl <;> simp

/- What a pass of `wait_until` does to the times. -/
theorem pass
    {until' : Instant}
    {changes : NetworkChanges}
    {result : Pass}
    (hTiming : Timing now starts retry network channel)
    (hSelects :
      network.Selects channel now until' changes result)
    (hResult : ∀ early, result ≠ .done early) :
    Timing now starts retry changes channel := by
  cases hSelects with
  | deadline hDeadline => exact absurd rfl (hResult false)
  | change hDeadline hEvents hUnread =>
      exact
        { hTiming with
          pending := by
            rintro sent hPending
            cases hPending
            exact hTiming.unread _ hEvents hUnread
          unread := by
            rintro seen hSeen hUnread
            cases hSeen
            exact absurd rfl hUnread }
  | closed hDeadline hEvents hSeen hClosed =>
      exact
        { hTiming with
          unread := by
            rintro seen hSeen
            cases hSeen }
  | early hDeadline hCaughtUp hPending hSettled hAllowed =>
      exact absurd rfl (hResult true)
  | idle hDeadline => exact hTiming

/- An attempt after a change of the network. -/
theorem startEarly
    {until' : Instant}
    {changes : NetworkChanges}
    (hTiming : Timing now starts retry network channel)
    (hSelects :
      network.Selects channel now until' changes
        (.done true)) :
    Timing now ({ time := now, cause := .early } :: starts)
      retry (changes.beginWait channel) channel := by
  cases hSelects with
  | early hDeadline hCaughtUp hPending hSettled hAllowed =>
      refine start hTiming.delay ?_ fun _ _ =>
        Or.inr le_rfl
      cases starts with
      | nil => trivial
      | cons last rest =>
          refine ⟨by simp, ?_, fun _ before hBefore => ?_,
            hTiming.spaced⟩
          · exact (Nat.add_le_add_right
              (hTiming.pending _ hPending last rfl) _).trans
              hSettled
          · cases rest with
            | nil => cases hBefore
            | cons before' rest =>
                cases hBefore
                have hOrder : before.time ≤ last.time :=
                  List.rel_of_pairwise_cons
                    hTiming.spaced.pairwise (by simp)
                rcases hTiming.allowed last before rest rfl with
                  hGap | hGap
                · exact hGap.trans (hTiming.past last rfl)
                · exact (Nat.add_le_add_right hOrder _).trans
                    (hGap.trans hAllowed)

end Timing

end DevTunnel

end Sshdt

------------------------------------------------------------
-- Invariant
------------------------------------------------------------

namespace Sshdt

namespace DevTunnel

/- The task holds the lock of the tunnel. -/
def HostPhase.hosts : HostPhase → Bool
| .attempting _ | .pausing _ _ | .connected | .closing _ =>
    true
| _ => false

/- The cause of an attempt after a full pause. -/
def causeAfter : Bool → StartCause
| true => .permanent
| false => .timed

namespace Hosting

variable {c : HostSetup}
variable {now : Instant}
variable {s t : Hosting}

/- The state that the last status names. -/
def shown
    (s : Hosting) : Option TunnelState :=
  s.last.map Status.state

/-
  What is known in each phase: what the last status says and
  which process the task owns.
-/
def PhaseFits
    (c : HostSetup)
    (s : Hosting) : Prop :=
  match s.phase with
  | .opening | .checking =>
      s.child = none ∧ s.starts = [] ∧ s.shown = none
  | .skipped => s.child = none ∧ s.shown = some .skipped
  | .attempting replies =>
      s.shown = some .starting ∧
        ∃ args, c.script.pending replies = some args ∧
          ∀ owned, s.child = some owned → owned = args
  | .pausing permanent until' =>
      s.child = none ∧
        (∀ start ∈ s.starts.head?,
          start.time + (causeAfter permanent).gap ≤ until') ∧
        (if permanent then s.shown = some .skipped
        else
          s.shown = some .retrying ∨
            s.shown = some .connected)
  | .connected =>
      s.shown = some .connected ∧
        ∃ id, c.config.id = some id ∧
          s.child = some (hostArgs id)
  | .closing stopping =>
      (s.shown = some .connected ∨
          stopping = false ∧ s.shown = some .retrying) ∧
        ∃ id, c.config.id = some id ∧
          s.child = some (hostArgs id)
  | .ended =>
      s.child = none ∧ s.shown ≠ some .connected ∧
        s.shown ≠ some .retrying

structure Inv
    (c : HostSetup)
    (now : Instant)
    (s : Hosting) : Prop where
  timing : Timing now s.starts s.retry s.network s.channel
  tunnel :
    s.phase.hosts = true → ∃ id, c.checked = .ok id
  phase : s.PhaseFits c

theorem spawned_inv
    (c : HostSetup)
    (now : Instant) :
    (spawned c).Inv c now where
  timing :=
    { past := by simp [spawned]
      spaced := trivial
      delay := le_rfl
      allowed := by simp [spawned]
      pending := by simp [spawned]
      unread := by simp [spawned] }
  tunnel := by
    unfold spawned
    split <;> simp [HostPhase.hosts]
  phase := by
    cases hEnabled : c.config.enabled <;>
      simp [PhaseFits, spawned, hEnabled, shown]

theorem Inv.later
    {now' : Instant}
    (hInv : s.Inv c now)
    (hLater : now ≤ now') :
    s.Inv c now' :=
  { hInv with timing := hInv.timing.later hLater }

/- An attempt begins with nothing owned. -/
theorem beginAttempt_inv
    {id : Text}
    {cause : StartCause}
    (hChecked : c.checked = .ok id)
    (hChild : s.child = none)
    (hTiming :
      Timing now ({ time := now, cause } :: s.starts)
        s.retry (s.network.beginWait s.channel) s.channel) :
    (s.beginAttempt c now cause).Inv c now where
  timing := hTiming
  tunnel := fun _ => ⟨id, hChecked⟩
  phase := by
    refine ⟨rfl, userShowArgs,
      HostSetup.script_pending
        (HostSetup.checked_ok hChecked).1, ?_⟩
    intro owned hOwned
    change s.child = some owned at hOwned
    rw [hChild] at hOwned
    cases hOwned

/- A pause after a failure, whose status is written. -/
theorem pause_inv
    {id : Text}
    {permanent : Bool}
    (hChecked : c.checked = .ok id)
    (hTiming :
      Timing now s.starts s.retry s.network s.channel)
    (hShown :
      if permanent then s.shown = some .skipped
      else
        s.shown = some .retrying ∨
          s.shown = some .connected) :
    (s.pause now permanent).Inv c now := by
  have hDelay := Retry.failed_delay hTiming.delay now
  refine
    { timing := hTiming.setRetry hDelay.2
      tunnel := fun _ => ⟨id, hChecked⟩
      phase := ⟨rfl, fun start hStart => ?_, hShown⟩ }
  refine Nat.add_le_add (hTiming.past start hStart) ?_
  cases permanent with
  | true => exact le_max_right _ _
  | false => exact hDelay.1

theorem attemptFailed_inv
    {id reason : Text}
    (hChecked : c.checked = .ok id)
    (hTiming :
      Timing now s.starts s.retry s.network s.channel) :
    (s.attemptFailed c now reason).Inv c now := by
  refine pause_inv hChecked hTiming ?_
  cases hPermanent : isPermanent reason with
  | true => simp [shown, writeStatus]
  | false => simp [shown, writeStatus]

/- A reply leads on, to the pause or to the host process. -/
theorem replied_inv
    {replies : List ProcessRun}
    {run : ProcessRun}
    {spawnFailure : Text}
    (hInv : s.Inv c now)
    (hPhase : s.phase = .attempting replies)
    (hStarted : s.child.isSome = started run) :
    (s.replied c now (replies ++ [run])
      spawnFailure).Inv c now := by
  have hFits := hInv.phase
  rw [PhaseFits, hPhase] at hFits
  rcases hFits with ⟨hShown, args, hPending, hChild⟩
  rcases hInv.tunnel (by rw [hPhase]; rfl) with
    ⟨id, hChecked⟩
  unfold replied
  split
  · rename_i hOutcome
    have hNext :=
      (Script.pending_or_outcome hPending run).resolve_right
        (by simp [hOutcome])
    rcases Option.isSome_iff_exists.mp hNext with
      ⟨args', hPending'⟩
    exact
      { timing := hInv.timing
        tunnel := fun _ => ⟨id, hChecked⟩
        phase := ⟨hShown, args', hPending', by simp⟩ }
  · rename_i hOutcome
    rcases HostSetup.script_host hPending hOutcome with
      ⟨hReady, id', hId', rfl⟩
    refine
      { timing := hInv.timing.setRetry hInv.timing.delay
        tunnel := fun _ => ⟨id, hChecked⟩
        phase := ⟨rfl, id', hId', ?_⟩ }
    -- A host that did not start has not become ready.
    rw [hReady, Option.isSome_iff_exists] at hStarted
    rcases hStarted with ⟨owned, hOwned⟩
    exact hOwned.trans (by rw [hChild owned hOwned])
  · exact attemptFailed_inv hChecked hInv.timing

/- The lock of the tunnel is taken, or the task waits. -/
theorem checked_inv
    {lock : TunnelLock}
    (hInv : s.Inv c now)
    (hStep : s.step c now (.checked lock) = some t) :
    t.Inv c now := by
  simp only [step] at hStep
  split at hStep <;> [rename_i hPhase; cases hStep]
  have hFits := hInv.phase
  rw [PhaseFits, hPhase] at hFits
  rcases hFits with ⟨hChild, hStarts, _⟩
  have hSkip :
      ∀ id reason, (s.skip id reason).Inv c now :=
    fun id reason =>
      { timing := hInv.timing
        tunnel := fun hHosts => by cases hHosts
        phase := ⟨hChild, rfl⟩ }
  split at hStep
  · cases hStep
    exact hSkip _ _
  · rename_i id hChecked
    cases lock with
    | fails reason =>
        cases hStep
        exact hSkip _ _
    | held =>
        cases hStep
        exact hSkip _ _
    | locked =>
        cases hStep
        refine beginAttempt_inv hChecked hChild ?_
        refine Timing.start le_rfl ?_ ?_
        · simp [hStarts, Spaced]
        · simp [hStarts]

/- A wait that ends without a change ends at its deadline. -/
theorem deadline_of_selects
    {network changes : NetworkChanges}
    {channel : Watch Instant}
    {until' : Instant}
    (hSelects :
      network.Selects channel now until' changes
        (.done false)) :
    until' ≤ now := by
  cases hSelects
  assumption

/- A pass of the wait ends the pause or goes on with it. -/
theorem pass_inv
    {result : Pass}
    (hInv : s.Inv c now)
    (hStep : s.step c now (.pass result) = some t) :
    t.Inv c now := by
  simp only [step] at hStep
  split at hStep <;> [rename_i until' hPhase; cases hStep]
  have hFits := hInv.phase
  rw [PhaseFits, hPhase] at hFits
  rcases hFits with ⟨hChild, hPause, hShown⟩
  rcases hInv.tunnel (by rw [hPhase]; rfl) with
    ⟨id, hChecked⟩
  have hSelects := NetworkChanges.select_selects s.network
    s.channel now until'
  split at hStep <;> [rename_i hResult; cases hStep]
  rw [hResult] at hSelects
  have hGoesOn :
      (∀ early, result ≠ .done early) →
        Inv c now
          { s with
            network :=
              (s.network.select s.channel now until').1 } :=
    fun hNot =>
      { timing := hInv.timing.pass hSelects hNot
        tunnel := fun _ => ⟨id, hChecked⟩
        phase := by
          unfold PhaseFits
          simp only [hPhase]
          exact ⟨hChild, hPause, hShown⟩ }
  cases result with
  | again =>
      cases hStep
      exact hGoesOn (by simp)
  | pending =>
      cases hStep
      exact hGoesOn (by simp)
  | done early =>
      cases hStep
      refine beginAttempt_inv hChecked hChild ?_
      cases early with
      | true => exact hInv.timing.startEarly hSelects
      | false =>
          exact hInv.timing.startAfter (Or.inr rfl)
            fun start hStart =>
              (hPause start hStart).trans
                (deadline_of_selects hSelects)

/- Every step keeps the invariant. -/
theorem step_inv
    {e : HostEvent}
    (hInv : s.Inv c now)
    (hStep : s.step c now e = some t) :
    t.Inv c now := by
  cases e with
  | stop =>
      cases hStep
      exact
        { timing := hInv.timing, tunnel := hInv.tunnel
          phase := hInv.phase }
  | notify =>
      cases hStep
      exact
        { timing := hInv.timing.notify
          tunnel := hInv.tunnel, phase := hInv.phase }
  | opened result =>
      simp only [step] at hStep
      split at hStep <;> [rename_i hPhase; cases hStep]
      cases hStep
      have hFits := hInv.phase
      rw [PhaseFits, hPhase] at hFits
      rcases hFits with ⟨hChild, hStarts, hShown⟩
      refine
        { timing := hInv.timing, tunnel := ?_, phase := ?_ }
      · split <;> simp [HostPhase.hosts]
      · by_cases hLocked : result = .locked
        · simp only [PhaseFits, hLocked, if_true]
          exact ⟨hChild, hStarts, hShown⟩
        · simp only [PhaseFits, hLocked, if_false]
          refine ⟨hChild, ?_⟩
          change s.shown ≠ _ ∧ s.shown ≠ _
          simp [hShown]
  | checked lock => exact checked_inv hInv hStep
  | panics =>
      simp only [step] at hStep
      split at hStep <;> [rename_i hPanics; cases hStep]
      cases hStep
      have hFits := hInv.phase
      rw [PhaseFits, hPanics.1] at hFits
      exact
        { timing := hInv.timing
          tunnel := fun hHosts => by cases hHosts
          phase := ⟨hPanics.2, by
            change s.shown ≠ _ ∧ s.shown ≠ _
            simp [hFits.1]⟩ }
  | spawn =>
      simp only [step] at hStep
      split at hStep <;> [rename_i hPhase _; cases hStep]
      rcases Option.map_eq_some_iff.mp hStep with
        ⟨args, hPending, rfl⟩
      have hFits := hInv.phase
      rw [PhaseFits, hPhase] at hFits
      refine
        { timing := hInv.timing, tunnel := hInv.tunnel
          phase := ?_ }
      unfold PhaseFits
      simp only [hPhase]
      exact ⟨hFits.1, args, hPending, fun _ hOwned => by
        cases hOwned
        rfl⟩
  | reply run spawnFailure =>
      simp only [step] at hStep
      split at hStep <;> [rename_i hPhase; cases hStep]
      split at hStep <;> [rename_i hStarted; cases hStep]
      cases hStep
      exact replied_inv hInv hPhase hStarted
  | wake =>
      simp only [step] at hStep
      split at hStep <;> [rename_i until' hPhase; cases hStep]
      split at hStep <;> [rename_i hReady; cases hStep]
      cases hStep
      have hFits := hInv.phase
      rw [PhaseFits, hPhase] at hFits
      rcases hInv.tunnel (by rw [hPhase]; rfl) with
        ⟨id, hChecked⟩
      refine beginAttempt_inv hChecked hFits.1 ?_
      exact hInv.timing.startAfter (Or.inl rfl)
        fun start hStart =>
          (hFits.2.1 start hStart).trans hReady
  | pass result => exact pass_inv hInv hStep
  | child event =>
      simp only [step] at hStep
      split at hStep <;> [rename_i hPhase; cases hStep]
      cases hStep
      have hFits := hInv.phase
      rw [PhaseFits, hPhase] at hFits
      have hTunnel := hInv.tunnel (by rw [hPhase]; rfl)
      rcases event with _ | (_ | ⟨success, code⟩)
      · exact
          { timing := hInv.timing.beginWait
            tunnel := fun _ => hTunnel
            phase := ⟨Or.inl hFits.1, hFits.2⟩ }
      · exact hInv
      · exact
          { timing := hInv.timing.beginWait
            tunnel := fun _ => hTunnel
            phase := ⟨Or.inr ⟨rfl, rfl⟩, hFits.2⟩ }
  | closed =>
      simp only [step] at hStep
      split at hStep
      · cases hStep
        exact
          { timing := hInv.timing
            tunnel := fun hHosts => by cases hHosts
            phase := ⟨rfl, by
              simp [shown, stopped, writeStatus]⟩ }
      · rename_i hPhase
        cases hStep
        have hFits := hInv.phase
        rw [PhaseFits, hPhase] at hFits
        rcases hInv.tunnel (by rw [hPhase]; rfl) with
          ⟨id, hChecked⟩
        refine pause_inv hChecked hInv.timing ?_
        exact hFits.1.symm.imp (fun h => h.2) (fun h => h)
      · cases hStep
  | cancel =>
      simp only [step] at hStep
      split at hStep <;> [skip; cases hStep]
      have hStopped : (s.stopped c).Inv c now :=
        { timing := hInv.timing
          tunnel := fun hHosts => by cases hHosts
          phase := ⟨rfl, by
            simp [shown, stopped, writeStatus]⟩ }
      split at hStep
      · rename_i hPhase
        cases hStep
        have hFits := hInv.phase
        rw [PhaseFits, hPhase] at hFits
        exact
          { timing := hInv.timing
            tunnel := fun hHosts => by cases hHosts
            phase := ⟨hFits.1, by
              change s.shown ≠ _ ∧ s.shown ≠ _
              simp [hFits.2]⟩ }
      · cases hStep
        exact hStopped
      · cases hStep
        exact hStopped
      · rename_i hPhase
        cases hStep
        have hFits := hInv.phase
        rw [PhaseFits, hPhase] at hFits
        exact
          { timing := hInv.timing
            tunnel := fun _ =>
              hInv.tunnel (by rw [hPhase]; rfl)
            phase := ⟨Or.inl hFits.1, hFits.2⟩ }
      · cases hStep

end Hosting

end DevTunnel

end Sshdt

------------------------------------------------------------
-- The Beginning Of An Attempt
------------------------------------------------------------

namespace Sshdt

namespace DevTunnel

namespace Hosting

variable {c : HostSetup}
variable {now : Instant}
variable {s t : Hosting}
variable {e : HostEvent}

/- An attempt begins between two states. -/
def Begins
    (s t : Hosting) : Prop :=
  t.phase = .attempting [] ∧
    ∀ replies, s.phase ≠ .attempting replies

/- No change of the network waits for a pause. -/
def Quiet
    (s : Hosting) : Prop :=
  s.network.pending = none ∧ s.network.CaughtUp s.channel

/- There is no attempt before a time. -/
def Rests
    (until' now : Instant)
    (s : Hosting) : Prop :=
  s.phase = .ended ∨ until' ≤ now ∨
    ∃ later, s.phase = .pausing true later ∧ until' ≤ later

theorem beginWait_quiet
    (network : NetworkChanges)
    (channel : Watch Instant) :
    (network.beginWait channel).pending = none ∧
      (network.beginWait channel).CaughtUp channel := by
  refine ⟨rfl, fun seen hSeen => ?_⟩
  rcases Option.map_eq_some_iff.mp hSeen with ⟨_, _, rfl⟩
  rfl

/- A pass that finds no change leaves none behind. -/
theorem Quiet.select
    {until' : Instant}
    {changes : NetworkChanges}
    {result : Pass}
    (hQuiet : s.Quiet)
    (hSelects :
      s.network.Selects s.channel now until' changes
        result) :
    (changes.pending = none ∧ changes.CaughtUp s.channel) ∧
      result ≠ .done true := by
  cases hSelects with
  | deadline hDeadline => exact ⟨hQuiet, by simp⟩
  | change hDeadline hEvents hUnread =>
      exact absurd (hQuiet.2 _ hEvents) hUnread
  | closed hDeadline hEvents hSeen hClosed =>
      exact ⟨⟨hQuiet.1, by simp [NetworkChanges.CaughtUp]⟩,
        by simp⟩
  | early hDeadline hCaughtUp hPending hSettled hAllowed =>
      rw [hQuiet.1] at hPending
      cases hPending
  | idle hDeadline => exact ⟨hQuiet, by simp⟩

/- It stays quiet until somebody reports a change. -/
theorem Quiet.step
    (hQuiet : s.Quiet)
    (hNotify : e ≠ .notify)
    (hStep : s.step c now e = some t) :
    t.Quiet := by
  cases e with
  | stop =>
      cases hStep
      exact hQuiet
  | notify => exact absurd rfl hNotify
  | opened result =>
      simp only [Hosting.step] at hStep
      split at hStep <;> cases hStep
      exact hQuiet
  | checked lock =>
      simp only [Hosting.step] at hStep
      split at hStep <;> [skip; cases hStep]
      split at hStep
      · cases hStep
        exact hQuiet
      · cases lock with
        | locked =>
            cases hStep
            exact beginWait_quiet _ _
        | _ =>
            cases hStep
            exact hQuiet
  | panics =>
      simp only [Hosting.step] at hStep
      split at hStep <;> cases hStep
      exact hQuiet
  | spawn =>
      simp only [Hosting.step] at hStep
      split at hStep <;> [skip; cases hStep]
      rcases Option.map_eq_some_iff.mp hStep with
        ⟨args, _, rfl⟩
      exact hQuiet
  | reply run spawnFailure =>
      simp only [Hosting.step] at hStep
      split at hStep <;> [skip; cases hStep]
      split at hStep <;> cases hStep
      unfold replied
      split <;> exact hQuiet
  | wake =>
      simp only [Hosting.step] at hStep
      split at hStep <;> [skip; cases hStep]
      split at hStep <;> cases hStep
      exact beginWait_quiet _ _
  | pass result =>
      simp only [Hosting.step] at hStep
      split at hStep <;> [skip; cases hStep]
      split at hStep <;> [skip; cases hStep]
      split at hStep <;> cases hStep
      · exact beginWait_quiet _ _
      · exact (hQuiet.select
          (NetworkChanges.select_selects _ _ _ _)).1
  | child event =>
      simp only [Hosting.step] at hStep
      split at hStep <;> cases hStep
      rcases event with _ | (_ | _)
      · exact beginWait_quiet _ _
      · exact hQuiet
      · exact beginWait_quiet _ _
  | closed =>
      simp only [Hosting.step] at hStep
      split at hStep <;> cases hStep <;> exact hQuiet
  | cancel =>
      simp only [Hosting.step] at hStep
      split at hStep <;> [skip; cases hStep]
      split at hStep <;> cases hStep <;> exact hQuiet

/-
  The three ways to begin an attempt: the first one, one
  after a lasting failure and one after a wait.
-/
inductive Beginning
    (c : HostSetup)
    (now : Instant)
    (s t : Hosting) : StartCause → Prop
| first
    (hPhase : s.phase = .checking)
    (hBegins : t = s.beginLoop c now) :
    Beginning c now s t .first
| permanent
    {until' : Instant}
    (hPhase : s.phase = .pausing true until')
    (hDue : until' ≤ now)
    (hBegins : t = s.beginAttempt c now .permanent) :
    Beginning c now s t .permanent
| waited
    {until' : Instant}
    {early : Bool}
    (hPhase : s.phase = .pausing false until')
    (hResult :
      (s.network.select s.channel now until').2 =
        .done early)
    (hBegins :
      t = beginAttempt c now
        (if early then .early else .timed)
        { s with
          network :=
            (s.network.select s.channel now until').1 }) :
    Beginning c now s t (if early then .early else .timed)

/- Every step begins an attempt so, or begins none. -/
theorem step_begins
    (hStep : s.step c now e = some t) :
    (∃ cause, Beginning c now s t cause) ∨
      t.starts = s.starts ∧ ¬ s.Begins t := by
  have hStays :
      t.phase = s.phase → t.starts = s.starts →
        t.starts = s.starts ∧ ¬ s.Begins t :=
    fun hPhase hStarts => ⟨hStarts, fun hBegins =>
      hBegins.2 [] (hPhase.symm.trans hBegins.1)⟩
  have hOther :
      t.phase ≠ .attempting [] → t.starts = s.starts →
        t.starts = s.starts ∧ ¬ s.Begins t :=
    fun hPhase hStarts => ⟨hStarts, fun hBegins =>
      hPhase hBegins.1⟩
  cases e with
  | stop =>
      cases hStep
      exact Or.inr (hStays rfl rfl)
  | notify =>
      cases hStep
      exact Or.inr (hStays rfl rfl)
  | opened result =>
      simp only [step] at hStep
      split at hStep <;> cases hStep
      exact Or.inr (hOther (by simp only; split <;> simp) rfl)
  | checked lock =>
      simp only [step] at hStep
      split at hStep <;> [rename_i hPhase; cases hStep]
      split at hStep
      · cases hStep
        exact Or.inr (hOther (by simp [skip]) rfl)
      · cases lock with
        | locked =>
            cases hStep
            exact Or.inl ⟨_, .first hPhase rfl⟩
        | _ =>
            cases hStep
            exact Or.inr (hOther (by simp [skip]) rfl)
  | panics =>
      simp only [step] at hStep
      split at hStep <;> cases hStep
      exact Or.inr (hOther (by simp) rfl)
  | spawn =>
      simp only [step] at hStep
      split at hStep <;> [skip; cases hStep]
      rcases Option.map_eq_some_iff.mp hStep with
        ⟨args, _, rfl⟩
      exact Or.inr (hStays rfl rfl)
  | reply run spawnFailure =>
      simp only [step] at hStep
      split at hStep <;> [rename_i hPhase; cases hStep]
      split at hStep <;> cases hStep
      refine Or.inr ⟨?_, fun hBegins => hBegins.2 _ hPhase⟩
      unfold replied
      split <;> rfl
  | wake =>
      simp only [step] at hStep
      split at hStep <;> [rename_i hPhase; cases hStep]
      split at hStep <;> [rename_i hDue; cases hStep]
      cases hStep
      exact Or.inl ⟨_, .permanent hPhase hDue rfl⟩
  | pass result =>
      simp only [step] at hStep
      split at hStep <;> [rename_i hPhase; cases hStep]
      split at hStep <;> [rename_i hResult; cases hStep]
      split at hStep <;> cases hStep
      · exact Or.inl ⟨_, .waited hPhase hResult rfl⟩
      · exact Or.inr (hStays rfl rfl)
  | child event =>
      simp only [step] at hStep
      split at hStep <;> [rename_i hPhase; cases hStep]
      cases hStep
      rcases event with _ | (_ | _)
      · exact Or.inr (hOther (by simp [childEvent]) rfl)
      · exact Or.inr (hStays rfl rfl)
      · exact Or.inr (hOther
          (by simp [childEvent, writeStatus]) rfl)
  | closed =>
      simp only [step] at hStep
      split at hStep <;> cases hStep
      · exact Or.inr (hOther (by simp [stopped]) rfl)
      · exact Or.inr (hOther (by simp [pause]) rfl)
  | cancel =>
      simp only [step] at hStep
      split at hStep <;> [skip; cases hStep]
      split at hStep <;> cases hStep
      · exact Or.inr (hOther (by simp) rfl)
      · exact Or.inr (hOther (by simp [stopped]) rfl)
      · exact Or.inr (hOther (by simp [stopped]) rfl)
      · exact Or.inr (hOther (by simp) rfl)

theorem Begins.beginning
    (hBegins : s.Begins t)
    (hStep : s.step c now e = some t) :
    ∃ cause, Beginning c now s t cause :=
  (step_begins hStep).resolve_right fun h => h.2 hBegins

/- What is known behind the beginning of an attempt. -/
theorem Beginning.starts
    {cause : StartCause}
    (hBeginning : Beginning c now s t cause) :
    t.starts = { time := now, cause } :: s.starts ∧
      t.Quiet ∧ (s.Quiet → cause ≠ .early) := by
  cases hBeginning with
  | first hPhase hBegins =>
      subst hBegins
      exact ⟨rfl, beginWait_quiet _ _, by simp⟩
  | permanent hPhase hDue hBegins =>
      subst hBegins
      exact ⟨rfl, beginWait_quiet _ _, by simp⟩
  | @waited until' early hPhase hResult hBegins =>
      subst hBegins
      refine ⟨rfl, beginWait_quiet _ _, fun hQuiet => ?_⟩
      have hNot := (hQuiet.select
        (NetworkChanges.select_selects s.network s.channel
          now until')).2
      rw [hResult] at hNot
      cases early with
      | true => exact absurd rfl hNot
      | false => simp

/- After a failure that lasts the task rests for a minute. -/
theorem attemptFailed_rests
    {reason : Text}
    (hPermanent : isPermanent reason = true) :
    (s.attemptFailed c now reason).Rests
      (now + Duration.fromSecs 60) now := by
  refine Or.inr (Or.inr
    ⟨now + max (s.retry.failed now).1 (Duration.fromSecs 60),
      ?_, Nat.add_le_add_left (le_max_right _ _) _⟩)
  simp [attemptFailed, pause, hPermanent, writeStatus]

theorem Rests.later
    {until' now' : Instant}
    (hRests : s.Rests until' now)
    (hLater : now ≤ now') :
    s.Rests until' now' :=
  hRests.imp_right fun h => h.imp_left hLater.trans'

/- A task at rest does not begin an attempt too early. -/
theorem Rests.step
    {until' : Instant}
    (hRests : s.Rests until' now)
    (hStep : s.step c now e = some t) :
    t.Rests until' now ∧ (s.Begins t → until' ≤ now) := by
  rcases hRests with hEnded | hDue | ⟨later, hPhase, hLater⟩
  · -- A task that has ended takes no step of its own.
    have hSame : t.phase = .ended := by
      cases e with
      | stop =>
          cases hStep
          exact hEnded
      | notify =>
          cases hStep
          exact hEnded
      | _ => simp [Hosting.step, hEnded] at hStep
    refine ⟨Or.inl hSame, fun hBegins => ?_⟩
    rw [hBegins.1] at hSame
    cases hSame
  · exact ⟨Or.inr (Or.inl hDue), fun _ => hDue⟩
  · by_cases hDue : until' ≤ now
    · exact ⟨Or.inr (Or.inl hDue), fun _ => hDue⟩
    · -- Before its time only the end of the server counts.
      have hNext :
          t.phase = .pausing true later ∨
            t.phase = .ended := by
        cases e with
        | stop =>
            cases hStep
            exact Or.inl hPhase
        | notify =>
            cases hStep
            exact Or.inl hPhase
        | wake =>
            simp only [Hosting.step, hPhase] at hStep
            split at hStep <;> [rename_i hNow; cases hStep]
            exact absurd (hLater.trans hNow) hDue
        | cancel =>
            simp only [Hosting.step, hPhase] at hStep
            split at hStep <;> cases hStep
            exact Or.inr rfl
        | _ => simp [Hosting.step, hPhase] at hStep
      refine ⟨?_, fun hBegins => ?_⟩
      · exact hNext.symm.imp_right fun h =>
          Or.inr ⟨later, h, hLater⟩
      · rw [hBegins.1] at hNext
        simp at hNext

end Hosting

end DevTunnel

end Sshdt
