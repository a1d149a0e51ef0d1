import Sshdt.DevTunnel.Hosts

/-
  What holds of all servers that host tunnels, in every run.

  Key definitions include:
    * `Server.HostsTunnel`
    * `Hosts.Begins`
    * `Hosts.FailsForLong`
    * `HostPhase.Means`
    * `Hosting.exec`

  Key theorems include:
    * `Hosts.one_host_for_each_tunnel`
    * `Hosts.attempts_spaced`
    * `Hosts.owned_process_permitted`
    * `Hosts.status_tells_phase`
    * `Hosts.stop_ends_task`
-/

------------------------------------------------------------
-- Who Hosts A Tunnel
------------------------------------------------------------

namespace Sshdt

namespace DevTunnel

/- The server hosts the tunnel, or tries to. -/
def Server.HostsTunnel
    (server : Server)
    (id : Text) : Prop :=
  server.task.phase.hosts = true ∧
    server.setup.config.id = some id

namespace Hosts

variable {w : Hosts}

/-
  The lock of a tunnel is held by the server that hosts it,
  and is free when no server does: however servers start,
  stop and crash, there are no two at a time, and none is
  turned away without another one that hosts the tunnel. A
  server that owns a process of the `devtunnel` program is
  one that hosts its tunnel.
-/
theorem one_host_for_each_tunnel
    (hReachable : machine.Reachable w)
    (id : Text) :
    (∀ user,
      w.locks (.tunnel id) = .held user ↔
        ∃ pid server,
          user = .server pid ∧
            w.servers pid = some server ∧
            server.HostsTunnel id) ∧
    (∀ pid pid' server server',
      w.servers pid = some server →
      w.servers pid' = some server' →
      server.HostsTunnel id → server'.HostsTunnel id →
        pid = pid') ∧
    ∀ pid server,
      w.servers pid = some server →
      server.setup.config.id = some id →
      server.task.child.isSome = true →
        server.HostsTunnel id := by
  have hInv := reachable_inv hReachable
  refine ⟨fun user => ⟨fun hHeld => ?_, ?_⟩, ?_, ?_⟩
  · cases user with
    | server pid =>
        rcases hInv.needed _ pid hHeld with
          ⟨server, hServer, hNeeds⟩
        exact ⟨pid, server, rfl, hServer, hNeeds⟩
    | reader n =>
        rcases (hInv.read _ n hHeld).1 with ⟨pid, hName⟩
        cases hName
  · rintro ⟨pid, server, rfl, hServer, hHosts, hId⟩
    exact hInv.tunnel pid server id hServer hHosts hId
  · intro pid pid' server server' hServer hServer' hFirst
      hSecond
    have hLock := hInv.tunnel pid server id hServer
      hFirst.1 hFirst.2
    rw [hInv.tunnel pid' server' id hServer' hSecond.1
      hSecond.2] at hLock
    simpa using hLock.symm
  · intro pid server hServer hId hChild
    refine ⟨?_, hId⟩
    have hFits := (hInv.task pid server hServer).phase
    unfold Hosting.PhaseFits at hFits
    cases hPhase : server.task.phase with
    | attempting replies => rfl
    | connected => rfl
    | closing stopping => rfl
    | _ =>
        simp only [hPhase] at hFits
        simp [hFits.1] at hChild

/- A server on the local address. -/
def localSetup : HostSetup where
  fromStr := sampleJson
  config := autoCreating
  addr := .new .localhost 2222
  hasSource := true

/-
  Two servers for one tunnel, of which the first is logged
  in and asks for the tunnel.
-/
def rivalEvents : List Event :=
  [.launch 1 localSetup, .launch 2 localSetup,
    .opens 2 true, .opens 1 true, .checks 1 none true,
    .checks 2 none true, .task 1 .spawn true,
    .task 1 (.reply (firstSetup.getD 0 .spawnFails) []) true,
    .task 1 .spawn true]

theorem rivalEvents_run :
    (machine.exec machine.init rivalEvents).isSome =
      true := by
  decide +kernel

/- Both servers after these events. -/
def rivals : Hosts :=
  machine.final rivalEvents rivalEvents_run

theorem rivals_one_host :
    (rivals.servers 1).map
        (fun server => server.task.phase.hosts) =
          some true ∧
      (rivals.servers 2).map
        (fun server => server.task.phase) =
          some .skipped ∧
      ∀ user,
        rivals.locks (.tunnel "my-tunnel".toList) =
            .held user ↔
          ∃ pid server,
            user = .server pid ∧
              rivals.servers pid = some server ∧
              server.HostsTunnel "my-tunnel".toList :=
  ⟨by decide +kernel, by decide +kernel,
    (one_host_for_each_tunnel
      (Machine.reachable_final rivalEvents rivalEvents_run)
      "my-tunnel".toList).1⟩

end Hosts

end DevTunnel

end Sshdt

------------------------------------------------------------
-- When Attempts Are Made
------------------------------------------------------------

namespace Sshdt

namespace DevTunnel

namespace Hosts

variable {w w' : Hosts}

/- A step has begun an attempt of a server. -/
def Begins
    (pid : Nat)
    (w w' : Hosts) : Prop :=
  ∃ server server',
    w.servers pid = some server ∧
      w'.servers pid = some server' ∧
      server.task.Begins server'.task

/-
  An attempt of a server fails in this step, and waiting
  does not help: the user has to do something about the
  error, or its reason says so.
-/
def FailsForLong
    (pid : Nat)
    (w : Hosts)
    (e : Event) : Prop :=
  ∃ (server : Server) (replies : List ProcessRun)
    (run : ProcessRun) (spawnFailure : Text) (saved : Bool)
    (error : AttemptError),
    w.servers pid = some server ∧
      server.task.phase = .attempting replies ∧
      e = .task pid (.reply run spawnFailure) saved ∧
      server.setup.script.outcome (replies ++ [run]) =
        some (.error error) ∧
      (error.lasts = true ∨
        isPermanent (error.reason spawnFailure) = true)

/- Opening the files is an event of the task. -/
theorem opens_advances
    {pid : Nat}
    {server : Server}
    {prepared : Bool}
    (hOpens : w.opens pid server prepared = some w') :
    ∃ result locks task,
      server.task.step server.setup w.now
          (.opened result) = some task ∧
        w' = w.advance pid server locks false task := by
  unfold opens at hOpens
  split at hOpens
  · dsimp only at hOpens
    split at hOpens
    · rcases Option.map_eq_some_iff.mp hOpens with
        ⟨task, hTask, hNext⟩
      exact ⟨_, _, task, hTask, hNext.symm⟩
    · rcases Option.map_eq_some_iff.mp hOpens with
        ⟨task, hTask, hNext⟩
      exact ⟨_, _, task, hTask, hNext.symm⟩
  · rcases Option.map_eq_some_iff.mp hOpens with
      ⟨task, hTask, hNext⟩
    exact ⟨_, _, task, hTask, hNext.symm⟩

/- So are the checks. -/
theorem checks_advances
    {pid : Nat}
    {server : Server}
    {failure : Option Text}
    {saved : Bool}
    (hChecks :
      w.checks pid server failure saved = some w') :
    ∃ lock locks task,
      server.task.step server.setup w.now
          (.checked lock) = some task ∧
        w' = w.advance pid server locks saved task := by
  unfold checks at hChecks
  split at hChecks
  · rcases Option.map_eq_some_iff.mp hChecks with
      ⟨task, hTask, hNext⟩
    exact ⟨_, _, task, hTask, hNext.symm⟩
  · rcases Option.map_eq_some_iff.mp hChecks with
      ⟨task, hTask, hNext⟩
    exact ⟨_, _, task, hTask, hNext.symm⟩
  · dsimp only at hChecks
    split at hChecks
    · rcases Option.map_eq_some_iff.mp hChecks with
        ⟨task, hTask, hNext⟩
      exact ⟨_, _, task, hTask, hNext.symm⟩
    · rcases Option.map_eq_some_iff.mp hChecks with
        ⟨task, hTask, hNext⟩
      exact ⟨_, _, task, hTask, hNext.symm⟩

/-
  After the step the server still runs. Its task is as it
  was, or has met one event, a report of the network only in
  the step that is one.
-/
def RunsOn
    (w w' : Hosts)
    (e : Event)
    (pid : Nat)
    (server : Server) : Prop :=
  ∃ server',
    w'.servers pid = some server' ∧
      server'.setup = server.setup ∧
      w.now ≤ w'.now ∧
      (server'.task = server.task ∨
        ∃ event,
          w'.now = w.now ∧
            server.task.step server.setup w.now event =
              some server'.task ∧
            (event = .notify →
              ∃ saved, e = .task pid .notify saved))

/- A step of its own task, or of another one. -/
theorem advance_runsOn
    {e : Event}
    {pid other : Nat}
    {server first : Server}
    {locks : HostFile → FileLock HostFileUser}
    {saved : Bool}
    {event : HostEvent}
    {task : Hosting}
    (hServer : w.servers pid = some server)
    (hFirst : w.servers other = some first)
    (hTask :
      first.task.step first.setup w.now event = some task)
    (hNotify :
      event = .notify →
        ∃ saved, e = .task other .notify saved) :
    RunsOn w (w.advance other first locks saved task) e pid
      server := by
  by_cases hPid : pid = other
  · subst hPid
    rw [hServer, Option.some.injEq] at hFirst
    subst hFirst
    exact ⟨_, Function.update_self _ _ _, rfl, le_rfl,
      Or.inr ⟨event, rfl, hTask, hNotify⟩⟩
  · refine ⟨server, ?_, rfl, le_rfl, Or.inl rfl⟩
    change Function.update w.servers other _ pid = _
    rw [Function.update_of_ne hPid]
    exact hServer

/- The step leaves a server to its task or to one event. -/
theorem step_server
    {e : Event}
    {pid : Nat}
    {server : Server}
    (hStep : w.step e = some w')
    (hServer : w.servers pid = some server)
    (hStays : e ≠ .exits pid) :
    RunsOn w w' e pid server := by
  cases e with
  | tick duration =>
      cases hStep
      exact ⟨server, hServer, rfl, Nat.le_add_right _ _,
        Or.inl rfl⟩
  | launch other setup =>
      simp only [step] at hStep
      split at hStep <;> [rename_i hFree; cases hStep]
      cases hStep
      refine ⟨server, ?_, rfl, le_rfl, Or.inl rfl⟩
      change Function.update w.servers other _ pid = _
      rw [Function.update_of_ne]
      · exact hServer
      · rintro rfl
        simp [hServer] at hFree
  | opens other prepared =>
      rcases Option.bind_eq_some_iff.mp hStep with
        ⟨first, hFirst, hOpens⟩
      rcases opens_advances hOpens with
        ⟨result, locks, task, hTask, rfl⟩
      exact advance_runsOn hServer hFirst hTask (by simp)
  | checks other failure saved =>
      rcases Option.bind_eq_some_iff.mp hStep with
        ⟨first, hFirst, hChecks⟩
      rcases checks_advances hChecks with
        ⟨lock, locks, task, hTask, rfl⟩
      exact advance_runsOn hServer hFirst hTask (by simp)
  | task other event saved =>
      simp only [step] at hStep
      split at hStep <;> [cases hStep; skip]
      rcases Option.bind_eq_some_iff.mp hStep with
        ⟨first, hFirst, hMap⟩
      rcases Option.map_eq_some_iff.mp hMap with
        ⟨task, hTask, rfl⟩
      exact advance_runsOn hServer hFirst hTask
        (fun hNotify => ⟨saved, by rw [hNotify]⟩)
  | exits other =>
      cases hStep
      refine ⟨server, ?_, rfl, le_rfl, Or.inl rfl⟩
      change Function.update w.servers other _ pid = _
      rw [Function.update_of_ne]
      · exact hServer
      · rintro rfl
        exact hStays rfl
  | reads reader other =>
      simp only [step] at hStep
      split at hStep <;> [skip; cases hStep]
      split at hStep <;> cases hStep <;>
        exact ⟨server, hServer, rfl, le_rfl, Or.inl rfl⟩
  | looks reader =>
      simp only [step] at hStep
      split at hStep <;> [skip; cases hStep]
      split at hStep <;> cases hStep <;>
        exact ⟨server, hServer, rfl, le_rfl, Or.inl rfl⟩
  | looked reader =>
      cases hStep
      exact ⟨server, hServer, rfl, le_rfl, Or.inl rfl⟩

/-
  What the steps of a task keep as time goes by holds of the
  task of a server as long as the server runs. `reported`
  says whether a change of the network may be reported.
-/
theorem exec_task_keeps
    {P : Instant → Hosting → Prop}
    {reported : Prop}
    {es : List Event}
    {pid : Nat}
    {server : Server}
    (hLater :
      ∀ {now now' s}, P now s → now ≤ now' → P now' s)
    (hKeeps :
      ∀ {now s event t}, P now s →
        (event = .notify → reported) →
        s.step server.setup now event = some t → P now t)
    (hServer : w.servers pid = some server)
    (hHolds : P w.now server.task)
    (hStays : .exits pid ∉ es)
    (hReported :
      (∃ saved, .task pid .notify saved ∈ es) → reported)
    (hExec : machine.exec w es = some w') :
    ∃ server',
      w'.servers pid = some server' ∧
        server'.setup = server.setup ∧ w.now ≤ w'.now ∧
        P w'.now server'.task := by
  induction es generalizing w server with
  | nil =>
      cases hExec
      exact ⟨server, hServer, rfl, le_rfl, hHolds⟩
  | cons e es ih =>
      rcases Machine.exec_cons.mp hExec with
        ⟨v, hStep, hRest⟩
      rcases step_server hStep hServer
          (fun h => hStays (by simp [h])) with
        ⟨next, hNext, hSetup, hTime, hTask⟩
      have hNow : P v.now next.task := by
        rcases hTask with
          hSame | ⟨event, hSame, hTask, hNotify⟩
        · rw [hSame]
          exact hLater hHolds hTime
        · rw [hSame]
          refine hKeeps hHolds (fun hEvent => ?_) hTask
          rcases hNotify hEvent with ⟨saved, rfl⟩
          exact hReported ⟨saved, by simp⟩
      rcases ih (hSetup ▸ hKeeps) hNext hNow
          (fun h => hStays (by simp [h]))
          (fun ⟨saved, h⟩ => hReported ⟨saved, by simp [h]⟩)
          hRest with
        ⟨server', hServer', hSetup', hTime', hHolds'⟩
      exact ⟨server', hServer', hSetup'.trans hSetup,
        hTime.trans hTime', hHolds'⟩

/- The attempts so far stay the oldest ones. -/
theorem exec_starts
    {es : List Event}
    {pid : Nat}
    {server : Server}
    (hServer : w.servers pid = some server)
    (hStays : .exits pid ∉ es)
    (hExec : machine.exec w es = some w') :
    ∃ server',
      w'.servers pid = some server' ∧
        server.task.starts <:+ server'.task.starts := by
  have hKeeps :
      ∀ {now s event t},
        server.task.starts <:+ Hosting.starts s →
        (event = .notify → True) →
        s.step server.setup now event = some t →
          server.task.starts <:+ t.starts := by
    intro now s event t hSuffix _ hStep
    rcases Hosting.step_begins hStep with
      ⟨cause, hBeginning⟩ | ⟨hSame, _⟩
    · rw [hBeginning.starts.1]
      exact hSuffix.trans (List.suffix_cons _ _)
    · rw [hSame]
      exact hSuffix
  rcases @exec_task_keeps _ _
      (fun _ s => server.task.starts <:+ s.starts) True es pid
      server (fun h _ => h) hKeeps hServer
      (List.suffix_refl _) hStays (fun _ => trivial)
      hExec with
    ⟨server', hServer', _, _, hSuffix⟩
  exact ⟨server', hServer', hSuffix⟩

/- An attempt begins with a step of the task. -/
theorem Begins.task
    {e : Event}
    {pid : Nat}
    (hBegins : Begins pid w w')
    (hStep : w.step e = some w') :
    ∃ server server' event,
      w.servers pid = some server ∧
        w'.servers pid = some server' ∧
        w'.now = w.now ∧
        server.task.Begins server'.task ∧
        server.task.step server.setup w.now event =
          some server'.task := by
  rcases hBegins with
    ⟨server, server', hServer, hServer', hBegins⟩
  have hStays : e ≠ .exits pid := by
    rintro rfl
    cases hStep
    simp at hServer'
  rcases step_server hStep hServer hStays with
    ⟨next, hNext, _, _, hTask⟩
  rw [hServer', Option.some.injEq] at hNext
  subst hNext
  rcases hTask with hSame | ⟨event, hNow, hTask, _⟩
  · rw [hSame] at hBegins
    exact absurd hBegins.1 (hBegins.2 [])
  · exact ⟨server, server', event, hServer, hServer', hNow,
      hBegins, hTask⟩

/- After a failure that lasts the task rests for a minute. -/
theorem FailsForLong.rests
    {e : Event}
    {pid : Nat}
    (hFails : FailsForLong pid w e)
    (hStep : w.step e = some w') :
    w'.now = w.now ∧
      ∃ server', w'.servers pid = some server' ∧
        server'.task.Rests (w.now + Duration.fromSecs 60)
          w'.now := by
  rcases hFails with
    ⟨server, replies, run, spawnFailure, saved, error, hServer,
      hPhase, rfl, hOutcome, hLasts⟩
  have hPermanent :
      isPermanent (error.reason spawnFailure) = true :=
    hLasts.elim (fun h => isPermanent_of_lasts h _) id
  simp only [step, HostEvent.locks, Bool.false_eq_true,
    if_false, hServer, Option.bind_some, Hosting.step,
    hPhase] at hStep
  split at hStep <;> [skip; cases hStep]
  cases hStep
  refine ⟨rfl, _, Function.update_self _ _ _, ?_⟩
  simp only [Hosting.replied, hOutcome]
  exact Hosting.attemptFailed_rests hPermanent

/- The beginning of an attempt is recorded with its time. -/
theorem Begins.recorded
    {e : Event}
    {pid : Nat}
    (hReachable : machine.Reachable w)
    (hBegins : Begins pid w w')
    (hStep : w.step e = some w') :
    ∃ server server' cause,
      w.servers pid = some server ∧
        w'.servers pid = some server' ∧
        server'.task.starts =
          { time := w.now, cause } :: server.task.starts ∧
        Spaced server'.task.starts ∧ server'.task.Quiet ∧
        (server.task.Quiet → cause ≠ .early) := by
  rcases hBegins.task hStep with
    ⟨server, server', event, hServer, hServer', _, hFirst,
      hTask⟩
  rcases hFirst.beginning hTask with ⟨cause, hBeginning⟩
  rcases hBeginning.starts with ⟨hStarts, hQuiet, hCause⟩
  have hInv := (reachable_inv
    (.step hReachable trivial hStep)).task pid server' hServer'
  exact ⟨server, server', cause, hServer, hServer', hStarts,
    hInv.timing.spaced, hQuiet, hCause⟩

section Between

variable {pid : Nat}
variable {e f : Event}
variable {es : List Event}
variable {u u' : Hosts}

/- An attempt after one that failed for long. -/
theorem begins_after_failure
    (hStep : w.step e = some w')
    (hExec : machine.exec w' es = some u)
    (hStays : .exits pid ∉ es)
    (hNext : u.step f = some u')
    (hBegins : Begins pid u u')
    (hFails : FailsForLong pid w e) :
    w.now + Duration.fromSecs 60 ≤ u.now := by
  rcases hBegins.task hNext with
    ⟨server, next, event, hServer, _, _, hFirst, hTask⟩
  rcases hFails.rests hStep with ⟨_, other, hOther, hRests⟩
  rcases @exec_task_keeps _ _
      (fun now s =>
        s.Rests (w.now + Duration.fromSecs 60) now)
      True es pid other Hosting.Rests.later
      (fun h _ hStep => (h.step hStep).1) hOther hRests
      hStays (fun _ => trivial) hExec with
    ⟨same, hSame, _, _, hStill⟩
  rw [hServer, Option.some.injEq] at hSame
  subst hSame
  exact (hStill.step hTask).2 hFirst

/- Two attempts and no change of the network in between. -/
theorem begins_unreported
    (hReachable : machine.Reachable w)
    (hStep : w.step e = some w')
    (hExec : machine.exec w' es = some u)
    (hStays : .exits pid ∉ es)
    (hNext : u.step f = some u')
    (hBegins : Begins pid u u')
    (hBefore : Begins pid w w')
    (hSilent : ∀ saved, .task pid .notify saved ∉ es) :
    w.now + Duration.fromSecs 30 ≤ u.now := by
  have hMiddle : machine.Reachable u :=
    (Machine.Reaches.step hReachable trivial hStep).exec
      (Machine.meetsAll_true _ _) hExec
  rcases hBefore.recorded hReachable hStep with
    ⟨_, first, _, _, hFirst, hStarts, _, hQuiet, _⟩
  rcases hBegins.recorded hMiddle hNext with
    ⟨server, next, cause, hServer, _, hStarts', hSpaced, _,
      hCause⟩
  rcases @exec_task_keeps _ _
      (fun _ s => s.Quiet) False es pid first
      (fun h _ => h) (fun h hNot hStep => h.step hNot hStep)
      hFirst hQuiet hStays
      (fun ⟨saved, hMem⟩ => hSilent saved hMem) hExec with
    ⟨same, hSame, _, _, hStill⟩
  rw [hServer, Option.some.injEq] at hSame
  subst hSame
  rcases exec_starts hFirst hStays hExec with
    ⟨same, hSame, hSuffix⟩
  rw [hServer, Option.some.injEq] at hSame
  subst hSame
  rw [hStarts'] at hSpaced
  exact hSpaced.unchanged
    (hSuffix.subset (hStarts ▸ List.mem_cons_self))
    (hCause hStill)

/- Three attempts. -/
theorem begins_third
    {before after : List Event}
    {g : Event}
    {v v' : Hosts}
    (hReachable : machine.Reachable w)
    (hStep : w.step e = some w')
    (hFirst : Begins pid w w')
    (hBefore : machine.exec w' before = some v)
    (hStepV : v.step g = some v')
    (hSecond : Begins pid v v')
    (hAfter : machine.exec v' after = some u)
    (hStays : .exits pid ∉ before ++ after)
    (hNext : u.step f = some u')
    (hThird : Begins pid u u') :
    w.now + Duration.fromSecs 30 ≤ u.now := by
  rw [List.mem_append, not_or] at hStays
  have hMiddle : machine.Reachable v :=
    (Machine.Reaches.step hReachable trivial hStep).exec
      (Machine.meetsAll_true _ _) hBefore
  have hLast : machine.Reachable u :=
    (Machine.Reaches.step hMiddle trivial hStepV).exec
      (Machine.meetsAll_true _ _) hAfter
  rcases hFirst.recorded hReachable hStep with
    ⟨_, a, causeA, _, hA, hStartsA, _⟩
  rcases hSecond.recorded hMiddle hStepV with
    ⟨b, c, causeC, hB, hC, hStartsC, _⟩
  rcases hThird.recorded hLast hNext with
    ⟨d, last, cause, hD, _, hStarts, hSpaced, _⟩
  rcases exec_starts hA hStays.1 hBefore with
    ⟨b', hB', hSuffixB⟩
  rcases exec_starts hC hStays.2 hAfter with
    ⟨d', hD', hSuffixD⟩
  rw [hB, Option.some.injEq] at hB'
  rw [hD, Option.some.injEq] at hD'
  subst hB' hD'
  rw [hStarts] at hSpaced
  rw [hStartsA] at hSuffixB
  rw [hStartsC] at hSuffixD
  have hOld :
      [({ time := w.now, cause := causeA } : Start)].Sublist
        b.task.starts :=
    List.singleton_sublist.mpr
      (hSuffixB.subset List.mem_cons_self)
  have hBoth := (hOld.cons_cons
    { time := v.now, cause := causeC }).trans
      hSuffixD.sublist
  exact hSpaced.three
    (hBoth.cons_cons { time := u.now, cause })

/-
  The attempts of every server keep their distance, whatever
  the network does. Let a step of a run be followed by one
  that begins an attempt, with the server running all the
  while. If an attempt failed for long in the first step, a
  minute has passed. If an attempt began in it, half a minute
  has passed where no change of the network was reported in
  between, or another attempt began in between.
-/
theorem attempts_spaced
    (hReachable : machine.Reachable w)
    (hStep : w.step e = some w')
    (hExec : machine.exec w' es = some u)
    (hStays : .exits pid ∉ es)
    (hNext : u.step f = some u')
    (hBegins : Begins pid u u') :
    (FailsForLong pid w e →
      w.now + Duration.fromSecs 60 ≤ u.now) ∧
    (Begins pid w w' →
      (∀ saved, .task pid .notify saved ∉ es) →
        w.now + Duration.fromSecs 30 ≤ u.now) ∧
    (Begins pid w w' →
      ∀ before g after v v',
        es = before ++ g :: after →
        machine.exec w' before = some v →
        v.step g = some v' → Begins pid v v' →
          w.now + Duration.fromSecs 30 ≤ u.now) := by
  refine ⟨begins_after_failure hStep hExec hStays hNext
      hBegins,
    begins_unreported hReachable hStep hExec hStays hNext
      hBegins, ?_⟩
  rintro hFirst before g after v v' rfl hBefore hStepV hSecond
  rcases Machine.exec_append.mp hExec with ⟨x, hRun, hRest⟩
  rw [hBefore, Option.some.injEq] at hRun
  subst hRun
  rcases Machine.exec_cons.mp hRest with ⟨y, hG, hAfter⟩
  change v.step g = some y at hG
  rw [hStepV, Option.some.injEq] at hG
  subst hG
  refine begins_third hReachable hStep hFirst hBefore hStepV
    hSecond hAfter (fun hMem => hStays ?_) hNext hBegins
  rcases List.mem_append.mp hMem with hMem | hMem
  · exact List.mem_append_left _ hMem
  · exact List.mem_append_right _ (List.mem_cons_of_mem _ hMem)

end Between

/- A server begins its first attempt. -/
def attemptEvents : List Event :=
  [.launch 1 localSetup, .opens 1 true, .checks 1 none true]

/- The attempt fails: there is no program to start. -/
def missingProgram : Event :=
  .task 1 (.reply .spawnFails "No such file".toList) true

/- A minute later another attempt may begin. -/
def retryEvents : List Event :=
  attemptEvents ++
    [missingProgram, .tick (Duration.fromSecs 60)]

theorem retryEvents_spaced :
    ∃ w u,
      machine.exec machine.init attemptEvents = some w ∧
        machine.exec machine.init retryEvents = some u ∧
        w.now + Duration.fromSecs 60 ≤ u.now := by
  have hFailing :
      (machine.exec machine.init attemptEvents).map
        (fun w => (w.servers 1).map fun server =>
          (server.task.phase,
            server.setup.script.outcome [.spawnFails])) =
          some (some
            (.attempting [], some (.error .spawnFails))) := by
    decide +kernel
  have hResting :
      (machine.exec machine.init retryEvents).map
        (fun u => (u.servers 1).map fun server =>
          server.task.phase) =
          some (some
            (.pausing true (Duration.fromSecs 60))) := by
    decide +kernel
  have hBegun :
      (machine.exec machine.init
          (retryEvents ++ [.task 1 .wake true])).map
        (fun u => (u.servers 1).map fun server =>
          server.task.phase) =
          some (some (.attempting [])) := by
    decide +kernel
  rcases Option.map_eq_some_iff.mp hFailing with
    ⟨w, hW, hServer⟩
  rcases Option.map_eq_some_iff.mp hServer with
    ⟨server, hServer, hState⟩
  rcases Prod.mk.inj hState with ⟨hPhase, hOutcome⟩
  rcases Option.map_eq_some_iff.mp hResting with
    ⟨u, hU, hRests⟩
  rcases Option.map_eq_some_iff.mp hRests with
    ⟨resting, hResting, hPausing⟩
  rcases Option.map_eq_some_iff.mp hBegun with
    ⟨u', hU', hBegun⟩
  rcases Option.map_eq_some_iff.mp hBegun with
    ⟨begun, hBegun, hAttempt⟩
  rcases Machine.exec_append.mp hU with ⟨x, hX, hRest⟩
  rw [hW, Option.some.injEq] at hX
  subst hX
  rcases Machine.exec_cons.mp hRest with
    ⟨w', hStep, hExec⟩
  rcases Machine.exec_append.mp hU' with ⟨y, hY, hLast⟩
  rw [hU, Option.some.injEq] at hY
  subst hY
  rw [Machine.exec_singleton] at hLast
  exact ⟨w, u, hW, hU,
    (attempts_spaced
      (.exec .init (Machine.meetsAll_true _ _) hW)
      (show w.step missingProgram = some w' from hStep) hExec
      (by simp)
      (show u.step (.task 1 .wake true) = some u' from hLast)
      ⟨resting, begun, hResting, hBegun, hAttempt, by
        simp [hPausing]⟩).1
      ⟨server, [], .spawnFails, "No such file".toList, true,
        .spawnFails, hServer, hPhase, rfl, hOutcome,
        Or.inr (by decide +kernel)⟩⟩

end Hosts

end DevTunnel

end Sshdt

------------------------------------------------------------
-- What A Server Owns
------------------------------------------------------------

namespace Sshdt

namespace DevTunnel

namespace Hosts

variable {w : Hosts}

/-
  A process that a server owns is the next one of its
  attempt, which may be started after the replies of this
  attempt, or the host that the attempt ended with. In any
  other phase the server owns none.
-/
theorem owned_process_permitted
    (hReachable : machine.Reachable w)
    {pid : Nat}
    {server : Server}
    {args : List Text}
    (hServer : w.servers pid = some server)
    (hChild : server.task.child = some args) :
    ∃ id,
      server.setup.config.id = some id ∧
        validTunnelId id = true ∧
        match server.task.phase with
        | .attempting replies =>
            server.setup.script.pending replies = some args ∧
              Permitted server.setup.fromStr
                server.setup.config server.setup.addr.port id
                (server.setup.script.history replies) args
        | .connected | .closing _ => args = hostArgs id
        | _ => False := by
  have hInv := (reachable_inv hReachable).task pid server
    hServer
  have hFits := hInv.phase
  have hTunnel := hInv.tunnel
  unfold Hosting.PhaseFits at hFits
  cases hPhase : server.task.phase with
  | attempting replies =>
      simp only [hPhase] at hFits hTunnel
      rcases hFits with ⟨_, args', hPending, hOwned⟩
      rcases hTunnel rfl with ⟨id, hChecked⟩
      rcases HostSetup.checked_ok hChecked with
        ⟨hId, hValid⟩
      refine ⟨id, hId, hValid, ?_⟩
      rw [hOwned args hChild]
      have hAll := (checked_attempt hId).pending hPending
      rw [List.nil_append] at hAll
      exact ⟨hPending, hAll⟩
  | connected =>
      simp only [hPhase] at hFits hTunnel
      rcases hFits with ⟨_, id, hId, hHost⟩
      rcases hTunnel rfl with ⟨id', hChecked⟩
      rcases HostSetup.checked_ok hChecked with
        ⟨hId', hValid⟩
      rw [hId, Option.some.injEq] at hId'
      subst hId'
      rw [hChild, Option.some.injEq] at hHost
      exact ⟨id, hId, hValid, hHost⟩
  | closing stopping =>
      simp only [hPhase] at hFits hTunnel
      rcases hFits with ⟨_, id, hId, hHost⟩
      rcases hTunnel rfl with ⟨id', hChecked⟩
      rcases HostSetup.checked_ok hChecked with
        ⟨hId', hValid⟩
      rw [hId, Option.some.injEq] at hId'
      subst hId'
      rw [hChild, Option.some.injEq] at hHost
      exact ⟨id, hId, hValid, hHost⟩
  | _ =>
      simp only [hPhase] at hFits
      simp [hFits.1] at hChild

theorem rivals_permitted :
    ∃ server,
      rivals.servers 1 = some server ∧
        server.task.child =
          some (showArgs "my-tunnel".toList) ∧
        ∃ id,
          server.setup.config.id = some id ∧
            validTunnelId id = true := by
  have hState :
      (rivals.servers 1).map
        (fun server => server.task.child) =
          some (some (showArgs "my-tunnel".toList)) := by
    decide +kernel
  rcases Option.map_eq_some_iff.mp hState with
    ⟨server, hServer, hChild⟩
  rcases owned_process_permitted
    (Machine.reachable_final rivalEvents rivalEvents_run)
    hServer hChild with ⟨id, hId, hValid, _⟩
  exact ⟨server, hServer, hChild, id, hId, hValid⟩

end Hosts

end DevTunnel

end Sshdt

------------------------------------------------------------
-- What Is Printed
------------------------------------------------------------

namespace Sshdt

namespace DevTunnel

/- The phases in which the last status names a state. -/
def HostPhase.Means : HostPhase → Option TunnelState → Prop
| .opening, state | .checking, state => state = none
| .skipped, state => state = some .skipped
| .attempting _, state => state = some .starting
| .pausing true _, state => state = some .skipped
| .pausing false _, state | .closing _, state =>
    state = some .retrying ∨ state = some .connected
| .connected, state => state = some .connected
| .ended, state =>
    state ≠ some .connected ∧ state ≠ some .retrying

namespace Hosts

variable {w : Hosts}

/-
  A status is printed only for a process whose server then
  runs and has a task, or whose lock another reader holds.
-/
theorem Inv.printed
    (hInv : w.Inv)
    {reader pid : Nat}
    {status : Status}
    (hPrinted : w.printed reader = some (pid, status)) :
    w.readers reader = .read pid status ∧
      ((∃ server, w.servers pid = some server ∧
          server.task.phase.opened = true) ∨
        ∃ other, other ≠ reader ∧
          w.locks (.process pid) =
            .held (.reader other)) := by
  unfold Hosts.printed at hPrinted
  split at hPrinted <;> [rename_i hRead; cases hPrinted]
  split at hPrinted <;> [rename_i user hLock; cases hPrinted]
  cases hPrinted
  refine ⟨hRead, ?_⟩
  cases user with
  | server pid' =>
      rcases hInv.needed _ pid' hLock with
        ⟨server, hServer, rfl, hOpened⟩
      exact Or.inl ⟨server, hServer, hOpened⟩
  | reader other =>
      refine Or.inr ⟨other, ?_, hLock⟩
      rintro rfl
      have hLocked := (hInv.read _ _ hLock).2
      rw [hRead] at hLocked
      cases hLocked

/- The last status names the phase of the task. -/
theorem Inv.means
    (hInv : w.Inv)
    {pid : Nat}
    {server : Server}
    (hServer : w.servers pid = some server) :
    server.task.phase.Means server.task.shown := by
  have hFits := (hInv.task pid server hServer).phase
  unfold Hosting.PhaseFits at hFits
  cases hPhase : server.task.phase with
  | opening =>
      simp only [hPhase] at hFits
      exact hFits.2.2
  | checking =>
      simp only [hPhase] at hFits
      exact hFits.2.2
  | skipped =>
      simp only [hPhase] at hFits
      exact hFits.2
  | attempting replies =>
      simp only [hPhase] at hFits
      exact hFits.1
  | pausing permanent until' =>
      simp only [hPhase] at hFits
      cases permanent <;> exact hFits.2.2
  | connected =>
      simp only [hPhase] at hFits
      exact hFits.1
  | closing stopping =>
      simp only [hPhase] at hFits
      exact hFits.1.symm.imp (fun h => h.2) (fun h => h)
  | ended =>
      simp only [hPhase] at hFits
      exact hFits.2

/- The steps of others leave a reader where it is. -/
theorem step_readers
    {e : Event}
    {reader : Nat}
    (hOther : e.reader ≠ some reader)
    (hStep : w.step e = some w') :
    w'.readers reader = w.readers reader := by
  cases e with
  | tick duration =>
      cases hStep
      rfl
  | launch pid setup =>
      simp only [step] at hStep
      split at hStep <;> cases hStep
      rfl
  | opens pid prepared =>
      rcases Option.bind_eq_some_iff.mp hStep with
        ⟨server, _, hOpens⟩
      rcases opens_advances hOpens with
        ⟨result, locks, task, _, rfl⟩
      rfl
  | checks pid failure saved =>
      rcases Option.bind_eq_some_iff.mp hStep with
        ⟨server, _, hChecks⟩
      rcases checks_advances hChecks with
        ⟨lock, locks, task, _, rfl⟩
      rfl
  | task pid event saved =>
      simp only [step] at hStep
      split at hStep <;> [cases hStep; skip]
      rcases Option.bind_eq_some_iff.mp hStep with
        ⟨server, _, hMap⟩
      rcases Option.map_eq_some_iff.mp hMap with
        ⟨task, _, rfl⟩
      rfl
  | exits pid =>
      cases hStep
      rfl
  | reads other pid =>
      have hNot : reader ≠ other := by
        rintro rfl
        exact hOther rfl
      simp only [step] at hStep
      split at hStep <;> [skip; cases hStep]
      split at hStep <;> cases hStep
      · exact Function.update_of_ne hNot _ _
      · rfl
  | looks other =>
      have hNot : reader ≠ other := by
        rintro rfl
        exact hOther rfl
      simp only [step] at hStep
      split at hStep <;> [skip; cases hStep]
      split at hStep <;> cases hStep <;>
        exact Function.update_of_ne hNot _ _
  | looked other =>
      have hNot : reader ≠ other := by
        rintro rfl
        exact hOther rfl
      cases hStep
      exact Function.update_of_ne hNot _ _

theorem exec_readers
    {es : List Event}
    {reader : Nat}
    (hOther : ∀ e ∈ es, e.reader ≠ some reader)
    (hExec : machine.exec w es = some w') :
    w'.readers reader = w.readers reader := by
  induction es generalizing w with
  | nil =>
      cases hExec
      rfl
  | cons e es ih =>
      rcases Machine.exec_cons.mp hExec with
        ⟨v, hStep, hRest⟩
      rw [ih (fun e' h => hOther e' (by simp [h])) hRest]
      exact step_readers (hOther e (by simp)) hStep

/- A reader keeps what was in the file when it read it. -/
theorem printed_read
    {v u : Hosts}
    {es : List Event}
    {reader pid pid' : Nat}
    {status : Status}
    (hInv : u.Inv)
    (hReads : w.step (.reads reader pid) = some v)
    (hExec : machine.exec v es = some u)
    (hOther : ∀ e ∈ es, e.reader ≠ some reader)
    (hPrinted : u.printed reader = some (pid', status)) :
    pid' = pid ∧ w.files pid = some status := by
  have hStill := (hInv.printed hPrinted).1
  rw [exec_readers hOther hExec] at hStill
  simp only [step] at hReads
  split at hReads <;> [rename_i hScans; cases hReads]
  split at hReads
  · rename_i saved hFile
    cases hReads
    simp only [Function.update_self,
      StatusReader.read.injEq] at hStill
    exact ⟨hStill.1.symm, hFile.trans (by rw [hStill.2])⟩
  · cases hReads
    rw [hScans] at hStill
    cases hStill

/-
  A status is printed for a process only while its server
  runs and has a task, or another reader holds the lock. The
  last status that a server wrote names the phase of its
  task. What is printed was in the file when the reader read
  it: where the last write of the server had succeeded it is
  the status that names the phase of that moment, and the
  server may write another one before the reader looks at
  the lock. A host process that went away without an exit
  code is still called connected until the next attempt.
-/
theorem status_tells_phase
    (hReachable : machine.Reachable w) :
    (∀ reader pid status,
      w.printed reader = some (pid, status) →
        (∃ server, w.servers pid = some server ∧
          server.task.phase.opened = true) ∨
        ∃ other, other ≠ reader ∧
          w.locks (.process pid) = .held (.reader other)) ∧
    (∀ pid server, w.servers pid = some server →
      server.task.phase.Means server.task.shown) ∧
    ∀ reader pid v es u pid' status,
      w.step (.reads reader pid) = some v →
      machine.exec v es = some u →
      (∀ e ∈ es, e.reader ≠ some reader) →
      u.printed reader = some (pid', status) →
        pid' = pid ∧ w.files pid = some status ∧
        ∀ server, w.servers pid = some server →
          server.saved = true →
            server.task.last = some status ∧
              server.task.phase.Means
                (some status.state) := by
  have hInv := reachable_inv hReachable
  refine ⟨fun reader pid status hPrinted =>
    (hInv.printed hPrinted).2,
    fun pid server hServer => hInv.means hServer, ?_⟩
  intro reader pid v es u pid' status hReads hExec hOther
    hPrinted
  have hStep : machine.step w (.reads reader pid) = some v :=
    hReads
  have hRead : machine.Reachable v :=
    .step hReachable trivial hStep
  have hInv' : u.Inv := reachable_inv
    (hRead.exec (Machine.meetsAll_true _ _) hExec)
  rcases printed_read hInv' hReads hExec hOther hPrinted with
    ⟨hPid, hFile⟩
  refine ⟨hPid, hFile, fun server hServer hSaved => ?_⟩
  have hLast : server.task.last = some status :=
    (hInv.file pid server hServer hSaved).symm.trans hFile
  have hMeans := hInv.means hServer
  rw [Hosting.shown, hLast] at hMeans
  exact ⟨hLast, hMeans⟩

/- The attempt of the first server runs out of time. -/
def lateEvents : List Event :=
  [.task 1 (.reply (.gives [] true) []) true]

theorem lateEvents_status :
    ∃ v u status,
      rivals.step (.reads 7 1) = some v ∧
        machine.exec v lateEvents = some u ∧
        u.printed 7 = some (1, status) ∧
        status.state = .starting ∧
        (u.servers 1).map (fun server => server.task.shown) =
          some (some .retrying) ∧
        rivals.files 1 = some status := by
  have hState :
      (machine.exec rivals (.reads 7 1 :: lateEvents)).map
        (fun u =>
          ((u.printed 7).map fun p => (p.1, p.2.state),
            (u.servers 1).map fun server =>
              server.task.shown)) =
          some (some (1, .starting),
            some (some .retrying)) := by
    decide +kernel
  rcases Option.map_eq_some_iff.mp hState with
    ⟨u, hRun, hEq⟩
  rcases Prod.mk.inj hEq with ⟨hPrinted, hShown⟩
  rcases Option.map_eq_some_iff.mp hPrinted with
    ⟨⟨pid, status⟩, hPrinted, hPair⟩
  rcases Prod.mk.inj hPair with ⟨rfl, hStarting⟩
  rcases Machine.exec_cons.mp hRun with ⟨v, hReads, hExec⟩
  refine ⟨v, u, status, hReads, hExec, hPrinted, hStarting,
    hShown, ?_⟩
  exact ((status_tells_phase
    (Machine.reachable_final rivalEvents
      rivalEvents_run)).2.2 7 1 v lateEvents u 1 status hReads
        hExec (by simp [lateEvents, Event.reader])
        hPrinted).2.1

end Hosts

end DevTunnel

end Sshdt

------------------------------------------------------------
-- The End Of A Task
------------------------------------------------------------

namespace Sshdt

namespace DevTunnel

/- The events that lead a task to its end. -/
def HostEvent.ends : HostEvent → Bool
| .cancel | .closed => true
| _ => false

namespace Hosting

/- Steps of a task alone, at one time of the clock. -/
def exec
    (c : HostSetup)
    (now : Instant) :
    Hosting → List HostEvent → Option Hosting
| s, [] => some s
| s, e :: es => (s.step c now e).bind fun t => exec c now t es

/-
  A task that was told to stop, and is behind its checks, has
  two steps to go at most.
-/
theorem exists_end
    {c : HostSetup}
    {now : Instant}
    {s : Hosting}
    (hStop : s.cancelled = true)
    (hOpening : s.phase ≠ .opening)
    (hChecking : s.phase ≠ .checking) :
    ∃ (es : List HostEvent) (t : Hosting),
      es.length ≤ 2 ∧ (∀ e ∈ es, e.ends = true) ∧
        exec c now s es = some t ∧ t.phase = .ended := by
  cases hPhase : s.phase with
  | opening => exact absurd hPhase hOpening
  | checking => exact absurd hPhase hChecking
  | skipped =>
      exact ⟨[.cancel], _, by simp, by simp [HostEvent.ends],
        by simp [exec, step, hStop, hPhase]; rfl, rfl⟩
  | attempting replies =>
      exact ⟨[.cancel], s.stopped c, by simp,
        by simp [HostEvent.ends],
        by simp [exec, step, hStop, hPhase], rfl⟩
  | pausing permanent until' =>
      exact ⟨[.cancel], s.stopped c, by simp,
        by simp [HostEvent.ends],
        by simp [exec, step, hStop, hPhase], rfl⟩
  | connected =>
      exact ⟨[.cancel, .closed],
        { s with phase := .closing true }.stopped c, by simp,
        by simp [HostEvent.ends],
        by simp [exec, step, hStop, hPhase], rfl⟩
  | closing stopping =>
      cases stopping with
      | true =>
          exact ⟨[.closed], s.stopped c, by simp,
            by simp [HostEvent.ends],
            by simp [exec, step, hPhase], rfl⟩
      | false =>
          exact ⟨[.closed, .cancel],
            (s.pause now false).stopped c, by simp,
            by simp [HostEvent.ends],
            by simp [exec, step, hPhase, pause, hStop], rfl⟩
  | ended => exact ⟨[], s, by simp, by simp, rfl, hPhase⟩

end Hosting

namespace Hosts

variable {w : Hosts}

/- What a task does alone, its server does among others. -/
theorem exec_task
    {pid : Nat}
    {server : Server}
    {es : List HostEvent}
    {task : Hosting}
    (hServer : w.servers pid = some server)
    (hLocks : ∀ e ∈ es, e.locks = false)
    (hExec :
      server.task.exec server.setup w.now es = some task) :
    ∃ w' server',
      machine.exec w (es.map fun e => .task pid e true) =
          some w' ∧
        w'.servers pid = some server' ∧
        server'.task = task := by
  induction es generalizing w server with
  | nil =>
      cases hExec
      exact ⟨w, server, rfl, hServer, rfl⟩
  | cons e es ih =>
      rcases Option.bind_eq_some_iff.mp hExec with
        ⟨next, hStep, hRest⟩
      have hNext :
          w.step (.task pid e true) =
            some (w.advance pid server w.locks true next) := by
        simp [step, hLocks e (by simp), hServer, hStep]
      rcases @ih (w.advance pid server w.locks true next) _
        (Function.update_self _ _ _)
        (fun e hMem => hLocks e (by simp [hMem])) hRest with
        ⟨w', server', hRun, hServer', hTask⟩
      refine ⟨w', server', ?_, hServer', hTask⟩
      exact Machine.exec_cons.mpr ⟨_, hNext, hRun⟩

/-
  A server whose task was told to stop is never further than
  two steps of its own from the end of the task, at which it
  owns no process and holds no lock.
-/
theorem stop_ends_task
    (hReachable : machine.Reachable w)
    {pid : Nat}
    {server : Server}
    (hServer : w.servers pid = some server)
    (hStop : server.task.cancelled = true)
    (hOpening : server.task.phase ≠ .opening)
    (hChecking : server.task.phase ≠ .checking) :
    ∃ (es : List HostEvent) (w' : Hosts)
      (server' : Server),
      es.length ≤ 2 ∧
        (∀ e ∈ es, e.ends = true) ∧
        machine.exec w (es.map fun e => .task pid e true) =
          some w' ∧
        w'.servers pid = some server' ∧
        server'.task.phase = .ended ∧
        server'.task.child = none ∧
        ∀ name, w'.locks name ≠ .held (.server pid) := by
  rcases @Hosting.exists_end server.setup w.now _ hStop
    hOpening hChecking with
    ⟨es, task, hLength, hEnds, hExec, hEnded⟩
  have hLocks : ∀ e ∈ es, e.locks = false := by
    intro e hMem
    have hEnd := hEnds e hMem
    cases e <;> first
      | rfl
      | cases hEnd
  rcases exec_task hServer hLocks hExec with
    ⟨w', server', hRun, hServer', rfl⟩
  have hInv := reachable_inv
    (hReachable.exec (Machine.meetsAll_true _ _) hRun)
  refine ⟨es, w', server', hLength, hEnds, hRun, hServer',
    hEnded, ?_, ?_⟩
  · have hFits := (hInv.task pid server' hServer').phase
    rw [Hosting.PhaseFits, hEnded] at hFits
    exact hFits.1
  · intro name hHeld
    rcases hInv.needed name pid hHeld with
      ⟨other, hOther, hNeeds⟩
    rw [hServer', Option.some.injEq] at hOther
    subst hOther
    cases name with
    | process pid' =>
        have hOpened := hNeeds.2
        rw [hEnded] at hOpened
        cases hOpened
    | tunnel id =>
        have hHosts := hNeeds.1
        rw [hEnded] at hHosts
        cases hHosts

/- The first of the two servers is told to stop. -/
theorem rivals_stop_run :
    (machine.exec machine.init
      (rivalEvents ++ [.task 1 .stop true])).isSome =
        true := by
  decide +kernel

theorem rivals_stop_end :
    ∃ (es : List HostEvent) (w' : Hosts),
      es.length ≤ 2 ∧
        machine.exec
            (machine.final _ rivals_stop_run)
            (es.map fun e => .task 1 e true) = some w' ∧
        ∀ name, w'.locks name ≠ .held (.server 1) := by
  have hState :
      ((machine.final _ rivals_stop_run).servers 1).map
        (fun server =>
          (server.task.cancelled, server.task.phase)) =
          some (true, .attempting (firstSetup.take 1)) := by
    decide +kernel
  rcases Option.map_eq_some_iff.mp hState with
    ⟨server, hServer, hTask⟩
  rcases Prod.mk.inj hTask with ⟨hStop, hPhase⟩
  rcases stop_ends_task
    (Machine.reachable_final _ rivals_stop_run) hServer hStop
    (by simp [hPhase]) (by simp [hPhase]) with
    ⟨es, w', _, hLength, _, hRun, _, _, _, hLocks⟩
  exact ⟨es, w', hLength, hRun, hLocks⟩

end Hosts

end DevTunnel

end Sshdt
