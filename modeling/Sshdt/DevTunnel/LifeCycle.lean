import Sshdt.DevTunnel.Broker

/-
  The life cycle of the connector process in the broker loop
  (`src/devtunnel/client.rs`, `src/devtunnel/retry.rs`).

  A connector is spawned while the broker waits, stops once
  and is given up when its process has been shut down. Every
  end and every failed spawn calls `Retry::failed`, and the
  next spawn waits for the delay that the call returned. The
  calls are read off the retry state that a step leaves.

  Key definitions include:
    * `Connector.owns`
    * `Broker.Fails`
    * `Broker.Quiet`
    * `Broker.FailsOnce`
    * `Broker.ToldToStop`

  Key theorems include:
    * `Broker.step_keeps`
    * `Broker.stopped_of_toldToStop`
    * `Broker.between_wakes`
    * `Broker.stopping_keeps`
    * `Broker.connector_life_cycle`
-/

------------------------------------------------------------
-- Spawns, Ends And Failures
------------------------------------------------------------

namespace Sshdt

namespace DevTunnel

/- The connector has a process, running or stopping. -/
def Connector.owns : Connector → Bool
  | .waiting _ => false
  | .active _ | .stopping _ => true

namespace Broker

/- The event is an attempt to spawn a connector. -/
def Event.isWake : Event → Bool
  | .wake _ _ => true
  | _ => false

/- The event spawns a process. -/
def Event.spawns : Event → Bool
  | .wake _ true => true
  | _ => false

/- The event completes the shutdown of a process. -/
def Event.ends : Event → Bool
  | .shutdownDone => true
  | _ => false

/-
  A step from `s` to `t` that calls `retry.failed()` once:
  the retry state is the one that the call leaves, and the
  broker waits for the delay that the call returned.
-/
structure Fails
    (s t : Broker) : Prop where
  retry : t.retry = (s.retry.failed s.now).2
  waits :
    t.connector =
      .waiting (s.now + (s.retry.failed s.now).1)

/- A step without such a call, but maybe `retry.ready()`. -/
def Quiet
    (s : Broker)
    (e : Event) : Prop :=
  ∀ t, s.step e = some t →
    t.retry = s.retry ∨ t.retry = s.retry.ready s.now

/-
  The running connector is told to stop: by a line that
  reports a startup failure, by the end of the process, or by
  a tick behind the startup deadline that finds no address to
  publish.
-/
def ToldToStop
    (s : Broker)
    (e : Event) : Prop :=
  ∃ active, s.connector = .active active ∧
    match e with
    | .line text => startupForwardingFailure text = true
    | .processEnds => True
    | .tick =>
        (beginIdleShutdown s.now s.leases).stopping = false ∧
        (publishAll active.announcements active.listeners
          s.forwarding.ports).isEmpty = true ∧
        ∃ deadline, active.startupDeadline = some deadline ∧
          deadline ≤ s.now
    | _ => False

end Broker

end DevTunnel

end Sshdt

------------------------------------------------------------
-- What One Step Does To The Connector
------------------------------------------------------------

namespace Sshdt

namespace DevTunnel

namespace Broker

variable {s t : Broker}

/- A spawn needs a requested port and a wait that is over. -/
theorem wake_enabled
    {early spawns : Bool}
    (hStep : s.step (.wake early spawns) = some t) :
    s.requested.isEmpty = false ∧
      ∃ until',
        s.connector = .waiting until' ∧
          (early = true ∨ until' ≤ s.now) ∧
          t =
            if spawns then
              { s with
                connector := .active (.spawned s.now) }
            else
              s.backOff := by
  simp only [step] at hStep
  split at hStep <;> [skip; cases hStep]
  rename_i until' hConnector
  split at hStep <;> [skip; cases hStep]
  rename_i hReady
  simp only [Bool.and_eq_true, Bool.not_eq_true',
    Bool.or_eq_true, decide_eq_true_eq] at hReady
  refine ⟨hReady.1.2, until', hConnector, hReady.2, ?_⟩
  split at hStep <;> cases hStep
  · rename_i hSpawns
    simp [hSpawns]
  · rename_i hSpawns
    simp [hSpawns]

theorem shutdownDone_enabled
    (hStep : s.step .shutdownDone = some t) :
    s.connector = .stopping true ∧ t = s.backOff := by
  simp only [step] at hStep
  split at hStep <;> cases hStep
  rename_i hConnector
  exact ⟨hConnector, rfl⟩

/- How a connector changes between spawn and end. -/
structure Keeps
    (s t : Broker) : Prop where
  waiting :
    ∀ until', s.connector = .waiting until' →
      t.connector = .waiting until'
  stopping :
    ∀ draining, s.connector = .stopping draining →
      ∃ draining', t.connector = .stopping draining'
  active :
    ∀ active, s.connector = .active active →
      t.connector.owns = true
  forwarding :
    s.connector.isActive = false →
      t.forwarding = s.forwarding
  retry :
    t.retry = s.retry ∨ t.retry = s.retry.ready s.now

theorem Keeps.of_eq
    (hConnector : t.connector = s.connector)
    (hForwarding : t.forwarding = s.forwarding)
    (hRetry : t.retry = s.retry) :
    s.Keeps t where
  waiting := by
    intro until' hWaiting
    rw [hConnector, hWaiting]
  stopping := by
    intro draining hStopping
    exact ⟨draining, by rw [hConnector, hStopping]⟩
  active := by
    intro active hActive
    rw [hConnector, hActive]
    rfl
  forwarding := fun _ => hForwarding
  retry := .inl hRetry

/- A running connector that stays or is told to stop. -/
theorem Keeps.of_active
    {active : ActiveConnector}
    (hActive : s.connector = .active active)
    (hOwns : t.connector.owns = true)
    (hRetry :
      t.retry = s.retry ∨ t.retry = s.retry.ready s.now) :
    s.Keeps t where
  waiting := by
    intro until' hWaiting
    rw [hActive] at hWaiting
    cases hWaiting
  stopping := by
    intro draining hStopping
    rw [hActive] at hStopping
    cases hStopping
  active := fun _ _ => hOwns
  forwarding := by
    intro hInactive
    rw [hActive] at hInactive
    cases hInactive
  retry := hRetry

theorem owns_stop
    {active : ActiveConnector}
    (hActive : s.connector = .active active) :
    s.stop.connector.owns = true := by
  simp [stop, hActive, Connector.owns]

@[simp] theorem retry_stop
    (s : Broker) :
    s.stop.retry = s.retry := by
  unfold stop
  split <;> rfl

theorem idleTick_keeps
    (s : Broker) :
    s.Keeps s.idleTick := by
  simp only [idleTick]
  split
  · exact Keeps.of_eq rfl rfl rfl
  · split
    · rename_i active hActive
      simp only [publishTick]
      split
      · exact Keeps.of_active hActive rfl (.inr rfl)
      · split
        · exact Keeps.of_active hActive (owns_stop hActive)
            (.inl (retry_stop _))
        · exact Keeps.of_active hActive
            (by simp [hActive, Connector.owns]) (.inl rfl)
    · exact Keeps.of_eq rfl rfl rfl

/- Every step but a spawn and the end of a shutdown. -/
theorem step_keeps
    {e : Event}
    (hStep : s.step e = some t)
    (hWake : e.isWake = false)
    (hEnds : e.ends = false) :
    s.Keeps t := by
  cases e with
  | wake early spawns => cases hWake
  | shutdownDone => cases hEnds
  | start port =>
      simp only [step] at hStep
      split at hStep <;> cases hStep
      exact Keeps.of_eq rfl rfl rfl
  | line text =>
      simp only [step] at hStep
      split at hStep <;> [skip; cases hStep]
      simp only [readLine] at hStep
      split at hStep
      · rename_i active hActive
        split at hStep <;> cases hStep
        · exact Keeps.of_active hActive (owns_stop hActive)
            (.inl (retry_stop s))
        · exact Keeps.of_active hActive rfl (.inl rfl)
      · cases hStep
        exact Keeps.of_eq rfl rfl rfl
      · cases hStep
  | processEnds =>
      simp only [step] at hStep
      split at hStep <;> [skip; cases hStep]
      simp only [endProcess] at hStep
      split at hStep
      · rename_i active hActive
        cases hStep
        exact Keeps.of_active hActive rfl
          (.inl (retry_stop s))
      · rename_i draining hStopping
        cases hStep
        constructor
        · intro until' hWaiting
          rw [hStopping] at hWaiting
          cases hWaiting
        · intro draining' _
          exact ⟨true, rfl⟩
        · intro active _
          rfl
        · intro _
          rfl
        · exact .inl rfl
      · cases hStep
  | tick =>
      simp only [step] at hStep
      split at hStep <;> cases hStep
      exact idleTick_keeps s
  | leaseAcquire =>
      simp only [step, Option.map_eq_some_iff] at hStep
      rcases hStep with ⟨leases, _, rfl⟩
      exact Keeps.of_eq rfl rfl rfl
  | leaseDrop =>
      simp only [step, Option.map_eq_some_iff] at hStep
      rcases hStep with ⟨leases, _, rfl⟩
      exact Keeps.of_eq rfl rfl rfl
  | advance span =>
      cases hStep
      exact Keeps.of_eq rfl rfl rfl

/- A step is an attempt to spawn, an end, or keeps. -/
theorem step_cases
    {e : Event}
    (hStep : s.step e = some t) :
    (∃ early spawns, e = .wake early spawns) ∨
      e = .shutdownDone ∨
      (e.isWake = false ∧ e.ends = false ∧ s.Keeps t) := by
  cases e with
  | wake early spawns => exact Or.inl ⟨early, spawns, rfl⟩
  | shutdownDone => exact Or.inr (Or.inl rfl)
  | _ =>
      exact Or.inr (Or.inr
        ⟨rfl, rfl, step_keeps hStep rfl rfl⟩)

/- A process stays owned until its shutdown is complete. -/
theorem Keeps.owns
    (hKeeps : s.Keeps t) :
    t.connector.owns = s.connector.owns := by
  cases hConnector : s.connector with
  | waiting until' =>
      rw [hKeeps.waiting until' hConnector]
  | active active =>
      rw [hKeeps.active active hConnector, Connector.owns]
  | stopping draining =>
      rcases hKeeps.stopping draining hConnector with
        ⟨draining', hStopping⟩
      rw [hStopping]
      rfl

theorem Keeps.inactive
    (hKeeps : s.Keeps t)
    (hInactive : s.connector.isActive = false) :
    t.connector.isActive = false := by
  cases hConnector : s.connector with
  | waiting until' =>
      rw [hKeeps.waiting until' hConnector]
      rfl
  | active active =>
      rw [hConnector] at hInactive
      cases hInactive
  | stopping draining =>
      rcases hKeeps.stopping draining hConnector with
        ⟨draining', hStopping⟩
      rw [hStopping]
      rfl

/-
  A connector that is told to stop is stopping, and its
  addresses have left the table.
-/
theorem stopped_of_toldToStop
    {e : Event}
    (hTold : s.ToldToStop e)
    (hStep : s.step e = some t) :
    (∃ draining, t.connector = .stopping draining) ∧
      t.forwarding = s.forwarding.clear := by
  rcases hTold with ⟨active, hActive, hCause⟩
  cases e with
  | line text =>
      simp only [step] at hStep
      split at hStep <;> [skip; cases hStep]
      have hFailure :
          startupForwardingFailure text = true := hCause
      simp only [readLine, hActive, hFailure, if_true,
        Option.some.injEq] at hStep
      subst hStep
      simp [stop, hActive]
  | processEnds =>
      simp only [step] at hStep
      split at hStep <;> [skip; cases hStep]
      simp only [endProcess, hActive,
        Option.some.injEq] at hStep
      subst hStep
      simp [stop, hActive]
  | tick =>
      rcases hCause with
        ⟨hAwake, hEmpty, deadline, hDeadline, hPast⟩
      simp only [step] at hStep
      split at hStep <;> [skip; cases hStep]
      simp only [idleTick, hAwake, hActive, publishTick,
        hEmpty, hDeadline, Option.any_some, hPast,
        decide_true, Bool.not_true, Bool.false_eq_true,
        if_false, if_true, Option.some.injEq] at hStep
      subst hStep
      simp [stop, Forwarding.clear]
  | start port => cases hCause
  | wake early spawns => cases hCause
  | shutdownDone => cases hCause
  | leaseAcquire => cases hCause
  | leaseDrop => cases hCause
  | advance span => cases hCause

/- A running connector is left for one of these reasons. -/
theorem toldToStop_of_left
    {e : Event}
    (hActive : s.connector.isActive = true)
    (hStep : s.step e = some t)
    (hLeft : t.connector.isActive = false) :
    s.ToldToStop e := by
  have hSame :
      t.connector = s.connector → s.ToldToStop e := by
    intro hEq
    rw [hEq, hActive] at hLeft
    cases hLeft
  cases hConnector : s.connector with
  | waiting until' =>
      rw [hConnector] at hActive
      cases hActive
  | stopping draining =>
      rw [hConnector] at hActive
      cases hActive
  | active active =>
      cases e with
      | line text =>
          simp only [step] at hStep
          split at hStep <;> [skip; cases hStep]
          simp only [readLine, hConnector] at hStep
          split at hStep
          next hFailure => exact ⟨active, hConnector, hFailure⟩
          · cases hStep
            cases hLeft
      | processEnds => exact ⟨active, hConnector, trivial⟩
      | tick =>
          simp only [step] at hStep
          split at hStep <;> [skip; cases hStep]
          simp only [idleTick, hConnector,
            Option.some.injEq] at hStep
          split at hStep
          · subst hStep
            exact hSame hConnector.symm
          next hAwake =>
            simp only [publishTick] at hStep
            split at hStep
            · subst hStep
              cases hLeft
            next hEmpty =>
              split at hStep
              next hPast =>
                refine ⟨active, hConnector,
                  by simpa using hAwake,
                  by simpa using hEmpty, ?_⟩
                simpa [Option.any_eq_true] using hPast
              · subst hStep
                exact hSame hConnector.symm
      | start port =>
          simp only [step] at hStep
          split at hStep <;> cases hStep
          exact hSame rfl
      | wake early spawns => simp [step, hConnector] at hStep
      | shutdownDone => simp [step, hConnector] at hStep
      | leaseAcquire =>
          simp only [step, Option.map_eq_some_iff] at hStep
          rcases hStep with ⟨leases, _, rfl⟩
          exact hSame rfl
      | leaseDrop =>
          simp only [step, Option.map_eq_some_iff] at hStep
          rcases hStep with ⟨leases, _, rfl⟩
          exact hSame rfl
      | advance span =>
          cases hStep
          exact hSame rfl

end Broker

end DevTunnel

end Sshdt

------------------------------------------------------------
-- What A Run Does To The Connector
------------------------------------------------------------

namespace Sshdt

namespace DevTunnel

namespace Broker

variable {start : Instant}
variable {s t u : Broker}

/-
  Every process that was spawned has been shut down, except
  for the one the connector owns.
-/
theorem spawns_eq
    {es : List Event}
    (hExec :
      (machine start).exec (machine start).init es =
        some s) :
    es.countP Event.spawns =
      es.countP Event.ends + s.connector.owns.toNat := by
  apply Machine.exec_history hExec
  · rfl
  · intro es s e t _ hCount hStep
    change s.step e = some t at hStep
    rw [List.countP_append, List.countP_append, hCount]
    rcases step_cases hStep with
      ⟨early, spawns, rfl⟩ | rfl | ⟨hWake, hEnds, hKeeps⟩
    · rcases wake_enabled hStep with
        ⟨_, until', hConnector, _, rfl⟩
      cases spawns <;>
        simp [hConnector, Event.spawns, Event.ends,
          Connector.owns, backOff]
    · rcases shutdownDone_enabled hStep with
        ⟨hConnector, rfl⟩
      simp [hConnector, Event.spawns, Event.ends,
        Connector.owns, backOff]
    · rw [hKeeps.owns]
      cases e <;>
        simp_all [Event.isWake, Event.spawns, Event.ends]

theorem quiet_of_keeps
    {e : Event}
    (hStep : s.step e = some t)
    (hKeeps : s.Keeps t) :
    s.Quiet e := by
  intro t' hStep'
  rw [hStep] at hStep'
  cases hStep'
  exact hKeeps.retry

/-
  A stretch of a run that begins with a spawn attempt and
  calls `retry.failed()` once: at the attempt itself when it
  fails, and at the end of the process otherwise. The broker
  then waits for the delay of that call.
-/
def FailsOnce
    (start : Instant)
    (s t : Broker)
    (spawns : Bool)
    (es : List Event) : Prop :=
  ∃ before e after x y,
    es = before ++ e :: after ∧
      (machine start).exec s before = some x ∧
      (machine start).MeetsAll Quiet s before ∧
      x.step e = some y ∧
      x.Fails y ∧
      (if spawns then e = .shutdownDone else before = []) ∧
      (machine start).exec y after = some t ∧
      (machine start).MeetsAll Quiet y after ∧
      t.connector =
        .waiting (x.now + (x.retry.failed x.now).1)

theorem backOff_fails
    (s : Broker) :
    s.Fails s.backOff :=
  ⟨rfl, rfl⟩

/- A failed attempt. -/
theorem wake_failsOnce
    {early : Bool}
    (hStep : s.step (.wake early false) = some t) :
    FailsOnce start s t false
      [.wake early false] := by
  rcases wake_enabled hStep with ⟨_, _, _, _, rfl⟩
  exact ⟨[], .wake early false, [], s, s.backOff, rfl, rfl,
    trivial, hStep, s.backOff_fails, rfl, rfl, trivial, rfl⟩

/- A quiet step after the call. -/
theorem FailsOnce.concat
    {spawns : Bool}
    {es : List Event}
    {e : Event}
    (hOnce : FailsOnce start s t spawns es)
    (hStep : t.step e = some u)
    (hKeeps : t.Keeps u) :
    FailsOnce start s u spawns (es ++ [e]) := by
  rcases hOnce with
    ⟨before, e', after, x, y, rfl, hBefore, hQuiet, hFail,
      hFails, hCause, hAfter, hQuiet', hWaits⟩
  refine ⟨before, e', after ++ [e], x, y, by simp, hBefore,
    hQuiet, hFail, hFails, hCause, ?_, ?_, ?_⟩
  · exact Machine.exec_append.mpr ⟨t, hAfter, by
      rw [Machine.exec_singleton]
      exact hStep⟩
  · exact hQuiet'.concat hAfter (quiet_of_keeps hStep hKeeps)
  · exact hKeeps.waiting _ hWaits

/-
  Between two attempts there is exactly one failure: the
  process is still owned and there was none, or there was
  one.
-/
theorem between_wakes
    {early spawns : Bool}
    {mid : List Event}
    (hExec :
      (machine start).exec s (.wake early spawns :: mid) =
        some t)
    (hMid : ∀ e ∈ mid, e.isWake = false) :
    (t.connector.owns = true ∧ spawns = true ∧
      (machine start).MeetsAll Quiet s
        (.wake early spawns :: mid)) ∨
      FailsOnce start s t spawns
        (.wake early spawns :: mid) := by
  induction mid using List.reverseRecOn generalizing t with
  | nil =>
      rw [Machine.exec_singleton] at hExec
      change s.step (.wake early spawns) = some t at hExec
      cases spawns with
      | false => exact .inr (wake_failsOnce hExec)
      | true =>
          rcases wake_enabled hExec with ⟨_, _, _, _, hNext⟩
          subst hNext
          refine .inl ⟨rfl, rfl, fun t' hStep' => ?_, ?_⟩
          · rw [hExec] at hStep'
            cases hStep'
            exact .inl rfl
          · split <;> trivial
  | append_singleton mid e ih =>
      rw [← List.cons_append] at hExec ⊢
      rcases Machine.exec_append.mp hExec with
        ⟨u, hBefore, hLast⟩
      rw [Machine.exec_singleton] at hLast
      change u.step e = some t at hLast
      have hPending := ih hBefore
        (fun e' hMember => hMid e' (by simp [hMember]))
      have hWake : e.isWake = false := hMid e (by simp)
      rcases step_cases hLast with
        ⟨_, _, rfl⟩ | rfl | ⟨_, hEnds, hKeeps⟩
      · cases hWake
      · rcases shutdownDone_enabled hLast with
          ⟨hConnector, rfl⟩
        rcases hPending with
          ⟨_, hSpawns, hQuiet⟩ | hOnce
        · subst hSpawns
          exact .inr ⟨_, .shutdownDone, [], u, u.backOff, rfl,
            hBefore, hQuiet, hLast, u.backOff_fails, rfl, rfl,
            trivial, rfl⟩
        · rcases hOnce with
            ⟨_, _, _, _, _, _, _, _, _, _, _, _, _, hWaits⟩
          rw [hConnector] at hWaits
          cases hWaits
      · rcases hPending with
          ⟨hOwns, hSpawns, hQuiet⟩ | hOnce
        · exact .inl ⟨hKeeps.owns.trans hOwns, hSpawns,
            hQuiet.concat hBefore
              (quiet_of_keeps hLast hKeeps)⟩
        · exact .inr (hOnce.concat hLast hKeeps)

theorem step_inactive
    {e : Event}
    (hStep : s.step e = some t)
    (hStopped : s.connector.isActive = false)
    (hSpawns : e.spawns = false) :
    t.connector.isActive = false ∧
      t.forwarding = s.forwarding := by
  rcases step_cases hStep with
    ⟨early, spawns, rfl⟩ | rfl | ⟨_, _, hKeeps⟩
  · rcases wake_enabled hStep with ⟨_, _, _, _, rfl⟩
    cases spawns with
    | true => cases hSpawns
    | false => exact ⟨rfl, rfl⟩
  · rcases shutdownDone_enabled hStep with ⟨_, rfl⟩
    exact ⟨rfl, rfl⟩
  · exact ⟨hKeeps.inactive hStopped,
      hKeeps.forwarding hStopped⟩

/-
  A connector that was told to stop, and the wait after it,
  leave the forwarding state alone.
-/
theorem stopping_keeps
    {es : List Event}
    (hExec : (machine start).exec s es = some t)
    (hStopped : s.connector.isActive = false)
    (hSpawns : ∀ e ∈ es, e.spawns = false) :
    t.connector.isActive = false ∧
      t.forwarding = s.forwarding := by
  induction es generalizing s with
  | nil =>
      simp only [Machine.exec, Option.some.injEq] at hExec
      subst hExec
      exact ⟨hStopped, rfl⟩
  | cons e es ih =>
      rcases Machine.exec_cons.mp hExec with
        ⟨u, hStep, hRest⟩
      change s.step e = some u at hStep
      have hOne :
          u.connector.isActive = false ∧
            u.forwarding = s.forwarding :=
        step_inactive hStep hStopped (hSpawns e (by simp))
      have hLater := ih hRest hOne.1
        (fun e' hMember => hSpawns e' (by simp [hMember]))
      exact ⟨hLater.1, hLater.2.trans hOne.2⟩

/-
  The life cycle, for every run of the broker loop. At most
  one process is owned; a spawn happens only while the broker
  waits with a port requested; between an attempt and the
  next one `retry.failed()` is called exactly once, and the
  next one comes after the delay of that call or early
  because of the network. A connector stops when it is told
  to and at no other step, its addresses leave the table at
  that step, and until the next spawn the broker neither
  becomes active again nor changes the forwarding state.
-/
theorem connector_life_cycle
    (start : Instant)
    {es : List Event}
    {s : Broker}
    (hExec :
      (machine start).exec (machine start).init es =
        some s) :
    es.countP Event.spawns =
        es.countP Event.ends + s.connector.owns.toNat ∧
      (∀ pre early spawns post,
        es = pre ++ .wake early spawns :: post →
          ∃ u until',
            (machine start).exec (machine start).init pre =
                some u ∧
              u.connector = .waiting until' ∧
              u.requested.isEmpty = false) ∧
      (∀ pre early spawns mid early' spawns' post,
        es =
            pre ++ .wake early spawns ::
              (mid ++ .wake early' spawns' :: post) →
          (∀ e ∈ mid, e.isWake = false) →
          ∃ u before e after x y w,
            (machine start).exec (machine start).init pre =
                some u ∧
              .wake early spawns :: mid =
                before ++ e :: after ∧
              (machine start).exec u before = some x ∧
              (machine start).MeetsAll Quiet u before ∧
              x.step e = some y ∧
              x.Fails y ∧
              (if spawns then e = .shutdownDone
                else before = []) ∧
              (machine start).exec y after = some w ∧
              (machine start).MeetsAll Quiet y after ∧
              (early' = true ∨
                x.now + (x.retry.failed x.now).1 ≤ w.now)) ∧
      (∀ pre e post u v,
        es = pre ++ e :: post →
          (machine start).exec (machine start).init pre =
            some u →
          u.step e = some v →
          u.connector.isActive = true →
          (v.connector.isActive = false ↔ u.ToldToStop e) ∧
            (u.ToldToStop e →
              (∃ draining,
                v.connector = .stopping draining) ∧
              v.forwarding = u.forwarding.clear ∧
              ((∀ e ∈ post, e.spawns = false) →
                s.connector.isActive = false ∧
                  s.forwarding = v.forwarding))) ∧
      ∀ pre post u draining,
        es = pre ++ post →
          (machine start).exec (machine start).init pre =
            some u →
          u.connector = .stopping draining →
          (∀ e ∈ post, e.spawns = false) →
          s.connector.isActive = false ∧
            s.forwarding = u.forwarding := by
  refine ⟨spawns_eq hExec, ?_, ?_, ?_, ?_⟩
  · rintro pre early spawns post rfl
    rcases Machine.exec_append.mp hExec with
      ⟨u, hBefore, hRest⟩
    rcases Machine.exec_cons.mp hRest with ⟨v, hStep, _⟩
    rcases wake_enabled hStep with
      ⟨hRequested, until', hConnector, _⟩
    exact ⟨u, until', hBefore, hConnector, hRequested⟩
  · rintro pre early spawns mid early' spawns' post rfl hMid
    rcases Machine.exec_append.mp hExec with
      ⟨u, hBefore, hRest⟩
    rw [← List.cons_append] at hRest
    rcases Machine.exec_append.mp hRest with
      ⟨w, hBetween, hNext⟩
    rcases Machine.exec_cons.mp hNext with ⟨v, hStep, _⟩
    rcases wake_enabled hStep with
      ⟨_, until', hConnector, hReady, _⟩
    rcases between_wakes hBetween hMid with
      ⟨hOwns, _⟩ |
        ⟨before, e, after, x, y, hSplit, hFirst, hQuiet,
          hFail, hFails, hCause, hAfter, hQuiet', hWaits⟩
    · rw [hConnector] at hOwns
      cases hOwns
    · rw [hConnector] at hWaits
      cases hWaits
      exact ⟨u, before, e, after, x, y, w, hBefore, hSplit,
        hFirst, hQuiet, hFail, hFails, hCause, hAfter,
        hQuiet', hReady⟩
  · rintro pre e post u v rfl hBefore hStep hActive
    have hStops : u.ToldToStop e →
        (∃ draining, v.connector = .stopping draining) ∧
          v.forwarding = u.forwarding.clear :=
      fun hTold => stopped_of_toldToStop hTold hStep
    have hInactive :
        u.ToldToStop e → v.connector.isActive = false := by
      intro hTold
      rcases (hStops hTold).1 with ⟨draining, hStopping⟩
      rw [hStopping]
      rfl
    refine ⟨⟨toldToStop_of_left hActive hStep, hInactive⟩,
      fun hTold => ⟨(hStops hTold).1, (hStops hTold).2, ?_⟩⟩
    intro hSpawns
    rcases Machine.exec_append.mp hExec with
      ⟨u', hBefore', hRest⟩
    rw [hBefore] at hBefore'
    cases hBefore'
    rcases Machine.exec_cons.mp hRest with
      ⟨v', hStep', hAfter⟩
    change u.step e = some v' at hStep'
    rw [hStep] at hStep'
    cases hStep'
    exact stopping_keeps hAfter (hInactive hTold) hSpawns
  · rintro pre post u draining rfl hBefore hStopping hSpawns
    rcases Machine.exec_append.mp hExec with
      ⟨u', hBefore', hRest⟩
    rw [hBefore] at hBefore'
    cases hBefore'
    apply stopping_keeps hRest _ hSpawns
    rw [hStopping]
    rfl

/- A failed spawn, a delay of 30 seconds and a spawn. -/
def respawnRun : List Event :=
  [.start 2222, .wake false false,
    .advance (Duration.fromSecs 30), .wake false true,
    .processEnds]

theorem respawnRun_life_cycle :
    ∃ u before e after x y w,
      (machine 0).exec (machine 0).init [.start 2222] =
          some u ∧
        .wake false false ::
            [.advance (Duration.fromSecs 30)] =
          before ++ e :: after ∧
        (machine 0).exec u before = some x ∧
        (machine 0).MeetsAll Quiet u before ∧
        x.step e = some y ∧
        x.Fails y ∧
        (if false = true then e = .shutdownDone
          else before = []) ∧
        (machine 0).exec y after = some w ∧
        (machine 0).MeetsAll Quiet y after ∧
        (false = true ∨
          x.now + (x.retry.failed x.now).1 ≤ w.now) :=
  (connector_life_cycle 0
      (Option.some_get (by decide :
        ((machine 0).exec (machine 0).init
          respawnRun).isSome = true)).symm).2.2.1
    [.start 2222] false false
    [.advance (Duration.fromSecs 30)] false true
    [.processEnds] rfl (by decide)

end Broker

end DevTunnel

end Sshdt
