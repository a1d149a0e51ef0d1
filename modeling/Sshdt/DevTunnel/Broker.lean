import Sshdt.DevTunnel.Connector
import Sshdt.DevTunnel.Lease

/-
  The main loop of the tunnel manager (`broker` in
  `src/devtunnel/client.rs`): start requests, spawns of the
  connector, its output and its end, and the idle tick that
  publishes addresses.

  Whether a spawn succeeds, whether a network change ends a
  wait early and what the connector prints are data of the
  events. Sessions appear through their leases only.

  Key definitions include:
    * `Connector`
    * `Broker`
    * `Broker.step`
    * `Broker.machine`
    * `Broker.TableSound`
    * `Broker.NoReannouncement`

  Key theorems include:
    * `Broker.step_inv`
    * `Broker.step_generation`
    * `Broker.published_table_sound_iff`
-/

------------------------------------------------------------
-- Broker Loop
------------------------------------------------------------

namespace Sshdt

namespace DevTunnel

/-
  `Connector`. A stopping connector is draining while the
  loop waits for its shutdown.
-/
inductive Connector where
  | waiting (until' : Instant)
  | active (active : ActiveConnector)
  | stopping (draining : Bool)

/- `matches!(connector, Connector::Active(_))`. -/
def Connector.isActive : Connector → Bool
  | .active _ => true
  | _ => false

/- The state of the broker loop. -/
structure Broker where
  now : Instant
  forwarding : Forwarding
  connector : Connector
  requested : Std.TreeSet UInt16
  retry : Retry
  leases : LeaseState
  looping : Bool

namespace Broker

inductive Event where
  | start (port : UInt16)
  | wake (early spawns : Bool)
  | line (text : Text)
  | processEnds
  | shutdownDone
  | tick
  | leaseAcquire
  | leaseDrop
  | advance (span : Duration)
  deriving DecidableEq, Repr

/- The broker on entering its loop. -/
def initial
    (start : Instant) : Broker where
  now := start
  forwarding := Forwarding.default
  connector := .waiting start
  requested := ∅
  retry := Retry.default
  leases := LeaseState.default start
  looping := true

/- The loop is at its `select`. -/
def selecting
    (s : Broker) : Bool :=
  match s.connector with
  | .stopping true => false
  | _ => s.looping

/- `Connector::stop`. -/
def stop
    (s : Broker) : Broker :=
  match s.connector with
  | .active _ =>
      { s with
        forwarding := s.forwarding.clear
        connector := .stopping false }
  | _ => { s with connector := .waiting s.now }

/- The end of a connector or of a failed spawn. -/
def backOff
    (s : Broker) : Broker :=
  let (delay, retry) := s.retry.failed s.now
  { s with retry, connector := .waiting (s.now + delay) }

/- A line of the connector. -/
def readLine
    (s : Broker)
    (text : Text) : Option Broker :=
  match s.connector with
  | .active active =>
      if startupForwardingFailure text then
        some s.stop
      else
        some { s with
          connector := .active (active.observe text) }
  | .stopping _ => some s
  | .waiting _ => none

/- The end of the connector, up to the wait for its shutdown. -/
def endProcess
    (s : Broker) : Option Broker :=
  match s.connector with
  | .active _ =>
      some { s.stop with connector := .stopping true }
  | .stopping _ => some { s with connector := .stopping true }
  | .waiting _ => none

/- The idle tick with a running connector. -/
def publishTick
    (s : Broker)
    (active : ActiveConnector) : Broker :=
  let ports := publishAll active.announcements
    active.listeners s.forwarding.ports
  let s := { s with
    forwarding := { s.forwarding with ports } }
  if !ports.isEmpty then
    { s with
      connector := .active
        { active with startupDeadline := none }
      retry := s.retry.ready s.now }
  else if active.startupDeadline.any (· ≤ s.now) then
    s.stop
  else
    s

/- The idle tick. -/
def idleTick
    (s : Broker) : Broker :=
  let leases := beginIdleShutdown s.now s.leases
  let s := { s with leases }
  if leases.stopping then
    { s with looping := false }
  else
    match s.connector with
    | .active active => s.publishTick active
    | _ => s

def step
    (s : Broker) : Event → Option Broker
  | .start port =>
      if s.selecting then
        some { s with requested := s.requested.insert port }
      else
        none
  | .wake early spawns =>
      match s.connector with
      | .waiting until' =>
          if s.looping && !s.requested.isEmpty &&
              (early || decide (until' ≤ s.now)) then
            if spawns then
              some { s with
                connector := .active (.spawned s.now) }
            else
              some s.backOff
          else
            none
      | _ => none
  | .line text => if s.selecting then s.readLine text else none
  | .processEnds => if s.selecting then s.endProcess else none
  | .shutdownDone =>
      match s.connector with
      | .stopping true => some s.backOff
      | _ => none
  | .tick => if s.selecting then some s.idleTick else none
  | .leaseAcquire =>
      (Lease.acquire s.leases).map fun leases =>
        { s with leases }
  | .leaseDrop =>
      (Lease.drop s.now s.leases).map fun leases =>
        { s with leases }
  | .advance span => some { s with now := s.now + span }

/- The broker loop from the given time on. -/
def machine
    (start : Instant) : Machine Broker Event where
  init := initial start
  step := step

end Broker

end DevTunnel

end Sshdt

------------------------------------------------------------
-- Published Table
------------------------------------------------------------

namespace Sshdt

namespace DevTunnel

namespace Broker

/-
  The table is sound: every entry belongs to the running
  connector, which has reported the address as listening and
  whose latest announcement of it names the port.
-/
structure TableSound
    (s : Broker) : Prop where
  entries :
    ∀ port address,
      s.forwarding.ports[port]? = some address →
        ∃ active,
          s.connector = .active active ∧
            address.ip.isLoopback = true ∧
            address.port ≠ 0 ∧
            ReportedListening active.output address ∧
            latestAnnouncement active.output address =
              some port
  inactive :
    s.connector.isActive = false →
      s.forwarding.ports.isEmpty = true

/-
  A line of the running connector announces an address of
  the table for another remote port.
-/
def reannounces
    (s : Broker)
    (text : Text) : Bool :=
  s.connector.isActive && !startupForwardingFailure text &&
    match forwardingLine text with
    | some (remote, local') =>
        s.forwarding.ports.toList.any fun entry =>
          entry.2 == local' && entry.1 != remote
    | none => false

/- The step reads no such line. -/
def NoReannouncement
    (s : Broker) : Event → Prop
  | .line text => s.reannounces text = false
  | _ => True

instance decidableNoReannouncement
    (s : Broker) :
    (e : Event) → Decidable (s.NoReannouncement e)
  | .line text =>
      inferInstanceAs (Decidable (s.reannounces text = false))
  | .start _ | .wake _ _ | .processEnds | .shutdownDone
  | .tick | .leaseAcquire | .leaseDrop | .advance _ =>
      .isTrue trivial

/-
  Reading a line, a published address that the line
  announces keeps its port.
-/
theorem port_eq_of_not_reannounces
    {s : Broker}
    {text : Text}
    {port remote : UInt16}
    {address : SocketAddr}
    (hFresh : s.reannounces text = false)
    (hActive : s.connector.isActive = true)
    (hNotFailure : startupForwardingFailure text = false)
    (hLine : forwardingLine text = some (remote, address))
    (hEntry : s.forwarding.ports[port]? = some address) :
    port = remote := by
  by_contra hOther
  have hAny :
      (s.forwarding.ports.toList.any fun entry =>
        entry.2 == address && entry.1 != remote) = true := by
    rw [List.any_eq_true]
    refine ⟨(port, address), ?_, by simpa using hOther⟩
    exact Std.TreeMap.mem_toList_iff_getElem?_eq_some.mpr
      hEntry
  simp [reannounces, hActive, hNotFailure, hLine, hAny]
    at hFresh

/-
  The same as soundness, in terms of the sets that the code
  keeps, and these sets are faithful to the output.
-/
structure Inv
    (s : Broker) : Prop where
  faithful :
    ∀ active, s.connector = .active active →
      active.Faithful
  entries :
    ∀ port address,
      s.forwarding.ports[port]? = some address →
        ∃ active,
          s.connector = .active active ∧
            active.announcements[address]? = some port ∧
            address ∈ active.listeners

theorem initial_inv
    (start : Instant) :
    (initial start).Inv := by
  constructor
  · intro active hActive
    cases hActive
  · intro port address hEntry
    simp [initial, Forwarding.default] at hEntry

/- A state without a running connector and without entries. -/
theorem Inv.of_inactive
    {s : Broker}
    (hInactive : s.connector.isActive = false)
    (hEmpty :
      ∀ port : UInt16, s.forwarding.ports[port]? = none) :
    s.Inv := by
  constructor
  · intro active hActive
    rw [hActive] at hInactive
    cases hInactive
  · intro port address hEntry
    rw [hEmpty port] at hEntry
    cases hEntry

/- Without a running connector there are no entries. -/
theorem Inv.empty
    {s : Broker}
    (hInv : s.Inv)
    (hInactive : s.connector.isActive = false)
    (port : UInt16) :
    s.forwarding.ports[port]? = none := by
  cases hPort : s.forwarding.ports[port]? with
  | none => rfl
  | some address =>
      rcases hInv.entries port address hPort with
        ⟨active, hActive, _⟩
      rw [hActive] at hInactive
      cases hInactive

/- Steps that touch neither connector nor table. -/
theorem Inv.frame
    {s t : Broker}
    (hInv : s.Inv)
    (hConnector : t.connector = s.connector)
    (hPorts : t.forwarding.ports = s.forwarding.ports) :
    t.Inv := by
  constructor
  · rw [hConnector]
    exact hInv.faithful
  · rw [hConnector, hPorts]
    exact hInv.entries

/- Faithful sets turn the invariant into soundness. -/
theorem Inv.tableSound
    {s : Broker}
    (hInv : s.Inv) :
    s.TableSound where
  entries := by
    intro port address hEntry
    rcases hInv.entries port address hEntry with
      ⟨active, hActive, hAnnounced, hListens⟩
    have hFaithful := hInv.faithful active hActive
    have hReported :=
      (hFaithful.listeners address).mp hListens
    rcases hReported with ⟨line, hMem, hLine⟩
    have hLoopback := listeningLine_loopback hLine
    rw [hFaithful.announcements] at hAnnounced
    exact ⟨active, hActive, hLoopback.1, hLoopback.2,
      ⟨line, hMem, hLine⟩, hAnnounced⟩
  inactive := by
    intro hInactive
    rw [Std.TreeMap.isEmpty_iff_forall_not_mem]
    intro port
    rw [Std.TreeMap.mem_iff_isSome_getElem?,
      hInv.empty hInactive port]
    simp

theorem stop_inv
    {s : Broker}
    (hInv : s.Inv) :
    s.stop.Inv := by
  cases hConnector : s.connector with
  | active active =>
      simp only [stop, hConnector]
      exact Inv.of_inactive rfl
        (by simp [Forwarding.clear])
  | waiting until' =>
      simp only [stop, hConnector]
      exact Inv.of_inactive rfl
        (hInv.empty (by rw [hConnector]; rfl))
  | stopping draining =>
      simp only [stop, hConnector]
      exact Inv.of_inactive rfl
        (hInv.empty (by rw [hConnector]; rfl))

theorem backOff_inv
    {s : Broker}
    (hInv : s.Inv)
    (hInactive : s.connector.isActive = false) :
    s.backOff.Inv :=
  Inv.of_inactive rfl (hInv.empty hInactive)

/- Reading a line that re-announces no published address. -/
theorem readLine_inv
    {s t : Broker}
    {text : Text}
    (hInv : s.Inv)
    (hFresh : s.NoReannouncement (.line text))
    (hRead : s.readLine text = some t) :
    t.Inv := by
  simp only [readLine] at hRead
  split at hRead
  · next active hActive =>
      split at hRead
      · simp only [Option.some.injEq] at hRead
        subst hRead
        exact stop_inv hInv
      · next hNotFailure =>
          simp only [Option.some.injEq] at hRead
          subst hRead
          have hFaithful := hInv.faithful active hActive
          constructor
          · intro active' hActive'
            cases hActive'
            exact ActiveConnector.observe_faithful hFaithful
              text
          · intro port address hEntry
            rcases hInv.entries port address hEntry with
              ⟨active', hActive', hAnnounced, hListens⟩
            rw [hActive] at hActive'
            cases hActive'
            refine ⟨_, rfl, ?_, ?_⟩
            · simp only [ActiveConnector.observe]
              split
              · next remote local' hLine =>
                  rw [Std.TreeMap.getElem?_insert]
                  simp only [Std.compare_eq_iff_eq]
                  split
                  · next hSame =>
                      subst hSame
                      exact congrArg some
                        (port_eq_of_not_reannounces hFresh
                          (by rw [hActive]; rfl)
                          (by simpa using hNotFailure)
                          hLine hEntry).symm
                  · exact hAnnounced
              · exact hAnnounced
            · simp only [ActiveConnector.observe]
              split
              · rw [Std.TreeSet.mem_insert]
                exact Or.inr hListens
              · exact hListens
  · simp only [Option.some.injEq] at hRead
    subst hRead
    exact hInv
  · cases hRead

theorem endProcess_inv
    {s t : Broker}
    (hInv : s.Inv)
    (hEnd : s.endProcess = some t) :
    t.Inv := by
  simp only [endProcess] at hEnd
  split at hEnd
  · next active hActive =>
      simp only [Option.some.injEq] at hEnd
      subst hEnd
      refine Inv.of_inactive rfl ?_
      simp [stop, hActive, Forwarding.clear]
  · next draining hStopping =>
      simp only [Option.some.injEq] at hEnd
      subst hEnd
      exact Inv.of_inactive rfl
        (hInv.empty (by rw [hStopping]; rfl))
  · cases hEnd

/- The tick publishes announced addresses that listen. -/
theorem publishTick_inv
    {s : Broker}
    {active : ActiveConnector}
    (hInv : s.Inv)
    (hActive : s.connector = .active active) :
    (s.publishTick active).Inv := by
  have hEntries :
      ∀ port address,
        (publishAll active.announcements active.listeners
            s.forwarding.ports)[port]? = some address →
          active.announcements[address]? = some port ∧
            address ∈ active.listeners := by
    intro port address hEntry
    rcases publishAll_sound hEntry with hOld | hNew
    · rcases hInv.entries port address hOld with
        ⟨active', hActive', hBoth⟩
      rw [hActive] at hActive'
      cases hActive'
      exact hBoth
    · exact hNew
  have hFaithful := hInv.faithful active hActive
  have hPublished :
      ∀ forwarding : Forwarding,
        forwarding.ports =
            publishAll active.announcements active.listeners
              s.forwarding.ports →
          ({ s with forwarding } : Broker).Inv := by
    intro forwarding hPorts
    constructor
    · exact hInv.faithful
    · intro port address hEntry
      rw [hPorts] at hEntry
      exact ⟨active, hActive, hEntries port address hEntry⟩
  simp only [publishTick]
  split
  · constructor
    · intro active' hActive'
      cases hActive'
      exact ⟨hFaithful.announcements, hFaithful.listeners⟩
    · intro port address hEntry
      exact ⟨_, rfl, hEntries port address hEntry⟩
  · split
    · exact stop_inv (hPublished _ rfl)
    · exact hPublished _ rfl

/- One step keeps the invariant. -/
theorem step_inv
    {s t : Broker}
    {e : Event}
    (hInv : s.Inv)
    (hFresh : s.NoReannouncement e)
    (hStep : s.step e = some t) :
    t.Inv := by
  cases e with
  | start port =>
      simp only [step] at hStep
      split at hStep <;> [skip; cases hStep]
      simp only [Option.some.injEq] at hStep
      subst hStep
      exact hInv.frame rfl rfl
  | wake early spawns =>
      simp only [step] at hStep
      split at hStep <;> [skip; cases hStep]
      next until' hWaiting =>
        have hInactive : s.connector.isActive = false := by
          rw [hWaiting]
          rfl
        split at hStep <;> [skip; cases hStep]
        split at hStep
        · simp only [Option.some.injEq] at hStep
          subst hStep
          constructor
          · intro active hActive
            cases hActive
            exact ActiveConnector.spawned_faithful s.now
          · intro port address hEntry
            rw [hInv.empty hInactive port] at hEntry
            cases hEntry
        · simp only [Option.some.injEq] at hStep
          subst hStep
          exact backOff_inv hInv hInactive
  | line text =>
      simp only [step] at hStep
      split at hStep <;> [skip; cases hStep]
      exact readLine_inv hInv hFresh hStep
  | processEnds =>
      simp only [step] at hStep
      split at hStep <;> [skip; cases hStep]
      exact endProcess_inv hInv hStep
  | shutdownDone =>
      simp only [step] at hStep
      split at hStep <;> [skip; cases hStep]
      next hDraining =>
        simp only [Option.some.injEq] at hStep
        subst hStep
        exact backOff_inv hInv (by rw [hDraining]; rfl)
  | tick =>
      simp only [step] at hStep
      split at hStep <;> [skip; cases hStep]
      simp only [Option.some.injEq] at hStep
      subst hStep
      simp only [idleTick]
      split
      · exact hInv.frame rfl rfl
      · split
        · next active hActive =>
            exact publishTick_inv (hInv.frame rfl rfl) hActive
        · exact hInv.frame rfl rfl
  | leaseAcquire =>
      simp only [step, Option.map_eq_some_iff] at hStep
      rcases hStep with ⟨leases, _, rfl⟩
      exact hInv.frame rfl rfl
  | leaseDrop =>
      simp only [step, Option.map_eq_some_iff] at hStep
      rcases hStep with ⟨leases, _, rfl⟩
      exact hInv.frame rfl rfl
  | advance span =>
      simp only [step, Option.some.injEq] at hStep
      subst hStep
      exact hInv.frame rfl rfl

/- A sound state after a line read nothing re-announced. -/
theorem noReannouncement_of_tableSound
    {s t : Broker}
    {e : Event}
    (hSound : t.TableSound)
    (hStep : s.step e = some t) :
    s.NoReannouncement e := by
  cases e with
  | line text =>
      simp only [NoReannouncement]
      by_contra hAgain
      simp only [Bool.not_eq_false, reannounces,
        Bool.and_eq_true, Bool.not_eq_true'] at hAgain
      rcases hAgain with ⟨⟨hActive, hNotFailure⟩, hMatch⟩
      cases hLine : forwardingLine text with
      | none => simp [hLine] at hMatch
      | some entry =>
          rcases entry with ⟨remote, local'⟩
          simp only [hLine, List.any_eq_true,
            Bool.and_eq_true, beq_iff_eq, bne_iff_ne]
            at hMatch
          rcases hMatch with
            ⟨⟨port, address⟩, hMem, rfl, hOther⟩
          rw [Std.TreeMap.mem_toList_iff_getElem?_eq_some]
            at hMem
          cases hConnector : s.connector with
          | active active =>
              simp only [step] at hStep
              split at hStep <;> [skip; cases hStep]
              simp only [readLine, hConnector, hNotFailure,
                Bool.false_eq_true, if_false,
                Option.some.injEq] at hStep
              subst hStep
              rcases hSound.entries port address hMem with
                ⟨active', hActive', _, _, _, hLatest⟩
              cases hActive'
              simp [latestAnnouncement,
                ActiveConnector.observe, announcedPort,
                hLine] at hLatest
              exact hOther hLatest.symm
          | waiting until' =>
              rw [hConnector] at hActive
              cases hActive
          | stopping draining =>
              rw [hConnector] at hActive
              cases hActive
  | start | wake | processEnds | shutdownDone | tick
  | leaseAcquire | leaseDrop | advance => trivial

end Broker

end DevTunnel

end Sshdt

------------------------------------------------------------
-- Generations And Address Families
------------------------------------------------------------

namespace Sshdt

namespace DevTunnel

namespace Broker

/- Whether a step leaves the running connector. -/
def leaves
    (s t : Broker) : Nat :=
  if s.connector.isActive && !t.connector.isActive then 1 else 0

theorem stop_generation
    (s : Broker) :
    s.stop.forwarding.generation =
      s.forwarding.generation + s.leaves s.stop := by
  cases hConnector : s.connector <;>
    simp [stop, hConnector, leaves, Connector.isActive,
      Forwarding.clear]

theorem publishTick_generation
    {s : Broker}
    {active : ActiveConnector}
    (hActive : s.connector = .active active) :
    (s.publishTick active).forwarding.generation =
      s.forwarding.generation +
        s.leaves (s.publishTick active) := by
  simp only [publishTick]
  split
  · simp [leaves, Connector.isActive]
  · split
    · simp [stop, hActive, leaves, Connector.isActive,
        Forwarding.clear]
    · simp [leaves, hActive, Connector.isActive]

/-
  The generation grows by one on leaving a running
  connector and not otherwise.
-/
theorem step_generation
    {s t : Broker}
    {e : Event}
    (hStep : s.step e = some t) :
    t.forwarding.generation =
      s.forwarding.generation + s.leaves t := by
  cases e with
  | start port =>
      simp only [step] at hStep
      split at hStep <;> [skip; cases hStep]
      simp only [Option.some.injEq] at hStep
      subst hStep
      simp [leaves]
  | wake early spawns =>
      simp only [step] at hStep
      split at hStep <;> [skip; cases hStep]
      next until' hWaiting =>
        split at hStep <;> [skip; cases hStep]
        split at hStep <;>
          (simp only [Option.some.injEq] at hStep
           subst hStep
           simp [leaves, hWaiting, Connector.isActive,
             backOff])
  | line text =>
      simp only [step] at hStep
      split at hStep <;> [skip; cases hStep]
      simp only [readLine] at hStep
      split at hStep
      · next active hActive =>
          split at hStep
          · simp only [Option.some.injEq] at hStep
            subst hStep
            exact stop_generation s
          · simp only [Option.some.injEq] at hStep
            subst hStep
            simp [leaves, Connector.isActive]
      · simp only [Option.some.injEq] at hStep
        subst hStep
        simp [leaves]
      · cases hStep
  | processEnds =>
      simp only [step] at hStep
      split at hStep <;> [skip; cases hStep]
      simp only [endProcess] at hStep
      split at hStep
      · next active hActive =>
          simp only [Option.some.injEq] at hStep
          subst hStep
          simp [stop, hActive, leaves, Connector.isActive,
            Forwarding.clear]
      · next draining hStopping =>
          simp only [Option.some.injEq] at hStep
          subst hStep
          simp [leaves, hStopping, Connector.isActive]
      · cases hStep
  | shutdownDone =>
      simp only [step] at hStep
      split at hStep <;> [skip; cases hStep]
      next hDraining =>
        simp only [Option.some.injEq] at hStep
        subst hStep
        simp [leaves, hDraining, Connector.isActive, backOff]
  | tick =>
      simp only [step] at hStep
      split at hStep <;> [skip; cases hStep]
      simp only [Option.some.injEq] at hStep
      subst hStep
      simp only [idleTick]
      split
      · simp [leaves]
      · split
        · next active hActive =>
            exact publishTick_generation hActive
        · simp [leaves]
  | leaseAcquire =>
      simp only [step, Option.map_eq_some_iff] at hStep
      rcases hStep with ⟨leases, _, rfl⟩
      simp [leaves]
  | leaseDrop =>
      simp only [step, Option.map_eq_some_iff] at hStep
      rcases hStep with ⟨leases, _, rfl⟩
      simp [leaves]
  | advance span =>
      simp only [step, Option.some.injEq] at hStep
      subst hStep
      simp [leaves]

/-
  After a tick that keeps the loop going, a port with an
  announced and listening IPv4 address has an IPv4 address.
-/
theorem tick_ipv4
    {s t : Broker}
    {active : ActiveConnector}
    {port : UInt16}
    {address : SocketAddr}
    (hStep : s.step .tick = some t)
    (hLooping : t.looping = true)
    (hActive : s.connector = .active active)
    (hAnnounced :
      active.announcements[address]? = some port)
    (hListens : address ∈ active.listeners)
    (hIpv4 : address.isIpv4 = true) :
    ∃ selected,
      t.forwarding.ports[port]? = some selected ∧
        selected.isIpv4 = true := by
  simp only [step] at hStep
  split at hStep <;> [skip; cases hStep]
  simp only [Option.some.injEq] at hStep
  subst hStep
  have hPublished := publishAll_ipv4 s.forwarding.ports
    hAnnounced hListens hIpv4
  rcases hPublished with ⟨selected, hSelected, hFour⟩
  refine ⟨selected, ?_, hFour⟩
  have hFilled :
      (publishAll active.announcements active.listeners
        s.forwarding.ports).isEmpty = false := by
    rw [← Bool.not_eq_true,
      Std.TreeMap.isEmpty_iff_forall_not_mem]
    intro hNone
    apply hNone port
    rw [Std.TreeMap.mem_iff_isSome_getElem?, hSelected]
    rfl
  simp only [idleTick] at hLooping ⊢
  split at hLooping
  · cases hLooping
  · next hStopping =>
      simp only [hStopping, hActive, publishTick,
        hFilled, Bool.not_false, if_true]
      exact hSelected

/-
  The published table is sound in every run in which no line
  re-announces a published address for another port, and a
  step that does so makes it unsound. In these runs the
  generation counts the connectors that were left, and the
  tick prefers IPv4.
-/
theorem published_table_sound_iff
    {start : Instant}
    {s : Broker}
    (hReaches : (machine start).Reaches NoReannouncement s) :
    s.TableSound ∧
      (∀ e t, s.step e = some t →
        (t.TableSound ↔ s.NoReannouncement e) ∧
          t.forwarding.generation =
            s.forwarding.generation + s.leaves t) ∧
      ∀ t active port address,
        s.step .tick = some t → t.looping = true →
        s.connector = .active active →
        latestAnnouncement active.output address = some port →
        ReportedListening active.output address →
        address.isIpv4 = true →
          ∃ selected,
            t.forwarding.ports[port]? = some selected ∧
              selected.isIpv4 = true := by
  have hInv : s.Inv :=
    hReaches.invariant (initial_inv start)
      (fun _ _ _ hInv hFresh hStep =>
        step_inv hInv hFresh hStep)
  refine ⟨hInv.tableSound, ?_, ?_⟩
  · intro e t hStep
    refine ⟨⟨?_, ?_⟩, step_generation hStep⟩
    · intro hSound
      exact noReannouncement_of_tableSound hSound hStep
    · intro hFresh
      exact (step_inv hInv hFresh hStep).tableSound
  · intro t active port address hStep hLooping hActive
      hAnnounced hReported hIpv4
    have hFaithful := hInv.faithful active hActive
    rw [← hFaithful.announcements] at hAnnounced
    exact tick_ipv4 hStep hLooping hActive hAnnounced
      ((hFaithful.listeners address).mpr hReported) hIpv4

/- One forwarding that is announced, listens and is published. -/
def publishRun : List Event :=
  [.start 2222, .wake false true,
    .line ("Forwarding from 127.0.0.1:2223 " ++
      "to host port 2222.").toList,
    .line ("PortForwardingService listening on " ++
      "127.0.0.1:2223.").toList,
    .tick]

theorem publishRun_sound :
    let s := (machine 0).final publishRun (by decide)
    s.forwarding.ports[(2222 : UInt16)]? =
        some (.v4 0x7f000001 2223) ∧
      s.TableSound := by
  intro s
  refine ⟨by decide +kernel, ?_⟩
  exact (published_table_sound_iff
    (Machine.reaches_final (M := machine 0) publishRun
      _ (by decide +kernel))).1

/- The same address is then announced for another port. -/
def reannounceRun : List Event :=
  publishRun ++
    [.line ("Forwarding from 127.0.0.1:2223 " ++
      "to host port 3333.").toList]

theorem reannounceRun_unsound :
    let s := (machine 0).final reannounceRun (by decide)
    (machine 0).Reachable s ∧ ¬ s.TableSound := by
  intro s
  refine ⟨Machine.reachable_final _ _, fun hSound => ?_⟩
  rcases hSound.entries 2222 (.v4 0x7f000001 2223)
      (by decide +kernel) with
    ⟨active, hActive, _, _, _, hLatest⟩
  have hPort :
      (match s.connector with
        | .active active =>
            latestAnnouncement active.output
              (.v4 0x7f000001 2223)
        | _ => none) = some 3333 := by
    decide +kernel
  rw [hActive] at hPort
  simp only [hLatest] at hPort
  cases hPort

end Broker

end DevTunnel

end Sshdt
