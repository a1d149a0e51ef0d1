import Sshdt.DevTunnel.Broker
import Sshdt.Server.Auth

/-
  The sessions of the tunnel manager (`serve`,
  `ensure_relay` and `spawn_relay` in
  `src/devtunnel/client.rs`) next to the updates of the
  forwarding state, in any interleaving.

  A session is a small automaton over the awaits of `serve`.
  A relay is followed by the sessions that hold it, which
  stand for its strong count. Every successful answer is
  recorded together with the state it was given in.

  The port of a relay is one on which the relays of this
  manager listen and nobody else: a connection to it is
  accepted by one of them, or by none.

  Key definitions include:
    * `Update`
    * `Session`
    * `Relay`
    * `Manager`
    * `Manager.step`
    * `Manager.machine`
    * `Report.Sound`

  Key theorems include:
    * `Broker.step_updates`
    * `Manager.step_inv`
    * `Manager.generation_agreement`
-/

------------------------------------------------------------
-- Updates Of The Forwarding State
------------------------------------------------------------

namespace Sshdt

namespace DevTunnel

/- One `send_modify` of the broker. -/
inductive Update where
  | publish (local' : SocketAddr) (remote : UInt16)
  | clear
  deriving DecidableEq, Repr

/- The effect of an update on the watched value. -/
def Forwarding.apply
    (state : Forwarding) : Update → Forwarding
  | .publish local' remote =>
      { state with ports := publish state.ports local' remote }
  | .clear => state.clear

/- The tick publishes its addresses one by one. -/
theorem publishAll_updates
    (announcements : Std.TreeMap SocketAddr UInt16)
    (listeners : Std.TreeSet SocketAddr)
    (state : Forwarding) :
    ∃ updates : List Update,
      updates.foldl Forwarding.apply state =
        { state with
          ports := publishAll announcements listeners
            state.ports } := by
  rw [publishAll, Std.TreeMap.foldl_eq_foldl_toList]
  generalize announcements.toList = entries
  induction entries generalizing state with
  | nil => exact ⟨[], rfl⟩
  | cons entry entries ih =>
      rw [List.foldl_cons]
      by_cases hListens : listeners.contains entry.1 = true
      · rcases ih (state.apply
          (.publish entry.1 entry.2)) with ⟨updates, hRest⟩
        refine ⟨.publish entry.1 entry.2 :: updates, ?_⟩
        rw [List.foldl_cons, hRest]
        simp [Forwarding.apply, hListens]
      · rcases ih state with ⟨updates, hRest⟩
        exact ⟨updates, by simpa [hListens] using hRest⟩

namespace Broker

theorem stop_updates
    (s : Broker) :
    ∃ updates : List Update,
      updates.foldl Forwarding.apply s.forwarding =
        s.stop.forwarding := by
  cases hConnector : s.connector with
  | active active =>
      exact ⟨[.clear], by
        simp [stop, hConnector, Forwarding.apply]⟩
  | waiting until' => exact ⟨[], by simp [stop, hConnector]⟩
  | stopping draining =>
      exact ⟨[], by simp [stop, hConnector]⟩

/-
  Whatever a step of the broker loop does to the forwarding
  state is a sequence of updates.
-/
theorem step_updates
    {s t : Broker}
    {e : Event}
    (hStep : s.step e = some t) :
    ∃ updates : List Update,
      updates.foldl Forwarding.apply s.forwarding =
        t.forwarding := by
  cases e with
  | start port =>
      simp only [step] at hStep
      split at hStep <;> [skip; cases hStep]
      simp only [Option.some.injEq] at hStep
      subst hStep
      exact ⟨[], rfl⟩
  | wake early spawns =>
      simp only [step] at hStep
      split at hStep <;> [skip; cases hStep]
      split at hStep <;> [skip; cases hStep]
      split at hStep <;>
        (simp only [Option.some.injEq] at hStep
         subst hStep
         exact ⟨[], rfl⟩)
  | line text =>
      simp only [step] at hStep
      split at hStep <;> [skip; cases hStep]
      simp only [readLine] at hStep
      split at hStep
      · split at hStep
        · simp only [Option.some.injEq] at hStep
          subst hStep
          exact stop_updates s
        · simp only [Option.some.injEq] at hStep
          subst hStep
          exact ⟨[], rfl⟩
      · simp only [Option.some.injEq] at hStep
        subst hStep
        exact ⟨[], rfl⟩
      · cases hStep
  | processEnds =>
      simp only [step] at hStep
      split at hStep <;> [skip; cases hStep]
      simp only [endProcess] at hStep
      split at hStep
      · simp only [Option.some.injEq] at hStep
        subst hStep
        exact stop_updates s
      · simp only [Option.some.injEq] at hStep
        subst hStep
        exact ⟨[], rfl⟩
      · cases hStep
  | shutdownDone =>
      simp only [step] at hStep
      split at hStep <;> [skip; cases hStep]
      simp only [Option.some.injEq] at hStep
      subst hStep
      exact ⟨[], rfl⟩
  | tick =>
      simp only [step] at hStep
      split at hStep <;> [skip; cases hStep]
      simp only [Option.some.injEq] at hStep
      subst hStep
      simp only [idleTick]
      split
      · exact ⟨[], rfl⟩
      · split
        · next active hActive =>
            rcases publishAll_updates active.announcements
              active.listeners s.forwarding with
              ⟨updates, hPublished⟩
            simp only [publishTick]
            split
            · exact ⟨updates, hPublished⟩
            · split
              · refine ⟨updates ++ [.clear], ?_⟩
                rw [List.foldl_append, hPublished]
                simp [stop, hActive, Forwarding.apply]
              · exact ⟨updates, hPublished⟩
        · exact ⟨[], rfl⟩
  | leaseAcquire =>
      simp only [step, Option.map_eq_some_iff] at hStep
      rcases hStep with ⟨leases, _, rfl⟩
      exact ⟨[], rfl⟩
  | leaseDrop =>
      simp only [step, Option.map_eq_some_iff] at hStep
      rcases hStep with ⟨leases, _, rfl⟩
      exact ⟨[], rfl⟩
  | advance span =>
      simp only [step, Option.some.injEq] at hStep
      subst hStep
      exact ⟨[], rfl⟩

end Broker

end DevTunnel

end Sshdt

------------------------------------------------------------
-- Sessions And Relays
------------------------------------------------------------

namespace Sshdt

namespace DevTunnel

/- `ipc::VERSION`. -/
def ipcVersion : UInt32 := 1

/- `ipc::Request`. -/
structure Request where
  version : UInt32
  token : Text
  remotePort : UInt16
  localPort : Option UInt16
  deriving DecidableEq, Repr

/- `same_token`. -/
def sameToken
    (a b : Text) : Bool :=
  constantTimeEq a.asBytes b.asBytes

/-
  The part of a cloned forwarding state that `serve` and a
  relay go on to use: its generation and the address of
  their remote port.
-/
structure Snapshot where
  generation : Nat
  address : SocketAddr
  deriving DecidableEq, Repr

/-
  Where the destination stream of a session leads: nowhere
  yet, to an address, through the task of a relay that took
  a snapshot of its own, or to a relay that had no address.
-/
inductive Link where
  | dialing
  | direct (address : SocketAddr)
  | relayed
      (relay : Nat)
      (remotePort : UInt16)
      (snapshot : Snapshot)
  | dropped
  deriving DecidableEq, Repr

/- The address at the far end of a link. -/
def Link.destination : Link → Option SocketAddr
  | .direct address => some address
  | .relayed _ _ snapshot => some snapshot.address
  | .dialing | .dropped => none

/- Where a session stands between the awaits of `serve`. -/
inductive SessionPhase where
  | absent
  | reading
  | leased
  | starting
  | looping
  | waiting
  | connecting (snapshot : Snapshot) (link : Link)
  | connected (snapshot : Snapshot) (link : Link)
  | sleeping
  | established (generation : Nat) (link : Link)
  | closed
  deriving DecidableEq, Repr

/- One call of `serve`. -/
structure Session where
  phase : SessionPhase
  request : Request
  relay : Option Nat
  deriving DecidableEq, Repr

/- A session that has not been accepted. -/
def Session.absent : Session where
  phase := .absent
  request :=
    { version := 0, token := [], remotePort := 0
      localPort := none }
  relay := none

/-
  `Relay` and its task. The holders are the sessions that
  own an `Arc` of it.
-/
structure Relay where
  port : UInt16
  remotePort : UInt16
  holders : Finset Nat
  listening : Bool

/- A relay that has not been created. -/
def Relay.absent : Relay where
  port := 0
  remotePort := 0
  holders := ∅
  listening := false

/- An address that a generation has published for a port. -/
structure Publication where
  generation : Nat
  port : UInt16
  address : SocketAddr
  deriving DecidableEq, Repr

/-
  A success that `serve` reports to its client, with the
  generation that was current at its last check.
-/
structure Report where
  remotePort : UInt16
  localPort : Option UInt16
  generation : Nat
  link : Link
  current : Nat
  deriving DecidableEq, Repr

/- The broker as its sessions and relays see it. -/
structure Manager where
  forwarding : Forwarding
  published : List Publication
  sessions : Nat → Session
  relays : Nat → Relay
  nextRelay : Nat
  relayMap : UInt16 → Option Nat
  requested : List UInt16
  reports : List Report

namespace Manager

inductive Event where
  | update (u : Update)
  | accept (i : Nat)
  | receive (i : Nat) (request : Request) (granted : Bool)
  | ensureRelay (i : Nat) (binds : Bool)
  | start (i : Nat)
  | inspect (i : Nat)
  | changed (i : Nat)
  | dial (i : Nat)
  | relayAccept (i relay : Nat)
  | relayStops (relay : Nat)
  | banner (i : Nat)
  | connectFails (i : Nat)
  | interrupted (i : Nat)
  | check (i : Nat)
  | wake (i : Nat)
  | ends (i : Nat)
  deriving DecidableEq, Repr

/- A broker without sessions. -/
def initial : Manager where
  forwarding := Forwarding.default
  published := []
  sessions := fun _ => .absent
  relays := fun _ => .absent
  nextRelay := 0
  relayMap := fun _ => none
  requested := []
  reports := []

/- The entries of the table, under its generation. -/
def publications
    (state : Forwarding) : List Publication :=
  state.ports.toList.map fun entry =>
    { generation := state.generation
      port := entry.1
      address := entry.2 }

/- The state with another phase for a session. -/
def setPhase
    (s : Manager)
    (i : Nat)
    (phase : SessionPhase) : Manager :=
  { s with
    sessions := Function.update s.sessions i
      { s.sessions i with phase } }

/- The end of a session releases its relay. -/
def endSession
    (s : Manager)
    (i : Nat) : Manager :=
  { s with
    sessions := Function.update s.sessions i
      { s.sessions i with phase := .closed, relay := none }
    relays := fun id =>
      { s.relays id with
        holders := (s.relays id).holders.erase i } }

/- Some relay still listens on the local port. -/
def isBound
    (s : Manager)
    (port : UInt16) : Bool :=
  (List.range s.nextRelay).any fun id =>
    (s.relays id).listening && (s.relays id).port == port

/- The map without the relays that nobody holds. -/
def retained
    (s : Manager) : UInt16 → Option Nat :=
  fun port => (s.relayMap port).filter fun id =>
    (s.relays id).holders ≠ ∅

/- A session takes hold of a relay and goes on to start. -/
def hold
    (s : Manager)
    (i id : Nat) : Manager :=
  { s with
    sessions := Function.update s.sessions i
      { s.sessions i with
        phase := .starting, relay := some id }
    relays := Function.update s.relays id
      { s.relays id with
        holders := insert i (s.relays id).holders } }

/-
  `ensure_relay`. The listener is bound under the lock of
  the map; a bind on a port that is still bound fails.
-/
def ensureRelay
    (s : Manager)
    (i : Nat)
    (port remotePort : UInt16)
    (binds : Bool) : Option Manager :=
  let s := { s with relayMap := s.retained }
  match s.relayMap port with
  | some id =>
      if (s.relays id).remotePort = remotePort then
        some (s.hold i id)
      else
        some (s.endSession i)
  | none =>
      if binds then
        if s.isBound port then
          none
        else
          let id := s.nextRelay
          let s := { s with
            relays := Function.update s.relays id
              { port, remotePort, holders := ∅
                listening := true }
            nextRelay := id + 1
            relayMap :=
              Function.update s.relayMap port (some id) }
          some (s.hold i id)
      else
        some (s.endSession i)

/- What `serve` refuses after the lease is taken. -/
def invalidRequest
    (request : Request) : Bool :=
  request.version != ipcVersion || request.remotePort == 0 ||
    request.localPort == some 0

/- The relay task takes its own snapshot on accepting. -/
def acceptedLink
    (s : Manager)
    (id : Nat) : Link :=
  let remotePort := (s.relays id).remotePort
  match s.forwarding.ports[remotePort]? with
  | some address =>
      .relayed id remotePort
        { generation := s.forwarding.generation, address }
  | none => .dropped

def step
    (token : Text)
    (s : Manager) : Event → Option Manager
  | .update u =>
      let forwarding := s.forwarding.apply u
      some { s with
        forwarding
        published := s.published ++ publications forwarding }
  | .accept i =>
      match (s.sessions i).phase with
      | .absent => some (s.setPhase i .reading)
      | _ => none
  | .receive i request granted =>
      match (s.sessions i).phase with
      | .reading =>
          if sameToken request.token token && granted then
            some { s with
              sessions := Function.update s.sessions i
                { phase := .leased, request, relay := none } }
          else
            some (s.endSession i)
      | _ => none
  | .ensureRelay i binds =>
      let request := (s.sessions i).request
      match (s.sessions i).phase with
      | .leased =>
          if invalidRequest request then
            some (s.endSession i)
          else
            match request.localPort with
            | none => some (s.setPhase i .starting)
            | some port =>
                s.ensureRelay i port request.remotePort binds
      | _ => none
  | .start i =>
      match (s.sessions i).phase with
      | .starting =>
          some { s.setPhase i .looping with
            requested := s.requested ++
              [(s.sessions i).request.remotePort] }
      | _ => none
  | .inspect i =>
      let request := (s.sessions i).request
      match (s.sessions i).phase with
      | .looping =>
          if s.forwarding.error.isSome then
            some (s.endSession i)
          else
            match s.forwarding.ports[request.remotePort]? with
            | some address =>
                some (s.setPhase i (.connecting
                  { generation := s.forwarding.generation
                    address } .dialing))
            | none => some (s.setPhase i .waiting)
      | _ => none
  | .changed i =>
      match (s.sessions i).phase with
      | .waiting => some (s.setPhase i .looping)
      | _ => none
  | .dial i =>
      match (s.sessions i).phase,
          (s.sessions i).request.localPort with
      | .connecting snapshot .dialing, none =>
          some (s.setPhase i (.connecting snapshot
            (.direct snapshot.address)))
      | _, _ => none
  | .relayAccept i id =>
      match (s.sessions i).phase,
          (s.sessions i).request.localPort with
      | .connecting snapshot .dialing, some port =>
          if (s.relays id).listening &&
              (s.relays id).port == port then
            some (s.setPhase i (.connecting snapshot
              (s.acceptedLink id)))
          else
            none
      | _, _ => none
  | .relayStops id =>
      if (s.relays id).listening then
        some { s with
          relays := Function.update s.relays id
            { s.relays id with listening := false } }
      else
        none
  | .banner i =>
      match (s.sessions i).phase with
      | .connecting snapshot link =>
          if link.destination.isSome then
            some (s.setPhase i (.connected snapshot link))
          else
            none
      | _ => none
  | .connectFails i =>
      match (s.sessions i).phase with
      | .connecting _ _ => some (s.setPhase i .sleeping)
      | _ => none
  | .interrupted i =>
      match (s.sessions i).phase with
      | .connecting snapshot _ =>
          if s.forwarding.error.isSome ||
              s.forwarding.generation !=
                snapshot.generation then
            some (s.setPhase i .sleeping)
          else
            none
      | _ => none
  | .check i =>
      let request := (s.sessions i).request
      match (s.sessions i).phase with
      | .connected snapshot link =>
          if s.forwarding.generation =
              snapshot.generation then
            some { s.setPhase i
                (.established snapshot.generation link) with
              reports := s.reports ++ [{
                remotePort := request.remotePort
                localPort := request.localPort
                generation := snapshot.generation
                link
                current := s.forwarding.generation }] }
          else
            some (s.setPhase i .sleeping)
      | _ => none
  | .wake i =>
      match (s.sessions i).phase with
      | .sleeping => some (s.setPhase i .looping)
      | _ => none
  | .ends i => some (s.endSession i)

/- The sessions of a broker with the given token. -/
def machine
    (token : Text) : Machine Manager Event where
  init := initial
  step := step token

end Manager

end DevTunnel

end Sshdt

------------------------------------------------------------
-- Generation Agreement
------------------------------------------------------------

namespace Sshdt

namespace DevTunnel

/-
  A report is sound: its generation was current at the last
  check, its stream ends at an address that this generation
  published for the port, and a relay that carries it serves
  that port and took its snapshot in the same generation.
-/
structure Report.Sound
    (published : List Publication)
    (report : Report) : Prop where
  current : report.generation = report.current
  destination :
    ∃ address,
      report.link.destination = some address ∧
        { generation := report.current
          port := report.remotePort
          address } ∈ published
  carried :
    ∀ port, report.localPort = some port →
      ∃ relay snapshot,
        report.link =
            .relayed relay report.remotePort snapshot ∧
          snapshot.generation = report.generation

namespace Manager

/-
  A link that is being opened: its session's snapshot was
  published, and a relay's snapshot was taken later for the
  same port.
-/
def LinkInv
    (published : List Publication)
    (generation : Nat)
    (request : Request)
    (snapshot : Snapshot)
    (link : Link) : Prop :=
  snapshot.generation ≤ generation ∧
    { generation := snapshot.generation
      port := request.remotePort
      address := snapshot.address } ∈ published ∧
    match link with
    | .dialing | .dropped => True
    | .direct address =>
        address = snapshot.address ∧ request.localPort = none
    | .relayed _ remotePort taken =>
        remotePort = request.remotePort ∧
          snapshot.generation ≤ taken.generation ∧
          taken.generation ≤ generation ∧
          { generation := taken.generation
            port := request.remotePort
            address := taken.address } ∈ published

/- What the phase of a session promises. -/
def PhaseInv
    (published : List Publication)
    (generation : Nat)
    (session : Session) : Prop :=
  match session.phase with
  | .absent | .reading | .leased | .established _ _
  | .closed => True
  | .starting | .looping | .waiting | .sleeping =>
      session.request.localPort.isSome = true →
        session.relay.isSome = true
  | .connecting snapshot link =>
      (session.request.localPort.isSome = true →
        session.relay.isSome = true) ∧
        LinkInv published generation session.request
          snapshot link
  | .connected snapshot link =>
      (session.request.localPort.isSome = true →
        session.relay.isSome = true) ∧
        LinkInv published generation session.request
          snapshot link ∧
        link.destination.isSome = true

structure Inv
    (s : Manager) : Prop where
  table :
    ∀ port address,
      s.forwarding.ports[port]? = some address →
        { generation := s.forwarding.generation
          port
          address } ∈ s.published
  phases :
    ∀ i, PhaseInv s.published s.forwarding.generation
      (s.sessions i)
  holds :
    ∀ i id, (s.sessions i).relay = some id →
      i ∈ (s.relays id).holders ∧
        (s.relays id).remotePort =
          (s.sessions i).request.remotePort ∧
        ∃ port,
          (s.sessions i).request.localPort = some port ∧
            s.relayMap port = some id
  listening :
    ∀ id, (s.relays id).listening = true →
      s.relayMap (s.relays id).port = none ∨
        s.relayMap (s.relays id).port = some id
  fresh :
    ∀ id, s.nextRelay ≤ id →
      (s.relays id).listening = false
  mapped :
    ∀ port id, s.relayMap port = some id → id < s.nextRelay
  reports : ∀ report ∈ s.reports, report.Sound s.published

theorem initial_inv : initial.Inv := by
  constructor <;>
    simp [initial, Forwarding.default, Session.absent,
      Relay.absent, PhaseInv]

/- Later publications and generations keep a link's promise. -/
theorem LinkInv.mono
    {published published' : List Publication}
    {generation generation' : Nat}
    {request : Request}
    {snapshot : Snapshot}
    {link : Link}
    (hLink :
      LinkInv published generation request snapshot link)
    (hPublished : published ⊆ published')
    (hGeneration : generation ≤ generation') :
    LinkInv published' generation' request snapshot link := by
  rcases hLink with ⟨hOld, hMem, hMatch⟩
  refine ⟨hOld.trans hGeneration, hPublished hMem, ?_⟩
  cases link with
  | dialing | dropped => trivial
  | direct address => exact hMatch
  | relayed relay remotePort taken =>
      exact ⟨hMatch.1, hMatch.2.1,
        hMatch.2.2.1.trans hGeneration,
        hPublished hMatch.2.2.2⟩

theorem PhaseInv.mono
    {published published' : List Publication}
    {generation generation' : Nat}
    {session : Session}
    (hPhase : PhaseInv published generation session)
    (hPublished : published ⊆ published')
    (hGeneration : generation ≤ generation') :
    PhaseInv published' generation' session := by
  rcases session with ⟨phase, request, relay⟩
  cases phase with
  | absent | reading | leased | established | closed =>
      trivial
  | starting | looping | waiting | sleeping => exact hPhase
  | connecting snapshot link =>
      exact ⟨hPhase.1, hPhase.2.mono hPublished hGeneration⟩
  | connected snapshot link =>
      exact ⟨hPhase.1,
        hPhase.2.1.mono hPublished hGeneration, hPhase.2.2⟩

theorem Report.Sound.mono
    {published published' : List Publication}
    {report : Report}
    (hSound : report.Sound published)
    (hPublished : published ⊆ published') :
    report.Sound published' := by
  refine ⟨hSound.current, ?_, hSound.carried⟩
  rcases hSound.destination with ⟨address, hEnd, hMem⟩
  exact ⟨address, hEnd, hPublished hMem⟩

theorem apply_generation_le
    (state : Forwarding)
    (u : Update) :
    state.generation ≤ (state.apply u).generation := by
  cases u <;> simp [Forwarding.apply, Forwarding.clear]

theorem update_inv
    {s : Manager}
    (hInv : s.Inv)
    (u : Update) :
    ({ s with
      forwarding := s.forwarding.apply u
      published := s.published ++
        publications (s.forwarding.apply u) } : Manager).Inv where
  table := by
    intro port address hEntry
    rw [List.mem_append]
    refine Or.inr (List.mem_map.mpr ⟨(port, address), ?_, rfl⟩)
    exact Std.TreeMap.mem_toList_iff_getElem?_eq_some.mpr
      hEntry
  phases i :=
    (hInv.phases i).mono (List.subset_append_left _ _)
      (apply_generation_le _ u)
  holds := hInv.holds
  listening := hInv.listening
  fresh := hInv.fresh
  mapped := hInv.mapped
  reports report hMem :=
    Report.Sound.mono (hInv.reports report hMem)
      (List.subset_append_left _ _)

/- Moving one session to a phase whose promise holds. -/
theorem setPhase_inv
    {s : Manager}
    {i : Nat}
    {phase : SessionPhase}
    (hInv : s.Inv)
    (hPhase :
      PhaseInv s.published s.forwarding.generation
        { s.sessions i with phase }) :
    (s.setPhase i phase).Inv where
  table := hInv.table
  phases := by
    intro j
    by_cases hSame : j = i
    · subst hSame
      simpa [setPhase] using hPhase
    · simpa [setPhase, hSame] using hInv.phases j
  holds := by
    intro j id hHolds
    by_cases hSame : j = i
    · subst hSame
      simpa [setPhase] using
        hInv.holds j id (by simpa [setPhase] using hHolds)
    · simpa [setPhase, hSame] using
        hInv.holds j id (by
          simpa [setPhase, hSame] using hHolds)
  listening := hInv.listening
  fresh := hInv.fresh
  mapped := hInv.mapped
  reports := hInv.reports

theorem endSession_inv
    {s : Manager}
    (hInv : s.Inv)
    (i : Nat) :
    (s.endSession i).Inv where
  table := hInv.table
  phases := by
    intro j
    by_cases hSame : j = i
    · subst hSame
      simp [endSession, PhaseInv]
    · simpa [endSession, hSame] using hInv.phases j
  holds := by
    intro j id hHolds
    by_cases hSame : j = i
    · subst hSame
      simp [endSession] at hHolds
    · have hOld := hInv.holds j id (by
        simpa [endSession, hSame] using hHolds)
      simpa [endSession, hSame] using hOld
  listening := hInv.listening
  fresh := hInv.fresh
  mapped := hInv.mapped
  reports := hInv.reports

/- Dropping map entries of relays that nobody holds. -/
theorem retained_inv
    {s : Manager}
    (hInv : s.Inv) :
    ({ s with relayMap := s.retained } : Manager).Inv where
  table := hInv.table
  phases := hInv.phases
  holds := by
    intro i id hHolds
    rcases hInv.holds i id hHolds with
      ⟨hMem, hRemote, port, hPort, hMap⟩
    refine ⟨hMem, hRemote, port, hPort, ?_⟩
    simpa [retained, hMap] using Finset.ne_empty_of_mem hMem
  listening := by
    intro id hListening
    simp only [retained]
    rcases hInv.listening id hListening with hNone | hSome
    · simp [hNone]
    · rw [hSome]
      by_cases hHeld : (s.relays id).holders = ∅
      · simp [hHeld]
      · simp [hHeld]
  fresh := hInv.fresh
  mapped := by
    intro port id hMap
    simp only [retained, Option.filter_eq_some_iff] at hMap
    exact hInv.mapped port id hMap.1
  reports := hInv.reports

/- A session takes hold of the relay of its local port. -/
theorem hold_inv
    {s : Manager}
    {i id : Nat}
    {port : UInt16}
    (hInv : s.Inv)
    (hPort : (s.sessions i).request.localPort = some port)
    (hMap : s.relayMap port = some id)
    (hRemote :
      (s.relays id).remotePort =
        (s.sessions i).request.remotePort) :
    (s.hold i id).Inv := by
  have hFields :
      ∀ k, ((s.hold i id).relays k).port =
          (s.relays k).port ∧
        ((s.hold i id).relays k).remotePort =
          (s.relays k).remotePort ∧
        ((s.hold i id).relays k).listening =
          (s.relays k).listening ∧
        (s.relays k).holders ⊆
          ((s.hold i id).relays k).holders := by
    intro k
    by_cases hSame : k = id
    · subst hSame
      simp [hold]
    · simp [hold, hSame]
  refine ⟨hInv.table, ?_, ?_, ?_, ?_, hInv.mapped,
    hInv.reports⟩
  · intro j
    by_cases hSame : j = i
    · subst hSame
      simp [hold, PhaseInv]
    · simpa [hold, hSame] using hInv.phases j
  · intro j k hHolds
    rcases hFields k with ⟨_, hRemoteK, _, hSub⟩
    rw [hRemoteK]
    by_cases hSame : j = i
    · subst hSame
      simp only [hold, Function.update_self,
        Option.some.injEq] at hHolds
      subst hHolds
      refine ⟨?_, ?_, port, ?_, hMap⟩
      · simp [hold]
      · simpa [hold] using hRemote
      · simpa [hold] using hPort
    · rcases hInv.holds j k (by
        simpa [hold, hSame] using hHolds) with
        ⟨hMem, hRemoteJ, hRest⟩
      refine ⟨hSub hMem, ?_, ?_⟩
      · simpa [hold, hSame] using hRemoteJ
      · simpa [hold, hSame] using hRest
  · intro k hListening
    rcases hFields k with ⟨hPortK, _, hListenK, _⟩
    rw [hPortK]
    exact hInv.listening k (hListenK ▸ hListening)
  · intro k hFresh
    rw [(hFields k).2.2.1]
    exact hInv.fresh k hFresh

/- A new relay on a port that is free and not mapped. -/
theorem bind_inv
    {s : Manager}
    {port remotePort : UInt16}
    (hInv : s.Inv)
    (hFree : s.isBound port = false)
    (hNone : s.relayMap port = none) :
    ({ s with
      relays := Function.update s.relays s.nextRelay
        { port, remotePort, holders := ∅, listening := true }
      nextRelay := s.nextRelay + 1
      relayMap := Function.update s.relayMap port
        (some s.nextRelay) } : Manager).Inv := by
  have hOther :
      ∀ k, (s.relays k).listening = true →
        (s.relays k).port ≠ port := by
    intro k hListening hSame
    have hOld : k < s.nextRelay := by
      by_contra hNew
      rw [hInv.fresh k (Nat.le_of_not_lt hNew)] at hListening
      cases hListening
    rw [isBound, List.any_eq_false] at hFree
    exact hFree k (List.mem_range.mpr hOld)
      (by simp [hListening, hSame])
  refine ⟨hInv.table, hInv.phases, ?_, ?_, ?_, ?_,
    hInv.reports⟩
  · intro i id hHolds
    rcases hInv.holds i id hHolds with
      ⟨hMem, hRemote, p, hPort, hMap⟩
    have hOld := hInv.mapped p id hMap
    have hApart : p ≠ port := by
      rintro rfl
      rw [hNone] at hMap
      cases hMap
    simp only [Function.update_of_ne (Nat.ne_of_lt hOld)]
    exact ⟨hMem, hRemote, p, hPort, by
      rw [Function.update_of_ne hApart]; exact hMap⟩
  · intro k hListening
    by_cases hNew : k = s.nextRelay
    · subst hNew
      simp
    · simp only [Function.update_of_ne hNew] at hListening ⊢
      rw [Function.update_of_ne (hOther k hListening)]
      exact hInv.listening k hListening
  · intro k hFresh
    have hNew : k ≠ s.nextRelay := by
      rintro rfl
      exact absurd hFresh (Nat.not_succ_le_self _)
    simp only [Function.update_of_ne hNew]
    exact hInv.fresh k (Nat.le_of_succ_le hFresh)
  · intro p id hMap
    simp only [Function.update_apply] at hMap
    split at hMap
    · cases hMap
      exact Nat.lt_succ_self _
    · exact (hInv.mapped p id hMap).trans
        (Nat.lt_succ_self _)

theorem ensureRelay_inv
    {s t : Manager}
    {i : Nat}
    {port : UInt16}
    {binds : Bool}
    (hInv : s.Inv)
    (hPort : (s.sessions i).request.localPort = some port)
    (hEnsure :
      s.ensureRelay i port (s.sessions i).request.remotePort
        binds = some t) :
    t.Inv := by
  have hRetained := retained_inv hInv
  simp only [ensureRelay] at hEnsure
  split at hEnsure
  · next id hMap =>
      split at hEnsure
      · next hRemote =>
          simp only [Option.some.injEq] at hEnsure
          subst hEnsure
          exact hold_inv hRetained hPort hMap hRemote
      · simp only [Option.some.injEq] at hEnsure
        subst hEnsure
        exact endSession_inv hRetained i
  · next hNone =>
      split at hEnsure
      · split at hEnsure <;> [cases hEnsure; skip]
        next hFree =>
          simp only [Option.some.injEq] at hEnsure
          subst hEnsure
          refine hold_inv
            (bind_inv hRetained (by simpa using hFree) hNone)
            hPort ?_ ?_
          · simp
          · simp
      · simp only [Option.some.injEq] at hEnsure
        subst hEnsure
        exact endSession_inv hRetained i

/-
  The relay that accepts a connection of a session is the
  one that the session holds, so it serves the session's
  port; its snapshot is not older than the session's.
-/
theorem acceptedLink_inv
    {s : Manager}
    {i id : Nat}
    {port : UInt16}
    {snapshot : Snapshot}
    (hInv : s.Inv)
    (hPhase :
      (s.sessions i).phase = .connecting snapshot .dialing)
    (hPort : (s.sessions i).request.localPort = some port)
    (hListening : (s.relays id).listening = true)
    (hBound : (s.relays id).port = port) :
    LinkInv s.published s.forwarding.generation
      (s.sessions i).request snapshot (s.acceptedLink id) := by
  have hPromise := hInv.phases i
  simp only [PhaseInv, hPhase] at hPromise
  rcases hPromise with ⟨hRelay, hOld, hMem, _⟩
  rcases Option.isSome_iff_exists.mp
    (hRelay (by rw [hPort]; rfl)) with ⟨held, hHeld⟩
  rcases hInv.holds i held hHeld with
    ⟨_, hRemote, port', hPort', hMap⟩
  rw [hPort] at hPort'
  cases hPort'
  have hSame : id = held := by
    have hMapped := hInv.listening id hListening
    rw [hBound, hMap] at hMapped
    rcases hMapped with hNone | hSome
    · cases hNone
    · cases hSome
      rfl
  subst hSame
  refine ⟨hOld, hMem, ?_⟩
  cases hEntry :
      s.forwarding.ports[(s.relays id).remotePort]? with
  | none => simp only [acceptedLink, hEntry]
  | some address =>
      have hTable := hInv.table _ _ hEntry
      rw [hRemote] at hTable
      simp only [acceptedLink, hEntry]
      exact ⟨hRemote, hOld, Nat.le_refl _, hTable⟩

/-
  A report that passes the last check is sound: the
  generation was current, so a relay's snapshot, taken
  between the session's snapshot and now, is of it too.
-/
theorem report_sound
    {s : Manager}
    {i : Nat}
    {snapshot : Snapshot}
    {link : Link}
    (hInv : s.Inv)
    (hPhase :
      (s.sessions i).phase = .connected snapshot link)
    (hCurrent :
      s.forwarding.generation = snapshot.generation) :
    Report.Sound s.published {
      remotePort := (s.sessions i).request.remotePort
      localPort := (s.sessions i).request.localPort
      generation := snapshot.generation
      link
      current := s.forwarding.generation } := by
  have hPromise := hInv.phases i
  simp only [PhaseInv, hPhase] at hPromise
  rcases hPromise with ⟨_, ⟨_, hMem, hLink⟩, hEnd⟩
  cases link with
  | dialing => cases hEnd
  | dropped => cases hEnd
  | direct address =>
      simp only at hLink
      rcases hLink with ⟨rfl, hNoPort⟩
      refine ⟨hCurrent.symm, ⟨_, rfl, ?_⟩, ?_⟩
      · simp only [hCurrent]
        exact hMem
      · simp [hNoPort]
  | relayed relay remotePort taken =>
      simp only at hLink
      rcases hLink with ⟨rfl, hLater, hNow, hTaken⟩
      have hSame :
          taken.generation = s.forwarding.generation :=
        Nat.le_antisymm hNow (hCurrent ▸ hLater)
      rw [hSame] at hTaken
      exact ⟨hCurrent.symm, ⟨_, rfl, hTaken⟩, fun _ _ =>
        ⟨relay, taken, rfl, hSame.trans hCurrent⟩⟩

/- The promise of the phases that hold a relay and no link. -/
theorem Inv.relay_promise
    {s : Manager}
    {i : Nat}
    (hInv : s.Inv)
    (hPhase :
      match (s.sessions i).phase with
      | .starting | .looping | .waiting | .sleeping
      | .connecting _ _ | .connected _ _ => True
      | _ => False) :
    (s.sessions i).request.localPort.isSome = true →
      (s.sessions i).relay.isSome = true := by
  have hPromise := hInv.phases i
  simp only [PhaseInv] at hPromise
  split at hPromise <;> simp_all

/- A session that has its lease holds no relay yet. -/
theorem lease_inv
    {s : Manager}
    (hInv : s.Inv)
    (i : Nat)
    (request : Request) :
    { s with
      sessions := Function.update s.sessions i
        { phase := .leased, request, relay := none } }.Inv := by
  refine ⟨hInv.table, ?_, ?_, hInv.listening,
    hInv.fresh, hInv.mapped, hInv.reports⟩
  · intro j
    by_cases hSame : j = i
    · subst hSame
      simp [PhaseInv]
    · simpa [hSame] using hInv.phases j
  · intro j id hHolds
    by_cases hSame : j = i
    · subst hSame
      simp at hHolds
    · simpa [hSame] using
        hInv.holds j id (by simpa [hSame] using hHolds)

/- A relay that stops listening stays with its holders. -/
theorem relayStops_inv
    {s : Manager}
    (hInv : s.Inv)
    (id : Nat) :
    { s with
      relays := Function.update s.relays id
        { s.relays id with listening := false } }.Inv := by
  refine ⟨hInv.table, hInv.phases, ?_, ?_, ?_,
    hInv.mapped, hInv.reports⟩
  · intro i k hHolds
    have hOld := hInv.holds i k hHolds
    by_cases hSame : k = id
    · subst hSame
      simpa using hOld
    · simpa [hSame] using hOld
  · intro k hListening
    by_cases hSame : k = id
    · subst hSame
      simp at hListening
    · simp only [Function.update_of_ne hSame]
        at hListening ⊢
      exact hInv.listening k hListening
  · intro k hFresh
    by_cases hSame : k = id
    · subst hSame
      simp
    · simp only [Function.update_of_ne hSame]
      exact hInv.fresh k hFresh

/- One step keeps the invariant. -/
theorem step_inv
    {token : Text}
    {s t : Manager}
    {e : Event}
    (hInv : s.Inv)
    (hStep : s.step token e = some t) :
    t.Inv := by
  cases e with
  | update u =>
      simp only [step, Option.some.injEq] at hStep
      subst hStep
      exact update_inv hInv u
  | accept i =>
      simp only [step] at hStep
      split at hStep <;> [skip; cases hStep]
      simp only [Option.some.injEq] at hStep
      subst hStep
      exact setPhase_inv hInv trivial
  | receive i request granted =>
      simp only [step] at hStep
      split at hStep <;> [skip; cases hStep]
      split at hStep
      · simp only [Option.some.injEq] at hStep
        subst hStep
        exact lease_inv hInv i request
      · simp only [Option.some.injEq] at hStep
        subst hStep
        exact endSession_inv hInv i
  | ensureRelay i binds =>
      simp only [step] at hStep
      split at hStep <;> [skip; cases hStep]
      split at hStep
      · simp only [Option.some.injEq] at hStep
        subst hStep
        exact endSession_inv hInv i
      · split at hStep
        · next hNoPort =>
            simp only [Option.some.injEq] at hStep
            subst hStep
            exact setPhase_inv hInv (by
              simp [PhaseInv, hNoPort])
        · next port hPort =>
            exact ensureRelay_inv hInv hPort hStep
  | start i =>
      simp only [step] at hStep
      split at hStep <;> [skip; cases hStep]
      next hPhase =>
        simp only [Option.some.injEq] at hStep
        subst hStep
        have hNext : (s.setPhase i .looping).Inv :=
          setPhase_inv hInv
            (hInv.relay_promise (by rw [hPhase]; trivial))
        exact ⟨hNext.table, hNext.phases, hNext.holds,
          hNext.listening, hNext.fresh, hNext.mapped,
          hNext.reports⟩
  | inspect i =>
      simp only [step] at hStep
      split at hStep <;> [skip; cases hStep]
      next hPhase =>
        have hRelay := hInv.relay_promise (i := i)
          (by rw [hPhase]; trivial)
        split at hStep
        · simp only [Option.some.injEq] at hStep
          subst hStep
          exact endSession_inv hInv i
        · split at hStep
          · next address hEntry =>
              simp only [Option.some.injEq] at hStep
              subst hStep
              exact setPhase_inv hInv ⟨hRelay, Nat.le_refl _,
                hInv.table _ _ hEntry, trivial⟩
          · simp only [Option.some.injEq] at hStep
            subst hStep
            exact setPhase_inv hInv hRelay
  | changed i =>
      simp only [step] at hStep
      split at hStep <;> [skip; cases hStep]
      next hPhase =>
        simp only [Option.some.injEq] at hStep
        subst hStep
        exact setPhase_inv hInv
          (hInv.relay_promise (by rw [hPhase]; trivial))
  | dial i =>
      simp only [step] at hStep
      split at hStep <;> [skip; cases hStep]
      next snapshot hPhase hNoPort =>
        simp only [Option.some.injEq] at hStep
        subst hStep
        have hPromise := hInv.phases i
        simp only [PhaseInv, hPhase] at hPromise
        rcases hPromise with ⟨hRelay, hOld, hMem, _⟩
        exact setPhase_inv hInv
          ⟨hRelay, hOld, hMem, rfl, hNoPort⟩
  | relayAccept i id =>
      simp only [step] at hStep
      split at hStep <;> [skip; cases hStep]
      next snapshot port hPhase hPort =>
        split at hStep <;> [skip; cases hStep]
        next hAccepts =>
          simp only [Option.some.injEq] at hStep
          subst hStep
          simp only [Bool.and_eq_true, beq_iff_eq]
            at hAccepts
          exact setPhase_inv hInv
            ⟨hInv.relay_promise (by rw [hPhase]; trivial),
              acceptedLink_inv hInv hPhase hPort hAccepts.1
                hAccepts.2⟩
  | relayStops id =>
      simp only [step] at hStep
      split at hStep <;> [skip; cases hStep]
      simp only [Option.some.injEq] at hStep
      subst hStep
      exact relayStops_inv hInv id
  | banner i =>
      simp only [step] at hStep
      split at hStep <;> [skip; cases hStep]
      next snapshot link hPhase =>
        split at hStep <;> [skip; cases hStep]
        next hEnd =>
          simp only [Option.some.injEq] at hStep
          subst hStep
          have hPromise := hInv.phases i
          simp only [PhaseInv, hPhase] at hPromise
          exact setPhase_inv hInv
            ⟨hPromise.1, hPromise.2, hEnd⟩
  | connectFails i =>
      simp only [step] at hStep
      split at hStep <;> [skip; cases hStep]
      next hPhase =>
        simp only [Option.some.injEq] at hStep
        subst hStep
        exact setPhase_inv hInv
          (hInv.relay_promise (by rw [hPhase]; trivial))
  | interrupted i =>
      simp only [step] at hStep
      split at hStep <;> [skip; cases hStep]
      next hPhase =>
        split at hStep <;> [skip; cases hStep]
        simp only [Option.some.injEq] at hStep
        subst hStep
        exact setPhase_inv hInv
          (hInv.relay_promise (by rw [hPhase]; trivial))
  | check i =>
      simp only [step] at hStep
      split at hStep <;> [skip; cases hStep]
      next snapshot link hPhase =>
        split at hStep
        · next hCurrent =>
            simp only [Option.some.injEq] at hStep
            subst hStep
            have hNext :
                (s.setPhase i (.established
                  snapshot.generation link)).Inv :=
              setPhase_inv hInv trivial
            refine ⟨hNext.table, hNext.phases, hNext.holds,
              hNext.listening, hNext.fresh, hNext.mapped, ?_⟩
            intro report hMem
            rw [List.mem_append, List.mem_singleton] at hMem
            rcases hMem with hOld | rfl
            · exact hInv.reports report hOld
            · exact report_sound hInv hPhase hCurrent
        · simp only [Option.some.injEq] at hStep
          subst hStep
          exact setPhase_inv hInv
            (hInv.relay_promise (by rw [hPhase]; trivial))
  | wake i =>
      simp only [step] at hStep
      split at hStep <;> [skip; cases hStep]
      next hPhase =>
        simp only [Option.some.injEq] at hStep
        subst hStep
        exact setPhase_inv hInv
          (hInv.relay_promise (by rw [hPhase]; trivial))
  | ends i =>
      simp only [step, Option.some.injEq] at hStep
      subst hStep
      exact endSession_inv hInv i

theorem ensureRelay_reports
    {s t : Manager}
    {i : Nat}
    {port remotePort : UInt16}
    {binds : Bool}
    (hEnsure :
      s.ensureRelay i port remotePort binds = some t) :
    t.reports = s.reports := by
  simp only [ensureRelay] at hEnsure
  split at hEnsure
  · split at hEnsure <;>
      (simp only [Option.some.injEq] at hEnsure
       subst hEnsure
       rfl)
  · split at hEnsure
    · split at hEnsure <;> [cases hEnsure; skip]
      simp only [Option.some.injEq] at hEnsure
      subst hEnsure
      rfl
    · simp only [Option.some.injEq] at hEnsure
      subst hEnsure
      rfl

/-
  Only the last check adds a report, and it records the
  generation of the forwarding state at that moment.
-/
theorem step_reports
    {token : Text}
    {s t : Manager}
    {e : Event}
    (hInv : s.Inv)
    (hStep : s.step token e = some t) :
    t.reports = s.reports ∨
      ∃ report,
        t.reports = s.reports ++ [report] ∧
          report.current = s.forwarding.generation ∧
          report.Sound s.published := by
  cases e with
  | check i =>
      simp only [step] at hStep
      split at hStep <;> [skip; cases hStep]
      next snapshot link hPhase =>
        split at hStep
        · next hCurrent =>
            simp only [Option.some.injEq] at hStep
            subst hStep
            exact Or.inr ⟨_, rfl, rfl,
              report_sound hInv hPhase hCurrent⟩
        · simp only [Option.some.injEq] at hStep
          subst hStep
          exact Or.inl rfl
  | ensureRelay i binds =>
      left
      simp only [step] at hStep
      split at hStep <;> [skip; cases hStep]
      split at hStep
      · simp only [Option.some.injEq] at hStep
        subst hStep
        rfl
      · split at hStep
        · simp only [Option.some.injEq] at hStep
          subst hStep
          rfl
        · exact ensureRelay_reports hStep
  | inspect i =>
      left
      simp only [step] at hStep
      split at hStep <;> [skip; cases hStep]
      split at hStep
      · simp only [Option.some.injEq] at hStep
        subst hStep
        rfl
      · split at hStep <;>
          (simp only [Option.some.injEq] at hStep
           subst hStep
           rfl)
  | receive i request granted =>
      left
      simp only [step] at hStep
      split at hStep <;> [skip; cases hStep]
      split at hStep <;>
        (simp only [Option.some.injEq] at hStep
         subst hStep
         rfl)
  | relayAccept | banner | interrupted =>
      left
      simp only [step] at hStep
      split at hStep <;> [skip; cases hStep]
      split at hStep <;> [skip; cases hStep]
      simp only [Option.some.injEq] at hStep
      subst hStep
      rfl
  | accept | start | changed | dial | relayStops
  | connectFails | wake =>
      left
      simp only [step] at hStep
      split at hStep <;> [skip; cases hStep]
      simp only [Option.some.injEq] at hStep
      subst hStep
      rfl
  | update | ends =>
      left
      simp only [step, Option.some.injEq] at hStep
      subst hStep
      rfl

/-
  Generation agreement, in every state of every run: all
  successes that were reported are sound, and a step that
  reports one records the generation that is current then.
-/
theorem generation_agreement
    {token : Text}
    {s : Manager}
    (hReachable : (machine token).Reachable s) :
    (∀ report ∈ s.reports, report.Sound s.published) ∧
      ∀ e t, s.step token e = some t →
        t.reports = s.reports ∨
          ∃ report,
            t.reports = s.reports ++ [report] ∧
              report.current = s.forwarding.generation ∧
              report.Sound s.published := by
  have hInv : s.Inv :=
    hReachable.invariant initial_inv
      (fun _ _ _ hInv _ hStep => step_inv hInv hStep)
  exact ⟨hInv.reports, fun _ _ hStep =>
    step_reports hInv hStep⟩

/-
  A session through a relay: its first attempt meets a
  cleared table, the second one succeeds in the generation
  after it.
-/
def relayedRun : List Event :=
  let request : Request :=
    { version := 1, token := "t".toList
      remotePort := 2222, localPort := some 9000 }
  [.update (.publish (.v4 0x7f000001 2223) 2222),
    .accept 0, .receive 0 request true, .ensureRelay 0 true,
    .start 0, .inspect 0, .update .clear,
    .relayAccept 0 0, .interrupted 0, .wake 0,
    .inspect 0, .update
      (.publish (.v4 0x7f000001 2224) 2222),
    .changed 0, .inspect 0, .relayAccept 0 0,
    .banner 0, .check 0]

theorem relayedRun_agrees :
    let s := (machine "t".toList).final relayedRun
      (by decide)
    let report : Report :=
      { remotePort := 2222
        localPort := some 9000
        generation := 1
        link := .relayed 0 2222
          { generation := 1
            address := .v4 0x7f000001 2224 }
        current := 1 }
    report ∈ s.reports ∧ report.Sound s.published := by
  intro s report
  have hMem : report ∈ s.reports := by decide
  exact ⟨hMem, (generation_agreement
    (Machine.reachable_final (M := machine "t".toList)
      relayedRun (by decide))).1 report hMem⟩

end Manager

end DevTunnel

end Sshdt
