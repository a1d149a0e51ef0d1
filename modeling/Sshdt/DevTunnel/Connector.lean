import Sshdt.Lib.Machine
import Sshdt.Lib.Net

/-
  The connector process of the tunnel manager and the
  forwarding table that is built from its output
  (`src/devtunnel/client.rs`, `src/devtunnel/retry.rs`).

  A running connector keeps, next to the two sets that the
  code fills, every line that was read from it.

  Key definitions include:
    * `forwardingLine`
    * `listeningLine`
    * `Forwarding`
    * `ActiveConnector`
    * `publishAll`
    * `Retry`

  Key theorems include:
    * `publishAll_sound`
    * `publishAll_ipv4`
    * `ActiveConnector.observe_faithful`
-/

------------------------------------------------------------
-- Connector Output
------------------------------------------------------------

namespace Sshdt

namespace DevTunnel

/- `startup_forwarding_failure`. -/
def startupForwardingFailure
    (line : Text) : Bool :=
  (Text.splitOnce
      "System.InvalidOperationException: Port ".toList
      line).isSome &&
    (Text.splitOnce " is not being forwarded.".toList
      line).isSome

/- A line without its surrounding blanks and log tag. -/
def untagged
    (line : Text) : Text :=
  (line.trim.dropPrefix? "SSH: ".toList).getD line.trim

/- `listening_line`. -/
def listeningLine
    (line : Text) : Option SocketAddr := do
  let line := untagged line
  let local' ←
    (line.dropPrefix?
        "PortForwardingService listening on ".toList).or
      (line.dropPrefix?
        "PortForwardingService also listening on ".toList)
  let local' ← local'.dropSuffix? ".".toList
  let address ←
    (SocketAddr.parse local').or do
      let (ip, port) ← Text.rsplitOnce ':' local'
      some (SocketAddr.new (← IpAddr.parse ip)
        (← Text.parseU16 port))
  if address.ip.isLoopback && address.port != 0 then
    some address
  else
    none

/- `forwarding_line`. -/
def forwardingLine
    (line : Text) : Option (UInt16 × SocketAddr) := do
  let line := untagged line
  let rest ← line.dropPrefix? "Forwarding from ".toList
  let (local', remote) ←
    Text.splitOnce " to host port ".toList rest
  let local' ← SocketAddr.parse local'
  let remote ← Text.parseU16
    ((remote.dropSuffix? ".".toList).getD remote)
  if local'.ip.isLoopback && local'.port != 0 &&
      remote != 0 then
    some (remote, local')
  else
    none

/- A listening address is a loopback address with a port. -/
theorem listeningLine_loopback
    {line : Text}
    {address : SocketAddr}
    (hLine : listeningLine line = some address) :
    address.ip.isLoopback = true ∧ address.port ≠ 0 := by
  simp only [listeningLine, Option.bind_eq_bind,
    Option.bind_eq_some_iff] at hLine
  rcases hLine with ⟨_, _, _, _, found, _, hCheck⟩
  split at hCheck
  · next hOk =>
      simp only [Option.some.injEq] at hCheck
      subst hCheck
      simpa using hOk
  · cases hCheck

example :
    forwardingLine
      ("SSH: Forwarding from 127.0.0.1:2223 to host port " ++
        "2222.").toList =
      some (2222, .v4 0x7f000001 2223) := by
  decide

end DevTunnel

end Sshdt

------------------------------------------------------------
-- Forwarding Table
------------------------------------------------------------

namespace Sshdt

namespace DevTunnel

/- `Forwarding`. -/
structure Forwarding where
  ports : Std.TreeMap UInt16 SocketAddr
  error : Option Text
  generation : Nat

/- `Forwarding::default`. -/
def Forwarding.default : Forwarding where
  ports := ∅
  error := none
  generation := 0

/- The update of the table on leaving a connector. -/
def Forwarding.clear
    (state : Forwarding) : Forwarding :=
  { state with
    ports := ∅, generation := state.generation + 1 }

/- One address of the idle tick: IPv4 replaces the rest. -/
def publish
    (ports : Std.TreeMap UInt16 SocketAddr)
    (local' : SocketAddr)
    (remote : UInt16) : Std.TreeMap UInt16 SocketAddr :=
  let ports := ports.insertIfNew remote local'
  if local'.isIpv4 then
    ports.insert remote local'
  else
    ports

/- The announced addresses that listen, as the tick takes them. -/
def publishAll
    (announcements : Std.TreeMap SocketAddr UInt16)
    (listeners : Std.TreeSet SocketAddr)
    (ports : Std.TreeMap UInt16 SocketAddr) :
    Std.TreeMap UInt16 SocketAddr :=
  announcements.foldl
    (fun ports local' remote =>
      if listeners.contains local' then
        publish ports local' remote
      else
        ports)
    ports

/- What publishing one address leaves at a port. -/
theorem publish_getElem?
    (ports : Std.TreeMap UInt16 SocketAddr)
    (local' : SocketAddr)
    (remote port : UInt16) :
    (publish ports local' remote)[port]? =
      if remote = port then
        if local'.isIpv4 then
          some local'
        else
          some (ports[port]?.getD local')
      else
        ports[port]? := by
  simp only [publish]
  split
  · next hIpv4 =>
      rw [Std.TreeMap.getElem?_insert,
        Std.TreeMap.getElem?_insertIfNew]
      simp only [Std.compare_eq_iff_eq]
      split
      · rfl
      · next hOther => simp [hOther]
  · rw [Std.TreeMap.getElem?_insertIfNew]
    simp only [Std.compare_eq_iff_eq]
    by_cases hSame : remote = port
    · subst hSame
      by_cases hMem : remote ∈ ports
      · simp [hMem]
      · simp [hMem]
    · simp [hSame]

/-
  Publishing a list of announcements: an entry of the
  result is an old one or a listening announcement.
-/
theorem foldl_publish_sound
    {listeners : Std.TreeSet SocketAddr}
    {entries : List (SocketAddr × UInt16)}
    {ports : Std.TreeMap UInt16 SocketAddr}
    {port : UInt16}
    {address : SocketAddr}
    (hEntry :
      (entries.foldl
        (fun ports entry =>
          if listeners.contains entry.1 then
            publish ports entry.1 entry.2
          else
            ports)
        ports)[port]? = some address) :
    ports[port]? = some address ∨
      ((address, port) ∈ entries ∧ address ∈ listeners) := by
  induction entries generalizing ports with
  | nil => exact Or.inl hEntry
  | cons entry entries ih =>
      rw [List.foldl_cons] at hEntry
      rcases ih hEntry with hOld | ⟨hMem, hListens⟩
      · split at hOld
        · next hListens =>
            rw [publish_getElem?] at hOld
            split at hOld
            · next hPort =>
                have hCases :
                    ports[port]? = some address ∨
                      entry.1 = address := by
                  cases hBefore : ports[port]? with
                  | none =>
                      rw [hBefore] at hOld
                      split at hOld <;> simp_all
                  | some before =>
                      rw [hBefore] at hOld
                      split at hOld <;> simp_all
                rcases hCases with hSame | hNew
                · exact Or.inl hSame
                · refine Or.inr ⟨?_, ?_⟩
                  · rw [← hPort, ← hNew]
                    exact List.mem_cons_self
                  · rw [← hNew]
                    exact hListens
            · exact Or.inl hOld
        · exact Or.inl hOld
      · exact Or.inr
          ⟨List.mem_cons_of_mem _ hMem, hListens⟩

/-
  A port that has an IPv4 address, or gets one from the
  list, has one in the result.
-/
theorem foldl_publish_ipv4
    {listeners : Std.TreeSet SocketAddr}
    {entries : List (SocketAddr × UInt16)}
    {ports : Std.TreeMap UInt16 SocketAddr}
    {port : UInt16}
    (hIpv4 :
      (∃ address, ports[port]? = some address ∧
          address.isIpv4 = true) ∨
        ∃ address, (address, port) ∈ entries ∧
          address ∈ listeners ∧ address.isIpv4 = true) :
    ∃ address,
      (entries.foldl
        (fun ports entry =>
          if listeners.contains entry.1 then
            publish ports entry.1 entry.2
          else
            ports)
        ports)[port]? = some address ∧
        address.isIpv4 = true := by
  induction entries generalizing ports with
  | nil => simpa using hIpv4
  | cons entry entries ih =>
      rw [List.foldl_cons]
      apply ih
      rcases hIpv4 with ⟨address, hPort, hFour⟩ |
        ⟨address, hMem, hListens, hFour⟩
      · left
        split
        · rw [publish_getElem?]
          split
          · split
            · next hNew => exact ⟨entry.1, rfl, hNew⟩
            · exact ⟨address, by simp [hPort], hFour⟩
          · exact ⟨address, hPort, hFour⟩
        · exact ⟨address, hPort, hFour⟩
      · rw [List.mem_cons] at hMem
        rcases hMem with rfl | hLater
        · left
          have hContains : listeners.contains address = true :=
            hListens
          refine ⟨address, ?_, hFour⟩
          simp [hContains, publish_getElem?, hFour]
        · exact Or.inr ⟨address, hLater, hListens, hFour⟩

theorem publishAll_sound
    {announcements : Std.TreeMap SocketAddr UInt16}
    {listeners : Std.TreeSet SocketAddr}
    {ports : Std.TreeMap UInt16 SocketAddr}
    {port : UInt16}
    {address : SocketAddr}
    (hEntry :
      (publishAll announcements listeners ports)[port]? =
        some address) :
    ports[port]? = some address ∨
      (announcements[address]? = some port ∧
        address ∈ listeners) := by
  rw [publishAll, Std.TreeMap.foldl_eq_foldl_toList] at hEntry
  rcases foldl_publish_sound hEntry with hOld | hNew
  · exact Or.inl hOld
  · rw [Std.TreeMap.mem_toList_iff_getElem?_eq_some] at hNew
    exact Or.inr hNew

theorem publishAll_ipv4
    {announcements : Std.TreeMap SocketAddr UInt16}
    {listeners : Std.TreeSet SocketAddr}
    (ports : Std.TreeMap UInt16 SocketAddr)
    {port : UInt16}
    {address : SocketAddr}
    (hAnnounced : announcements[address]? = some port)
    (hListens : address ∈ listeners)
    (hIpv4 : address.isIpv4 = true) :
    ∃ selected,
      (publishAll announcements listeners ports)[port]? =
          some selected ∧
        selected.isIpv4 = true := by
  rw [publishAll, Std.TreeMap.foldl_eq_foldl_toList]
  refine foldl_publish_ipv4
    (Or.inr ⟨address, ?_, hListens, hIpv4⟩)
  rwa [Std.TreeMap.mem_toList_iff_getElem?_eq_some]

end DevTunnel

end Sshdt

------------------------------------------------------------
-- Running Connectors
------------------------------------------------------------

namespace Sshdt

namespace DevTunnel

/-
  `ActiveConnector`, with the lines read from its process
  in the place of the process.
-/
structure ActiveConnector where
  output : List Text
  announcements : Std.TreeMap SocketAddr UInt16
  listeners : Std.TreeSet SocketAddr
  startupDeadline : Option Instant

namespace ActiveConnector

/- A connector that has just been spawned. -/
def spawned
    (now : Instant) : ActiveConnector where
  output := []
  announcements := ∅
  listeners := ∅
  startupDeadline := some (now + Duration.fromSecs 30)

/- Read one line that is no startup failure. -/
def observe
    (active : ActiveConnector)
    (line : Text) : ActiveConnector :=
  { active with
    output := active.output ++ [line]
    announcements :=
      match forwardingLine line with
      | some (remote, local') =>
          active.announcements.insert local' remote
      | none => active.announcements
    listeners :=
      match listeningLine line with
      | some local' => active.listeners.insert local'
      | none => active.listeners }

end ActiveConnector

/- The remote port that a line announces for an address. -/
def announcedPort
    (address : SocketAddr)
    (line : Text) : Option UInt16 :=
  match forwardingLine line with
  | some (remote, local') =>
      if local' = address then some remote else none
  | none => none

/- The remote port of the latest announcement of an address. -/
def latestAnnouncement
    (output : List Text)
    (address : SocketAddr) : Option UInt16 :=
  output.reverse.findSome? (announcedPort address)

/- Some line reports the address as listening. -/
def ReportedListening
    (output : List Text)
    (address : SocketAddr) : Prop :=
  ∃ line ∈ output, listeningLine line = some address

namespace ActiveConnector

/- The two sets are what the output says. -/
structure Faithful
    (active : ActiveConnector) : Prop where
  announcements :
    ∀ address,
      active.announcements[address]? =
        latestAnnouncement active.output address
  listeners :
    ∀ address,
      address ∈ active.listeners ↔
        ReportedListening active.output address

theorem spawned_faithful
    (now : Instant) :
    (spawned now).Faithful := by
  constructor
  · intro address
    simp [spawned, latestAnnouncement]
  · intro address
    simp [spawned, ReportedListening]

theorem observe_faithful
    {active : ActiveConnector}
    (hFaithful : active.Faithful)
    (line : Text) :
    (active.observe line).Faithful := by
  constructor
  · intro address
    simp only [observe, latestAnnouncement,
      List.reverse_append, List.reverse_singleton,
      List.singleton_append, List.findSome?_cons]
    have hOld := hFaithful.announcements address
    simp only [latestAnnouncement] at hOld
    cases hLine : forwardingLine line with
    | none => simpa [announcedPort, hLine] using hOld
    | some entry =>
        rcases entry with ⟨remote, local'⟩
        simp only [announcedPort, hLine]
        rw [Std.TreeMap.getElem?_insert]
        simp only [Std.compare_eq_iff_eq]
        split
        · rfl
        · simpa using hOld
  · intro address
    simp only [observe, ReportedListening,
      List.mem_append, List.mem_singleton]
    have hOld := hFaithful.listeners address
    simp only [ReportedListening] at hOld
    cases hLine : listeningLine line with
    | none =>
        rw [hOld]
        constructor
        · rintro ⟨seen, hMem, hSeen⟩
          exact ⟨seen, Or.inl hMem, hSeen⟩
        · rintro ⟨seen, hMem | rfl, hSeen⟩
          · exact ⟨seen, hMem, hSeen⟩
          · rw [hLine] at hSeen
            cases hSeen
    | some local' =>
        simp only [Std.TreeSet.mem_insert,
          Std.compare_eq_iff_eq, hOld]
        constructor
        · rintro (rfl | ⟨seen, hMem, hSeen⟩)
          · exact ⟨line, Or.inr rfl, hLine⟩
          · exact ⟨seen, Or.inl hMem, hSeen⟩
        · rintro ⟨seen, hMem | rfl, hSeen⟩
          · exact Or.inr ⟨seen, hMem, hSeen⟩
          · rw [hLine] at hSeen
            cases hSeen
            exact Or.inl rfl

end ActiveConnector

end DevTunnel

end Sshdt

------------------------------------------------------------
-- Back-Off
------------------------------------------------------------

namespace Sshdt

namespace DevTunnel

/- `Retry`. -/
structure Retry where
  delay : Duration
  readySince : Option Instant
  deriving DecidableEq, Repr

namespace Retry

/- `Retry::default`. -/
def default : Retry where
  delay := Duration.fromSecs 30
  readySince := none

/- `Retry::ready`. -/
def ready
    (now : Instant)
    (retry : Retry) : Retry :=
  { retry with
    readySince := some (retry.readySince.getD now) }

/- `Retry::failed`: the delay and the state left behind. -/
def failed
    (now : Instant)
    (retry : Retry) : Duration × Retry :=
  let delay :=
    if retry.readySince.any fun since =>
        Duration.fromSecs 300 ≤ now - since then
      Duration.fromSecs 30
    else
      retry.delay
  (delay,
    { delay := min (delay * 2) (Duration.fromSecs 300)
      readySince := none })

end Retry

end DevTunnel

end Sshdt
