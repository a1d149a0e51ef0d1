import Sshdt.Lib.Machine
import Sshdt.Lib.Table

/-
  The fixed-port relays of the tunnel manager
  (`src/devtunnel/client.rs`).

  `Relays` maps a local port to a weak reference. The strong
  references are those returned by `ensure_relay` and not
  yet dropped, and the one a call holds between
  `Weak::upgrade` and its return. They are dropped outside
  the lock, at any time, so a call is split into the steps
  between which another task can drop one: `retain`,
  `upgrade`, the check of the destination. A call can be
  cancelled where it awaits, at the lock and at the bind.
  (`Manager.ensureRelay` takes the whole call as one step,
  as the sessions see it.)

  The operating system refuses to bind a port on which a
  listener is still open. A listener belongs to the task of
  a relay and closes some time after the abort, or earlier
  when `accept` fails.

  Key definitions include:
    * `FixedRelay`
    * `RelayPhase`
    * `RelayState`
    * `RelayState.step`
    * `RelayState.Inv`
    * `RelayState.Keeps`

  Key theorems include:
    * `RelayState.step_inv`
    * `RelayState.own_step_keeps`
    * `RelayState.step_conflict`
    * `RelayState.dead_stays_dead`
    * `RelayState.relays_shared_consistently`
-/

------------------------------------------------------------
-- Calls And Relays
------------------------------------------------------------

namespace Sshdt

namespace DevTunnel

/-
  A relay: the local port of its listener and the
  `remote_port` it serves.
-/
structure FixedRelay where
  port : UInt16
  remotePort : UInt16
  deriving DecidableEq, Repr

/- The two errors of `ensure_relay`. -/
inductive RelayError where
  | otherDestination
  | unavailable
  deriving DecidableEq, Repr

/- The text of an error of a call for `port`. -/
def RelayError.message
    (port : UInt16) : RelayError → String
| .otherDestination =>
    s!"local port {port} already routes to a different destination"
| .unavailable => s!"local port {port} is unavailable"

/-
  Where a call of `ensure_relay` stands. A relay is named by
  the order in which it was made.

  `upgraded` holds the reference that `Weak::upgrade` gave,
  `returned` is the reference the caller owns, and `dropped`
  is a call whose reference was dropped or that was
  cancelled.
-/
inductive RelayPhase where
  | waiting
  | locked
  | retained
  | upgraded (relay : Nat)
  | binding
  | returned (relay : Nat)
  | failed (error : RelayError)
  | dropped
  deriving DecidableEq, Repr

namespace RelayPhase

/- The phases that own a strong reference to a relay. -/
def holds
    (phase : RelayPhase)
    (relay : Nat) : Bool :=
  match phase with
  | .upgraded r | .returned r => r == relay
  | _ => false

/- The phases inside the lock of the map. -/
def locks :
    RelayPhase → Bool
| .locked | .retained | .upgraded _ | .binding => true
| _ => false

/- The phases of a call that has not returned. -/
def pending :
    RelayPhase → Bool
| .waiting | .locked | .retained | .upgraded _ | .binding =>
    true
| _ => false

end RelayPhase

/- One call of `ensure_relay` and its arguments. -/
structure RelayCall where
  port : UInt16
  remotePort : UInt16
  phase : RelayPhase
  deriving DecidableEq, Repr

end DevTunnel

end Sshdt

------------------------------------------------------------
-- Steps
------------------------------------------------------------

namespace Sshdt

namespace DevTunnel

/-
  `relays` is the map, `guard` the call that has locked it,
  `made` every relay ever made, `listening` those whose
  listener is open, and `calls` every call so far.
-/
structure RelayState where
  relays : List (UInt16 × Nat)
  guard : Option Nat
  made : List FixedRelay
  listening : List Nat
  calls : List RelayCall
  deriving DecidableEq, Repr

namespace RelayState

/-
  Everything that can happen to the relays. `bind` carries
  the answer of the operating system, and `closed` is the
  end of the task of a relay.
-/
inductive Event where
  | call (port remotePort : UInt16)
  | lock (id : Nat)
  | retain (id : Nat)
  | upgrade (id : Nat)
  | check (id : Nat)
  | bind (id : Nat) (bound : Bool)
  | cancel (id : Nat)
  | release (id : Nat)
  | closed (relay : Nat)
  deriving DecidableEq, Repr

/- The call that takes the step. -/
def Event.caller :
    Event → Option Nat
| .lock id | .retain id | .upgrade id | .check id
| .bind id _ | .cancel id => some id
| _ => none

/- `Weak::strong_count`. -/
def strongCount
    (s : RelayState)
    (relay : Nat) : Nat :=
  s.calls.countP fun c => c.phase.holds relay

/- `Weak::upgrade` of the entry of a port. -/
def upgrade
    (s : RelayState)
    (port : UInt16) : Option Nat :=
  match Table.get s.relays port with
  | none => none
  | some relay =>
      if 0 < s.strongCount relay then some relay else none

/- A listener is open on the port. -/
def inUse
    (s : RelayState)
    (port : UInt16) : Bool :=
  s.listening.any fun r =>
    (s.made[r]?.map FixedRelay.port) == some port

/- `relays.retain`: the entries of dropped relays go. -/
def retainLive
    (s : RelayState) : RelayState :=
  { s with
    relays :=
      Table.retain s.relays fun relay =>
        0 < s.strongCount relay }

/- Let call `id` enter a phase. -/
def enter
    (s : RelayState)
    (id : Nat)
    (c : RelayCall)
    (phase : RelayPhase)
    (guard : Option Nat) : RelayState :=
  { s with
    guard
    calls := s.calls.set id { c with phase } }

/-
  The end of a call whose bind succeeded: `spawn_relay`,
  `insert` and the return, with no await between them.
-/
def insertRelay
    (s : RelayState)
    (id : Nat)
    (c : RelayCall) : RelayState :=
  { relays := Table.insert s.relays c.port s.made.length
    guard := none
    made := s.made ++ [⟨c.port, c.remotePort⟩]
    listening := s.listening ++ [s.made.length]
    calls :=
      s.calls.set id
        { c with phase := .returned s.made.length } }

/- The step of a call, from the phase it is in. -/
def stepCall
    (s : RelayState)
    (id : Nat)
    (c : RelayCall) :
    Event → RelayPhase → Option RelayState
| .lock _, .waiting =>
    if s.guard = none then
      some (s.enter id c .locked (some id))
    else
      none
| .retain _, .locked =>
    some (s.retainLive.enter id c .retained s.guard)
| .upgrade _, .retained =>
    match s.upgrade c.port with
    | some relay =>
        some (s.enter id c (.upgraded relay) s.guard)
    | none => some (s.enter id c .binding s.guard)
| .check _, .upgraded relay =>
    if (s.made[relay]?.map FixedRelay.remotePort) =
        some c.remotePort then
      some (s.enter id c (.returned relay) none)
    else
      some (s.enter id c (.failed .otherDestination) none)
| .bind _ true, .binding =>
    if s.inUse c.port then
      none
    else
      some (s.insertRelay id c)
| .bind _ false, .binding =>
    some (s.enter id c (.failed .unavailable) none)
| .cancel _, .waiting =>
    some (s.enter id c .dropped s.guard)
| .cancel _, .binding => some (s.enter id c .dropped none)
| .release _, .returned _ =>
    some (s.enter id c .dropped s.guard)
| _, _ => none

/- One step of the manager's relays. -/
def step
    (s : RelayState)
    (e : Event) : Option RelayState :=
  match e with
  | .call port remotePort =>
      some
        { s with
          calls := s.calls ++ [⟨port, remotePort, .waiting⟩] }
  | .closed relay =>
      some { s with listening := s.listening.erase relay }
  | .lock id | .retain id | .upgrade id | .check id
  | .bind id _ | .cancel id | .release id =>
      match s.calls[id]? with
      | none => none
      | some c => s.stepCall id c e c.phase

/- `Relays::default()`: no entry, no relay, no call. -/
def machine : Machine RelayState Event where
  init := ⟨[], none, [], [], []⟩
  step := step

end RelayState

end DevTunnel

end Sshdt

------------------------------------------------------------
-- What A Step Can Do
------------------------------------------------------------

namespace Sshdt

namespace DevTunnel

namespace RelayState

/-
  The steps as a relation, one rule for each branch of
  `step`.
-/
inductive Moves
    (s : RelayState) : Event → RelayState → Prop
| call
    (port remotePort : UInt16) :
    Moves s (.call port remotePort)
      { s with
        calls := s.calls ++ [⟨port, remotePort, .waiting⟩] }
| closed
    (relay : Nat) :
    Moves s (.closed relay)
      { s with listening := s.listening.erase relay }
| lock
    {id : Nat}
    {c : RelayCall}
    (hCall : s.calls[id]? = some c)
    (hPhase : c.phase = .waiting)
    (hFree : s.guard = none) :
    Moves s (.lock id) (s.enter id c .locked (some id))
| retain
    {id : Nat}
    {c : RelayCall}
    (hCall : s.calls[id]? = some c)
    (hPhase : c.phase = .locked) :
    Moves s (.retain id)
      (s.retainLive.enter id c .retained s.guard)
| upgraded
    {id relay : Nat}
    {c : RelayCall}
    (hCall : s.calls[id]? = some c)
    (hPhase : c.phase = .retained)
    (hUpgrade : s.upgrade c.port = some relay) :
    Moves s (.upgrade id)
      (s.enter id c (.upgraded relay) s.guard)
| absent
    {id : Nat}
    {c : RelayCall}
    (hCall : s.calls[id]? = some c)
    (hPhase : c.phase = .retained)
    (hUpgrade : s.upgrade c.port = none) :
    Moves s (.upgrade id) (s.enter id c .binding s.guard)
| shared
    {id relay : Nat}
    {c : RelayCall}
    (hCall : s.calls[id]? = some c)
    (hPhase : c.phase = .upgraded relay)
    (hRemote :
      s.made[relay]?.map FixedRelay.remotePort =
        some c.remotePort) :
    Moves s (.check id) (s.enter id c (.returned relay) none)
| refused
    {id relay : Nat}
    {c : RelayCall}
    (hCall : s.calls[id]? = some c)
    (hPhase : c.phase = .upgraded relay)
    (hRemote :
      s.made[relay]?.map FixedRelay.remotePort ≠
        some c.remotePort) :
    Moves s (.check id)
      (s.enter id c (.failed .otherDestination) none)
| bound
    {id : Nat}
    {c : RelayCall}
    (hCall : s.calls[id]? = some c)
    (hPhase : c.phase = .binding)
    (hFree : s.inUse c.port = false) :
    Moves s (.bind id true) (s.insertRelay id c)
| unavailable
    {id : Nat}
    {c : RelayCall}
    (hCall : s.calls[id]? = some c)
    (hPhase : c.phase = .binding) :
    Moves s (.bind id false)
      (s.enter id c (.failed .unavailable) none)
| cancelWaiting
    {id : Nat}
    {c : RelayCall}
    (hCall : s.calls[id]? = some c)
    (hPhase : c.phase = .waiting) :
    Moves s (.cancel id) (s.enter id c .dropped s.guard)
| cancelBinding
    {id : Nat}
    {c : RelayCall}
    (hCall : s.calls[id]? = some c)
    (hPhase : c.phase = .binding) :
    Moves s (.cancel id) (s.enter id c .dropped none)
| release
    {id relay : Nat}
    {c : RelayCall}
    (hCall : s.calls[id]? = some c)
    (hPhase : c.phase = .returned relay) :
    Moves s (.release id) (s.enter id c .dropped s.guard)

/- The step of a call is one of the rules. -/
theorem stepCall_moves
    {s t : RelayState}
    {id : Nat}
    {c : RelayCall}
    {e : Event}
    (hCall : s.calls[id]? = some c)
    (hEvent : e.caller = some id ∨ e = .release id)
    (hStep : s.stepCall id c e c.phase = some t) :
    Moves s e t := by
  generalize hPhase : c.phase = phase at hStep
  unfold stepCall at hStep
  split at hStep
  case h_10 => cases hStep
  all_goals
    simp only [Event.caller, Option.some.injEq, reduceCtorEq,
      or_false, false_or, Event.release.injEq] at hEvent
    subst hEvent
  · split at hStep <;> [rename_i hFree; cases hStep]
    cases hStep
    exact .lock hCall hPhase hFree
  · cases hStep
    exact .retain hCall hPhase
  · split at hStep <;> rename_i hUpgrade <;> cases hStep
    · exact .upgraded hCall hPhase hUpgrade
    · exact .absent hCall hPhase hUpgrade
  · split at hStep <;> rename_i hRemote <;> cases hStep
    · exact .shared hCall hPhase hRemote
    · exact .refused hCall hPhase hRemote
  · split at hStep <;> [cases hStep; rename_i hFree]
    cases hStep
    exact .bound hCall hPhase (Bool.not_eq_true _ ▸ hFree)
  · cases hStep
    exact .unavailable hCall hPhase
  · cases hStep
    exact .cancelWaiting hCall hPhase
  · cases hStep
    exact .cancelBinding hCall hPhase
  · cases hStep
    exact .release hCall hPhase

/- Every step is one of the rules. -/
theorem step_moves
    {s t : RelayState}
    {e : Event}
    (hStep : s.step e = some t) :
    Moves s e t := by
  unfold step at hStep
  split at hStep
  · cases hStep
    exact .call _ _
  · cases hStep
    exact .closed _
  all_goals
    split at hStep <;> [cases hStep; rename_i c hCall]
    exact stepCall_moves hCall (by simp [Event.caller]) hStep

end RelayState

end DevTunnel

end Sshdt

------------------------------------------------------------
-- The Invariant
------------------------------------------------------------

namespace Sshdt

namespace DevTunnel

namespace RelayState

/- A call for `port` owns a reference to the relay. -/
def Holder
    (s : RelayState)
    (relay : Nat)
    (port : UInt16) : Prop :=
  ∃ (id : Nat) (c : RelayCall), s.calls[id]? = some c ∧
    c.phase.holds relay = true ∧ c.port = port

/- Some strong reference to the relay is left. -/
def Live
    (s : RelayState)
    (relay : Nat) : Prop :=
  ∃ port, s.Holder relay port

/-
  What holds between any two steps.

  The entry of a port is the relay its holders hold, also
  while a call is inside the lock. A call that binds has
  found no holder for its port, and none appears while it
  keeps the lock.
-/
structure Inv
    (s : RelayState) : Prop where
  locked :
    ∀ (id : Nat) (c : RelayCall), s.calls[id]? = some c →
      c.phase.locks = true → s.guard = some id
  keyed :
    ∀ port relay, (port, relay) ∈ s.relays →
      ∃ r, s.made[relay]? = some r ∧ r.port = port
  made :
    ∀ relay port, s.Holder relay port →
      ∃ r, s.made[relay]? = some r ∧ r.port = port
  entry :
    ∀ relay port, s.Holder relay port →
      Table.get s.relays port = some relay
  serves :
    ∀ (id : Nat) (c : RelayCall) (relay : Nat),
      s.calls[id]? = some c → c.phase = .returned relay →
        s.made[relay]? = some ⟨c.port, c.remotePort⟩
  binding :
    ∀ (id : Nat) (c : RelayCall) (relay : Nat),
      s.calls[id]? = some c → c.phase = .binding →
        ¬ s.Holder relay c.port
  listens :
    ∀ relay, relay ∈ s.listening → relay < s.made.length
  open_alone :
    ∀ (relay other : Nat) (port : UInt16) (r : FixedRelay),
      s.Holder relay port → other ∈ s.listening →
        s.made[other]? = some r → r.port = port →
          other = relay

/- No relay exists at the start. -/
theorem init_inv :
    machine.init.Inv := by
  constructor <;> simp [machine, Holder]

/- The strong count is positive when a call is a holder. -/
theorem strongCount_pos_iff
    (s : RelayState)
    (relay : Nat) :
    0 < s.strongCount relay ↔ s.Live relay := by
  rw [strongCount, List.countP_pos_iff]
  constructor
  · rintro ⟨c, hMem, hHolds⟩
    rcases List.mem_iff_getElem?.mp hMem with ⟨id, hCall⟩
    exact ⟨c.port, id, c, hCall, hHolds, rfl⟩
  · rintro ⟨_, id, c, hCall, hHolds, _⟩
    exact ⟨c, List.mem_of_getElem? hCall, hHolds⟩

/- The calls after one of them entered a phase. -/
theorem calls_of_set
    {calls : List RelayCall}
    {id j : Nat}
    {c d : RelayCall}
    (hCall : (calls.set id c)[j]? = some d) :
    (j = id ∧ d = c) ∨ (j ≠ id ∧ calls[j]? = some d) := by
  rcases eq_or_ne j id with hSame | hOther
  · subst hSame
    rw [List.getElem?_set_self'] at hCall
    rcases Option.map_eq_some_iff.mp hCall with
      ⟨_, _, hEq⟩
    exact Or.inl ⟨rfl, hEq.symm⟩
  · rw [List.getElem?_set_ne hOther.symm] at hCall
    exact Or.inr ⟨hOther, hCall⟩

/-
  A call that enters a phase adds no holder, unless it takes
  a reference to a relay that another holds for its port.
-/
theorem holder_of_enter
    {s : RelayState}
    {id relay : Nat}
    {c : RelayCall}
    {phase : RelayPhase}
    {guard : Option Nat}
    {port : UInt16}
    (hNew :
      ∀ r, phase.holds r = true → s.Holder r c.port)
    (hHolder :
      (s.enter id c phase guard).Holder relay port) :
    s.Holder relay port := by
  rcases hHolder with ⟨j, d, hCall, hHolds, hPort⟩
  rcases calls_of_set hCall with ⟨_, rfl⟩ | ⟨_, hOld⟩
  · exact hPort ▸ hNew relay hHolds
  · exact ⟨j, d, hOld, hHolds, hPort⟩

/- A phase without a reference. -/
theorem holder_of_enter_idle
    {s : RelayState}
    {id relay : Nat}
    {c : RelayCall}
    {phase : RelayPhase}
    {guard : Option Nat}
    {port : UInt16}
    (hHolder :
      (s.enter id c phase guard).Holder relay port)
    (hIdle : ∀ r, phase.holds r = false) :
    s.Holder relay port :=
  holder_of_enter (by simp [hIdle]) hHolder

/-
  The invariant after a call has entered a phase, from what
  that phase promises.
-/
theorem inv_enter
    {s : RelayState}
    {id : Nat}
    {c : RelayCall}
    {phase : RelayPhase}
    {guard : Option Nat}
    (hInv : s.Inv)
    (hGuard :
      ∀ j, s.guard = some j → j ≠ id → guard = some j)
    (hLocks : phase.locks = true → guard = some id)
    (hNew :
      ∀ r, phase.holds r = true → s.Holder r c.port)
    (hServes :
      ∀ r, phase = .returned r →
        s.made[r]? = some ⟨c.port, c.remotePort⟩)
    (hBinding :
      phase = .binding → ∀ r, ¬ s.Holder r c.port) :
    (s.enter id c phase guard).Inv where
  locked := by
    intro j d hCall hPhase
    rcases calls_of_set hCall with ⟨rfl, rfl⟩ | ⟨hNe, hOld⟩
    · exact hLocks hPhase
    · exact hGuard j (hInv.locked j d hOld hPhase) hNe
  keyed := hInv.keyed
  made := by
    intro relay port hHolder
    exact hInv.made relay port (holder_of_enter hNew hHolder)
  entry := by
    intro relay port hHolder
    exact hInv.entry relay port (holder_of_enter hNew hHolder)
  serves := by
    intro j d relay hCall hPhase
    rcases calls_of_set hCall with ⟨rfl, rfl⟩ | ⟨_, hOld⟩
    · exact hServes relay hPhase
    · exact hInv.serves j d relay hOld hPhase
  binding := by
    intro j d relay hCall hPhase hHolder
    have hBefore := holder_of_enter hNew hHolder
    rcases calls_of_set hCall with ⟨rfl, rfl⟩ | ⟨_, hOld⟩
    · exact hBinding hPhase relay hBefore
    · exact hInv.binding j d relay hOld hPhase hBefore
  listens := hInv.listens
  open_alone := by
    intro relay other port r hHolder
    exact hInv.open_alone relay other port r
      (holder_of_enter hNew hHolder)

end RelayState

end DevTunnel

end Sshdt

------------------------------------------------------------
-- Every Step Keeps The Invariant
------------------------------------------------------------

namespace Sshdt

namespace DevTunnel

namespace RelayState

/- `retain` adds no entry. -/
theorem mem_of_mem_retainLive
    {s : RelayState}
    {e : UInt16 × Nat}
    (hMem : e ∈ s.retainLive.relays) :
    e ∈ s.relays := by
  simp only [retainLive] at hMem
  exact Table.mem_of_mem_retain hMem

/- `retain` drops no entry of a relay that is held. -/
theorem inv_retain
    {s : RelayState}
    (hInv : s.Inv) :
    s.retainLive.Inv where
  locked := hInv.locked
  keyed := by
    intro port relay hMem
    exact hInv.keyed port relay (mem_of_mem_retainLive hMem)
  made := hInv.made
  entry := by
    intro relay port hHolder
    simp only [retainLive]
    refine Table.get_retain_of_kept
      (hInv.entry relay port hHolder) ?_
    rw [decide_eq_true_eq, strongCount_pos_iff]
    exact ⟨port, hHolder⟩
  serves := hInv.serves
  binding := hInv.binding
  listens := hInv.listens
  open_alone := hInv.open_alone

/- A holder of the entry of a port holds it for that port. -/
theorem holder_of_live_entry
    {s : RelayState}
    {relay : Nat}
    {port : UInt16}
    (hInv : s.Inv)
    (hEntry : (port, relay) ∈ s.relays)
    (hLive : s.Live relay) :
    s.Holder relay port := by
  rcases hLive with ⟨other, hHolder⟩
  rcases hInv.keyed port relay hEntry with ⟨r, hMade, hPort⟩
  rcases hInv.made relay other hHolder with ⟨r', hMade', hPort'⟩
  rw [hMade, Option.some.injEq] at hMade'
  subst hMade'
  exact hPort ▸ hPort'.symm ▸ hHolder

/- What `Weak::upgrade` gives is held by another call. -/
theorem upgrade_some
    {s : RelayState}
    {relay : Nat}
    {port : UInt16}
    (hInv : s.Inv)
    (hUpgrade : s.upgrade port = some relay) :
    s.Holder relay port := by
  unfold upgrade at hUpgrade
  split at hUpgrade <;> [cases hUpgrade; rename_i r hGet]
  split at hUpgrade <;> [rename_i hCount; cases hUpgrade]
  cases hUpgrade
  exact holder_of_live_entry hInv (Table.mem_of_get hGet)
    ((strongCount_pos_iff s relay).mp hCount)

/- Where the upgrade fails, no relay of the port is held. -/
theorem upgrade_none
    {s : RelayState}
    {port : UInt16}
    (hInv : s.Inv)
    (hUpgrade : s.upgrade port = none)
    (relay : Nat) :
    ¬ s.Holder relay port := by
  intro hHolder
  have hCount : 0 < s.strongCount relay :=
    (strongCount_pos_iff s relay).mpr ⟨port, hHolder⟩
  simp [upgrade, hInv.entry relay port hHolder,
    hCount] at hUpgrade

/- The holders after a successful bind. -/
theorem holder_of_insertRelay
    {s : RelayState}
    {id relay : Nat}
    {c : RelayCall}
    {port : UInt16}
    (hHolder : (s.insertRelay id c).Holder relay port) :
    (relay = s.made.length ∧ port = c.port) ∨
      s.Holder relay port := by
  rcases hHolder with ⟨j, d, hCall, hHolds, hPort⟩
  rcases calls_of_set hCall with ⟨_, rfl⟩ | ⟨_, hOld⟩
  · simp only [RelayPhase.holds, beq_iff_eq] at hHolds
    exact Or.inl ⟨hHolds.symm, hPort.symm⟩
  · exact Or.inr ⟨j, d, hOld, hHolds, hPort⟩

theorem inv_insertRelay
    {s : RelayState}
    {id : Nat}
    {c : RelayCall}
    (hInv : s.Inv)
    (hCall : s.calls[id]? = some c)
    (hPhase : c.phase = .binding)
    (hFree : s.inUse c.port = false) :
    (s.insertRelay id c).Inv := by
  have hNone := fun r => hInv.binding id c r hCall hPhase
  have hGuard : s.guard = some id :=
    hInv.locked id c hCall (by rw [hPhase]; rfl)
  have hOld :
      ∀ (relay : Nat) (r : FixedRelay), s.made[relay]? = some r →
        (s.insertRelay id c).made[relay]? = some r := by
    intro relay r hMade
    exact List.getElem?_append_left
      (List.getElem?_eq_some_iff.mp hMade).1 ▸ hMade
  have hFresh :
      (s.insertRelay id c).made[s.made.length]? =
        some ⟨c.port, c.remotePort⟩ :=
    List.getElem?_concat_length
  have hUnlocked :
      ∀ (j : Nat) (d : RelayCall),
        (s.insertRelay id c).calls[j]? = some d →
          d.phase.locks = false := by
    intro j d hThere
    rcases calls_of_set hThere with ⟨_, rfl⟩ | ⟨hNe, hBefore⟩
    · rfl
    · by_contra hLocks
      rw [Bool.not_eq_false] at hLocks
      have hOther := hInv.locked j d hBefore hLocks
      rw [hGuard, Option.some.injEq] at hOther
      exact hNe hOther.symm
  refine
    { locked := ?_, keyed := ?_, made := ?_, entry := ?_,
      serves := ?_, binding := ?_, listens := ?_,
      open_alone := ?_ }
  · intro j d hThere hLocks
    rw [hUnlocked j d hThere] at hLocks
    cases hLocks
  · intro port relay hMem
    rcases Table.mem_insert hMem with ⟨rfl, rfl⟩ | hBefore
    · exact ⟨_, hFresh, rfl⟩
    · rcases hInv.keyed port relay hBefore with
        ⟨r, hMade, hPort⟩
      exact ⟨r, hOld relay r hMade, hPort⟩
  · intro relay port hHolder
    rcases holder_of_insertRelay hHolder with
      ⟨rfl, rfl⟩ | hBefore
    · exact ⟨_, hFresh, rfl⟩
    · rcases hInv.made relay port hBefore with
        ⟨r, hMade, hPort⟩
      exact ⟨r, hOld relay r hMade, hPort⟩
  · intro relay port hHolder
    rw [insertRelay, Table.get_insert]
    rcases holder_of_insertRelay hHolder with
      ⟨rfl, rfl⟩ | hBefore
    · rw [if_pos rfl]
    · have hOther : port ≠ c.port := by
        rintro rfl
        exact hNone relay hBefore
      rw [if_neg hOther]
      exact hInv.entry relay port hBefore
  · intro j d relay hThere hReturned
    rcases calls_of_set hThere with ⟨_, rfl⟩ | ⟨_, hBefore⟩
    · cases hReturned
      exact hFresh
    · exact hOld relay _
        (hInv.serves j d relay hBefore hReturned)
  · intro j d relay hThere hBinding
    have hLocks := hUnlocked j d hThere
    rw [hBinding] at hLocks
    cases hLocks
  · intro relay hMem
    simp only [insertRelay, List.mem_append,
      List.mem_singleton] at hMem
    simp only [insertRelay, List.length_append,
      List.length_singleton]
    rcases hMem with hBefore | rfl
    · exact Nat.lt_succ_of_lt (hInv.listens relay hBefore)
    · exact Nat.lt_succ_self _
  · -- The bind succeeded, so no open listener has the port.
    intro relay other port r hHolder hMem hMade hPort
    simp only [insertRelay, List.mem_append,
      List.mem_singleton] at hMem
    rcases hMem with hBefore | rfl
    · have hMadeBefore : s.made[other]? = some r := by
        rw [← hMade, insertRelay]
        exact (List.getElem?_append_left
          (hInv.listens other hBefore)).symm
      rcases holder_of_insertRelay hHolder with
        ⟨rfl, rfl⟩ | hHolderBefore
      · have hUse : s.inUse c.port = true := by
          rw [inUse, List.any_eq_true]
          exact ⟨other, hBefore, by
            simp [hMadeBefore, hPort]⟩
        rw [hFree] at hUse
        cases hUse
      · exact hInv.open_alone relay other port r
          hHolderBefore hBefore hMadeBefore hPort
    · rw [hFresh, Option.some.injEq] at hMade
      subst hMade
      rcases holder_of_insertRelay hHolder with
        ⟨rfl, _⟩ | hHolderBefore
      · rfl
      · subst hPort
        exact absurd hHolderBefore (hNone relay)

/- A new call holds nothing. -/
theorem calls_of_concat
    {calls : List RelayCall}
    {port remotePort : UInt16}
    {j : Nat}
    {d : RelayCall}
    (hCall :
      (calls ++ [⟨port, remotePort, .waiting⟩])[j]? =
        some d) :
    calls[j]? = some d ∨ d.phase = .waiting := by
  rw [List.getElem?_append] at hCall
  split at hCall
  · exact Or.inl hCall
  · rename_i hLength
    have hMem := List.mem_of_getElem? hCall
    rw [List.mem_singleton] at hMem
    exact Or.inr (hMem ▸ rfl)

theorem inv_call
    {s : RelayState}
    (hInv : s.Inv)
    (port remotePort : UInt16) :
    Inv
      { s with
        calls :=
          s.calls ++ [⟨port, remotePort, .waiting⟩] } := by
  have hHolder :
      ∀ relay p,
        Holder
          { s with
            calls :=
              s.calls ++ [⟨port, remotePort, .waiting⟩] }
          relay p → s.Holder relay p := by
    rintro relay p ⟨j, d, hCall, hHolds, hPort⟩
    rcases calls_of_concat hCall with hOld | hNew
    · exact ⟨j, d, hOld, hHolds, hPort⟩
    · rw [hNew] at hHolds
      cases hHolds
  refine
    { locked := ?_, keyed := hInv.keyed, made := ?_,
      entry := ?_, serves := ?_, binding := ?_,
      listens := hInv.listens, open_alone := ?_ }
  · intro j d hCall hLocks
    rcases calls_of_concat hCall with hOld | hNew
    · exact hInv.locked j d hOld hLocks
    · rw [hNew] at hLocks
      cases hLocks
  · intro relay p hHeld
    exact hInv.made relay p (hHolder relay p hHeld)
  · intro relay p hHeld
    exact hInv.entry relay p (hHolder relay p hHeld)
  · intro j d relay hCall hPhase
    rcases calls_of_concat hCall with hOld | hNew
    · exact hInv.serves j d relay hOld hPhase
    · rw [hNew] at hPhase
      cases hPhase
  · intro j d relay hCall hPhase hHeld
    rcases calls_of_concat hCall with hOld | hNew
    · exact hInv.binding j d relay hOld hPhase
        (hHolder relay _ hHeld)
    · rw [hNew] at hPhase
      cases hPhase
  · intro relay other p r hHeld
    exact hInv.open_alone relay other p r
      (hHolder relay p hHeld)

/- A listener that closes leaves the holders alone. -/
theorem inv_closed
    {s : RelayState}
    (hInv : s.Inv)
    (relay : Nat) :
    Inv { s with listening := s.listening.erase relay } where
  locked := hInv.locked
  keyed := hInv.keyed
  made := hInv.made
  entry := hInv.entry
  serves := hInv.serves
  binding := hInv.binding
  listens := by
    intro r hMem
    exact hInv.listens r (List.mem_of_mem_erase hMem)
  open_alone := by
    intro r other port q hHolder hMem
    exact hInv.open_alone r other port q hHolder
      (List.mem_of_mem_erase hMem)

/- The call inside the lock is the one the guard names. -/
theorem guard_of_phase
    {s : RelayState}
    {id : Nat}
    {c : RelayCall}
    {phase : RelayPhase}
    (hInv : s.Inv)
    (hCall : s.calls[id]? = some c)
    (hPhase : c.phase = phase)
    (hLocks : phase.locks = true) :
    s.guard = some id :=
  hInv.locked id c hCall (hPhase ▸ hLocks)

/-
  A call that ends without a reference, in the queue, inside
  the lock or later.
-/
theorem inv_end
    {s : RelayState}
    {id : Nat}
    {c : RelayCall}
    {phase : RelayPhase}
    {guard : Option Nat}
    (hInv : s.Inv)
    (hGuard :
      guard = s.guard ∨
        guard = none ∧ s.guard = some id)
    (hLocks : phase.locks = false)
    (hHolds : ∀ r, phase.holds r = false) :
    (s.enter id c phase guard).Inv := by
  apply inv_enter hInv
  · intro j hHeld hNe
    rcases hGuard with rfl | ⟨_, hOwn⟩
    · exact hHeld
    · rw [hOwn, Option.some.injEq] at hHeld
      exact absurd hHeld.symm hNe
  · simp [hLocks]
  · simp [hHolds]
  · rintro r rfl
    simpa [RelayPhase.holds] using hHolds r
  · rintro rfl
    cases hLocks

theorem step_inv
    {s t : RelayState}
    {e : Event}
    (hInv : s.Inv)
    (hStep : s.step e = some t) :
    t.Inv := by
  rcases step_moves hStep with
    ⟨port, remotePort⟩ | ⟨relay⟩ |
    @⟨id, c, hCall, hPhase, hFree⟩ |
    @⟨id, c, hCall, hPhase⟩ |
    @⟨id, relay, c, hCall, hPhase, hUpgrade⟩ |
    @⟨id, c, hCall, hPhase, hUpgrade⟩ |
    @⟨id, relay, c, hCall, hPhase, hRemote⟩ |
    @⟨id, relay, c, hCall, hPhase, hRemote⟩ |
    @⟨id, c, hCall, hPhase, hFree⟩ |
    @⟨id, c, hCall, hPhase⟩ | @⟨id, c, hCall, hPhase⟩ |
    @⟨id, c, hCall, hPhase⟩ | @⟨id, relay, c, hCall, hPhase⟩
  · exact inv_call hInv port remotePort
  · exact inv_closed hInv relay
  · apply inv_enter hInv <;> simp [hFree, RelayPhase.holds]
  · have hGuard := guard_of_phase hInv hCall hPhase rfl
    apply inv_enter (inv_retain hInv) <;>
      simp [hGuard, retainLive, RelayPhase.holds]
  · have hGuard := guard_of_phase hInv hCall hPhase rfl
    have hHolder := upgrade_some hInv hUpgrade
    apply inv_enter hInv <;>
      simp [hGuard, RelayPhase.holds, hHolder]
  · have hGuard := guard_of_phase hInv hCall hPhase rfl
    have hNone := upgrade_none hInv hUpgrade
    apply inv_enter hInv <;>
      simp [hGuard, RelayPhase.holds, hNone]
  · have hGuard := guard_of_phase hInv hCall hPhase rfl
    have hHolder : s.Holder relay c.port :=
      ⟨id, c, hCall, by simp [hPhase, RelayPhase.holds], rfl⟩
    have hServes :
        s.made[relay]? = some ⟨c.port, c.remotePort⟩ := by
      rcases hInv.made relay c.port hHolder with
        ⟨r, hMade, hPort⟩
      rw [hMade, Option.map_some,
        Option.some.injEq] at hRemote
      rw [hMade, ← hPort, ← hRemote]
    apply inv_enter hInv <;>
      simp [hGuard, RelayPhase.holds, RelayPhase.locks,
        hHolder, hServes]
  · have hGuard := guard_of_phase hInv hCall hPhase rfl
    exact inv_end hInv (.inr ⟨rfl, hGuard⟩) rfl fun _ => rfl
  · exact inv_insertRelay hInv hCall hPhase hFree
  · have hGuard := guard_of_phase hInv hCall hPhase rfl
    exact inv_end hInv (.inr ⟨rfl, hGuard⟩) rfl fun _ => rfl
  · exact inv_end hInv (.inl rfl) rfl fun _ => rfl
  · have hGuard := guard_of_phase hInv hCall hPhase rfl
    exact inv_end hInv (.inr ⟨rfl, hGuard⟩) rfl fun _ => rfl
  · exact inv_end hInv (.inl rfl) rfl fun _ => rfl

/- The invariant holds in every state of every run. -/
theorem exec_inv
    {s t : RelayState}
    {es : List Event}
    (hInv : s.Inv)
    (hExec : machine.exec s es = some t) :
    t.Inv := by
  induction es generalizing s with
  | nil =>
      simp only [Machine.exec, Option.some.injEq] at hExec
      exact hExec ▸ hInv
  | cons e es ih =>
      rcases Machine.exec_cons.mp hExec with
        ⟨u, hStep, hRest⟩
      exact ih (step_inv hInv hStep) hRest

end RelayState

end DevTunnel

end Sshdt

------------------------------------------------------------
-- What A Step Leaves As It Was
------------------------------------------------------------

namespace Sshdt

namespace DevTunnel

namespace RelayState

/- A relay that a call for `port` returned and that is not
   released. -/
def Held
    (s : RelayState)
    (relay : Nat)
    (port : UInt16) : Prop :=
  ∃ (id : Nat) (c : RelayCall), s.calls[id]? = some c ∧
    c.phase = .returned relay ∧ c.port = port

/-
  Every held relay and its entry are as they were, and no
  live entry was added.
-/
structure Keeps
    (s t : RelayState) : Prop where
  made : t.made = s.made
  listening : t.listening = s.listening
  held :
    ∀ relay port, s.Held relay port →
      t.Held relay port ∧
        Table.get s.relays port = some relay ∧
        Table.get t.relays port = some relay
  live :
    ∀ relay port, Table.get t.relays port = some relay →
      t.Live relay →
        Table.get s.relays port = some relay ∧ s.Live relay

theorem Held.holder
    {s : RelayState}
    {relay : Nat}
    {port : UInt16}
    (hHeld : s.Held relay port) :
    s.Holder relay port := by
  rcases hHeld with ⟨id, c, hCall, hPhase, hPort⟩
  exact ⟨id, c, hCall, by simp [hPhase, RelayPhase.holds],
    hPort⟩

@[simp]
theorem enter_calls_self
    {s : RelayState}
    {id : Nat}
    {c d : RelayCall}
    {phase : RelayPhase}
    {guard : Option Nat}
    (hCall : s.calls[id]? = some d) :
    (s.enter id c phase guard).calls[id]? =
      some { c with phase } := by
  simp [enter, List.getElem?_set_self', hCall]

/- A step of another call leaves a call where it stands. -/
theorem step_calls_other
    {s t : RelayState}
    {e : Event}
    {id : Nat}
    {c : RelayCall}
    (hStep : s.step e = some t)
    (hCall : s.calls[id]? = some c)
    (hOther : e.caller ≠ some id)
    (hKept : e ≠ .release id) :
    t.calls[id]? = some c := by
  have hSet :
      ∀ (j : Nat) (d : RelayCall), j ≠ id →
        (s.calls.set j d)[id]? = some c := by
    intro j d hNe
    rw [List.getElem?_set_ne hNe, hCall]
  rcases step_moves hStep <;>
    simp only [Event.caller, ne_eq, Option.some.injEq,
      Event.release.injEq] at hOther hKept
  case call =>
    rw [List.getElem?_append_left
      (List.getElem?_eq_some_iff.mp hCall).1, hCall]
  case closed => exact hCall
  case release => exact hSet _ _ hKept
  all_goals exact hSet _ _ hOther

/- The step a call takes itself, by the phase it is in. -/
theorem own_step
    {s t : RelayState}
    {e : Event}
    {id : Nat}
    {c : RelayCall}
    (hStep : s.step e = some t)
    (hCall : s.calls[id]? = some c)
    (hOwn : e.caller = some id) :
    s.stepCall id c e c.phase = some t := by
  cases e <;>
    simp only [Event.caller, Option.some.injEq,
      reduceCtorEq] at hOwn <;>
    subst hOwn <;>
    simpa only [step, hCall] using hStep

/- The steps before a call returns. -/
theorem own_step_pending
    {s t : RelayState}
    {e : Event}
    {id : Nat}
    {c : RelayCall}
    (hStep : s.step e = some t)
    (hCall : s.calls[id]? = some c)
    (hOwn : e.caller = some id) :
    c.phase.pending = true := by
  have hOwnStep := own_step hStep hCall hOwn
  generalize c.phase = phase at hOwnStep
  unfold stepCall at hOwnStep
  split at hOwnStep
  case h_9 => cases hOwn
  case h_10 => cases hOwnStep
  all_goals rfl

/-
  The holders after a step were holders before it, for the
  same port, but for a relay just made.
-/
theorem step_holder
    {s t : RelayState}
    {e : Event}
    {relay : Nat}
    {port : UInt16}
    (hInv : s.Inv)
    (hStep : s.step e = some t)
    (hHolder : t.Holder relay port) :
    s.Holder relay port ∨ relay = s.made.length := by
  rcases step_moves hStep with
    _ | _ | _ | _ |
    @⟨id, r, c, hCall, hPhase, hUpgrade⟩ | _ |
    @⟨id, r, c, hCall, hPhase, hRemote⟩ | _ | _ | _ | _ |
    _ | _
  case upgraded =>
    refine Or.inl (holder_of_enter ?_ hHolder)
    intro q hHolds
    rw [RelayPhase.holds, beq_iff_eq] at hHolds
    exact hHolds ▸ upgrade_some hInv hUpgrade
  case shared =>
    refine Or.inl (holder_of_enter ?_ hHolder)
    intro q hHolds
    exact ⟨id, c, hCall, hPhase ▸ hHolds, rfl⟩
  case bound =>
    rcases holder_of_insertRelay hHolder with
      ⟨hNew, _⟩ | hOld
    · exact Or.inr hNew
    · exact Or.inl hOld
  case call =>
    rcases hHolder with ⟨j, d, hCall, hHolds, hPort⟩
    rcases calls_of_concat hCall with hOld | hNew
    · exact Or.inl ⟨j, d, hOld, hHolds, hPort⟩
    · rw [hNew] at hHolds
      cases hHolds
  case closed => exact Or.inl hHolder
  case retain =>
    have hRetained : s.retainLive.Holder relay port :=
      holder_of_enter_idle hHolder fun _ => rfl
    exact Or.inl hRetained
  all_goals
    exact Or.inl (holder_of_enter_idle hHolder fun _ => rfl)

/- Only the insertion makes a relay or an entry. -/
theorem own_step_frame
    {s t : RelayState}
    {e : Event}
    {id : Nat}
    (hStep : s.step e = some t)
    (hOwn : e.caller = some id)
    (hBind : e ≠ .bind id true) :
    t.made = s.made ∧ t.listening = s.listening ∧
      ∀ x, x ∈ t.relays → x ∈ s.relays := by
  rcases step_moves hStep
  case bound =>
    cases hOwn
    exact absurd rfl hBind
  case retain =>
    exact ⟨rfl, rfl, fun _ hMem => mem_of_mem_retainLive hMem⟩
  case call => cases hOwn
  case closed => cases hOwn
  all_goals exact ⟨rfl, rfl, fun _ hMem => hMem⟩

/- Every step of a call but the insertion. -/
theorem own_step_keeps
    {s t : RelayState}
    {e : Event}
    {id : Nat}
    (hInv : s.Inv)
    (hStep : s.step e = some t)
    (hOwn : e.caller = some id)
    (hBind : e ≠ .bind id true) :
    s.Keeps t := by
  have hInv' := step_inv hInv hStep
  rcases own_step_frame hStep hOwn hBind with
    ⟨hMade, hListening, hEntries⟩
  refine ⟨hMade, hListening, ?_, ?_⟩
  · rintro relay port hHeld
    have hBefore := hInv.entry relay port hHeld.holder
    rcases hHeld with ⟨j, d, hCall, hPhase, hPort⟩
    have hOther : e.caller ≠ some j := by
      intro hOwn'
      have hPending := own_step_pending hStep hCall hOwn'
      rw [hPhase] at hPending
      cases hPending
    have hKept : e ≠ .release j := by
      rintro rfl
      cases hOwn
    have hAfter : t.Held relay port :=
      ⟨j, d, step_calls_other hStep hCall hOther hKept,
        hPhase, hPort⟩
    exact ⟨hAfter, hBefore,
      hInv'.entry relay port hAfter.holder⟩
  · rintro relay port hGet ⟨other, hHolder⟩
    have hLive : s.Live relay := by
      rcases step_holder hInv hStep hHolder with hOld | rfl
      · exact ⟨other, hOld⟩
      · rcases hInv'.made _ other hHolder with ⟨r, hThere, _⟩
        rw [hMade, List.getElem?_eq_none (Nat.le_refl _)] at hThere
        cases hThere
    have hMem := hEntries _ (Table.mem_of_get hGet)
    exact ⟨hInv.entry relay port
      (holder_of_live_entry hInv hMem hLive), hLive⟩

end RelayState

end DevTunnel

end Sshdt

------------------------------------------------------------
-- Conflicts, Ends And Dropped Relays
------------------------------------------------------------

namespace Sshdt

namespace DevTunnel

/-
  A call that got no relay: it has not returned, was
  cancelled, or met another destination on its port.
-/
def RelayPhase.unserved
    (phase : RelayPhase) : Bool :=
  phase.pending || phase == .failed .otherDestination ||
    phase == .dropped

namespace RelayState

/-
  Call `id` asks for the port of a relay that call `holder`
  holds, with another remote port.
-/
def Conflict
    (s : RelayState)
    (id holder : Nat)
    (c d : RelayCall)
    (relay : Nat) : Prop :=
  s.calls[id]? = some c ∧ s.calls[holder]? = some d ∧
    d.phase = .returned relay ∧ d.port = c.port ∧
    d.remotePort ≠ c.remotePort

/- In a conflict the call does not get to bind. -/
theorem Conflict.not_binding
    {s : RelayState}
    {id holder relay : Nat}
    {c d : RelayCall}
    (hInv : s.Inv)
    (hConflict : s.Conflict id holder c d relay) :
    c.phase ≠ .binding := by
  rcases hConflict with ⟨hCall, hThere, hPhase, hPort, _⟩
  intro hBinding
  have hHeld : s.Held relay c.port :=
    ⟨holder, d, hThere, hPhase, hPort⟩
  exact hInv.binding id c relay hCall hBinding hHeld.holder

/- In a conflict the upgraded relay is not shared. -/
theorem Conflict.remote_ne
    {s : RelayState}
    {id holder relay other : Nat}
    {c d : RelayCall}
    (hInv : s.Inv)
    (hConflict : s.Conflict id holder c d relay)
    (hUpgraded : c.phase = .upgraded other) :
    s.made[other]?.map FixedRelay.remotePort ≠
      some c.remotePort := by
  rcases hConflict with
    ⟨hCall, hThere, hPhase, hPort, hRemote⟩
  have hHeld : s.Held relay c.port :=
    ⟨holder, d, hThere, hPhase, hPort⟩
  have hOwn : s.Holder other c.port :=
    ⟨id, c, hCall, by simp [hUpgraded, RelayPhase.holds],
      rfl⟩
  have hSame : other = relay := by
    have hEntry := hInv.entry other c.port hOwn
    rw [hInv.entry relay c.port hHeld.holder,
      Option.some.injEq] at hEntry
    exact hEntry.symm
  rw [hSame, hInv.serves holder d relay hThere hPhase]
  simpa using hRemote

/- A step of a call in conflict leaves it unserved. -/
theorem own_step_conflict
    {s t : RelayState}
    {e : Event}
    {id holder relay : Nat}
    {c d : RelayCall}
    (hInv : s.Inv)
    (hConflict : s.Conflict id holder c d relay)
    (hStep : s.step e = some t)
    (hOwn : e.caller = some id) :
    ∃ phase,
      t.calls[id]? = some { c with phase } ∧
        phase.unserved = true := by
  have hCall := hConflict.1
  have hBinding := hConflict.not_binding hInv
  have hRemote := @Conflict.remote_ne s id holder relay
  have hOwnStep := own_step hStep hCall hOwn
  generalize hPhase : c.phase = phase at hOwnStep
  unfold stepCall at hOwnStep
  split at hOwnStep
  case h_5 => exact absurd hPhase hBinding
  case h_6 => exact absurd hPhase hBinding
  case h_8 => exact absurd hPhase hBinding
  case h_9 => cases hOwn
  case h_10 => cases hOwnStep
  case h_1 =>
    split at hOwnStep <;> cases hOwnStep
    exact ⟨_, enter_calls_self hCall, rfl⟩
  case h_2 =>
    cases hOwnStep
    exact ⟨_, @enter_calls_self s.retainLive _ _ _ _ _ hCall,
      rfl⟩
  case h_3 =>
    split at hOwnStep <;> cases hOwnStep
    · exact ⟨_, enter_calls_self hCall, rfl⟩
    · exact ⟨_, enter_calls_self hCall, rfl⟩
  case h_4 other =>
    rw [if_neg (hRemote hInv hConflict hPhase)] at hOwnStep
    cases hOwnStep
    exact ⟨_, enter_calls_self hCall, rfl⟩
  case h_7 =>
    cases hOwnStep
    exact ⟨_, enter_calls_self hCall, rfl⟩

/- A relay that was returned stays so until its release. -/
theorem step_returned
    {s t : RelayState}
    {e : Event}
    {id relay : Nat}
    {c : RelayCall}
    (hStep : s.step e = some t)
    (hCall : s.calls[id]? = some c)
    (hPhase : c.phase = .returned relay)
    (hKept : e ≠ .release id) :
    t.calls[id]? = some c := by
  refine step_calls_other hStep hCall ?_ hKept
  intro hOwn
  have hPending := own_step_pending hStep hCall hOwn
  rw [hPhase] at hPending
  cases hPending

/- Only a relay that was returned is released. -/
theorem step_release
    {s t : RelayState}
    {id : Nat}
    {c : RelayCall}
    (hStep : s.step (.release id) = some t)
    (hCall : s.calls[id]? = some c) :
    (∃ relay, c.phase = .returned relay) ∧
      t.calls[id]? = some { c with phase := .dropped } := by
  cases step_moves hStep with
  | release hCall' hPhase =>
      rw [hCall, Option.some.injEq] at hCall'
      subst hCall'
      exact ⟨⟨_, hPhase⟩, enter_calls_self hCall⟩

/- Only a call that binds makes a relay. -/
theorem step_bound
    {s t : RelayState}
    {id : Nat}
    {c : RelayCall}
    (hStep : s.step (.bind id true) = some t)
    (hCall : s.calls[id]? = some c) :
    c.phase = .binding ∧
      ∃ relay,
        t.calls[id]? =
          some { c with phase := .returned relay } := by
  cases step_moves hStep with
  | bound hCall' hPhase hFree =>
      rw [hCall, Option.some.injEq] at hCall'
      subst hCall'
      refine ⟨hPhase, s.made.length, ?_⟩
      simp [insertRelay, List.getElem?_set_self', hCall]

/- A conflict lasts, and the call stays unserved. -/
theorem step_conflict
    {s t : RelayState}
    {e : Event}
    {id holder relay : Nat}
    {c d : RelayCall}
    (hInv : s.Inv)
    (hConflict : s.Conflict id holder c d relay)
    (hUnserved : c.phase.unserved = true)
    (hStep : s.step e = some t)
    (hKept : e ≠ .release holder) :
    ∃ phase,
      t.Conflict id holder { c with phase } d relay ∧
        phase.unserved = true := by
  have hOwn :
      ∃ phase,
        t.calls[id]? = some { c with phase } ∧
          phase.unserved = true := by
    by_cases hCaller : e.caller = some id
    · exact own_step_conflict hInv hConflict hStep hCaller
    · have hNotReleased : e ≠ .release id := by
        rintro rfl
        rcases step_release hStep hConflict.1 with
          ⟨⟨r, hPhase⟩, _⟩
        rw [hPhase] at hUnserved
        cases hUnserved
      exact ⟨c.phase,
        step_calls_other hStep hConflict.1 hCaller
          hNotReleased, hUnserved⟩
  rcases hOwn with ⟨phase, hAfter, hStill⟩
  rcases hConflict with ⟨_, hThere, hPhase, hPort, hRemote⟩
  exact ⟨phase,
    ⟨hAfter, step_returned hStep hThere hPhase hKept, hPhase,
      hPort, hRemote⟩, hStill⟩

/- The same over a run in which the holder keeps its relay. -/
theorem exec_conflict
    {s t : RelayState}
    {es : List Event}
    {id holder relay : Nat}
    {c d : RelayCall}
    (hInv : s.Inv)
    (hConflict : s.Conflict id holder c d relay)
    (hUnserved : c.phase.unserved = true)
    (hExec : machine.exec s es = some t)
    (hKept : .release holder ∉ es) :
    ∃ phase,
      t.Conflict id holder { c with phase } d relay ∧
        phase.unserved = true := by
  induction es generalizing s c with
  | nil =>
      simp only [Machine.exec, Option.some.injEq] at hExec
      exact ⟨c.phase, hExec ▸ hConflict, hUnserved⟩
  | cons e es ih =>
      rcases Machine.exec_cons.mp hExec with
        ⟨u, hStep, hRest⟩
      rw [List.mem_cons, not_or] at hKept
      rcases step_conflict hInv hConflict hUnserved hStep
          (Ne.symm hKept.1) with ⟨phase, hNext, hStill⟩
      have hEnd := ih (step_inv hInv hStep) hNext hStill
        hRest hKept.2
      exact hEnd

/- A call that got its relay does not fail any more. -/
theorem step_settled
    {s t : RelayState}
    {e : Event}
    {id : Nat}
    {c : RelayCall}
    (hStep : s.step e = some t)
    (hCall : s.calls[id]? = some c)
    (hSettled :
      c.phase = .dropped ∨ ∃ r, c.phase = .returned r) :
    ∃ d, t.calls[id]? = some d ∧
      (d.phase = .dropped ∨ ∃ r, d.phase = .returned r) := by
  by_cases hRelease : e = .release id
  · subst hRelease
    exact ⟨_, (step_release hStep hCall).2, Or.inl rfl⟩
  · refine ⟨c, ?_, hSettled⟩
    refine step_calls_other hStep hCall ?_ hRelease
    intro hOwn
    have hPending := own_step_pending hStep hCall hOwn
    rcases hSettled with hPhase | ⟨r, hPhase⟩ <;>
      rw [hPhase] at hPending <;> cases hPending

theorem exec_settled
    {s t : RelayState}
    {es : List Event}
    {id : Nat}
    {c : RelayCall}
    (hExec : machine.exec s es = some t)
    (hCall : s.calls[id]? = some c)
    (hSettled :
      c.phase = .dropped ∨ ∃ r, c.phase = .returned r) :
    ∃ d, t.calls[id]? = some d ∧
      (d.phase = .dropped ∨ ∃ r, d.phase = .returned r) := by
  induction es generalizing s c with
  | nil =>
      simp only [Machine.exec, Option.some.injEq] at hExec
      exact ⟨c, hExec ▸ hCall, hSettled⟩
  | cons e es ih =>
      rcases Machine.exec_cons.mp hExec with
        ⟨u, hStep, hRest⟩
      rcases step_settled hStep hCall hSettled with
        ⟨d, hThere, hStill⟩
      exact ih hRest hThere hStill

/- Relays are only ever added. -/
theorem step_made
    {s t : RelayState}
    {e : Event}
    (hStep : s.step e = some t) :
    s.made.length ≤ t.made.length := by
  rcases step_moves hStep
  case bound => simp [insertRelay]
  all_goals exact Nat.le_refl _

/- A relay without a strong reference gets none again. -/
theorem dead_stays_dead
    {s t : RelayState}
    {es : List Event}
    {relay : Nat}
    (hInv : s.Inv)
    (hExec : machine.exec s es = some t)
    (hMade : relay < s.made.length)
    (hDead : ¬ s.Live relay) :
    ¬ t.Live relay := by
  induction es generalizing s with
  | nil =>
      simp only [Machine.exec, Option.some.injEq] at hExec
      exact hExec ▸ hDead
  | cons e es ih =>
      rcases Machine.exec_cons.mp hExec with
        ⟨u, hStep, hRest⟩
      apply ih (step_inv hInv hStep) hRest
      · exact Nat.lt_of_lt_of_le hMade (step_made hStep)
      · rintro ⟨port, hHolder⟩
        rcases step_holder hInv hStep hHolder with hOld | rfl
        · exact hDead ⟨port, hOld⟩
        · exact Nat.lt_irrefl _ hMade

end RelayState

end DevTunnel

end Sshdt

------------------------------------------------------------
-- Sharing Over Whole Runs
------------------------------------------------------------

namespace Sshdt

namespace DevTunnel

namespace RelayState

/- A held relay is found under its port. -/
theorem upgrade_of_holder
    {s : RelayState}
    {relay : Nat}
    {port : UInt16}
    (hInv : s.Inv)
    (hHolder : s.Holder relay port) :
    s.upgrade port = some relay := by
  have hCount : 0 < s.strongCount relay :=
    (strongCount_pos_iff s relay).mpr ⟨port, hHolder⟩
  simp [upgrade, hInv.entry relay port hHolder, hCount]

/- The conflict after a step of the call itself. -/
theorem Conflict.own_step
    {s t : RelayState}
    {e : Event}
    {id holder relay : Nat}
    {c d : RelayCall}
    {phase : RelayPhase}
    (hConflict : s.Conflict id holder c d relay)
    (hStep : s.step e = some t)
    (hOwn : e.caller = some id)
    (hAfter : t.calls[id]? = some { c with phase }) :
    t.Conflict id holder { c with phase } d relay := by
  rcases hConflict with ⟨_, hThere, hPhase, hPort, hRemote⟩
  refine ⟨hAfter, ?_, hPhase, hPort, hRemote⟩
  apply step_returned hStep hThere hPhase
  rintro rfl
  cases hOwn

/-
  A call in conflict that gets the lock and runs to its end
  fails.
-/
theorem conflict_fails
    {s : RelayState}
    {id holder relay : Nat}
    {c d : RelayCall}
    (hInv : s.Inv)
    (hConflict : s.Conflict id holder c d relay)
    (hPhase : c.phase = .waiting)
    (hFree : s.guard = none) :
    ∃ t,
      machine.exec s
          [.lock id, .retain id, .upgrade id, .check id] =
        some t ∧
      t.calls[id]? =
        some
          { c with phase := .failed .otherDestination } := by
  have hLock :
      s.step (.lock id) =
        some (s.enter id c .locked (some id)) := by
    simp [step, hConflict.1, stepCall, hPhase, hFree]
  have hInvLocked := step_inv hInv hLock
  have hLocked :=
    hConflict.own_step hLock rfl (enter_calls_self hConflict.1)
  generalize s.enter id c .locked (some id) = a at *
  have hRetain :
      a.step (.retain id) =
        some (a.retainLive.enter id
          { c with phase := .locked } .retained a.guard) := by
    simp [step, hLocked.1, stepCall]
  have hInvRetained := step_inv hInvLocked hRetain
  have hRetained :=
    hLocked.own_step hRetain rfl
      (@enter_calls_self a.retainLive _ _ _ _ _ hLocked.1)
  generalize
    a.retainLive.enter id { c with phase := .locked }
      .retained a.guard = b at *
  have hUpgrade : b.upgrade c.port = some relay := by
    apply upgrade_of_holder hInvRetained
    exact Held.holder ⟨holder, d, hRetained.2.1,
      hRetained.2.2.1, hRetained.2.2.2.1⟩
  have hTaken :
      b.step (.upgrade id) =
        some (b.enter id { c with phase := .retained }
          (.upgraded relay) b.guard) := by
    simp [step, hRetained.1, stepCall, hUpgrade]
  have hInvUpgraded := step_inv hInvRetained hTaken
  have hUpgraded :=
    hRetained.own_step hTaken rfl
      (enter_calls_self hRetained.1)
  generalize
    b.enter id { c with phase := .retained }
      (.upgraded relay) b.guard = u at *
  have hCheck :
      u.step (.check id) =
        some (u.enter id { c with phase := .upgraded relay }
          (.failed .otherDestination) none) := by
    have hRemote := hUpgraded.remote_ne hInvUpgraded rfl
    simp only [step, hUpgraded.1, stepCall]
    rw [if_neg hRemote]
  refine ⟨u.enter id { c with phase := .upgraded relay }
    (.failed .otherDestination) none, ?_,
    enter_calls_self hUpgraded.1⟩
  rw [Machine.exec_cons]
  refine ⟨a, hLock, ?_⟩
  rw [Machine.exec_cons]
  refine ⟨b, hRetain, ?_⟩
  rw [Machine.exec_cons]
  refine ⟨u, hTaken, ?_⟩
  rw [Machine.exec_singleton]
  exact hCheck

/-
  Fixed-port relays are shared consistently, in every run of
  calls, cancellations, releases and closing listeners.

  Two held relays of one local port are one relay, and it
  serves the remote port both callers named. While a relay
  is held, a call for its port with another remote port gets
  no relay, and fails as soon as it runs. The steps of such
  a call, and those of a call whose bind fails, leave every
  held relay and its entry as they were and add no live
  entry. A relay whose last reference was dropped is
  returned by no later call.
-/
theorem relays_shared_consistently
    {s : RelayState}
    {es : List Event}
    (hRun : machine.exec machine.init es = some s) :
    (∀ (i j : Nat) (c d : RelayCall) (r q : Nat),
      s.calls[i]? = some c → s.calls[j]? = some d →
      c.phase = .returned r → d.phase = .returned q →
      c.port = d.port →
        r = q ∧ c.remotePort = d.remotePort ∧
          s.made[r]? = some ⟨c.port, c.remotePort⟩) ∧
    (∀ (i j : Nat) (c d : RelayCall) (r : Nat),
      s.Conflict i j c d r → c.phase.pending = true →
        (∀ es' t, machine.exec s es' = some t →
          .release j ∉ es' →
            (∃ phase,
              t.calls[i]? = some { c with phase } ∧
                phase.unserved = true) ∧
            ∀ pre e post u v, es' = pre ++ e :: post →
              machine.exec s pre = some u →
              u.step e = some v → e.caller = some i →
                u.Keeps v) ∧
        (c.phase = .waiting → s.guard = none →
          ∃ t,
            machine.exec s
                [.lock i, .retain i, .upgrade i, .check i] =
              some t ∧
            t.calls[i]? =
              some
                { c with
                  phase := .failed .otherDestination })) ∧
    (∀ (i : Nat) (c d : RelayCall) (error : RelayError)
      (es' : List Event) (t : RelayState),
      s.calls[i]? = some c → c.phase.pending = true →
      machine.exec s es' = some t →
      t.calls[i]? = some d → d.phase = .failed error →
        ∀ pre e post u v, es' = pre ++ e :: post →
          machine.exec s pre = some u →
          u.step e = some v → e.caller = some i →
            u.Keeps v) ∧
    (∀ (r : Nat) (es' : List Event) (t : RelayState),
      r < s.made.length → ¬ s.Live r →
      machine.exec s es' = some t →
        ∀ (i : Nat) (c : RelayCall), t.calls[i]? = some c →
          c.phase ≠ .returned r) := by
  have hInv := exec_inv init_inv hRun
  refine ⟨?_, ?_, ?_, ?_⟩
  · intro i j c d r q hCall hCall' hPhase hPhase' hPort
    have hHeld : s.Held r c.port :=
      ⟨i, c, hCall, hPhase, rfl⟩
    have hHeld' : s.Held q c.port :=
      ⟨j, d, hCall', hPhase', hPort.symm⟩
    have hEntry := hInv.entry r c.port hHeld.holder
    rw [hInv.entry q c.port hHeld'.holder,
      Option.some.injEq] at hEntry
    subst hEntry
    have hMade := hInv.serves i c q hCall hPhase
    have hMade' := hInv.serves j d q hCall' hPhase'
    rw [hMade, Option.some.injEq, FixedRelay.mk.injEq] at hMade'
    exact ⟨rfl, hMade'.2, hMade⟩
  · intro i j c d r hConflict hPending
    have hUnserved : c.phase.unserved = true := by
      simp [RelayPhase.unserved, hPending]
    refine ⟨?_, conflict_fails hInv hConflict⟩
    intro es' t hExec hKept
    constructor
    · rcases exec_conflict hInv hConflict hUnserved hExec
        hKept with ⟨phase, hThere, hStill⟩
      exact ⟨phase, hThere.1, hStill⟩
    · intro pre e post u v hSplit hPre hStep hOwn
      have hBefore : .release j ∉ pre := by
        intro hMem
        exact hKept (hSplit ▸ List.mem_append_left _ hMem)
      rcases exec_conflict hInv hConflict hUnserved hPre
        hBefore with ⟨phase, hThere, _⟩
      have hInv' := exec_inv hInv hPre
      apply own_step_keeps hInv' hStep hOwn
      rintro rfl
      exact hThere.not_binding hInv'
        (step_bound hStep hThere.1).1
  · intro i c d error es' t hCall hPending hExec hEnd hFailed
      pre e post u v hSplit hPre hStep hOwn
    apply own_step_keeps (exec_inv hInv hPre) hStep hOwn
    rintro rfl
    -- A call that was served does not fail afterwards.
    rw [hSplit, Machine.exec_append] at hExec
    rcases hExec with ⟨u', hPre', hRest⟩
    rw [hPre, Option.some.injEq] at hPre'
    subst hPre'
    rcases Machine.exec_cons.mp hRest with ⟨v', hStep', hPost⟩
    have hSame : v' = v :=
      Option.some.inj (hStep'.symm.trans hStep)
    subst hSame
    cases hThere : u.calls[i]? with
    | none => simp [step, hThere] at hStep
    | some c' =>
        rcases step_bound hStep hThere with ⟨_, r, hServed⟩
        rcases exec_settled hPost hServed (.inr ⟨r, rfl⟩) with
          ⟨d', hEnd', hSettled⟩
        rw [hEnd, Option.some.injEq] at hEnd'
        subst hEnd'
        rw [hFailed] at hSettled
        simp at hSettled
  · intro r es' t hMade hDead hExec i c hCall hPhase
    have hHeld : t.Held r c.port := ⟨i, c, hCall, hPhase, rfl⟩
    exact dead_stays_dead hInv hExec hMade hDead
      ⟨c.port, hHeld.holder⟩

/-
  Two callers of port 2022 share one relay while a third
  asks for the port with another destination.
-/
def sharedRun : List Event :=
  [.call 2022 22, .call 2022 22, .call 2022 23,
    .lock 0, .retain 0, .upgrade 0, .bind 0 true,
    .lock 1, .retain 1, .upgrade 1, .check 1]

/- The state it ends in. -/
def sharedState : RelayState where
  relays := [(2022, 0)]
  guard := none
  made := [⟨2022, 22⟩]
  listening := [0]
  calls :=
    [⟨2022, 22, .returned 0⟩, ⟨2022, 22, .returned 0⟩,
      ⟨2022, 23, .waiting⟩]

theorem sharedRun_consistent :
    machine.exec machine.init sharedRun = some sharedState ∧
      sharedState.Conflict 2 0 ⟨2022, 23, .waiting⟩
        ⟨2022, 22, .returned 0⟩ 0 ∧
      ∀ es' t, machine.exec sharedState es' = some t →
        .release 0 ∉ es' →
          ∃ phase, t.calls[2]? = some ⟨2022, 23, phase⟩ ∧
            phase.unserved = true := by
  have hRun :
      machine.exec machine.init sharedRun =
        some sharedState := by decide
  have hConflict :
      sharedState.Conflict 2 0 ⟨2022, 23, .waiting⟩
        ⟨2022, 22, .returned 0⟩ 0 := by
    refine ⟨rfl, rfl, rfl, rfl, ?_⟩
    decide
  refine ⟨hRun, hConflict, ?_⟩
  intro es' t hExec hKept
  rcases relays_shared_consistently hRun with
    ⟨_, hFails, _⟩
  rcases hFails 2 0 _ _ 0 hConflict rfl with ⟨hAlways, _⟩
  exact (hAlways es' t hExec hKept).1

end RelayState

end DevTunnel

end Sshdt
