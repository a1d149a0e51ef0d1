import Sshdt.DevTunnel.Serve
import Sshdt.Lib.Frame

/-
  Who may use the tunnel manager (`serve` in
  `src/devtunnel/client.rs`, `receive` in
  `src/devtunnel/ipc.rs`).

  Any local process may connect to the broker and send any
  bytes. This layer adds to the sessions of the manager the
  bytes of each connection, the frame that is read from
  them, the leases, and a log of everything that is done on
  behalf of a connection. The decoder of a frame's body is
  the JSON reader, a parameter.

  Key definitions include:
    * `Effect`
    * `Gate`
    * `Gate.effects`
    * `Gate.step`
    * `Gate.Presented`

  Key theorems include:
    * `Manager.step_session`
    * `Gate.effects_sound`
    * `Gate.step_inv`
    * `Gate.nothing_for_unauthorized`
-/

------------------------------------------------------------
-- Connections, Frames And Effects
------------------------------------------------------------

namespace Sshdt

namespace DevTunnel

/- The largest message of `ipc::receive`. -/
def ipcLimit : Nat := 4096

/- What the broker does on behalf of a connection. -/
inductive Effect where
  | takesLease
  | requestsPort (port : UInt16)
  | bindsRelay (port : UInt16)
  | dials
  | replies (failed : Bool)
  deriving DecidableEq, Repr

/- The effects that need a valid request. -/
def Effect.acts : Effect → Bool
  | .requestsPort _ | .bindsRelay _ | .dials => true
  | .takesLease | .replies _ => false

/- The sessions with the bytes of their connections. -/
structure Gate where
  manager : Manager
  sent : Nat → List UInt8
  leases : LeaseState
  now : Instant
  log : List (Nat × Effect)

namespace Gate

inductive Event where
  | sends (i : Nat) (bytes : List UInt8)
  | receives (i : Nat)
  | serves (e : Manager.Event)
  | fails (i : Nat)
  | releases
  | tick
  | advance (span : Duration)
  deriving DecidableEq, Repr

/- A broker without connections. -/
def initial
    (start : Instant) : Gate where
  manager := .initial
  sent := fun _ => []
  leases := .default start
  now := start
  log := []

/-
  The effects of a step of the manager. A session that ends
  while it opens its destination answers with the error.
-/
def effects
    (s t : Manager) :
    Manager.Event → List (Nat × Effect)
  | .ensureRelay i _ =>
      match (t.sessions i).phase,
          (s.sessions i).request.localPort with
      | .closed, _ => [(i, .replies true)]
      | _, some port =>
          if s.nextRelay < t.nextRelay then
            [(i, .bindsRelay port)]
          else
            []
      | _, none => []
  | .start i =>
      [(i, .requestsPort (s.sessions i).request.remotePort)]
  | .inspect i =>
      match (t.sessions i).phase with
      | .closed => [(i, .replies true)]
      | .connecting _ _ => [(i, .dials)]
      | _ => []
  | .dial i | .relayAccept i _ => [(i, .dials)]
  | .check i =>
      match (t.sessions i).phase with
      | .established _ _ => [(i, .replies false)]
      | _ => []
  | _ => []

/- A step of the manager, with its effects in the log. -/
def serve
    (token : Text)
    (g : Gate)
    (e : Manager.Event) : Option Gate :=
  (g.manager.step token e).map fun manager =>
    { g with
      manager
      log := g.log ++ effects g.manager manager e }

/-
  The head of `serve`, for the bytes that have arrived. A
  frame that cannot be read or has another token ends the
  session; so does a broker that grants no lease.
-/
def receive
    (fromSlice : List UInt8 → Option Request)
    (token : Text)
    (g : Gate)
    (i : Nat) : Option Gate :=
  match (g.manager.sessions i).phase with
  | .reading =>
      match Frame.receive ipcLimit fromSlice (g.sent i) with
      | .incomplete => none
      | .tooLarge | .malformed =>
          some { g with manager := g.manager.endSession i }
      | .message request _ =>
          if sameToken request.token token then
            match Lease.acquire g.leases with
            | some leases =>
                (g.manager.step token
                  (.receive i request true)).map
                  fun manager =>
                    { g with
                      manager
                      leases
                      log := g.log ++ [(i, .takesLease)] }
            | none =>
                some { g with
                  manager := g.manager.endSession i }
          else
            some { g with manager := g.manager.endSession i }
  | _ => none

/- Waiting for the stopped broker, `open` fails. -/
def fail
    (g : Gate)
    (i : Nat) : Option Gate :=
  match (g.manager.sessions i).phase with
  | .starting | .waiting =>
      some { g with
        manager := g.manager.endSession i
        log := g.log ++ [(i, .replies true)] }
  | _ => none

def step
    (fromSlice : List UInt8 → Option Request)
    (token : Text)
    (g : Gate) : Event → Option Gate
  | .sends i bytes =>
      some { g with
        sent := Function.update g.sent i
          (g.sent i ++ bytes) }
  | .receives i => g.receive fromSlice token i
  -- Requests come from frames only.
  | .serves (.receive _ _ _) => none
  | .serves e => g.serve token e
  | .fails i => g.fail i
  | .releases =>
      (Lease.drop g.now g.leases).map fun leases =>
        { g with leases }
  | .tick =>
      some { g with
        leases := beginIdleShutdown g.now g.leases }
  | .advance span => some { g with now := g.now + span }

/- A broker with the given token and JSON reader. -/
def machine
    (fromSlice : List UInt8 → Option Request)
    (token : Text)
    (start : Instant) : Machine Gate Event where
  init := initial start
  step := step fromSlice token

/- The leases that were granted so far. -/
def leasesTaken
    (g : Gate) : Nat :=
  g.log.countP fun entry => entry.2 = .takesLease

/-
  A connection has presented a request: the first thing it
  sent is a frame, within the limit, that decodes to it.
-/
def Presented
    (fromSlice : List UInt8 → Option Request)
    (g : Gate)
    (i : Nat)
    (request : Request) : Prop :=
  ∃ body rest,
    g.sent i = Frame.encode body ++ rest ∧
      body.length ≤ ipcLimit ∧
      fromSlice body = some request

end Gate

end DevTunnel

end Sshdt

------------------------------------------------------------
-- What A Step Of The Manager Does To A Session
------------------------------------------------------------

namespace Sshdt

namespace DevTunnel

/- The session has a lease. -/
def SessionPhase.admitted : SessionPhase → Bool
  | .absent | .reading | .closed => false
  | _ => true

/- The session has passed the checks of its request. -/
def SessionPhase.checked : SessionPhase → Bool
  | .absent | .reading | .closed | .leased => false
  | _ => true

/- The session has dialed a destination it still uses. -/
def SessionPhase.dialing : SessionPhase → Bool
  | .connecting _ _ | .connected _ _ | .established _ _ =>
      true
  | _ => false

/-
  The steps of `serve` between lease and end. A destination
  is dialed after a look at the table only.
-/
inductive Advances
    (request : Request)
    (inspects : Prop) :
    SessionPhase → SessionPhase → Prop
| checks
    (hValid : Manager.invalidRequest request = false) :
    Advances request inspects .leased .starting
| starts : Advances request inspects .starting .looping
| waits : Advances request inspects .looping .waiting
| dials
    (hInspects : inspects)
    (snapshot : Snapshot) :
    Advances request inspects .looping
      (.connecting snapshot .dialing)
| changed : Advances request inspects .waiting .looping
| links
    (snapshot : Snapshot)
    (link link' : Link) :
    Advances request inspects (.connecting snapshot link)
      (.connecting snapshot link')
| connects
    (snapshot : Snapshot)
    (link : Link) :
    Advances request inspects (.connecting snapshot link)
      (.connected snapshot link)
| gives
    (snapshot : Snapshot)
    (link : Link) :
    Advances request inspects (.connecting snapshot link) .sleeping
| rejects
    (snapshot : Snapshot)
    (link : Link) :
    Advances request inspects (.connected snapshot link) .sleeping
| establishes
    (snapshot : Snapshot)
    (link : Link) :
    Advances request inspects (.connected snapshot link)
      (.established snapshot.generation link)
| wakes : Advances request inspects .sleeping .looping

namespace Manager

variable {s t : Manager}
variable {e : Event}

/-
  One session may change, and it ends, has not begun to
  serve, or advances with the request it has.
-/
def Moves
    (s : Manager)
    (e : Event)
    (t : Manager) : Prop :=
  ∃ i new,
    t.sessions = Function.update s.sessions i new ∧
      (new = s.sessions i ∨
        new.phase.admitted = false ∨
        (new.request = (s.sessions i).request ∧
          Advances (s.sessions i).request (e = .inspect i)
            (s.sessions i).phase new.phase))

theorem Moves.of_sessions
    (hSessions : t.sessions = s.sessions) :
    s.Moves e t :=
  ⟨0, s.sessions 0, by
    rw [hSessions, Function.update_eq_self], Or.inl rfl⟩

theorem Moves.endSession
    (s : Manager)
    (i : Nat) :
    s.Moves e (s.endSession i) :=
  ⟨i, _, rfl, Or.inr (Or.inl rfl)⟩

theorem Moves.setPhase
    {i : Nat}
    {phase : SessionPhase}
    (hAdvances :
      Advances (s.sessions i).request (e = .inspect i)
        (s.sessions i).phase phase) :
    s.Moves e (s.setPhase i phase) :=
  ⟨i, _, rfl, Or.inr (Or.inr ⟨rfl, hAdvances⟩)⟩

theorem ensureRelay_moves
    {i : Nat}
    {port remotePort : UInt16}
    {binds : Bool}
    (hLeased : (s.sessions i).phase = .leased)
    (hValid :
      invalidRequest (s.sessions i).request = false)
    (hEnsure :
      s.ensureRelay i port remotePort binds = some t) :
    s.Moves e t := by
  have hHold :
      ∀ (u : Manager) (id : Nat),
        u.sessions = s.sessions →
          s.Moves e (u.hold i id) := by
    intro u id hSessions
    refine ⟨i, { u.sessions i with
      phase := .starting, relay := some id }, ?_, ?_⟩
    · simp only [hold, hSessions]
    · refine Or.inr (Or.inr ⟨by rw [hSessions], ?_⟩)
      rw [hLeased]
      exact .checks hValid
  have hEnd :
      ∀ u : Manager, u.sessions = s.sessions →
        s.Moves e (u.endSession i) := by
    intro u hSessions
    refine ⟨i, { u.sessions i with
      phase := .closed, relay := none }, ?_,
      Or.inr (Or.inl rfl)⟩
    simp only [Manager.endSession, hSessions]
  simp only [Manager.ensureRelay] at hEnsure
  split at hEnsure
  · split at hEnsure <;> cases hEnsure
    · exact hHold _ _ rfl
    · exact hEnd _ rfl
  · split at hEnsure
    · split at hEnsure <;> cases hEnsure
      exact hHold _ _ rfl
    · cases hEnsure
      exact hEnd _ rfl

/- What any step but the arrival of a request does. -/
theorem step_session
    {token : Text}
    (hStep : s.step token e = some t)
    (hRequest : ∀ i request granted,
      e ≠ .receive i request granted) :
    s.Moves e t := by
  cases e with
  | update u =>
      cases hStep
      exact Moves.of_sessions rfl
  | accept i =>
      simp only [step] at hStep
      split at hStep <;> cases hStep
      exact ⟨i, _, rfl, Or.inr (Or.inl rfl)⟩
  | receive i request granted =>
      exact absurd rfl (hRequest i request granted)
  | ensureRelay i binds =>
      simp only [step] at hStep
      split at hStep <;> [skip; cases hStep]
      rename_i hPhase
      split at hStep
      · cases hStep
        exact Moves.endSession s i
      · rename_i hValid
        have hValid :
            invalidRequest (s.sessions i).request =
              false := by
          simpa using hValid
        split at hStep
        · cases hStep
          apply Moves.setPhase
          rw [hPhase]
          exact .checks hValid
        · exact ensureRelay_moves hPhase hValid hStep
  | start i =>
      simp only [step] at hStep
      split at hStep <;> cases hStep
      rename_i hPhase
      refine ⟨i, _, rfl, Or.inr (Or.inr ⟨rfl, ?_⟩)⟩
      rw [hPhase]
      exact .starts
  | inspect i =>
      simp only [step] at hStep
      split at hStep <;> [skip; cases hStep]
      rename_i hPhase
      split at hStep
      · cases hStep
        exact Moves.endSession s i
      · split at hStep
        · cases hStep
          apply Moves.setPhase
          rw [hPhase]
          exact .dials rfl _
        · cases hStep
          apply Moves.setPhase
          rw [hPhase]
          exact .waits
  | changed i =>
      simp only [step] at hStep
      split at hStep <;> cases hStep
      rename_i hPhase
      apply Moves.setPhase
      rw [hPhase]
      exact .changed
  | dial i =>
      simp only [step] at hStep
      split at hStep <;> cases hStep
      rename_i hPhase _
      apply Moves.setPhase
      rw [hPhase]
      exact .links _ _ _
  | relayAccept i id =>
      simp only [step] at hStep
      split at hStep <;> [skip; cases hStep]
      rename_i hPhase _
      split at hStep <;> cases hStep
      apply Moves.setPhase
      rw [hPhase]
      exact .links _ _ _
  | relayStops id =>
      simp only [step] at hStep
      split at hStep <;> cases hStep
      exact Moves.of_sessions rfl
  | banner i =>
      simp only [step] at hStep
      split at hStep <;> [skip; cases hStep]
      rename_i hPhase
      split at hStep <;> cases hStep
      apply Moves.setPhase
      rw [hPhase]
      exact .connects _ _
  | connectFails i =>
      simp only [step] at hStep
      split at hStep <;> cases hStep
      rename_i hPhase
      apply Moves.setPhase
      rw [hPhase]
      exact .gives _ _
  | interrupted i =>
      simp only [step] at hStep
      split at hStep <;> [skip; cases hStep]
      rename_i hPhase
      split at hStep <;> cases hStep
      apply Moves.setPhase
      rw [hPhase]
      exact .gives _ _
  | check i =>
      simp only [step] at hStep
      split at hStep <;> [skip; cases hStep]
      rename_i hPhase
      split at hStep <;> cases hStep
      · refine ⟨i, _, rfl, Or.inr (Or.inr ⟨rfl, ?_⟩)⟩
        rw [hPhase]
        exact .establishes _ _
      · apply Moves.setPhase
        rw [hPhase]
        exact .rejects _ _
  | wake i =>
      simp only [step] at hStep
      split at hStep <;> cases hStep
      rename_i hPhase
      apply Moves.setPhase
      rw [hPhase]
      exact .wakes
  | ends i =>
      cases hStep
      exact Moves.endSession s i

/- An admitted session was admitted, with its request. -/
theorem Moves.admitted
    {i : Nat}
    (hMoves : s.Moves e t)
    (hAdmitted : (t.sessions i).phase.admitted = true) :
    (t.sessions i).request = (s.sessions i).request ∧
      (s.sessions i).phase.admitted = true ∧
      ((t.sessions i).phase.checked = true →
        (s.sessions i).phase.checked = true ∨
          invalidRequest (s.sessions i).request =
            false) := by
  rcases hMoves with ⟨j, new, hSessions, hNew⟩
  rw [hSessions] at hAdmitted ⊢
  by_cases hSame : i = j
  · subst hSame
    rw [Function.update_self] at hAdmitted ⊢
    rcases hNew with rfl | hEnded | ⟨hRequest, hAdvances⟩
    · exact ⟨rfl, hAdmitted, Or.inl⟩
    · rw [hEnded] at hAdmitted
      cases hAdmitted
    · refine ⟨hRequest, ?_⟩
      generalize (s.sessions i).phase = old at hAdvances ⊢
      generalize new.phase = phase at hAdvances ⊢
      cases hAdvances with
      | checks hValid => exact ⟨rfl, fun _ => Or.inr hValid⟩
      | _ => exact ⟨rfl, fun _ => Or.inl rfl⟩
  · rw [Function.update_of_ne hSame] at hAdmitted ⊢
    exact ⟨rfl, hAdmitted, Or.inl⟩

/- A session that has dialed did so before or just now. -/
theorem Moves.dialing
    {i : Nat}
    (hMoves : s.Moves e t)
    (hDialing : (t.sessions i).phase.dialing = true) :
    (s.sessions i).phase.dialing = true ∨
      e = .inspect i ∧
        ∃ snapshot link,
          (t.sessions i).phase =
            .connecting snapshot link := by
  rcases hMoves with ⟨j, new, hSessions, hNew⟩
  rw [hSessions] at hDialing ⊢
  by_cases hSame : i = j
  · subst hSame
    rw [Function.update_self] at hDialing ⊢
    rcases hNew with rfl | hEnded | ⟨_, hAdvances⟩
    · exact Or.inl hDialing
    · cases hPhase : new.phase <;>
        simp_all [SessionPhase.admitted,
          SessionPhase.dialing]
    · generalize (s.sessions i).phase = old at hAdvances ⊢
      generalize new.phase = phase at hAdvances hDialing ⊢
      cases hAdvances with
      | dials hInspects snapshot =>
          exact Or.inr ⟨hInspects, snapshot, _, rfl⟩
      | links | connects | establishes => exact Or.inl rfl
      | _ => cases hDialing
  · rw [Function.update_of_ne hSame] at hDialing ⊢
    exact Or.inl hDialing

/- Which relays there are, and on which ports. -/
theorem ensureRelay_relays
    {i id : Nat}
    {port remotePort : UInt16}
    {binds : Bool}
    (hEnsure :
      s.ensureRelay i port remotePort binds = some t)
    (hId : id < t.nextRelay) :
    (id < s.nextRelay ∧
        (t.relays id).port = (s.relays id).port) ∨
      ((t.relays id).port = port ∧
        s.nextRelay < t.nextRelay ∧
        (t.sessions i).phase ≠ .closed) := by
  have hHold :
      ∀ (u : Manager) (id' : Nat),
        ((u.hold i id').relays id).port =
          (u.relays id).port := by
    intro u id'
    simp only [hold]
    by_cases hSame : id = id'
    · subst hSame
      simp
    · simp [hSame]
  simp only [Manager.ensureRelay] at hEnsure
  split at hEnsure
  · split at hEnsure <;> cases hEnsure
    · exact Or.inl ⟨hId, hHold _ _⟩
    · exact Or.inl ⟨hId, rfl⟩
  · split at hEnsure
    · split at hEnsure <;> cases hEnsure
      rw [hHold]
      change id < s.nextRelay + 1 at hId
      by_cases hNew : id = s.nextRelay
      · subst hNew
        refine Or.inr ⟨by simp, ?_, by simp [hold]⟩
        exact Nat.lt_succ_self _
      · left
        refine ⟨by omega, ?_⟩
        simp [hNew]
    · cases hEnsure
      exact Or.inl ⟨hId, rfl⟩

end Manager

end DevTunnel

end Sshdt

------------------------------------------------------------
-- Effects Of A Step
------------------------------------------------------------

namespace Sshdt

namespace DevTunnel

namespace Gate

variable {token : Text}
variable {s t : Manager}
variable {e : Manager.Event}

theorem admitted_of_checked
    {phase : SessionPhase}
    (hChecked : phase.checked = true) :
    phase.admitted = true := by
  cases phase <;>
    simp_all [SessionPhase.checked, SessionPhase.admitted]

/- The steps of a session that leave entries in the log. -/
theorem effects_cases
    {i : Nat}
    {effect : Effect}
    (hEffect : (i, effect) ∈ effects s t e) :
    (∃ binds, e = .ensureRelay i binds ∧
        (effect.acts = true →
          (t.sessions i).phase ≠ .closed)) ∨
      e = .start i ∨ e = .inspect i ∨ e = .dial i ∨
      (∃ id, e = .relayAccept i id) ∨ e = .check i := by
  cases e with
  | ensureRelay j binds =>
      left
      simp only [effects] at hEffect
      split at hEffect
      · simp only [List.mem_singleton,
          Prod.mk.injEq] at hEffect
        rcases hEffect with ⟨rfl, rfl⟩
        exact ⟨binds, rfl, by simp [Effect.acts]⟩
      · rename_i hOpen
        split at hEffect
        · simp only [List.mem_singleton,
            Prod.mk.injEq] at hEffect
          rcases hEffect with ⟨rfl, rfl⟩
          exact ⟨binds, rfl, fun _ => hOpen⟩
        · simp at hEffect
      · simp at hEffect
  | start j =>
      simp only [effects, List.mem_singleton,
        Prod.mk.injEq] at hEffect
      rcases hEffect with ⟨rfl, _⟩
      exact Or.inr (Or.inl rfl)
  | inspect j =>
      simp only [effects] at hEffect
      split at hEffect <;>
        simp only [List.mem_singleton, Prod.mk.injEq,
          List.not_mem_nil] at hEffect
      · rcases hEffect with ⟨rfl, _⟩
        exact Or.inr (Or.inr (Or.inl rfl))
      · rcases hEffect with ⟨rfl, _⟩
        exact Or.inr (Or.inr (Or.inl rfl))
  | dial j =>
      simp only [effects, List.mem_singleton,
        Prod.mk.injEq] at hEffect
      rcases hEffect with ⟨rfl, _⟩
      simp
  | relayAccept j id =>
      simp only [effects, List.mem_singleton,
        Prod.mk.injEq] at hEffect
      rcases hEffect with ⟨rfl, _⟩
      simp
  | check j =>
      simp only [effects] at hEffect
      split at hEffect <;>
        simp only [List.mem_singleton, Prod.mk.injEq,
          List.not_mem_nil] at hEffect
      rcases hEffect with ⟨rfl, _⟩
      simp
  | _ => simp [effects] at hEffect

/- Steps past the checks start in a session past them. -/
theorem checked_of_step
    {i : Nat}
    (hStep : s.step token e = some t)
    (hEvent :
      e = .start i ∨ e = .inspect i ∨ e = .dial i ∨
        (∃ id, e = .relayAccept i id) ∨ e = .check i) :
    (s.sessions i).phase.checked = true := by
  rcases hEvent with rfl | rfl | rfl | ⟨id, rfl⟩ | rfl
  · simp only [Manager.step] at hStep
    split at hStep <;> [skip; cases hStep]
    rename_i hPhase
    simp [hPhase, SessionPhase.checked]
  · simp only [Manager.step] at hStep
    split at hStep <;> [skip; cases hStep]
    rename_i hPhase
    simp [hPhase, SessionPhase.checked]
  · simp only [Manager.step] at hStep
    split at hStep <;> [skip; cases hStep]
    rename_i hPhase _
    simp [hPhase, SessionPhase.checked]
  · simp only [Manager.step] at hStep
    split at hStep <;> [skip; cases hStep]
    rename_i hPhase _
    simp [hPhase, SessionPhase.checked]
  · simp only [Manager.step] at hStep
    split at hStep <;> [skip; cases hStep]
    rename_i hPhase
    simp [hPhase, SessionPhase.checked]

/- A relay is bound, or refused with an answer. -/
theorem admitted_of_ensureRelay
    {i : Nat}
    {binds : Bool}
    (hStep : s.step token (.ensureRelay i binds) = some t) :
    (s.sessions i).phase.admitted = true ∧
      ((t.sessions i).phase ≠ .closed →
        Manager.invalidRequest (s.sessions i).request =
          false) := by
  simp only [Manager.step] at hStep
  split at hStep <;> [skip; cases hStep]
  rename_i hPhase
  refine ⟨by simp [hPhase, SessionPhase.admitted], ?_⟩
  intro hOpen
  split at hStep
  · cases hStep
    simp [Manager.endSession] at hOpen
  · rename_i hValid
    simpa using hValid

/-
  An effect belongs to an admitted session, and an action to
  one whose request is valid.
-/
theorem effects_sound
    {i : Nat}
    {effect : Effect}
    (hStep : s.step token e = some t)
    (hEffect : (i, effect) ∈ effects s t e) :
    (s.sessions i).phase.admitted = true ∧
      (effect.acts = true →
        (s.sessions i).phase.checked = true ∨
          Manager.invalidRequest (s.sessions i).request =
            false) := by
  rcases effects_cases hEffect with
    ⟨binds, rfl, hOpen⟩ | hEvent
  · rcases admitted_of_ensureRelay hStep with
      ⟨hAdmitted, hValid⟩
    exact ⟨hAdmitted, fun hActs =>
      Or.inr (hValid (hOpen hActs))⟩
  · have hChecked := checked_of_step hStep hEvent
    exact ⟨admitted_of_checked hChecked,
      fun _ => Or.inl hChecked⟩

end Gate

namespace Manager

variable {token : Text}
variable {s t : Manager}
variable {e : Event}

/- Requested ports and relays are as they were. -/
structure SamePorts
    (s t : Manager) : Prop where
  requested : t.requested = s.requested
  nextRelay : t.nextRelay = s.nextRelay
  relays :
    ∀ id, (t.relays id).port = (s.relays id).port

theorem ensureRelay_requested
    {i : Nat}
    {port remotePort : UInt16}
    {binds : Bool}
    (hEnsure :
      s.ensureRelay i port remotePort binds = some t) :
    t.requested = s.requested := by
  simp only [Manager.ensureRelay] at hEnsure
  split at hEnsure
  · split at hEnsure <;> cases hEnsure <;> rfl
  · split at hEnsure
    · split at hEnsure <;> cases hEnsure
      rfl
    · cases hEnsure
      rfl

/- The two steps that request a port or bind a relay. -/
theorem step_ports
    (hStep : s.step token e = some t) :
    s.SamePorts t ∨
      (∃ i, e = .start i ∧
        t.requested =
          s.requested ++ [(s.sessions i).request.remotePort] ∧
        t.nextRelay = s.nextRelay ∧ t.relays = s.relays) ∨
      ∃ i binds port,
        e = .ensureRelay i binds ∧
          (s.sessions i).request.localPort = some port ∧
          s.ensureRelay i port
              (s.sessions i).request.remotePort binds =
            some t := by
  cases e with
  | update u =>
      cases hStep
      exact Or.inl ⟨rfl, rfl, fun _ => rfl⟩
  | receive i request granted =>
      simp only [step] at hStep
      split at hStep <;> [skip; cases hStep]
      split at hStep <;> cases hStep
      · exact Or.inl ⟨rfl, rfl, fun _ => rfl⟩
      · exact Or.inl ⟨rfl, rfl, fun _ => rfl⟩
  | ensureRelay i binds =>
      simp only [step] at hStep
      split at hStep <;> [skip; cases hStep]
      split at hStep
      · cases hStep
        exact Or.inl ⟨rfl, rfl, fun _ => rfl⟩
      · split at hStep
        · cases hStep
          exact Or.inl ⟨rfl, rfl, fun _ => rfl⟩
        · rename_i port hPort
          exact Or.inr (Or.inr
            ⟨i, binds, port, rfl, hPort, hStep⟩)
  | start i =>
      simp only [step] at hStep
      split at hStep <;> cases hStep
      exact Or.inr (Or.inl ⟨i, rfl, rfl, rfl, rfl⟩)
  | inspect i =>
      simp only [step] at hStep
      split at hStep <;> [skip; cases hStep]
      split at hStep
      · cases hStep
        exact Or.inl ⟨rfl, rfl, fun _ => rfl⟩
      · split at hStep <;> cases hStep
        · exact Or.inl ⟨rfl, rfl, fun _ => rfl⟩
        · exact Or.inl ⟨rfl, rfl, fun _ => rfl⟩
  | relayAccept i id | banner i | interrupted i =>
      simp only [step] at hStep
      split at hStep <;> [skip; cases hStep]
      split at hStep <;> cases hStep
      exact Or.inl ⟨rfl, rfl, fun _ => rfl⟩
  | relayStops id =>
      simp only [step] at hStep
      split at hStep <;> cases hStep
      refine Or.inl ⟨rfl, rfl, ?_⟩
      intro id'
      by_cases hSame : id' = id
      · subst hSame
        simp
      · simp [hSame]
  | check i =>
      simp only [step] at hStep
      split at hStep <;> [skip; cases hStep]
      split at hStep <;> cases hStep
      · exact Or.inl ⟨rfl, rfl, fun _ => rfl⟩
      · exact Or.inl ⟨rfl, rfl, fun _ => rfl⟩
  | accept i | changed i | dial i | connectFails i | wake i =>
      simp only [step] at hStep
      split at hStep <;> cases hStep
      exact Or.inl ⟨rfl, rfl, fun _ => rfl⟩
  | ends i =>
      cases hStep
      exact Or.inl ⟨rfl, rfl, fun _ => rfl⟩

end Manager

namespace Gate

variable {token : Text}
variable {s t : Manager}
variable {e : Manager.Event}

/- A port is requested by an effect. -/
theorem effects_requested
    {port : UInt16}
    (hStep : s.step token e = some t)
    (hPort : port ∈ t.requested) :
    port ∈ s.requested ∨
      ∃ i, (i, .requestsPort port) ∈ effects s t e := by
  rcases Manager.step_ports hStep with
    hSame | ⟨i, rfl, hRequested, _⟩ |
      ⟨i, binds, _, rfl, _, hEnsure⟩
  · rw [hSame.requested] at hPort
    exact Or.inl hPort
  · rw [hRequested, List.mem_append,
      List.mem_singleton] at hPort
    rcases hPort with hOld | rfl
    · exact Or.inl hOld
    · exact Or.inr ⟨i, by simp [effects]⟩
  · rw [Manager.ensureRelay_requested hEnsure] at hPort
    exact Or.inl hPort

/- A relay is bound by an effect. -/
theorem effects_relays
    {id : Nat}
    (hStep : s.step token e = some t)
    (hId : id < t.nextRelay) :
    (id < s.nextRelay ∧
        (t.relays id).port = (s.relays id).port) ∨
      ∃ i, (i, .bindsRelay (t.relays id).port) ∈
        effects s t e := by
  rcases Manager.step_ports hStep with
    hSame | ⟨i, rfl, _, hNext, hRelays⟩ |
      ⟨i, binds, port, rfl, hLocal, hEnsure⟩
  · rw [hSame.nextRelay] at hId
    exact Or.inl ⟨hId, hSame.relays id⟩
  · rw [hNext] at hId
    exact Or.inl ⟨hId, by rw [hRelays]⟩
  · rcases Manager.ensureRelay_relays hEnsure hId with
      hOld | ⟨hPort, hMore, hOpen⟩
    · exact Or.inl hOld
    · right
      refine ⟨i, ?_⟩
      simp [effects, hLocal, hPort, hMore]

/- A session that dials leaves that in the log. -/
theorem effects_dialing
    {i : Nat}
    (hMoves : s.Moves e t)
    (hDialing : (t.sessions i).phase.dialing = true) :
    (s.sessions i).phase.dialing = true ∨
      (i, .dials) ∈ effects s t e := by
  rcases hMoves.dialing hDialing with
    hOld | ⟨rfl, snapshot, link, hPhase⟩
  · exact Or.inl hOld
  · exact Or.inr (by simp [effects, hPhase])

end Gate

end DevTunnel

end Sshdt

------------------------------------------------------------
-- Admission
------------------------------------------------------------

namespace Sshdt

namespace DevTunnel

/- `same_token` compares the tokens as a whole. -/
theorem sameToken_iff
    {a b : Text} :
    sameToken a b = true ↔ a = b := by
  rw [sameToken, constantTimeEq_iff]
  exact Text.asBytes_injective.eq_iff

namespace Gate

variable {fromSlice : List UInt8 → Option Request}
variable {token : Text}
variable {g g' : Gate}

/-
  A connection has presented a request with the token of the
  broker and has been granted a lease.
-/
structure Admitted
    (fromSlice : List UInt8 → Option Request)
    (token : Text)
    (g : Gate)
    (i : Nat)
    (request : Request) : Prop where
  presented : g.Presented fromSlice i request
  token_eq : request.token = token
  lease : (i, .takesLease) ∈ g.log

/- Later bytes and later effects take nothing back. -/
structure Extends
    (g g' : Gate) : Prop where
  sent : ∀ i, g.sent i <+: g'.sent i
  log : g.log ⊆ g'.log

theorem Presented.mono
    {i : Nat}
    {request : Request}
    (hPresented : g.Presented fromSlice i request)
    (hSent : g.sent i <+: g'.sent i) :
    g'.Presented fromSlice i request := by
  rcases hPresented with ⟨body, rest, hBytes, hRest⟩
  rcases hSent with ⟨more, hMore⟩
  refine ⟨body, rest ++ more, ?_, hRest⟩
  rw [← hMore, hBytes, List.append_assoc]

theorem Admitted.mono
    {i : Nat}
    {request : Request}
    (hAdmitted : Admitted fromSlice token g i request)
    (hExtends : g.Extends g') :
    Admitted fromSlice token g' i request where
  presented := hAdmitted.presented.mono (hExtends.sent i)
  token_eq := hAdmitted.token_eq
  lease := hExtends.log hAdmitted.lease

/-
  Sessions past the head of `serve`, and everything in the
  log, belong to admitted connections; and the log has every
  requested port, every relay, every dialing session and
  every lease.
-/
structure Inv
    (fromSlice : List UInt8 → Option Request)
    (token : Text)
    (g : Gate) : Prop where
  sessions :
    ∀ i, (g.manager.sessions i).phase.admitted = true →
      Admitted fromSlice token g i
          (g.manager.sessions i).request ∧
        ((g.manager.sessions i).phase.checked = true →
          Manager.invalidRequest
              (g.manager.sessions i).request =
            false)
  entries :
    ∀ i effect, (i, effect) ∈ g.log →
      ∃ request,
        Admitted fromSlice token g i request ∧
          (effect.acts = true →
            Manager.invalidRequest request = false)
  requested :
    ∀ port ∈ g.manager.requested,
      ∃ i, (i, .requestsPort port) ∈ g.log
  relays :
    ∀ id < g.manager.nextRelay,
      ∃ i, (i, .bindsRelay (g.manager.relays id).port) ∈
        g.log
  dialing :
    ∀ i, (g.manager.sessions i).phase.dialing = true →
      (i, .dials) ∈ g.log
  leases : g.leases.count ≤ g.leasesTaken

theorem initial_inv
    (start : Instant) :
    Inv fromSlice token (initial start) := by
  constructor
  · intro i hAdmitted
    cases hAdmitted
  · intro i effect hEntry
    cases hEntry
  · intro port hPort
    cases hPort
  · intro id hId
    cases hId
  · intro i hDialing
    cases hDialing
  · exact Nat.le_refl _

theorem leasesTaken_append
    {new : List (Nat × Effect)}
    (hLog : g'.log = g.log ++ new) :
    g'.leasesTaken =
      g.leasesTaken +
        new.countP fun entry => entry.2 = .takesLease := by
  rw [leasesTaken, hLog, List.countP_append, leasesTaken]

/-
  A change of the manager that moves its sessions, with the
  effects it is logged with.
-/
theorem Inv.extend
    {e : Manager.Event}
    {new : List (Nat × Effect)}
    (hInv : Inv fromSlice token g)
    (hExtends : g.Extends g')
    (hLog : g'.log = g.log ++ new)
    (hLeases : g'.leases = g.leases)
    (hMoves : g.manager.Moves e g'.manager)
    (hSound :
      ∀ i effect, (i, effect) ∈ new →
        (g.manager.sessions i).phase.admitted = true ∧
          (effect.acts = true →
            (g.manager.sessions i).phase.checked = true ∨
              Manager.invalidRequest
                  (g.manager.sessions i).request =
                false))
    (hRequested :
      ∀ port ∈ g'.manager.requested,
        port ∈ g.manager.requested ∨
          ∃ i, (i, .requestsPort port) ∈ new)
    (hRelays :
      ∀ id < g'.manager.nextRelay,
        (id < g.manager.nextRelay ∧
          (g'.manager.relays id).port =
            (g.manager.relays id).port) ∨
          ∃ i, (i,
            .bindsRelay (g'.manager.relays id).port) ∈ new)
    (hDialing :
      ∀ i, (g'.manager.sessions i).phase.dialing = true →
        (g.manager.sessions i).phase.dialing = true ∨
          (i, .dials) ∈ new) :
    Inv fromSlice token g' := by
  have hNew : new ⊆ g'.log := by
    rw [hLog]
    exact List.subset_append_right _ _
  constructor
  · intro i hAdmitted
    rcases hMoves.admitted hAdmitted with
      ⟨hRequest, hBefore, hChecked⟩
    rcases hInv.sessions i hBefore with ⟨hOld, hValid⟩
    rw [hRequest]
    refine ⟨hOld.mono hExtends, ?_⟩
    intro hNow
    rcases hChecked hNow with hPassed | hPasses
    · exact hValid hPassed
    · exact hPasses
  · intro i effect hEntry
    rw [hLog, List.mem_append] at hEntry
    rcases hEntry with hOld | hEntry
    · rcases hInv.entries i effect hOld with
        ⟨request, hAdmitted, hValid⟩
      exact ⟨request, hAdmitted.mono hExtends, hValid⟩
    · rcases hSound i effect hEntry with
        ⟨hBefore, hActs⟩
      rcases hInv.sessions i hBefore with ⟨hOld, hValid⟩
      refine ⟨_, hOld.mono hExtends, ?_⟩
      intro hEffect
      rcases hActs hEffect with hPassed | hPasses
      · exact hValid hPassed
      · exact hPasses
  · intro port hPort
    rcases hRequested port hPort with hOld | ⟨i, hEntry⟩
    · rcases hInv.requested port hOld with ⟨i, hEntry⟩
      exact ⟨i, hExtends.log hEntry⟩
    · exact ⟨i, hNew hEntry⟩
  · intro id hId
    rcases hRelays id hId with ⟨hOld, hPort⟩ | ⟨i, hEntry⟩
    · rcases hInv.relays id hOld with ⟨i, hEntry⟩
      rw [hPort]
      exact ⟨i, hExtends.log hEntry⟩
    · exact ⟨i, hNew hEntry⟩
  · intro i hPhase
    rcases hDialing i hPhase with hOld | hEntry
    · exact hExtends.log (hInv.dialing i hOld)
    · exact hNew hEntry
  · rw [hLeases, leasesTaken_append hLog]
    exact hInv.leases.trans (Nat.le_add_right _ _)

/- Steps that leave the manager and the log alone. -/
theorem Inv.frame
    (hInv : Inv fromSlice token g)
    (hManager : g'.manager = g.manager)
    (hLog : g'.log = g.log)
    (hLeases : g'.leases.count ≤ g.leases.count)
    (hSent : ∀ i, g.sent i <+: g'.sent i) :
    Inv fromSlice token g' := by
  have hExtends : g.Extends g' := by
    refine ⟨hSent, ?_⟩
    rw [hLog]
    exact List.Subset.refl _
  constructor
  · rw [hManager]
    intro i hAdmitted
    rcases hInv.sessions i hAdmitted with ⟨hOld, hValid⟩
    exact ⟨hOld.mono hExtends, hValid⟩
  · rw [hLog]
    intro i effect hEntry
    rcases hInv.entries i effect hEntry with
      ⟨request, hOld, hValid⟩
    exact ⟨request, hOld.mono hExtends, hValid⟩
  · rw [hManager, hLog]
    exact hInv.requested
  · rw [hManager, hLog]
    exact hInv.relays
  · rw [hManager, hLog]
    exact hInv.dialing
  · rw [leasesTaken, hLog]
    exact hLeases.trans hInv.leases

/- The end of a session, with or without an answer. -/
theorem Inv.endSession
    {i : Nat}
    {new : List (Nat × Effect)}
    (hInv : Inv fromSlice token g)
    (hNew :
      ∀ j effect, (j, effect) ∈ new →
        (g.manager.sessions j).phase.admitted = true ∧
          effect.acts = false) :
    Inv fromSlice token
      { g with
        manager := g.manager.endSession i
        log := g.log ++ new } := by
  have hMoves :
      g.manager.Moves (.ends i) (g.manager.endSession i) :=
    Manager.Moves.endSession g.manager i
  have hExtends :=
    List.subset_append_left g.log new
  refine hInv.extend
    ⟨fun j => List.prefix_rfl, hExtends⟩ rfl rfl hMoves
    ?_ ?_ ?_ ?_
  · intro j effect hEntry
    rcases hNew j effect hEntry with ⟨hAdmitted, hActs⟩
    refine ⟨hAdmitted, ?_⟩
    intro hEffect
    rw [hActs] at hEffect
    cases hEffect
  · intro port hPort
    exact Or.inl hPort
  · intro id hId
    exact Or.inl ⟨hId, rfl⟩
  · intro j hDialing
    rcases hMoves.dialing hDialing with hOld | ⟨hEvent, _⟩
    · exact Or.inl hOld
    · cases hEvent

/- A frame with the right token, and a lease. -/
theorem Inv.admit
    {i : Nat}
    {request : Request}
    {manager : Manager}
    {leases : LeaseState}
    (hInv : Inv fromSlice token g)
    (hPresented : g.Presented fromSlice i request)
    (hToken : request.token = token)
    (hLease : Lease.acquire g.leases = some leases)
    (hStep :
      g.manager.step token (.receive i request true) =
        some manager) :
    Inv fromSlice token
      { g with
        manager
        leases
        log := g.log ++ [(i, .takesLease)] } := by
  have hExtends :
      g.Extends { g with
        manager
        leases
        log := g.log ++ [(i, .takesLease)] } :=
    ⟨fun j => List.prefix_rfl, List.subset_append_left _ _⟩
  have hAdmitted :
      Admitted fromSlice token
        { g with
          manager
          leases
          log := g.log ++ [(i, .takesLease)] } i request :=
    ⟨hPresented, hToken, by simp⟩
  have hManager :
      manager =
        { g.manager with
          sessions := Function.update g.manager.sessions i
            { phase := .leased, request, relay := none } } := by
    simp only [Manager.step, sameToken_iff.mpr hToken,
      Bool.and_true, if_true] at hStep
    split at hStep <;> cases hStep
    rfl
  subst hManager
  constructor
  · intro j hPhase
    by_cases hSame : j = i
    · subst hSame
      simp only [Function.update_self] at hPhase ⊢
      exact ⟨hAdmitted, fun hChecked => by cases hChecked⟩
    · simp only [Function.update_of_ne hSame] at hPhase ⊢
      rcases hInv.sessions j hPhase with ⟨hOld, hValid⟩
      exact ⟨hOld.mono hExtends, hValid⟩
  · intro j effect hEntry
    rw [List.mem_append, List.mem_singleton] at hEntry
    rcases hEntry with hOld | hNew
    · rcases hInv.entries j effect hOld with
        ⟨request', hBefore, hValid⟩
      exact ⟨request', hBefore.mono hExtends, hValid⟩
    · cases hNew
      exact ⟨request, hAdmitted, fun hActs => by cases hActs⟩
  · intro port hPort
    rcases hInv.requested port hPort with ⟨j, hEntry⟩
    exact ⟨j, hExtends.log hEntry⟩
  · intro id hId
    rcases hInv.relays id hId with ⟨j, hEntry⟩
    exact ⟨j, hExtends.log hEntry⟩
  · intro j hDialing
    by_cases hSame : j = i
    · subst hSame
      simp only [Function.update_self] at hDialing
      cases hDialing
    · simp only [Function.update_of_ne hSame] at hDialing
      exact hExtends.log (hInv.dialing j hDialing)
  · rw [leasesTaken_append rfl, Lease.acquire_count hLease]
    exact Nat.succ_le_succ hInv.leases

theorem receive_inv
    {i : Nat}
    (hInv : Inv fromSlice token g)
    (hReceive : g.receive fromSlice token i = some g') :
    Inv fromSlice token g' := by
  have hEnds :
      Inv fromSlice token
        { g with manager := g.manager.endSession i } := by
    have hEnd :
        Inv fromSlice token
          { g with
            manager := g.manager.endSession i
            log := g.log ++ [] } :=
      hInv.endSession (by simp)
    rwa [List.append_nil] at hEnd
  unfold receive at hReceive
  split at hReceive <;> [skip; cases hReceive]
  split at hReceive
  · cases hReceive
  · cases hReceive
    exact hEnds
  · cases hReceive
    exact hEnds
  · rename_i request rest hFrame
    have hPresented : g.Presented fromSlice i request := by
      rcases (Frame.receive_message_iff
        (by simp [ipcLimit])).mp hFrame with
        ⟨body, hBytes, hLength, hDecode⟩
      exact ⟨body, rest, hBytes, hLength, hDecode⟩
    split at hReceive
    · rename_i hToken
      split at hReceive
      · rename_i leases hLease
        rcases Option.map_eq_some_iff.mp hReceive with
          ⟨manager, hStep, rfl⟩
        exact hInv.admit hPresented
          (sameToken_iff.mp hToken) hLease hStep
      · cases hReceive
        exact hEnds
    · cases hReceive
      exact hEnds

theorem serve_inv
    {e : Manager.Event}
    (hInv : Inv fromSlice token g)
    (hRequest : ∀ i request granted,
      e ≠ .receive i request granted)
    (hServe : g.serve token e = some g') :
    Inv fromSlice token g' := by
  rcases Option.map_eq_some_iff.mp hServe with
    ⟨manager, hStep, rfl⟩
  have hMoves := Manager.step_session hStep hRequest
  have hExtends :=
    List.subset_append_left g.log (effects g.manager manager e)
  refine hInv.extend
    ⟨fun j => List.prefix_rfl, hExtends⟩ rfl rfl hMoves
    ?_ ?_ ?_ ?_
  · intro i effect hEntry
    exact effects_sound hStep hEntry
  · intro port hPort
    exact effects_requested hStep hPort
  · intro id hId
    exact effects_relays hStep hId
  · intro i hDialing
    exact effects_dialing hMoves hDialing

theorem fail_inv
    {i : Nat}
    (hInv : Inv fromSlice token g)
    (hFail : g.fail i = some g') :
    Inv fromSlice token g' := by
  have hEnd :
      (g.manager.sessions i).phase.admitted = true →
        Inv fromSlice token
          { g with
            manager := g.manager.endSession i
            log := g.log ++ [(i, .replies true)] } := by
    intro hAdmitted
    apply hInv.endSession
    intro j effect hEntry
    cases List.mem_singleton.mp hEntry
    exact ⟨hAdmitted, rfl⟩
  unfold fail at hFail
  split at hFail
  · rename_i hPhase
    cases hFail
    exact hEnd (by simp [hPhase, SessionPhase.admitted])
  · rename_i hPhase
    cases hFail
    exact hEnd (by simp [hPhase, SessionPhase.admitted])
  · cases hFail

theorem step_inv
    {e : Event}
    (hInv : Inv fromSlice token g)
    (hStep : g.step fromSlice token e = some g') :
    Inv fromSlice token g' := by
  cases e with
  | sends i bytes =>
      cases hStep
      refine hInv.frame rfl rfl le_rfl ?_
      intro j
      by_cases hSame : j = i
      · subst hSame
        simp
      · simp [hSame]
  | receives i => exact receive_inv hInv hStep
  | serves e =>
      cases e with
      | receive i request granted => cases hStep
      | _ =>
          refine serve_inv hInv ?_ hStep
          intro i request granted hEvent
          cases hEvent
  | fails i => exact fail_inv hInv hStep
  | releases =>
      rcases Option.map_eq_some_iff.mp hStep with
        ⟨leases, hDrop, rfl⟩
      exact hInv.frame rfl rfl (Lease.drop_count hDrop)
        fun i => List.prefix_rfl
  | tick =>
      cases hStep
      exact hInv.frame rfl rfl
        (Nat.le_of_eq (beginIdleShutdown_count _ _))
        fun i => List.prefix_rfl
  | advance span =>
      cases hStep
      exact hInv.frame rfl rfl le_rfl
        fun i => List.prefix_rfl

theorem reachable_inv
    {start : Instant}
    (hReach : (machine fromSlice token start).Reachable g) :
    Inv fromSlice token g := by
  apply hReach.invariant
  · exact initial_inv start
  · intro g e g' hInv _ hStep
    exact step_inv hInv hStep

/- The first frame of a connection is one request. -/
theorem Presented.unique
    {i : Nat}
    {request request' : Request}
    (hPresented : g.Presented fromSlice i request)
    (hPresented' : g.Presented fromSlice i request') :
    request = request' := by
  rcases hPresented with ⟨body, rest, hFrame⟩
  rcases hPresented' with ⟨body', rest', hFrame'⟩
  have hLimit : ipcLimit < 4294967296 := by
    simp [ipcLimit]
  have hFirst :=
    (Frame.receive_message_iff hLimit).mpr ⟨body, hFrame⟩
  have hSecond :=
    (Frame.receive_message_iff hLimit).mpr ⟨body', hFrame'⟩
  rw [hFirst] at hSecond
  cases hSecond
  rfl

theorem invalidRequest_eq_false
    {request : Request} :
    Manager.invalidRequest request = false ↔
      request.version = ipcVersion ∧
        request.remotePort ≠ 0 ∧
        request.localPort ≠ some 0 := by
  simp [Manager.invalidRequest, and_assoc]

/-
  Nothing happens for an unauthorized client. Every port
  that is requested, every relay that is bound and every
  destination that is dialed is in the log under a
  connection; whatever the log has under a connection, the
  connection has sent one well-formed frame with the token
  of the broker and has a lease; for a port, a relay or a
  destination the request is valid as well; and a connection
  whose frame has another token is not in the log, not even
  with a lease or an answer. Nobody else is served, and the
  count of the leases is not above those that the log has.
-/
theorem nothing_for_unauthorized
    (fromSlice : List UInt8 → Option Request)
    (token : Text)
    (start : Instant)
    {g : Gate}
    (hReach : (machine fromSlice token start).Reachable g) :
    (∀ port ∈ g.manager.requested,
        ∃ i, (i, .requestsPort port) ∈ g.log) ∧
      (∀ id < g.manager.nextRelay,
        ∃ i, (i, .bindsRelay (g.manager.relays id).port) ∈
          g.log) ∧
      (∀ i, (g.manager.sessions i).phase.dialing = true →
        (i, .dials) ∈ g.log) ∧
      (∀ i effect, (i, effect) ∈ g.log →
        ∃ body rest request,
          g.sent i = Frame.encode body ++ rest ∧
            body.length ≤ 4096 ∧
            fromSlice body = some request ∧
            request.token = token ∧
            (i, .takesLease) ∈ g.log ∧
            (effect.acts = true →
              request.version = ipcVersion ∧
                request.remotePort ≠ 0 ∧
                request.localPort ≠ some 0)) ∧
      (∀ i body rest request,
        g.sent i = Frame.encode body ++ rest →
          body.length ≤ 4096 →
          fromSlice body = some request →
          request.token ≠ token →
          ∀ effect, (i, effect) ∉ g.log) ∧
      (∀ i, (g.manager.sessions i).phase.admitted = true →
        (i, .takesLease) ∈ g.log) ∧
      g.leases.count ≤ g.leasesTaken := by
  have hInv := reachable_inv hReach
  refine ⟨hInv.requested, hInv.relays, hInv.dialing, ?_, ?_,
    fun i hAdmitted => (hInv.sessions i hAdmitted).1.lease,
    hInv.leases⟩
  · intro i effect hEntry
    rcases hInv.entries i effect hEntry with
      ⟨request, hAdmitted, hValid⟩
    rcases hAdmitted.presented with
      ⟨body, rest, hBytes, hLength, hDecode⟩
    refine ⟨body, rest, request, hBytes, hLength, hDecode,
      hAdmitted.token_eq, hAdmitted.lease, ?_⟩
    intro hActs
    exact invalidRequest_eq_false.mp (hValid hActs)
  · intro i body rest request hBytes hLength hDecode hToken
      effect hEntry
    rcases hInv.entries i effect hEntry with
      ⟨request', hAdmitted, _⟩
    have hSame := hAdmitted.presented.unique
      ⟨body, rest, hBytes, hLength, hDecode⟩
    subst hSame
    exact hToken hAdmitted.token_eq

/- A request for port 2222 with the token `k`. -/
def sampleRequest : Request where
  version := 1
  token := ['k']
  remotePort := 2222
  localPort := none

/- Its JSON text. -/
def sampleBody : List UInt8 :=
  Text.asBytes
    ("\x7b\"version\":1,\"token\":\"k\"," ++
      "\"remote_port\":2222,\"local_port\":null\x7d").toList

/- A reader of that text. -/
def sampleReader
    (bytes : List UInt8) : Option Request :=
  if bytes = sampleBody then some sampleRequest else none

/- A client that presents the request. -/
def sampleRun : List Event :=
  [.serves (.accept 0), .sends 0 (Frame.encode sampleBody),
    .receives 0, .serves (.ensureRelay 0 false),
    .serves (.start 0)]

theorem sampleRun_executes :
    ((machine sampleReader ['k'] 0).exec
      (machine sampleReader ['k'] 0).init
      sampleRun).isSome = true := by
  decide +kernel

/- The port is requested on behalf of an admitted client. -/
theorem sampleRun_authorized :
    (0, .requestsPort 2222) ∈
        ((machine sampleReader ['k'] 0).final sampleRun
          sampleRun_executes).log ∧
      ∀ effect,
        (0, effect) ∈
            ((machine sampleReader ['k'] 0).final sampleRun
              sampleRun_executes).log →
          ∃ body rest request,
            ((machine sampleReader ['k'] 0).final sampleRun
                sampleRun_executes).sent 0 =
                Frame.encode body ++ rest ∧
              body.length ≤ 4096 ∧
              sampleReader body = some request ∧
              request.token = ['k'] ∧
              (0, .takesLease) ∈
                ((machine sampleReader ['k'] 0).final
                  sampleRun sampleRun_executes).log ∧
              (effect.acts = true →
                request.version = ipcVersion ∧
                  request.remotePort ≠ 0 ∧
                  request.localPort ≠ some 0) :=
  ⟨by decide +kernel,
    (nothing_for_unauthorized sampleReader ['k'] 0
      (Machine.reachable_final sampleRun
        sampleRun_executes)).2.2.2.1 0⟩

end Gate

end DevTunnel

end Sshdt
