import Sshdt.Server.Handler

/-
  The accept loop and the life of its connections
  (`Server::serve` and `handle_connection` in
  `src/server.rs`), over any number of connections and any
  interleaving of their tasks.

  The semaphore is its number of available permits. A
  connection records, next to what its task owns, when it
  took its permit and how often it gave it back. What the
  SSH library does with a session whose future is dropped
  is a parameter.

  Key definitions include:
    * `Russh`
    * `Phase`
    * `Connection`
    * `Connection.next`
    * `AcceptLoop`
    * `AcceptLoop.step`
    * `AcceptLoop.machine`
    * `AcceptLoop.GraceCovers`
    * `AcceptLoop.HandshakesPrompt`

  Key theorems include:
    * `AcceptLoop.step_inv`
    * `AcceptLoop.startup_cap_accounting`
    * `AcceptLoop.login_grace_covers`
-/

------------------------------------------------------------
-- Connections
------------------------------------------------------------

namespace Sshdt

/-
  Where the task of a connection stands: waiting for a
  permit, inside `run_stream`, inside the session under the
  login-grace timeout, or inside the session without a
  limit. A `detached` session lives on in the library after
  the task has returned, and a `closed` one is gone with its
  handler.
-/
inductive Phase where
  | waiting
  | handshake
  | session (deadline : Instant)
  | unlimited
  | detached
  | closed
  deriving DecidableEq, Repr

/- The task has taken a permit. -/
def Phase.started : Phase → Bool
  | .waiting => false
  | _ => true

/- The connection is inside `run_stream` or a session. -/
def Phase.running : Phase → Bool
  | .handshake | .session _ | .unlimited | .detached => true
  | .waiting | .closed => false

/-
  One accepted connection. Until a permit is taken the
  handler stands for the one that is still to be built.
-/
structure Connection
    (PublicKey : Type) where
  phase : Phase
  handler : ConnectionHandler PublicKey
  acquiredAt : Option Instant
  returned : Nat

/- What can happen to the task of one connection. -/
inductive TaskEvent
    (PublicKey : Type) where
  | handshakeFails
  | handshakeDone
  | attempt (a : Attempt PublicKey)
  | sessionEnds
  | graceExpires
  deriving DecidableEq, Repr

variable {PublicKey KeyData PrivateKey : Type}

/-
  The `russh` library: whether a session whose future is
  dropped lives on with its handler.
-/
structure Russh
    (PublicKey : Type) where
  livesOn : ConnectionHandler PublicKey → Bool

/-
  Dropping the session future closes the connection and
  drops its handler.
-/
def Russh.ClosesOnDrop
    (russh : Russh PublicKey) : Prop :=
  ∀ handler, russh.livesOn handler = false

/- Dropping a handler drops the permit it still holds. -/
def ConnectionHandler.dropped
    (handler : ConnectionHandler PublicKey) :
    ConnectionHandler PublicKey :=
  { handler with startupPermit := false }

/- The permits that a change of the handler gives back. -/
def ConnectionHandler.released
    (before after : ConnectionHandler PublicKey) : Nat :=
  before.startupPermit.toNat - after.startupPermit.toNat

namespace Connection

/- A connection whose task has just been spawned. -/
def accepted
    (inner : ServerInner PublicKey) : Connection PublicKey where
  phase := .waiting
  handler := ConnectionHandler.new inner false
  acquiredAt := none
  returned := 0

/- The task has its permit and enters `run_stream`. -/
def acquired
    (inner : ServerInner PublicKey)
    (now : Instant)
    (c : Connection PublicKey) : Connection PublicKey :=
  { c with
    phase := .handshake
    handler := ConnectionHandler.new inner true
    acquiredAt := some now }

variable [DecidableEq KeyData]

/-
  `handle_connection` from `run_stream` on: the phase and
  the handler after an event, or `none` where it cannot
  occur.
-/
def next
    (lib : KeyLibrary PublicKey KeyData)
    (russh : Russh PublicKey)
    (grace : Duration)
    (now : Instant)
    (c : Connection PublicKey) :
    TaskEvent PublicKey →
      Option (Phase × ConnectionHandler PublicKey)
  | .handshakeFails =>
      match c.phase with
      | .handshake => some (.closed, c.handler.dropped)
      | _ => none
  | .handshakeDone =>
      -- The timer starts here, after `run_stream`.
      match c.phase with
      | .handshake => some (.session (now + grace), c.handler)
      | _ => none
  | .attempt a =>
      match c.phase with
      | .session _ | .unlimited | .detached =>
          some (c.phase, (c.handler.attempt lib a).2)
      | _ => none
  | .sessionEnds =>
      match c.phase with
      | .session _ | .unlimited | .detached =>
          some (.closed, c.handler.dropped)
      | _ => none
  | .graceExpires =>
      match c.phase with
      | .session deadline =>
          if deadline ≤ now then
            if c.handler.authed then
              some (.unlimited, c.handler)
            else if russh.livesOn c.handler then
              some (.detached, c.handler)
            else
              some (.closed, c.handler.dropped)
          else
            none
      | _ => none

/- The connection with its new phase and handler. -/
def moveTo
    (c : Connection PublicKey)
    (phase : Phase)
    (handler : ConnectionHandler PublicKey) :
    Connection PublicKey :=
  { c with
    phase
    handler
    returned := c.returned + c.handler.released handler }

end Connection

end Sshdt

------------------------------------------------------------
-- Accept Loop
------------------------------------------------------------

namespace Sshdt

variable {PublicKey KeyData PrivateKey : Type}

/- The accept loop, its semaphore, its tasks and the clock. -/
structure AcceptLoop
    (PublicKey : Type) where
  listening : Bool
  available : Nat
  conns : List (Connection PublicKey)
  now : Instant

namespace AcceptLoop

inductive Event
    (PublicKey : Type) where
  | accept
  | shutdown
  | acquire (i : Nat)
  | task (i : Nat) (e : TaskEvent PublicKey)
  | advance (span : Duration)
  deriving DecidableEq, Repr

/- The number of permits that the semaphore starts with. -/
def capacity
    (server : Server PublicKey PrivateKey) : Nat :=
  max server.maxStartups.toNat 1

/- `Server::serve` with the listener bound. -/
def initial
    (server : Server PublicKey PrivateKey)
    (start : Instant) : AcceptLoop PublicKey where
  listening := true
  available := capacity server
  conns := []
  now := start

variable [DecidableEq KeyData]

/- The clock may not pass a timer that has not fired. -/
def timersAllow
    (s : AcceptLoop PublicKey)
    (until' : Instant) : Bool :=
  s.conns.all fun c =>
    match c.phase with
    | .session deadline => until' ≤ deadline
    | _ => true

def step
    (lib : KeyLibrary PublicKey KeyData)
    (russh : Russh PublicKey)
    (server : Server PublicKey PrivateKey)
    (s : AcceptLoop PublicKey) :
    Event PublicKey → Option (AcceptLoop PublicKey)
  | .accept =>
      if s.listening then
        some { s with
          conns := s.conns ++ [.accepted server.inner] }
      else
        none
  | .shutdown =>
      if s.listening then
        some { s with listening := false }
      else
        none
  | .acquire i =>
      match s.conns[i]? with
      | some c =>
          if c.phase = .waiting ∧ 0 < s.available then
            some { s with
              available := s.available - 1
              conns :=
                s.conns.set i (c.acquired server.inner s.now) }
          else
            none
      | none => none
  | .task i e =>
      match s.conns[i]? with
      | some c =>
          match c.next lib russh server.loginGrace s.now e with
          | some (phase, handler) =>
              some { s with
                available :=
                  s.available + c.handler.released handler
                conns := s.conns.set i (c.moveTo phase handler) }
          | none => none
      | none => none
  | .advance span =>
      if s.timersAllow (s.now + span) then
        some { s with now := s.now + span }
      else
        none

/- The accept loop of a server, from the given time on. -/
def machine
    (lib : KeyLibrary PublicKey KeyData)
    (russh : Russh PublicKey)
    (server : Server PublicKey PrivateKey)
    (start : Instant) :
    Machine (AcceptLoop PublicKey) (Event PublicKey) where
  init := initial server start
  step := step lib russh server

end AcceptLoop

end Sshdt

------------------------------------------------------------
-- Permits Of One Connection
------------------------------------------------------------

namespace Sshdt

variable {PublicKey KeyData PrivateKey : Type}

theorem Phase.started_of_running
    {phase : Phase}
    (hRunning : phase.running = true) :
    phase.started = true := by
  cases phase <;> simp_all [Phase.running, Phase.started]

namespace Connection

/-
  What holds of a connection throughout its life: it holds
  a permit from the acquisition until it is authenticated or
  closed, and it has returned the permit once after that.
-/
structure Inv
    (c : Connection PublicKey) : Prop where
  acquired : c.acquiredAt.isSome = c.phase.started
  held :
    c.handler.startupPermit =
      (c.phase.running && !c.handler.authed)
  returned :
    c.returned + c.handler.startupPermit.toNat =
      c.acquiredAt.isSome.toNat
  unlimited :
    c.phase = .unlimited → c.handler.authed = true

theorem accepted_inv
    (inner : ServerInner PublicKey) :
    (accepted inner).Inv := by
  constructor <;>
    simp [accepted, ConnectionHandler.new, Phase.started,
      Phase.running]

theorem acquired_inv
    {c : Connection PublicKey}
    (hInv : c.Inv)
    (hWaiting : c.phase = .waiting)
    (inner : ServerInner PublicKey)
    (now : Instant) :
    (c.acquired inner now).Inv := by
  have hReturned := hInv.returned
  rw [hInv.held, hInv.acquired, hWaiting] at hReturned
  constructor <;>
    simp_all [acquired, ConnectionHandler.new,
      Phase.started, Phase.running]

variable [DecidableEq KeyData]

/-
  What an event of the task does: it drops the handler, it
  keeps the handler in a later phase of a live connection,
  or it answers an attempt.
-/
theorem next_cases
    {lib : KeyLibrary PublicKey KeyData}
    {russh : Russh PublicKey}
    {grace : Duration}
    {now : Instant}
    {c : Connection PublicKey}
    {e : TaskEvent PublicKey}
    {phase : Phase}
    {handler : ConnectionHandler PublicKey}
    (hNext :
      c.next lib russh grace now e = some (phase, handler)) :
    c.phase.running = true ∧
      ((phase = .closed ∧ handler = c.handler.dropped) ∨
        (c.phase = .handshake ∧
          phase = .session (now + grace) ∧
          handler = c.handler) ∨
        (phase = .unlimited ∧ c.handler.authed = true ∧
          handler = c.handler) ∨
        (phase = .detached ∧
          russh.livesOn c.handler = true ∧
          handler = c.handler) ∨
        ∃ a, e = .attempt a ∧ phase = c.phase ∧
          handler =
            if c.handler.authenticates lib a then
              c.handler.markAuthenticated
            else
              c.handler) := by
  cases e with
  | handshakeFails =>
      simp only [next] at hNext
      split at hNext <;>
        simp only [Option.some.injEq, Prod.mk.injEq,
          reduceCtorEq] at hNext
      rcases hNext with ⟨rfl, rfl⟩
      simp_all [Phase.running]
  | handshakeDone =>
      simp only [next] at hNext
      split at hNext <;>
        simp only [Option.some.injEq, Prod.mk.injEq,
          reduceCtorEq] at hNext
      rcases hNext with ⟨rfl, rfl⟩
      simp_all [Phase.running]
  | attempt a =>
      simp only [next] at hNext
      have hHandler := c.handler.attempt_handler lib a
      split at hNext <;>
        simp only [Option.some.injEq, Prod.mk.injEq,
          reduceCtorEq] at hNext
      all_goals
        rcases hNext with ⟨rfl, rfl⟩
        simp_all [Phase.running]
  | sessionEnds =>
      simp only [next] at hNext
      split at hNext <;>
        simp only [Option.some.injEq, Prod.mk.injEq,
          reduceCtorEq] at hNext
      all_goals
        rcases hNext with ⟨rfl, rfl⟩
        simp_all [Phase.running]
  | graceExpires =>
      simp only [next] at hNext
      split at hNext <;> [skip; cases hNext]
      split at hNext <;> [skip; cases hNext]
      split at hNext
      · cases hNext
        simp_all [Phase.running]
      · split at hNext <;> cases hNext
        all_goals simp_all [Phase.running]

theorem moveTo_inv
    {lib : KeyLibrary PublicKey KeyData}
    {russh : Russh PublicKey}
    {grace : Duration}
    {now : Instant}
    {c : Connection PublicKey}
    {e : TaskEvent PublicKey}
    {phase : Phase}
    {handler : ConnectionHandler PublicKey}
    (hInv : c.Inv)
    (hNext :
      c.next lib russh grace now e = some (phase, handler)) :
    (c.moveTo phase handler).Inv := by
  rcases next_cases hNext with ⟨hRunning, hCases⟩
  have hStarted := Phase.started_of_running hRunning
  have hAcquired := hInv.acquired
  have hHeld := hInv.held
  have hReturned := hInv.returned
  have hUnlimited := hInv.unlimited
  rw [hStarted] at hAcquired
  rw [hRunning, Bool.true_and] at hHeld
  rw [hAcquired, hHeld] at hReturned
  rcases hCases with ⟨rfl, rfl⟩ | ⟨hPhase, rfl, rfl⟩ |
    ⟨rfl, hAuthed, rfl⟩ | ⟨rfl, hLives, rfl⟩ |
    ⟨a, rfl, rfl, rfl⟩
  case inr.inr.inr.inr =>
    cases hFlag : c.handler.authed <;>
    cases hOk : c.handler.authenticates lib a <;>
    constructor <;>
      simp_all [moveTo, ConnectionHandler.released,
        ConnectionHandler.markAuthenticated]
  all_goals
    cases hFlag : c.handler.authed <;>
    constructor <;>
      simp_all [moveTo, ConnectionHandler.released,
        ConnectionHandler.dropped, Phase.started,
        Phase.running]

end Connection

end Sshdt

------------------------------------------------------------
-- Permits Of All Connections
------------------------------------------------------------

namespace Sshdt

variable {PublicKey KeyData PrivateKey : Type}

namespace Connection

/- The connection holds its startup permit. -/
def holds
    (c : Connection PublicKey) : Bool :=
  c.handler.startupPermit

end Connection

namespace AcceptLoop

/- Permits are neither lost nor made. -/
structure Inv
    (server : Server PublicKey PrivateKey)
    (s : AcceptLoop PublicKey) : Prop where
  conns : ∀ c ∈ s.conns, c.Inv
  permits :
    s.conns.countP Connection.holds + s.available =
      capacity server

theorem initial_inv
    (server : Server PublicKey PrivateKey)
    (start : Instant) :
    (initial server start).Inv server := by
  constructor <;> simp [initial]

/-
  Replacing one connection keeps the invariant when the
  permits that it gives up are made available.
-/
theorem Inv.set
    {server : Server PublicKey PrivateKey}
    {s t : AcceptLoop PublicKey}
    {i : Nat}
    {c c' : Connection PublicKey}
    (hInv : s.Inv server)
    (hConn : s.conns[i]? = some c)
    (hConns : t.conns = s.conns.set i c')
    (hNew : c'.Inv)
    (hPermits :
      t.available + c'.holds.toNat =
        s.available + c.holds.toNat) :
    t.Inv server := by
  rcases List.getElem?_eq_some_iff.mp hConn with
    ⟨hIndex, hGet⟩
  refine ⟨?_, ?_⟩
  · intro d hMem
    rw [hConns] at hMem
    rcases List.mem_or_eq_of_mem_set hMem with hOld | rfl
    · exact hInv.conns d hOld
    · exact hNew
  · have hTotal := hInv.permits
    have hCount :=
      List.countP_set (p := Connection.holds) (a := c')
        hIndex
    have hLe :=
      List.boole_getElem_le_countP (p := Connection.holds)
        hIndex
    rw [hConns, hCount]
    rw [hGet] at hLe ⊢
    cases hOld : c.holds <;> cases hFresh : c'.holds <;>
      simp only [hOld, hFresh, Bool.toNat_true,
        Bool.toNat_false, Bool.false_eq_true, if_true,
        if_false] at hPermits hLe ⊢ <;>
      omega

variable [DecidableEq KeyData]

theorem step_inv
    {lib : KeyLibrary PublicKey KeyData}
    {russh : Russh PublicKey}
    {server : Server PublicKey PrivateKey}
    {s t : AcceptLoop PublicKey}
    {e : Event PublicKey}
    (hInv : s.Inv server)
    (hStep : s.step lib russh server e = some t) :
    t.Inv server := by
  cases e with
  | accept =>
      simp only [step] at hStep
      split at hStep <;> [skip; cases hStep]
      simp only [Option.some.injEq] at hStep
      subst hStep
      refine ⟨?_, ?_⟩
      · intro c hMem
        rw [List.mem_append, List.mem_singleton] at hMem
        rcases hMem with hOld | rfl
        · exact hInv.conns c hOld
        · exact Connection.accepted_inv server.inner
      · simpa [Connection.holds, Connection.accepted,
          ConnectionHandler.new] using hInv.permits
  | shutdown =>
      simp only [step] at hStep
      split at hStep <;> [skip; cases hStep]
      simp only [Option.some.injEq] at hStep
      subst hStep
      exact ⟨hInv.conns, hInv.permits⟩
  | acquire i =>
      simp only [step] at hStep
      split at hStep <;> [skip; cases hStep]
      next c hConn =>
        split at hStep <;> [skip; cases hStep]
        next hEnabled =>
          simp only [Option.some.injEq] at hStep
          subst hStep
          have hOld :=
            hInv.conns c (List.mem_of_getElem? hConn)
          have hFree : c.holds = false := by
            simp [Connection.holds, hOld.held, hEnabled.1,
              Phase.running]
          refine hInv.set hConn rfl
            (Connection.acquired_inv hOld hEnabled.1 _ _) ?_
          have hSome := hEnabled.2
          have hTaken :
              (c.acquired server.inner s.now).holds = true :=
            rfl
          simp only [hFree, hTaken, Bool.toNat_true,
            Bool.toNat_false]
          omega
  | task i e =>
      simp only [step] at hStep
      split at hStep <;> [skip; cases hStep]
      next c hConn =>
        split at hStep <;> [skip; cases hStep]
        next phase handler hNext =>
          simp only [Option.some.injEq] at hStep
          subst hStep
          have hOld :=
            hInv.conns c (List.mem_of_getElem? hConn)
          have hNew := Connection.moveTo_inv hOld hNext
          refine hInv.set hConn rfl hNew ?_
          have hBefore := hOld.returned
          have hAfter := hNew.returned
          simp only [Connection.moveTo,
            ConnectionHandler.released,
            Connection.holds] at hAfter ⊢
          omega
  | advance span =>
      simp only [step] at hStep
      split at hStep <;> [skip; cases hStep]
      simp only [Option.some.injEq] at hStep
      subst hStep
      exact ⟨hInv.conns, hInv.permits⟩

theorem reaches_inv
    {lib : KeyLibrary PublicKey KeyData}
    {russh : Russh PublicKey}
    {server : Server PublicKey PrivateKey}
    {start : Instant}
    {ok : AcceptLoop PublicKey → Event PublicKey → Prop}
    {s : AcceptLoop PublicKey}
    (hReaches : (machine lib russh server start).Reaches ok s) :
    s.Inv server :=
  hReaches.invariant (initial_inv server start)
    (fun _ _ _ hInv _ hStep => step_inv hInv hStep)

/-
  A task event returns a permit only by authenticating the
  connection or by dropping its handler.
-/
theorem released_cases
    {lib : KeyLibrary PublicKey KeyData}
    {russh : Russh PublicKey}
    {grace : Duration}
    {now : Instant}
    {c : Connection PublicKey}
    {e : TaskEvent PublicKey}
    {phase : Phase}
    {handler : ConnectionHandler PublicKey}
    (hNext :
      c.next lib russh grace now e = some (phase, handler)) :
    c.handler.released handler = 0 ∨
      (c.handler.released handler = 1 ∧ c.holds = true ∧
        ((∃ a, e = .attempt a ∧
            c.handler.authenticates lib a = true) ∨
          phase = .closed)) := by
  by_cases hReleased : c.handler.released handler = 0
  · exact Or.inl hReleased
  · have hHolds : c.holds = true := by
      cases hPermit : c.handler.startupPermit <;>
        simp_all [ConnectionHandler.released,
          Connection.holds]
    have hOne : c.handler.released handler = 1 := by
      cases hPermit : handler.startupPermit <;>
        simp_all [ConnectionHandler.released,
          Connection.holds]
    refine Or.inr ⟨hOne, hHolds, ?_⟩
    rcases (Connection.next_cases hNext).2 with
      ⟨hClosed, _⟩ | ⟨_, _, rfl⟩ | ⟨_, _, rfl⟩ |
        ⟨_, _, rfl⟩ | ⟨a, rfl, _, rfl⟩
    case inl => exact Or.inr hClosed
    case inr.inr.inr.inr =>
      refine Or.inl ⟨a, rfl, ?_⟩
      by_contra hNot
      simp [ConnectionHandler.released, hNot] at hReleased
    all_goals
      simp [ConnectionHandler.released] at hReleased

/- What a step does to one of the connections. -/
theorem step_conn
    {lib : KeyLibrary PublicKey KeyData}
    {russh : Russh PublicKey}
    {server : Server PublicKey PrivateKey}
    {s t : AcceptLoop PublicKey}
    {e : Event PublicKey}
    {i : Nat}
    {c c' : Connection PublicKey}
    (hStep : s.step lib russh server e = some t)
    (hConn : s.conns[i]? = some c)
    (hConn' : t.conns[i]? = some c') :
    (c' = c ∧ ∀ e', e ≠ .task i e') ∨
      (e = .acquire i ∧ c' = c.acquired server.inner s.now) ∨
      ∃ e' phase handler,
        e = .task i e' ∧
          c.next lib russh server.loginGrace s.now e' =
            some (phase, handler) ∧
          c' = c.moveTo phase handler ∧
          t.available =
            s.available + c.handler.released handler := by
  cases e with
  | accept =>
      simp only [step] at hStep
      split at hStep <;> [skip; cases hStep]
      cases hStep
      rw [List.getElem?_append_left
        (List.getElem?_eq_some_iff.mp hConn).1, hConn]
        at hConn'
      cases hConn'
      exact Or.inl ⟨rfl, by simp⟩
  | shutdown =>
      simp only [step] at hStep
      split at hStep <;> [skip; cases hStep]
      cases hStep
      rw [hConn] at hConn'
      cases hConn'
      exact Or.inl ⟨rfl, by simp⟩
  | acquire j =>
      simp only [step] at hStep
      split at hStep <;> [rename_i d hFound; cases hStep]
      split at hStep <;> [skip; cases hStep]
      cases hStep
      rw [List.getElem?_set] at hConn'
      split at hConn'
      next hSame =>
        subst hSame
        split at hConn' <;> [skip; cases hConn']
        cases hConn'
        rw [hConn] at hFound
        cases hFound
        exact Or.inr (Or.inl ⟨rfl, rfl⟩)
      · rw [hConn] at hConn'
        cases hConn'
        exact Or.inl ⟨rfl, by simp⟩
  | task j e' =>
      simp only [step] at hStep
      split at hStep <;> [rename_i d hFound; cases hStep]
      split at hStep <;>
        [rename_i phase handler hNext; cases hStep]
      cases hStep
      rw [List.getElem?_set] at hConn'
      split at hConn'
      next hSame =>
        subst hSame
        split at hConn' <;> [skip; cases hConn']
        cases hConn'
        rw [hConn] at hFound
        cases hFound
        exact Or.inr (Or.inr
          ⟨e', phase, handler, rfl, hNext, rfl, rfl⟩)
      next hOther =>
        rw [hConn] at hConn'
        cases hConn'
        exact Or.inl ⟨rfl, by simp [hOther]⟩
  | advance span =>
      simp only [step] at hStep
      split at hStep <;> [skip; cases hStep]
      cases hStep
      rw [hConn] at hConn'
      cases hConn'
      exact Or.inl ⟨rfl, by simp⟩

/-
  The step is the first successful authentication of a
  connection, or it drops the handler of one.
-/
def GivesUp
    (lib : KeyLibrary PublicKey KeyData)
    (e : Event PublicKey)
    (i : Nat)
    (c c' : Connection PublicKey) : Prop :=
  (∃ a, e = .task i (.attempt a) ∧
    c.handler.authenticates lib a = true) ∨
    c'.phase = .closed

/- The permit of a connection is given back. -/
structure Returned
    (s t : AcceptLoop PublicKey)
    (c c' : Connection PublicKey) : Prop where
  held : c.holds = true
  once : c'.returned = c.returned + 1
  gone : c'.holds = false
  freed : t.available = s.available + 1

/- The step that returns a permit, and no other one. -/
theorem step_returned
    {lib : KeyLibrary PublicKey KeyData}
    {russh : Russh PublicKey}
    {server : Server PublicKey PrivateKey}
    {s t : AcceptLoop PublicKey}
    {e : Event PublicKey}
    {i : Nat}
    {c c' : Connection PublicKey}
    (hStep : s.step lib russh server e = some t)
    (hConn : s.conns[i]? = some c)
    (hConn' : t.conns[i]? = some c') :
    c'.returned = c.returned ∨
      (Returned s t c c' ∧ GivesUp lib e i c c') := by
  rcases step_conn hStep hConn hConn' with
    ⟨rfl, _⟩ | ⟨_, rfl⟩ |
      ⟨e', phase, handler, rfl, hNext, rfl, hFreed⟩
  · exact Or.inl rfl
  · exact Or.inl rfl
  · rcases released_cases hNext with
      hZero | ⟨hOne, hHolds, hHow⟩
    · exact Or.inl (by simp [Connection.moveTo, hZero])
    · refine Or.inr
        ⟨⟨hHolds, ?_, ?_, by rw [hFreed, hOne]⟩, ?_⟩
      · simp [Connection.moveTo, hOne]
      · rw [ConnectionHandler.released] at hOne
        cases hPermit : handler.startupPermit with
        | false => exact hPermit
        | true =>
            cases hOld : c.handler.startupPermit <;>
              simp [hPermit, hOld] at hOne
      · rcases hHow with ⟨a, rfl, hOk⟩ | hClosed
        · exact Or.inl ⟨a, rfl, hOk⟩
        · exact Or.inr hClosed

/- A server with one startup permit and a minute of grace. -/
def oneSlotServer : Server (List Text) Unit where
  inner := {
    auth :=
      { anonymous := true, password := none
        authorizedKeys := [] }
    authenticator := none
    commandResolver := DefaultResolver.resolve
      (singleFileHost [] []) ["/bin/sh".toList]
    forwarder := none
    allowTcpForwarding := true
    sftpRoot := none
    acceptEnv := defaultAcceptEnv
    banner := none
    allowedUsers := [] }
  methods := [.none]
  keys := [()]
  bind := SocketAddr.new IpAddr.localhost 2222
  maxStartups := 1
  loginGrace := Duration.fromSecs 60

/- A library that closes a session with its future. -/
def closingRussh : Russh (List Text) where
  livesOn _ := false

end AcceptLoop

end Sshdt

------------------------------------------------------------
-- Login Grace
------------------------------------------------------------

namespace Sshdt

variable {PublicKey KeyData PrivateKey : Type}

/-
  Where a connection with a permit stands while no time
  passes inside `run_stream`: it took its permit just now,
  or its timer was armed with the permit and has not passed.
-/
def Connection.Timed
    (grace : Duration)
    (now : Instant)
    (c : Connection PublicKey) : Prop :=
  ∀ since, c.acquiredAt = some since →
    match c.phase with
    | .handshake => since = now
    | .session deadline =>
        deadline = since + grace ∧ now ≤ deadline
    | _ => False

namespace AcceptLoop

/-
  A connection that has held its permit for longer than the
  grace period is authenticated.
-/
def GraceCovers
    (server : Server PublicKey PrivateKey)
    (s : AcceptLoop PublicKey) : Prop :=
  ∀ c ∈ s.conns, c.holds = true →
    ∀ since, c.acquiredAt = some since →
      since + server.loginGrace < s.now →
        c.handler.authed = true

/-
  No time passes while a connection that holds a permit is
  inside `run_stream`, where no timer is armed.
-/
def HandshakesPrompt
    (s : AcceptLoop PublicKey) :
    Event PublicKey → Prop
  | .advance span =>
      span = 0 ∨
        ∀ c ∈ s.conns, c.holds = true → c.phase ≠ .handshake
  | _ => True

instance decidableHandshakesPrompt
    (s : AcceptLoop PublicKey) :
    (e : Event PublicKey) → Decidable (s.HandshakesPrompt e)
  | .advance span =>
      inferInstanceAs (Decidable
        (span = 0 ∨
          ∀ c ∈ s.conns, c.holds = true →
            c.phase ≠ .handshake))
  | .accept | .shutdown | .acquire _ | .task _ _ =>
      .isTrue trivial

/- Every connection with a permit is timed from its permit. -/
def AllTimed
    (server : Server PublicKey PrivateKey)
    (s : AcceptLoop PublicKey) : Prop :=
  ∀ c ∈ s.conns, c.holds = true →
    c.Timed server.loginGrace s.now

/- A timed connection is within its grace period. -/
theorem AllTimed.graceCovers
    {server : Server PublicKey PrivateKey}
    {s : AcceptLoop PublicKey}
    (hTimed : s.AllTimed server) :
    s.GraceCovers server := by
  intro c hMem hHolds since hSince hLong
  have hPhase := hTimed c hMem hHolds since hSince
  split at hPhase
  · rw [hPhase] at hLong
    exact absurd hLong (Nat.not_lt.mpr (Nat.le_add_right _ _))
  · rw [hPhase.1] at hPhase
    exact absurd hLong (Nat.not_lt.mpr hPhase.2)
  · exact hPhase.elim

variable [DecidableEq KeyData]

/-
  An event of a timed connection: the timer is armed with
  the permit, an attempt leaves it, and its expiry closes a
  connection that is not authenticated yet.
-/
theorem next_timed
    {lib : KeyLibrary PublicKey KeyData}
    {russh : Russh PublicKey}
    {grace : Duration}
    {now : Instant}
    {c : Connection PublicKey}
    {e : TaskEvent PublicKey}
    {phase : Phase}
    {handler : ConnectionHandler PublicKey}
    (hDrop : russh.ClosesOnDrop)
    (hInv : c.Inv)
    (hTimed : c.holds = true → c.Timed grace now)
    (hNext :
      c.next lib russh grace now e = some (phase, handler))
    (hHolds : (c.moveTo phase handler).holds = true) :
    (c.moveTo phase handler).Timed grace now := by
  have hStill : handler.startupPermit = true := hHolds
  rcases (Connection.next_cases hNext).2 with
    ⟨_, rfl⟩ | ⟨hPhase, rfl, rfl⟩ | ⟨_, hAuthed, rfl⟩ |
      ⟨_, hLives, _⟩ | ⟨a, _, rfl, rfl⟩
  · cases hStill
  · intro since hSince
    have hNow := hTimed hStill since hSince
    rw [hPhase] at hNow
    have hNow : since = now := hNow
    subst hNow
    exact ⟨rfl, Nat.le_add_right _ _⟩
  · have hHeld := hInv.held
    rw [hStill, hAuthed, Bool.not_true, Bool.and_false]
      at hHeld
    cases hHeld
  · rw [hDrop] at hLives
    cases hLives
  · have hOld : c.holds = true := by
      split at hStill
      · cases hStill
      · exact hStill
    exact hTimed hOld

/-
  One step keeps the connections timed when no time passes
  in `run_stream`: the clock stops at every armed timer.
-/
theorem step_allTimed
    {lib : KeyLibrary PublicKey KeyData}
    {russh : Russh PublicKey}
    {server : Server PublicKey PrivateKey}
    {s t : AcceptLoop PublicKey}
    {e : Event PublicKey}
    (hDrop : russh.ClosesOnDrop)
    (hInv : s.Inv server)
    (hTimed : s.AllTimed server)
    (hPrompt : s.HandshakesPrompt e)
    (hStep : s.step lib russh server e = some t) :
    t.AllTimed server := by
  cases e with
  | accept =>
      simp only [step] at hStep
      split at hStep <;> cases hStep
      intro c hMem hHolds
      rw [List.mem_append, List.mem_singleton] at hMem
      rcases hMem with hOld | rfl
      · exact hTimed c hOld hHolds
      · cases hHolds
  | shutdown =>
      simp only [step] at hStep
      split at hStep <;> cases hStep
      exact hTimed
  | acquire i =>
      simp only [step] at hStep
      split at hStep <;> [skip; cases hStep]
      split at hStep <;> cases hStep
      intro c hMem hHolds
      rcases List.mem_or_eq_of_mem_set hMem with hOld | rfl
      · exact hTimed c hOld hHolds
      · intro since hSince
        exact (Option.some.inj hSince).symm
  | task i e =>
      simp only [step] at hStep
      split at hStep <;> [rename_i c hConn; cases hStep]
      split at hStep <;>
        [rename_i phase handler hNext; cases hStep]
      cases hStep
      have hMem := List.mem_of_getElem? hConn
      intro d hNew hHolds
      rcases List.mem_or_eq_of_mem_set hNew with hOld | rfl
      · exact hTimed d hOld hHolds
      · exact next_timed hDrop (hInv.conns c hMem)
          (hTimed c hMem) hNext hHolds
  | advance span =>
      simp only [step] at hStep
      split at hStep <;> [rename_i hTimers; cases hStep]
      cases hStep
      rcases hPrompt with rfl | hNone
      · exact hTimed
      intro c hMem hHolds since hSince
      have hBefore := hTimed c hMem hHolds since hSince
      have hTimer := List.all_eq_true.mp hTimers c hMem
      split at hBefore
      next hPhase => exact absurd hPhase (hNone c hMem hHolds)
      next hPhase =>
        rw [hPhase, decide_eq_true_eq] at hTimer
        exact ⟨hBefore.1, hTimer⟩
      · exact hBefore.elim

/-
  Login grace covers the unauthenticated life of every
  connection in all runs in which no time passes inside
  `run_stream`, by the timer and by what the library does
  with a session whose future is dropped.
-/
theorem login_grace_covers
    {lib : KeyLibrary PublicKey KeyData}
    {russh : Russh PublicKey}
    {server : Server PublicKey PrivateKey}
    {start : Instant}
    {s : AcceptLoop PublicKey}
    (hDrop : russh.ClosesOnDrop)
    (hReaches :
      (machine lib russh server start).Reaches
        HandshakesPrompt s) :
    s.GraceCovers server := by
  have hBoth : s.Inv server ∧ s.AllTimed server :=
    hReaches.invariant
      (I := fun s => s.Inv server ∧ s.AllTimed server)
      ⟨initial_inv server start, by
        simp [machine, initial, AllTimed]⟩
      (fun _ _ _ hBoth hPrompt hStep =>
        ⟨step_inv hBoth.1 hStep,
          step_allTimed hDrop hBoth.1 hBoth.2 hPrompt hStep⟩)
  exact hBoth.2.graceCovers

/-
  Two clients that identify themselves at once. The first
  one signs in, and the second one is still silent when its
  grace period expires.
-/
def promptRun : List (Event (List Text)) :=
  [.accept, .accept, .acquire 0, .task 0 .handshakeDone,
    .advance (Duration.fromSecs 50),
    .task 0 (.attempt (.none "dev".toList)), .acquire 1,
    .task 1 .handshakeDone, .advance (Duration.fromSecs 10),
    .task 0 .graceExpires, .advance (Duration.fromSecs 50),
    .task 1 .graceExpires, .advance (Duration.fromSecs 600)]

theorem promptRun_graceCovers :
    ((machine wordKeys closingRussh oneSlotServer 0).final
      promptRun (by decide)).GraceCovers oneSlotServer :=
  login_grace_covers (fun _ => rfl)
    (Machine.reaches_final
      (M := machine wordKeys closingRussh oneSlotServer 0)
      promptRun (by decide) (by decide))

/- A client that connects and never sends a byte. -/
def silentRun : List (Event (List Text)) :=
  [.accept, .acquire 0, .advance (Duration.fromSecs 61)]

theorem silentRun_outlives_grace :
    let s :=
      (machine wordKeys closingRussh oneSlotServer 0).final
        silentRun (by decide)
    closingRussh.ClosesOnDrop ∧
      (machine wordKeys closingRussh oneSlotServer
        0).Reachable s ∧
      s.available = 0 ∧ ¬ s.GraceCovers oneSlotServer := by
  intro s
  refine ⟨fun _ => rfl, Machine.reachable_final _ _,
    by decide, ?_⟩
  intro hCovers
  have hConn : s.conns[0]? = some
      { phase := .handshake
        handler :=
          ConnectionHandler.new oneSlotServer.inner true
        acquiredAt := some 0
        returned := 0 } := rfl
  have hAuthed := hCovers _ (List.mem_of_getElem? hConn)
    rfl 0 rfl (by decide)
  cases hAuthed

end AcceptLoop

end Sshdt
