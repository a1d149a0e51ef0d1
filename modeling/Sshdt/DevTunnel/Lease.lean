import Sshdt.Lib.Machine
import Mathlib.Data.Finset.Card

/-
  Client leases of the tunnel manager (`src/devtunnel/client.rs`).

  `LeaseState` sits behind one mutex, so `Lease::acquire`,
  the drop of a `Lease` and `begin_idle_shutdown` are atomic
  steps that read the clock inside the lock. The broker
  holds a set of session tasks, each of which tries to take
  at most one lease. The idle tick leaves the broker loop
  when `begin_idle_shutdown` answers true. The teardown then
  aborts the remaining session tasks. An error of the
  listener, which returns from `broker` without a teardown,
  is left out.

  Key definitions include:
    * `LeaseState`
    * `Lease.acquire`
    * `Lease.drop`
    * `beginIdleShutdown`
    * `LeaseBroker.step`
    * `LeaseBroker.Inv`

  Key theorems include:
    * `LeaseBroker.step_inv`
    * `LeaseBroker.reachable_inv`
    * `LeaseBroker.lease_and_idle_shutdown_safety`
-/

------------------------------------------------------------
-- Lease Operations
------------------------------------------------------------

namespace Sshdt

namespace DevTunnel

/- The state shared by all leases of one broker. -/
structure LeaseState where
  count : Nat
  idleUntil : Instant
  stopping : Bool
  deriving DecidableEq, Repr

namespace LeaseState

/- `LeaseState::default`, evaluated at `now`. -/
def default
    (now : Instant) : LeaseState where
  count := 0
  idleUntil := now + Duration.fromSecs 5
  stopping := false

end LeaseState

/- `Lease::acquire`: no lease once the broker is stopping. -/
def Lease.acquire
    (state : LeaseState) : Option LeaseState :=
  if state.stopping then
    none
  else
    some { state with count := state.count + 1 }

/-
  The drop of a lease. `none` is the arithmetic panic of
  `state.count -= 1` at zero.
-/
def Lease.drop
    (now : Instant)
    (state : LeaseState) : Option LeaseState :=
  if state.count = 0 then
    none
  else
    let count := state.count - 1
    some
      { state with
        count
        idleUntil :=
          if count = 0 then
            now + Duration.fromSecs 5
          else
            state.idleUntil }

theorem Lease.acquire_count
    {state next : LeaseState}
    (hAcquire : acquire state = some next) :
    next.count = state.count + 1 := by
  unfold acquire at hAcquire
  split at hAcquire <;> cases hAcquire
  rfl

theorem Lease.drop_count
    {now : Instant}
    {state next : LeaseState}
    (hDrop : drop now state = some next) :
    next.count ≤ state.count := by
  unfold drop at hDrop
  split at hDrop <;> cases hDrop
  exact Nat.sub_le _ _

/- `begin_idle_shutdown`: the answer is the new flag. -/
def beginIdleShutdown
    (now : Instant)
    (state : LeaseState) : LeaseState :=
  if state.count = 0 ∧ state.idleUntil ≤ now then
    { state with stopping := true }
  else
    state

@[simp] theorem beginIdleShutdown_count
    (now : Instant)
    (state : LeaseState) :
    (beginIdleShutdown now state).count = state.count := by
  unfold beginIdleShutdown
  split <;> rfl

@[simp] theorem beginIdleShutdown_idleUntil
    (now : Instant)
    (state : LeaseState) :
    (beginIdleShutdown now state).idleUntil =
      state.idleUntil := by
  unfold beginIdleShutdown
  split <;> rfl

/-
  The flag is raised only by an idle and expired state, and
  never lowered.
-/
theorem beginIdleShutdown_stopping_iff
    (now : Instant)
    (state : LeaseState) :
    (beginIdleShutdown now state).stopping = true ↔
      state.stopping = true ∨
        (state.count = 0 ∧ state.idleUntil ≤ now) := by
  unfold beginIdleShutdown
  split
  · rename_i hIdle
    simp [hIdle]
  · rename_i hBusy
    simp [hBusy]

end DevTunnel

end Sshdt

------------------------------------------------------------
-- The Broker Around The Leases
------------------------------------------------------------

namespace Sshdt

namespace DevTunnel

/-
  The lease-relevant state of one broker process.

  `sessions` are the tasks of the `JoinSet`, `holding` those
  whose `_lease` is live. `looping` is false after the
  `break` of the idle tick. `lastEnded` is the time the last
  lease ended, or the creation time; it exists for the
  statements only.
-/
structure LeaseBroker where
  now : Instant
  leases : LeaseState
  sessions : Finset Nat
  holding : Finset Nat
  looping : Bool
  lastEnded : Instant

namespace LeaseBroker

/- Everything that can happen to the leases of a broker. -/
inductive Event where
  | accept (session : Nat)
  | acquire (session : Nat)
  | finish (session : Nat)
  | idleCheck
  | abort (session : Nat)
  | advance (span : Duration)
  deriving DecidableEq, Repr

/- A broker whose lease state was created at `start`. -/
def initial
    (start : Instant) : LeaseBroker where
  now := start
  leases := LeaseState.default start
  sessions := ∅
  holding := ∅
  looping := true
  lastEnded := start

/-
  End a session task. Its lease, if it holds one, is
  dropped with the task.
-/
def endSession
    (s : LeaseBroker)
    (session : Nat) : Option LeaseBroker :=
  if session ∈ s.holding then
    match Lease.drop s.now s.leases with
    | none => none
    | some leases =>
        some
          { s with
            leases
            sessions := s.sessions.erase session
            holding := s.holding.erase session
            lastEnded := s.now }
  else
    some { s with sessions := s.sessions.erase session }

/- One step of the broker. -/
def step
    (s : LeaseBroker) :
    Event → Option LeaseBroker
| .accept session =>
    if s.looping ∧ session ∉ s.sessions ∧
        s.sessions.card < 256 then
      some { s with sessions := insert session s.sessions }
    else
      none
| .acquire session =>
    if session ∈ s.sessions ∧ session ∉ s.holding then
      match Lease.acquire s.leases with
      | none => s.endSession session
      | some leases =>
          some
            { s with
              leases
              holding := insert session s.holding }
    else
      none
| .finish session =>
    if session ∈ s.sessions then
      s.endSession session
    else
      none
| .idleCheck =>
    if s.looping then
      let leases := beginIdleShutdown s.now s.leases
      some { s with leases, looping := !leases.stopping }
    else
      none
| .abort session =>
    -- `sessions.abort_all()` runs only after the loop.
    if ¬ s.looping ∧ session ∈ s.sessions then
      s.endSession session
    else
      none
| .advance span =>
    some { s with now := s.now + span }

/- The broker as a machine. -/
def machine
    (start : Instant) :
    Machine LeaseBroker Event where
  init := initial start
  step := step

end LeaseBroker

end DevTunnel

end Sshdt

------------------------------------------------------------
-- Lease Invariant
------------------------------------------------------------

namespace Sshdt

namespace DevTunnel

namespace LeaseBroker

/-
  The counter is the number of live leases, an idle broker
  waits from the end of its last lease, and a stopping
  broker has none.
-/
structure Inv (s : LeaseBroker) : Prop where
  count_eq : s.leases.count = s.holding.card
  idle :
    s.holding = ∅ →
      s.leases.idleUntil =
        s.lastEnded + Duration.fromSecs 5
  stopped : s.leases.stopping = true → s.holding = ∅
  looped : s.looping = !s.leases.stopping

theorem initial_inv
    (start : Instant) :
    (initial start).Inv where
  count_eq := by simp [initial, LeaseState.default]
  idle := by simp [initial, LeaseState.default]
  stopped := by simp [initial]
  looped := by simp [initial, LeaseState.default]

/- A live lease can always be dropped. -/
theorem Inv.drop_isSome
    {s : LeaseBroker}
    (hInv : s.Inv)
    {session : Nat}
    (hHolding : session ∈ s.holding) :
    (Lease.drop s.now s.leases).isSome = true := by
  have hCard : 0 < s.holding.card :=
    Finset.card_pos.mpr ⟨session, hHolding⟩
  have hCount : s.leases.count ≠ 0 := by
    rw [hInv.count_eq]
    omega
  simp [Lease.drop, hCount]

/- Ending a session keeps the invariant. -/
theorem Inv.endSession
    {s t : LeaseBroker}
    {session : Nat}
    (hInv : s.Inv)
    (hEnd : s.endSession session = some t) :
    t.Inv := by
  unfold LeaseBroker.endSession at hEnd
  split at hEnd
  · rename_i hHolding
    have hCard :=
      Finset.card_erase_of_mem hHolding
    have hPos : 0 < s.holding.card :=
      Finset.card_pos.mpr ⟨session, hHolding⟩
    have hCount : s.leases.count ≠ 0 := by
      rw [hInv.count_eq]
      omega
    simp only [Lease.drop, hCount, if_false,
      Option.some.injEq] at hEnd
    subst hEnd
    refine ⟨?_, ?_, ?_, hInv.looped⟩
    · simp [hCard, hInv.count_eq]
    · intro hEmpty
      have hZero : s.leases.count - 1 = 0 := by
        rw [hInv.count_eq, ← hCard]
        exact Finset.card_eq_zero.mpr hEmpty
      simp [hZero]
    · intro hStopping
      have hNone := hInv.stopped hStopping
      simp [hNone] at hHolding
  · simp only [Option.some.injEq] at hEnd
    subst hEnd
    exact
      ⟨hInv.count_eq, hInv.idle, hInv.stopped,
        hInv.looped⟩

/- Every step keeps the invariant. -/
theorem step_inv
    {s t : LeaseBroker}
    {e : Event}
    (hInv : s.Inv)
    (hStep : s.step e = some t) :
    t.Inv := by
  cases e with
  | accept session =>
      simp only [step] at hStep
      split at hStep
      · simp only [Option.some.injEq] at hStep
        subst hStep
        exact
          ⟨hInv.count_eq, hInv.idle, hInv.stopped,
            hInv.looped⟩
      · cases hStep
  | acquire session =>
      simp only [step] at hStep
      split at hStep
      · rename_i hFresh
        cases hStopping : s.leases.stopping with
        | true =>
            simp only [Lease.acquire, hStopping,
              if_true] at hStep
            exact hInv.endSession hStep
        | false =>
            simp only [Lease.acquire, hStopping,
              Bool.false_eq_true, if_false,
              Option.some.injEq] at hStep
            subst hStep
            refine ⟨?_, ?_, ?_, ?_⟩
            · simp [Finset.card_insert_of_notMem hFresh.2,
                hInv.count_eq]
            · intro hEmpty
              simp at hEmpty
            · intro hTrue
              simp at hTrue
            · simpa [hStopping] using hInv.looped
      · cases hStep
  | finish session =>
      simp only [step] at hStep
      split at hStep
      · exact hInv.endSession hStep
      · cases hStep
  | idleCheck =>
      simp only [step] at hStep
      split at hStep
      · simp only [Option.some.injEq] at hStep
        subst hStep
        refine ⟨?_, ?_, ?_, rfl⟩
        · simpa using hInv.count_eq
        · simpa using hInv.idle
        · intro hStopping
          rcases (beginIdleShutdown_stopping_iff _ _).mp
              hStopping with hBefore | hIdle
          · exact hInv.stopped hBefore
          · apply Finset.card_eq_zero.mp
            rw [← hInv.count_eq]
            exact hIdle.1
      · cases hStep
  | abort session =>
      simp only [step] at hStep
      split at hStep
      · exact hInv.endSession hStep
      · cases hStep
  | advance span =>
      simp only [step, Option.some.injEq] at hStep
      subst hStep
      exact
        ⟨hInv.count_eq, hInv.idle, hInv.stopped,
          hInv.looped⟩

/- The invariant holds in every reachable state. -/
theorem reachable_inv
    {start : Instant}
    {s : LeaseBroker}
    (hReachable : (machine start).Reachable s) :
    s.Inv :=
  hReachable.invariant (initial_inv start)
    (fun _ _ _ hInv _ hStep => step_inv hInv hStep)

end LeaseBroker

end DevTunnel

end Sshdt

------------------------------------------------------------
-- Idle Shutdown
------------------------------------------------------------

namespace Sshdt

namespace DevTunnel

namespace LeaseBroker

/- Only the idle check can raise the stopping flag. -/
theorem endSession_stopping
    {s t : LeaseBroker}
    {session : Nat}
    (hEnd : s.endSession session = some t) :
    t.leases.stopping = s.leases.stopping := by
  unfold endSession at hEnd
  split at hEnd
  · unfold Lease.drop at hEnd
    by_cases hCount : s.leases.count = 0
    · simp [hCount] at hEnd
    · simp only [hCount, if_false,
        Option.some.injEq] at hEnd
      subst hEnd
      rfl
  · simp only [Option.some.injEq] at hEnd
    subst hEnd
    rfl

/-
  What a step does to the stopping flag: it stays, or the
  idle check raises it in an idle and expired state.
-/
theorem step_stopping
    {s t : LeaseBroker}
    {e : Event}
    (hStep : s.step e = some t) :
    t.leases.stopping = s.leases.stopping ∨
      (e = .idleCheck ∧ t.leases.stopping = true ∧
        s.leases.count = 0 ∧
        s.leases.idleUntil ≤ s.now) := by
  cases e with
  | accept session =>
      simp only [step] at hStep
      split at hStep
      · simp only [Option.some.injEq] at hStep
        subst hStep
        exact .inl rfl
      · cases hStep
  | acquire session =>
      simp only [step] at hStep
      split at hStep
      · cases hStopping : s.leases.stopping with
        | true =>
            simp only [Lease.acquire, hStopping,
              if_true] at hStep
            rw [endSession_stopping hStep]
            exact .inl hStopping
        | false =>
            simp only [Lease.acquire, hStopping,
              Bool.false_eq_true, if_false,
              Option.some.injEq] at hStep
            subst hStep
            exact .inl rfl
      · cases hStep
  | finish session =>
      simp only [step] at hStep
      split at hStep
      · exact .inl (endSession_stopping hStep)
      · cases hStep
  | idleCheck =>
      simp only [step] at hStep
      split at hStep
      · simp only [Option.some.injEq] at hStep
        subst hStep
        by_cases hIdle :
            s.leases.count = 0 ∧ s.leases.idleUntil ≤ s.now
        · exact .inr
            ⟨rfl, by simp [beginIdleShutdown, hIdle], hIdle⟩
        · exact .inl (by simp [beginIdleShutdown, hIdle])
      · cases hStep
  | abort session =>
      simp only [step] at hStep
      split at hStep
      · exact .inl (endSession_stopping hStep)
      · cases hStep
  | advance span =>
      simp only [step, Option.some.injEq] at hStep
      subst hStep
      exact .inl rfl

/- The teardown never cancels a session with a lease. -/
theorem Inv.abort_not_holding
    {s t : LeaseBroker}
    {session : Nat}
    (hInv : s.Inv)
    (hStep : s.step (.abort session) = some t) :
    session ∉ s.holding := by
  simp only [step] at hStep
  split at hStep
  · rename_i hTeardown
    have hStopping : s.leases.stopping = true := by
      have hLooped := hInv.looped
      cases hFlag : s.leases.stopping with
      | true => rfl
      | false => simp [hFlag, hTeardown.1] at hLooped
    simp [hInv.stopped hStopping]
  · cases hStep

/-
  Lease and idle-shutdown safety, in every state of every
  run: the counter is the number of live leases and can be
  decremented for each of them; the stopping flag is raised
  only when no lease is live and five seconds have passed
  since the last one ended; it is never lowered, and from
  then on no lease is granted and none is live; and the
  teardown cancels no session that holds a lease.
-/
theorem lease_and_idle_shutdown_safety
    (start : Instant)
    (s : LeaseBroker)
    (hReachable : (machine start).Reachable s) :
    s.leases.count = s.holding.card ∧
      (∀ session ∈ s.holding,
        (Lease.drop s.now s.leases).isSome = true) ∧
      (∀ e t,
        s.step e = some t →
          s.leases.stopping = false →
            t.leases.stopping = true →
              s.holding = ∅ ∧
                s.lastEnded + Duration.fromSecs 5 ≤
                  s.now) ∧
      (s.leases.stopping = true →
        s.leases.count = 0 ∧
          Lease.acquire s.leases = none ∧
          ∀ e t,
            s.step e = some t →
              t.leases.stopping = true ∧
                t.leases.count = 0 ∧ t.holding = ∅) ∧
      (∀ session t,
        s.step (.abort session) = some t →
          session ∉ s.holding) := by
  have hInv := reachable_inv hReachable
  refine ⟨hInv.count_eq, ?_, ?_, ?_, ?_⟩
  · intro session hHolding
    exact hInv.drop_isSome hHolding
  · intro e t hStep hBefore hAfter
    rcases step_stopping hStep with hSame | hRaised
    · rw [hSame, hBefore] at hAfter
      cases hAfter
    · have hEmpty : s.holding = ∅ := by
        apply Finset.card_eq_zero.mp
        rw [← hInv.count_eq]
        exact hRaised.2.2.1
      refine ⟨hEmpty, ?_⟩
      rw [← hInv.idle hEmpty]
      exact hRaised.2.2.2
  · intro hStopping
    have hEmpty := hInv.stopped hStopping
    refine ⟨?_, ?_, ?_⟩
    · rw [hInv.count_eq, hEmpty, Finset.card_empty]
    · simp [Lease.acquire, hStopping]
    · intro e t hStep
      have hNext : t.leases.stopping = true := by
        rcases step_stopping hStep with hSame | hRaised
        · rw [hSame, hStopping]
        · exact hRaised.2.1
      have hNextInv := step_inv hInv hStep
      have hNextEmpty := hNextInv.stopped hNext
      refine ⟨hNext, ?_, hNextEmpty⟩
      rw [hNextInv.count_eq, hNextEmpty,
        Finset.card_empty]
  · intro session t hStep
    exact hInv.abort_not_holding hStep

/-
  A run with one lease that ends: five seconds later the
  idle check stops the broker.
-/
def idleRun : List Event :=
  [.accept 0, .acquire 0, .finish 0,
    .advance (Duration.fromSecs 5), .idleCheck]

theorem idleRun_stops_without_leases :
    let s := (machine 0).final idleRun (by decide)
    s.leases.stopping = true ∧ s.leases.count = 0 ∧
      Lease.acquire s.leases = none := by
  intro s
  have hStopping : s.leases.stopping = true := by decide
  have hSafe :=
    lease_and_idle_shutdown_safety 0 s
      (Machine.reachable_final idleRun (by decide))
  have hAfter := hSafe.2.2.2.1 hStopping
  exact ⟨hStopping, hAfter.1, hAfter.2.1⟩

end LeaseBroker

end DevTunnel

end Sshdt
