import Sshdt.Lib.Machine
import Sshdt.Lib.Watch
import Mathlib.Order.MinMax

/-
  Early retries after network changes
  (`src/devtunnel/network.rs`).

  The callback of the operating system sends the time into a
  watch channel. `wait_until` is a loop around a biased
  `select!`, and every pass of the loop is one step here: it
  polls the deadline, the channel and the early timer in
  this order, at one time of the clock. A timer is ready
  when its time has come. A pass that takes a branch with no
  return is followed by another pass of the same poll, the
  others end the poll. Between any two passes time may go
  by, notifications may arrive and the wait may be
  cancelled.

  Key definitions include:
    * `NetworkChanges.beginWait`
    * `NetworkChanges.select`
    * `NetworkRun.step`
    * `NetworkRun.latest`
    * `NetworkRun.Inv`

  Key theorems include:
    * `NetworkChanges.select_selects`
    * `NetworkRun.step_inv`
    * `NetworkRun.early_retries_limited`
-/

------------------------------------------------------------
-- The Watcher
------------------------------------------------------------

namespace Sshdt

namespace DevTunnel

/- `SETTLE_TIME`. -/
def settleTime : Duration :=
  Duration.fromSecs 2

/- `EARLY_RETRY_INTERVAL`. -/
def earlyRetryInterval : Duration :=
  Duration.fromSecs 30

/-
  `events` is the version the receiver has seen, if there is
  a receiver.
-/
structure NetworkChanges where
  events : Option Nat
  pending : Option Instant
  nextAllowed : Instant
  deriving DecidableEq, Repr

/- How one pass of the loop of `wait_until` ends. -/
inductive Pass where
  | again
  | pending
  | done (early : Bool)
  deriving DecidableEq, Repr

/- The deadline of the wait after a pass, if it goes on. -/
def Pass.wait
    (deadline : Instant) :
    Pass → Option Instant
| .done _ => none
| _ => some deadline

namespace NetworkChanges

/- `begin_wait`: what was sent so far counts as seen. -/
def beginWait
    (changes : NetworkChanges)
    (channel : Watch Instant) : NetworkChanges :=
  { changes with
    pending := none
    events := changes.events.map fun _ => channel.version }

/- `early_at`. -/
def earlyAt
    (changes : NetworkChanges) : Option Instant :=
  changes.pending.map fun sent =>
    max (sent + settleTime) changes.nextAllowed

/- `wake_at`. -/
def wakeAt
    (changes : NetworkChanges)
    (deadline : Instant) : Instant :=
  min (changes.earlyAt.getD deadline) deadline

/- The third branch: the early timer, if it is armed. -/
def selectEarly
    (changes : NetworkChanges)
    (now deadline : Instant) : NetworkChanges × Pass :=
  if changes.earlyAt.isSome ∧ changes.wakeAt deadline ≤ now
  then
    ({ changes with
        pending := none
        nextAllowed := now + earlyRetryInterval },
      .done true)
  else
    (changes, .pending)

/- One pass of the loop of `wait_until`. -/
def select
    (changes : NetworkChanges)
    (channel : Watch Instant)
    (now deadline : Instant) : NetworkChanges × Pass :=
  if deadline ≤ now then
    (changes, .done false)
  else
    match changes.events with
    | none => changes.selectEarly now deadline
    | some seen =>
        match channel.changed seen with
        | .ready version =>
            ({ changes with
                events := some version
                pending := some channel.value },
              .again)
        | .closed => ({ changes with events := none }, .again)
        | .pending => changes.selectEarly now deadline

end NetworkChanges

end DevTunnel

end Sshdt

------------------------------------------------------------
-- What A Pass Can Do
------------------------------------------------------------

namespace Sshdt

namespace DevTunnel

namespace NetworkChanges

/- No notification is left for the receiver to read. -/
def CaughtUp
    (changes : NetworkChanges)
    (channel : Watch Instant) : Prop :=
  ∀ seen, changes.events = some seen →
    seen = channel.version

/-
  All that one pass can do, one rule for each branch of the
  `select!`.
-/
inductive Selects
    (changes : NetworkChanges)
    (channel : Watch Instant)
    (now deadline : Instant) :
    NetworkChanges → Pass → Prop
| deadline
    (hDeadline : deadline ≤ now) :
    Selects changes channel now deadline
      changes (.done false)
| change
    {seen : Nat}
    (hDeadline : now < deadline)
    (hEvents : changes.events = some seen)
    (hUnread : seen ≠ channel.version) :
    Selects changes channel now deadline
      { changes with
        events := some channel.version
        pending := some channel.value }
      .again
| closed
    {seen : Nat}
    (hDeadline : now < deadline)
    (hEvents : changes.events = some seen)
    (hSeen : seen = channel.version)
    (hClosed : channel.closed = true) :
    Selects changes channel now deadline
      { changes with events := none } .again
| early
    {sent : Instant}
    (hDeadline : now < deadline)
    (hCaughtUp : changes.CaughtUp channel)
    (hPending : changes.pending = some sent)
    (hSettled : sent + settleTime ≤ now)
    (hAllowed : changes.nextAllowed ≤ now) :
    Selects changes channel now deadline
      { changes with
        pending := none
        nextAllowed := now + earlyRetryInterval }
      (.done true)
| idle
    (hDeadline : now < deadline) :
    Selects changes channel now deadline changes .pending

/- The early timer runs only before the deadline. -/
theorem selectEarly_selects
    {changes : NetworkChanges}
    {channel : Watch Instant}
    {now deadline : Instant}
    (hDeadline : now < deadline)
    (hCaughtUp : changes.CaughtUp channel) :
    Selects changes channel now deadline
      (changes.selectEarly now deadline).1
      (changes.selectEarly now deadline).2 := by
  unfold selectEarly
  split
  · rename_i hTimer
    rcases hTimer with ⟨hArmed, hWake⟩
    unfold wakeAt at hWake
    unfold earlyAt at hArmed hWake
    cases hPending : changes.pending with
    | none => simp [hPending] at hArmed
    | some sent =>
        rw [hPending, Option.map_some, Option.getD_some,
          min_le_iff] at hWake
        rcases hWake with hEarly | hLate
        · rw [max_le_iff] at hEarly
          exact .early hDeadline hCaughtUp hPending hEarly.1
            hEarly.2
        · exact absurd hLate (Nat.not_le.mpr hDeadline)
  · exact .idle hDeadline

/- Every pass is one of the rules. -/
theorem select_selects
    (changes : NetworkChanges)
    (channel : Watch Instant)
    (now deadline : Instant) :
    Selects changes channel now deadline
      (changes.select channel now deadline).1
      (changes.select channel now deadline).2 := by
  unfold select
  split
  · rename_i hDeadline
    exact .deadline hDeadline
  · rename_i hDeadline
    rw [Nat.not_le] at hDeadline
    split
    · rename_i hEvents
      apply selectEarly_selects hDeadline
      simp [CaughtUp, hEvents]
    · rename_i seen hEvents
      unfold Watch.changed
      by_cases hUnread : seen ≠ channel.version
      · rw [if_pos hUnread]
        exact .change hDeadline hEvents hUnread
      · rw [if_neg hUnread]
        rw [not_not] at hUnread
        by_cases hClosed : channel.closed = true
        · rw [if_pos hClosed]
          exact .closed hDeadline hEvents hUnread hClosed
        · rw [if_neg hClosed]
          apply selectEarly_selects hDeadline
          intro seen' hEvents'
          rw [hEvents, Option.some.injEq] at hEvents'
          exact hEvents' ▸ hUnread

/-
  A poll makes at most three passes: a pass that asks for
  another one has read the channel or given it up.
-/
theorem select_again
    {changes after : NetworkChanges}
    {channel : Watch Instant}
    {now deadline : Instant}
    (hSelect :
      changes.select channel now deadline =
        (after, .again)) :
    (changes.events ≠ none ∧ after.events = none) ∨
      (changes.events ≠ some channel.version ∧
        changes.events ≠ none ∧
        after.events = some channel.version) := by
  have hRule := select_selects changes channel now deadline
  rw [hSelect] at hRule
  cases hRule with
  | change hDeadline hEvents hUnread =>
      refine Or.inr ⟨?_, ?_, rfl⟩
      · rw [hEvents]
        simpa using hUnread
      · simp [hEvents]
  | closed hDeadline hEvents hSeen hClosed =>
      exact Or.inl ⟨by simp [hEvents], rfl⟩

end NetworkChanges

end DevTunnel

end Sshdt

------------------------------------------------------------
-- Runs Of A Watcher
------------------------------------------------------------

namespace Sshdt

namespace DevTunnel

/-
  A watcher, its channel and the deadline of the running
  `wait_until`, if one runs.
-/
structure NetworkRun where
  now : Instant
  channel : Watch Instant
  changes : NetworkChanges
  wait : Option Instant

namespace NetworkRun

/-
  What can happen, each with its time. `closed` is the drop
  of the sender, and `pass` carries how the pass ends.
-/
inductive Event where
  | notify (now : Instant)
  | closed (now : Instant)
  | beginWait (now : Instant)
  | waitUntil (now deadline : Instant)
  | pass (now : Instant) (result : Pass)
  | cancel (now : Instant)
  deriving DecidableEq, Repr

/- The time of an event. -/
def Event.time :
    Event → Instant
| .notify now | .closed now | .beginWait now
| .waitUntil now _ | .pass now _ | .cancel now => now

/- What an event does, at a time that is not past. -/
def act
    (s : NetworkRun) :
    Event → Option NetworkRun
| .notify now =>
    -- The callback sends `Instant::now()`.
    if s.channel.closed then
      none
    else
      some
        { s with
          now, channel := s.channel.sendModify fun _ => now }
| .closed now =>
    some { s with now, channel := s.channel.close }
| .beginWait now =>
    match s.wait with
    | some _ => none
    | none =>
        some
          { s with
            now, changes := s.changes.beginWait s.channel }
| .waitUntil now deadline =>
    match s.wait with
    | some _ => none
    | none => some { s with now, wait := some deadline }
| .pass now result =>
    match s.wait with
    | none => none
    | some deadline =>
        match s.changes.select s.channel now deadline with
        | (changes, pass) =>
            if pass = result then
              some
                { s with
                  now, changes, wait := pass.wait deadline }
            else
              none
| .cancel now =>
    match s.wait with
    | none => none
    | some _ => some { s with now, wait := none }

/- One step. Time does not go back. -/
def step
    (s : NetworkRun)
    (e : Event) : Option NetworkRun :=
  if s.now ≤ e.time then s.act e else none

/-
  `NetworkChanges::new` at time `start`. Only Windows has a
  source of events.
-/
def machine
    (start : Instant)
    (hasSource : Bool) : Machine NetworkRun Event where
  init :=
    { now := start
      channel := Watch.channel start
      changes :=
        { events := if hasSource then some 0 else none
          pending := none
          nextAllowed := start }
      wait := none }
  step := step

end NetworkRun

end DevTunnel

end Sshdt

------------------------------------------------------------
-- Histories
------------------------------------------------------------

namespace Sshdt

namespace DevTunnel

namespace NetworkRun

/-
  The time of the latest notification, unless a `begin_wait`
  came after it.
-/
def latest
    (es : List Event) : Option Instant :=
  es.foldl
    (fun last e =>
      match e with
      | .notify now => some now
      | .beginWait _ => none
      | _ => last)
    none

/- The deadline of the `wait_until` that runs. -/
def running
    (es : List Event) : Option Instant :=
  es.foldl
    (fun deadline e =>
      match e with
      | .waitUntil _ deadline => some deadline
      | .pass _ (.done _) | .cancel _ => none
      | _ => deadline)
    none

/- An event that sends or discards a notification. -/
def Event.marks :
    Event → Bool
| .notify _ | .beginWait _ => true
| _ => false

theorem latest_of_not_marks
    {es : List Event}
    {e : Event}
    (hMarks : e.marks = false) :
    latest (es ++ [e]) = latest es := by
  unfold latest
  rw [List.foldl_append]
  cases e <;> first | rfl | cases hMarks

/- The latest notification, found in the history. -/
theorem latest_eq_some
    {es : List Event}
    {sent : Instant}
    (hLatest : latest es = some sent) :
    ∃ before after,
      es = before ++ .notify sent :: after ∧
        ∀ e ∈ after, e.marks = false := by
  induction es using List.reverseRecOn with
  | nil => cases hLatest
  | append_singleton es e ih =>
      cases hMarks : e.marks with
      | false =>
          rw [latest_of_not_marks hMarks] at hLatest
          rcases ih hLatest with ⟨before, after, rfl, hRest⟩
          refine ⟨before, after ++ [e], by simp, ?_⟩
          intro x hMem
          rw [List.mem_append, List.mem_singleton] at hMem
          rcases hMem with hOld | rfl
          · exact hRest x hOld
          · exact hMarks
      | true =>
          unfold latest at hLatest
          rw [List.foldl_append] at hLatest
          cases e with
          | notify now =>
              cases hLatest
              exact ⟨es, [], rfl, by simp⟩
          | beginWait now => cases hLatest
          | _ => cases hMarks

end NetworkRun

end DevTunnel

end Sshdt

------------------------------------------------------------
-- The Invariant
------------------------------------------------------------

namespace Sshdt

namespace DevTunnel

namespace NetworkRun

/-
  What ties the state to the history. A receiver that is
  behind has the latest notification before it, one that has
  caught up has it in `pending`, unless a retry or
  `begin_wait` took it. A watcher without a receiver misses
  nothing that counts: it never had one, or the sender is
  gone.
-/
structure Inv
    (es : List Event)
    (s : NetworkRun) : Prop where
  running : s.wait = running es
  seen :
    ∀ seen, s.changes.events = some seen →
      seen ≤ s.channel.version
  unread :
    ∀ seen, s.changes.events = some seen →
      seen ≠ s.channel.version →
        latest es = some s.channel.value
  settled :
    ∀ sent, s.changes.pending = some sent →
      s.changes.CaughtUp s.channel → latest es = some sent
  gone :
    s.changes.events = none →
      s.changes.pending = none ∨ s.channel.closed = true
  cooled :
    ∀ early, .pass early (.done true) ∈ es →
      early + earlyRetryInterval ≤ s.changes.nextAllowed

theorem init_inv
    (start : Instant)
    (hasSource : Bool) :
    Inv [] (machine start hasSource).init where
  running := rfl
  seen := by
    intro seen hEvents
    cases hasSource <;> simp [machine] at hEvents
    simp [← hEvents]
  unread := by
    intro seen hEvents hBehind
    cases hasSource <;> simp [machine] at hEvents
    simp [← hEvents, machine, Watch.channel] at hBehind
  settled := by simp [machine]
  gone := fun _ => Or.inl rfl
  cooled := by simp

/- An event that leaves the watcher and the channel alone. -/
theorem Inv.quiet
    {es : List Event}
    {s : NetworkRun}
    {e : Event}
    {now : Instant}
    {wait : Option Instant}
    (hInv : Inv es s)
    (hMarks : e.marks = false)
    (hEarly : ∀ early, e ≠ .pass early (.done true))
    (hRunning :
      wait = NetworkRun.running (es ++ [e])) :
    Inv (es ++ [e]) { s with now, wait } where
  running := hRunning
  seen := hInv.seen
  unread := by
    rw [latest_of_not_marks hMarks]
    exact hInv.unread
  settled := by
    rw [latest_of_not_marks hMarks]
    exact hInv.settled
  gone := hInv.gone
  cooled := by
    intro early hMem
    rw [List.mem_append, List.mem_singleton] at hMem
    rcases hMem with hOld | hNew
    · exact hInv.cooled early hOld
    · exact absurd hNew.symm (hEarly early)

/- A pass of the loop, as the rule it follows. -/
theorem act_pass
    {s t : NetworkRun}
    {now : Instant}
    {result : Pass}
    (hAct : s.act (.pass now result) = some t) :
    ∃ deadline changes,
      s.wait = some deadline ∧
        NetworkChanges.Selects s.changes s.channel now
          deadline changes result ∧
        t =
          { s with
            now, changes, wait := result.wait deadline } := by
  simp only [act] at hAct
  split at hAct <;> [cases hAct; rename_i deadline hWait]
  have hRule :=
    NetworkChanges.select_selects s.changes s.channel now
      deadline
  rcases hSelect :
    s.changes.select s.channel now deadline with
    ⟨changes, pass⟩
  simp only [hSelect] at hAct hRule
  split at hAct <;> [rename_i hPass; cases hAct]
  cases hAct
  subst hPass
  exact ⟨deadline, changes, hWait, hRule, rfl⟩

/- The deadline of the running wait after a pass. -/
theorem running_pass
    {es : List Event}
    {now deadline : Instant}
    {result : Pass}
    (hRunning : running es = some deadline) :
    result.wait deadline =
      running (es ++ [.pass now result]) := by
  unfold running at hRunning ⊢
  rw [List.foldl_append, hRunning]
  cases result <;> rfl

/- The invariant after a pass. -/
theorem pass_inv
    {es : List Event}
    {s t : NetworkRun}
    {now : Instant}
    {result : Pass}
    (hInv : Inv es s)
    (hAct : s.act (.pass now result) = some t) :
    Inv (es ++ [.pass now result]) t := by
  rcases act_pass hAct with
    ⟨deadline, changes, hWait, hRule, rfl⟩
  have hRunning :=
    @running_pass es now deadline result
      (hInv.running ▸ hWait)
  have hLatest :
      latest (es ++ [.pass now result]) = latest es :=
    latest_of_not_marks rfl
  have hCooled :
      result ≠ .done true → ∀ early,
        .pass early (.done true) ∈ es ++ [.pass now result] →
          early + earlyRetryInterval ≤
            s.changes.nextAllowed := by
    intro hLate early hMem
    rw [List.mem_append, List.mem_singleton] at hMem
    rcases hMem with hOld | hNew
    · exact hInv.cooled early hOld
    · cases hNew
      exact absurd rfl hLate
  cases hRule with
  | deadline hDeadline =>
      exact hInv.quiet rfl (by simp) hRunning
  | idle hDeadline =>
      exact hInv.quiet rfl (by simp) hRunning
  | change hDeadline hEvents hUnread =>
      refine
        { running := hRunning, seen := ?_, unread := ?_,
          settled := ?_, gone := by simp,
          cooled := hCooled (by simp) }
      · rintro seen ⟨⟩
        exact Nat.le_refl _
      · rintro seen ⟨⟩ hBehind
        exact absurd rfl hBehind
      · rintro sent ⟨⟩ _
        rw [hLatest]
        exact hInv.unread _ hEvents hUnread
  | closed hDeadline hEvents hSeen hClosed =>
      refine
        { running := hRunning, seen := by simp,
          unread := by simp, settled := ?_,
          gone := fun _ => Or.inr hClosed,
          cooled := hCooled (by simp) }
      intro sent hPending _
      rw [hLatest]
      apply hInv.settled sent hPending
      intro seen hEvents'
      rw [hEvents, Option.some.injEq] at hEvents'
      exact hEvents' ▸ hSeen
  | early hDeadline hCaughtUp hPending hSettled hAllowed =>
      refine
        { running := hRunning, seen := hInv.seen,
          unread := ?_, settled := by simp,
          gone := fun _ => Or.inl rfl, cooled := ?_ }
      · intro seen hEvents hBehind
        exact absurd (hCaughtUp seen hEvents) hBehind
      · intro early hMem
        rw [List.mem_append, List.mem_singleton] at hMem
        rcases hMem with hOld | hNew
        · have hBefore := hInv.cooled early hOld
          exact Nat.le_trans (Nat.le_trans hBefore hAllowed)
            (Nat.le_add_right _ _)
        · cases hNew
          exact Nat.le_refl _

/- Every event keeps the invariant. -/
theorem step_inv
    {es : List Event}
    {s t : NetworkRun}
    {e : Event}
    (hInv : Inv es s)
    (hStep : s.step e = some t) :
    Inv (es ++ [e]) t := by
  unfold step at hStep
  split at hStep <;> [rename_i hTime; cases hStep]
  cases e with
  | notify now =>
      simp only [act] at hStep
      split at hStep <;> [cases hStep; rename_i hOpen]
      cases hStep
      have hBehind :
          ∀ seen, s.changes.events = some seen →
            seen ≠ s.channel.version + 1 := by
        intro seen hEvents
        have hSeen := hInv.seen seen hEvents
        omega
      refine
        { running := ?_, seen := ?_, unread := ?_,
          settled := ?_, gone := hInv.gone, cooled := ?_ }
      · simp [hInv.running, running]
      · intro seen hEvents
        exact Nat.le_succ_of_le (hInv.seen seen hEvents)
      · intro seen _ _
        simp [latest, Watch.sendModify]
      · intro sent hPending hCaughtUp
        cases hEvents : s.changes.events with
        | none =>
            rcases hInv.gone hEvents with hNone | hClosed
            · simp [hNone] at hPending
            · exact absurd hClosed hOpen
        | some seen =>
            exact absurd (hCaughtUp seen hEvents)
              (hBehind seen hEvents)
      · simpa using hInv.cooled
  | closed now =>
      simp only [act, Option.some.injEq] at hStep
      subst hStep
      have hSame :=
        @Inv.quiet es s (.closed now) now s.wait hInv rfl
          (by simp) (by simp [hInv.running, running])
      exact
        { running := hSame.running, seen := hSame.seen,
          unread := hSame.unread, settled := hSame.settled,
          gone := fun _ => Or.inr rfl,
          cooled := hSame.cooled }
  | beginWait now =>
      simp only [act] at hStep
      split at hStep <;> [cases hStep; rename_i hIdle]
      cases hStep
      refine
        { running := ?_, seen := ?_, unread := ?_,
          settled := by simp [NetworkChanges.beginWait],
          gone := fun _ => Or.inl rfl, cooled := ?_ }
      · simp [hInv.running, running]
      · intro seen hEvents
        simp only [NetworkChanges.beginWait,
          Option.map_eq_some_iff] at hEvents
        rcases hEvents with ⟨_, _, rfl⟩
        exact Nat.le_refl _
      · intro seen hEvents hBehind
        simp only [NetworkChanges.beginWait,
          Option.map_eq_some_iff] at hEvents
        rcases hEvents with ⟨_, _, rfl⟩
        exact absurd rfl hBehind
      · simpa [NetworkChanges.beginWait] using hInv.cooled
  | waitUntil now deadline =>
      simp only [act] at hStep
      split at hStep <;> [cases hStep; rename_i hIdle]
      cases hStep
      exact hInv.quiet rfl (by simp) (by simp [running])
  | pass now result => exact pass_inv hInv hStep
  | cancel now =>
      simp only [act] at hStep
      split at hStep <;> [cases hStep; rename_i hIdle]
      cases hStep
      exact hInv.quiet rfl (by simp) (by simp [running])

end NetworkRun

end DevTunnel

end Sshdt

------------------------------------------------------------
-- Debounce And Cooldown
------------------------------------------------------------

namespace Sshdt

namespace DevTunnel

namespace NetworkRun

/- The state of a run fits its history. -/
theorem exec_inv
    {start : Instant}
    {hasSource : Bool}
    {es : List Event}
    {s : NetworkRun}
    (hRun :
      (machine start hasSource).exec
          (machine start hasSource).init es =
        some s) :
    Inv es s := by
  apply Machine.exec_history hRun (init_inv start hasSource)
  intro es s e t _ hInv hNext
  exact step_inv hInv hNext

/- The state before an event of a run fits its history. -/
theorem exec_split
    {start : Instant}
    {hasSource : Bool}
    {pre post : List Event}
    {e : Event}
    {s : NetworkRun}
    (hRun :
      (machine start hasSource).exec
          (machine start hasSource).init
          (pre ++ e :: post) =
        some s) :
    ∃ u v, Inv pre u ∧ u.step e = some v := by
  rcases Machine.exec_append.mp hRun with ⟨u, hPre, hRest⟩
  rcases Machine.exec_cons.mp hRest with ⟨v, hStep, _⟩
  exact ⟨u, v, exec_inv hPre, hStep⟩

/- A pass of a run, as the rule it follows. -/
theorem exec_pass
    {start : Instant}
    {hasSource : Bool}
    {pre post : List Event}
    {now : Instant}
    {result : Pass}
    {s : NetworkRun}
    (hRun :
      (machine start hasSource).exec
          (machine start hasSource).init
          (pre ++ .pass now result :: post) =
        some s) :
    ∃ u deadline changes,
      Inv pre u ∧ running pre = some deadline ∧
        NetworkChanges.Selects u.changes u.channel now
          deadline changes result := by
  rcases exec_split hRun with ⟨u, v, hInv, hStep⟩
  unfold step at hStep
  split at hStep <;> [skip; cases hStep]
  rcases act_pass hStep with
    ⟨deadline, changes, hWait, hRule, _⟩
  exact ⟨u, deadline, changes, hInv, hInv.running ▸ hWait,
    hRule⟩

/-
  Early retries are debounced and rate limited.

  In every history of notifications, `begin_wait` calls,
  waits, cancellations and polls, a wait that returns true
  does so before its deadline, at least the settle time
  after the latest notification, which no `begin_wait`
  discarded, and at least the interval after every earlier
  such return. A wait polled at its deadline or later
  returns false.
-/
theorem early_retries_limited
    {start : Instant}
    {hasSource : Bool}
    {es : List Event}
    {s : NetworkRun}
    (hRun :
      (machine start hasSource).exec
          (machine start hasSource).init es =
        some s) :
    (∀ pre post now,
      es = pre ++ .pass now (.done true) :: post →
        (∃ deadline, running pre = some deadline ∧
          now < deadline) ∧
        (∃ before sent after,
          pre = before ++ .notify sent :: after ∧
            (∀ e ∈ after, e.marks = false) ∧
            sent + Duration.fromSecs 2 ≤ now) ∧
        ∀ early, .pass early (.done true) ∈ pre →
          early + Duration.fromSecs 30 ≤ now) ∧
    (∀ pre post now result deadline,
      es = pre ++ .pass now result :: post →
        running pre = some deadline → deadline ≤ now →
          result = .done false) ∧
    (∀ now deadline, running es = some deadline →
      s.now ≤ now → deadline ≤ now →
        (s.step (.pass now (.done false))).isSome) := by
  refine ⟨?_, ?_, ?_⟩
  · rintro pre post now rfl
    rcases exec_pass hRun with
      ⟨u, deadline, changes, hInv, hRunning, hRule⟩
    cases hRule with
    | early hDeadline hCaughtUp hPending hSettled hAllowed =>
        have hLatest := hInv.settled _ hPending hCaughtUp
        rcases latest_eq_some hLatest with
          ⟨before, after, hSplit, hRest⟩
        refine ⟨⟨deadline, hRunning, hDeadline⟩,
          ⟨before, _, after, hSplit, hRest, hSettled⟩, ?_⟩
        intro early hMem
        exact Nat.le_trans (hInv.cooled early hMem) hAllowed
  · rintro pre post now result deadline rfl hRunning hLate
    rcases exec_pass hRun with
      ⟨u, deadline', changes, hInv, hRunning', hRule⟩
    rw [hRunning, Option.some.injEq] at hRunning'
    subst hRunning'
    cases hRule with
    | deadline => rfl
    | change hBefore | closed hBefore | early hBefore
    | idle hBefore =>
        exact absurd hLate (Nat.not_le.mpr hBefore)
  · intro now deadline hRunning hNow hLate
    rw [← (exec_inv hRun).running] at hRunning
    simp [step, Event.time, hNow, act, hRunning,
      NetworkChanges.select, hLate]

/-
  A change during a wait, read by a wait that is cancelled
  and returned by the next one.
-/
def cancelledRun : List Event :=
  [.beginWait 0, .notify 0,
    .waitUntil 0 (Duration.fromSecs 60),
    .pass 0 .again, .pass 0 .pending, .cancel 0,
    .waitUntil (Duration.fromSecs 1) (Duration.fromSecs 60),
    .pass (Duration.fromSecs 1) .pending,
    .pass (Duration.fromSecs 2) (.done true)]

theorem cancelledRun_limited :
    ∃ s,
      (machine 0 true).exec (machine 0 true).init
          cancelledRun =
        some s ∧
      ∃ before sent after,
        cancelledRun.dropLast =
            before ++ .notify sent :: after ∧
          (∀ e ∈ after, e.marks = false) ∧
          sent + Duration.fromSecs 2 ≤
            Duration.fromSecs 2 := by
  have hSome :
      ((machine 0 true).exec (machine 0 true).init
        cancelledRun).isSome = true := by
    decide
  have hRun := Option.some_get hSome
  refine ⟨_, hRun.symm, ?_⟩
  rcases early_retries_limited hRun.symm with ⟨hEarly, _⟩
  exact (hEarly cancelledRun.dropLast []
    (Duration.fromSecs 2) rfl).2.1

end NetworkRun

end DevTunnel

end Sshdt
