import Sshdt.DevTunnel.Serve
import Sshdt.Lib.Watch

/-
  How a session of the tunnel manager follows the forwarding
  state (`serve` in `src/devtunnel/client.rs`).

  The state is a watch channel. A session reads it with
  `borrow` and waits for it with `changed`, in the loop that
  opens the destination, in the monitor next to the
  connection attempt and in the monitor of the established
  stream. Each read and each completed wait is a step of its
  own, and the broker may publish between any two of them.

  Key definitions include:
    * `Monitor`
    * `Follower`
    * `Follower.step`
    * `Follower.Blocked`

  Key theorems include:
    * `Follower.step_inv`
    * `Follower.no_lost_publication`
-/

------------------------------------------------------------
-- A Session And The Watched State
------------------------------------------------------------

namespace Sshdt

namespace DevTunnel

/-
  Where the loop of a generation monitor stands: before its
  two reads, or at its `changed`.
-/
inductive Monitor where
  | readError
  | readGeneration
  | waiting
  deriving DecidableEq, Repr

/- Where `serve` stands, as far as it uses the state. -/
inductive FollowerPhase where
  | receiving
  | snapshot
  | waiting
  | connecting (generation : Nat) (monitor : Monitor)
  | connected (generation : Nat)
  | sleeping
  | responding (generation : Nat)
  | established (generation : Nat) (monitor : Monitor)
  | closed
  deriving DecidableEq, Repr

/- A session with its receiver, and the channel. -/
structure Follower where
  channel : Watch Forwarding
  seen : Nat
  phase : FollowerPhase

namespace Follower

inductive Event where
  | update (u : Update)
  | brokerEnds
  | opens
  | borrow
  | changed
  | monitor
  | connects (ok : Bool)
  | compare
  | wakes
  | responds (ok : Bool)
  | copied
  | peerCloses
  deriving DecidableEq, Repr

/- A session that is accepted gets a fresh receiver. -/
def initial : Follower where
  channel := .channel Forwarding.default
  seen := 0
  phase := .receiving

/- The outcome of one step of a generation monitor. -/
inductive MonitorStep where
  | goes (seen : Nat) (monitor : Monitor)
  | breaks
  | pending

/-
  One step of the loop
  `if error or generation changed, break; changed().await`.
-/
def monitorStep
    (s : Follower)
    (generation : Nat) : Monitor → MonitorStep
  | .readError =>
      if s.channel.value.error.isSome then
        .breaks
      else
        .goes s.seen .readGeneration
  | .readGeneration =>
      if s.channel.value.generation ≠ generation then
        .breaks
      else
        .goes s.seen .waiting
  | .waiting =>
      match s.channel.changed s.seen with
      | .ready seen => .goes seen .readError
      | .closed => .breaks
      | .pending => .pending

/- The snapshot at the head of the opening loop. -/
def takeSnapshot
    (port : UInt16)
    (s : Follower) : FollowerPhase :=
  let snapshot := s.channel.value
  if snapshot.error.isSome then
    .closed
  else if (snapshot.ports[port]?).isSome then
    .connecting snapshot.generation .readError
  else
    .waiting

/- One step of the session for a remote port. -/
def step
    (port : UInt16)
    (s : Follower) : Event → Option Follower
  | .update u =>
      if s.channel.closed then
        none
      else
        some { s with
          channel := s.channel.sendModify (·.apply u) }
  | .brokerEnds =>
      some { s with channel := s.channel.close }
  | .opens =>
      match s.phase with
      | .receiving => some { s with phase := .snapshot }
      | _ => none
  | .borrow =>
      match s.phase with
      | .snapshot =>
          some { s with phase := s.takeSnapshot port }
      | _ => none
  | .changed =>
      match s.phase, s.channel.changed s.seen with
      | .waiting, .ready seen =>
          some { s with seen, phase := .snapshot }
      | .waiting, .closed => some { s with phase := .closed }
      | _, _ => none
  | .monitor =>
      match s.phase with
      | .connecting generation monitor =>
          match s.monitorStep generation monitor with
          | .goes seen monitor =>
              some { s with
                seen
                phase := .connecting generation monitor }
          | .breaks => some { s with phase := .sleeping }
          | .pending => none
      | .established generation monitor =>
          match s.monitorStep generation monitor with
          | .goes seen monitor =>
              some { s with
                seen
                phase := .established generation monitor }
          | .breaks => some { s with phase := .closed }
          | .pending => none
      | _ => none
  -- The attempt ends and drops the monitor where it stands.
  | .connects ok =>
      match s.phase with
      | .connecting generation _ =>
          if ok then
            some { s with phase := .connected generation }
          else
            some { s with phase := .sleeping }
      | _ => none
  | .compare =>
      match s.phase with
      | .connected generation =>
          if s.channel.value.generation = generation then
            some { s with phase := .responding generation }
          else
            some { s with phase := .sleeping }
      | _ => none
  | .wakes =>
      match s.phase with
      | .sleeping => some { s with phase := .snapshot }
      | _ => none
  | .responds ok =>
      match s.phase with
      | .responding generation =>
          if ok then
            some { s with
              phase := .established generation .readError }
          else
            some { s with phase := .closed }
      | _ => none
  | .copied =>
      match s.phase with
      | .established _ _ => some { s with phase := .closed }
      | _ => none
  -- The client writes or hangs up while the loop runs.
  | .peerCloses =>
      match s.phase with
      | .established _ _ | .responding _ => none
      | _ => some { s with phase := .closed }

/- A session for a remote port, next to the broker. -/
def machine
    (port : UInt16) : Machine Follower Event where
  init := initial
  step := step port

/- No version and no end of the broker will wake the wait. -/
def Blocked
    (s : Follower) : Prop :=
  s.channel.changed s.seen = .pending

end Follower

end DevTunnel

end Sshdt

------------------------------------------------------------
-- What A Waiting Session Knows
------------------------------------------------------------

namespace Sshdt

namespace DevTunnel

namespace Follower

/- What a phase that waits has read, if it is still current. -/
def Knows
    (port : UInt16)
    (s : Follower) : Prop :=
  match s.phase with
  | .waiting =>
      s.channel.Sees s.seen fun state =>
        state.ports[port]? = none
  | .connecting generation .waiting
  | .established generation .waiting =>
      s.channel.Sees s.seen fun state =>
        state.generation = generation
  | _ => True

/- The receiver is never ahead, and what it knows holds. -/
structure Inv
    (port : UInt16)
    (s : Follower) : Prop where
  seen_le : s.seen ≤ s.channel.version
  knows : s.Knows port

theorem takeSnapshot_knows
    (port : UInt16)
    (s : Follower) :
    ({ s with phase := s.takeSnapshot port } : Follower).Knows
      port := by
  unfold takeSnapshot
  by_cases hError : s.channel.value.error.isSome = true
  · simp [Knows, hError]
  · cases hPort : s.channel.value.ports[port]? with
    | some address =>
        simp only [Knows, hError, hPort, Option.isSome_some,
          if_true, Bool.false_eq_true, if_false]
    | none =>
        simp only [Knows, hError, hPort, Option.isSome_none,
          Bool.false_eq_true, if_false]
        intro _
        exact hPort

/- A monitor that goes on to wait has read the generation. -/
theorem monitorStep_knows
    {s : Follower}
    {generation seen : Nat}
    {monitor monitor' : Monitor}
    (hSeen : s.seen ≤ s.channel.version)
    (hStep :
      s.monitorStep generation monitor =
        .goes seen monitor') :
    seen ≤ s.channel.version ∧
      (monitor' = .waiting →
        s.channel.Sees seen fun state =>
          state.generation = generation) := by
  cases monitor with
  | readError =>
      simp only [monitorStep] at hStep
      split at hStep <;> cases hStep
      refine ⟨hSeen, ?_⟩
      intro hWaiting
      cases hWaiting
  | readGeneration =>
      simp only [monitorStep] at hStep
      split at hStep <;> cases hStep
      rename_i hSame
      refine ⟨hSeen, ?_⟩
      intro _
      exact Watch.Sees.of_value (by simpa using hSame)
  | waiting =>
      simp only [monitorStep] at hStep
      split at hStep <;> cases hStep
      rename_i hChanged
      refine ⟨(Watch.seen_of_changed hChanged).le, ?_⟩
      intro hWaiting
      cases hWaiting

theorem knows_update
    {port : UInt16}
    {s : Follower}
    (hSeen : s.seen ≤ s.channel.version)
    (u : Update) :
    ({ s with
      channel :=
        s.channel.sendModify (·.apply u) } : Follower).Knows
      port := by
  have hSees :
      ∀ P : Forwarding → Prop,
        (s.channel.sendModify (·.apply u)).Sees s.seen P :=
    fun P => Watch.Sees.sendModify hSeen _
  unfold Knows
  split
  · exact hSees _
  · exact hSees _
  · exact hSees _
  · trivial

theorem step_inv
    {port : UInt16}
    {s t : Follower}
    {e : Event}
    (hInv : s.Inv port)
    (hStep : s.step port e = some t) :
    t.Inv port := by
  cases e with
  | update u =>
      simp only [step] at hStep
      split at hStep <;> cases hStep
      refine ⟨?_, knows_update hInv.seen_le u⟩
      exact Nat.le_succ_of_le hInv.seen_le
  | brokerEnds =>
      cases hStep
      exact ⟨hInv.seen_le, hInv.knows⟩
  | opens =>
      simp only [step] at hStep
      split at hStep <;> cases hStep
      exact ⟨hInv.seen_le, trivial⟩
  | borrow =>
      simp only [step] at hStep
      split at hStep <;> cases hStep
      exact ⟨hInv.seen_le, takeSnapshot_knows port s⟩
  | changed =>
      simp only [step] at hStep
      split at hStep <;> cases hStep
      · rename_i hChanged
        exact ⟨(Watch.seen_of_changed hChanged).le, trivial⟩
      · exact ⟨hInv.seen_le, trivial⟩
  | monitor =>
      simp only [step] at hStep
      split at hStep
      · split at hStep <;> cases hStep
        · rename_i hMonitor
          rcases monitorStep_knows hInv.seen_le hMonitor with
            ⟨hSeen, hKnows⟩
          refine ⟨hSeen, ?_⟩
          unfold Knows
          split <;> simp_all
        · exact ⟨hInv.seen_le, trivial⟩
      · split at hStep <;> cases hStep
        · rename_i hMonitor
          rcases monitorStep_knows hInv.seen_le hMonitor with
            ⟨hSeen, hKnows⟩
          refine ⟨hSeen, ?_⟩
          unfold Knows
          split <;> simp_all
        · exact ⟨hInv.seen_le, trivial⟩
      · cases hStep
  | connects ok =>
      simp only [step] at hStep
      split at hStep
      · split at hStep <;> cases hStep
        · exact ⟨hInv.seen_le, trivial⟩
        · exact ⟨hInv.seen_le, trivial⟩
      · cases hStep
  | compare =>
      simp only [step] at hStep
      split at hStep
      · split at hStep <;> cases hStep
        · exact ⟨hInv.seen_le, trivial⟩
        · exact ⟨hInv.seen_le, trivial⟩
      · cases hStep
  | wakes =>
      simp only [step] at hStep
      split at hStep <;> cases hStep
      exact ⟨hInv.seen_le, trivial⟩
  | responds ok =>
      simp only [step] at hStep
      split at hStep
      · split at hStep <;> cases hStep
        · exact ⟨hInv.seen_le, trivial⟩
        · exact ⟨hInv.seen_le, trivial⟩
      · cases hStep
  | copied =>
      simp only [step] at hStep
      split at hStep <;> cases hStep
      exact ⟨hInv.seen_le, trivial⟩
  | peerCloses =>
      simp only [step] at hStep
      split at hStep <;> cases hStep
      exact ⟨hInv.seen_le, trivial⟩

theorem reachable_inv
    {port : UInt16}
    {s : Follower}
    (hReach : (machine port).Reachable s) :
    s.Inv port := by
  apply hReach.invariant
  · exact ⟨Nat.le_refl 0, trivial⟩
  · intro s e t hInv _ hStep
    exact step_inv hInv hStep

/-
  No session waits for a port that the table maps, and no
  established session watches a generation that is over,
  with nothing left to wake it.
-/
theorem no_lost_publication
    (port : UInt16)
    {s : Follower}
    (hReach : (machine port).Reachable s) :
    ¬ (s.phase = .waiting ∧ s.Blocked ∧
        port ∈ s.channel.value.ports) ∧
      ¬ ∃ generation,
        s.phase = .established generation .waiting ∧
          s.Blocked ∧
          s.channel.value.generation ≠ generation := by
  have hKnows := (reachable_inv hReach).knows
  constructor
  · rintro ⟨hPhase, hBlocked, hPort⟩
    simp only [Knows, hPhase] at hKnows
    have hNone := hKnows.of_pending hBlocked
    rw [Std.TreeMap.mem_iff_isSome_getElem?, hNone] at hPort
    cases hPort
  · rintro ⟨generation, hPhase, hBlocked, hOther⟩
    simp only [Knows, hPhase] at hKnows
    exact hOther (hKnows.of_pending hBlocked)

/-
  A session that waits for its port, is woken by the
  publication and watches the established stream.
-/
def followRun : List Event :=
  [.opens, .borrow,
    .update (.publish (.v4 0x7f000001 2223) 2222),
    .changed, .borrow, .connects true, .compare,
    .responds true, .monitor, .monitor]

theorem followRun_executes :
    ((machine 2222).exec (machine 2222).init
      followRun).isSome = true := by
  decide

/- The run ends in a wait that nothing is left to wake. -/
theorem followRun_current :
    ((machine 2222).final followRun
        followRun_executes).phase =
        .established 0 .waiting ∧
      ((machine 2222).final followRun
        followRun_executes).Blocked ∧
      ¬ ∃ generation,
        ((machine 2222).final followRun
            followRun_executes).phase =
            .established generation .waiting ∧
          ((machine 2222).final followRun
            followRun_executes).Blocked ∧
          ((machine 2222).final followRun
            followRun_executes).channel.value.generation ≠
              generation :=
  ⟨by decide, by unfold Blocked; decide,
    (no_lost_publication 2222
      (Machine.reachable_final followRun
        followRun_executes)).2⟩

end Follower

end DevTunnel

end Sshdt
