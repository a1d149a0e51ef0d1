import Sshdt.Lib.Duplex
import Sshdt.Server.Pipes

/-
  The streams of a forward (`run_direct_tcpip` in
  `src/forward.rs`).

  The task connects to the target. Where that fails it ends
  the channel; otherwise it copies between the channel and
  the target in both directions, until both have ended or
  one has failed. It then drops both streams: the target
  reads the end of its data, and the channel is closed. The
  client may send before the target is connected. What is
  dialed is modelled elsewhere.

  Key definitions include:
    * `ForwardTask`
    * `ForwardTask.step`
    * `ForwardTask.Inv`
    * `ForwardTask.Faithful`
    * `ForwardTask.work`

  Key theorems include:
    * `ForwardTask.step_inv`
    * `ForwardTask.forward_streams_faithful`
    * `ForwardTask.forward_ends`
-/

------------------------------------------------------------
-- Tasks And Their Steps
------------------------------------------------------------

namespace Sshdt

/- The messages of a forward whose target is not reached. -/
def refusalMessages : List Reply :=
  [.eof, .close]

/- Where the task is; one that returned has no stream. -/
inductive ForwardPhase where
  | connecting
  | refused (sent : Nat)
  | copying
  | returned
  deriving DecidableEq, Repr

/- There is a target. -/
def ForwardPhase.connected : ForwardPhase → Bool
| .connecting | .refused _ => false
| .copying | .returned => true

/-
  A forward. There is from the client to the target, and
  back is from the target to the client.
-/
structure ForwardTask where
  phase : ForwardPhase
  relay : Duplex UInt8
  sent : List ChannelMessage

namespace ForwardTask

/-
  What happens in a forward. `refuses` sends the next message
  of a forward without target, and `returns` drops both
  streams, which closes the channel. The client may be gone
  before either is delivered.
-/
inductive Event where
  | connects (succeeds : Bool)
  | refuses (delivered : Bool)
  | relay (step : DuplexStep UInt8)
  | returns (delivered : Bool)

/- A forward whose target is being connected. -/
def initial : ForwardTask where
  phase := .connecting
  relay := .start
  sent := []

/- The messages that a step of the copy sends. -/
def messages
    (t : ForwardTask) :
    DuplexStep UInt8 → List ChannelMessage
| .pump .back e =>
    PipeSession.carry .data ((t.relay.pump .back).output e)
| .shutdown .back true => [.closing .eof]
| _ => []

/- The step is one of the two ends of the copy. -/
def outside : DuplexStep UInt8 → Bool
| .pump _ e => !e.own
| _ => false

/- One step of `run_direct_tcpip` or of what surrounds it. -/
def step
    (t : ForwardTask) : Event → Option ForwardTask
| .connects succeeds =>
    if t.phase = .connecting then
      some
        { t with
          phase := if succeeds then .copying else .refused 0 }
    else
      none
| .refuses delivered =>
    match t.phase with
    | .refused sent =>
        match refusalMessages[sent]? with
        | some reply =>
            some
              { t with
                phase := .refused (sent + 1)
                sent := t.sent ++
                  if delivered then [.closing reply] else [] }
        | none => none
    | _ => none
| .relay e =>
    if outside e = true ∨ t.phase = .copying then
      (t.relay.step copyBufferSize e).map fun relay =>
        { t with relay, sent := t.sent ++ t.messages e }
    else
      none
| .returns delivered =>
    if t.phase = .copying ∧ t.relay.state ≠ .running then
      some
        { t with
          phase := .returned
          sent := t.sent ++
            if delivered then [.closing .close] else [] }
    else
      none

/- The runs of a forward. -/
def machine : Machine ForwardTask Event where
  init := initial
  step := step

end ForwardTask

end Sshdt

------------------------------------------------------------
-- Invariant
------------------------------------------------------------

namespace Sshdt

namespace ForwardTask

open ChannelMessage

variable {t u : ForwardTask}

/- The closing message that the copy has sent, if any. -/
def copyClosing
    (relay : Duplex UInt8) : List Reply :=
  if relay.shut .back then [.eof] else []

/- The closing messages that the client can have got. -/
def ClosingFits
    (t : ForwardTask)
    (closing : List Reply) : Prop :=
  match t.phase with
  | .connecting => closing = []
  | .refused sent =>
      closing.Sublist (refusalMessages.take sent)
  | .copying => closing = copyClosing t.relay
  | .returned =>
      closing = copyClosing t.relay ∨
        closing = copyClosing t.relay ++ [.close]

/-
  Nothing is copied without a target, and a task returns
  after its copy only.
-/
structure Inv
    (t : ForwardTask) : Prop where
  relay : t.relay.Inv
  idle :
    t.phase.connected = false →
      ∀ way, (t.relay.pump way).delivered = [] ∧
        t.relay.shut way = false
  returned : t.phase = .returned → t.relay.state ≠ .running
  refused :
    ∀ n, t.phase = .refused n → n ≤ refusalMessages.length
  sent :
    ∃ closing,
      Transcript t.sent (t.relay.pump .back).delivered []
          closing ∧
        t.ClosingFits closing

theorem initial_inv : initial.Inv where
  relay := Duplex.start_inv
  idle := fun _ _ => ⟨rfl, rfl⟩
  returned := nofun
  refused := nofun
  sent := ⟨[], .nil, rfl⟩

theorem connects_inv
    {succeeds : Bool}
    (hInv : t.Inv)
    (hStep : t.step (.connects succeeds) = some u) :
    u.Inv := by
  simp only [step] at hStep
  split at hStep <;> [rename_i hPhase; cases hStep]
  cases hStep
  have hIdle := hInv.idle (by rw [hPhase]; rfl)
  rcases hInv.sent with ⟨closing, hSent, hFits⟩
  rw [ClosingFits, hPhase] at hFits
  cases succeeds with
  | true =>
      exact
        { relay := hInv.relay, idle := fun _ => hIdle
          returned := nofun, refused := nofun
          sent := ⟨closing, hSent, by
            simp [ClosingFits, copyClosing, hFits,
              (hIdle .back).2]⟩ }
  | false =>
      exact
        { relay := hInv.relay, idle := fun _ => hIdle
          returned := nofun
          refused := fun n hRefused => by
            cases hRefused
            exact Nat.zero_le _
          sent := ⟨closing, hSent, by
            simp [ClosingFits, hFits]⟩ }

theorem refuses_inv
    {delivered : Bool}
    (hInv : t.Inv)
    (hStep : t.step (.refuses delivered) = some u) :
    u.Inv := by
  simp only [step] at hStep
  split at hStep <;> [rename_i sent hPhase; cases hStep]
  split at hStep <;> [rename_i reply hReply; cases hStep]
  cases hStep
  rcases hInv.sent with ⟨closing, hSent, hFits⟩
  rw [ClosingFits, hPhase] at hFits
  have hTake :
      refusalMessages.take (sent + 1) =
        refusalMessages.take sent ++ [reply] := by
    rw [List.take_add_one, hReply]
    rfl
  refine
    { relay := hInv.relay
      idle := fun _ => hInv.idle (by rw [hPhase]; rfl)
      returned := nofun
      refused := fun n hRefused => ?_
      sent := ?_ }
  · cases hRefused
    exact (List.getElem?_eq_some_iff.mp hReply).1
  cases delivered with
  | true =>
      refine ⟨closing ++ [reply], hSent.close reply, ?_⟩
      simp only [ClosingFits, hTake]
      exact hFits.append_right [reply]
  | false =>
      simp only [Bool.false_eq_true, if_false,
        List.append_nil]
      refine ⟨closing, hSent, ?_⟩
      simp only [ClosingFits, hTake]
      exact hFits.trans (List.sublist_append_left _ _)

theorem own_of_outside
    {e : DuplexStep UInt8}
    (hOutside : outside e = true) :
    e.own = false := by
  cases e with
  | pump way e =>
      simpa [outside, DuplexStep.own] using hOutside
  | _ => cases hOutside

/- A step before the target is there only fills a source. -/
theorem outside_idle
    {e : DuplexStep UInt8}
    {relay : Duplex UInt8}
    (hOutside : outside e = true)
    (hStep : t.relay.step copyBufferSize e = some relay) :
    relay.shut = t.relay.shut ∧ t.messages e = [] ∧
      ∀ way, (relay.pump way).delivered =
        (t.relay.pump way).delivered := by
  cases e with
  | pump way e =>
      have hForeign : e.own = false :=
        own_of_outside hOutside
      simp only [Duplex.step] at hStep
      split at hStep <;> [cases hStep; skip]
      rcases Option.map_eq_some_iff.mp hStep with
        ⟨pump, hPump, rfl⟩
      have hSame := Pump.step_delivered hPump
      rw [Pump.output_foreign _ hForeign,
        List.append_nil] at hSame
      refine ⟨rfl, ?_, fun w => ?_⟩
      · cases way with
        | there => rfl
        | back =>
            simp [messages, Pump.output_foreign _ hForeign,
              PipeSession.carry]
      · change (Function.update t.relay.pump way pump
          w).delivered = _
        by_cases hWay : w = way
        · rw [hWay, Function.update_self, hSame]
        · rw [Function.update_of_ne hWay]
  | _ => cases hOutside

/- What a step of the copy sends, and what it delivers. -/
theorem copying_sent
    {e : DuplexStep UInt8}
    {relay : Duplex UInt8}
    {closing : List Reply}
    (hRelay : t.relay.Inv)
    (hSent :
      Transcript t.sent (t.relay.pump .back).delivered []
        closing)
    (hClosing : closing = copyClosing t.relay)
    (hStep : t.relay.step copyBufferSize e = some relay) :
    Transcript (t.sent ++ t.messages e)
      (relay.pump .back).delivered []
      (copyClosing relay) := by
  unfold copyClosing at hClosing ⊢
  cases e with
  | pump way e =>
      simp only [Duplex.step] at hStep
      split at hStep <;> [cases hStep; skip]
      rcases Option.map_eq_some_iff.mp hStep with
        ⟨pump, hPump, rfl⟩
      cases way with
      | there =>
          simp only [messages, List.append_nil, ne_eq,
            reduceCtorEq, not_false_eq_true,
            Function.update_of_ne]
          rw [← hClosing]
          exact hSent
      | back =>
          simp only [messages, Function.update_self]
          rw [Pump.step_delivered hPump]
          cases hOwn : e.own with
          | false =>
              rw [Pump.output_foreign _ hOwn]
              simpa [PipeSession.carry, ← hClosing]
                using hSent
          | true =>
              -- A pump that still runs was not shut down.
              have hOpen : t.relay.shut .back = false := by
                rw [Bool.eq_false_iff]
                intro hShut
                have hEnd := hRelay.shut .back hShut
                rw [Pump.step_own_running hPump hOwn] at hEnd
                cases hEnd
              rw [hOpen] at hClosing ⊢
              rw [hClosing] at hSent
              have hMore := hSent.output
                (PipeSession.closingOf_carry_data
                  ((t.relay.pump .back).output e))
              simpa using hMore
  | shutdown way succeeds =>
      simp only [Duplex.step] at hStep
      split at hStep <;> [rename_i hMay; cases hStep]
      cases hStep
      cases way with
      | there =>
          have hSame :
              t.messages (.shutdown .there succeeds) = [] :=
            by cases succeeds <;> rfl
          rw [hSame, List.append_nil]
          cases succeeds with
          | true => simpa [← hClosing] using hSent
          | false => simpa [← hClosing] using hSent
      | back =>
          rw [hMay.2.2] at hClosing
          simp only [Bool.false_eq_true, if_false] at hClosing
          rw [hClosing] at hSent
          cases succeeds with
          | true =>
              simpa [messages] using hSent.close .eof
          | false => simpa [messages, hMay.2.2] using hSent
  | complete =>
      simp only [Duplex.step] at hStep
      split at hStep <;> cases hStep
      simpa [messages, ← hClosing] using hSent
  | drop =>
      simp only [Duplex.step] at hStep
      split at hStep <;> cases hStep
      simpa [messages, ← hClosing] using hSent

theorem relay_inv
    {e : DuplexStep UInt8}
    (hInv : t.Inv)
    (hStep : t.step (.relay e) = some u) :
    u.Inv := by
  simp only [step] at hStep
  split at hStep <;> [rename_i hMay; cases hStep]
  rcases Option.map_eq_some_iff.mp hStep with
    ⟨relay, hRelay, rfl⟩
  have hNext := Duplex.step_inv hInv.relay hRelay
  rcases hInv.sent with ⟨closing, hSent, hFits⟩
  have hReturned :
      t.phase = .returned → relay.state ≠ .running :=
    fun h hRunning => hInv.returned h
      ((Duplex.step_ended hRelay).2 hRunning)
  by_cases hCopying : t.phase = .copying
  · rw [ClosingFits, hCopying] at hFits
    refine
      { relay := hNext, idle := fun h => ?_
        returned := hReturned, refused := hInv.refused
        sent := ⟨_, copying_sent hInv.relay hSent hFits
          hRelay, ?_⟩ }
    · rw [hCopying] at h
      cases h
    · simp [ClosingFits, hCopying]
  · have hOutside : outside e = true :=
      hMay.resolve_right hCopying
    rcases outside_idle hOutside hRelay with
      ⟨hShut, hNone, hSame⟩
    refine
      { relay := hNext, idle := fun h way => ?_
        returned := hReturned, refused := hInv.refused
        sent := ⟨closing, ?_, ?_⟩ }
    · rw [hSame way, hShut]
      exact hInv.idle h way
    · rw [hNone, List.append_nil, hSame .back]
      exact hSent
    · unfold ClosingFits copyClosing at hFits ⊢
      rw [hShut]
      exact hFits

theorem returns_inv
    {delivered : Bool}
    (hInv : t.Inv)
    (hStep : t.step (.returns delivered) = some u) :
    u.Inv := by
  simp only [step] at hStep
  split at hStep <;> [rename_i hMay; cases hStep]
  cases hStep
  rcases hInv.sent with ⟨closing, hSent, hFits⟩
  rw [ClosingFits, hMay.1] at hFits
  refine
    { relay := hInv.relay, idle := nofun
      returned := fun _ => hMay.2, refused := nofun
      sent := ?_ }
  cases delivered with
  | true =>
      exact ⟨_, hSent.close .close, Or.inr (by rw [hFits])⟩
  | false =>
      simp only [Bool.false_eq_true, if_false,
        List.append_nil]
      exact ⟨closing, hSent, Or.inl hFits⟩

/- Every step keeps the invariant. -/
theorem step_inv
    {e : Event}
    (hInv : t.Inv)
    (hStep : t.step e = some u) :
    u.Inv := by
  cases e with
  | connects succeeds => exact connects_inv hInv hStep
  | refuses delivered => exact refuses_inv hInv hStep
  | relay e => exact relay_inv hInv hStep
  | returns delivered => exact returns_inv hInv hStep

theorem reachable_inv
    (hReachable : machine.Reachable t) :
    t.Inv :=
  hReachable.invariant initial_inv
    (fun _ _ _ hInv _ hStep => step_inv hInv hStep)

end ForwardTask

end Sshdt

------------------------------------------------------------
-- What Client And Target Get
------------------------------------------------------------

namespace Sshdt

namespace ForwardTask

open ChannelMessage

variable {t u : ForwardTask}

/- Everything was carried in one direction. -/
def Complete
    (t : ForwardTask)
    (way : Way) : Prop :=
  (t.relay.pump way).delivered = (t.relay.pump way).written ∧
    (t.relay.pump way).sourceOpen = false

/-
  The target sees the end of its data. A task that returned
  has dropped its connection.
-/
def TargetEnds
    (t : ForwardTask) : Prop :=
  t.relay.EndSeen (t.phase = .returned) .there

/-
  What a forward does to its streams.

  The client gets a first part of what the target sends, and
  then an end of the data and a closed channel, or a part of
  these. One that is told the end got all that the target
  sent up to its own end, or there was no target. So did one
  whose channel is closed, unless the copy was cut short.
  The target gets a first part of what the client sends. It
  is shut down only after all of that, and it sees the end
  only then, unless the copy was cut short. A copy that has
  finished was complete both ways.
-/
structure Faithful
    (t : ForwardTask) : Prop where
  order : OutputFirst t.sent
  toClient : outOf t.sent <+: (t.relay.pump .back).written
  error : errOf t.sent = []
  closing : (closingOf t.sent).Sublist [.eof, .close]
  noTarget :
    t.phase.connected = false →
      outOf t.sent = [] ∧
        (t.relay.pump .there).delivered = [] ∧
        ¬ t.TargetEnds
  clientEof :
    .eof ∈ closingOf t.sent →
      (∃ n, t.phase = .refused n) ∨
        t.Complete .back ∧
          outOf t.sent = (t.relay.pump .back).written
  clientEnd :
    closingOf t.sent ≠ [] →
      (∃ n, t.phase = .refused n) ∨ t.relay.CutShort ∨
        t.Complete .back ∧
          outOf t.sent = (t.relay.pump .back).written
  toTarget :
    (t.relay.pump .there).delivered <+:
      (t.relay.pump .there).written
  targetShut : t.relay.shut .there = true → t.Complete .there
  targetEnd :
    t.TargetEnds → t.relay.CutShort ∨ t.Complete .there
  finished :
    t.relay.state = .finished → ∀ way, t.Complete way

theorem copyClosing_sublist
    (relay : Duplex UInt8) :
    (copyClosing relay).Sublist [.eof] := by
  unfold copyClosing
  split
  · exact .refl _
  · exact List.nil_sublist _

theorem ClosingFits.sublist
    {closing : List Reply}
    (hFits : t.ClosingFits closing) :
    closing.Sublist [.eof, .close] := by
  unfold ClosingFits at hFits
  split at hFits
  · rw [hFits]
    exact List.nil_sublist _
  · exact hFits.trans (List.take_sublist _ _)
  · rw [hFits]
    exact (copyClosing_sublist _).trans (by decide)
  · rcases hFits with hSame | hClosed
    · rw [hSame]
      exact (copyClosing_sublist _).trans (by decide)
    · rw [hClosed]
      exact (copyClosing_sublist _).append_right [.close]

/- The end of the data comes from the copy, if connected. -/
theorem ClosingFits.eof
    {closing : List Reply}
    (hFits : t.ClosingFits closing)
    (hEof : .eof ∈ closing) :
    (∃ n, t.phase = .refused n) ∨
      t.relay.shut .back = true := by
  have hShut :
      .eof ∈ copyClosing t.relay →
        t.relay.shut .back = true := by
    intro hMem
    by_contra hOpen
    simp [copyClosing, hOpen] at hMem
  unfold ClosingFits at hFits
  cases hPhase : t.phase with
  | connecting =>
      rw [hPhase] at hFits
      rw [hFits] at hEof
      cases hEof
  | refused n => exact Or.inl ⟨n, rfl⟩
  | copying =>
      rw [hPhase] at hFits
      exact Or.inr (hShut (hFits ▸ hEof))
  | returned =>
      rw [hPhase] at hFits
      rcases hFits with hSame | hClosed
      · exact Or.inr (hShut (hSame ▸ hEof))
      · rw [hClosed] at hEof
        exact Or.inr (hShut (by simpa using hEof))

/- A client is told something after a shutdown or the end. -/
theorem ClosingFits.endSeen
    {closing : List Reply}
    (hFits : t.ClosingFits closing)
    (hSome : closing ≠ []) :
    (∃ n, t.phase = .refused n) ∨
      t.relay.EndSeen (t.phase = .returned) .back := by
  unfold ClosingFits at hFits
  cases hPhase : t.phase with
  | connecting =>
      rw [hPhase] at hFits
      exact absurd hFits hSome
  | refused n => exact Or.inl ⟨n, rfl⟩
  | copying =>
      rw [hPhase] at hFits
      refine Or.inr (Or.inl ?_)
      by_contra hOpen
      exact hSome (by simp [hFits, copyClosing, hOpen])
  | returned => exact Or.inr (Or.inr rfl)

theorem Inv.faithful
    (hInv : t.Inv) :
    t.Faithful := by
  rcases hInv.sent with ⟨closing, hSent, hFits⟩
  have hSeen :
      ∀ way, t.relay.EndSeen (t.phase = .returned) way →
        t.relay.CutShort ∨ t.Complete way :=
    fun _ => hInv.relay.endSeen hInv.returned
  have hOut :
      t.Complete .back →
        outOf t.sent = (t.relay.pump .back).written :=
    fun hAll => hSent.out.trans hAll.1
  refine
    { order := hSent.first, toClient := ?_
      error := hSent.err, closing := ?_
      noTarget := fun hNone => ?_
      clientEof := fun hEof => ?_
      clientEnd := fun hSome => ?_
      toTarget := hInv.relay.prefix_written .there
      targetShut := hInv.relay.halfClosed
      targetEnd := hSeen .there
      finished := fun hEnd way => hInv.relay.halfClosed
        (hInv.relay.finished hEnd way) }
  · rw [hSent.out]
    exact hInv.relay.prefix_written .back
  · rw [hSent.closing]
    exact hFits.sublist
  · have hIdle := hInv.idle hNone
    refine ⟨hSent.out.trans (hIdle .back).1,
      (hIdle .there).1, ?_⟩
    rintro (hShut | hReturned)
    · rw [(hIdle .there).2] at hShut
      cases hShut
    · rw [hReturned] at hNone
      cases hNone
  · rw [hSent.closing] at hEof
    refine (hFits.eof hEof).imp_right fun hShut => ?_
    have hAll := hInv.relay.halfClosed hShut
    exact ⟨hAll, hOut hAll⟩
  · rw [hSent.closing] at hSome
    refine (hFits.endSeen hSome).imp_right fun hEnd => ?_
    exact (hSeen .back hEnd).imp_right
      fun hAll => ⟨hAll, hOut hAll⟩

end ForwardTask

end Sshdt

------------------------------------------------------------
-- The End Of A Forward
------------------------------------------------------------

namespace Sshdt

namespace ForwardTask

variable {t u : ForwardTask}

/- The event is a step of the task once it knows its target. -/
def Event.own : Event → Bool
| .connects _ => false
| .refuses _ | .returns _ => true
| .relay e => e.own

/- The event is an error, or something is not delivered. -/
def Event.fails : Event → Bool
| .connects succeeds => !succeeds
| .refuses delivered | .returns delivered => !delivered
| .relay e => e.fails

/-
  There is no target, or both the client and the target have
  ended their side.
-/
def Ending
    (t : ForwardTask) : Prop :=
  t.phase ≠ .connecting ∧
    (t.phase = .copying →
      ∀ way, (t.relay.pump way).sourceOpen = false)

/- The task has nothing left to do. -/
def Over
    (t : ForwardTask) : Prop :=
  t.phase = .refused refusalMessages.length ∨
    t.phase = .returned

/- The steps that the task has left at most. -/
def work
    (t : ForwardTask) : Nat :=
  match t.phase with
  | .connecting | .returned => 0
  | .refused sent => refusalMessages.length - sent
  | .copying => t.relay.work + 1

/- Whoever takes a step, the end does not get farther away. -/
theorem step_work
    {e : Event}
    (hEnding : t.Ending)
    (hStep : t.step e = some u) :
    u.work + (if e.own then 1 else 0) ≤ t.work ∧
      u.Ending := by
  cases e with
  | connects succeeds =>
      simp only [step] at hStep
      split at hStep <;> [rename_i hPhase; cases hStep]
      exact absurd hPhase hEnding.1
  | refuses delivered =>
      simp only [step] at hStep
      split at hStep <;> [rename_i sent hPhase; cases hStep]
      split at hStep <;> [rename_i reply hReply; cases hStep]
      cases hStep
      have hLess := (List.getElem?_eq_some_iff.mp hReply).1
      refine ⟨?_, by simp [Ending]⟩
      simp only [work, hPhase, Event.own, if_true]
      omega
  | returns delivered =>
      simp only [step] at hStep
      split at hStep <;> [rename_i hMay; cases hStep]
      cases hStep
      exact ⟨by simp [work, hMay.1, Event.own],
        by simp [Ending]⟩
  | relay e =>
      simp only [step] at hStep
      split at hStep <;> [rename_i hMay; cases hStep]
      rcases Option.map_eq_some_iff.mp hStep with
        ⟨relay, hRelay, rfl⟩
      by_cases hCopying : t.phase = .copying
      · have hClosed := hEnding.2 hCopying
        refine ⟨?_, hEnding.1, fun _ way =>
          Duplex.step_sourceClosed hRelay (hClosed way)⟩
        have hLess := Duplex.step_work_closed hClosed hRelay
        have hSame : Event.own (.relay e) = e.own := rfl
        simp only [work, hCopying, hSame]
        omega
      · have hForeign : e.own = false :=
          own_of_outside (hMay.resolve_right hCopying)
        refine ⟨?_, hEnding.1, fun h => absurd h hCopying⟩
        simp only [Event.own, hForeign, Bool.false_eq_true,
          if_false, Nat.add_zero]
        -- The work of another phase does not read the copy.
        unfold work
        cases hPhase : t.phase with
        | copying => exact absurd hPhase hCopying
        | _ => exact Nat.le_refl _

/- A task that is not over can go on without an error. -/
theorem Inv.enabled
    (hInv : t.Inv)
    (hEnding : t.Ending) :
    t.Over ∨
      ∃ e : Event, e.own = true ∧ e.fails = false ∧
        (t.step e).isSome = true := by
  cases hPhase : t.phase with
  | connecting => exact absurd hPhase hEnding.1
  | refused n =>
      cases hReply : refusalMessages[n]? with
      | none =>
          have hAll := List.getElem?_eq_none_iff.mp hReply
          have hNext := hInv.refused n hPhase
          left; left
          rw [hPhase, Nat.le_antisymm hNext hAll]
      | some reply =>
          exact Or.inr ⟨.refuses true, rfl, rfl,
            by simp [step, hPhase, hReply]⟩
  | copying =>
      right
      by_cases hRunning : t.relay.state = .running
      · have hCapacity : 1 ≤ copyBufferSize := by decide
        rcases hInv.relay.enabled hCapacity hRunning
            (hEnding.2 hPhase) with
          ⟨e, hOwn, hFails, hSome⟩
        refine ⟨.relay e, hOwn, hFails, ?_⟩
        simpa [step, hPhase] using hSome
      · exact ⟨.returns true, rfl, rfl,
          by simp [step, hPhase, hRunning]⟩
  | returned => exact Or.inl (Or.inr hPhase)

end ForwardTask

end Sshdt
