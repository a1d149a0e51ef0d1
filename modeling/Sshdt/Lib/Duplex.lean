import Mathlib.Logic.Function.Basic
import Sshdt.Lib.Pump

/-
  Copying between two streams in both directions
  (`tokio::io::copy_bidirectional`).

  Each direction is a pump. One that has copied its source
  to the end shuts down its sink, and the copy ends when
  both directions are through with that. An error in either
  direction ends it at once, and so does dropping it.

  The copy borrows its streams. Whoever owns them drops them
  after it, and a peer takes that for the end of the data as
  it does a shutdown.

  Key definitions include:
    * `Duplex`
    * `Duplex.step`
    * `Duplex.CutShort`
    * `Duplex.EndSeen`
    * `Duplex.Inv`
    * `Duplex.work`

  Key theorems include:
    * `Duplex.step_inv`
    * `Duplex.Inv.prefix_written`
    * `Duplex.Inv.halfClosed`
    * `Duplex.Inv.endSeen`
    * `Duplex.step_work`
    * `Duplex.Inv.enabled`
-/

------------------------------------------------------------
-- Both Directions And Their Steps
------------------------------------------------------------

/- From the first stream to the second, or back. -/
inductive Way where
  | there
  | back
  deriving DecidableEq, Repr

/-
  The two directions; `shut` says which sinks were shut
  down, and `state` how the copy ended, if it has.
-/
structure Duplex (α : Type) where
  pump : Way → Pump α
  shut : Way → Bool
  state : PumpState

/- What happens in one direction or to the copy. -/
inductive DuplexStep (α : Type) where
  | pump (way : Way) (step : PumpStep α)
  | shutdown (way : Way) (succeeds : Bool)
  | complete
  | drop
  deriving DecidableEq, Repr

/- The step is one of the copy itself. -/
def DuplexStep.own
    {α : Type} : DuplexStep α → Bool
| .pump _ e => e.own
| .shutdown _ _ | .complete => true
| .drop => false

/- The step is an error. -/
def DuplexStep.fails
    {α : Type} : DuplexStep α → Bool
| .pump _ e => e.fails
| .shutdown _ succeeds => !succeeds
| _ => false

namespace Duplex

variable {α : Type}

/- Nothing was copied yet. -/
def start : Duplex α where
  pump := fun _ => .start
  shut := fun _ => false
  state := .running

/- One step; each buffer holds `capacity` items at most. -/
def step
    (capacity : Nat)
    (d : Duplex α) : DuplexStep α → Option (Duplex α)
| .pump way e =>
    if e.own = true ∧ d.state ≠ .running then
      none
    else
      ((d.pump way).step capacity e).map fun pump =>
        { d with
          pump := Function.update d.pump way pump
          state := if e.fails then .failed else d.state }
| .shutdown way succeeds =>
    if d.state = .running ∧
        (d.pump way).state = .finished ∧
        d.shut way = false then
      some
        (if succeeds then
          { d with shut := Function.update d.shut way true }
        else
          { d with state := .failed })
    else
      none
| .complete =>
    if d.state = .running ∧ d.shut .there = true ∧
        d.shut .back = true then
      some { d with state := .finished }
    else
      none
| .drop =>
    if d.state = .running then
      some { d with state := .dropped }
    else
      none

end Duplex

------------------------------------------------------------
-- What Is Delivered
------------------------------------------------------------

namespace Duplex

variable {α : Type}
variable {capacity : Nat}
variable {d f : Duplex α}
variable {e : DuplexStep α}

/-
  Each direction is a pump; a sink is shut down by one that
  has finished, and a copy that goes on has met no error.
-/
structure Inv
    (d : Duplex α) : Prop where
  pump : ∀ way, (d.pump way).Inv
  undropped : ∀ way, (d.pump way).state ≠ .dropped
  unfailed :
    d.state = .running → ∀ way, (d.pump way).state ≠ .failed
  shut :
    ∀ way, d.shut way = true →
      (d.pump way).state = .finished
  finished : d.state = .finished → ∀ way, d.shut way = true

theorem start_inv :
    (start : Duplex α).Inv where
  pump := fun _ => Pump.start_inv
  undropped := by simp [start, Pump.start]
  unfailed := by simp [start, Pump.start]
  shut := by simp [start]
  finished := by simp [start]

theorem pump_inv
    {way : Way}
    {e : PumpStep α}
    (hInv : d.Inv)
    (hStep : d.step capacity (.pump way e) = some f) :
    f.Inv := by
  simp only [step] at hStep
  split at hStep <;> [cases hStep; rename_i hMay]
  rcases Option.map_eq_some_iff.mp hStep with
    ⟨pump, hPump, rfl⟩
  -- What holds of the new pump and of the other one.
  have hEach :
      ∀ P : Pump α → Prop, (∀ w, P (d.pump w)) → P pump →
        ∀ w, P (Function.update d.pump way pump w) := by
    intro P hOld hNew w
    by_cases hWay : w = way
    · rw [hWay, Function.update_self]
      exact hNew
    · rw [Function.update_of_ne hWay]
      exact hOld w
  refine
    { pump := hEach Pump.Inv hInv.pump
        (Pump.step_inv (hInv.pump way) hPump)
      undropped := hEach (fun p => p.state ≠ .dropped)
        hInv.undropped
        (Pump.step_undropped hPump (hInv.undropped way))
      unfailed := fun hRunning => ?_
      shut := fun w hShut => ?_
      finished := fun hEnd => hInv.finished ?_ }
  · cases hFails : e.fails with
    | true => simp [hFails] at hRunning
    | false =>
        simp only [hFails, Bool.false_eq_true,
          if_false] at hRunning
        exact hEach (fun p => p.state ≠ .failed)
          (hInv.unfailed hRunning)
          (Pump.step_unfailed hPump hFails
            (hInv.unfailed hRunning way))
  · have hOld := hInv.shut w hShut
    change (Function.update d.pump way pump w).state = _
    by_cases hWay : w = way
    · rw [hWay, Function.update_self]
      rw [hWay] at hOld
      rw [Pump.step_ended hPump (by simp [hOld])]
      exact hOld
    · rw [Function.update_of_ne hWay]
      exact hOld
  · cases hFails : e.fails with
    | true => simp [hFails] at hEnd
    | false => simpa [hFails] using hEnd

/- Every step keeps the invariant. -/
theorem step_inv
    (hInv : d.Inv)
    (hStep : d.step capacity e = some f) :
    f.Inv := by
  cases e with
  | pump way e => exact pump_inv hInv hStep
  | shutdown way succeeds =>
      simp only [step] at hStep
      split at hStep <;> [rename_i hMay; cases hStep]
      cases hStep
      cases succeeds with
      | true =>
          refine
            { pump := hInv.pump, undropped := hInv.undropped
              unfailed := hInv.unfailed
              shut := fun w hShut => ?_
              finished := fun hEnd => ?_ }
          · by_cases hWay : w = way
            · rw [hWay]
              exact hMay.2.1
            · simp only [if_true,
                Function.update_of_ne hWay] at hShut
              exact hInv.shut w hShut
          · simp only [if_true, hMay.1] at hEnd
            cases hEnd
      | false =>
          exact
            { pump := hInv.pump, undropped := hInv.undropped
              unfailed := by simp, shut := hInv.shut
              finished := by simp }
  | complete =>
      simp only [step] at hStep
      split at hStep <;> [rename_i hMay; cases hStep]
      cases hStep
      exact
        { pump := hInv.pump, undropped := hInv.undropped
          unfailed := by simp, shut := hInv.shut
          finished := fun _ way => by
            cases way with
            | there => exact hMay.2.1
            | back => exact hMay.2.2 }
  | drop =>
      simp only [step] at hStep
      split at hStep <;> cases hStep
      exact
        { pump := hInv.pump, undropped := hInv.undropped
          unfailed := by simp, shut := hInv.shut
          finished := by simp }

/- A pump in the same state takes the place of another. -/
theorem Inv.setPump
    {way : Way}
    {pump : Pump α}
    (hInv : d.Inv)
    (hPump : pump.Inv)
    (hState : pump.state = (d.pump way).state) :
    Inv { d with pump := Function.update d.pump way pump } := by
  have hSame :
      ∀ w, (Function.update d.pump way pump w).state =
        (d.pump w).state := by
    intro w
    by_cases hWay : w = way
    · rw [hWay, Function.update_self, hState]
    · rw [Function.update_of_ne hWay]
  refine
    { pump := fun w => ?_
      undropped := fun w => ?_
      unfailed := fun hRunning w => ?_
      shut := fun w hShut => ?_
      finished := hInv.finished }
  · by_cases hWay : w = way
    · subst hWay
      simpa using hPump
    · simpa [Function.update_of_ne hWay] using hInv.pump w
  · rw [hSame w]
    exact hInv.undropped w
  · rw [hSame w]
    exact hInv.unfailed hRunning w
  · rw [hSame w]
    exact hInv.shut w hShut

/- What a step delivers in one direction. -/
def output
    (d : Duplex α)
    (way : Way) : DuplexStep α → List α
| .pump w e => if w = way then (d.pump w).output e else []
| _ => []

theorem step_delivered
    (hStep : d.step capacity e = some f)
    (way : Way) :
    (f.pump way).delivered =
      (d.pump way).delivered ++ d.output way e := by
  cases e with
  | pump w e =>
      simp only [step] at hStep
      split at hStep <;> [cases hStep; skip]
      rcases Option.map_eq_some_iff.mp hStep with
        ⟨pump, hPump, rfl⟩
      simp only [output]
      by_cases hWay : w = way
      · subst hWay
        simp [Pump.step_delivered hPump]
      · simp [hWay, Function.update_of_ne (Ne.symm hWay)]
  | shutdown w succeeds =>
      simp only [step] at hStep
      split at hStep <;> cases hStep
      cases succeeds <;> simp [output]
  | complete =>
      simp only [step] at hStep
      split at hStep <;> cases hStep
      simp [output]
  | drop =>
      simp only [step] at hStep
      split at hStep <;> cases hStep
      simp [output]

/- Only a running copy delivers, in a direction still open. -/
theorem Inv.running_of_output
    {way : Way}
    (hInv : d.Inv)
    (hStep : d.step capacity e = some f)
    (hSome : d.output way e ≠ []) :
    e.own = true ∧ d.state = .running ∧
      d.shut way = false := by
  cases e with
  | pump w e =>
      simp only [output] at hSome
      split at hSome <;> [rename_i hWay; exact absurd rfl hSome]
      subst hWay
      have hOwn : e.own = true := by
        by_contra hNot
        exact hSome (Pump.output_foreign _
          ((Bool.not_eq_true _).mp hNot))
      simp only [step] at hStep
      split at hStep <;> [cases hStep; rename_i hMay]
      rcases Option.map_eq_some_iff.mp hStep with
        ⟨pump, hPump, rfl⟩
      refine ⟨hOwn, ?_, ?_⟩
      · by_contra hNot
        exact hMay ⟨hOwn, hNot⟩
      · rw [Bool.eq_false_iff]
        intro hShut
        have hEnd := hInv.shut w hShut
        rw [Pump.step_own_running hPump hOwn] at hEnd
        cases hEnd
  | _ => exact absurd rfl hSome

/- The copy does not touch the writers' ends. -/
theorem step_source
    (hStep : d.step capacity e = some f)
    (hForeign : ∀ way e', e = .pump way e' → e'.own = true)
    (way : Way) :
    (f.pump way).written = (d.pump way).written ∧
      (f.pump way).sourceOpen = (d.pump way).sourceOpen := by
  cases e with
  | pump w e =>
      simp only [step] at hStep
      split at hStep <;> [cases hStep; skip]
      rcases Option.map_eq_some_iff.mp hStep with
        ⟨pump, hPump, rfl⟩
      have hSame := Pump.step_own_source hPump
        (hForeign w e rfl)
      by_cases hWay : way = w
      · subst hWay
        simpa using hSame
      · simp [Function.update_of_ne hWay]
  | shutdown w succeeds =>
      simp only [step] at hStep
      split at hStep <;> cases hStep
      cases succeeds <;> exact ⟨rfl, rfl⟩
  | complete =>
      simp only [step] at hStep
      split at hStep <;> cases hStep
      exact ⟨rfl, rfl⟩
  | drop =>
      simp only [step] at hStep
      split at hStep <;> cases hStep
      exact ⟨rfl, rfl⟩

/- What was shut down or has ended stays so. -/
theorem step_ended
    (hStep : d.step capacity e = some f) :
    (∀ way, d.shut way = true → f.shut way = true) ∧
      (f.state = .running → d.state = .running) := by
  cases e with
  | pump w e =>
      simp only [step] at hStep
      split at hStep <;> [cases hStep; skip]
      rcases Option.map_eq_some_iff.mp hStep with
        ⟨pump, _, rfl⟩
      refine ⟨fun _ hShut => hShut, fun hRunning => ?_⟩
      cases hFails : e.fails with
      | true => simp [hFails] at hRunning
      | false => simpa [hFails] using hRunning
  | shutdown w succeeds =>
      simp only [step] at hStep
      split at hStep <;> [rename_i hMay; cases hStep]
      cases hStep
      refine ⟨fun way hShut => ?_, fun _ => hMay.1⟩
      cases succeeds with
      | true =>
          by_cases hWay : way = w
          · subst hWay
            simp
          · simpa [Function.update_of_ne hWay] using hShut
      | false => exact hShut
  | complete =>
      simp only [step] at hStep
      split at hStep <;> cases hStep
      exact ⟨fun _ hShut => hShut, by simp⟩
  | drop =>
      simp only [step] at hStep
      split at hStep <;> cases hStep
      exact ⟨fun _ hShut => hShut, by simp⟩

/- A sink is shut down while the copy is running. -/
theorem step_shut
    {way : Way}
    (hStep : d.step capacity e = some f)
    (hShut : f.shut way = true) :
    d.shut way = true ∨ d.state = .running := by
  cases e with
  | pump w e =>
      simp only [step] at hStep
      split at hStep <;> [cases hStep; skip]
      rcases Option.map_eq_some_iff.mp hStep with
        ⟨pump, _, rfl⟩
      exact Or.inl hShut
  | shutdown w succeeds =>
      simp only [step] at hStep
      split at hStep <;> [rename_i hMay; cases hStep]
      exact Or.inr hMay.1
  | complete =>
      simp only [step] at hStep
      split at hStep <;> cases hStep
      exact Or.inl hShut
  | drop =>
      simp only [step] at hStep
      split at hStep <;> cases hStep
      exact Or.inl hShut

/- The ends of the streams are steps of their pump alone. -/
theorem step_foreign
    {way : Way}
    {e : PumpStep α}
    (hForeign : e.own = false)
    (hStep : d.step capacity (.pump way e) = some f) :
    ∃ pump,
      (d.pump way).step capacity e = some pump ∧
        f = { d with
          pump := Function.update d.pump way pump } := by
  simp only [step] at hStep
  split at hStep <;> [cases hStep; skip]
  rcases Option.map_eq_some_iff.mp hStep with
    ⟨pump, hPump, rfl⟩
  refine ⟨pump, hPump, ?_⟩
  cases e with
  | put items => rfl
  | close => rfl
  | _ => cases hForeign

/- Each side gets a first part of what the other sent. -/
theorem Inv.prefix_written
    (hInv : d.Inv)
    (way : Way) :
    (d.pump way).delivered <+: (d.pump way).written :=
  (hInv.pump way).prefix_written

/- A sink is shut down after all of its source. -/
theorem Inv.halfClosed
    {way : Way}
    (hInv : d.Inv)
    (hShut : d.shut way = true) :
    (d.pump way).delivered = (d.pump way).written ∧
      (d.pump way).sourceOpen = false :=
  (hInv.pump way).complete (hInv.shut way hShut)

/- The copy was ended by an error, or dropped. -/
def CutShort
    (d : Duplex α) : Prop :=
  d.state = .failed ∨ d.state = .dropped

/-
  The peer behind a sink sees the end of its data: the sink
  was shut down, or the streams were dropped.
-/
def EndSeen
    (d : Duplex α)
    (streamsDropped : Prop)
    (way : Way) : Prop :=
  d.shut way = true ∨ streamsDropped

/-
  Where the streams are dropped after the copy only, a peer
  that sees the end got everything, unless the copy was cut
  short.
-/
theorem Inv.endSeen
    {way : Way}
    {streamsDropped : Prop}
    (hInv : d.Inv)
    (hOver : streamsDropped → d.state ≠ .running)
    (hSeen : d.EndSeen streamsDropped way) :
    d.CutShort ∨
      (d.pump way).delivered = (d.pump way).written ∧
        (d.pump way).sourceOpen = false := by
  rcases hSeen with hShut | hDropped
  · exact .inr (hInv.halfClosed hShut)
  · cases hState : d.state with
    | running => exact absurd hState (hOver hDropped)
    | finished =>
        exact .inr (hInv.halfClosed
          (hInv.finished hState way))
    | failed => exact .inl (.inl hState)
    | dropped => exact .inl (.inr hState)

/- A source that was closed stays closed. -/
theorem step_sourceClosed
    {way : Way}
    (hStep : d.step capacity e = some f)
    (hClosed : (d.pump way).sourceOpen = false) :
    (f.pump way).sourceOpen = false := by
  cases e with
  | pump w e =>
      simp only [step] at hStep
      split at hStep <;> [cases hStep; skip]
      rcases Option.map_eq_some_iff.mp hStep with
        ⟨pump, hPump, rfl⟩
      change (Function.update d.pump w pump
        way).sourceOpen = _
      by_cases hWay : way = w
      · rw [hWay, Function.update_self]
        exact Pump.step_sourceClosed hPump (hWay ▸ hClosed)
      · rw [Function.update_of_ne hWay]
        exact hClosed
  | shutdown w succeeds =>
      simp only [step] at hStep
      split at hStep <;> cases hStep
      cases succeeds <;> exact hClosed
  | complete =>
      simp only [step] at hStep
      split at hStep <;> cases hStep
      exact hClosed
  | drop =>
      simp only [step] at hStep
      split at hStep <;> cases hStep
      exact hClosed

end Duplex

------------------------------------------------------------
-- Progress
------------------------------------------------------------

namespace Duplex

variable {α : Type}
variable {capacity : Nat}
variable {d f : Duplex α}
variable {e : DuplexStep α}

/- The steps that one direction has left at most. -/
def wayWork
    (d : Duplex α)
    (way : Way) : Nat :=
  (d.pump way).work + if d.shut way then 0 else 1

/- The steps that the copy has left, once nobody writes. -/
def work
    (d : Duplex α) : Nat :=
  d.wayWork .there + d.wayWork .back +
    if d.state = .running then 1 else 0

/- A step in one direction makes the work smaller. -/
theorem work_update
    {way : Way}
    {pump : Pump α}
    {state : PumpState}
    (hLess : pump.work < (d.pump way).work)
    (hRunning : d.state = .running) :
    work
        { d with
          pump := Function.update d.pump way pump
          state } < d.work := by
  have hState : (if state = .running then 1 else 0) ≤ 1 := by
    split <;> omega
  cases way with
  | there =>
      simp only [work, wayWork, hRunning, if_true,
        Function.update_self, ne_eq, reduceCtorEq,
        not_false_eq_true, Function.update_of_ne]
      omega
  | back =>
      simp only [work, wayWork, hRunning, if_true,
        Function.update_self, ne_eq, reduceCtorEq,
        not_false_eq_true, Function.update_of_ne]
      omega

/- Each step of the copy itself makes its work smaller. -/
theorem step_work
    (hStep : d.step capacity e = some f)
    (hOwn : e.own = true) :
    f.work < d.work := by
  cases e with
  | pump way e =>
      simp only [step] at hStep
      split at hStep <;> [cases hStep; rename_i hMay]
      rcases Option.map_eq_some_iff.mp hStep with
        ⟨pump, hPump, rfl⟩
      refine work_update (Pump.step_work hPump hOwn) ?_
      by_contra hNot
      exact hMay ⟨hOwn, hNot⟩
  | shutdown way succeeds =>
      simp only [step] at hStep
      split at hStep <;> [rename_i hMay; cases hStep]
      cases hStep
      cases succeeds with
      | true =>
          cases way with
          | there =>
              simp [work, wayWork, hMay.1, hMay.2.2]
          | back =>
              simp [work, wayWork, hMay.1, hMay.2.2]
      | false => simp [work, wayWork, hMay.1]
  | complete =>
      simp only [step] at hStep
      split at hStep <;> [rename_i hMay; cases hStep]
      cases hStep
      simp [work, wayWork, hMay.1]
  | drop => cases hOwn

/-
  Once both sources have ended, no step of anybody makes the
  work of the copy larger.
-/
theorem step_work_closed
    (hClosed : ∀ way, (d.pump way).sourceOpen = false)
    (hStep : d.step capacity e = some f) :
    f.work + (if e.own then 1 else 0) ≤ d.work := by
  cases hOwn : e.own with
  | true => exact step_work hStep hOwn
  | false =>
      simp only [Bool.false_eq_true, if_false, Nat.add_zero]
      cases e with
      | pump way e =>
          rcases step_foreign hOwn hStep with
            ⟨pump, hPump, _⟩
          -- A writer that has closed its source is gone.
          cases e with
          | put items =>
              simp [Pump.step, hClosed way] at hPump
          | close => simp [Pump.step, hClosed way] at hPump
          | _ => cases hOwn
      | drop =>
          simp only [step] at hStep
          split at hStep <;> cases hStep
          simp [work, wayWork]
      | _ => cases hOwn

/- A direction whose source has ended can go on. -/
theorem Inv.way_enabled
    {way : Way}
    (hInv : d.Inv)
    (hCapacity : 1 ≤ capacity)
    (hRunning : d.state = .running)
    (hClosed : (d.pump way).sourceOpen = false)
    (hOpen : d.shut way = false) :
    ∃ e : DuplexStep α, e.own = true ∧ e.fails = false ∧
      (d.step capacity e).isSome = true := by
  cases hState : (d.pump way).state with
  | running =>
      rcases Pump.enabled hCapacity hState hClosed with
        ⟨e, hOwn, hFails, hSome⟩
      refine ⟨.pump way e, hOwn, Pump.fails_eq_false hFails, ?_⟩
      simpa [step, hRunning] using hSome
  | finished =>
      exact ⟨.shutdown way true, rfl, rfl,
        by simp [step, hRunning, hState, hOpen]⟩
  | failed => exact absurd hState (hInv.unfailed hRunning way)
  | dropped => exact absurd hState (hInv.undropped way)

/- A copy whose sources have both ended can go on. -/
theorem Inv.enabled
    (hInv : d.Inv)
    (hCapacity : 1 ≤ capacity)
    (hRunning : d.state = .running)
    (hClosed : ∀ way, (d.pump way).sourceOpen = false) :
    ∃ e : DuplexStep α, e.own = true ∧ e.fails = false ∧
      (d.step capacity e).isSome = true := by
  cases hThere : d.shut .there with
  | false =>
      exact hInv.way_enabled hCapacity hRunning
        (hClosed .there) hThere
  | true =>
      cases hBack : d.shut .back with
      | false =>
          exact hInv.way_enabled hCapacity hRunning
            (hClosed .back) hBack
      | true =>
          exact ⟨.complete, rfl, rfl,
            by simp [step, hRunning, hThere, hBack]⟩

end Duplex
