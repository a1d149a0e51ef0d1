import Mathlib.Data.List.Basic

/-
  Copying one stream into another (`tokio::io::copy`).

  A pump takes items from a source, holds them in a buffer
  of limited size and delivers them to a sink. The source is
  filled from outside until its last writer closes it. A
  read or a write may move any number of items, and may
  fail; a pump that failed or was dropped never moves again.

  A pump records all that was written into its source, so
  that what it has delivered can be compared with that.

  Key definitions include:
    * `Pump`
    * `Pump.step`
    * `Pump.Inv`
    * `Pump.work`

  Key theorems include:
    * `Pump.step_inv`
    * `Pump.Inv.prefix_written`
    * `Pump.Inv.complete`
    * `Pump.enabled`
    * `Pump.step_work`
-/

------------------------------------------------------------
-- Pumps And Their Steps
------------------------------------------------------------

/- How a pump ended, if it has. -/
inductive PumpState where
  | running
  | finished
  | failed
  | dropped
  deriving DecidableEq, Repr

/-
  A source, the buffer of the pump and its sink. `waiting`
  is what was written and not read; `sourceOpen` says that a
  writer is left.
-/
structure Pump (α : Type) where
  written : List α
  waiting : List α
  sourceOpen : Bool
  buffer : List α
  readDone : Bool
  delivered : List α
  state : PumpState
  deriving DecidableEq, Repr

/-
  What happens at a pump: `put` and `close` are done by the
  writers of the source, the others by the pump.
-/
inductive PumpStep (α : Type) where
  | put (items : List α)
  | close
  | read (n : Nat)
  | eof
  | deliver (n : Nat)
  | finish
  | fail
  deriving DecidableEq, Repr

namespace PumpStep

variable {α : Type}

/- The step is taken by the pump itself. -/
def own : PumpStep α → Bool
| .put _ | .close => false
| _ => true

/- The step is an error. -/
def fails : PumpStep α → Bool
| .fail => true
| _ => false

/- What the step adds to the source. -/
def input : PumpStep α → List α
| .put items => items
| _ => []

end PumpStep

namespace Pump

variable {α : Type}

/- A pump whose source has nothing in it yet. -/
def start : Pump α where
  written := []
  waiting := []
  sourceOpen := true
  buffer := []
  readDone := false
  delivered := []
  state := .running

/- What a step delivers. -/
def output
    (p : Pump α) : PumpStep α → List α
| .deliver n => p.buffer.take n
| _ => []

/- One step; the buffer holds `capacity` items at most. -/
def step
    (capacity : Nat)
    (p : Pump α) : PumpStep α → Option (Pump α)
| .put items =>
    if p.sourceOpen then
      some
        { p with
          written := p.written ++ items
          waiting := p.waiting ++ items }
    else
      none
| .close =>
    if p.sourceOpen then
      some { p with sourceOpen := false }
    else
      none
| .read n =>
    if p.state = .running ∧ p.readDone = false ∧ 1 ≤ n ∧
        n ≤ p.waiting.length ∧
        p.buffer.length + n ≤ capacity then
      some
        { p with
          buffer := p.buffer ++ p.waiting.take n
          waiting := p.waiting.drop n }
    else
      none
| .eof =>
    if p.state = .running ∧ p.readDone = false ∧
        p.waiting = [] ∧ p.sourceOpen = false then
      some { p with readDone := true }
    else
      none
| .deliver n =>
    if p.state = .running ∧ 1 ≤ n ∧
        n ≤ p.buffer.length then
      some
        { p with
          delivered := p.delivered ++ p.buffer.take n
          buffer := p.buffer.drop n }
    else
      none
| .finish =>
    if p.state = .running ∧ p.readDone = true ∧
        p.buffer = [] then
      some { p with state := .finished }
    else
      none
| .fail =>
    if p.state = .running then
      some { p with state := .failed }
    else
      none

/- The pump is dropped; one that has ended stays as it is. -/
def drop
    (p : Pump α) : Pump α :=
  if p.state = .running then
    { p with state := .dropped }
  else
    p

/- The writers fill the source, unless it is closed. -/
def feed
    (p : Pump α)
    (items : List α) : Pump α :=
  if p.sourceOpen then
    { p with
      written := p.written ++ items
      waiting := p.waiting ++ items }
  else
    p

/- The writers close the source, if it is open. -/
def endSource
    (p : Pump α) : Pump α :=
  { p with sourceOpen := false }

end Pump

------------------------------------------------------------
-- What Is Delivered
------------------------------------------------------------

namespace Pump

variable {α : Type}
variable {capacity : Nat}
variable {p q : Pump α}
variable {e : PumpStep α}

/-
  Nothing is lost, repeated or reordered on the way, and a
  pump finishes with nothing left on it.
-/
structure Inv
    (p : Pump α) : Prop where
  conserved :
    p.delivered ++ p.buffer ++ p.waiting = p.written
  drained :
    p.readDone = true →
      p.sourceOpen = false ∧ p.waiting = []
  finished :
    p.state = .finished →
      p.readDone = true ∧ p.buffer = []

theorem start_inv :
    (start : Pump α).Inv where
  conserved := rfl
  drained := by simp [start]
  finished := by simp [start]

theorem step_inv
    (hInv : p.Inv)
    (hStep : p.step capacity e = some q) :
    q.Inv := by
  rcases hInv with ⟨hConserved, hDrained, hFinished⟩
  cases e with
  | put items =>
      simp only [step] at hStep
      split at hStep <;> [rename_i hOpen; cases hStep]
      cases hStep
      refine ⟨?_, fun hDone => ?_, hFinished⟩
      · simp only [← hConserved, List.append_assoc]
      · rw [(hDrained hDone).1] at hOpen
        cases hOpen
  | close =>
      simp only [step] at hStep
      split at hStep <;> [skip; cases hStep]
      cases hStep
      exact ⟨hConserved,
        fun hDone => ⟨rfl, (hDrained hDone).2⟩, hFinished⟩
  | read n =>
      simp only [step] at hStep
      split at hStep <;> [rename_i hRead; cases hStep]
      cases hStep
      refine ⟨?_, fun hDone => ?_, fun hEnd => ?_⟩
      · simp only [← hConserved, List.append_assoc,
          List.take_append_drop]
      · rw [hRead.2.1] at hDone
        cases hDone
      · rw [hRead.1] at hEnd
        cases hEnd
  | eof =>
      simp only [step] at hStep
      split at hStep <;> [rename_i hEof; cases hStep]
      cases hStep
      refine ⟨hConserved,
        fun _ => ⟨hEof.2.2.2, hEof.2.2.1⟩, fun hEnd => ?_⟩
      rw [hEof.1] at hEnd
      cases hEnd
  | deliver n =>
      simp only [step] at hStep
      split at hStep <;> [rename_i hDeliver; cases hStep]
      cases hStep
      refine ⟨?_, hDrained, fun hEnd => ?_⟩
      · rw [← hConserved]
        simp only [List.append_assoc,
          List.append_cancel_left_eq]
        rw [← List.append_assoc, List.take_append_drop]
      · rw [hDeliver.1] at hEnd
        cases hEnd
  | finish =>
      simp only [step] at hStep
      split at hStep <;> [rename_i hFinish; cases hStep]
      cases hStep
      exact ⟨hConserved, hDrained, fun _ => hFinish.2⟩
  | fail =>
      simp only [step] at hStep
      split at hStep <;> [skip; cases hStep]
      cases hStep
      exact ⟨hConserved, hDrained, by simp⟩

theorem drop_inv
    (hInv : p.Inv) :
    p.drop.Inv := by
  unfold drop
  split
  · exact ⟨hInv.conserved, hInv.drained, by simp⟩
  · exact hInv

theorem feed_inv
    (hInv : p.Inv)
    (items : List α) :
    (p.feed items).Inv := by
  unfold feed
  split
  · rename_i hOpen
    refine ⟨?_, fun hDone => ?_, hInv.finished⟩
    · simp only [← hInv.conserved, List.append_assoc]
    · rw [(hInv.drained hDone).1] at hOpen
      cases hOpen
  · exact hInv

theorem endSource_inv
    (hInv : p.Inv) :
    p.endSource.Inv :=
  ⟨hInv.conserved, fun hDone => ⟨rfl, (hInv.drained hDone).2⟩,
    hInv.finished⟩

@[simp]
theorem feed_delivered
    (p : Pump α)
    (items : List α) :
    (p.feed items).delivered = p.delivered := by
  unfold feed
  split <;> rfl

@[simp]
theorem feed_state
    (p : Pump α)
    (items : List α) :
    (p.feed items).state = p.state := by
  unfold feed
  split <;> rfl

@[simp]
theorem feed_sourceOpen
    (p : Pump α)
    (items : List α) :
    (p.feed items).sourceOpen = p.sourceOpen := by
  unfold feed
  split <;> rfl

theorem feed_written
    (hOpen : p.sourceOpen = true)
    (items : List α) :
    (p.feed items).written = p.written ++ items := by
  rw [feed, if_pos hOpen]

@[simp]
theorem feed_nil
    (p : Pump α) :
    p.feed [] = p := by
  unfold feed
  split <;> simp

/- What is delivered is a first part of what was written. -/
theorem Inv.prefix_written
    (hInv : p.Inv) :
    p.delivered <+: p.written := by
  rw [← hInv.conserved, List.append_assoc]
  exact List.prefix_append _ _

/- A pump that has finished has delivered everything. -/
theorem Inv.complete
    (hInv : p.Inv)
    (hFinished : p.state = .finished) :
    p.delivered = p.written ∧ p.sourceOpen = false := by
  rcases hInv.finished hFinished with ⟨hDone, hBuffer⟩
  rcases hInv.drained hDone with ⟨hClosed, hWaiting⟩
  have hAll := hInv.conserved
  rw [hBuffer, hWaiting, List.append_nil,
    List.append_nil] at hAll
  exact ⟨hAll, hClosed⟩

end Pump

------------------------------------------------------------
-- What One Step Changes
------------------------------------------------------------

namespace Pump

variable {α : Type}
variable {capacity : Nat}
variable {p q : Pump α}
variable {e : PumpStep α}

/- A step delivers its output. -/
theorem step_delivered
    (hStep : p.step capacity e = some q) :
    q.delivered = p.delivered ++ p.output e := by
  cases e <;> simp only [step] at hStep <;>
    split at hStep <;> cases hStep <;> simp [output]

/- A step adds its input to what was written. -/
theorem step_written
    (hStep : p.step capacity e = some q) :
    q.written = p.written ++ e.input := by
  cases e <;> simp only [step] at hStep <;>
    split at hStep <;> cases hStep <;> simp [PumpStep.input]

/- A pump that has ended takes no step of its own. -/
theorem step_own_running
    (hStep : p.step capacity e = some q)
    (hOwn : e.own = true) :
    p.state = .running := by
  cases e with
  | put items => cases hOwn
  | close => cases hOwn
  | fail =>
      simp only [step] at hStep
      split at hStep <;> [assumption; cases hStep]
  | read n =>
      simp only [step] at hStep
      split at hStep <;> [rename_i h; cases hStep]
      exact h.1
  | eof =>
      simp only [step] at hStep
      split at hStep <;> [rename_i h; cases hStep]
      exact h.1
  | deliver n =>
      simp only [step] at hStep
      split at hStep <;> [rename_i h; cases hStep]
      exact h.1
  | finish =>
      simp only [step] at hStep
      split at hStep <;> [rename_i h; cases hStep]
      exact h.1

/- The writers of the source do not end the pump. -/
theorem step_foreign_state
    (hStep : p.step capacity e = some q)
    (hForeign : e.own = false) :
    q.state = p.state := by
  cases e with
  | put items =>
      simp only [step] at hStep
      split at hStep <;> cases hStep
      rfl
  | close =>
      simp only [step] at hStep
      split at hStep <;> cases hStep
      rfl
  | _ => cases hForeign

/- A pump that has ended stays as it ended. -/
theorem step_ended
    (hStep : p.step capacity e = some q)
    (hEnded : p.state ≠ .running) :
    q.state = p.state := by
  cases hOwn : e.own with
  | true => exact absurd (step_own_running hStep hOwn) hEnded
  | false => exact step_foreign_state hStep hOwn

/- No step drops a pump. -/
theorem step_undropped
    (hStep : p.step capacity e = some q)
    (hUndropped : p.state ≠ .dropped) :
    q.state ≠ .dropped := by
  cases e <;> simp only [step] at hStep <;>
    split at hStep <;> cases hStep <;> first
      | exact hUndropped
      | simp

/- A pump fails in a step of that name only. -/
theorem step_unfailed
    (hStep : p.step capacity e = some q)
    (hFails : e.fails = false)
    (hUnfailed : p.state ≠ .failed) :
    q.state ≠ .failed := by
  cases e with
  | fail => cases hFails
  | finish =>
      simp only [step] at hStep
      split at hStep <;> cases hStep
      simp
  | _ =>
      simp only [step] at hStep
      split at hStep <;> cases hStep
      exact hUnfailed

/- A pump that was dropped is not running. -/
theorem drop_ended
    (p : Pump α) :
    p.drop.state ≠ .running := by
  unfold drop
  split
  · simp
  · assumption

@[simp]
theorem drop_written
    (p : Pump α) :
    p.drop.written = p.written := by
  unfold drop
  split <;> rfl

@[simp]
theorem drop_delivered
    (p : Pump α) :
    p.drop.delivered = p.delivered := by
  unfold drop
  split <;> rfl

/- The writers of the source deliver nothing. -/
theorem output_foreign
    (p : Pump α)
    (hForeign : e.own = false) :
    p.output e = [] := by
  cases e with
  | deliver n => cases hForeign
  | _ => rfl

/- The pump itself does not touch the writers' end. -/
theorem step_own_source
    (hStep : p.step capacity e = some q)
    (hOwn : e.own = true) :
    q.written = p.written ∧ q.sourceOpen = p.sourceOpen := by
  cases e with
  | put items => cases hOwn
  | close => cases hOwn
  | _ =>
      simp only [step] at hStep
      split at hStep <;> cases hStep
      exact ⟨rfl, rfl⟩

/- Nothing is written into a closed source. -/
theorem step_foreign_none
    (hClosed : p.sourceOpen = false)
    (hForeign : e.own = false) :
    p.step capacity e = none := by
  cases e with
  | put items => simp [step, hClosed]
  | close => simp [step, hClosed]
  | _ => cases hForeign

/- A closed source stays closed. -/
theorem step_sourceClosed
    (hStep : p.step capacity e = some q)
    (hClosed : p.sourceOpen = false) :
    q.sourceOpen = false := by
  cases e <;> simp only [step] at hStep <;>
    split at hStep <;> cases hStep <;> first
      | rfl
      | exact hClosed

end Pump

------------------------------------------------------------
-- Progress
------------------------------------------------------------

namespace Pump

variable {α : Type}
variable {capacity : Nat}
variable {p q : Pump α}
variable {e : PumpStep α}

/- The steps that a pump has left, once nobody writes. -/
def work
    (p : Pump α) : Nat :=
  if p.state = .running then
    2 * p.waiting.length + p.buffer.length +
      (if p.readDone then 0 else 1) + 1
  else
    0

theorem fails_eq_false
    (hOther : e ≠ .fail) :
    e.fails = false := by
  cases e with
  | fail => exact absurd rfl hOther
  | _ => rfl

/-
  A running pump with a closed source has a next step that
  is no error.
-/
theorem enabled
    (hCapacity : 1 ≤ capacity)
    (hRunning : p.state = .running)
    (hClosed : p.sourceOpen = false) :
    ∃ e, e.own = true ∧ e ≠ .fail ∧
      (p.step capacity e).isSome = true := by
  cases hBuffer : p.buffer with
  | cons item rest =>
      refine ⟨.deliver 1, rfl, by simp, ?_⟩
      simp [step, hRunning, hBuffer]
  | nil =>
      cases hDone : p.readDone with
      | true =>
          refine ⟨.finish, rfl, by simp, ?_⟩
          simp [step, hRunning, hDone, hBuffer]
      | false =>
          cases hWaiting : p.waiting with
          | nil =>
              refine ⟨.eof, rfl, by simp, ?_⟩
              simp [step, hRunning, hDone, hWaiting, hClosed]
          | cons item rest =>
              refine ⟨.read 1, rfl, by simp, ?_⟩
              simp [step, hRunning, hDone, hWaiting,
                hBuffer, hCapacity]

/- Every step of its own brings a pump nearer to its end. -/
theorem step_work
    (hStep : p.step capacity e = some q)
    (hOwn : e.own = true) :
    q.work < p.work := by
  have hRunning := step_own_running hStep hOwn
  cases e with
  | put items => cases hOwn
  | close => cases hOwn
  | read n =>
      simp only [step] at hStep
      split at hStep <;> [rename_i h; cases hStep]
      cases hStep
      simp only [work, hRunning, if_true,
        List.length_append, List.length_take,
        List.length_drop]
      omega
  | eof =>
      simp only [step] at hStep
      split at hStep <;> [rename_i h; cases hStep]
      cases hStep
      simp [work, hRunning, h.2.1]
  | deliver n =>
      simp only [step] at hStep
      split at hStep <;> [rename_i h; cases hStep]
      cases hStep
      simp only [work, hRunning, if_true, List.length_drop]
      omega
  | finish =>
      simp only [step] at hStep
      split at hStep <;> cases hStep
      simp [work, hRunning]
  | fail =>
      simp only [step, hRunning, if_true] at hStep
      cases hStep
      simp [work, hRunning]

/- A pump that was dropped has nothing left to do. -/
@[simp]
theorem work_drop
    (p : Pump α) :
    p.drop.work = 0 := by
  unfold drop
  split
  · rfl
  · rename_i hEnded
    exact if_neg hEnded

end Pump
