import Mathlib.Data.List.Basic
import Mathlib.Logic.Function.Basic

/-
  Named manual-reset events of Windows.

  An event object exists while some process has a handle to
  it, and keeps its state for as long as it exists. Creating
  an event under a name that exists opens that object and
  leaves its state alone.

  The outcome of a call is part of the call, so a table of
  events refuses an outcome that its objects do not allow.

  Key definitions include:
    * `NamedEvent`
    * `EventCall`
    * `EventCall.apply`

  Key theorems include:
    * `EventCall.signaled_of_apply`
    * `EventCall.signaled_of_create`
-/

------------------------------------------------------------
-- Objects
------------------------------------------------------------

/- An event, with the processes that have a handle to it. -/
structure NamedEvent (P : Type) where
  handles : List P
  signaled : Bool
  deriving DecidableEq, Repr

namespace NamedEvent

variable {P : Type}

/- No object under the name. -/
def absent : NamedEvent P :=
  ⟨[], false⟩

/- An object exists under the name. -/
def exists?
    (event : NamedEvent P) : Bool :=
  !event.handles.isEmpty

end NamedEvent

------------------------------------------------------------
-- Calls
------------------------------------------------------------

/- How `CreateEventW` ends. -/
inductive CreateOutcome where
  | created
  | alreadyExists
  | failed
  deriving DecidableEq, Repr

/- How `OpenEventW` ends. -/
inductive OpenOutcome where
  | opened
  | fileNotFound
  | failed
  deriving DecidableEq, Repr

/- A call on a named event, with its outcome. -/
inductive EventCall (N : Type) where
  | createEvent (name : N) (initial : Bool)
      (outcome : CreateOutcome)
  | openEvent (name : N) (outcome : OpenOutcome)
  | setEvent (name : N) (ok : Bool)
  | waitForSingleObject (name : N) (signaled : Bool)
  | closeHandle (name : N)
  deriving DecidableEq, Repr

namespace EventCall

variable {N P : Type}
variable [DecidableEq N] [DecidableEq P]

/- The events after a call, if its outcome is possible. -/
def apply
    (events : N → NamedEvent P)
    (p : P) :
    EventCall N → Option (N → NamedEvent P)
| createEvent name initial outcome =>
    let event := events name
    match outcome, event.exists? with
    | .created, false =>
        some (Function.update events name ⟨[p], initial⟩)
    | .alreadyExists, true =>
        some (Function.update events name
          { event with handles := p :: event.handles })
    | .failed, _ => some events
    | _, _ => none
| openEvent name outcome =>
    let event := events name
    match outcome, event.exists? with
    | .opened, true =>
        some (Function.update events name
          { event with handles := p :: event.handles })
    | .fileNotFound, false => some events
    | .failed, _ => some events
    | _, _ => none
| setEvent name ok =>
    if ok then
      some (Function.update events name
        { events name with signaled := true })
    else
      some events
| waitForSingleObject name signaled =>
    if (events name).signaled = signaled then
      some events
    else
      none
| closeHandle name =>
    let event := events name
    some (Function.update events name
      { event with handles := event.handles.erase p })

end EventCall

------------------------------------------------------------
-- Where A Signal Comes From
------------------------------------------------------------

namespace EventCall

variable {N P : Type}
variable [DecidableEq N]

/- A change of handles leaves every signal alone. -/
theorem signaled_handles
    (events : N → NamedEvent P)
    (name other : N)
    (handles : List P) :
    (Function.update events name
        { events name with handles } other).signaled =
      (events other).signaled := by
  by_cases hName : other = name
  · subst hName
    rw [Function.update_self]
  · rw [Function.update_of_ne hName]

/- A new state of one event changes no other signal. -/
theorem signaled_update
    {events : N → NamedEvent P}
    {name other : N}
    {event : NamedEvent P}
    (hSignaled :
      (Function.update events name event other).signaled =
        true) :
    (events other).signaled = true ∨
      other = name ∧ event.signaled = true := by
  by_cases hName : other = name
  · subst hName
    rw [Function.update_self] at hSignaled
    exact Or.inr ⟨rfl, hSignaled⟩
  · rw [Function.update_of_ne hName] at hSignaled
    exact Or.inl hSignaled

variable [DecidableEq P]
variable {events events' : N → NamedEvent P}
variable {p : P}

/- An event becomes signaled by a call that signals it. -/
theorem signaled_of_apply
    {call : EventCall N}
    {name : N}
    (hApply : call.apply events p = some events')
    (hSignaled : (events' name).signaled = true) :
    (events name).signaled = true ∨
      call = .setEvent name true ∨
      call = .createEvent name true .created := by
  cases call with
  | createEvent name' initial outcome =>
      simp only [apply] at hApply
      split at hApply <;> cases hApply
      · rcases signaled_update hSignaled with
          hOld | ⟨rfl, hNew⟩
        · exact Or.inl hOld
        · exact Or.inr (Or.inr (by rw [← hNew]))
      · rw [signaled_handles] at hSignaled
        exact Or.inl hSignaled
      · exact Or.inl hSignaled
  | openEvent name' outcome =>
      simp only [apply] at hApply
      split at hApply <;> cases hApply
      · rw [signaled_handles] at hSignaled
        exact Or.inl hSignaled
      · exact Or.inl hSignaled
      · exact Or.inl hSignaled
  | setEvent name' ok =>
      simp only [apply] at hApply
      split at hApply <;> cases hApply
      · rename_i hOk
        rcases signaled_update hSignaled with
          hOld | ⟨rfl, _⟩
        · exact Or.inl hOld
        · exact Or.inr (Or.inl (by rw [hOk]))
      · exact Or.inl hSignaled
  | waitForSingleObject name' signaled =>
      simp only [apply] at hApply
      split at hApply <;> cases hApply
      exact Or.inl hSignaled
  | closeHandle name' =>
      simp only [apply, Option.some.injEq] at hApply
      subst hApply
      rw [signaled_handles] at hSignaled
      exact Or.inl hSignaled

/-
  An event that a process creates without a signal has one
  only if an object with a signal existed.
-/
theorem signaled_of_create
    {name : N}
    {outcome : CreateOutcome}
    (hApply :
      (createEvent name false outcome).apply events p =
        some events')
    (hOutcome : outcome ≠ .failed)
    (hSignaled : (events' name).signaled = true) :
    (events name).exists? = true ∧
      (events name).signaled = true := by
  simp only [apply] at hApply
  split at hApply
  · simp only [Option.some.injEq] at hApply
    subst hApply
    simp at hSignaled
  · rename_i hExists
    simp only [Option.some.injEq] at hApply
    subst hApply
    rw [Function.update_self] at hSignaled
    exact ⟨hExists, hSignaled⟩
  · exact absurd rfl hOutcome
  · cases hApply

/- A wait that succeeds saw a signal. -/
theorem signaled_of_wait
    {name : N}
    (hApply :
      (waitForSingleObject name true).apply events p =
        some events') :
    (events name).signaled = true := by
  simp only [apply] at hApply
  split at hApply <;> [skip; cases hApply]
  assumption

end EventCall
