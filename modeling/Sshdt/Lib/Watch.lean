import Mathlib.Order.Basic

/-
  The watch channel of `tokio::sync::watch`.

  The channel holds one value and counts its versions. A
  receiver remembers the version it has seen: `borrow` reads
  the value without marking it seen, `changed` completes
  when the versions differ and marks the current one.

  A receiver that acts on what it read and then waits is
  described by `Sees`: unless a newer version is there to
  wake it, the current value is as it was read.

  Key definitions include:
    * `Watch`
    * `Watch.sendModify`
    * `Watch.changed`
    * `Watch.Sees`

  Key theorems include:
    * `Watch.Sees.sendModify`
    * `Watch.Sees.of_pending`
-/

------------------------------------------------------------
-- Channels
------------------------------------------------------------

/- A watch channel. -/
structure Watch (α : Type) where
  value : α
  version : Nat
  closed : Bool

/- What polling `changed` gives. -/
inductive Changed where
  | pending
  | ready (seen : Nat)
  | closed
  deriving DecidableEq, Repr

namespace Watch

variable {α : Type}

/- `watch::channel`. -/
def channel
    (value : α) : Watch α where
  value
  version := 0
  closed := false

/- `Sender::send_modify`. -/
def sendModify
    (w : Watch α)
    (modify : α → α) : Watch α :=
  { w with
    value := modify w.value, version := w.version + 1 }

/- The sender is dropped. -/
def close
    (w : Watch α) : Watch α :=
  { w with closed := true }

/- `Receiver::changed`, for a receiver that has seen `seen`. -/
def changed
    (w : Watch α)
    (seen : Nat) : Changed :=
  if seen ≠ w.version then
    .ready w.version
  else if w.closed then
    .closed
  else
    .pending

end Watch

------------------------------------------------------------
-- Waiting Receivers
------------------------------------------------------------

namespace Watch

variable {α : Type}
variable {w : Watch α}
variable {seen : Nat}
variable {P : α → Prop}

/-
  The receiver is behind the channel, or the current value
  has the property.
-/
def Sees
    (w : Watch α)
    (seen : Nat)
    (P : α → Prop) : Prop :=
  seen = w.version → P w.value

/- What was just read. -/
theorem Sees.of_value
    (hValue : P w.value) :
    w.Sees seen P :=
  fun _ => hValue

/- A new version leaves every receiver behind. -/
theorem Sees.sendModify
    (hSeen : seen ≤ w.version)
    (modify : α → α) :
    (w.sendModify modify).Sees seen P := by
  intro hEq
  simp only [Watch.sendModify] at hEq
  omega

/- With nothing to wake the receiver, the value is as read. -/
theorem Sees.of_pending
    (hSees : w.Sees seen P)
    (hPending : w.changed seen = .pending) :
    P w.value := by
  apply hSees
  by_contra hBehind
  simp [Watch.changed, hBehind] at hPending

/- A completed wait has seen the current version. -/
theorem seen_of_changed
    {seen' : Nat}
    (hChanged : w.changed seen = .ready seen') :
    seen' = w.version := by
  unfold Watch.changed at hChanged
  split at hChanged
  · cases hChanged
    rfl
  · split at hChanged <;> cases hChanged

end Watch
