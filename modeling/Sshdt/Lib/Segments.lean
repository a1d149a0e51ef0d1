import Mathlib.Data.List.Basic

/-
  A stream that arrives in pieces.

  One read gives the next piece, or the first part of it when
  the reader asks for less. No piece is empty: an empty read
  is the end of the stream. Where the pieces are cut is not
  up to the reader, and `readExact` does not depend on it.

  Key definitions include:
    * `Segment`
    * `Segment.stream`
    * `Segment.readExact`

  Key theorems include:
    * `Segment.readExact_eq_take`
-/

------------------------------------------------------------
-- Reading Exactly So Much
------------------------------------------------------------

/- What one read may give. -/
structure Segment (α : Type) where
  items : List α
  items_ne_nil : items ≠ []

namespace Segment

variable {α : Type}

/- What the pieces are together. -/
def stream
    (segments : List (Segment α)) : List α :=
  segments.flatMap items

/- The piece that is left after its first items. -/
def rest
    (segment : Segment α)
    (n : Nat)
    (hLess : n < segment.items.length) : Segment α where
  items := segment.items.drop n
  items_ne_nil := by
    intro hNil
    rw [List.drop_eq_nil_iff] at hNil
    exact absurd hLess (Nat.not_lt.mpr hNil)

/-
  `read_exact`: read again until there are `n` items, or none
  if the stream ends before.
-/
def readExact :
    Nat → List (Segment α) →
    Option (List α × List (Segment α))
| 0, segments => some ([], segments)
| _ + 1, [] => none
| n + 1, segment :: segments =>
    if hLess : n + 1 < segment.items.length then
      some (segment.items.take (n + 1),
        segment.rest (n + 1) hLess :: segments)
    else
      (readExact (n + 1 - segment.items.length)
        segments).map fun read =>
          (segment.items ++ read.1, read.2)

theorem stream_cons
    (segment : Segment α)
    (segments : List (Segment α)) :
    stream (segment :: segments) =
      segment.items ++ stream segments :=
  List.flatMap_cons

/- Enough items: the first of them, and the others stay. -/
theorem readExact_eq_take
    {n : Nat}
    {segments : List (Segment α)}
    (hEnough : n ≤ (stream segments).length) :
    ∃ unread,
      readExact n segments =
          some ((stream segments).take n, unread) ∧
        stream unread = (stream segments).drop n := by
  induction segments generalizing n with
  | nil =>
      have hZero : n = 0 := Nat.le_zero.mp hEnough
      subst hZero
      exact ⟨[], rfl, rfl⟩
  | cons segment segments ih =>
      cases n with
      | zero => exact ⟨segment :: segments, rfl, rfl⟩
      | succ n =>
          rw [stream_cons] at hEnough ⊢
          rw [readExact]
          by_cases hLess : n + 1 < segment.items.length
          · rw [dif_pos hLess,
              List.take_append_of_le_length
                (Nat.le_of_lt hLess),
              List.drop_append_of_le_length
                (Nat.le_of_lt hLess)]
            refine ⟨_, rfl, ?_⟩
            rw [stream_cons]
            rfl
          · have hWhole := Nat.not_lt.mp hLess
            rw [List.length_append] at hEnough
            rcases ih (by omega :
              n + 1 - segment.items.length ≤
                (stream segments).length) with
              ⟨unread, hRead, hUnread⟩
            rw [dif_neg hLess, hRead, List.take_append,
              List.take_of_length_le hWhole,
              List.drop_append,
              List.drop_eq_nil_of_le hWhole]
            exact ⟨unread, rfl, hUnread⟩

end Segment
