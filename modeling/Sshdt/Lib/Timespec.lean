import Mathlib.Data.List.Basic

/-
  Points in time of the Rust standard library, as Unix
  systems keep them: seconds in a signed 64-bit integer and
  the nanoseconds within the second. A span has its seconds
  in an unsigned one, so that not every span can be added to
  every point.

  Key definitions include:
    * `Timespec`
    * `Timespec.Span`
    * `Timespec.checkedAdd`

  Key theorems include:
    * `Timespec.checkedAdd_fromSecs`
    * `Timespec.isSome_checkedAdd_fromSecs`
-/

------------------------------------------------------------
-- Points And Spans
------------------------------------------------------------

/- The nanoseconds of a second. -/
def nanosPerSec : Nat :=
  1000000000

/- The seconds of a point are below this, 2 to the 63. -/
def secsLimit : Int :=
  9223372036854775808

/- `std::time::Instant`. -/
structure Timespec where
  secs : Int
  nanos : Nat
  secs_ge : -secsLimit ≤ secs
  secs_lt : secs < secsLimit
  nanos_lt : nanos < nanosPerSec
  deriving DecidableEq

namespace Timespec

/- `std::time::Duration`. -/
structure Span where
  secs : UInt64
  nanos : Nat
  nanos_lt : nanos < nanosPerSec

/- `Duration::from_secs`. -/
def Span.fromSecs
    (secs : UInt64) : Span where
  secs
  nanos := 0
  nanos_lt := by decide

/- The point with these seconds, if there is one. -/
def ofSecs
    (secs : Int)
    (nanos : Nat)
    (hNanos : nanos < nanosPerSec) : Option Timespec :=
  if hSecs : -secsLimit ≤ secs ∧ secs < secsLimit then
    some
      { secs, nanos, secs_ge := hSecs.1, secs_lt := hSecs.2
        nanos_lt := hNanos }
  else
    none

/-
  `Instant::checked_add`: the seconds, and one more when the
  nanoseconds make up a second.
-/
def checkedAdd
    (t : Timespec)
    (span : Span) : Option Timespec :=
  (ofSecs (t.secs + span.secs.toNat) t.nanos
    t.nanos_lt).bind fun sum =>
      if hCarry :
          nanosPerSec ≤ t.nanos + span.nanos then
        ofSecs (sum.secs + 1)
          (t.nanos + span.nanos - nanosPerSec)
          (by
            have hNanos := t.nanos_lt
            have hSpan := span.nanos_lt
            omega)
      else
        ofSecs sum.secs (t.nanos + span.nanos)
          (Nat.not_le.mp hCarry)

/- A point that is kept as it is. -/
theorem ofSecs_self
    (t : Timespec) :
    ofSecs t.secs t.nanos t.nanos_lt = some t := by
  rw [ofSecs, dif_pos ⟨t.secs_ge, t.secs_lt⟩]

/- Without nanoseconds there is nothing to carry. -/
theorem checkedAdd_fromSecs
    (t : Timespec)
    (secs : UInt64) :
    t.checkedAdd (.fromSecs secs) =
      ofSecs (t.secs + secs.toNat) t.nanos t.nanos_lt := by
  unfold checkedAdd
  cases hSum :
      ofSecs (t.secs + secs.toNat) t.nanos t.nanos_lt with
  | none =>
      have hFirst :
          ofSecs (t.secs + (Span.fromSecs secs).secs.toNat)
            t.nanos t.nanos_lt = none :=
        hSum
      rw [hFirst, Option.bind_none]
  | some sum =>
      have hFirst :
          ofSecs (t.secs + (Span.fromSecs secs).secs.toNat)
            t.nanos t.nanos_lt = some sum :=
        hSum
      have hNanos :
          t.nanos + (Span.fromSecs secs).nanos =
            sum.nanos := by
        unfold ofSecs at hSum
        split at hSum <;> [skip; cases hSum]
        cases hSum
        rfl
      have hNoCarry :
          ¬ nanosPerSec ≤
            t.nanos + (Span.fromSecs secs).nanos := by
        rw [hNanos]
        exact Nat.not_le.mpr sum.nanos_lt
      rw [hFirst, Option.bind_some, dif_neg hNoCarry]
      simp only [hNanos]
      exact ofSecs_self sum

/- Whole seconds: the sum has to be within 63 bits. -/
theorem isSome_checkedAdd_fromSecs
    (t : Timespec)
    (secs : UInt64) :
    (t.checkedAdd (.fromSecs secs)).isSome = true ↔
      t.secs + secs.toNat < secsLimit := by
  have hGe := t.secs_ge
  rw [checkedAdd_fromSecs, ofSecs]
  split
  · rename_i hRange
    exact iff_of_true rfl hRange.2
  · rename_i hRange
    refine iff_of_false Bool.false_ne_true ?_
    intro hLess
    exact hRange ⟨by omega, hLess⟩

end Timespec
