import Mathlib.Data.List.Basic
import Mathlib.Data.List.GetD

/-
  Arrays that are written at positions.

  An array is a list. Writing at a position replaces what is
  there and extends the array where it is too short, with a
  filler in the gap; nothing is written for no data. The
  array is compared place by place, with the filler beyond
  its end.

  Key definitions include:
    * `Positional.writeAt`
    * `Positional.resize`

  Key theorems include:
    * `Positional.ext_getD`
    * `Positional.writeAt_append`
    * `Positional.writeAt_eq_splice`
    * `Positional.resize_eq_take`
-/

------------------------------------------------------------
-- Writing And Resizing
------------------------------------------------------------

namespace Positional

variable {α : Type}

/- The array with data written at a position. -/
def writeAt
    (filler : α)
    (array : List α)
    (position : Nat)
    (data : List α) : List α :=
  match data with
  | [] => array
  | _ :: _ =>
      (List.range
        (max array.length (position + data.length))).map
        fun i =>
          if position ≤ i ∧ i < position + data.length then
            data.getD (i - position) filler
          else
            array.getD i filler

/- The array cut or extended to a size. -/
def resize
    (filler : α)
    (array : List α)
    (size : Nat) : List α :=
  (List.range size).map fun i => array.getD i filler

end Positional

------------------------------------------------------------
-- Place By Place
------------------------------------------------------------

namespace Positional

variable {α : Type}
variable {filler : α}
variable {array other data : List α}
variable {position : Nat}

/- Arrays of one length that agree place by place. -/
theorem ext_getD
    (hLength : array.length = other.length)
    (hPlaces :
      ∀ i, array.getD i filler = other.getD i filler) :
    array = other := by
  apply List.ext_getElem hLength
  intro i hLeft hRight
  have hPlace := hPlaces i
  rwa [List.getD_eq_getElem _ _ hLeft,
    List.getD_eq_getElem _ _ hRight] at hPlace

theorem getD_map_range
    (n : Nat)
    (f : Nat → α)
    (i : Nat) :
    ((List.range n).map f).getD i filler =
      if i < n then f i else filler := by
  by_cases hBound : i < n
  · rw [if_pos hBound, List.getD_eq_getElem _ _ (by simpa)]
    simp
  · rw [if_neg hBound,
      List.getD_eq_default _ _ (by simpa using hBound)]

theorem length_writeAt
    (hData : data ≠ []) :
    (writeAt filler array position data).length =
      max array.length (position + data.length) := by
  cases data with
  | nil => exact absurd rfl hData
  | cons x data => simp [writeAt]

theorem getD_writeAt
    (hData : data ≠ [])
    (i : Nat) :
    (writeAt filler array position data).getD i filler =
      if position ≤ i ∧ i < position + data.length then
        data.getD (i - position) filler
      else
        array.getD i filler := by
  cases data with
  | nil => exact absurd rfl hData
  | cons x data =>
      simp only [writeAt, getD_map_range]
      split
      · rfl
      · rename_i hBeyond
        rw [if_neg (by omega),
          List.getD_eq_default _ _ (by omega)]

@[simp]
theorem writeAt_nil
    (filler : α)
    (array : List α)
    (position : Nat) :
    writeAt filler array position [] = array :=
  rfl

/- Data written in two pieces, one after the other. -/
theorem writeAt_append
    (filler : α)
    (array : List α)
    (position : Nat)
    (first second : List α) :
    writeAt filler
        (writeAt filler array position first)
        (position + first.length) second =
      writeAt filler array position (first ++ second) := by
  by_cases hFirst : first = []
  · simp [hFirst]
  by_cases hSecond : second = []
  · simp [hSecond]
  have hBoth : first ++ second ≠ [] := by simp [hFirst]
  apply @ext_getD _ filler
  · rw [length_writeAt hSecond, length_writeAt hFirst,
      length_writeAt hBoth, List.length_append]
    omega
  · intro i
    rw [getD_writeAt hSecond, getD_writeAt hFirst,
      getD_writeAt hBoth, List.length_append]
    by_cases hIn : position + first.length ≤ i ∧
        i < position + first.length + second.length
    · rw [if_pos hIn, if_pos (by omega),
        List.getD_append_right _ _ _ _ (by omega)]
      congr 1
      omega
    · rw [if_neg hIn]
      by_cases hBefore :
          position ≤ i ∧ i < position + first.length
      · rw [if_pos hBefore, if_pos (by omega),
          List.getD_append _ _ _ _ (by omega)]
      · rw [if_neg hBefore, if_neg (by omega)]

/- Writing as cutting and putting together. -/
theorem writeAt_eq_splice
    (filler : α)
    (array : List α)
    (position : Nat)
    (hData : data ≠ []) :
    writeAt filler array position data =
      array.take position ++
        List.replicate (position - array.length) filler ++
        data ++ array.drop (position + data.length) := by
  have hFront :
      (array.take position ++
        List.replicate (position - array.length)
          filler).length = position := by
    rw [List.length_append, List.length_take,
      List.length_replicate]
    omega
  apply @ext_getD _ filler
  · rw [length_writeAt hData, List.length_append,
      List.length_append, hFront, List.length_drop]
    omega
  · intro i
    rw [getD_writeAt hData]
    by_cases hBefore : i < position
    · rw [if_neg (by omega), List.append_assoc,
        List.getD_append _ _ _ _ (by omega)]
      by_cases hInside : i < array.length
      · rw [List.getD_append _ _ _ _ (by
          rw [List.length_take]
          omega)]
        simp only [List.getD_eq_getElem?_getD,
          List.getElem?_take, if_pos hBefore]
      · rw [List.getD_eq_default _ _ (by omega),
          List.getD_append_right _ _ _ _ (by
            rw [List.length_take]
            omega)]
        simp only [List.getD_eq_getElem?_getD,
          List.getElem?_replicate]
        split <;> rfl
    · by_cases hIn : i < position + data.length
      · rw [if_pos ⟨by omega, hIn⟩,
          List.getD_append _ _ _ _ (by
            rw [List.length_append, hFront]
            exact hIn),
          List.getD_append_right _ _ _ _ (by omega), hFront]
      · rw [if_neg (by omega),
          List.getD_append_right _ _ _ _ (by
            rw [List.length_append, hFront]
            omega),
          List.length_append, hFront]
        simp only [List.getD_eq_getElem?_getD,
          List.getElem?_drop]
        congr 2
        omega

/- Resizing as cutting and extending. -/
theorem resize_eq_take
    (filler : α)
    (array : List α)
    (size : Nat) :
    resize filler array size =
      array.take size ++
        List.replicate (size - array.length) filler := by
  apply @ext_getD _ filler
  · rw [resize, List.length_map, List.length_range,
      List.length_append, List.length_take,
      List.length_replicate]
    omega
  · intro i
    rw [resize, getD_map_range]
    by_cases hInside : i < (array.take size).length
    · have hBounds := hInside
      rw [List.length_take] at hBounds
      rw [if_pos (by omega),
        List.getD_append _ _ _ _ hInside]
      simp only [List.getD_eq_getElem?_getD,
        List.getElem?_take]
      rw [if_pos (by omega)]
    · have hBounds := hInside
      rw [List.length_take] at hBounds
      rw [List.getD_append_right _ _ _ _ (by omega)]
      simp only [List.getD_eq_getElem?_getD,
        List.getElem?_replicate]
      split
      · rw [List.getElem?_eq_none (by omega)]
        split <;> rfl
      · split <;> rfl

end Positional
