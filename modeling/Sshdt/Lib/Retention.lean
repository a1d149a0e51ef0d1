import Mathlib.Data.List.Lex
import Mathlib.Data.List.Sort

/-
  Keeping the last few elements of a sorted list.

  The elements of a list without repetition are put in order
  and all but the last `n` of them are given up. Whether an
  element is given up depends on how many are above it.

  Key definitions include:
    * `Retention.sorted`
    * `Retention.excess`

  Key theorems include:
    * `Retention.sorted_lt`
    * `Retention.mem_excess_iff`
    * `Retention.lt_of_excess`
    * `Retention.length_kept`
    * `Retention.getLast?_eq_some_iff`
-/

------------------------------------------------------------
-- Sorting
------------------------------------------------------------

namespace Retention

variable {α : Type}
variable [LinearOrder α]

/- `slice::sort`. -/
def sorted
    (l : List α) : List α :=
  l.insertionSort (· ≤ ·)

@[simp]
theorem mem_sorted
    {l : List α}
    {x : α} :
    x ∈ sorted l ↔ x ∈ l :=
  (List.perm_insertionSort _ l).mem_iff

theorem sorted_perm
    (l : List α) :
    (sorted l).Perm l :=
  List.perm_insertionSort _ l

/- Different elements in order. -/
theorem sorted_lt
    {l : List α}
    (hNodup : l.Nodup) :
    (sorted l).Pairwise (· < ·) := by
  have hLe : (sorted l).Pairwise (· ≤ ·) :=
    List.pairwise_insertionSort _ l
  have hNodup' : (sorted l).Nodup :=
    (sorted_perm l).nodup_iff.mpr hNodup
  apply (hLe.and hNodup').imp
  rintro a b ⟨hOrder, hNe⟩
  exact lt_of_le_of_ne hOrder hNe

end Retention

------------------------------------------------------------
-- Giving Up The First
------------------------------------------------------------

namespace Retention

variable {α : Type}
variable [LinearOrder α]
variable {l : List α}
variable {n : Nat}
variable {x y : α}

/- All but the last `n` elements. -/
def excess
    (n : Nat)
    (l : List α) : List α :=
  l.take (l.length - n)

/-
  An element is given up when there are `n` or more above
  it.
-/
theorem mem_excess_iff
    (hSorted : l.Pairwise (· < ·))
    (hMem : x ∈ l) :
    x ∈ excess n l ↔ n ≤ (l.filter (x < ·)).length := by
  rcases List.append_of_mem hMem with ⟨below, above, rfl⟩
  rw [List.pairwise_append, List.pairwise_cons] at hSorted
  rcases hSorted with ⟨_, ⟨hAbove, _⟩, hBelow⟩
  have hNotBelow : x ∉ below := by
    intro hIn
    exact lt_irrefl x (hBelow x hIn x List.mem_cons_self)
  have hFilter :
      (below ++ x :: above).filter (x < ·) = above := by
    have hFirst : below.filter (x < ·) = [] := by
      rw [List.filter_eq_nil_iff]
      intro b hIn
      have hLt := hBelow b hIn x List.mem_cons_self
      simpa using le_of_lt hLt
    have hLast : above.filter (x < ·) = above := by
      rw [List.filter_eq_self]
      intro a hIn
      simpa using hAbove a hIn
    rw [List.filter_append,
      List.filter_cons_of_neg (by simp), hFirst, hLast,
      List.nil_append]
  have hTake :
      ∀ m, x ∈ (x :: above).take m ↔ 0 < m := by
    intro m
    cases m with
    | zero => simp
    | succ m => simp
  rw [hFilter, excess, List.take_append, List.mem_append,
    hTake, List.length_append, List.length_cons]
  constructor
  · rintro (hIn | hMore)
    · exact absurd (List.mem_of_mem_take hIn) hNotBelow
    · omega
  · intro hMany
    right
    omega

/- What is given up is below what is kept. -/
theorem lt_of_excess
    (hSorted : l.Pairwise (· < ·))
    (hGone : x ∈ excess n l)
    (hMem : y ∈ l)
    (hKept : y ∉ excess n l) :
    x < y := by
  rw [← List.take_append_drop (l.length - n) l] at hSorted hMem
  rcases List.mem_append.mp hMem with hTaken | hLeft
  · exact absurd hTaken hKept
  · exact (List.pairwise_append.mp hSorted).2.2 x hGone y hLeft

omit [LinearOrder α] in
/- At most `n` elements are kept. -/
theorem length_kept
    {keep : α → Bool}
    (hGone : ∀ x ∈ excess n l, keep x = false) :
    (l.filter keep).length ≤ n := by
  have hFirst : (excess n l).filter keep = [] := by
    rw [List.filter_eq_nil_iff]
    intro x hMem
    simp [hGone x hMem]
  have hSplit :
      l.filter keep =
        (l.drop (l.length - n)).filter keep := by
    have hParts :=
      @List.filter_append _ keep (excess n l)
        (l.drop (l.length - n))
    rw [hFirst, List.nil_append, excess,
      List.take_append_drop] at hParts
    exact hParts
  have hLength :=
    List.length_filter_le keep (l.drop (l.length - n))
  rw [List.length_drop] at hLength
  rw [hSplit]
  omega

end Retention

------------------------------------------------------------
-- The Last Element
------------------------------------------------------------

namespace Retention

variable {α : Type}
variable [LinearOrder α]
variable {l : List α}
variable {x : α}

/- The last element is the greatest. -/
theorem getLast?_eq_some_iff
    (hSorted : l.Pairwise (· < ·)) :
    l.getLast? = some x ↔ x ∈ l ∧ ∀ y ∈ l, y ≤ x := by
  constructor
  · intro hLast
    rcases List.getLast?_eq_some_iff.mp hLast with ⟨rest, rfl⟩
    refine ⟨by simp, ?_⟩
    intro y hMem
    rcases List.mem_append.mp hMem with hRest | hSelf
    · exact le_of_lt ((List.pairwise_append.mp hSorted).2.2
        y hRest x List.mem_cons_self)
    · exact le_of_eq (List.mem_singleton.mp hSelf)
  · rintro ⟨hMem, hGreatest⟩
    rcases List.eq_nil_or_concat' l with rfl | ⟨rest, y, rfl⟩
    · cases hMem
    · rw [List.getLast?_concat, Option.some.injEq]
      apply le_antisymm (hGreatest y (by simp))
      rcases List.mem_append.mp hMem with hRest | hSelf
      · exact le_of_lt ((List.pairwise_append.mp hSorted).2.2
          x hRest y List.mem_cons_self)
      · exact le_of_eq (List.mem_singleton.mp hSelf)

end Retention
