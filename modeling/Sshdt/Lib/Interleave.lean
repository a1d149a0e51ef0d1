import Mathlib.Data.List.Basic

/-
  Order-preserving merges of two lists.

  `Interleaves l r m` says that `m` has the elements of `l`
  and of `r`, each once and in the order of its list. A
  queue with two writers grows at its end, and its reader
  takes a first part, so the rules are about the last
  element and about cutting a merge in two.

  Key definitions include:
    * `Interleaves`

  Key theorems include:
    * `Interleaves.concat_left`
    * `Interleaves.concat_right`
    * `Interleaves.of_append`
-/

------------------------------------------------------------
-- Merges
------------------------------------------------------------

/- `m` is a merge of `l` and `r`. -/
inductive Interleaves {α : Type} :
    List α → List α → List α → Prop
| nil : Interleaves [] [] []
| left
    {l r m : List α}
    (x : α)
    (hRest : Interleaves l r m) :
    Interleaves (x :: l) r (x :: m)
| right
    {l r m : List α}
    (x : α)
    (hRest : Interleaves l r m) :
    Interleaves l (x :: r) (x :: m)

namespace Interleaves

variable {α : Type}
variable {l r m : List α}

/- The first list grows at its end. -/
theorem concat_left
    (hMerge : Interleaves l r m)
    (x : α) :
    Interleaves (l ++ [x]) r (m ++ [x]) := by
  induction hMerge with
  | nil => exact .left x .nil
  | left y _ ih => exact .left y ih
  | right y _ ih => exact .right y ih

/- The second list grows at its end. -/
theorem concat_right
    (hMerge : Interleaves l r m)
    (x : α) :
    Interleaves l (r ++ [x]) (m ++ [x]) := by
  induction hMerge with
  | nil => exact .right x .nil
  | left y _ ih => exact .left y ih
  | right y _ ih => exact .right y ih

/- A first part of a merge is a merge of first parts. -/
theorem of_append
    {before after : List α}
    (hMerge : Interleaves l r (before ++ after)) :
    ∃ l₁ l₂ r₁ r₂,
      l = l₁ ++ l₂ ∧ r = r₁ ++ r₂ ∧
        Interleaves l₁ r₁ before ∧
        Interleaves l₂ r₂ after := by
  induction before generalizing l r with
  | nil => exact ⟨[], l, [], r, rfl, rfl, .nil, hMerge⟩
  | cons x before ih =>
      cases hMerge with
      | left _ hRest =>
          rcases ih hRest with
            ⟨l₁, l₂, r₁, r₂, rfl, rfl, hFirst, hLast⟩
          exact ⟨x :: l₁, l₂, r₁, r₂, rfl, rfl,
            .left x hFirst, hLast⟩
      | right _ hRest =>
          rcases ih hRest with
            ⟨l₁, l₂, r₁, r₂, rfl, rfl, hFirst, hLast⟩
          exact ⟨l₁, l₂, x :: r₁, r₂, rfl, rfl,
            .right x hFirst, hLast⟩

end Interleaves
