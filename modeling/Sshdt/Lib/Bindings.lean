import Mathlib.Data.List.Basic

/-
  Lists of key and value pairs in which a later pair wins
  over an earlier one.

  The keys that count are given by a predicate, so that one
  entry may go by several names.

  Key definitions include:
    * `Bindings.values`
    * `Bindings.lastValue`

  Key theorems include:
    * `Bindings.lastValue_append`
    * `Bindings.lastValue_filter`
    * `Bindings.mem_of_lastValue`
-/

------------------------------------------------------------
-- Values Of A Key
------------------------------------------------------------

namespace Bindings

variable {κ α : Type}

/- The values of the keys that meet `p`, in order. -/
def values
    (p : κ → Bool)
    (bindings : List (κ × α)) : List α :=
  (bindings.filter fun b => p b.1).map Prod.snd

/- The value that the last of these pairs gives. -/
def lastValue
    (p : κ → Bool)
    (bindings : List (κ × α)) : Option α :=
  (values p bindings).getLast?

@[simp]
theorem values_nil
    (p : κ → Bool) :
    values p ([] : List (κ × α)) = [] :=
  rfl

@[simp]
theorem values_append
    (p : κ → Bool)
    (l l' : List (κ × α)) :
    values p (l ++ l') = values p l ++ values p l' := by
  simp [values]

@[simp]
theorem lastValue_nil
    (p : κ → Bool) :
    lastValue p ([] : List (κ × α)) = none :=
  rfl

/- Of two lists the second wins. -/
@[simp]
theorem lastValue_append
    (p : κ → Bool)
    (l l' : List (κ × α)) :
    lastValue p (l ++ l') =
      (lastValue p l').or (lastValue p l) := by
  simp [lastValue, List.getLast?_append]

@[simp]
theorem values_singleton
    (p : κ → Bool)
    (key : κ)
    (value : α) :
    values p [(key, value)] =
      if p key then [value] else [] := by
  cases hKey : p key <;> simp [values, hKey]

@[simp]
theorem lastValue_singleton
    (p : κ → Bool)
    (key : κ)
    (value : α) :
    lastValue p [(key, value)] =
      if p key then some value else none := by
  cases hKey : p key <;> simp [lastValue, hKey]

/- The last value is one of the values. -/
theorem mem_of_lastValue
    {p : κ → Bool}
    {l : List (κ × α)}
    {value : α}
    (hLast : lastValue p l = some value) :
    ∃ key, (key, value) ∈ l ∧ p key = true := by
  have hMem := List.mem_of_getLast? hLast
  simp only [values, List.mem_map, List.mem_filter] at hMem
  rcases hMem with ⟨⟨key, found⟩, ⟨hMem, hKey⟩, hValue⟩
  simp only at hKey hValue
  subst hValue
  exact ⟨key, hMem, hKey⟩

theorem values_eq_nil
    {p : κ → Bool}
    {l : List (κ × α)}
    (hNone : ∀ b ∈ l, p b.1 = false) :
    values p l = [] := by
  rw [values, List.map_eq_nil_iff, List.filter_eq_nil_iff]
  intro b hMem
  simp [hNone b hMem]

/- No matching pair, no value. -/
theorem lastValue_eq_none
    {p : κ → Bool}
    {l : List (κ × α)}
    (hNone : ∀ b ∈ l, p b.1 = false) :
    lastValue p l = none := by
  rw [lastValue, values_eq_nil hNone]
  rfl

/- A filter that keeps every matching pair. -/
theorem values_filter
    {p : κ → Bool}
    {keep : κ × α → Bool}
    {l : List (κ × α)}
    (hKeep : ∀ b, p b.1 = true → keep b = true) :
    values p (l.filter keep) = values p l := by
  rw [values, values, List.filter_filter]
  congr 1
  apply List.filter_congr
  intro b _
  cases hMatch : p b.1 with
  | false => rfl
  | true => simp [hKeep b hMatch]

theorem lastValue_filter
    {p : κ → Bool}
    {keep : κ × α → Bool}
    {l : List (κ × α)}
    (hKeep : ∀ b, p b.1 = true → keep b = true) :
    lastValue p (l.filter keep) = lastValue p l := by
  rw [lastValue, lastValue, values_filter hKeep]

end Bindings
