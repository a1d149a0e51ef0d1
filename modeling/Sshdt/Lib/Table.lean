import Mathlib.Data.List.Basic

/-
  Finite maps as lists of key and value pairs, with the
  operations of a hash map.

  Key definitions include:
    * `Table.get`
    * `Table.insert`
    * `Table.remove`
    * `Table.set`
    * `Table.retain`

  Key theorems include:
    * `Table.get_insert`
    * `Table.get_remove`
    * `Table.get_set`
    * `Table.get_retain_of_kept`
-/

------------------------------------------------------------
-- Operations
------------------------------------------------------------

namespace Table

variable {κ α : Type}
variable [DecidableEq κ]

/- The value of a key. -/
def get
    (table : List (κ × α))
    (key : κ) : Option α :=
  (table.find? fun e => e.1 = key).map Prod.snd

/- The table with a key bound anew. -/
def insert
    (table : List (κ × α))
    (key : κ)
    (value : α) : List (κ × α) :=
  (key, value) :: table.filter fun e => e.1 ≠ key

/- The table without a key. -/
def remove
    (table : List (κ × α))
    (key : κ) : List (κ × α) :=
  table.filter fun e => e.1 ≠ key

/- The table with the value of a present key changed. -/
def set
    (table : List (κ × α))
    (key : κ)
    (value : α) : List (κ × α) :=
  table.map fun e => if e.1 = key then (key, value) else e

/- The entries whose value meets a condition. -/
def retain
    (table : List (κ × α))
    (keep : α → Bool) : List (κ × α) :=
  table.filter fun e => keep e.2

end Table

------------------------------------------------------------
-- Lookup After An Operation
------------------------------------------------------------

namespace Table

variable {κ α : Type}
variable [DecidableEq κ]

@[simp]
theorem get_nil
    (key : κ) :
    get ([] : List (κ × α)) key = none :=
  rfl

theorem get_cons
    (e : κ × α)
    (table : List (κ × α))
    (key : κ) :
    get (e :: table) key =
      if e.1 = key then some e.2 else get table key := by
  by_cases hKey : e.1 = key <;> simp [get, hKey]

/- Removing a key changes the lookup of no other key. -/
theorem get_remove
    (table : List (κ × α))
    (key other : κ) :
    get (remove table key) other =
      if other = key then none else get table other := by
  induction table with
  | nil => simp [remove]
  | cons e table ih =>
      unfold remove at ih ⊢
      by_cases hDropped : e.1 = key
      · rw [List.filter_cons_of_neg (by simp [hDropped]), ih,
          get_cons, hDropped]
        by_cases hSame : other = key
        · simp [hSame]
        · simp [hSame, Ne.symm hSame]
      · rw [List.filter_cons_of_pos (by simp [hDropped]),
          get_cons, get_cons, ih]
        by_cases hHere : e.1 = other
        · simp [hHere, hHere ▸ hDropped]
        · simp [hHere]

theorem get_insert
    (table : List (κ × α))
    (key other : κ)
    (value : α) :
    get (insert table key value) other =
      if other = key then some value else get table other := by
  have hRest := get_remove table key other
  unfold remove at hRest
  rw [insert, get_cons, hRest]
  by_cases hSame : other = key
  · simp [hSame]
  · simp [hSame, Ne.symm hSame]

theorem get_set
    (table : List (κ × α))
    (key other : κ)
    (value : α) :
    get (set table key value) other =
      if other = key then
        (get table other).map fun _ => value
      else
        get table other := by
  induction table with
  | nil => simp [set]
  | cons e table ih =>
      unfold set at ih ⊢
      rw [List.map_cons, get_cons, get_cons, ih]
      by_cases hChanged : e.1 = key
      · by_cases hSame : other = key
        · simp [hChanged, hSame]
        · simp [hChanged, hSame, Ne.symm hSame]
      · by_cases hHere : e.1 = other
        · simp [hHere, hHere ▸ hChanged]
        · simp [hChanged, hHere]

/- A value found under a key is bound to it. -/
theorem mem_of_get
    {table : List (κ × α)}
    {key : κ}
    {value : α}
    (hGet : get table key = some value) :
    (key, value) ∈ table := by
  rw [get, Option.map_eq_some_iff] at hGet
  rcases hGet with ⟨⟨found, v⟩, hFind, rfl⟩
  have hKey := List.find?_some hFind
  simp only [decide_eq_true_eq] at hKey
  exact hKey ▸ List.mem_of_find?_eq_some hFind

/- The lookup of a value that is kept stays as it was. -/
theorem get_retain_of_kept
    {table : List (κ × α)}
    {keep : α → Bool}
    {key : κ}
    {value : α}
    (hGet : get table key = some value)
    (hKeep : keep value = true) :
    get (retain table keep) key = some value := by
  induction table with
  | nil => simp at hGet
  | cons e table ih =>
      unfold retain at ih ⊢
      rw [get_cons] at hGet
      by_cases hHere : e.1 = key
      · rw [if_pos hHere, Option.some.injEq] at hGet
        rw [List.filter_cons_of_pos (by rw [hGet, hKeep]),
          get_cons, if_pos hHere, hGet]
      · rw [if_neg hHere] at hGet
        rw [List.filter_cons]
        split
        · rw [get_cons, if_neg hHere]
          exact ih hGet
        · exact ih hGet

omit [DecidableEq κ] in
/- Retaining binds nothing anew. -/
theorem mem_of_mem_retain
    {table : List (κ × α)}
    {keep : α → Bool}
    {e : κ × α}
    (hMem : e ∈ retain table keep) :
    e ∈ table :=
  (List.mem_filter.mp hMem).1

/- An entry of the table with a key bound anew. -/
theorem mem_insert
    {table : List (κ × α)}
    {key other : κ}
    {value found : α}
    (hMem : (other, found) ∈ insert table key value) :
    (other = key ∧ found = value) ∨
      (other, found) ∈ table := by
  rcases List.mem_cons.mp hMem with hNew | hOld
  · rw [Prod.mk.injEq] at hNew
    exact Or.inl hNew
  · exact Or.inr (List.mem_filter.mp hOld).1

/- A key that is bound nowhere has no value. -/
theorem get_eq_none_iff
    (table : List (κ × α))
    (key : κ) :
    get table key = none ↔ key ∉ table.map Prod.fst := by
  simp only [get, Option.map_eq_none_iff, List.find?_eq_none,
    decide_eq_true_eq, List.mem_map, not_exists, not_and]

/- Removing a key leaves the other keys once each. -/
theorem nodup_remove
    {table : List (κ × α)}
    {key : κ}
    (hNodup : (table.map Prod.fst).Nodup) :
    ((remove table key).map Prod.fst).Nodup :=
  hNodup.sublist (List.filter_sublist.map Prod.fst)

/- A key bound anew is bound once. -/
theorem nodup_insert
    {table : List (κ × α)}
    {key : κ}
    {value : α}
    (hNodup : (table.map Prod.fst).Nodup) :
    ((insert table key value).map Prod.fst).Nodup := by
  rw [insert, List.map_cons, List.nodup_cons]
  refine ⟨?_, nodup_remove hNodup⟩
  intro hMem
  rcases List.mem_map.mp hMem with ⟨e, hKept, hKey⟩
  simp [List.mem_filter, hKey] at hKept

@[simp]
theorem keys_set
    (table : List (κ × α))
    (key : κ)
    (value : α) :
    (set table key value).map Prod.fst =
      table.map Prod.fst := by
  rw [set, List.map_map]
  apply List.map_congr_left
  intro e _
  by_cases hKey : e.1 = key <;> simp [hKey]

end Table
