import Mathlib.Algebra.GroupWithZero.Nat
import Mathlib.Data.List.Basic

/-
  Occurrences of a pattern in a text that was put together
  from words, cleaned and cut off.

  `Occurs m k n l` says that `m` occurs in `l` in such a
  place that it ends at position `n` or before when `l` is
  preceded by `k` elements. A pattern without the separator
  that occurs in joined words occurs in one of the words.

  Key definitions include:
    * `Occurs`
    * `joinedLength`

  Key theorems include:
    * `occurs_take_iff`
    * `infix_take_iff`
    * `occurs_map_iff`
    * `occurs_intercalate_iff`
-/

------------------------------------------------------------
-- Occurrences
------------------------------------------------------------

variable {α β : Type}

/-
  `m` occurs in `l` and, counted from `k` elements before
  `l`, ends within the first `n`.
-/
def Occurs
    (m : List α)
    (k n : Nat)
    (l : List α) : Prop :=
  ∃ a c, l = a ++ m ++ c ∧ k + a.length + m.length ≤ n

/- An occurrence in a list that was cut off. -/
theorem occurs_take_iff
    {m l : List α}
    {k n limit : Nat} :
    Occurs m k n (l.take limit) ↔
      ∃ a c, l = a ++ m ++ c ∧
        a.length + m.length ≤ limit ∧
        k + a.length + m.length ≤ n := by
  constructor
  · rintro ⟨a, c, hTake, hEnd⟩
    refine ⟨a, c ++ l.drop limit, ?_, ?_, hEnd⟩
    · rw [← List.append_assoc, ← hTake,
        List.take_append_drop]
    · have hLength := congrArg List.length hTake
      simp only [List.length_append,
        List.length_take] at hLength
      omega
  · rintro ⟨a, c, rfl, hLimit, hEnd⟩
    refine ⟨a, c.take (limit - (a ++ m).length), ?_, hEnd⟩
    have hKept : (a ++ m).length ≤ limit := by
      rw [List.length_append]
      exact hLimit
    rw [List.take_append, List.take_of_length_le hKept]

/- A pattern in the first elements of a list. -/
theorem infix_take_iff
    {m l : List α}
    {n : Nat} :
    m <:+: l.take n ↔ Occurs m 0 n l := by
  have hCut :
      m <:+: l.take n ↔ Occurs m 0 n (l.take n) := by
    constructor
    · rintro ⟨a, c, hTake⟩
      refine ⟨a, c, hTake.symm, ?_⟩
      have hLength := congrArg List.length hTake
      simp only [List.length_append,
        List.length_take] at hLength
      omega
    · rintro ⟨a, c, hTake, _⟩
      exact ⟨a, c, hTake.symm⟩
  rw [hCut, occurs_take_iff]
  constructor
  · rintro ⟨a, c, hSplit, _, hEnd⟩
    exact ⟨a, c, hSplit, hEnd⟩
  · rintro ⟨a, c, hSplit, hEnd⟩
    exact ⟨a, c, hSplit, by omega, hEnd⟩

/- An occurrence in a list that was changed one by one. -/
theorem occurs_map_iff
    {f : α → β}
    {m : List β}
    {l : List α}
    {k n : Nat} :
    Occurs m k n (l.map f) ↔
      ∃ b, b.map f = m ∧ Occurs b k n l := by
  constructor
  · rintro ⟨a', c', hMap, hEnd⟩
    rcases List.map_eq_append_iff.mp hMap with
      ⟨ab, c, rfl, hFirst, rfl⟩
    rcases List.map_eq_append_iff.mp hFirst with
      ⟨a, b, rfl, rfl, rfl⟩
    refine ⟨b, rfl, a, c, rfl, ?_⟩
    simpa using hEnd
  · rintro ⟨b, rfl, a, c, rfl, hEnd⟩
    refine ⟨a.map f, c.map f, by simp, ?_⟩
    simpa using hEnd

------------------------------------------------------------
-- Joined Words
------------------------------------------------------------

/- The elements before a word, separators included. -/
def joinedLength
    (words : List (List α)) : Nat :=
  (words.map fun w => w.length + 1).sum

/- A pattern in a word or after it and its separator. -/
theorem occurs_append_cons_iff
    {m word rest : List α}
    {sep : α}
    {k n : Nat}
    (hSep : sep ∉ m)
    (hNonempty : m ≠ []) :
    Occurs m k n (word ++ sep :: rest) ↔
      Occurs m k n word ∨
        Occurs m (k + (word.length + 1)) n rest := by
  constructor
  · rintro ⟨a, c, hSplit, hEnd⟩
    rw [List.append_assoc] at hSplit
    rcases List.append_eq_append_iff.mp hSplit with
      ⟨before, rfl, hRest⟩ | ⟨after, rfl, hRest⟩
    · -- The word ends before the pattern starts.
      cases before with
      | nil =>
          cases m with
          | nil => exact absurd rfl hNonempty
          | cons x m =>
              simp only [List.nil_append, List.cons_append,
                List.cons.injEq] at hRest
              exact absurd hRest.1 (by
                rintro rfl
                exact hSep List.mem_cons_self)
      | cons x before =>
          simp only [List.cons_append,
            List.cons.injEq] at hRest
          refine Or.inr ⟨before, c, ?_, ?_⟩
          · rw [hRest.2, List.append_assoc]
          · simp only [List.length_append,
              List.length_cons] at hEnd
            omega
    · left
      rcases List.append_eq_append_iff.mp hRest with
        ⟨more, rfl, _⟩ | ⟨inner, rfl, hTail⟩
      · exact ⟨a, more, (List.append_assoc ..).symm, hEnd⟩
      · cases inner with
        | nil =>
            refine ⟨a, [], ?_, hEnd⟩
            simp
        | cons x inner =>
            simp only [List.cons_append,
              List.cons.injEq] at hTail
            rw [hTail.1] at hSep
            exact absurd (by simp) hSep
  · rintro (⟨a, c, rfl, hEnd⟩ | ⟨a, c, rfl, hEnd⟩)
    · exact ⟨a, c ++ sep :: rest, by simp, hEnd⟩
    · refine ⟨word ++ sep :: a, c, by simp, ?_⟩
      simp only [List.length_append, List.length_cons]
      omega

/- A pattern in joined words is in one of them. -/
theorem occurs_intercalate_iff
    {m : List α}
    {words : List (List α)}
    {sep : α}
    {k n : Nat}
    (hSep : sep ∉ m)
    (hNonempty : m ≠ []) :
    Occurs m k n ([sep].intercalate words) ↔
      ∃ before word after, words = before ++ word :: after ∧
        Occurs m (k + joinedLength before) n word := by
  induction words generalizing k with
  | nil =>
      constructor
      · rintro ⟨a, c, hSplit, _⟩
        have hNil : m = [] := by
          have hLength := congrArg List.length hSplit
          simp only [List.intercalate_nil, List.length_nil,
            List.length_append] at hLength
          apply List.length_eq_zero_iff.mp
          omega
        exact absurd hNil hNonempty
      · rintro ⟨before, word, after, hSplit, _⟩
        simp at hSplit
  | cons first words ih =>
      cases words with
      | nil =>
          rw [List.intercalate_singleton]
          constructor
          · intro hOccurs
            exact ⟨[], first, [], rfl, by
              simpa [joinedLength] using hOccurs⟩
          · rintro ⟨before, word, after, hSplit, hOccurs⟩
            cases before with
            | nil =>
                simp only [List.nil_append,
                  List.cons.injEq] at hSplit
                simpa [joinedLength, hSplit.1] using hOccurs
            | cons x before => simp at hSplit
      | cons second words =>
          rw [List.intercalate_cons_cons, List.append_assoc,
            List.singleton_append,
            occurs_append_cons_iff hSep hNonempty, ih]
          constructor
          · rintro (hFirst |
              ⟨before, word, after, hSplit, hOccurs⟩)
            · exact ⟨[], first, second :: words, rfl, by
                simpa [joinedLength] using hFirst⟩
            · refine ⟨first :: before, word, after, ?_, ?_⟩
              · rw [hSplit, List.cons_append]
              · simpa [joinedLength,
                  Nat.add_assoc] using hOccurs
          · rintro ⟨before, word, after, hSplit, hOccurs⟩
            cases before with
            | nil =>
                simp only [List.nil_append,
                  List.cons.injEq] at hSplit
                left
                simpa [joinedLength, hSplit.1] using hOccurs
            | cons x before =>
                simp only [List.cons_append,
                  List.cons.injEq] at hSplit
                right
                refine ⟨before, word, after, hSplit.2, ?_⟩
                simpa [joinedLength, hSplit.1,
                  Nat.add_assoc] using hOccurs
