import Sshdt.Lib.Text
import Mathlib.Data.Nat.Digits.Defs

/-
  The texts that `str::parse` reads as unsigned integers.

  A numeral is an optional plus sign and one or more decimal
  digits. Its value is that of its digits in base ten, most
  significant first.

  Key definitions include:
    * `Numeral`
    * `Numeral.text`
    * `Numeral.value`

  Key theorems include:
    * `Numeral.parseUnsigned_iff`
    * `Numeral.parseU64_iff`
-/

------------------------------------------------------------
-- Numerals
------------------------------------------------------------

/- A plus sign or none, and digits. -/
structure Numeral where
  plus : Bool
  digits : List (Fin 10)
  nonempty : digits ≠ []

namespace Numeral

/- The character of a digit. -/
def digitChar
    (d : Fin 10) : Char :=
  Nat.digitChar d.val

def text
    (numeral : Numeral) : Text :=
  (if numeral.plus then ['+'] else []) ++
    numeral.digits.map digitChar

def value
    (numeral : Numeral) : Nat :=
  Nat.ofDigits 10 (numeral.digits.reverse.map Fin.val)

/- A numeral ends in a digit. -/
theorem getLast?_text
    (numeral : Numeral) :
    ∃ d : Fin 10,
      numeral.text.getLast? = some (digitChar d) := by
  rcases numeral with ⟨plus, digits, hNonempty⟩
  rcases List.eq_nil_or_concat digits with
    hNil | ⟨init, last, hEq⟩
  · exact (hNonempty hNil).elim
  · refine ⟨last, ?_⟩
    rw [List.concat_eq_append] at hEq
    simp [text, hEq]

end Numeral

------------------------------------------------------------
-- Reading Digits
------------------------------------------------------------

namespace Numeral

theorem digit?_digitChar
    (d : Fin 10) :
    Text.digit? (digitChar d) = some d.val := by
  revert d
  decide

theorem digitChar_ne_plus
    (d : Fin 10) :
    digitChar d ≠ '+' := by
  revert d
  decide

/- Only the ten digits are read. -/
theorem eq_digitChar
    {c : Char}
    {k : Nat}
    (hDigit : Text.digit? c = some k) :
    ∃ d : Fin 10, c = digitChar d ∧ k = d.val := by
  unfold Text.digit? at hDigit
  split at hDigit <;> [skip; cases hDigit]
  next hRange =>
    have hLow : 48 ≤ c.toNat := hRange.1
    have hHigh : c.toNat ≤ 57 := hRange.2
    have hZero : '0'.toNat = 48 := rfl
    have hValue := Option.some.inj hDigit
    rw [hZero] at hValue
    have hLt : k < 10 := by omega
    refine ⟨⟨k, hLt⟩, ?_, rfl⟩
    apply Char.toNat_inj.mp
    rw [digitChar, Nat.toNat_digitChar_of_lt_ten hLt]
    omega

/- One step of reading digits. -/
def readDigit
    (n : Nat)
    (c : Char) : Option Nat :=
  (Text.digit? c).map (n * 10 + ·)

/- Reading digits gives the number they continue. -/
theorem foldlM_readDigit
    (digits : List (Fin 10))
    (n : Nat) :
    (digits.map digitChar).foldlM readDigit n =
      some (digits.foldl (fun n d => n * 10 + d.val) n) := by
  induction digits generalizing n with
  | nil => rfl
  | cons d digits ih =>
      have hStep :
          readDigit n (digitChar d) =
            some (n * 10 + d.val) := by
        rw [readDigit, digit?_digitChar]
        rfl
      rw [List.map_cons, List.foldlM_cons, hStep]
      exact ih (n * 10 + d.val)

/- What can be read are digits. -/
theorem exists_digits_of_foldlM
    {t : Text}
    {n value : Nat}
    (hRead : t.foldlM readDigit n = some value) :
    ∃ digits : List (Fin 10), t = digits.map digitChar := by
  induction t generalizing n with
  | nil => exact ⟨[], rfl⟩
  | cons c t ih =>
      rw [List.foldlM_cons] at hRead
      rcases Option.bind_eq_some_iff.mp hRead with
        ⟨next, hStep, hRest⟩
      rcases Option.map_eq_some_iff.mp hStep with
        ⟨k, hDigit, -⟩
      rcases eq_digitChar hDigit with ⟨d, rfl, -⟩
      rcases ih hRest with ⟨digits, rfl⟩
      exact ⟨d :: digits, rfl⟩

/- Reading from the left is evaluating in base ten. -/
theorem foldl_eq_ofDigits
    (digits : List (Fin 10)) :
    digits.foldl (fun n d => n * 10 + d.val) 0 =
      Nat.ofDigits 10 (digits.reverse.map Fin.val) := by
  rw [Nat.ofDigits_eq_foldr, List.foldr_map,
    List.foldr_reverse]
  congr 1
  funext n d
  simp [Nat.add_comm, Nat.mul_comm]

theorem foldlM_digits
    (numeral : Numeral) :
    (numeral.digits.map digitChar).foldlM readDigit 0 =
      some numeral.value := by
  rw [foldlM_readDigit, foldl_eq_ofDigits]
  rfl

end Numeral

------------------------------------------------------------
-- Parsing
------------------------------------------------------------

namespace Numeral

/- The digits of a text, after its plus sign. -/
def withoutPlus
    (t : Text) : Text :=
  match t with
  | '+' :: rest => rest
  | _ => t

theorem parseUnsigned_eq
    (bound : Nat)
    (t : Text) :
    Text.parseUnsigned bound t =
      if withoutPlus t = [] then
        none
      else
        ((withoutPlus t).foldlM readDigit 0).filter
          (· < bound) := by
  unfold Text.parseUnsigned
  by_cases hNil : withoutPlus t = []
  · exact (if_pos hNil).trans (if_pos hNil).symm
  · refine (if_neg hNil).trans
      (Eq.trans ?_ (if_neg hNil).symm)
    split
    next hRead =>
      have hNone :
          (withoutPlus t).foldlM readDigit 0 = none := hRead
      rw [hNone]
      rfl
    next n hRead =>
      have hSome :
          (withoutPlus t).foldlM readDigit 0 = some n := hRead
      rw [hSome, Option.filter_some]
      simp

theorem withoutPlus_text
    (numeral : Numeral) :
    withoutPlus numeral.text =
      numeral.digits.map digitChar := by
  rcases numeral with ⟨plus, digits, hNonempty⟩
  cases plus with
  | true => rfl
  | false =>
      cases digits with
      | nil => rfl
      | cons d digits =>
          have hPlus := digitChar_ne_plus d
          simp [text, withoutPlus, hPlus]

/- A text is its digits, or a plus sign and its digits. -/
theorem eq_withoutPlus
    (t : Text) :
    ∃ plus : Bool,
      t = (if plus then ['+'] else []) ++ withoutPlus t := by
  unfold withoutPlus
  split
  · exact ⟨true, rfl⟩
  · exact ⟨false, rfl⟩

/- `str::parse` reads exactly the numerals below the bound. -/
theorem parseUnsigned_iff
    {bound n : Nat}
    {t : Text} :
    Text.parseUnsigned bound t = some n ↔
      ∃ numeral : Numeral, numeral.text = t ∧
        numeral.value < bound ∧ n = numeral.value := by
  rw [parseUnsigned_eq]
  constructor
  · intro hParse
    split at hParse <;> [cases hParse; skip]
    next hNonempty =>
      rcases Option.filter_eq_some_iff.mp hParse with
        ⟨hRead, hBound⟩
      rcases exists_digits_of_foldlM hRead with
        ⟨digits, hDigits⟩
      rcases eq_withoutPlus t with ⟨plus, hPlus⟩
      have hDigitsNonempty : digits ≠ [] := by
        rintro rfl
        exact hNonempty hDigits
      let numeral : Numeral := ⟨plus, digits, hDigitsNonempty⟩
      have hValue := numeral.foldlM_digits
      rw [← hDigits, hRead, Option.some.injEq] at hValue
      refine ⟨numeral, ?_, ?_, hValue⟩
      · rw [hDigits] at hPlus
        exact hPlus.symm
      · rw [← hValue]
        simpa using hBound
  · rintro ⟨numeral, rfl, hBound, rfl⟩
    have hNonempty :
        withoutPlus numeral.text ≠ [] := by
      rw [withoutPlus_text]
      simpa using numeral.nonempty
    rw [if_neg hNonempty, withoutPlus_text, foldlM_digits]
    simp [hBound]

/- The same for `u64`. -/
theorem parseU64_iff
    {n : UInt64}
    {t : Text} :
    Text.parseU64 t = some n ↔
      ∃ numeral : Numeral, numeral.text = t ∧
        n.toNat = numeral.value := by
  rw [Text.parseU64, Option.map_eq_some_iff]
  constructor
  · rintro ⟨k, hParse, rfl⟩
    rcases parseUnsigned_iff.mp hParse with
      ⟨numeral, hText, hBound, rfl⟩
    refine ⟨numeral, hText, ?_⟩
    exact UInt64.toNat_ofNat_of_lt' hBound
  · rintro ⟨numeral, hText, hValue⟩
    refine ⟨numeral.value, parseUnsigned_iff.mpr
      ⟨numeral, hText, ?_, rfl⟩, ?_⟩
    · rw [← hValue]
      exact n.toNat_lt_size
    · rw [← hValue]
      exact UInt64.ofNat_toNat

end Numeral
