import Sshdt.Lib.NetDisplay

/-
  What the address readers take from a text.

  The characters of an address literal are digits, dots and
  colons, and those of an IPv4 literal digits and dots. An
  IPv4 literal is read in the same way before any text that
  does not go on with a digit.

  Key definitions include:
    * `Net.Takes`
    * `Net.Stays`
    * `Net.LiteralChar`

  Key theorems include:
    * `Net.readIpv4Addr_takes`
    * `Net.readIpv6Addr_takes`
    * `Net.readIpv4Addr_stays`
    * `IpAddr.literalChar_of_parse`
    * `IpAddr.parse_v4_append`
-/

------------------------------------------------------------
-- Readers
------------------------------------------------------------

namespace Net

variable {α : Type}

/- The reader takes only characters of a kind. -/
def Takes
    (P : Char → Prop)
    (reader : Reader α) : Prop :=
  ∀ t value rest, reader t = some (value, rest) →
    ∃ taken, t = taken ++ rest ∧ ∀ c ∈ taken, P c

/- What the reader takes does not depend on such a text. -/
def Stays
    (more : Text)
    (reader : Reader α) : Prop :=
  ∀ t value rest, reader t = some (value, rest) →
    reader (t ++ more) = some (value, rest ++ more)

theorem Takes.mono
    {P Q : Char → Prop}
    {reader : Reader α}
    (hTakes : Takes P reader)
    (hWider : ∀ c, P c → Q c) :
    Takes Q reader := by
  intro t value rest hRead
  rcases hTakes t value rest hRead with ⟨taken, hText, hChars⟩
  exact ⟨taken, hText, fun c hc => hWider c (hChars c hc)⟩

/- One text taken after another. -/
theorem taken_append
    {P : Char → Prop}
    {t middle rest : Text}
    (hFirst : ∃ taken, t = taken ++ middle ∧ ∀ c ∈ taken, P c)
    (hSecond :
      ∃ taken, middle = taken ++ rest ∧ ∀ c ∈ taken, P c) :
    ∃ taken, t = taken ++ rest ∧ ∀ c ∈ taken, P c := by
  rcases hFirst with ⟨first, rfl, hFirst⟩
  rcases hSecond with ⟨second, rfl, hSecond⟩
  refine ⟨first ++ second, by simp, ?_⟩
  intro c hc
  rcases List.mem_append.mp hc with hMem | hMem
  · exact hFirst c hMem
  · exact hSecond c hMem

theorem readGivenChar_takes
    {P : Char → Prop}
    {c : Char}
    (hChar : P c) :
    Takes P (readGivenChar c) := by
  intro t value rest hRead
  cases t with
  | nil => cases hRead
  | cons d tail =>
      simp only [readGivenChar] at hRead
      split at hRead <;> [skip; cases hRead]
      next hSame =>
        cases hRead
        exact ⟨[d], rfl, by simpa [hSame] using hChar⟩

theorem readGivenChar_stays
    (more : Text)
    (c : Char) :
    Stays more (readGivenChar c) := by
  intro t value rest hRead
  cases t with
  | nil => cases hRead
  | cons d tail =>
      simp only [readGivenChar, List.cons_append] at hRead ⊢
      split at hRead <;> [skip; cases hRead]
      next hSame =>
        cases hRead
        rw [if_pos hSame]

theorem readSeparator_takes
    {P : Char → Prop}
    {sep : Char}
    {inner : Reader α}
    (hSep : P sep)
    (hInner : Takes P inner)
    (index : Nat) :
    Takes P (readSeparator sep index inner) := by
  intro t value rest hRead
  simp only [readSeparator] at hRead
  split at hRead
  · exact hInner t value rest hRead
  · rcases Option.bind_eq_some_iff.mp hRead with
      ⟨⟨given, middle⟩, hGiven, hRest⟩
    exact taken_append
      (readGivenChar_takes hSep t given middle hGiven)
      (hInner middle value rest hRest)

theorem readSeparator_stays
    {more : Text}
    {inner : Reader α}
    (hInner : Stays more inner)
    (sep : Char)
    (index : Nat) :
    Stays more (readSeparator sep index inner) := by
  intro t value rest hRead
  simp only [readSeparator] at hRead ⊢
  by_cases hIndex : index = 0
  · rw [if_pos hIndex] at hRead ⊢
    exact hInner t value rest hRead
  · rw [if_neg hIndex] at hRead ⊢
    rcases Option.bind_eq_some_iff.mp hRead with
      ⟨⟨given, middle⟩, hGiven, hRest⟩
    rw [readGivenChar_stays more sep t given middle hGiven,
      Option.bind_some]
    exact hInner middle value rest hRest

end Net

------------------------------------------------------------
-- Numbers
------------------------------------------------------------

namespace Net

/- A digit of the radix. -/
def IsDigit
    (radix : Nat)
    (c : Char) : Prop :=
  toDigit radix c ≠ none

theorem spanDigits_taken
    (radix : Nat)
    (t : Text) :
    ∃ taken, t = taken ++ (spanDigits radix t).2 ∧
      ∀ c ∈ taken, IsDigit radix c := by
  induction t with
  | nil => exact ⟨[], rfl, by simp⟩
  | cons c t ih =>
      cases hDigit : toDigit radix c with
      | none => exact ⟨[], by simp [spanDigits, hDigit], by simp⟩
      | some d =>
          rcases ih with ⟨taken, hText, hChars⟩
          refine ⟨c :: taken, ?_, ?_⟩
          · simpa [spanDigits, hDigit] using hText
          · intro x hx
            rcases List.mem_cons.mp hx with rfl | hMem
            · simp [IsDigit, hDigit]
            · exact hChars x hMem

theorem readNumber_takes
    (radix : Nat)
    (maxDigits : Option Nat)
    (allowZeroPrefix : Bool)
    (bound : Nat) :
    Takes (IsDigit radix)
      (readNumber radix maxDigits allowZeroPrefix bound) := by
  intro t value rest hRead
  rw [rest_of_readNumber hRead]
  exact spanDigits_taken radix t

/- A run of digits is over where no digit follows. -/
theorem spanDigits_append
    {radix : Nat}
    {more : Text}
    (hEnds : EndsNumber radix more)
    (t : Text) :
    spanDigits radix (t ++ more) =
      ((spanDigits radix t).1,
        (spanDigits radix t).2 ++ more) := by
  induction t with
  | nil =>
      cases more with
      | nil => rfl
      | cons c more => simp [spanDigits, hEnds c more rfl]
  | cons c t ih =>
      rw [List.cons_append, spanDigits, spanDigits, ih]
      cases toDigit radix c with
      | none => rfl
      | some d => rfl

theorem readNumber_stays
    {radix : Nat}
    {more : Text}
    (hEnds : EndsNumber radix more)
    (maxDigits : Option Nat)
    (allowZeroPrefix : Bool)
    (bound : Nat) :
    Stays more
      (readNumber radix maxDigits allowZeroPrefix bound) := by
  intro t value rest hRead
  cases t with
  | nil =>
      rw [readNumber_none endsNumber_nil] at hRead
      cases hRead
  | cons c t =>
      have hSpan := spanDigits_append hEnds (c :: t)
      have hHead : (c :: t ++ more).head? = (c :: t).head? :=
        rfl
      simp only [readNumber, hSpan, hHead] at hRead ⊢
      split at hRead <;> [cases hRead; skip]
      next hDigits =>
        rw [if_neg hDigits]
        split at hRead <;> [cases hRead; skip]
        next hMax =>
          rw [if_neg hMax]
          split at hRead <;> [cases hRead; skip]
          next hZero =>
            rw [if_neg hZero]
            split at hRead <;> [skip; cases hRead]
            next hBound =>
              cases hRead
              rw [if_pos hBound]

end Net

------------------------------------------------------------
-- Addresses
------------------------------------------------------------

namespace Net

/- The characters of IPv4 literals. -/
def Ipv4Char
    (c : Char) : Prop :=
  IsDigit 10 c ∨ c = '.'

/- The characters of address literals. -/
def LiteralChar
    (c : Char) : Prop :=
  IsDigit 16 c ∨ c = '.' ∨ c = ':'

theorem IsDigit.hex
    {c : Char}
    (hDigit : IsDigit 10 c) :
    IsDigit 16 c := by
  rcases Option.ne_none_iff_exists'.mp hDigit with
    ⟨d, hTen⟩
  rw [toDigit, Option.filter_eq_some_iff] at hTen
  have hLt : d < 10 := by simpa using hTen.2
  have hHex : toDigit 16 c = some d := by
    rw [toDigit, Option.filter_eq_some_iff]
    exact ⟨hTen.1, by simpa using Nat.lt_trans hLt (by omega)⟩
  simp [IsDigit, hHex]

theorem Ipv4Char.literalChar
    {c : Char}
    (hChar : Ipv4Char c) :
    LiteralChar c := by
  rcases hChar with hDigit | hDot
  · exact .inl hDigit.hex
  · exact .inr (.inl hDot)

theorem readIpv4Addr_takes :
    Takes Ipv4Char readIpv4Addr := by
  have hOctet : ∀ index, Takes Ipv4Char
      (readSeparator '.' index
        (readNumber 10 (some 3) false 256)) :=
    readSeparator_takes (.inr rfl)
      ((readNumber_takes _ _ _ _).mono fun c => .inl)
  intro t addr rest hRead
  simp only [readIpv4Addr, Option.bind_eq_bind,
    Option.bind_eq_some_iff] at hRead
  rcases hRead with ⟨⟨a, t₁⟩, hFirst, ⟨b, t₂⟩, hSecond,
    ⟨c, t₃⟩, hThird, ⟨d, t₄⟩, hFourth, hValue⟩
  cases hValue
  exact taken_append (hOctet 0 t a t₁ hFirst)
    (taken_append (hOctet 1 t₁ b t₂ hSecond)
      (taken_append (hOctet 2 t₂ c t₃ hThird)
        (hOctet 3 t₃ d t₄ hFourth)))

theorem readIpv4Addr_stays
    {more : Text}
    (hEnds : EndsNumber 10 more) :
    Stays more readIpv4Addr := by
  have hOctet : ∀ index, Stays more
      (readSeparator '.' index
        (readNumber 10 (some 3) false 256)) :=
    readSeparator_stays (readNumber_stays hEnds _ _ _) '.'
  intro t addr rest hRead
  simp only [readIpv4Addr, Option.bind_eq_bind,
    Option.bind_eq_some_iff] at hRead
  rcases hRead with ⟨⟨a, t₁⟩, hFirst, ⟨b, t₂⟩, hSecond,
    ⟨c, t₃⟩, hThird, ⟨d, t₄⟩, hFourth, hValue⟩
  cases hValue
  simp only [readIpv4Addr, Option.bind_eq_bind,
    hOctet 0 t a t₁ hFirst, hOctet 1 t₁ b t₂ hSecond,
    hOctet 2 t₂ c t₃ hThird, hOctet 3 t₃ d t₄ hFourth,
    Option.bind_some]

theorem readGroups_taken
    (index left : Nat)
    (t : Text) :
    ∃ taken, t = taken ++ (readGroups index left t).2.2 ∧
      ∀ c ∈ taken, LiteralChar c := by
  induction left generalizing index t with
  | zero => exact ⟨[], rfl, by simp⟩
  | succ left ih =>
      have hColon : LiteralChar ':' := .inr (.inr rfl)
      have hIpv4 := readSeparator_takes hColon
        (readIpv4Addr_takes.mono fun c => Ipv4Char.literalChar)
        index
      have hGroup := readSeparator_takes hColon
        ((readNumber_takes 16 (some 4) true 65536).mono
          fun c => Or.inl) index
      have hEmpty : ∃ taken, t = taken ++ t ∧
          ∀ c ∈ taken, LiteralChar c :=
        ⟨[], rfl, by simp⟩
      rw [readGroups]
      dsimp only
      split
      next addr rest hEmbedded =>
        split at hEmbedded <;> [skip; cases hEmbedded]
        exact hIpv4 t addr rest hEmbedded
      next hNone =>
        split
        · exact hEmpty
        next group rest hRead =>
          exact taken_append (hGroup t group rest hRead)
            (ih (index + 1) rest)

theorem readIpv6Addr_takes :
    Takes LiteralChar readIpv6Addr := by
  have hColon : Takes LiteralChar (readGivenChar ':') :=
    readGivenChar_takes (.inr (.inr rfl))
  intro t addr rest hRead
  have hHead := readGroups_taken 0 8 t
  simp only [readIpv6Addr, Option.bind_eq_bind] at hRead
  split at hRead
  · cases hRead
    exact hHead
  · split at hRead <;> [cases hRead; skip]
    rcases Option.bind_eq_some_iff.mp hRead with
      ⟨⟨given, t₁⟩, hFirst, hRead⟩
    rcases Option.bind_eq_some_iff.mp hRead with
      ⟨⟨given', t₂⟩, hSecond, hRead⟩
    cases hRead
    exact taken_append hHead
      (taken_append (hColon _ given t₁ hFirst)
        (taken_append (hColon t₁ given' t₂ hSecond)
          (readGroups_taken 0 _ t₂)))

theorem readIpAddr_takes :
    Takes LiteralChar readIpAddr := by
  intro t addr rest hRead
  simp only [readIpAddr] at hRead
  split at hRead
  next addr₄ rest₄ hIpv4 =>
    cases hRead
    exact (readIpv4Addr_takes.mono
      fun c => Ipv4Char.literalChar) t addr₄ _ hIpv4
  next hNone =>
    rcases Option.map_eq_some_iff.mp hRead with
      ⟨⟨addr₆, rest₆⟩, hIpv6, hValue⟩
    cases hValue
    exact readIpv6Addr_takes t addr₆ _ hIpv6

end Net

------------------------------------------------------------
-- Literals
------------------------------------------------------------

namespace IpAddr

open Net

theorem parse_iff
    {t : Text}
    {addr : IpAddr} :
    parse t = some addr ↔ readIpAddr t = some (addr, []) := by
  unfold parse parseWith
  split
  next value hRead => simp [hRead]
  next hOther =>
    constructor
    · intro hNone
      cases hNone
    · intro hRead
      exact absurd hRead (hOther addr)

theorem parse_v4_iff
    {t : Text}
    {addr : BitVec 32} :
    parse t = some (.v4 addr) ↔
      readIpv4Addr t = some (addr, []) := by
  rw [parse_iff, readIpAddr]
  cases readIpv4Addr t with
  | some result => simp [Prod.ext_iff]
  | none => simp

/- A literal is made of digits, dots and colons. -/
theorem literalChar_of_parse
    {t : Text}
    {addr : IpAddr}
    (hParse : parse t = some addr) :
    ∀ c ∈ t, LiteralChar c := by
  rcases readIpAddr_takes t addr [] (parse_iff.mp hParse)
    with ⟨taken, hText, hChars⟩
  rw [List.append_nil] at hText
  rw [hText]
  exact hChars

theorem ne_nil_of_parse
    {t : Text}
    {addr : IpAddr}
    (hParse : parse t = some addr) :
    t ≠ [] := by
  rintro rfl
  have hNone : parse [] = none := by decide
  rw [hNone] at hParse
  cases hParse

/- With more text after it, it is no literal. -/
theorem parse_v4_append
    {t more : Text}
    {addr : BitVec 32}
    (hParse : parse t = some (.v4 addr))
    (hEnds : EndsNumber 10 more)
    (hMore : more ≠ []) :
    parse (t ++ more) = none := by
  have hRead := readIpv4Addr_stays hEnds t addr []
    (parse_v4_iff.mp hParse)
  cases more with
  | nil => exact (hMore rfl).elim
  | cons c more =>
      simp [parse, parseWith, readIpAddr, hRead]

end IpAddr
