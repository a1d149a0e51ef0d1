import Sshdt.Lib.Text

/-
  Text and its bytes where they are ASCII.

  The bytes of a character are all below 128 or all from 128
  on. An ASCII byte in the encoding of a text is therefore a
  character of its own: code that looks at bytes and code
  that looks at characters see the same.

  Key definitions include:
    * `Text.IsAscii`
    * `Text.byte`

  Key theorems include:
    * `Text.asBytes_of_ascii`
    * `Text.isAscii_of_asBytes`
    * `Text.getLast?_asBytes_iff`
-/

------------------------------------------------------------
-- Characters
------------------------------------------------------------

namespace Text

/- `char::is_ascii`. -/
def IsAscii
    (c : Char) : Prop :=
  c.toNat < 128

instance
    (c : Char) :
    Decidable (IsAscii c) := by
  unfold IsAscii
  infer_instance

/- The byte of an ASCII character. -/
def byte
    (c : Char) : UInt8 :=
  UInt8.ofNat c.toNat

theorem byte_toNat
    {c : Char}
    (hAscii : IsAscii c) :
    (byte c).toNat = c.toNat := by
  have hLt : c.toNat < 256 := Nat.lt_trans hAscii (by omega)
  simpa [byte] using Nat.mod_eq_of_lt hLt

theorem byte_inj
    {c d : Char}
    (hAscii : IsAscii c)
    (hAscii' : IsAscii d)
    (hByte : byte c = byte d) :
    c = d := by
  have hNat := congrArg UInt8.toNat hByte
  rw [byte_toNat hAscii, byte_toNat hAscii'] at hNat
  exact Char.toNat_inj.mp hNat

/- An ASCII character is encoded as its byte. -/
theorem utf8EncodeChar_of_ascii
    {c : Char}
    (hAscii : IsAscii c) :
    String.utf8EncodeChar c = [byte c] := by
  have hSmall : c.val.toNat ≤ 0x7f :=
    Nat.le_of_lt_succ hAscii
  simp only [String.utf8EncodeChar, hSmall, if_true]
  rfl

/- A number from 128 on that fits a byte is a high byte. -/
theorem high_of_le
    {n : Nat}
    (hLow : 128 ≤ n)
    (hHigh : n < 256) :
    128 ≤ UInt8.ofNat n := by
  rw [UInt8.le_iff_toNat_le, UInt8.toNat_ofNat',
    Nat.mod_eq_of_lt hHigh]
  exact hLow

/- Every byte of another character is a high byte. -/
theorem high_of_mem_utf8EncodeChar
    {c : Char}
    {b : UInt8}
    (hAscii : ¬ IsAscii c)
    (hMem : b ∈ String.utf8EncodeChar c) :
    128 ≤ b := by
  have hLarge : ¬ c.val.toNat ≤ 0x7f := by
    intro hSmall
    exact hAscii (Nat.lt_succ_of_le hSmall)
  simp only [String.utf8EncodeChar, hLarge, if_false] at hMem
  split at hMem
  · simp only [List.mem_cons, List.not_mem_nil,
      or_false] at hMem
    rcases hMem with rfl | rfl
    all_goals exact high_of_le (by omega) (by omega)
  · split at hMem
    · simp only [List.mem_cons, List.not_mem_nil,
        or_false] at hMem
      rcases hMem with rfl | rfl | rfl
      all_goals exact high_of_le (by omega) (by omega)
    · simp only [List.mem_cons, List.not_mem_nil,
        or_false] at hMem
      rcases hMem with rfl | rfl | rfl | rfl
      all_goals exact high_of_le (by omega) (by omega)

end Text

------------------------------------------------------------
-- Texts
------------------------------------------------------------

namespace Text

/- An ASCII text has one byte for each character. -/
theorem asBytes_of_ascii
    {t : Text}
    (hAscii : ∀ c ∈ t, IsAscii c) :
    t.asBytes = t.map byte := by
  induction t with
  | nil => rfl
  | cons c t ih =>
      have hHead := utf8EncodeChar_of_ascii
        (hAscii c List.mem_cons_self)
      have hTail := ih (fun d hd =>
        hAscii d (List.mem_cons_of_mem _ hd))
      simp only [asBytes] at hTail
      simp [asBytes, hHead, hTail]

/- A text without high bytes is ASCII. -/
theorem isAscii_of_asBytes
    {t : Text}
    (hLow : ∀ b ∈ t.asBytes, b < 128) :
    ∀ c ∈ t, IsAscii c := by
  intro c hc
  by_contra hAscii
  rcases List.exists_mem_of_ne_nil _
      (String.utf8EncodeChar_ne_nil (c := c)) with ⟨b, hb⟩
  have hHigh := high_of_mem_utf8EncodeChar hAscii hb
  have hMem : b ∈ t.asBytes :=
    List.mem_flatMap.mpr ⟨c, hc, hb⟩
  exact absurd hHigh (UInt8.not_le.mpr (hLow b hMem))

/- The last byte of a text is that of an ASCII character. -/
theorem getLast?_asBytes_iff
    {t : Text}
    {c : Char}
    (hAscii : IsAscii c) :
    t.asBytes.getLast? = some (byte c) ↔
      t.getLast? = some c := by
  rcases List.eq_nil_or_concat t with hNil | ⟨init, last, hEq⟩
  · subst hNil
    simp [asBytes]
  · rw [List.concat_eq_append] at hEq
    subst hEq
    have hLast :
        (asBytes (init ++ [last])).getLast? =
          (String.utf8EncodeChar last).getLast? := by
      rw [asBytes, List.flatMap_append, List.flatMap_singleton]
      exact List.getLast?_append_of_ne_nil _
        String.utf8EncodeChar_ne_nil
    rw [hLast, List.getLast?_concat, Option.some.injEq]
    constructor
    · intro hByte
      by_cases hLastAscii : IsAscii last
      · rw [utf8EncodeChar_of_ascii hLastAscii,
          List.getLast?_singleton, Option.some.injEq] at hByte
        exact byte_inj hLastAscii hAscii hByte
      · have hHigh := high_of_mem_utf8EncodeChar hLastAscii
          (List.mem_of_getLast? hByte)
        rw [UInt8.le_iff_toNat_le, byte_toNat hAscii] at hHigh
        exact absurd hAscii (Nat.not_lt.mpr hHigh)
    · rintro rfl
      rw [utf8EncodeChar_of_ascii hAscii]
      rfl

end Text
