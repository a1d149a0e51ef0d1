import Sshdt.Config.Basic
import Sshdt.Lib.Ascii

/-
  The grammar of tunnel ids (`valid_tunnel_id` in
  `src/config.rs`).

  The code cuts the id at its dots and checks the bytes of
  each part. The grammar is stated over characters: a name,
  and after one dot perhaps a region, both made of lower
  case letters, digits and inner hyphens.

  Key definitions include:
    * `TunnelChar`
    * `TunnelLabel`
    * `TunnelId`

  Key theorems include:
    * `validTunnelLabel_iff`
    * `validTunnelId_iff_grammar`
-/

------------------------------------------------------------
-- Grammar
------------------------------------------------------------

namespace Sshdt

/- The characters of a tunnel id, apart from its dot. -/
def TunnelChar
    (c : Char) : Prop :=
  ('a' ≤ c ∧ c ≤ 'z') ∨ ('0' ≤ c ∧ c ≤ '9') ∨ c = '-'

instance
    (c : Char) :
    Decidable (TunnelChar c) := by
  unfold TunnelChar
  infer_instance

/- A name or a region with lengths in the given range. -/
structure TunnelLabel
    (min max : Nat)
    (t : Text) : Prop where
  length_ge : min ≤ t.length
  length_le : t.length ≤ max
  chars : ∀ c ∈ t, TunnelChar c
  first_ne : t.head? ≠ some '-'
  last_ne : t.getLast? ≠ some '-'

/- A name, or a name and a region with a dot between. -/
def TunnelId
    (t : Text) : Prop :=
  TunnelLabel 3 49 t ∨
    ∃ name region, t = name ++ '.' :: region ∧
      TunnelLabel 3 49 name ∧ TunnelLabel 1 32 region

end Sshdt

------------------------------------------------------------
-- Characters And Bytes
------------------------------------------------------------

namespace Sshdt

namespace TunnelChar

theorem eq_hyphen_iff
    {c : Char} :
    c = '-' ↔ c.toNat = 45 := by
  rw [← Char.toNat_inj]
  rfl

theorem toNat_iff
    {c : Char} :
    TunnelChar c ↔
      (97 ≤ c.toNat ∧ c.toNat ≤ 122) ∨
        (48 ≤ c.toNat ∧ c.toNat ≤ 57) ∨ c.toNat = 45 := by
  unfold TunnelChar
  rw [eq_hyphen_iff]
  rfl

theorem isAscii
    {c : Char}
    (hChar : TunnelChar c) :
    Text.IsAscii c := by
  rw [toNat_iff] at hChar
  unfold Text.IsAscii
  omega

end TunnelChar

/- The bytes that the code accepts within a label. -/
def isTunnelByte
    (b : UInt8) : Bool :=
  isAsciiLowercase b || isAsciiDigit b || b == 45

theorem isTunnelByte_iff
    {b : UInt8} :
    isTunnelByte b = true ↔
      (97 ≤ b.toNat ∧ b.toNat ≤ 122) ∨
        (48 ≤ b.toNat ∧ b.toNat ≤ 57) ∨ b.toNat = 45 := by
  simp only [isTunnelByte, isAsciiLowercase, isAsciiDigit,
    Bool.or_eq_true, Bool.and_eq_true, decide_eq_true_eq,
    beq_iff_eq, UInt8.le_iff_toNat_le, ← UInt8.toNat_inj,
    or_assoc]
  rfl

theorem isTunnelByte_byte
    {c : Char}
    (hAscii : Text.IsAscii c) :
    isTunnelByte (Text.byte c) = true ↔ TunnelChar c := by
  rw [isTunnelByte_iff, Text.byte_toNat hAscii,
    TunnelChar.toNat_iff]

/- An accepted byte that is not the hyphen may come first. -/
theorem isAsciiAlphanumeric_byte
    {c : Char}
    (hChar : TunnelChar c) :
    isAsciiAlphanumeric (Text.byte c) = true ↔ c ≠ '-' := by
  have hByte := Text.byte_toNat hChar.isAscii
  rw [TunnelChar.toNat_iff] at hChar
  simp only [isAsciiAlphanumeric, isAsciiLowercase,
    isAsciiDigit, Bool.or_eq_true, Bool.and_eq_true,
    decide_eq_true_eq, UInt8.le_iff_toNat_le, hByte, ne_eq,
    TunnelChar.eq_hyphen_iff, UInt8.reduceToNat]
  omega

end Sshdt

------------------------------------------------------------
-- Labels
------------------------------------------------------------

namespace Sshdt

/- The accepted texts have accepted characters only. -/
theorem tunnelChar_of_bytes
    {t : Text}
    (hBytes : t.asBytes.all isTunnelByte = true) :
    ∀ c ∈ t, TunnelChar c := by
  have hAscii : ∀ c ∈ t, Text.IsAscii c := by
    refine Text.isAscii_of_asBytes fun b hb => ?_
    have hByte := List.all_eq_true.mp hBytes b hb
    rw [isTunnelByte_iff] at hByte
    rw [UInt8.lt_iff_toNat_lt]
    have hBound : (128 : UInt8).toNat = 128 := rfl
    omega
  intro c hc
  rw [Text.asBytes_of_ascii hAscii, List.all_map] at hBytes
  exact (isTunnelByte_byte (hAscii c hc)).mp
    (List.all_eq_true.mp hBytes c hc)

/- The check of a first or a last byte. -/
theorem endByte_iff
    {c? : Option Char}
    (hChars : ∀ c, c? = some c → TunnelChar c) :
    (c?.map Text.byte).any isAsciiAlphanumeric = true ↔
      c?.isSome ∧ c? ≠ some '-' := by
  cases c? with
  | none => simp
  | some c =>
      simpa using isAsciiAlphanumeric_byte (hChars c rfl)

/- What the code checks of a text in the alphabet. -/
theorem validTunnelLabel_of_chars
    {t : Text}
    {min max : Nat}
    (hChars : ∀ c ∈ t, TunnelChar c)
    (hMin : 0 < min) :
    validTunnelLabel t min max = true ↔
      TunnelLabel min max t := by
  have hAscii : ∀ c ∈ t, Text.IsAscii c :=
    fun c hc => (hChars c hc).isAscii
  have hAll : (t.map Text.byte).all isTunnelByte = true := by
    rw [List.all_map, List.all_eq_true]
    intro c hc
    exact (isTunnelByte_byte (hAscii c hc)).mpr (hChars c hc)
  have hFirst := endByte_iff fun c hc =>
    hChars c (List.mem_of_head? hc)
  have hLast := endByte_iff fun c hc =>
    hChars c (List.mem_of_getLast? hc)
  have hChecks :
      validTunnelLabel t min max = true ↔
        (((min ≤ t.length ∧ t.length ≤ max) ∧
          (t.head?.isSome ∧ t.head? ≠ some '-')) ∧
            t.getLast?.isSome ∧ t.getLast? ≠ some '-') := by
    rw [← hFirst, ← hLast, validTunnelLabel,
      Text.asBytes_of_ascii hAscii]
    simp only [Bool.and_eq_true, decide_eq_true_eq,
      List.length_map, List.head?_map, List.getLast?_map,
      and_iff_left_iff_imp]
    exact fun _ => hAll
  rw [hChecks]
  constructor
  · rintro ⟨⟨⟨hLow, hHigh⟩, -, hHead⟩, -, hTail⟩
    exact ⟨hLow, hHigh, hChars, hHead, hTail⟩
  · rintro ⟨hLow, hHigh, -, hHead, hTail⟩
    have hNonempty : t ≠ [] := by
      rintro rfl
      simp only [List.length_nil] at hLow
      omega
    refine ⟨⟨⟨hLow, hHigh⟩, ?_, hHead⟩, ?_, hTail⟩
    · simpa using hNonempty
    · simpa using hNonempty

/- `label` accepts exactly the labels. -/
theorem validTunnelLabel_iff
    {t : Text}
    {min max : Nat}
    (hMin : 0 < min) :
    validTunnelLabel t min max = true ↔
      TunnelLabel min max t := by
  constructor
  · intro hValid
    have hBytes : t.asBytes.all isTunnelByte = true := by
      simp only [validTunnelLabel, Bool.and_eq_true] at hValid
      exact hValid.2
    exact (validTunnelLabel_of_chars
      (tunnelChar_of_bytes hBytes) hMin).mp hValid
  · intro hLabel
    exact (validTunnelLabel_of_chars hLabel.chars hMin).mpr
      hLabel

theorem TunnelLabel.dot_notMem
    {t : Text}
    {min max : Nat}
    (hLabel : TunnelLabel min max t) :
    '.' ∉ t := by
  intro hMem
  exact absurd (hLabel.chars '.' hMem) (by decide)

end Sshdt

------------------------------------------------------------
-- Ids
------------------------------------------------------------

namespace Sshdt

/- The parts of an id between its dots. -/
theorem TunnelId.splitOn
    {t : Text}
    (hId : TunnelId t) :
    (t.splitOn '.' = [t] ∧ TunnelLabel 3 49 t) ∨
      ∃ name region, t.splitOn '.' = [name, region] ∧
        TunnelLabel 3 49 name ∧ TunnelLabel 1 32 region := by
  rcases hId with hName | ⟨name, region, rfl, hName, hRegion⟩
  · exact .inl
      ⟨List.splitOn_eq_singleton hName.dot_notMem, hName⟩
  · refine .inr ⟨name, region, ?_, hName, hRegion⟩
    rw [List.splitOn_append_cons_self,
      List.splitOn_eq_singleton hName.dot_notMem,
      List.splitOn_eq_singleton hRegion.dot_notMem]
    rfl

/- `valid_tunnel_id` accepts exactly the tunnel ids. -/
theorem validTunnelId_iff_grammar
    {t : Text} :
    validTunnelId t = true ↔ TunnelId t := by
  have hJoin : ['.'].intercalate (t.splitOn '.') = t :=
    List.intercalate_splitOn '.'
  constructor
  · intro hValid
    simp only [validTunnelId, Bool.and_eq_true] at hValid
    rcases hValid with ⟨⟨hName, hRegion⟩, hThird⟩
    cases hSplit : t.splitOn '.' with
    | nil => exact absurd hSplit (List.splitOn_ne_nil '.' t)
    | cons name rest =>
        rw [hSplit] at hName hRegion hThird hJoin
        have hNameLabel :=
          (validTunnelLabel_iff (by omega)).mp hName
        cases rest with
        | nil =>
            left
            simpa [← hJoin] using hNameLabel
        | cons region rest =>
            have hRegionLabel :=
              (validTunnelLabel_iff (by omega)).mp hRegion
            cases rest with
            | nil =>
                right
                refine ⟨name, region, ?_, hNameLabel,
                  hRegionLabel⟩
                simpa using hJoin.symm
            | cons third rest => simp at hThird
  · intro hId
    rcases hId.splitOn with
      ⟨hSplit, hName⟩ | ⟨name, region, hSplit, hName, hRegion⟩
    · have hNameValid :=
        (validTunnelLabel_iff (by omega)).mpr hName
      simp [validTunnelId, hSplit, hNameValid]
    · have hNameValid :=
        (validTunnelLabel_iff (by omega)).mpr hName
      have hRegionValid :=
        (validTunnelLabel_iff (by omega)).mpr hRegion
      simp [validTunnelId, hSplit, hNameValid, hRegionValid]

namespace TunnelId

/- An id has nothing but these characters and a dot. -/
theorem chars
    {t : Text}
    (hId : TunnelId t) :
    ∀ c ∈ t, TunnelChar c ∨ c = '.' := by
  intro c hc
  rcases hId with hName | ⟨name, region, rfl, hName, hRegion⟩
  · exact .inl (hName.chars c hc)
  · rw [List.mem_append, List.mem_cons] at hc
    rcases hc with hFront | rfl | hBack
    · exact .inl (hName.chars c hFront)
    · exact .inr rfl
    · exact .inl (hRegion.chars c hBack)

theorem length_ge
    {t : Text}
    (hId : TunnelId t) :
    3 ≤ t.length := by
  rcases hId with hName | ⟨name, region, rfl, hName, -⟩
  · exact hName.length_ge
  · have hLength := hName.length_ge
    simp only [List.length_append, List.length_cons]
    omega

/- An id is never taken for an option. -/
theorem head?_ne
    {t : Text}
    (hId : TunnelId t) :
    t.head? ≠ some '-' := by
  rcases hId with hName | ⟨name, region, rfl, hName, -⟩
  · exact hName.first_ne
  · have hFirst := hName.first_ne
    cases name with
    | nil => simp
    | cons c name => simpa using hFirst

end TunnelId

end Sshdt
