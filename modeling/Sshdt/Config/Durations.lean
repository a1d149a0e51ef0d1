import Sshdt.Config.SshdConfig
import Sshdt.Lib.Ascii
import Sshdt.Lib.Numeral

/-
  The two parsers of durations (`parse_time` in
  `src/sshd_config.rs` and `parse_tunnel_timeout` in
  `src/config.rs`).

  One tries the whole text as a number before it looks at
  the last character, the other looks at the last byte at
  once. Both read the same durations: a numeral and perhaps
  the letter of a unit, whose number of seconds fits 64
  bits. The second one leaves out zero.

  Key definitions include:
    * `TimeUnit`
    * `DurationText`
    * `readDuration`

  Key theorems include:
    * `parseTime_eq_readDuration`
    * `parseTunnelTimeout_eq_readDuration`
    * `readDuration_iff`
    * `parseTime_durations`
-/

------------------------------------------------------------
-- Durations
------------------------------------------------------------

namespace Sshdt

/- The units that a duration can name. -/
inductive TimeUnit where
  | seconds
  | minutes
  | hours
  deriving DecidableEq, Repr

namespace TimeUnit

def letter : TimeUnit → Bool → Char
| .seconds, false => 's'
| .seconds, true => 'S'
| .minutes, false => 'm'
| .minutes, true => 'M'
| .hours, false => 'h'
| .hours, true => 'H'

/- The seconds in one unit. -/
def factor : TimeUnit → Nat
| .seconds => 1
| .minutes => 60
| .hours => 3600

theorem toNat_factor
    (unit : TimeUnit) :
    (UInt64.ofNat unit.factor).toNat = unit.factor := by
  cases unit <;> rfl

end TimeUnit

/- A number, and a unit in lower or upper case or none. -/
structure DurationText where
  numeral : Numeral
  suffix : Option (TimeUnit × Bool)

namespace DurationText

def suffixText
    (d : DurationText) : Text :=
  (d.suffix.map fun s => s.1.letter s.2).toList

def text
    (d : DurationText) : Text :=
  d.numeral.text ++ d.suffixText

def factor
    (d : DurationText) : Nat :=
  d.suffix.elim 1 fun s => s.1.factor

/- The exact number of seconds. -/
def seconds
    (d : DurationText) : Nat :=
  d.numeral.value * d.factor

end DurationText

end Sshdt

------------------------------------------------------------
-- Reading By The Last Character
------------------------------------------------------------

namespace Sshdt

/- The multiplier that both parsers give to a letter. -/
def unitFactor
    (c : Char) : Option UInt64 :=
  if c = 's' ∨ c = 'S' then
    some 1
  else if c = 'm' ∨ c = 'M' then
    some 60
  else if c = 'h' ∨ c = 'H' then
    some 3600
  else
    none

/- The number is read without the letter of a unit. -/
def readDuration
    (value : Text) : Option UInt64 :=
  match value.getLast?.bind unitFactor with
  | some multiplier =>
      (Text.parseU64 value.dropLast).bind
        (checkedMul · multiplier)
  | none => Text.parseU64 value

theorem unitFactor_letter
    (unit : TimeUnit)
    (upper : Bool) :
    unitFactor (unit.letter upper) =
      some (UInt64.ofNat unit.factor) := by
  cases unit <;> cases upper <;> rfl

/- Only the letters of units have a multiplier. -/
theorem eq_letter_of_unitFactor
    {c : Char}
    {multiplier : UInt64}
    (hUnit : unitFactor c = some multiplier) :
    ∃ unit upper, c = TimeUnit.letter unit upper := by
  unfold unitFactor at hUnit
  split at hUnit
  next hSeconds =>
    rcases hSeconds with rfl | rfl
    · exact ⟨.seconds, false, rfl⟩
    · exact ⟨.seconds, true, rfl⟩
  split at hUnit
  next hMinutes =>
    rcases hMinutes with rfl | rfl
    · exact ⟨.minutes, false, rfl⟩
    · exact ⟨.minutes, true, rfl⟩
  split at hUnit <;> [skip; cases hUnit]
  next hHours =>
    rcases hHours with rfl | rfl
    · exact ⟨.hours, false, rfl⟩
    · exact ⟨.hours, true, rfl⟩

/- No digit is the letter of a unit. -/
theorem unitFactor_digitChar
    (d : Fin 10) :
    unitFactor (Numeral.digitChar d) = none := by
  revert d
  decide

/- A text that ends in the letter of a unit is no number. -/
theorem parseU64_of_unit
    {value : Text}
    {multiplier : UInt64}
    (hUnit :
      value.getLast?.bind unitFactor = some multiplier) :
    Text.parseU64 value = none := by
  cases hParse : Text.parseU64 value with
  | none => rfl
  | some n =>
      rcases Numeral.parseU64_iff.mp hParse with
        ⟨numeral, rfl, -⟩
      rcases numeral.getLast?_text with ⟨d, hLast⟩
      rw [hLast, Option.bind_some, unitFactor_digitChar]
        at hUnit
      cases hUnit

end Sshdt

------------------------------------------------------------
-- The Two Parsers
------------------------------------------------------------

namespace Sshdt

theorem trim_of_no_whitespace
    {t : Text}
    (hFree : ∀ c ∈ t, Text.isWhitespace c = false) :
    Text.trim t = t :=
  Text.trim_eq_self
    (fun c hFirst => hFree c (List.mem_of_head? hFirst))
    (fun c hLast => hFree c (List.mem_of_getLast? hLast))

@[simp] theorem checkedMul_one
    (n : UInt64) :
    checkedMul n 1 = some n := by
  have hLt := n.toNat_lt
  simp [checkedMul, hLt]

theorem checkedMul_iff
    {a b n : UInt64} :
    checkedMul a b = some n ↔
      a.toNat * b.toNat < 2 ^ 64 ∧
        n.toNat = a.toNat * b.toNat := by
  unfold checkedMul
  constructor
  · intro hMul
    split at hMul <;> [skip; cases hMul]
    next hLt =>
      refine ⟨hLt, ?_⟩
      rw [← Option.some.inj hMul, UInt64.toNat_mul,
        Nat.mod_eq_of_lt hLt]
  · rintro ⟨hLt, hValue⟩
    rw [if_pos hLt, Option.some.injEq, ← UInt64.toNat_inj,
      UInt64.toNat_mul, Nat.mod_eq_of_lt hLt, hValue]

/- A text without a unit ends in none of the letters. -/
theorem getLast?_ne_letter
    {value : Text}
    (hUnit : value.getLast?.bind unitFactor = none)
    (unit : TimeUnit)
    (upper : Bool) :
    value.getLast? ≠ some (unit.letter upper) := by
  intro hLast
  rw [hLast, Option.bind_some, unitFactor_letter] at hUnit
  cases hUnit

/- `parse_time` on a text without whitespace. -/
theorem parseTime_eq_readDuration
    {value : Text}
    (hFree : ∀ c ∈ value, Text.isWhitespace c = false) :
    SshdConfig.parseTime value = readDuration value := by
  have hFreeInit :
      ∀ c ∈ value.dropLast, Text.isWhitespace c = false :=
    fun c hc => hFree c (List.mem_of_mem_dropLast hc)
  unfold SshdConfig.parseTime readDuration
  rw [trim_of_no_whitespace hFree]
  dsimp only
  rw [trim_of_no_whitespace hFreeInit]
  cases hUnit : value.getLast?.bind unitFactor with
  | some multiplier =>
      rw [parseU64_of_unit hUnit]
      rcases Option.bind_eq_some_iff.mp hUnit with
        ⟨c, hLast, hFactor⟩
      rcases eq_letter_of_unitFactor hFactor with
        ⟨unit, upper, rfl⟩
      rw [hLast]
      cases unit <;> cases upper
      all_goals
        rw [← Option.some.inj hFactor]
        rfl
  | none =>
      have hNot := getLast?_ne_letter hUnit
      cases hParse : Text.parseU64 value with
      | some secs => rfl
      | none =>
          dsimp only
          split
          next hLast =>
            exact absurd hLast (hNot .seconds false)
          next hLast =>
            exact absurd hLast (hNot .seconds true)
          next hLast =>
            exact absurd hLast (hNot .minutes false)
          next hLast =>
            exact absurd hLast (hNot .minutes true)
          next hLast =>
            exact absurd hLast (hNot .hours false)
          next hLast =>
            exact absurd hLast (hNot .hours true)
          · rfl

/- The last byte is a unit where the last character is. -/
theorem getLast?_asBytes_letter
    (value : Text)
    (unit : TimeUnit)
    (upper : Bool) :
    value.asBytes.getLast? =
        some (Text.byte (unit.letter upper)) ↔
      value.getLast? = some (unit.letter upper) := by
  apply Text.getLast?_asBytes_iff
  cases unit <;> cases upper <;> decide

/- `parse_tunnel_timeout` leaves out zero. -/
theorem parseTunnelTimeout_eq_readDuration
    (value : Text) :
    parseTunnelTimeout value =
      (readDuration value).filter (0 < ·) := by
  unfold parseTunnelTimeout readDuration
  cases hUnit : value.getLast?.bind unitFactor with
  | some multiplier =>
      rcases Option.bind_eq_some_iff.mp hUnit with
        ⟨c, hLast, hFactor⟩
      rcases eq_letter_of_unitFactor hFactor with
        ⟨unit, upper, rfl⟩
      rw [(getLast?_asBytes_letter value unit upper).mpr hLast]
      cases unit <;> cases upper
      all_goals
        rw [← Option.some.inj hFactor]
        rfl
  | none =>
      have hNot :
          ∀ unit upper, value.asBytes.getLast? ≠
            some (Text.byte (TimeUnit.letter unit upper)) := by
        intro unit upper hByte
        exact getLast?_ne_letter hUnit unit upper
          ((getLast?_asBytes_letter value unit upper).mp hByte)
      split
      next hDigits =>
        split at hDigits
        next hLast =>
          exact absurd hLast (hNot .seconds false)
        next hLast =>
          exact absurd hLast (hNot .seconds true)
        next hLast =>
          exact absurd hLast (hNot .minutes false)
        next hLast =>
          exact absurd hLast (hNot .minutes true)
        next hLast =>
          exact absurd hLast (hNot .hours false)
        next hLast =>
          exact absurd hLast (hNot .hours true)
        · cases hDigits
          simp

end Sshdt

------------------------------------------------------------
-- Accepted Durations
------------------------------------------------------------

namespace Sshdt

namespace DurationText

theorem text_bare
    (numeral : Numeral) :
    text ⟨numeral, none⟩ = numeral.text := by
  simp [text, suffixText]

theorem seconds_bare
    (numeral : Numeral) :
    seconds ⟨numeral, none⟩ = numeral.value :=
  Nat.mul_one numeral.value

end DurationText

/- A number alone is read as it is. -/
theorem readDuration_bare
    (numeral : Numeral) :
    readDuration numeral.text =
      Text.parseU64 numeral.text := by
  rcases numeral.getLast?_text with ⟨d, hLast⟩
  rw [readDuration, hLast, Option.bind_some,
    unitFactor_digitChar]

/- A number with a unit is multiplied. -/
theorem readDuration_unit
    (digits : Text)
    (unit : TimeUnit)
    (upper : Bool) :
    readDuration (digits ++ [unit.letter upper]) =
      (Text.parseU64 digits).bind
        (checkedMul · (UInt64.ofNat unit.factor)) := by
  rw [readDuration, List.getLast?_concat, Option.bind_some,
    unitFactor_letter, List.dropLast_concat]

/- Without a unit at its end, a text is read as a number. -/
theorem duration_of_parseU64
    {value : Text}
    {n : UInt64}
    (hParse : Text.parseU64 value = some n) :
    ∃ d : DurationText, d.text = value ∧
      d.numeral.value < 2 ^ 64 ∧ d.seconds < 2 ^ 64 ∧
        n.toNat = d.seconds := by
  rcases Numeral.parseU64_iff.mp hParse with
    ⟨numeral, rfl, hValue⟩
  have hNumber : numeral.value < 2 ^ 64 := by
    rw [← hValue]
    exact n.toNat_lt
  refine ⟨⟨numeral, none⟩, DurationText.text_bare numeral,
    hNumber, ?_, ?_⟩
  · rw [DurationText.seconds_bare]
    exact hNumber
  · rw [DurationText.seconds_bare]
    exact hValue

/- With a unit, the product is the exact one. -/
theorem duration_of_checkedMul
    {digits : Text}
    {unit : TimeUnit}
    {k n : UInt64}
    (hParse : Text.parseU64 digits = some k)
    (hMul :
      checkedMul k (UInt64.ofNat unit.factor) = some n)
    (upper : Bool) :
    ∃ d : DurationText,
      d.text = digits ++ [unit.letter upper] ∧
        d.numeral.value < 2 ^ 64 ∧ d.seconds < 2 ^ 64 ∧
          n.toNat = d.seconds := by
  rcases Numeral.parseU64_iff.mp hParse with
    ⟨numeral, rfl, hValue⟩
  rcases checkedMul_iff.mp hMul with ⟨hFits, hProduct⟩
  rw [unit.toNat_factor, hValue] at hFits hProduct
  refine ⟨⟨numeral, some (unit, upper)⟩, rfl, ?_, hFits,
    hProduct⟩
  rw [← hValue]
  exact k.toNat_lt

/- Exactly the durations that fit 64 bits are read. -/
theorem readDuration_iff
    {value : Text}
    {n : UInt64} :
    readDuration value = some n ↔
      ∃ d : DurationText, d.text = value ∧
        d.numeral.value < 2 ^ 64 ∧ d.seconds < 2 ^ 64 ∧
          n.toNat = d.seconds := by
  constructor
  · intro hRead
    cases hUnit : value.getLast?.bind unitFactor with
    | none =>
        rw [readDuration, hUnit] at hRead
        exact duration_of_parseU64 hRead
    | some multiplier =>
        rcases Option.bind_eq_some_iff.mp hUnit with
          ⟨c, hLast, hFactor⟩
        rcases eq_letter_of_unitFactor hFactor with
          ⟨unit, upper, rfl⟩
        rcases List.getLast?_eq_some_iff.mp hLast with
          ⟨digits, rfl⟩
        rw [readDuration_unit] at hRead
        rcases Option.bind_eq_some_iff.mp hRead with
          ⟨k, hParse, hMul⟩
        exact duration_of_checkedMul hParse hMul upper
  · rintro ⟨⟨numeral, suffix⟩, rfl, hNumber, hFits, hValue⟩
    have hNumeral :
        (UInt64.ofNat numeral.value).toNat = numeral.value :=
      UInt64.toNat_ofNat_of_lt' hNumber
    cases suffix with
    | none =>
        rw [DurationText.text_bare, readDuration_bare]
        rw [DurationText.seconds_bare] at hValue
        exact Numeral.parseU64_iff.mpr ⟨numeral, rfl, hValue⟩
    | some suffix =>
        rcases suffix with ⟨unit, upper⟩
        have hParse :
            Text.parseU64 numeral.text =
              some (UInt64.ofNat numeral.value) :=
          Numeral.parseU64_iff.mpr ⟨numeral, rfl, hNumeral⟩
        refine (readDuration_unit numeral.text unit
          upper).trans ?_
        rw [hParse, Option.bind_some, checkedMul_iff,
          unit.toNat_factor, hNumeral]
        exact ⟨hFits, hValue⟩

/-
  Both parsers read exactly the durations whose numbers fit
  64 bits, without wrapping, and differ at zero only.
-/
theorem parseTime_durations
    {value : Text}
    (hFree : ∀ c ∈ value, Text.isWhitespace c = false)
    (n : UInt64) :
    (SshdConfig.parseTime value = some n ↔
      ∃ d : DurationText, d.text = value ∧
        d.numeral.value < 2 ^ 64 ∧ d.seconds < 2 ^ 64 ∧
          n.toNat = d.seconds) ∧
      (parseTunnelTimeout value = some n ↔
        SshdConfig.parseTime value = some n ∧ 0 < n) := by
  rw [parseTime_eq_readDuration hFree]
  refine ⟨readDuration_iff, ?_⟩
  rw [parseTunnelTimeout_eq_readDuration,
    Option.filter_eq_some_iff]
  simp

/- The longest duration in hours, and one hour more. -/
theorem longestHours_parsed :
    parseTunnelTimeout "+5124095576030431H".toList =
        some 18446744073709551600 ∧
      SshdConfig.parseTime "5124095576030432h".toList =
        none := by
  have hLongest : SshdConfig.parseTime
      "+5124095576030431H".toList =
        some 18446744073709551600 := by
    decide +kernel
  have hFree : ∀ c ∈ "+5124095576030431H".toList,
      Text.isWhitespace c = false := by
    simp [Text.isWhitespace]
  refine ⟨?_, by decide +kernel⟩
  exact (parseTime_durations hFree _).2.mpr
    ⟨hLongest, by decide⟩

end Sshdt
