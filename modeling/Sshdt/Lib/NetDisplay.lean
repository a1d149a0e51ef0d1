import Sshdt.Lib.Net

/-
  The text form of numbers and internet addresses, after
  their `Display` implementations in the Rust standard
  library, and the round trip through the parsers.

  An IPv6 address shows its longest run of zero groups as
  `::`, the first of several longest ones, and an
  IPv4-mapped address ends in the IPv4 form.

  Key definitions include:
    * `Net.longestZeros`
    * `IpAddr.toText`

  Key theorems include:
    * `Text.parseUnsigned_ofNat`
    * `Net.readNumber_toDigits`
    * `Net.readIpv4Addr_toText`
    * `Net.readGroups_groupsText`
    * `IpAddr.parse_toText`
-/

------------------------------------------------------------
-- Digits Of A Number
------------------------------------------------------------

namespace Net

/- The characters of a list of digits. -/
def digitChars
    (digits : List Nat) : Text :=
  digits.map Nat.digitChar

/- The value of a list of digits, most significant first. -/
def valueOf
    (radix : Nat)
    (digits : List Nat) : Nat :=
  digits.foldl (fun n d => n * radix + d) 0

theorem valueOf_append
    (radix : Nat)
    (digits : List Nat)
    (d : Nat) :
    valueOf radix (digits ++ [d]) =
      valueOf radix digits * radix + d := by
  simp [valueOf]

/-
  The positional form of a number: its digits lie below the
  radix, have the number as their value and do not start
  with a zero unless the number is one digit long.
-/
theorem exists_digits
    {radix : Nat}
    (hRadix : 1 < radix)
    (n : Nat) :
    ∃ digits : List Nat,
      Nat.toDigits radix n = digitChars digits ∧
        digits ≠ [] ∧
        (∀ d ∈ digits, d < radix) ∧
        valueOf radix digits = n ∧
        (digits.head? = some 0 → digits.length = 1) := by
  induction n using Nat.strongRecOn with
  | _ n ih =>
      by_cases hSmall : n < radix
      · refine ⟨[n], ?_, by simp, by simpa using hSmall, ?_,
          by simp⟩
        · rw [Nat.toDigits_of_lt_base hSmall]
          rfl
        · simp [valueOf]
      · have hLe : radix ≤ n := Nat.le_of_not_lt hSmall
        have hDiv : n / radix < n :=
          Nat.div_lt_self (by omega) hRadix
        have hPos : 0 < n / radix :=
          Nat.div_pos hLe (by omega)
        rcases ih (n / radix) hDiv with
          ⟨digits, hText, hNonempty, hBound, hValue, hHead⟩
        refine ⟨digits ++ [n % radix], ?_, by simp, ?_, ?_,
          ?_⟩
        · rw [Nat.toDigits_of_base_le hRadix hLe, hText]
          simp [digitChars]
        · intro d hMember
          rcases List.mem_append.mp hMember with
            hMember | hMember
          · exact hBound d hMember
          · have hEq : d = n % radix := by
              simpa using hMember
            exact hEq ▸ Nat.mod_lt n (by omega)
        · rw [valueOf_append, hValue]
          exact Nat.div_add_mod' n radix
        · intro hZero
          -- A leading zero would make the quotient zero.
          rw [List.head?_append_of_ne_nil _ hNonempty]
            at hZero
          have hOne := hHead hZero
          rcases List.length_eq_one_iff.mp hOne with
            ⟨d, hDigits⟩
          subst hDigits
          simp only [List.head?_cons, Option.some.injEq]
            at hZero
          subst hZero
          simp only [valueOf, List.foldl_cons,
            List.foldl_nil] at hValue
          omega

end Net

------------------------------------------------------------
-- Reading Digits
------------------------------------------------------------

namespace Net

/- The text does not go on with a digit. -/
def EndsNumber
    (radix : Nat)
    (rest : Text) : Prop :=
  ∀ c tail, rest = c :: tail → toDigit radix c = none

theorem endsNumber_nil
    {radix : Nat} :
    EndsNumber radix [] := by
  intro c tail hEq
  cases hEq

theorem endsNumber_cons
    {radix : Nat}
    {c : Char}
    {tail : Text}
    (hDigit : toDigit radix c = none) :
    EndsNumber radix (c :: tail) := by
  intro c' tail' hEq
  cases hEq
  exact hDigit

theorem toDigit_digitChar
    {radix d : Nat}
    (hDigit : d < radix)
    (hRadix : radix ≤ 16) :
    toDigit radix (Nat.digitChar d) = some d := by
  have hValue :
      toDigit 16 (Nat.digitChar d) = some d := by
    have hSixteen : d < 16 := by omega
    clear hDigit hRadix
    revert d
    decide
  simp only [toDigit, Option.filter_eq_some_iff] at hValue ⊢
  exact ⟨hValue.1, by simpa using hDigit⟩

theorem spanDigits_digitChars
    {radix : Nat}
    (hRadix : radix ≤ 16)
    {digits : List Nat}
    (hBound : ∀ d ∈ digits, d < radix)
    {rest : Text}
    (hRest : EndsNumber radix rest) :
    spanDigits radix (digitChars digits ++ rest) =
      (digits, rest) := by
  induction digits with
  | nil =>
      cases rest with
      | nil => simp [digitChars, spanDigits]
      | cons c tail =>
          simp [digitChars, spanDigits, hRest c tail rfl]
  | cons d digits ih =>
      have hDigit := toDigit_digitChar
        (hBound d (List.mem_cons_self ..)) hRadix
      have hTail := ih fun d' hMember =>
        hBound d' (List.mem_cons_of_mem _ hMember)
      simp only [digitChars, List.map_cons,
        List.cons_append] at hTail ⊢
      simp only [spanDigits, hDigit, hTail]

/- The digit reader reads back what is shown. -/
theorem readNumber_toDigits
    {radix n bound : Nat}
    (hRadix : 1 < radix)
    (hSixteen : radix ≤ 16)
    (hBound : n < bound)
    {maxDigits : Option Nat}
    (hMax : ∀ k ∈ maxDigits, 0 < k ∧ n < radix ^ k)
    (allowZeroPrefix : Bool)
    {rest : Text}
    (hRest : EndsNumber radix rest) :
    readNumber radix maxDigits allowZeroPrefix bound
        (Nat.toDigits radix n ++ rest) =
      some (n, rest) := by
  rcases exists_digits hRadix n with
    ⟨digits, hText, hNonempty, hDigits, hValue, hHead⟩
  have hSpan :=
    spanDigits_digitChars hSixteen hDigits hRest
  have hLength :
      (Nat.toDigits radix n).length = digits.length := by
    rw [hText]
    simp [digitChars]
  have hShort :
      maxDigits.any (· < digits.length) = false := by
    cases maxDigits with
    | none => rfl
    | some k =>
        rcases hMax k rfl with ⟨hPos, hLt⟩
        have hLe :=
          (Nat.length_toDigits_le_iff hRadix hPos).mpr hLt
        simp only [Option.any_some, decide_eq_false_iff_not,
          Nat.not_lt]
        omega
  have hZero :
      ((digitChars digits ++ rest).head? == some '0' &&
        decide (digits.length > 1)) = false := by
    rcases List.exists_cons_of_ne_nil hNonempty with
      ⟨d, tail, hCons⟩
    subst hCons
    by_cases hFirst : d = 0
    · have hOne := hHead (by simp [hFirst])
      simp [hOne]
    · simp [digitChars, hFirst]
  simp only [readNumber, hText, hSpan, hNonempty, hShort,
    if_false, Bool.and_assoc, hZero, Bool.and_false,
    Bool.false_eq_true]
  change (if valueOf radix digits < bound then
    some (valueOf radix digits, rest) else none) = _
  rw [hValue, if_pos hBound]

end Net

namespace Text

theorem digit?_digitChar
    {d : Nat}
    (hDigit : d < 10) :
    digit? (Nat.digitChar d) = some d := by
  revert d
  decide

/- The digits of a number read back one by one. -/
theorem foldlM_digitChars
    {digits : List Nat}
    (hBound : ∀ d ∈ digits, d < 10)
    (start : Nat) :
    (Net.digitChars digits).foldlM
        (fun n c => (digit? c).map (n * 10 + ·)) start =
      some (digits.foldl (fun n d => n * 10 + d) start) := by
  induction digits generalizing start with
  | nil => rfl
  | cons d digits ih =>
      have hTail := ih
        (fun d' hMember =>
          hBound d' (List.mem_cons_of_mem _ hMember))
        (start * 10 + d)
      have hDigit := digit?_digitChar
        (hBound d (List.mem_cons_self ..))
      simpa [Net.digitChars, hDigit] using hTail

/- An unsigned integer parses back from its decimal form. -/
theorem parseUnsigned_ofNat
    {bound n : Nat}
    (hBound : n < bound) :
    parseUnsigned bound (ofNat n) = some n := by
  rcases Net.exists_digits (by omega : 1 < 10) n with
    ⟨digits, hText, hNonempty, hDigits, hValue, hHead⟩
  have hFold := foldlM_digitChars hDigits 0
  rcases List.exists_cons_of_ne_nil hNonempty with
    ⟨d, tail, hCons⟩
  have hDigit : d < 10 := by
    apply hDigits
    simp [hCons]
  -- The first character is a digit and so not a plus sign.
  have hSign : ∀ rest, ofNat n = '+' :: rest → False := by
    intro rest hEq
    rw [ofNat, hText, hCons] at hEq
    have hChar : Nat.digitChar d = '+' :=
      (List.cons.inj hEq).1
    clear hCons hEq
    revert d
    decide
  have hFull : ofNat n ≠ [] := Nat.toDigits_ne_nil
  change digits.foldl (fun n d => n * 10 + d) 0 = n at hValue
  rw [hValue, ← hText] at hFold
  change (ofNat n).foldlM _ 0 = some n at hFold
  unfold parseUnsigned
  split
  · rename_i rest hEq
    exact (hSign rest hEq).elim
  · simp only [hFull, if_false, hFold, hBound, if_true]

end Text

------------------------------------------------------------
-- Text Of An Address
------------------------------------------------------------

namespace Net

/- The four octets of an IPv4 address. -/
def octets
    (addr : BitVec 32) : List Nat :=
  [addr.toNat / 16777216, addr.toNat / 65536 % 256,
    addr.toNat / 256 % 256, addr.toNat % 256]

/- `Display` of `Ipv4Addr`. -/
def ipv4Text
    (addr : BitVec 32) : Text :=
  List.intercalate ['.'] ((octets addr).map Text.ofNat)

/- `Ipv6Addr::segments`. -/
def segments
    (addr : BitVec 128) : List Nat :=
  [addr.toNat / 65536 ^ 7,
    addr.toNat / 65536 ^ 6 % 65536,
    addr.toNat / 65536 ^ 5 % 65536,
    addr.toNat / 65536 ^ 4 % 65536,
    addr.toNat / 65536 ^ 3 % 65536,
    addr.toNat / 65536 ^ 2 % 65536,
    addr.toNat / 65536 % 65536,
    addr.toNat % 65536]

/- `Ipv6Addr::to_ipv4_mapped`. -/
def toIpv4Mapped
    (addr : BitVec 128) : Option (BitVec 32) :=
  if addr.toNat / 2 ^ 32 = 0xffff then
    some (BitVec.ofNat 32 (addr.toNat % 2 ^ 32))
  else
    none

/- The local `Span` of `Display` of `Ipv6Addr`. -/
structure Span where
  start : Nat
  len : Nat
  deriving DecidableEq, Repr

/- `Span::default`. -/
def Span.default : Span :=
  ⟨0, 0⟩

/-
  The loop of `Display` of `Ipv6Addr` over the groups from
  `index` on: the longest run of zeros so far and the run
  that ends here.
-/
def longestZeros
    (longest current : Span)
    (index : Nat) : List Nat → Span
| [] => longest
| group :: groups =>
    if group = 0 then
      let current :=
        if current.len = 0 then
          ⟨index, 1⟩
        else
          ⟨current.start, current.len + 1⟩
      let longest :=
        if longest.len < current.len then
          current
        else
          longest
      longestZeros longest current (index + 1) groups
    else
      longestZeros longest Span.default (index + 1) groups

/- The local `fmt_subslice` of `Display` of `Ipv6Addr`. -/
def fmtSubslice
    (groups : List Nat) : Text :=
  List.intercalate [':'] (groups.map (Nat.toDigits 16))

/- `Display` of `Ipv6Addr`. -/
def ipv6Text
    (addr : BitVec 128) : Text :=
  match toIpv4Mapped addr with
  | some ipv4 => "::ffff:".toList ++ ipv4Text ipv4
  | none =>
      let groups := segments addr
      let zeroes :=
        longestZeros Span.default Span.default 0 groups
      if 1 < zeroes.len then
        fmtSubslice (groups.take zeroes.start) ++
          "::".toList ++
          fmtSubslice
            (groups.drop (zeroes.start + zeroes.len))
      else
        fmtSubslice groups

end Net

/- `Display` of `IpAddr`. -/
def IpAddr.toText : IpAddr → Text
| .v4 addr => Net.ipv4Text addr
| .v6 addr => Net.ipv6Text addr

------------------------------------------------------------
-- Reading An IPv4 Address Back
------------------------------------------------------------

namespace Net

theorem endsNumber_dot
    {tail : Text} :
    EndsNumber 10 ('.' :: tail) :=
  endsNumber_cons (by decide)

theorem endsNumber_colon
    {radix : Nat}
    {tail : Text} :
    EndsNumber radix (':' :: tail) :=
  endsNumber_cons (by simp [toDigit])

/- One octet, with the limits of the address reader. -/
theorem readNumber_octet
    {n : Nat}
    (hOctet : n < 256)
    {rest : Text}
    (hRest : EndsNumber 10 rest) :
    readNumber 10 (some 3) false 256
        (Text.ofNat n ++ rest) =
      some (n, rest) := by
  apply readNumber_toDigits (by omega) (by omega) hOctet
  · intro k hMember
    cases hMember
    omega
  · exact hRest

/- The address with the given octets. -/
theorem ofNat_octets
    (addr : BitVec 32) :
    BitVec.ofNat 32
        (((addr.toNat / 16777216 * 256 +
            addr.toNat / 65536 % 256) * 256 +
            addr.toNat / 256 % 256) * 256 +
          addr.toNat % 256) =
      addr := by
  apply BitVec.eq_of_toNat_eq
  have hHigh :
      addr.toNat / 16777216 * 256 +
          addr.toNat / 65536 % 256 =
        addr.toNat / 65536 := by
    have hDiv :
        addr.toNat / 16777216 = addr.toNat / 65536 / 256 :=
      (Nat.div_div_eq_div_mul addr.toNat 65536 256).symm
    rw [hDiv, Nat.div_add_mod']
  have hMiddle :
      addr.toNat / 65536 * 256 + addr.toNat / 256 % 256 =
        addr.toNat / 256 := by
    have hDiv :
        addr.toNat / 65536 = addr.toNat / 256 / 256 :=
      (Nat.div_div_eq_div_mul addr.toNat 256 256).symm
    rw [hDiv, Nat.div_add_mod']
  have hLow :
      addr.toNat / 256 * 256 + addr.toNat % 256 =
        addr.toNat :=
    Nat.div_add_mod' addr.toNat 256
  rw [BitVec.toNat_ofNat, hHigh, hMiddle, hLow]
  exact Nat.mod_eq_of_lt addr.isLt

theorem readIpv4Addr_toText
    (addr : BitVec 32)
    {rest : Text}
    (hRest : EndsNumber 10 rest) :
    readIpv4Addr (ipv4Text addr ++ rest) =
      some (addr, rest) := by
  have hLt := addr.isLt
  have hFirst : addr.toNat / 16777216 < 256 := by omega
  have hSecond : addr.toNat / 65536 % 256 < 256 := by omega
  have hThird : addr.toNat / 256 % 256 < 256 := by omega
  have hFourth : addr.toNat % 256 < 256 := by omega
  have hText :
      ipv4Text addr ++ rest =
        Text.ofNat (addr.toNat / 16777216) ++ '.' ::
          (Text.ofNat (addr.toNat / 65536 % 256) ++ '.' ::
            (Text.ofNat (addr.toNat / 256 % 256) ++ '.' ::
              (Text.ofNat (addr.toNat % 256) ++ rest))) := by
    simp [ipv4Text, octets, List.intercalate]
  rw [hText]
  simp [readIpv4Addr, readSeparator, readGivenChar,
    readNumber_octet hFirst endsNumber_dot,
    readNumber_octet hSecond endsNumber_dot,
    readNumber_octet hThird endsNumber_dot,
    readNumber_octet hFourth hRest, ofNat_octets]

end Net

------------------------------------------------------------
-- Texts That Are No IPv4 Address
------------------------------------------------------------

namespace Net

theorem readNumber_none
    {radix bound : Nat}
    {maxDigits : Option Nat}
    {allowZeroPrefix : Bool}
    {t : Text}
    (hEnd : EndsNumber radix t) :
    readNumber radix maxDigits allowZeroPrefix bound t =
      none := by
  have hSpan : (spanDigits radix t).1 = [] := by
    cases t with
    | nil => rfl
    | cons c tail => simp [spanDigits, hEnd c tail rfl]
  simp [readNumber, hSpan]

theorem readIpv4Addr_none
    {t : Text}
    (hEnd : EndsNumber 10 t) :
    readIpv4Addr t = none := by
  simp [readIpv4Addr, readSeparator, readNumber_none hEnd]

theorem spanDigits_suffix
    (radix : Nat)
    (t : Text) :
    (spanDigits radix t).2 <:+ t := by
  induction t with
  | nil => simp [spanDigits]
  | cons c rest ih =>
      simp only [spanDigits]
      split
      · exact List.suffix_rfl
      · exact ih.trans (List.suffix_cons c rest)

/- A number is followed by what follows its digits. -/
theorem rest_of_readNumber
    {radix bound n : Nat}
    {maxDigits : Option Nat}
    {allowZeroPrefix : Bool}
    {t rest : Text}
    (hRead :
      readNumber radix maxDigits allowZeroPrefix bound t =
        some (n, rest)) :
    rest = (spanDigits radix t).2 := by
  simp only [readNumber] at hRead
  repeat' split at hRead
  all_goals simp_all

/- An IPv4 address has a dot after its first number. -/
theorem readIpv4Addr_dot
    {t : Text}
    (hDot : '.' ∉ t) :
    readIpv4Addr t = none := by
  cases hFirst : readNumber 10 (some 3) false 256 t with
  | none => simp [readIpv4Addr, readSeparator, hFirst]
  | some result =>
      rcases result with ⟨octet, rest⟩
      have hRest := rest_of_readNumber hFirst
      have hSuffix : rest <:+ t :=
        hRest ▸ spanDigits_suffix 10 t
      have hNone : readGivenChar '.' rest = none := by
        cases rest with
        | nil => rfl
        | cons c tail =>
            have hMember : c ∈ t :=
              hSuffix.subset (List.mem_cons_self ..)
            have hNe : c ≠ '.' := by
              intro hEq
              exact hDot (hEq ▸ hMember)
            simp [readGivenChar, hNe]
      simp [readIpv4Addr, readSeparator, hFirst, hNone]

end Net

------------------------------------------------------------
-- Reading Groups Back
------------------------------------------------------------

namespace Net

/-
  The groups of an address from position `index` on, with a
  colon before every one but the very first.
-/
def groupsText
    (index : Nat) : List Nat → Text
| [] => []
| group :: groups =>
    (if index = 0 then [] else [':']) ++
      Nat.toDigits 16 group ++ groupsText (index + 1) groups

theorem groupsText_succ
    (index : Nat)
    (groups : List Nat) :
    groupsText (index + 1) groups =
      groups.flatMap fun group =>
        ':' :: Nat.toDigits 16 group := by
  induction groups generalizing index with
  | nil => rfl
  | cons group groups ih =>
      simp [groupsText, ih (index + 1)]

theorem fmtSubslice_eq
    (groups : List Nat) :
    fmtSubslice groups = groupsText 0 groups := by
  cases groups with
  | nil => rfl
  | cons group groups =>
      have hTail :
          List.intercalate [':']
              ((group :: groups).map (Nat.toDigits 16)) =
            Nat.toDigits 16 group ++
              groups.flatMap fun group' =>
                ':' :: Nat.toDigits 16 group' := by
        induction groups generalizing group with
        | nil => simp [List.intercalate]
        | cons next groups ih =>
            have hRest := ih next
            simp only [List.map_cons,
              List.flatMap_cons] at hRest ⊢
            rw [List.intercalate_cons_cons, hRest]
            simp
      simp only [fmtSubslice, hTail, groupsText, if_true,
        List.nil_append, groupsText_succ]

theorem dot_not_mem_toDigits
    (n : Nat) :
    '.' ∉ Nat.toDigits 16 n := by
  rcases exists_digits (by omega : 1 < 16) n with
    ⟨digits, hText, _, hBound, _, _⟩
  rw [hText]
  intro hMember
  rcases List.mem_map.mp hMember with ⟨d, hDigit, hEq⟩
  have hChars : ∀ d < 16, Nat.digitChar d ≠ '.' := by
    decide
  exact hChars d (hBound d hDigit) hEq

theorem dot_not_mem_groupsText
    (index : Nat)
    (groups : List Nat) :
    '.' ∉ groupsText index groups := by
  induction groups generalizing index with
  | nil => simp [groupsText]
  | cons group groups ih =>
      have hTail := ih (index + 1)
      have hGroup := dot_not_mem_toDigits group
      by_cases hIndex : index = 0 <;>
        simp [groupsText, hIndex, hGroup] <;>
        simpa [hIndex] using hTail

/- A place at which no further group can be read. -/
def EndsGroups
    (rest : Text) : Prop :=
  rest = [] ∨ ∃ tail, rest = ':' :: ':' :: tail

theorem readSeparator_endsGroups
    {α : Type}
    {reader : Reader α}
    (hReader : ∀ t, (t = [] ∨ ∃ tail, t = ':' :: tail) →
      reader t = none)
    (index : Nat)
    {rest : Text}
    (hEnd : EndsGroups rest) :
    readSeparator ':' index reader rest = none := by
  rcases hEnd with rfl | ⟨tail, rfl⟩
  · simp [readSeparator, readGivenChar, hReader]
  · simp [readSeparator, readGivenChar, hReader]

theorem readGroups_endsGroups
    (index left : Nat)
    {rest : Text}
    (hEnd : EndsGroups rest) :
    readGroups index left rest = ([], false, rest) := by
  have hEnds :
      ∀ radix t, (t = [] ∨ ∃ tail, t = ':' :: tail) →
        EndsNumber radix t := by
    intro radix t hShape
    rcases hShape with rfl | ⟨tail, rfl⟩
    · exact endsNumber_nil
    · exact endsNumber_colon
  have hIpv4 :
      readSeparator ':' index readIpv4Addr rest = none :=
    readSeparator_endsGroups
      (fun t hShape => readIpv4Addr_none (hEnds 10 t hShape))
      index hEnd
  have hGroup :
      readSeparator ':' index
        (readNumber 16 (some 4) true 65536) rest = none :=
    readSeparator_endsGroups
      (fun t hShape => readNumber_none (hEnds 16 t hShape))
      index hEnd
  cases left with
  | zero => rfl
  | succ left => simp [readGroups, hIpv4, hGroup]

/- Separators do not hide a dot from the IPv4 reader. -/
theorem readSeparator_ipv4_dot
    (index : Nat)
    {t : Text}
    (hDot : '.' ∉ t) :
    readSeparator ':' index readIpv4Addr t = none := by
  unfold readSeparator
  split
  · exact readIpv4Addr_dot hDot
  · cases t with
    | nil => rfl
    | cons c tail =>
        have hTail : '.' ∉ tail := by
          intro hMember
          exact hDot (List.mem_cons_of_mem _ hMember)
        by_cases hColon : c = ':'
        · simp [readGivenChar, hColon,
            readIpv4Addr_dot hTail]
        · simp [readGivenChar, hColon]

theorem endsNumber_groupsText
    {groups : List Nat}
    {rest : Text}
    (hEnd : EndsGroups rest)
    (index : Nat) :
    EndsNumber 16 (groupsText (index + 1) groups ++ rest) := by
  cases groups with
  | nil =>
      rcases hEnd with rfl | ⟨tail, rfl⟩
      · exact endsNumber_nil
      · exact endsNumber_colon
  | cons group groups =>
      simp only [groupsText, Nat.add_eq_zero_iff, one_ne_zero,
        and_false, if_false, List.cons_append]
      exact endsNumber_colon

/- The group reader reads back the groups that are shown. -/
theorem readGroups_groupsText
    {groups : List Nat}
    (hBound : ∀ group ∈ groups, group < 65536)
    {left : Nat}
    (hLength : groups.length ≤ left)
    {rest : Text}
    (hDot : '.' ∉ rest)
    (hEnd : EndsGroups rest)
    (index : Nat) :
    readGroups index left (groupsText index groups ++ rest) =
      (groups, false, rest) := by
  induction groups generalizing index left with
  | nil => exact readGroups_endsGroups index left hEnd
  | cons group groups ih =>
      cases left with
      | zero => simp at hLength
      | succ left =>
          have hNoDot :
              '.' ∉ groupsText index (group :: groups) ++
                rest := by
            simpa [hDot] using
              dot_not_mem_groupsText index (group :: groups)
          have hIpv4 := readSeparator_ipv4_dot index hNoDot
          have hTail := ih
            (fun g hMember =>
              hBound g (List.mem_cons_of_mem _ hMember))
            (by simpa using hLength) (index + 1)
          have hNumber :
              readNumber 16 (some 4) true 65536
                  (Nat.toDigits 16 group ++
                    (groupsText (index + 1) groups ++ rest)) =
                some (group,
                  groupsText (index + 1) groups ++ rest) := by
            apply readNumber_toDigits (by omega) (by omega)
              (hBound group (List.mem_cons_self ..))
            · intro k hMember
              cases hMember
              have hGroup :=
                hBound group (List.mem_cons_self ..)
              omega
            · exact endsNumber_groupsText hEnd index
          have hGroup :
              readSeparator ':' index
                  (readNumber 16 (some 4) true 65536)
                  (groupsText index (group :: groups) ++
                    rest) =
                some (group,
                  groupsText (index + 1) groups ++ rest) := by
            by_cases hIndex : index = 0
            · simpa [readSeparator, groupsText, hIndex]
                using hNumber
            · simpa [readSeparator, groupsText, hIndex,
                readGivenChar] using hNumber
          simp only [readGroups, hIpv4, ite_self, hGroup,
            hTail]

end Net

------------------------------------------------------------
-- The Run Of Zeros
------------------------------------------------------------

namespace Net

/- A span that covers zeros only. -/
def ZeroRun
    (groups : List Nat)
    (span : Span) : Prop :=
  ∃ before after,
    groups = before ++ List.replicate span.len 0 ++ after ∧
      before.length = span.start

/- A span of zeros that reaches the end of the groups. -/
def EndRun
    (groups : List Nat)
    (span : Span) : Prop :=
  ∃ before,
    groups = before ++ List.replicate span.len 0 ∧
      (span.len ≠ 0 → before.length = span.start)

theorem ZeroRun.append
    {groups : List Nat}
    {span : Span}
    (hRun : ZeroRun groups span)
    (group : Nat) :
    ZeroRun (groups ++ [group]) span := by
  rcases hRun with ⟨before, after, rfl, hStart⟩
  exact ⟨before, after ++ [group], by simp, hStart⟩

theorem EndRun.zeroRun
    {groups : List Nat}
    {span : Span}
    (hRun : EndRun groups span)
    (hLength : span.len ≠ 0) :
    ZeroRun groups span := by
  rcases hRun with ⟨before, rfl, hStart⟩
  exact ⟨before, [], by simp, hStart hLength⟩

/- One more zero starts or extends the run at the end. -/
theorem EndRun.zero
    {groups : List Nat}
    {span : Span}
    (hRun : EndRun groups span) :
    EndRun (groups ++ [0])
      (if span.len = 0 then
        ⟨groups.length, 1⟩
      else
        ⟨span.start, span.len + 1⟩) := by
  rcases hRun with ⟨before, rfl, hStart⟩
  split
  · rename_i hZero
    exact ⟨before, by simp [hZero], by simp [hZero]⟩
  · rename_i hSome
    refine ⟨before, ?_, fun _ => hStart hSome⟩
    simp [List.replicate_succ']

/- The loop keeps both spans inside the zeros. -/
theorem longestZeros_zeroRun
    {groups passed : List Nat}
    {longest current : Span}
    (hLongest : ZeroRun passed longest)
    (hCurrent : EndRun passed current) :
    ZeroRun (passed ++ groups)
      (longestZeros longest current passed.length
        groups) := by
  induction groups generalizing passed longest current with
  | nil => simpa [longestZeros] using hLongest
  | cons group groups ih =>
      have hShift :
          passed ++ group :: groups =
            (passed ++ [group]) ++ groups := by
        simp
      have hIndex :
          passed.length + 1 = (passed ++ [group]).length := by
        simp
      rw [hShift, longestZeros, hIndex]
      split
      · rename_i hZero
        subst hZero
        have hNext := hCurrent.zero
        have hLength :
            (if current.len = 0 then
              (⟨passed.length, 1⟩ : Span)
            else
              ⟨current.start, current.len + 1⟩).len ≠ 0 := by
          split <;> simp
        dsimp only
        generalize (if current.len = 0 then
          (⟨passed.length, 1⟩ : Span) else _) = next
          at hNext hLength ⊢
        apply ih
        · split
          · exact hNext.zeroRun hLength
          · exact hLongest.append 0
        · exact hNext
      · apply ih
        · exact hLongest.append group
        · exact ⟨passed ++ [group], by simp [Span.default],
            by simp [Span.default]⟩

/- The groups around the run that `Display` leaves out. -/
theorem longestZeros_split
    (groups : List Nat) :
    let zeroes :=
      longestZeros Span.default Span.default 0 groups
    groups.take zeroes.start ++
        List.replicate zeroes.len 0 ++
        groups.drop (zeroes.start + zeroes.len) =
      groups := by
  intro zeroes
  have hRun : ZeroRun ([] ++ groups) zeroes := by
    apply longestZeros_zeroRun
    · exact ⟨[], [], rfl, rfl⟩
    · exact ⟨[], rfl, fun _ => rfl⟩
  rcases hRun with ⟨before, after, hGroups, hStart⟩
  rw [List.nil_append] at hGroups
  have hTake : groups.take zeroes.start = before := by
    simp [hGroups, ← hStart]
  have hDrop :
      groups.drop (zeroes.start + zeroes.len) = after := by
    simp [hGroups, ← hStart, List.drop_append]
  rw [hTake, hDrop, ← hGroups]

end Net

------------------------------------------------------------
-- Reading An IPv6 Address Back
------------------------------------------------------------

namespace Net

theorem segments_lt
    (addr : BitVec 128) :
    ∀ group ∈ segments addr, group < 65536 := by
  have hLt := addr.isLt
  intro group hMember
  simp only [segments, List.mem_cons,
    List.not_mem_nil, or_false] at hMember
  omega

theorem ofGroups_segments
    (addr : BitVec 128) :
    ofGroups (segments addr) = addr := by
  apply BitVec.eq_of_toNat_eq
  have hLt := addr.isLt
  simp only [ofGroups, segments, List.foldl_cons,
    List.foldl_nil, BitVec.toNat_ofNat]
  omega

/- An address shown group by group. -/
theorem readIpv6Addr_groups
    {groups : List Nat}
    (hBound : ∀ group ∈ groups, group < 65536)
    (hLength : groups.length = 8) :
    readIpv6Addr (groupsText 0 groups) =
      some (ofGroups groups, []) := by
  have hRead :=
    readGroups_groupsText hBound hLength.le
      (by simp : '.' ∉ ([] : Text)) (Or.inl rfl) 0
  rw [List.append_nil] at hRead
  simp [readIpv6Addr, hRead, hLength]

/- The two halves of an address around `::`. -/
theorem readIpv6Addr_halves
    {before after : List Nat}
    {embedded : Bool}
    {t tail rest : Text}
    (hHead :
      readGroups 0 8 t = (before, false, ':' :: ':' :: tail))
    (hShort : before.length ≠ 8)
    (hTail :
      readGroups 0 (7 - before.length) tail =
        (after, embedded, rest)) :
    readIpv6Addr t =
      some
        (ofGroups
          (before ++
            List.replicate
              (8 - before.length - after.length) 0 ++
            after),
          rest) := by
  simp [readIpv6Addr, hHead, hTail, readGivenChar, hShort]

/- An address shown with a run of zeros left out. -/
theorem readIpv6Addr_compressed
    {before after : List Nat}
    (hBefore : ∀ group ∈ before, group < 65536)
    (hAfter : ∀ group ∈ after, group < 65536)
    {zeros : Nat}
    (hZeros : 1 < zeros)
    (hLength : before.length + zeros + after.length = 8) :
    readIpv6Addr
        (groupsText 0 before ++ "::".toList ++
          groupsText 0 after) =
      some
        (ofGroups
          (before ++ List.replicate zeros 0 ++ after),
          []) := by
  have hDots :
      '.' ∉ ':' :: ':' :: groupsText 0 after := by
    simpa using dot_not_mem_groupsText 0 after
  have hHead :=
    readGroups_groupsText hBefore
      (by omega : before.length ≤ 8) hDots
      (Or.inr ⟨_, rfl⟩) 0
  have hTail :=
    readGroups_groupsText hAfter
      (by omega : after.length ≤ 7 - before.length)
      (by simp : '.' ∉ ([] : Text)) (Or.inl rfl) 0
  rw [List.append_nil] at hTail
  have hCount : 8 - before.length - after.length = zeros := by
    omega
  have hText :
      groupsText 0 before ++ "::".toList ++
          groupsText 0 after =
        groupsText 0 before ++
          ':' :: ':' :: groupsText 0 after := by
    simp
  rw [hText, readIpv6Addr_halves hHead (by omega) hTail,
    hCount]

/- An IPv4-mapped address. -/
theorem readIpv6Addr_mapped
    (ipv4 : BitVec 32) :
    readIpv6Addr ("::ffff:".toList ++ ipv4Text ipv4) =
      some
        (ofGroups
          (List.replicate 5 0 ++
            [0xffff, ipv4.toNat / 65536,
              ipv4.toNat % 65536]),
          []) := by
  have hHead :
      readGroups 0 8
          (':' :: ':' :: ("ffff:".toList ++ ipv4Text ipv4)) =
        ([], false,
          ':' :: ':' :: ("ffff:".toList ++ ipv4Text ipv4)) :=
    readGroups_endsGroups 0 8 (Or.inr ⟨_, rfl⟩)
  have hIpv4 := readIpv4Addr_toText ipv4 endsNumber_nil
  rw [List.append_nil] at hIpv4
  have hLast :
      readGroups 1 6 (':' :: ipv4Text ipv4) =
        ([ipv4.toNat / 65536, ipv4.toNat % 65536], true,
          []) := by
    simp [readGroups, readSeparator, readGivenChar, hIpv4]
  have hNumber :
      readNumber 16 (some 4) true 65536
          ("ffff:".toList ++ ipv4Text ipv4) =
        some (0xffff, ':' :: ipv4Text ipv4) :=
    readNumber_toDigits (n := 0xffff) (by omega) (by omega)
      (by omega) (by simp) true endsNumber_colon
  have hNoIpv4 :
      readIpv4Addr ("ffff:".toList ++ ipv4Text ipv4) =
        none :=
    readIpv4Addr_none (endsNumber_cons (by decide))
  have hTail :
      readGroups 0 7 ("ffff:".toList ++ ipv4Text ipv4) =
        ([0xffff, ipv4.toNat / 65536, ipv4.toNat % 65536],
          true, []) := by
    rw [readGroups]
    simp only [readSeparator, if_true, hNoIpv4, hNumber,
      hLast, Nat.zero_add, ite_self]
  exact readIpv6Addr_halves hHead (by simp) hTail

theorem ofGroups_mapped
    {addr : BitVec 128}
    {ipv4 : BitVec 32}
    (hMapped : toIpv4Mapped addr = some ipv4) :
    ofGroups
        (List.replicate 5 0 ++
          [0xffff, ipv4.toNat / 65536,
            ipv4.toNat % 65536]) =
      addr := by
  unfold toIpv4Mapped at hMapped
  split at hMapped <;> [skip; cases hMapped]
  rename_i hPrefix
  simp only [Option.some.injEq] at hMapped
  subst hMapped
  apply BitVec.eq_of_toNat_eq
  simp only [ofGroups, List.replicate, List.cons_append,
    List.nil_append, List.foldl_cons, List.foldl_nil,
    BitVec.toNat_ofNat]
  omega

/- `Display` and the parser of `Ipv6Addr` agree. -/
theorem readIpv6Addr_toText
    (addr : BitVec 128) :
    readIpv6Addr (ipv6Text addr) = some (addr, []) := by
  cases hMapped : toIpv4Mapped addr with
  | some ipv4 =>
      simp only [ipv6Text, hMapped]
      rw [readIpv6Addr_mapped, ofGroups_mapped hMapped]
  | none =>
      have hBound := segments_lt addr
      simp only [ipv6Text, hMapped, fmtSubslice_eq]
      split
      · rename_i hLong
        have hSplit := longestZeros_split (segments addr)
        simp only at hSplit
        have hLength := congrArg List.length hSplit
        have hEight : (segments addr).length = 8 := rfl
        rw [List.length_append, List.length_append,
          List.length_replicate, hEight] at hLength
        rw [readIpv6Addr_compressed
          (fun group hMember =>
            hBound group (List.mem_of_mem_take hMember))
          (fun group hMember =>
            hBound group (List.mem_of_mem_drop hMember))
          hLong hLength, hSplit, ofGroups_segments]
      · rw [readIpv6Addr_groups hBound rfl,
          ofGroups_segments]

/- No IPv6 text starts with an IPv4 address. -/
theorem readIpv4Addr_ipv6Text
    (addr : BitVec 128) :
    readIpv4Addr (ipv6Text addr) = none := by
  cases hMapped : toIpv4Mapped addr with
  | some ipv4 =>
      simp only [ipv6Text, hMapped]
      exact readIpv4Addr_none endsNumber_colon
  | none =>
      apply readIpv4Addr_dot
      simp only [ipv6Text, hMapped, fmtSubslice_eq]
      split
      · simp [dot_not_mem_groupsText]
      · exact dot_not_mem_groupsText 0 _

end Net

/- An address parses back from its text. -/
theorem IpAddr.parse_toText
    (addr : IpAddr) :
    IpAddr.parse addr.toText = some addr := by
  cases addr with
  | v4 addr =>
      have hRead :=
        Net.readIpv4Addr_toText addr Net.endsNumber_nil
      rw [List.append_nil] at hRead
      simp [IpAddr.parse, IpAddr.toText, Net.parseWith,
        Net.readIpAddr, hRead]
  | v6 addr =>
      simp [IpAddr.parse, IpAddr.toText, Net.parseWith,
        Net.readIpAddr, Net.readIpv4Addr_ipv6Text,
        Net.readIpv6Addr_toText]

example :
    IpAddr.toText (.v6 0x20010db8000000000001000000000001) =
      "2001:db8::1:0:0:1".toList := by
  decide
