import Mathlib.Data.List.Basic

/-
  Text as lists of characters, with the string operations of
  the Rust standard library that the modelled code calls.

  Each operation follows the documented behaviour of its
  namesake: `str::lines` splits at LF and CRLF, `str::trim`
  and `str::split_whitespace` use the Unicode `White_Space`
  property, `to_ascii_lowercase` changes ASCII letters only,
  and integer parsing accepts an optional plus sign.

  Key definitions include:
    * `Text`
    * `Text.isWhitespace`
    * `Text.trim`
    * `Text.lines`
    * `Text.splitOnceP`
    * `Text.splitWhitespace`
    * `Text.parseUnsigned`
    * `Text.ofNat`
    * `Text.contains`
    * `Text.asBytes`
    * `Text.fromUtf8Lossy`
-/

------------------------------------------------------------
-- Characters And Trimming
------------------------------------------------------------

/- A string, as its list of Unicode scalar values. -/
abbrev Text := List Char

namespace Text

/- `char::is_whitespace`: the `White_Space` property. -/
def isWhitespace
    (c : Char) : Bool :=
  let n := c.toNat
  (0x09 ≤ n && n ≤ 0x0d) || n == 0x20 || n == 0x85 ||
    n == 0xa0 || n == 0x1680 ||
    (0x2000 ≤ n && n ≤ 0x200a) || n == 0x2028 ||
    n == 0x2029 || n == 0x202f || n == 0x205f ||
    n == 0x3000

/- `str::trim_start`. -/
def trimStart
    (t : Text) : Text :=
  t.dropWhile isWhitespace

/- `str::trim_end`. -/
def trimEnd
    (t : Text) : Text :=
  (t.reverse.dropWhile isWhitespace).reverse

/- `str::trim`. -/
def trim
    (t : Text) : Text :=
  trimEnd (trimStart t)

theorem dropWhile_isWhitespace
    {t : Text}
    (hFirst :
      ∀ c, t.head? = some c → isWhitespace c = false) :
    t.dropWhile isWhitespace = t := by
  cases t with
  | nil => rfl
  | cons c t =>
      rw [List.dropWhile_cons_of_neg]
      simp [hFirst c rfl]

/- Nothing is trimmed where no end is whitespace. -/
theorem trim_eq_self
    {t : Text}
    (hFirst :
      ∀ c, t.head? = some c → isWhitespace c = false)
    (hLast :
      ∀ c, t.getLast? = some c → isWhitespace c = false) :
    trim t = t := by
  have hReverse :
      t.reverse.dropWhile isWhitespace = t.reverse := by
    apply dropWhile_isWhitespace
    rw [List.head?_reverse]
    exact hLast
  rw [trim, trimStart, dropWhile_isWhitespace hFirst,
    trimEnd, hReverse, List.reverse_reverse]

/- `str::trim_end_matches` of one character. -/
def trimEndMatches
    (c : Char)
    (t : Text) : Text :=
  (t.reverse.dropWhile (· == c)).reverse

/- `str::to_ascii_lowercase`. -/
def toAsciiLowercase
    (t : Text) : Text :=
  t.map Char.toLower

end Text

------------------------------------------------------------
-- Splitting
------------------------------------------------------------

namespace Text

/-
  Cut after every line feed, keeping it, as
  `str::split_inclusive` does.
-/
def splitInclusive : Text → List Text
| [] => []
| c :: rest =>
    if c = '\n' then
      ['\n'] :: splitInclusive rest
    else
      match splitInclusive rest with
      | [] => [[c]]
      | line :: lines => (c :: line) :: lines

/- Remove one line ending, LF or CRLF, if there is one. -/
def stripLineEnding
    (line : Text) : Text :=
  match line.dropSuffix? ['\n'] with
  | none => line
  | some line =>
      match line.dropSuffix? ['\r'] with
      | none => line
      | some line => line

/- `str::lines`. -/
def lines
    (t : Text) : List Text :=
  (splitInclusive t).map stripLineEnding

/- `str::split_once` at the first character meeting `p`. -/
def splitOnceP
    (p : Char → Bool)
    (t : Text) : Option (Text × Text) :=
  match t.dropWhile (fun c => !p c) with
  | [] => none
  | _ :: rest => some (t.takeWhile (fun c => !p c), rest)

/- `str::split_once` at the first occurrence of a text. -/
def splitOnce
    (pat : Text) :
    Text → Option (Text × Text)
| [] => if pat = [] then some ([], []) else none
| c :: rest =>
    match (c :: rest).dropPrefix? pat with
    | some tail => some ([], tail)
    | none =>
        (splitOnce pat rest).map fun (head, tail) =>
          (c :: head, tail)

/- `str::rsplit_once` at the last occurrence of a char. -/
def rsplitOnce
    (sep : Char) :
    Text → Option (Text × Text)
| [] => none
| c :: rest =>
    match rsplitOnce sep rest with
    | some (head, tail) => some (c :: head, tail)
    | none => if c = sep then some ([], rest) else none

theorem rsplitOnce_of_not_mem
    {sep : Char}
    {t : Text}
    (hSep : sep ∉ t) :
    rsplitOnce sep t = none := by
  induction t with
  | nil => rfl
  | cons c rest ih =>
      rw [List.mem_cons, not_or] at hSep
      rw [rsplitOnce, ih hSep.2]
      simp [Ne.symm hSep.1]

/- The last separator is the one that nothing follows. -/
theorem rsplitOnce_append
    {sep : Char}
    {tail : Text}
    (hSep : sep ∉ tail)
    (head : Text) :
    rsplitOnce sep (head ++ sep :: tail) =
      some (head, tail) := by
  induction head with
  | nil =>
      rw [List.nil_append, rsplitOnce,
        rsplitOnce_of_not_mem hSep]
      simp
  | cons c head ih =>
      rw [List.cons_append, rsplitOnce, ih]

/- A text is split at its last separator. -/
theorem rsplitOnce_eq_some
    {sep : Char}
    {t head tail : Text}
    (hSplit : rsplitOnce sep t = some (head, tail)) :
    t = head ++ sep :: tail ∧ sep ∉ tail := by
  by_cases hSep : sep ∈ t
  · rcases List.eq_append_cons_of_mem
        (List.mem_reverse.mpr hSep) with
      ⟨after, before, hReverse, hAfter⟩
    have hLast :
        t = before.reverse ++ sep :: after.reverse := by
      rw [← List.reverse_reverse t, hReverse]
      simp
    have hFree : sep ∉ after.reverse := by
      simpa using hAfter
    rw [hLast, rsplitOnce_append hFree] at hSplit
    cases hSplit
    exact ⟨hLast, hFree⟩
  · rw [rsplitOnce_of_not_mem hSep] at hSplit
    cases hSplit

/- No part between separators has a separator. -/
theorem not_of_mem_splitOnP
    {p : Char → Bool}
    {t part : Text}
    {c : Char}
    (hPart : part ∈ t.splitOnP p)
    (hMem : c ∈ part) :
    p c = false := by
  induction t generalizing part with
  | nil =>
      rw [List.splitOnP_nil, List.mem_singleton] at hPart
      simp [hPart] at hMem
  | cons x t ih =>
      rw [List.splitOnP_cons_eq_if_modifyHead] at hPart
      split at hPart
      · rcases List.mem_cons.mp hPart with rfl | hTail
        · cases hMem
        · exact ih hTail hMem
      · rename_i hKept
        rw [Bool.not_eq_true] at hKept
        cases hSplit : t.splitOnP p with
        | nil => simp [hSplit] at hPart
        | cons first rest =>
            rw [hSplit, List.modifyHead_cons] at hPart
            rcases List.mem_cons.mp hPart with rfl | hRest
            · rcases List.mem_cons.mp hMem with rfl | hInner
              · exact hKept
              · exact ih (by simp [hSplit]) hInner
            · exact ih (by simp [hSplit, hRest]) hMem

/- `str::split_whitespace`. -/
def splitWhitespace
    (t : Text) : List Text :=
  (t.splitOnP isWhitespace).filter (fun w => w ≠ [])

/- The words of a text have no whitespace. -/
theorem not_isWhitespace_of_mem_word
    {t word : Text}
    {c : Char}
    (hWord : word ∈ t.splitWhitespace)
    (hMem : c ∈ word) :
    isWhitespace c = false :=
  not_of_mem_splitOnP (List.mem_filter.mp hWord).1 hMem

/- `str::trim_start_matches` of one character. -/
def trimStartMatches
    (c : Char)
    (t : Text) : Text :=
  t.dropWhile (· == c)

end Text

------------------------------------------------------------
-- Numbers And Bytes
------------------------------------------------------------

namespace Text

/- The value of an ASCII decimal digit. -/
def digit?
    (c : Char) : Option Nat :=
  if '0' ≤ c ∧ c ≤ '9' then
    some (c.toNat - '0'.toNat)
  else
    none

/-
  `str::parse` for an unsigned integer type whose values lie
  below `bound`: an optional plus sign, then one or more
  decimal digits.
-/
def parseUnsigned
    (bound : Nat)
    (t : Text) : Option Nat :=
  let digits :=
    match t with
    | '+' :: rest => rest
    | _ => t
  if digits = [] then
    none
  else
    match digits.foldlM
        (fun n c => (digit? c).map (n * 10 + ·)) 0 with
    | none => none
    | some n => if n < bound then some n else none

/- `str::parse::<u16>`. -/
def parseU16
    (t : Text) : Option UInt16 :=
  (parseUnsigned UInt16.size t).map UInt16.ofNat

/- `str::parse::<u32>`. -/
def parseU32
    (t : Text) : Option UInt32 :=
  (parseUnsigned UInt32.size t).map UInt32.ofNat

/- `str::parse::<u64>`. -/
def parseU64
    (t : Text) : Option UInt64 :=
  (parseUnsigned UInt64.size t).map UInt64.ofNat

/- `ToString` of an unsigned integer: its decimal form. -/
def ofNat
    (n : Nat) : Text :=
  Nat.toDigits 10 n

/- `str::contains`. -/
def contains
    (pat : Text) : Text → Bool
| [] => pat.isEmpty
| c :: rest => pat.isPrefixOf (c :: rest) || contains pat rest

theorem contains_iff
    {pat t : Text} :
    contains pat t = true ↔ pat <:+: t := by
  induction t with
  | nil => simp [contains]
  | cons c rest ih =>
      rw [contains, Bool.or_eq_true, List.isPrefixOf_iff_prefix,
        ih, List.infix_cons_iff]

/- `str::as_bytes`: the UTF-8 encoding. -/
def asBytes
    (t : Text) : List UInt8 :=
  t.flatMap String.utf8EncodeChar

/- Different texts have different encodings. -/
theorem asBytes_injective :
    Function.Injective asBytes := by
  intro t t' hEq
  have hEncode : List.utf8Encode t = List.utf8Encode t' := by
    simp only [List.utf8Encode, asBytes] at *
    rw [hEq]
  have hDecode := congrArg ByteArray.utf8Decode? hEncode
  rw [List.utf8Decode?_utf8Encode,
    List.utf8Decode?_utf8Encode] at hDecode
  simpa using hDecode

/- The range of a byte that continues a character. -/
def isContinuation
    (b : UInt8) : Bool :=
  0x80 ≤ b && b ≤ 0xbf

/- The second bytes allowed after a first one of three. -/
def isSecondOfThree
    (first second : UInt8) : Bool :=
  if first == 0xe0 then
    0xa0 ≤ second && second ≤ 0xbf
  else if first == 0xed then
    0x80 ≤ second && second ≤ 0x9f
  else
    isContinuation second

/- The second bytes allowed after a first one of four. -/
def isSecondOfFour
    (first second : UInt8) : Bool :=
  if first == 0xf0 then
    0x90 ≤ second && second ≤ 0xbf
  else if first == 0xf4 then
    0x80 ≤ second && second ≤ 0x8f
  else
    isContinuation second

/- The six low bits that a byte continues with. -/
def lowBits
    (b : UInt8) : Nat :=
  b.toNat % 64

/-
  The character that starts with a byte, and how many of the
  bytes after it belong to it. A wrong start of a character
  is taken as far as it could be right, as U+FFFD.
-/
def decodeChar
    (a : UInt8)
    (rest : List UInt8) : Char × Nat :=
  if a < 0x80 then
    (Char.ofNat a.toNat, 0)
  else if 0xc2 ≤ a && a ≤ 0xdf then
    match rest with
    | b :: _ =>
        if isContinuation b then
          (Char.ofNat (a.toNat % 32 * 64 + lowBits b), 1)
        else
          ('\ufffd', 0)
    | [] => ('\ufffd', 0)
  else if 0xe0 ≤ a && a ≤ 0xef then
    match rest with
    | b :: c :: _ =>
        if isSecondOfThree a b then
          if isContinuation c then
            (Char.ofNat
              (a.toNat % 16 * 4096 + lowBits b * 64 +
                lowBits c), 2)
          else
            ('\ufffd', 1)
        else
          ('\ufffd', 0)
    | [b] => ('\ufffd', if isSecondOfThree a b then 1 else 0)
    | [] => ('\ufffd', 0)
  else if 0xf0 ≤ a && a ≤ 0xf4 then
    match rest with
    | b :: c :: d :: _ =>
        if isSecondOfFour a b then
          if isContinuation c then
            if isContinuation d then
              (Char.ofNat
                (a.toNat % 8 * 262144 + lowBits b * 4096 +
                  lowBits c * 64 + lowBits d), 3)
            else
              ('\ufffd', 2)
          else
            ('\ufffd', 1)
        else
          ('\ufffd', 0)
    | [b, c] =>
        ('\ufffd',
          if isSecondOfFour a b then
            if isContinuation c then 2 else 1
          else
            0)
    | [b] => ('\ufffd', if isSecondOfFour a b then 1 else 0)
    | [] => ('\ufffd', 0)
  else
    ('\ufffd', 0)

/- Decode, leaving out a number of bytes first. -/
def decodeFrom : Nat → List UInt8 → Text
| _, [] => []
| n + 1, _ :: rest => decodeFrom n rest
| 0, a :: rest =>
    match decodeChar a rest with
    | (c, extra) => c :: decodeFrom extra rest

/- `String::from_utf8_lossy`. -/
def fromUtf8Lossy
    (bytes : List UInt8) : Text :=
  decodeFrom 0 bytes

example :
    fromUtf8Lossy [0x61, 0xe2, 0x82, 0xac, 0xe2, 0x82, 0x62] =
      ['a', '€', '\ufffd', 'b'] := by
  decide

end Text
