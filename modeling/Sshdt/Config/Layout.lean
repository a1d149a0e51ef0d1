import Mathlib.Data.List.TakeWhile
import Mathlib.Logic.Relation
import Sshdt.Config.SshdConfig

/-
  The layout of a configuration text, which `parse`
  (`src/sshd_config.rs`) does not see.

  A line is read without its comment and trimmed, its first
  word is taken in lower case, and the whitespace before the
  value goes. A line with no word left counts for nothing. So
  the spacing of lines, the letter case of keywords, comments
  and blank lines and the kind of line ends may change, and
  the parsed configuration does not. An error keeps
  everything but the number of its line.

  The keyword of a line is its first word, known or not. Its
  ASCII letters may change their case; any other character of
  it makes the keyword an unknown one, whatever it is.

  Key definitions include:
    * `SshdConfig.LineEdit`
    * `SshdConfig.LayoutEdit`
    * `SshdConfig.SameLayout`
    * `SshdConfig.lineEffect`
    * `SshdConfig.effects`
    * `Error.eraseLine`

  Key theorems include:
    * `SshdConfig.splitLine_keyed`
    * `SshdConfig.lineEffect_edit`
    * `SshdConfig.effects_edit`
    * `SshdConfig.parse_eraseLine`
    * `SshdConfig.parse_layout`
-/

------------------------------------------------------------
-- Edits
------------------------------------------------------------

namespace Sshdt

namespace SshdConfig

/- Whitespace within a line, or nothing. -/
def Spaces
    (t : Text) : Prop :=
  ∀ c ∈ t, Text.isWhitespace c = true ∧ c ≠ '\n'

/- A word: no whitespace, and not empty. -/
def IsWord
    (t : Text) : Prop :=
  t ≠ [] ∧ ∀ c ∈ t, Text.isWhitespace c = false

/-
  Characters that differ in the case of an ASCII letter, or
  that are both outside ASCII, where no keyword reaches.
-/
def SameLetter
    (c c' : Char) : Prop :=
  c.toLower = c'.toLower ∨
    (0x80 ≤ c.toNat ∧ 0x80 ≤ c'.toNat ∧
      Text.isWhitespace c = false ∧
      Text.isWhitespace c' = false)

/- What follows the keyword of a line. -/
def AfterWord
    (t : Text) : Prop :=
  t = [] ∨ ∃ c rest, t = c :: rest ∧
    Text.isWhitespace c = true

/- The changes of one line. -/
inductive LineEdit : Text → Text → Prop
| leading
    (spaces line : Text)
    (hSpaces : Spaces spaces) :
    LineEdit line (spaces ++ line)
| trailing
    (spaces line : Text)
    (hSpaces : Spaces spaces) :
    LineEdit line (line ++ spaces)
| keyword
    (lead key key' rest : Text)
    (hLead : Spaces lead)
    (hKey : IsWord key)
    (hCase : List.Forall₂ SameLetter key key')
    (hRest : AfterWord rest) :
    LineEdit (lead ++ key ++ rest) (lead ++ key' ++ rest)
| gap
    (lead key gap gap' rest : Text)
    (hLead : Spaces lead)
    (hKey : IsWord key)
    (hGap : Spaces gap ∧ gap ≠ [])
    (hGap' : Spaces gap' ∧ gap' ≠ []) :
    LineEdit (lead ++ key ++ gap ++ rest)
      (lead ++ key ++ gap' ++ rest)
| comment
    (line spaces text : Text)
    (hSpaces : Spaces spaces ∧ spaces ≠ [])
    (hText : '\n' ∉ text) :
    LineEdit line (line ++ spaces ++ '#' :: text)

/- A line that is blank or has a comment only. -/
inductive IdleLine : Text → Prop
| blank
    (spaces : Text)
    (hSpaces : Spaces spaces) :
    IdleLine spaces
| comment
    (spaces text : Text)
    (hSpaces : Spaces spaces)
    (hText : '\n' ∉ text) :
    IdleLine (spaces ++ '#' :: text)

/- The two line ends. -/
def IsLineEnd
    (t : Text) : Prop :=
  t = ['\n'] ∨ t = ['\r', '\n']

/- A line may start after this text. -/
def LineStart
    (t : Text) : Prop :=
  t = [] ∨ ∃ before, t = before ++ ['\n']

/- A line is over where this text goes on. -/
def LineStop
    (t : Text) : Prop :=
  t = [] ∨ ∃ lineEnd after,
    IsLineEnd lineEnd ∧ t = lineEnd ++ after

/-
  One change of the layout: in a line, a line more before or
  after another one, or one line end for the other.
-/
inductive LayoutEdit : Text → Text → Prop
| line
    (before line line' after : Text)
    (hBefore : LineStart before)
    (hLine : '\n' ∉ line)
    (hAfter : LineStop after)
    (hEdit : LineEdit line line') :
    LayoutEdit (before ++ line ++ after)
      (before ++ line' ++ after)
| insertBefore
    (before idle lineEnd after : Text)
    (hBefore : LineStart before)
    (hIdle : IdleLine idle)
    (hEnd : IsLineEnd lineEnd) :
    LayoutEdit (before ++ after)
      (before ++ idle ++ lineEnd ++ after)
| insertAfter
    (before lineEnd idle after : Text)
    (hEnd : IsLineEnd lineEnd)
    (hIdle : IdleLine idle)
    (hAfter : LineStop after) :
    LayoutEdit (before ++ after)
      (before ++ lineEnd ++ idle ++ after)
| lineEnd
    (before after : Text) :
    LayoutEdit (before ++ ['\n'] ++ after)
      (before ++ ['\r', '\n'] ++ after)

/- Texts that differ in their layout only. -/
def SameLayout : Text → Text → Prop :=
  Relation.EqvGen LayoutEdit

end SshdConfig

end Sshdt

------------------------------------------------------------
-- Trimming
------------------------------------------------------------

namespace Sshdt

namespace SshdConfig

theorem Spaces.whitespace
    {t : Text}
    (hSpaces : Spaces t) :
    ∀ c ∈ t, Text.isWhitespace c = true :=
  fun c hMem => (hSpaces c hMem).1

/- Whitespace at the ends goes. -/
theorem trim_whitespace_append
    {spaces : Text}
    (hSpaces : ∀ c ∈ spaces, Text.isWhitespace c = true)
    (t : Text) :
    Text.trim (spaces ++ t) = Text.trim t := by
  rw [Text.trim, Text.trim, Text.trimStart, Text.trimStart,
    List.dropWhile_append_of_pos hSpaces]

theorem trimEnd_append_whitespace
    {spaces : Text}
    (hSpaces : ∀ c ∈ spaces, Text.isWhitespace c = true)
    (t : Text) :
    Text.trimEnd (t ++ spaces) = Text.trimEnd t := by
  rw [Text.trimEnd, Text.trimEnd, List.reverse_append,
    List.dropWhile_append_of_pos]
  intro c hMem
  exact hSpaces c (List.mem_reverse.mp hMem)

theorem trim_append_whitespace
    {spaces : Text}
    (hSpaces : ∀ c ∈ spaces, Text.isWhitespace c = true)
    (t : Text) :
    Text.trim (t ++ spaces) = Text.trim t := by
  rw [Text.trim, Text.trim, Text.trimStart, Text.trimStart,
    List.dropWhile_append]
  split
  · rename_i hEmpty
    rw [List.isEmpty_iff.mp hEmpty,
      List.dropWhile_eq_nil_iff.mpr hSpaces]
  · exact trimEnd_append_whitespace hSpaces _

/- A text whose first and last characters stay. -/
theorem trimStart_word
    {word : Text}
    (hWord : IsWord word)
    (rest : Text) :
    Text.trimStart (word ++ rest) = word ++ rest := by
  rcases hWord with ⟨hNonempty, hWord⟩
  cases word with
  | nil => exact absurd rfl hNonempty
  | cons c word =>
      rw [Text.trimStart, List.cons_append,
        List.dropWhile_cons_of_neg]
      rw [hWord c (by simp)]
      exact Bool.false_ne_true

/- What trimming the end leaves after a word. -/
theorem trimEnd_word
    {word : Text}
    (hWord : IsWord word)
    (rest : Text) :
    Text.trimEnd (word ++ rest) =
      word ++ Text.trimEnd rest := by
  rw [Text.trimEnd, Text.trimEnd, List.reverse_append,
    List.dropWhile_append]
  split
  · rename_i hEmpty
    rw [List.isEmpty_iff.mp hEmpty, List.reverse_nil,
      List.append_nil]
    rcases List.eq_nil_or_concat word with rfl | ⟨w, c, rfl⟩
    · exact absurd rfl hWord.1
    · rw [List.concat_eq_append, List.reverse_append,
        List.reverse_singleton, List.singleton_append,
        List.dropWhile_cons_of_neg]
      · simp
      · rw [hWord.2 c (by simp)]
        exact Bool.false_ne_true
  · simp

/- After whitespace, a blank text goes with it. -/
theorem trimEnd_whitespace_append
    {spaces : Text}
    (hSpaces : ∀ c ∈ spaces, Text.isWhitespace c = true)
    (t : Text) :
    Text.trimEnd (spaces ++ t) =
      if Text.trimEnd t = [] then [] else
        spaces ++ Text.trimEnd t := by
  rw [Text.trimEnd, Text.trimEnd, List.reverse_append,
    List.dropWhile_append]
  have hReverse :
      spaces.reverse.dropWhile Text.isWhitespace = [] :=
    List.dropWhile_eq_nil_iff.mpr fun c hMem =>
      hSpaces c (List.mem_reverse.mp hMem)
  by_cases hEmpty :
      t.reverse.dropWhile Text.isWhitespace = []
  · simp [hEmpty, hReverse]
  · simp [hEmpty]

/- Trimming twice is trimming once. -/
theorem trim_trimEnd
    (t : Text) :
    Text.trim (Text.trimEnd t) = Text.trim t := by
  have hSplit :
      t = Text.trimEnd t ++
        (t.reverse.takeWhile Text.isWhitespace).reverse := by
    rw [Text.trimEnd, ← List.reverse_append,
      List.takeWhile_append_dropWhile, List.reverse_reverse]
  have hSpaces :
      ∀ c ∈ (t.reverse.takeWhile Text.isWhitespace).reverse,
        Text.isWhitespace c = true := by
    intro c hMem
    exact List.mem_takeWhile_imp (List.mem_reverse.mp hMem)
  conv_rhs => rw [hSplit]
  exact (trim_append_whitespace hSpaces _).symm

end SshdConfig

end Sshdt

------------------------------------------------------------
-- Comments
------------------------------------------------------------

namespace Sshdt

namespace SshdConfig

/- The flag of `strip_comment` after these characters. -/
def endsBlank
    (prevWs : Bool)
    (t : Text) : Bool :=
  (t.getLast?.map Text.isWhitespace).getD prevWs

theorem endsBlank_cons
    (prevWs : Bool)
    (c : Char)
    (t : Text) :
    endsBlank prevWs (c :: t) =
      endsBlank (Text.isWhitespace c) t := by
  cases t with
  | nil => rfl
  | cons d t =>
      rw [endsBlank, endsBlank, List.getLast?_cons_cons,
        List.getLast?_eq_some_getLast (List.cons_ne_nil d t)]
      rfl

/-
  A comment in the first part ends the line there; without
  one, the rest is looked at after the last character.
-/
theorem stripCommentFrom_append
    (prevWs : Bool)
    (a b : Text) :
    stripCommentFrom prevWs (a ++ b) =
      if stripCommentFrom prevWs a = a then
        a ++ stripCommentFrom (endsBlank prevWs a) b
      else
        stripCommentFrom prevWs a := by
  induction a generalizing prevWs with
  | nil => simp [stripCommentFrom, endsBlank]
  | cons c a ih =>
      rw [List.cons_append, stripCommentFrom,
        stripCommentFrom]
      by_cases hComment : (c = '#' && prevWs) = true
      · simp [hComment]
      · rw [if_neg hComment, if_neg hComment, ih,
          endsBlank_cons]
        simp only [List.cons.injEq, true_and,
          List.cons_append]
        split <;> rfl

/- Whitespace starts no comment. -/
theorem stripCommentFrom_whitespace
    {spaces : Text}
    (hSpaces : ∀ c ∈ spaces, Text.isWhitespace c = true)
    (prevWs : Bool) :
    stripCommentFrom prevWs spaces = spaces := by
  induction spaces generalizing prevWs with
  | nil => rfl
  | cons c spaces ih =>
      have hMark : c ≠ '#' := by
        rintro rfl
        exact absurd (hSpaces '#' (by simp)) (by decide)
      rw [stripCommentFrom,
        ih (fun d hMem => hSpaces d (by simp [hMem]))]
      simp [hMark]

theorem endsBlank_whitespace
    {spaces : Text}
    (hSpaces : ∀ c ∈ spaces, Text.isWhitespace c = true)
    (hNonempty : spaces ≠ [])
    (prevWs : Bool) :
    endsBlank prevWs spaces = true := by
  rw [endsBlank, List.getLast?_eq_some_getLast hNonempty]
  exact hSpaces _ (List.getLast_mem hNonempty)

/- A word that starts no comment has none. -/
theorem stripCommentFrom_word
    {word : Text}
    (hWord : ∀ c ∈ word, Text.isWhitespace c = false) :
    stripCommentFrom false word = word := by
  induction word with
  | nil => rfl
  | cons c word ih =>
      rw [stripCommentFrom, hWord c (by simp),
        ih (fun d hMem => hWord d (by simp [hMem]))]
      simp

theorem endsBlank_word
    {word : Text}
    (hWord : IsWord word)
    (prevWs : Bool) :
    endsBlank prevWs word = false := by
  rw [endsBlank, List.getLast?_eq_some_getLast hWord.1]
  exact hWord.2 _ (List.getLast_mem hWord.1)

/- Leading whitespace stays, and a comment may follow it. -/
theorem stripComment_whitespace_append
    {spaces : Text}
    (hSpaces : ∀ c ∈ spaces, Text.isWhitespace c = true)
    (t : Text) :
    stripComment (spaces ++ t) = spaces ++ stripComment t := by
  rw [stripComment, stripComment, stripCommentFrom_append,
    if_pos (stripCommentFrom_whitespace hSpaces true)]
  cases spaces with
  | nil => rfl
  | cons c spaces =>
      rw [endsBlank_whitespace hSpaces (by simp)]

/- Trailing whitespace is trimmed, commented out or not. -/
theorem trim_stripComment_append
    {spaces : Text}
    (hSpaces : ∀ c ∈ spaces, Text.isWhitespace c = true)
    (t : Text) :
    Text.trim (stripComment (t ++ spaces)) =
      Text.trim (stripComment t) := by
  rw [stripComment, stripComment, stripCommentFrom_append]
  split
  · rename_i hNone
    rw [stripCommentFrom_whitespace hSpaces, hNone,
      trim_append_whitespace hSpaces]
  · rfl

/- A comment after whitespace is not read. -/
theorem stripComment_comment
    {spaces : Text}
    (hSpaces : ∀ c ∈ spaces, Text.isWhitespace c = true)
    (hNonempty : spaces ≠ [])
    (t text : Text) :
    stripComment (t ++ spaces ++ '#' :: text) =
      stripComment (t ++ spaces) := by
  have hTail :
      ∀ prevWs,
        stripCommentFrom prevWs (spaces ++ '#' :: text) =
          stripCommentFrom prevWs spaces := by
    intro prevWs
    have hStays := stripCommentFrom_whitespace hSpaces prevWs
    rw [stripCommentFrom_append, if_pos hStays, hStays,
      endsBlank_whitespace hSpaces hNonempty]
    exact List.append_nil spaces
  rw [List.append_assoc, stripComment, stripComment,
    stripCommentFrom_append true t,
    stripCommentFrom_append true t, hTail]

/-
  The word that a line starts with is read as it is, unless
  the line is a comment.
-/
theorem stripComment_word_append
    {word : Text}
    (hWord : IsWord word)
    (hMark : word.head? ≠ some '#')
    (t : Text) :
    stripComment (word ++ t) =
      word ++ stripCommentFrom false t := by
  have hStays : stripCommentFrom true word = word := by
    cases word with
    | nil => rfl
    | cons c word =>
        have hFirst : c ≠ '#' := by
          rintro rfl
          exact hMark rfl
        rw [stripCommentFrom, hWord.2 c (by simp),
          stripCommentFrom_word
            (fun d hMem => hWord.2 d (by simp [hMem]))]
        simp [hFirst]
  rw [stripComment, stripCommentFrom_append, if_pos hStays,
    endsBlank_word hWord]

/- A line that starts with `#` is not read. -/
theorem stripComment_of_mark
    {t : Text}
    (hMark : t.head? = some '#') :
    stripComment t = [] := by
  cases t with
  | nil => cases hMark
  | cons c t =>
      cases hMark
      rfl

end SshdConfig

end Sshdt

------------------------------------------------------------
-- The Entry Of A Line
------------------------------------------------------------

namespace Sshdt

namespace SshdConfig

/- Only what is left of a line after trimming is split. -/
theorem splitLine_congr
    {line line' : Text}
    (hSame :
      Text.trim (stripComment line) =
        Text.trim (stripComment line')) :
    splitLine line = splitLine line' := by
  rw [splitLine, splitLine, hSame]

/- A word alone is read as it is. -/
theorem trim_stripComment_word
    {word : Text}
    (hWord : IsWord word)
    (hMark : word.head? ≠ some '#') :
    Text.trim (stripComment word) = word := by
  have hStrip := stripComment_word_append hWord hMark []
  have hStart := trimStart_word hWord []
  have hEnd := trimEnd_word hWord []
  simp only [List.append_nil, stripCommentFrom]
    at hStrip hStart hEnd
  rw [hStrip, Text.trim, hStart, hEnd]
  exact List.append_nil word

/- A line with a keyword only. -/
theorem splitLine_word
    {key : Text}
    (hKey : IsWord key)
    (hMark : key.head? ≠ some '#') :
    splitLine key =
      some (Text.toAsciiLowercase key, []) := by
  have hRead := trim_stripComment_word hKey hMark
  have hWhole :
      key.dropWhile (fun c => !Text.isWhitespace c) = [] :=
    List.dropWhile_eq_nil_iff.mpr fun c hMem => by
      rw [hKey.2 c hMem]
      rfl
  rw [splitLine, hRead, if_neg hKey.1, Text.splitOnceP,
    hWhole]

/- The keyword goes up to the first whitespace. -/
theorem splitOnceP_word
    {key : Text}
    {c : Char}
    (hKey : IsWord key)
    (hSpace : Text.isWhitespace c = true)
    (rest : Text) :
    Text.splitOnceP Text.isWhitespace (key ++ c :: rest) =
      some (key, rest) := by
  have hKeep :
      ∀ d ∈ key, (!Text.isWhitespace d) = true := by
    intro d hMem
    rw [hKey.2 d hMem]
    rfl
  have hStop : (!Text.isWhitespace c) = false := by
    rw [hSpace]
    rfl
  rw [Text.splitOnceP, List.dropWhile_append_of_pos hKeep,
    List.takeWhile_append_of_pos hKeep]
  simp [hStop]

/- A line with more after its keyword. -/
theorem splitLine_keyed
    {key gap : Text}
    (hKey : IsWord key)
    (hMark : key.head? ≠ some '#')
    (hGap : ∀ c ∈ gap, Text.isWhitespace c = true)
    (hNonempty : gap ≠ [])
    (rest : Text) :
    splitLine (key ++ gap ++ rest) =
      some (Text.toAsciiLowercase key,
        Text.trim (stripComment rest)) := by
  have hStrip :
      stripComment (key ++ gap ++ rest) =
        key ++ (gap ++ stripComment rest) := by
    rw [List.append_assoc,
      stripComment_word_append hKey hMark,
      stripCommentFrom_append,
      if_pos (stripCommentFrom_whitespace hGap false),
      endsBlank_whitespace hGap hNonempty]
    rfl
  have hRead :
      Text.trim (stripComment (key ++ gap ++ rest)) =
        key ++ Text.trimEnd (gap ++ stripComment rest) := by
    rw [hStrip, Text.trim, trimStart_word hKey,
      trimEnd_word hKey]
  by_cases hValue : Text.trimEnd (stripComment rest) = []
  · -- Nothing but whitespace and a comment follows.
    have hEmpty : Text.trim (stripComment rest) = [] := by
      rw [← trim_trimEnd, hValue]
      rfl
    rw [trimEnd_whitespace_append hGap, if_pos hValue,
      List.append_nil] at hRead
    rw [hEmpty, ← splitLine_word hKey hMark]
    apply splitLine_congr
    rw [hRead, trim_stripComment_word hKey hMark]
  · cases gap with
    | nil => exact absurd rfl hNonempty
    | cons c gap =>
        rw [trimEnd_whitespace_append hGap, if_neg hValue]
          at hRead
        have hSpace := hGap c (by simp)
        rw [splitLine, hRead, List.cons_append,
          if_neg (by simp), splitOnceP_word hKey hSpace]
        dsimp only
        rw [trim_whitespace_append
          (fun d hMem => hGap d (by simp [hMem])),
          trim_trimEnd]

end SshdConfig

end Sshdt

------------------------------------------------------------
-- The Case Of Keywords
------------------------------------------------------------

namespace Sshdt

namespace SshdConfig

/- Lower case changes the capital letters of ASCII only. -/
theorem toLower_cases
    (c : Char) :
    c.toLower = c ∨
      (0x41 ≤ c.toNat ∧ c.toNat ≤ 0x5a ∧
        c.toLower.toNat = c.toNat + 0x20) := by
  unfold Char.toLower
  split
  · rename_i hUpper
    right
    have hLow : 'A'.val.toNat ≤ c.val.toNat :=
      UInt32.le_iff_toNat_le.mp hUpper.1
    have hHigh : c.val.toNat ≤ 'Z'.val.toNat :=
      UInt32.le_iff_toNat_le.mp hUpper.2
    refine ⟨hLow, hHigh, ?_⟩
    have hA : 'A'.val.toNat = 65 := rfl
    have hZ : 'Z'.val.toNat = 90 := rfl
    show (c.val + 32).toNat = c.val.toNat + 32
    rw [UInt32.toNat_add]
    have h32 : (32 : UInt32).toNat = 32 := rfl
    rw [h32]
    omega
  · exact Or.inl rfl

/- ASCII letters are no whitespace. -/
theorem isWhitespace_letter
    {c : Char}
    (hLow : 0x41 ≤ c.toNat)
    (hHigh : c.toNat ≤ 0x7a) :
    Text.isWhitespace c = false := by
  unfold Text.isWhitespace
  simp only [Bool.or_eq_false_iff, Bool.and_eq_false_iff,
    decide_eq_false_iff_not, beq_eq_false_iff_ne, ne_eq,
    Nat.not_le]
  omega

theorem isWhitespace_toLower
    (c : Char) :
    Text.isWhitespace c.toLower = Text.isWhitespace c := by
  rcases toLower_cases c with hSame | ⟨hLow, hHigh, hLower⟩
  · rw [hSame]
  · rw [isWhitespace_letter hLow (by omega),
      isWhitespace_letter (by omega) (by omega)]

theorem toLower_eq_mark_iff
    {c : Char} :
    c.toLower = '#' ↔ c = '#' := by
  have hMark : '#'.toNat = 0x23 := rfl
  rcases toLower_cases c with hSame | ⟨hLow, hHigh, hLower⟩
  · rw [hSame]
  · constructor
    · intro hEq
      rw [hEq] at hLower
      omega
    · rintro rfl
      omega

theorem toLower_of_not_ascii
    {c : Char}
    (hWide : 0x80 ≤ c.toNat) :
    c.toLower = c := by
  rcases toLower_cases c with hSame | ⟨_, hHigh, _⟩
  · exact hSame
  · omega

theorem SameLetter.whitespace
    {c c' : Char}
    (hSame : SameLetter c c') :
    Text.isWhitespace c = Text.isWhitespace c' := by
  rcases hSame with hLower | ⟨_, _, hWhite, hWhite'⟩
  · rw [← isWhitespace_toLower, hLower, isWhitespace_toLower]
  · rw [hWhite, hWhite']

theorem SameLetter.mark
    {c c' : Char}
    (hSame : SameLetter c c') :
    c = '#' ↔ c' = '#' := by
  have hMark : '#'.toNat = 0x23 := rfl
  rcases hSame with hLower | ⟨hWide, hWide', _⟩
  · rw [← toLower_eq_mark_iff, hLower, toLower_eq_mark_iff]
  · constructor
    · rintro rfl
      omega
    · rintro rfl
      omega

/- Words in the same letters have whitespace alike. -/
theorem forall_not_isWhitespace
    {key key' : Text}
    (hCase : List.Forall₂ SameLetter key key')
    (hKey : ∀ c ∈ key, Text.isWhitespace c = false) :
    ∀ c ∈ key', Text.isWhitespace c = false := by
  induction hCase with
  | nil => simp
  | cons hSame _ ih =>
      rw [List.forall_mem_cons] at hKey ⊢
      rw [← hSame.whitespace]
      exact ⟨hKey.1, ih hKey.2⟩

/- A keyword in other letters is still a word. -/
theorem IsWord.sameLetters
    {key key' : Text}
    (hKey : IsWord key)
    (hCase : List.Forall₂ SameLetter key key') :
    IsWord key' := by
  refine ⟨?_, forall_not_isWhitespace hCase hKey.2⟩
  rintro rfl
  cases hCase
  exact hKey.1 rfl

/- They start a comment or not alike. -/
theorem head_mark_iff
    {key key' : Text}
    (hCase : List.Forall₂ SameLetter key key') :
    key.head? = some '#' ↔ key'.head? = some '#' := by
  cases hCase with
  | nil => rfl
  | cons hSame _ =>
      simp only [List.head?_cons, Option.some.injEq]
      exact hSame.mark

/- In lower case they agree, or both leave ASCII. -/
theorem toAsciiLowercase_sameLetters
    {key key' : Text}
    (hCase : List.Forall₂ SameLetter key key') :
    key.toAsciiLowercase = key'.toAsciiLowercase ∨
      ((∃ c ∈ key.toAsciiLowercase, 0x80 ≤ c.toNat) ∧
        ∃ c ∈ key'.toAsciiLowercase, 0x80 ≤ c.toNat) := by
  unfold Text.toAsciiLowercase
  induction hCase with
  | nil => exact Or.inl rfl
  | @cons c c' key key' hSame _ ih =>
      rcases hSame with hLower | ⟨hWide, hWide', _⟩
      · rcases ih with hKeys | ⟨⟨d, hMem, hD⟩, d', hMem', hD'⟩
        · left
          rw [List.map_cons, List.map_cons, hLower, hKeys]
        · right
          exact ⟨⟨d, List.mem_cons_of_mem _ hMem, hD⟩,
            d', List.mem_cons_of_mem _ hMem', hD'⟩
      · right
        refine ⟨⟨c, ?_, hWide⟩, c', ?_, hWide'⟩
        · rw [List.map_cons, toLower_of_not_ascii hWide]
          exact List.mem_cons_self
        · rw [List.map_cons, toLower_of_not_ascii hWide']
          exact List.mem_cons_self

/- The keywords that `parse` does something for. -/
def Keyword.isKnown : Keyword → Bool
| .other _ => false
| _ => true

/- Known keywords are ASCII. -/
theorem Keyword.isKnown_ascii
    {lower : Text}
    (hKnown : (Keyword.ofText lower).isKnown = true) :
    ∀ c ∈ lower, c.toNat < 0x80 := by
  have hSpelled :
      ∀ name : String,
        (name.toList.all (fun c => c.toNat < 0x80)) = true →
        String.ofList lower = name →
        ∀ c ∈ lower, c.toNat < 0x80 := by
    intro name hName hLower c hMem
    rw [← hLower, String.toList_ofList, List.all_eq_true]
      at hName
    exact of_decide_eq_true (hName c hMem)
  unfold Keyword.ofText at hKnown
  split at hKnown
  all_goals first
    | (rename_i hLower; exact hSpelled _ (by decide) hLower)
    | cases hKnown

end SshdConfig

end Sshdt

------------------------------------------------------------
-- What A Line Does
------------------------------------------------------------

namespace Sshdt

namespace SshdConfig

/- The entry of a line whose keyword is known. -/
def lineEffect
    (raw : Text) : Option (Keyword × Text) :=
  (lineEntry raw).filter (fun entry => entry.1.isKnown)

/- The entry that a keyword and a value make, if known. -/
def entryEffect
    (lower value : Text) : Option (Keyword × Text) :=
  Option.filter (fun entry => entry.1.isKnown)
    (some (Keyword.ofText lower, value))

theorem lineEffect_of_split
    {raw lower value : Text}
    (hSplit : splitLine raw = some (lower, value)) :
    lineEffect raw = entryEffect lower value := by
  rw [lineEffect, lineEntry, hSplit]
  rfl

theorem lineEffect_congr
    {raw raw' : Text}
    (hSame : splitLine raw = splitLine raw') :
    lineEffect raw = lineEffect raw' := by
  rw [lineEffect, lineEffect, lineEntry, lineEntry, hSame]

theorem lineEffect_of_blank
    {raw : Text}
    (hBlank : Text.trim (stripComment raw) = []) :
    lineEffect raw = none := by
  rw [lineEffect, lineEntry, splitLine, hBlank]
  rfl

/- A keyword beyond ASCII is unknown. -/
theorem entryEffect_of_wide
    {lower : Text}
    (hWide : ∃ c ∈ lower, 0x80 ≤ c.toNat)
    (value : Text) :
    entryEffect lower value = none := by
  rcases hWide with ⟨c, hMem, hWide⟩
  rw [entryEffect, Option.filter_some, if_neg]
  intro hKnown
  exact absurd (Keyword.isKnown_ascii hKnown c hMem)
    (Nat.not_lt.mpr hWide)

theorem entryEffect_sameLetters
    {key key' : Text}
    (hCase : List.Forall₂ SameLetter key key')
    (value : Text) :
    entryEffect key'.toAsciiLowercase value =
      entryEffect key.toAsciiLowercase value := by
  rcases toAsciiLowercase_sameLetters hCase with
    hSame | ⟨hWide, hWide'⟩
  · rw [hSame]
  · rw [entryEffect_of_wide hWide, entryEffect_of_wide hWide']

theorem lineEffect_leading
    {spaces : Text}
    (hSpaces : Spaces spaces)
    (line : Text) :
    lineEffect (spaces ++ line) = lineEffect line := by
  apply lineEffect_congr
  apply splitLine_congr
  rw [stripComment_whitespace_append hSpaces.whitespace,
    trim_whitespace_append hSpaces.whitespace]

theorem lineEffect_trailing
    {spaces : Text}
    (hSpaces : Spaces spaces)
    (line : Text) :
    lineEffect (line ++ spaces) = lineEffect line := by
  apply lineEffect_congr
  apply splitLine_congr
  exact trim_stripComment_append hSpaces.whitespace line

theorem lineEffect_comment
    {spaces : Text}
    (hSpaces : Spaces spaces)
    (hNonempty : spaces ≠ [])
    (line text : Text) :
    lineEffect (line ++ spaces ++ '#' :: text) =
      lineEffect line := by
  rw [← lineEffect_trailing hSpaces line]
  apply lineEffect_congr
  apply splitLine_congr
  rw [stripComment_comment hSpaces.whitespace hNonempty]

/- A line that starts with a comment does nothing. -/
theorem lineEffect_of_mark
    {line : Text}
    (hMark : line.head? = some '#') :
    lineEffect line = none := by
  apply lineEffect_of_blank
  rw [stripComment_of_mark hMark]
  rfl

theorem head_append_word
    {word : Text}
    (hWord : IsWord word)
    (rest : Text) :
    (word ++ rest).head? = word.head? := by
  cases word with
  | nil => exact absurd rfl hWord.1
  | cons c word => rfl

/- The keyword in other letters, the rest as it was. -/
theorem lineEffect_keyword
    {key key' rest : Text}
    (hKey : IsWord key)
    (hCase : List.Forall₂ SameLetter key key')
    (hRest : AfterWord rest) :
    lineEffect (key' ++ rest) = lineEffect (key ++ rest) := by
  have hKey' := hKey.sameLetters hCase
  by_cases hMark : key.head? = some '#'
  · have hMark' := (head_mark_iff hCase).mp hMark
    rw [lineEffect_of_mark, lineEffect_of_mark]
    · rwa [head_append_word hKey]
    · rwa [head_append_word hKey']
  · have hMark' := hMark ∘ (head_mark_iff hCase).mpr
    rcases hRest with rfl | ⟨c, rest, rfl, hSpace⟩
    · rw [List.append_nil, List.append_nil,
        lineEffect_of_split (splitLine_word hKey hMark),
        lineEffect_of_split (splitLine_word hKey' hMark'),
        entryEffect_sameLetters hCase]
    · have hGap :
          ∀ d ∈ [c], Text.isWhitespace d = true := by
        simpa using hSpace
      have hLine := splitLine_keyed hKey hMark hGap
        (by simp) rest
      have hLine' := splitLine_keyed hKey' hMark' hGap
        (by simp) rest
      rw [List.append_assoc, List.singleton_append]
        at hLine hLine'
      rw [lineEffect_of_split hLine,
        lineEffect_of_split hLine',
        entryEffect_sameLetters hCase]

/- Other whitespace after the keyword. -/
theorem lineEffect_gap
    {key gap gap' : Text}
    (hKey : IsWord key)
    (hGap : Spaces gap ∧ gap ≠ [])
    (hGap' : Spaces gap' ∧ gap' ≠ [])
    (rest : Text) :
    lineEffect (key ++ gap' ++ rest) =
      lineEffect (key ++ gap ++ rest) := by
  by_cases hMark : key.head? = some '#'
  · rw [lineEffect_of_mark, lineEffect_of_mark]
    · rwa [List.append_assoc, head_append_word hKey]
    · rwa [List.append_assoc, head_append_word hKey]
  · rw [lineEffect_of_split (splitLine_keyed hKey hMark
        hGap.1.whitespace hGap.2 rest),
      lineEffect_of_split (splitLine_keyed hKey hMark
        hGap'.1.whitespace hGap'.2 rest)]

/- No change of a line changes what it does. -/
theorem lineEffect_edit
    {line line' : Text}
    (hEdit : LineEdit line line') :
    lineEffect line' = lineEffect line := by
  cases hEdit with
  | leading spaces _ hSpaces =>
      exact lineEffect_leading hSpaces line
  | trailing spaces _ hSpaces =>
      exact lineEffect_trailing hSpaces line
  | keyword lead key key' rest hLead hKey hCase hRest =>
      rw [List.append_assoc, List.append_assoc,
        lineEffect_leading hLead, lineEffect_leading hLead]
      exact lineEffect_keyword hKey hCase hRest
  | gap lead key gap gap' rest hLead hKey hGap hGap' =>
      rw [List.append_assoc lead, List.append_assoc lead,
        List.append_assoc lead, List.append_assoc lead,
        lineEffect_leading hLead, lineEffect_leading hLead]
      exact lineEffect_gap hKey hGap hGap' rest
  | comment _ spaces text hSpaces hText =>
      exact lineEffect_comment hSpaces.1 hSpaces.2 line text

/- Blank lines and comment lines do nothing. -/
theorem lineEffect_idle
    {line : Text}
    (hIdle : IdleLine line) :
    lineEffect line = none := by
  cases hIdle with
  | blank _ hSpaces =>
      have hEmpty := lineEffect_trailing hSpaces []
      rw [List.nil_append] at hEmpty
      rw [hEmpty]
      rfl
  | comment spaces text hSpaces hText =>
      rw [lineEffect_leading hSpaces]
      exact lineEffect_of_mark rfl

end SshdConfig

end Sshdt

------------------------------------------------------------
-- What A Text Does
------------------------------------------------------------

namespace Sshdt

namespace SshdConfig

/- The known entries of a text, in order. -/
def effects
    (input : Text) : List (Keyword × Text) :=
  (Text.lines input).filterMap lineEffect

/- A carriage return at the end of a line does nothing. -/
theorem lineEffect_carriageReturn
    (line : Text) :
    lineEffect (line ++ ['\r']) = lineEffect line := by
  apply lineEffect_trailing
  intro c hMem
  rw [List.mem_singleton.mp hMem]
  decide

/- The last line of a text, where no line feed follows. -/
theorem splitInclusive_of_not_mem
    {line : Text}
    (hLine : '\n' ∉ line) :
    Text.splitInclusive line =
      if line = [] then [] else [line] := by
  induction line with
  | nil => rfl
  | cons c line ih =>
      rw [List.mem_cons, not_or] at hLine
      rw [Text.splitInclusive, if_neg (Ne.symm hLine.1),
        ih hLine.2]
      by_cases hEmpty : line = []
      · simp [hEmpty]
      · simp [hEmpty]

/- A line with its line feed. -/
theorem splitInclusive_append
    {line : Text}
    (hLine : '\n' ∉ line)
    (rest : Text) :
    Text.splitInclusive (line ++ '\n' :: rest) =
      (line ++ ['\n']) :: Text.splitInclusive rest := by
  induction line with
  | nil => simp [Text.splitInclusive]
  | cons c line ih =>
      rw [List.mem_cons, not_or] at hLine
      rw [List.cons_append, Text.splitInclusive,
        if_neg (Ne.symm hLine.1), ih hLine.2]
      rfl

/- What a line does is the same with its line end on it. -/
theorem lineEffect_stripLineEnding
    (line : Text) :
    lineEffect (Text.stripLineEnding (line ++ ['\n'])) =
      lineEffect line := by
  have hFeed :
      (line ++ ['\n']).dropSuffix? ['\n'] = some line := by
    rw [List.dropSuffix?_eq_some_iff]
    exact ⟨['\n'], rfl, rfl⟩
  rw [Text.stripLineEnding, hFeed]
  simp only
  cases hReturn : line.dropSuffix? ['\r'] with
  | none => rfl
  | some shorter =>
      rw [List.dropSuffix?_eq_some_iff] at hReturn
      rcases hReturn with ⟨tail, rfl, hTail⟩
      rw [eq_of_beq hTail, lineEffect_carriageReturn]

theorem stripLineEnding_of_not_mem
    {line : Text}
    (hLine : '\n' ∉ line) :
    Text.stripLineEnding line = line := by
  have hFeed : line.dropSuffix? ['\n'] = none := by
    cases hDrop : line.dropSuffix? ['\n'] with
    | none => rfl
    | some shorter =>
        rw [List.dropSuffix?_eq_some_iff] at hDrop
        rcases hDrop with ⟨tail, rfl, hTail⟩
        rw [eq_of_beq hTail] at hLine
        exact absurd (by simp) hLine
  rw [Text.stripLineEnding, hFeed]

theorem effects_of_not_mem
    {line : Text}
    (hLine : '\n' ∉ line) :
    effects line = (lineEffect line).toList := by
  rw [effects, Text.lines, splitInclusive_of_not_mem hLine]
  by_cases hEmpty : line = []
  · subst hEmpty
    rfl
  · rw [if_neg hEmpty, List.map_singleton,
      stripLineEnding_of_not_mem hLine]
    cases hEffect : lineEffect line with
    | none => simp [hEffect]
    | some entry => simp [hEffect]

theorem effects_append
    {line : Text}
    (hLine : '\n' ∉ line)
    (rest : Text) :
    effects (line ++ '\n' :: rest) =
      (lineEffect line).toList ++ effects rest := by
  rw [effects, Text.lines, splitInclusive_append hLine,
    List.map_cons, effects, Text.lines]
  cases hEffect : lineEffect line with
  | none =>
      rw [← lineEffect_stripLineEnding] at hEffect
      rw [List.filterMap_cons_none hEffect]
      rfl
  | some entry =>
      rw [← lineEffect_stripLineEnding] at hEffect
      rw [List.filterMap_cons_some hEffect]
      rfl

/- A text is a line, or it has a first line. -/
theorem line_or_lines
    (t : Text) :
    '\n' ∉ t ∨
      ∃ line rest, '\n' ∉ line ∧
        t = line ++ '\n' :: rest := by
  by_cases hMem : '\n' ∈ t
  · right
    rcases List.eq_append_cons_of_mem hMem with
      ⟨line, rest, rfl, hLine⟩
    exact ⟨line, rest, hLine, rfl⟩
  · exact Or.inl hMem

/- The lines before a line feed and those after it. -/
theorem effects_lineFeed
    (before after : Text) :
    effects (before ++ '\n' :: after) =
      effects before ++ effects after := by
  induction hLength : before.length using Nat.strong_induction_on
    generalizing before with
  | _ n ih =>
      rcases line_or_lines before with
        hLine | ⟨line, rest, hLine, rfl⟩
      · rw [effects_append hLine, effects_of_not_mem hLine]
      · have hRest :
            effects (rest ++ '\n' :: after) =
              effects rest ++ effects after := by
          refine ih rest.length ?_ rest rfl
          rw [← hLength, List.length_append,
            List.length_cons]
          omega
        rw [List.append_assoc, List.cons_append,
          effects_append hLine, hRest, effects_append hLine,
          List.append_assoc]

theorem effects_carriageReturn
    (t : Text) :
    effects (t ++ ['\r']) = effects t := by
  induction hLength : t.length using Nat.strong_induction_on
    generalizing t with
  | _ n ih =>
      rcases line_or_lines t with
        hLine | ⟨line, rest, hLine, rfl⟩
      · have hReturn : '\n' ∉ t ++ ['\r'] := by
          simpa using hLine
        rw [effects_of_not_mem hReturn,
          effects_of_not_mem hLine, lineEffect_carriageReturn]
      · have hRest : effects (rest ++ ['\r']) = effects rest := by
          refine ih rest.length ?_ rest rfl
          rw [← hLength, List.length_append,
            List.length_cons]
          omega
        rw [List.append_assoc, List.cons_append,
          effects_append hLine, hRest, effects_append hLine]

/- A line end does nothing. -/
theorem effects_lineEnd
    {lineEnd : Text}
    (hEnd : IsLineEnd lineEnd)
    (before after : Text) :
    effects (before ++ (lineEnd ++ after)) =
      effects before ++ effects after := by
  rcases hEnd with rfl | rfl
  · exact effects_lineFeed before after
  · have hReturn := effects_lineFeed (before ++ ['\r']) after
    rw [effects_carriageReturn, List.append_assoc] at hReturn
    exact hReturn

/- Where a line is over, the text may be cut. -/
theorem effects_lineStop
    {after : Text}
    (hAfter : LineStop after)
    (before : Text) :
    effects (before ++ after) =
      effects before ++ effects after := by
  rcases hAfter with rfl | ⟨lineEnd, rest, hEnd, rfl⟩
  · rw [List.append_nil]
    exact (List.append_nil _).symm
  · have hStop := effects_lineEnd hEnd [] rest
    rw [List.nil_append] at hStop
    rw [effects_lineEnd hEnd, hStop]
    rfl

/- Where a line may start, too. -/
theorem effects_lineStart
    {before : Text}
    (hBefore : LineStart before)
    (after : Text) :
    effects (before ++ after) =
      effects before ++ effects after := by
  rcases hBefore with rfl | ⟨before, rfl⟩
  · rfl
  · have hFeed := effects_lineFeed before []
    rw [List.append_assoc, List.singleton_append,
      effects_lineFeed before after, hFeed,
      List.append_assoc]
    rfl

theorem Spaces.not_mem
    {t : Text}
    (hSpaces : Spaces t) :
    '\n' ∉ t :=
  fun hMem => (hSpaces '\n' hMem).2 rfl

theorem IsWord.not_mem
    {t : Text}
    (hWord : IsWord t) :
    '\n' ∉ t := by
  intro hMem
  exact absurd (hWord.2 '\n' hMem) (by decide)

theorem IdleLine.not_mem
    {line : Text}
    (hIdle : IdleLine line) :
    '\n' ∉ line := by
  cases hIdle with
  | blank _ hSpaces => exact hSpaces.not_mem
  | comment spaces text hSpaces hText =>
      simp [hSpaces.not_mem, hText]

/- A line that was changed is still one line. -/
theorem LineEdit.not_mem
    {line line' : Text}
    (hEdit : LineEdit line line')
    (hLine : '\n' ∉ line) :
    '\n' ∉ line' := by
  cases hEdit with
  | leading spaces _ hSpaces =>
      simp [hSpaces.not_mem, hLine]
  | trailing spaces _ hSpaces =>
      simp [hSpaces.not_mem, hLine]
  | keyword lead key key' rest hLead hKey hCase hRest =>
      have hKey' := (hKey.sameLetters hCase).not_mem
      simp only [List.mem_append, not_or] at hLine ⊢
      exact ⟨⟨hLine.1.1, hKey'⟩, hLine.2⟩
  | gap lead key gap gap' rest hLead hKey hGap hGap' =>
      simp only [List.mem_append, not_or] at hLine ⊢
      exact ⟨⟨hLine.1.1, hGap'.1.not_mem⟩, hLine.2⟩
  | comment _ spaces text hSpaces hText =>
      simp [hSpaces.1.not_mem, hLine, hText]

/- The effect of an edited line in its text. -/
theorem effects_line
    {before line after : Text}
    (hBefore : LineStart before)
    (hLine : '\n' ∉ line)
    (hAfter : LineStop after) :
    effects (before ++ line ++ after) =
      effects before ++ (lineEffect line).toList ++
        effects after := by
  rw [effects_lineStop hAfter, effects_lineStart hBefore,
    effects_of_not_mem hLine]

/- No change of the layout changes the known entries. -/
theorem effects_edit
    {t t' : Text}
    (hEdit : LayoutEdit t t') :
    effects t' = effects t := by
  cases hEdit with
  | line before line line' after hBefore hLine hAfter hEdit =>
      rw [effects_line hBefore (hEdit.not_mem hLine) hAfter,
        effects_line hBefore hLine hAfter,
        lineEffect_edit hEdit]
  | insertBefore before idle lineEnd after hBefore hIdle hEnd =>
      rw [List.append_assoc (before ++ idle),
        effects_lineEnd hEnd, effects_lineStart hBefore,
        effects_of_not_mem hIdle.not_mem,
        lineEffect_idle hIdle, effects_lineStart hBefore]
      simp
  | insertAfter before lineEnd idle after hEnd hIdle hAfter =>
      rw [effects_lineStop hAfter, List.append_assoc before,
        effects_lineEnd hEnd,
        effects_of_not_mem hIdle.not_mem,
        lineEffect_idle hIdle, effects_lineStop hAfter]
      simp
  | lineEnd before after =>
      rw [List.append_assoc, List.append_assoc,
        effects_lineEnd (Or.inr rfl),
        effects_lineEnd (Or.inl rfl)]

theorem effects_sameLayout
    {t t' : Text}
    (hSame : SameLayout t t') :
    effects t' = effects t := by
  induction hSame with
  | rel t t' hEdit => exact effects_edit hEdit
  | refl t => rfl
  | symm t t' _ ih => exact ih.symm
  | trans t t' t'' _ _ ih ih' => exact ih'.trans ih

end SshdConfig

end Sshdt

------------------------------------------------------------
-- Parsing
------------------------------------------------------------

namespace Sshdt

/- An error without the number of its line. -/
def Error.eraseLine : Error → Error
| .configFile path (.invalidValue _ directive value) =>
    .configFile path (.invalidValue 0 directive value)
| error => error

namespace SshdConfig

/- The error of a value names its line and nothing else. -/
theorem orInvalid_eraseLine
    {α β : Type}
    (parsed : Option α)
    (lineno : Nat)
    (directive : String)
    (value : Text)
    (f : α → Except Error β) :
    ((orInvalid parsed lineno directive value).bind
        f).mapError Error.eraseLine =
      ((orInvalid parsed 0 directive value).bind f).mapError
        Error.eraseLine := by
  cases parsed with
  | none => rfl
  | some a => rfl

/- The line number gets into the error only. -/
theorem applyDirective_eraseLine
    (host : Host)
    (lineno : Nat)
    (st : ParseState)
    (keyword : Keyword)
    (value : Text) :
    (applyDirective host lineno st keyword value).mapError
        Error.eraseLine =
      (applyDirective host 0 st keyword value).mapError
        Error.eraseLine := by
  cases keyword with
  | port | listenAddress | loginGraceTime | maxStartups
  | devTunnelEnable | devTunnelAutoCreate
  | devTunnelTimeout =>
      exact orInvalid_eraseLine _ _ _ _ _
  | devTunnelBin | devTunnelId =>
      simp only [applyDirective]
      split <;> rfl
  | passwordAuthentication | pubkeyAuthentication
  | acceptEnv | hostKey | authorizedKeysFile
  | allowTcpForwarding | devTunnelLabel | shell
  | forceCommand | banner | subsystem | other =>
      rfl

/- One known entry, with the line of its error erased. -/
def applyEffect
    (host : Host)
    (st : ParseState)
    (entry : Keyword × Text) : Except Error ParseState :=
  (applyDirective host 0 st entry.1 entry.2).mapError
    Error.eraseLine

/- A line is its effect, but for its number. -/
theorem parseLine_eraseLine
    (host : Host)
    (st : ParseState)
    (numbered : Text × Nat) :
    (parseLine host st numbered).mapError Error.eraseLine =
      match lineEffect numbered.1 with
      | none => .ok st
      | some entry => applyEffect host st entry := by
  cases hSplit : splitLine numbered.1 with
  | none =>
      rw [parseLine, lineEffect, lineEntry, hSplit]
      rfl
  | some entry =>
      rcases entry with ⟨key, value⟩
      rw [parseLine, lineEffect_of_split hSplit, hSplit,
        entryEffect, Option.filter_some]
      simp only
      rw [applyDirective_eraseLine]
      cases hKeyword : Keyword.ofText key <;> rfl

theorem mapError_bind
    {α β : Type}
    (x : Except Error α)
    (f : α → Except Error β) :
    (x >>= f).mapError Error.eraseLine =
      x.mapError Error.eraseLine >>= fun a =>
        (f a).mapError Error.eraseLine := by
  cases x with
  | error e => rfl
  | ok a => rfl

/- The loop over the lines is one over their effects. -/
theorem foldlM_eraseLine
    (host : Host)
    (numbered : List (Text × Nat))
    (st : ParseState) :
    (numbered.foldlM (parseLine host) st).mapError
        Error.eraseLine =
      ((numbered.map Prod.fst).filterMap lineEffect).foldlM
        (applyEffect host) st := by
  induction numbered generalizing st with
  | nil => rfl
  | cons line numbered ih =>
      rw [List.foldlM_cons, mapError_bind,
        parseLine_eraseLine, List.map_cons]
      cases hEffect : lineEffect line.1 with
      | none =>
          rw [List.filterMap_cons_none hEffect]
          exact ih st
      | some entry =>
          rw [List.filterMap_cons_some hEffect,
            List.foldlM_cons]
          congr 1
          funext st'
          exact ih st'

/- Texts with the same known entries parse alike. -/
theorem parse_eraseLine
    (host : Host)
    {t t' : Text}
    (hSame : effects t' = effects t) :
    (parse host t').mapError Error.eraseLine =
      (parse host t).mapError Error.eraseLine := by
  have hLoop :
      ∀ t,
        ((Text.lines t).zipIdx.foldlM (parseLine host)
            ParseState.initial).mapError Error.eraseLine =
          (effects t).foldlM (applyEffect host)
            ParseState.initial := by
    intro t
    rw [foldlM_eraseLine, List.zipIdx_map_fst, effects]
  rw [parse, parse, mapError_bind, mapError_bind, hLoop,
    hLoop, hSame]

/- The part that is read is a first part of the line. -/
theorem stripCommentFrom_prefix
    (prevWs : Bool)
    (t : Text) :
    stripCommentFrom prevWs t <+: t := by
  induction t generalizing prevWs with
  | nil => exact List.prefix_rfl
  | cons c t ih =>
      rw [stripCommentFrom]
      split
      · exact List.nil_prefix
      · exact (List.prefix_cons_inj c).mpr (ih _)

/- Where a character follows one that is no whitespace. -/
theorem stripComment_inner
    (before after : Text)
    {c d : Char}
    (hBefore : Text.isWhitespace c = false)
    (hInner : Text.isWhitespace d = false) :
    stripComment (before ++ c :: d :: after) =
      if stripComment (before ++ [c]) = before ++ [c] then
        before ++ c :: d :: stripCommentFrom false after
      else
        stripComment (before ++ [c]) := by
  have hEnds : endsBlank true (before ++ [c]) = false := by
    simpa [endsBlank] using hBefore
  have hLine :
      before ++ c :: d :: after =
        (before ++ [c]) ++ d :: after := by
    simp
  rw [hLine, stripComment, stripComment,
    stripCommentFrom_append, hEnds]
  simp [stripCommentFrom, hInner]

/-
  The layout of a text does not matter: the parsed
  configuration is the same, and an error is but for the
  number of its line. A mark that follows a character other
  than whitespace does not end what is read: it is read if
  that character is, and the line is read as far as with any
  other such character in its place.
-/
theorem parse_layout
    (host : Host)
    {t t' : Text}
    (hSame : SameLayout t t') :
    (parse host t').mapError Error.eraseLine =
        (parse host t).mapError Error.eraseLine ∧
      ∀ before c after,
        Text.isWhitespace c = false →
        (before ++ [c] <+:
            stripComment (before ++ c :: '#' :: after) →
          before ++ [c, '#'] <+:
            stripComment (before ++ c :: '#' :: after)) ∧
        ∀ d, Text.isWhitespace d = false →
          (stripComment
              (before ++ c :: '#' :: after)).length =
            (stripComment
              (before ++ c :: d :: after)).length := by
  refine ⟨parse_eraseLine host (effects_sameLayout hSame), ?_⟩
  intro before c after hBefore
  have hMark : Text.isWhitespace '#' = false := by
    decide
  rw [stripComment_inner before after hBefore hMark]
  constructor
  · intro hRead
    split
    · exact ⟨stripCommentFrom false after, by simp⟩
    · -- What is read of a text is no longer than it.
      rename_i hCut
      rw [if_neg hCut] at hRead
      have hPrefix :=
        stripCommentFrom_prefix true (before ++ [c])
      exact absurd
        (hPrefix.eq_of_length_le hRead.length_le) hCut
  · intro d hOther
    rw [stripComment_inner before after hBefore hOther]
    split
    · simp
    · rfl

/- A port that is no number. -/
def plainText : Text :=
  ['P', 'o', 'r', 't', ' ', 'x', '\n']

/- With a comment line, an indent and CRLF, among others. -/
def laidOutText : Text :=
  ['#', '!', '\n', ' ', 'p', 'O', 'r', 't', '\t', 'x', ' ',
    '#', '\r', '\n']

theorem plainText_sameLayout :
    SameLayout plainText laidOutText := by
  have hSpace : ∀ c ∈ [' '], Text.isWhitespace c = true ∧
      c ≠ '\n' := by
    simp [Text.isWhitespace]
  have hTab : ∀ c ∈ ['\t'], Text.isWhitespace c = true ∧
      c ≠ '\n' := by
    simp [Text.isWhitespace]
  have hWord : IsWord ['P', 'o', 'r', 't'] :=
    ⟨by decide, by simp [Text.isWhitespace]⟩
  have hWord' : IsWord ['p', 'O', 'r', 't'] :=
    ⟨by decide, by simp [Text.isWhitespace]⟩
  have hStart : LineStart ['#', '!', '\n'] :=
    Or.inr ⟨['#', '!'], rfl⟩
  have hStop : LineStop ['\n'] :=
    Or.inr ⟨['\n'], [], Or.inl rfl, rfl⟩
  have hCase :
      List.Forall₂ SameLetter ['P', 'o', 'r', 't']
        ['p', 'O', 'r', 't'] :=
    .cons (Or.inl (by decide)) (.cons (Or.inl (by decide))
      (.cons (Or.inl rfl) (.cons (Or.inl rfl) .nil)))
  -- A comment line, then four changes of the other line.
  refine .trans _ _ _ (.rel _ _ (.insertBefore [] ['#', '!']
    ['\n'] plainText (Or.inl rfl)
    (.comment [] ['!'] (by simp [Spaces]) (by decide))
    (Or.inl rfl))) ?_
  refine .trans _ _ _ (.rel _ _ (.line ['#', '!', '\n']
    ['P', 'o', 'r', 't', ' ', 'x'] _ ['\n'] hStart (by decide)
    hStop (.leading [' '] _ hSpace))) ?_
  refine .trans _ _ _ (.rel _ _ (.line ['#', '!', '\n']
    _ _ ['\n'] hStart (by decide) hStop
    (.keyword [' '] ['P', 'o', 'r', 't'] ['p', 'O', 'r', 't']
      [' ', 'x'] hSpace hWord hCase
      (Or.inr ⟨' ', ['x'], rfl, by decide⟩)))) ?_
  refine .trans _ _ _ (.rel _ _ (.line ['#', '!', '\n']
    _ _ ['\n'] hStart (by decide) hStop
    (.gap [' '] ['p', 'O', 'r', 't'] [' '] ['\t'] ['x'] hSpace
      hWord' ⟨hSpace, by decide⟩ ⟨hTab, by decide⟩))) ?_
  refine .trans _ _ _ (.rel _ _ (.line ['#', '!', '\n']
    [' ', 'p', 'O', 'r', 't', '\t', 'x'] _ ['\n'] hStart
    (by decide) hStop
    (.comment _ [' '] [] ⟨hSpace, by decide⟩ (by simp)))) ?_
  exact .rel _ _ (.lineEnd
    ['#', '!', '\n', ' ', 'p', 'O', 'r', 't', '\t', 'x', ' ',
      '#'] [])

/- A host with nothing on it. -/
def bareHost : Host where
  readToString := fun _ => none
  pathExists := fun _ => false
  isDir := fun _ => false
  homeDir := none
  envVar := fun _ => none

theorem laidOutText_parse :
    SameLayout plainText laidOutText ∧
      (parse bareHost laidOutText).mapError Error.eraseLine =
        (parse bareHost plainText).mapError
          Error.eraseLine :=
  ⟨plainText_sameLayout,
    (parse_layout bareHost plainText_sameLayout).1⟩

end SshdConfig

end Sshdt
