import Sshdt.Server.Session

/-
  What `split_command_line` (`src/util.rs`) undoes.

  A word may be written in three ways: in single quotes, in
  double quotes, or with a backslash before each character.
  Only the first two can write the empty word. The words of a
  line stand apart by whitespace, and whitespace may stand
  before the first and after the last.

  Key definitions include:
    * `Quoting.quote`
    * `QuotedWord`
    * `Blank`
    * `Gap`
    * `joinWords`

  Key theorems include:
    * `splitLoop_escaped`
    * `splitLoop_quoted`
    * `splitLoop_joinWords`
    * `splitCommandLine_quoted`
-/

------------------------------------------------------------
-- Writing Words
------------------------------------------------------------

namespace Sshdt

/- The ways to write a word. -/
inductive Quoting where
  | single
  | double
  | backslash
  deriving DecidableEq, Repr

namespace Quoting

/-
  A character between the quotes of a style, or after the
  characters before it where there are no quotes.
-/
def escape : Quoting → Char → Text
| .single, c =>
    if c = '\'' then ['\'', '\\', '\'', '\''] else [c]
| .double, c =>
    if c = '\\' ∨ c = '"' then ['\\', c] else [c]
| .backslash, c => ['\\', c]

/- A word in a style. -/
def quote : Quoting → Text → Text
| .single, word =>
    '\'' :: (word.flatMap (escape .single) ++ ['\''])
| .double, word =>
    '"' :: (word.flatMap (escape .double) ++ ['"'])
| .backslash, word => word.flatMap (escape .backslash)

end Quoting

/-
  A word with the style that writes it. Backslashes alone do
  not write the empty word.
-/
structure QuotedWord where
  style : Quoting
  word : Text
  writable : style = .backslash → word ≠ []

namespace QuotedWord

/- The word as it stands in the line. -/
def text
    (w : QuotedWord) : Text :=
  w.style.quote w.word

end QuotedWord

/- Whitespace, or nothing at all. -/
structure Blank where
  text : Text
  isBlank : ∀ c ∈ text, Text.isWhitespace c = true

/- Whitespace that keeps two words apart. -/
structure Gap extends Blank where
  text_ne_nil : text ≠ []

/- Words in a line, with the gaps between them in order. -/
def joinWords : (Nat → Gap) → List QuotedWord → Text
| _, [] => []
| _, [w] => w.text
| gaps, w :: words =>
    w.text ++ (gaps 0).text ++
      joinWords (fun n => gaps (n + 1)) words

end Sshdt

------------------------------------------------------------
-- Scanning Them
------------------------------------------------------------

namespace Sshdt

namespace SplitState

/- Between two words. -/
def between
    (out : List Text) : SplitState where
  out
  cur := []
  inSingle := false
  inDouble := false
  hasToken := false

/- In a word, inside the quotes of its style if it has any. -/
def inWord
    (style : Quoting)
    (out : List Text)
    (cur : Text) : SplitState where
  out
  cur
  inSingle := style == .single
  inDouble := style == .double
  hasToken := true

/- In a word, outside any quotes. -/
abbrev unquoted
    (out : List Text)
    (cur : Text) : SplitState :=
  inWord .backslash out cur

end SplitState

open SplitState

/- An escape outside single quotes. -/
theorem splitLoop_backslash
    {st : SplitState}
    (hSingle : st.inSingle = false)
    (next : Char)
    (rest : Text) :
    splitLoop st ('\\' :: next :: rest) =
      splitLoop (st.pushChar next) rest := by
  rw [splitLoop.eq_def]
  simp [hSingle]

/- A single quote outside double quotes. -/
theorem splitLoop_single
    {st : SplitState}
    (hDouble : st.inDouble = false)
    (rest : Text) :
    splitLoop st ('\'' :: rest) =
      splitLoop
        { st with inSingle := !st.inSingle, hasToken := true }
        rest := by
  rw [splitLoop.eq_def]
  simp [hDouble]

/- A double quote outside single quotes. -/
theorem splitLoop_double
    {st : SplitState}
    (hSingle : st.inSingle = false)
    (rest : Text) :
    splitLoop st ('"' :: rest) =
      splitLoop
        { st with inDouble := !st.inDouble, hasToken := true }
        rest := by
  rw [splitLoop.eq_def]
  simp [hSingle]

/- Whitespace outside quotes. -/
theorem splitLoop_whitespace
    {st : SplitState}
    {c : Char}
    (hSpace : Text.isWhitespace c = true)
    (hSingle : st.inSingle = false)
    (hDouble : st.inDouble = false)
    (rest : Text) :
    splitLoop st (c :: rest) = splitLoop st.endToken rest := by
  have hBackslash : c ≠ '\\' := by
    rintro rfl
    revert hSpace
    decide
  have hQuote : c ≠ '\'' := by
    rintro rfl
    revert hSpace
    decide
  have hDoubleQuote : c ≠ '"' := by
    rintro rfl
    revert hSpace
    decide
  rw [splitLoop.eq_def]
  simp [hBackslash, hQuote, hDoubleQuote, hSpace, hSingle,
    hDouble]

/- Between the quotes of a style, a character is itself. -/
theorem splitLoop_escape
    (style : Quoting)
    (out : List Text)
    (cur : Text)
    (c : Char)
    (rest : Text) :
    splitLoop (inWord style out cur)
        (style.escape c ++ rest) =
      splitLoop (inWord style out (cur ++ [c])) rest := by
  cases style with
  | single =>
      simp only [Quoting.escape]
      by_cases hQuote : c = '\''
      · -- The quotes close, and open again after the escape.
        subst hQuote
        rw [if_pos rfl, List.cons_append, List.cons_append,
          List.cons_append, List.cons_append, List.nil_append,
          splitLoop_single rfl, splitLoop_backslash rfl,
          splitLoop_single rfl]
        rfl
      · rw [if_neg hQuote, List.singleton_append,
          splitLoop.eq_def]
        simp [inWord, pushChar, hQuote]
  | double =>
      simp only [Quoting.escape]
      by_cases hMark : c = '\\' ∨ c = '"'
      · rw [if_pos hMark, List.cons_append, List.cons_append,
          List.nil_append, splitLoop_backslash rfl]
        rfl
      · rw [if_neg hMark, List.singleton_append,
          splitLoop.eq_def]
        rw [not_or] at hMark
        simp [inWord, pushChar, hMark.1, hMark.2]
  | backslash =>
      rw [Quoting.escape, List.cons_append, List.cons_append,
        List.nil_append, splitLoop_backslash rfl]
      rfl

/- The characters of a word, one after the other. -/
theorem splitLoop_escaped
    (style : Quoting)
    (out : List Text)
    (cur word rest : Text) :
    splitLoop (inWord style out cur)
        (word.flatMap style.escape ++ rest) =
      splitLoop (inWord style out (cur ++ word)) rest := by
  induction word generalizing cur with
  | nil => simp
  | cons c word ih =>
      rw [List.flatMap_cons, List.append_assoc,
        splitLoop_escape, ih]
      simp

/- A written word is read as the word. -/
theorem splitLoop_quoted
    (w : QuotedWord)
    (out : List Text)
    (rest : Text) :
    splitLoop (between out) (w.text ++ rest) =
      splitLoop (unquoted out w.word) rest := by
  rcases w with ⟨style, word, hWritable⟩
  cases style with
  | single =>
      calc
        splitLoop (between out) (Quoting.single.quote word ++ rest)
        _ = splitLoop (inWord .single out [])
              (word.flatMap (Quoting.escape .single) ++
                '\'' :: rest) := by
            rw [Quoting.quote, List.cons_append,
              List.append_assoc, splitLoop_single rfl]
            rfl
        _ = splitLoop (inWord .single out word)
              ('\'' :: rest) := by
            rw [splitLoop_escaped, List.nil_append]
        _ = splitLoop (unquoted out word) rest := by
            rw [splitLoop_single rfl]
            rfl
  | double =>
      calc
        splitLoop (between out) (Quoting.double.quote word ++ rest)
        _ = splitLoop (inWord .double out [])
              (word.flatMap (Quoting.escape .double) ++
                '"' :: rest) := by
            rw [Quoting.quote, List.cons_append,
              List.append_assoc, splitLoop_double rfl]
            rfl
        _ = splitLoop (inWord .double out word)
              ('"' :: rest) := by
            rw [splitLoop_escaped, List.nil_append]
        _ = splitLoop (unquoted out word) rest := by
            rw [splitLoop_double rfl]
            rfl
  | backslash =>
      -- The first escape starts the token.
      cases word with
      | nil => exact absurd rfl (hWritable rfl)
      | cons c word =>
          calc
            splitLoop (between out)
                (Quoting.backslash.quote (c :: word) ++ rest)
            _ = splitLoop (unquoted out [c])
                  (word.flatMap (Quoting.escape .backslash) ++
                    rest) := by
                rw [Quoting.quote, List.flatMap_cons,
                  List.append_assoc, Quoting.escape,
                  List.cons_append, List.cons_append,
                  List.nil_append, splitLoop_backslash rfl]
                rfl
            _ = splitLoop (unquoted out (c :: word)) rest := by
                rw [splitLoop_escaped]
                rfl

/- Whitespace where no word has started is passed over. -/
theorem splitLoop_blank
    (blank : Blank)
    (out : List Text)
    (rest : Text) :
    splitLoop (between out) (blank.text ++ rest) =
      splitLoop (between out) rest := by
  rcases blank with ⟨text, hBlank⟩
  induction text with
  | nil => rfl
  | cons c text ih =>
      rw [List.cons_append,
        splitLoop_whitespace (hBlank c (by simp)) rfl rfl]
      exact ih (fun d hMem => hBlank d (by simp [hMem]))

/- Whitespace after a word puts it out. -/
theorem splitLoop_gap
    (gap : Gap)
    (out : List Text)
    (cur rest : Text) :
    splitLoop (unquoted out cur) (gap.text ++ rest) =
      splitLoop (between (out ++ [cur])) rest := by
  rcases gap with ⟨⟨text, hBlank⟩, hText⟩
  cases text with
  | nil => exact absurd rfl hText
  | cons c text =>
      rw [List.cons_append,
        splitLoop_whitespace (hBlank c (by simp)) rfl rfl]
      exact
        splitLoop_blank
          ⟨text, fun d hMem => hBlank d (by simp [hMem])⟩
          (out ++ [cur]) rest

end Sshdt

------------------------------------------------------------
-- Splitting Undoes Quoting
------------------------------------------------------------

namespace Sshdt

open SplitState

/- The end of `split_command_line`. -/
theorem splitCommandLine_of_between
    {input : Text}
    {out : List Text}
    (hLoop : splitLoop .initial input = between out) :
    splitCommandLine input = out := by
  rw [splitCommandLine, hLoop]
  rfl

theorem splitCommandLine_of_unquoted
    {input cur : Text}
    {out : List Text}
    (hLoop : splitLoop .initial input = unquoted out cur) :
    splitCommandLine input = out ++ [cur] := by
  rw [splitCommandLine, hLoop]
  rfl

/-
  The words of a line, from the first one on. The last one is
  still open when whitespace may follow.
-/
theorem splitLoop_joinWords
    (w : QuotedWord)
    (words : List QuotedWord)
    (gaps : Nat → Gap)
    (out : List Text)
    (rest : Text) :
    ∃ before last,
      (w :: words).map QuotedWord.word = before ++ [last] ∧
      splitLoop (between out)
          (joinWords gaps (w :: words) ++ rest) =
        splitLoop (unquoted (out ++ before) last) rest := by
  induction words generalizing w gaps out with
  | nil =>
      refine ⟨[], w.word, rfl, ?_⟩
      rw [joinWords, splitLoop_quoted, List.append_nil]
  | cons next words ih =>
      rcases ih next (fun n => gaps (n + 1))
          (out ++ [w.word]) with
        ⟨before, last, hWords, hLoop⟩
      refine ⟨w.word :: before, last, ?_, ?_⟩
      · rw [List.map_cons, hWords, List.cons_append]
      · rw [joinWords, List.append_assoc, List.append_assoc,
          splitLoop_quoted, splitLoop_gap, hLoop,
          List.append_assoc, List.singleton_append]
        simp

/-
  However the words of a line are quoted and spaced,
  splitting the line gives the words back.
-/
theorem splitCommandLine_quoted
    (words : List QuotedWord)
    (gaps : Nat → Gap)
    (lead trail : Blank) :
    splitCommandLine
        (lead.text ++ joinWords gaps words ++ trail.text) =
      words.map QuotedWord.word := by
  have hLead := splitLoop_blank lead []
  have hTrail := splitLoop_blank trail
  cases words with
  | nil =>
      apply splitCommandLine_of_between
      rw [List.append_assoc]
      refine (hLead _).trans ?_
      simpa [joinWords, splitLoop] using hTrail [] []
  | cons w words =>
      rcases splitLoop_joinWords w words gaps [] trail.text
        with ⟨before, last, hWords, hLoop⟩
      rw [hWords]
      by_cases hEmpty : trail.text = []
      · apply splitCommandLine_of_unquoted
        rw [List.append_assoc]
        refine (hLead _).trans ?_
        rw [hLoop, hEmpty, List.nil_append, splitLoop]
      · apply splitCommandLine_of_between
        rw [List.append_assoc]
        refine (hLead _).trans ?_
        have hGap :=
          splitLoop_gap ⟨trail, hEmpty⟩ before last []
        rw [hLoop, List.nil_append]
        simpa [splitLoop] using hGap

end Sshdt
