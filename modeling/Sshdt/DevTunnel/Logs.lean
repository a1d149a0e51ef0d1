import Sshdt.Lib.Occurs
import Sshdt.Lib.Text

/-
  What the tunnel logs say (`sanitize` in
  `src/devtunnel/logs.rs`).

  A text that carries a marker of a credential is left out
  as a whole. Of any other text the URLs are left out, and
  the control characters are taken out of the other words.
  The markers are looked for before the control characters
  are taken out, and so are the URLs, so that a marker with
  a control character in it is found by neither check and
  stands in the log.

  Key definitions include:
    * `sanitize`
    * `record`
    * `Redacted`
    * `Hides`

  Key theorems include:
    * `sanitize_plain`
    * `sanitize_length`
    * `record_one_line`
    * `infix_sanitizeWords_iff`
    * `sanitize_redacts_iff`
-/

------------------------------------------------------------
-- Sanitizing A Text
------------------------------------------------------------

namespace Sshdt

namespace DevTunnel

/- `char::is_control`: the general category `Cc`. -/
def isControl
    (c : Char) : Bool :=
  c.toNat ≤ 0x1f || (0x7f ≤ c.toNat && c.toNat ≤ 0x9f)

/- The markers of a credential, in lower case. -/
def markers : List Text :=
  ["token".toList, "authorization".toList,
    "password".toList, "secret".toList,
    "credential".toList, "eyj".toList]

/- What stands for a text with a marker. -/
def credentialOmitted : Text :=
  "[credential-bearing output omitted]".toList

/- What stands for a word with a URL. -/
def urlOmitted : Text :=
  "[URL omitted]".toList

/- What makes a word a URL. -/
def urlMark : Text :=
  "://".toList

/- Some marker is in the text, whatever the case. -/
def carriesMarker
    (text : Text) : Bool :=
  markers.any fun key => Text.contains key text.toAsciiLowercase

/- A word without its control characters. -/
def visible
    (word : Text) : Text :=
  word.filter fun c => !isControl c

/- What is written of a word at most. -/
def wordLimit : Nat :=
  2048

/- What is written of a text at most. -/
def textLimit : Nat :=
  8192

/- What is written of a word. -/
def sanitizeWord
    (word : Text) : Text :=
  if Text.contains urlMark word then
    urlOmitted
  else
    (visible word).take wordLimit

/- What is written of a text without a marker. -/
def sanitizeWords
    (text : Text) : Text :=
  ([' '].intercalate
    (text.splitWhitespace.map sanitizeWord)).take textLimit

/- `sanitize`. -/
def sanitize
    (text : Text) : Text :=
  if carriesMarker text then
    credentialOmitted
  else
    sanitizeWords text

/- The record that `append` writes. -/
def record
    (now : Nat)
    (command stream text : Text) : Text :=
  Text.ofNat now ++ " [".toList ++ sanitize command ++
    "] [".toList ++ sanitize stream ++ "] ".toList ++
    sanitize text ++ ['\n']

end DevTunnel

end Sshdt

------------------------------------------------------------
-- Lengths And Lines
------------------------------------------------------------

namespace Sshdt

namespace DevTunnel

/- The characters that end a line. -/
def isLineBreak
    (c : Char) : Bool :=
  (0x0a ≤ c.toNat && c.toNat ≤ 0x0d) || c.toNat == 0x85 ||
    c.toNat == 0x2028 || c.toNat == 0x2029

/- A text without control characters and line breaks. -/
def Plain
    (text : Text) : Prop :=
  ∀ c ∈ text, isControl c = false ∧ isLineBreak c = false

instance
    (text : Text) :
    Decidable (Plain text) :=
  List.decidableBAll
    (fun c => isControl c = false ∧ isLineBreak c = false)
    text

/- Every line break is whitespace. -/
theorem isWhitespace_of_isLineBreak
    {c : Char}
    (hBreak : isLineBreak c = true) :
    Text.isWhitespace c = true := by
  simp only [isLineBreak, Bool.or_eq_true, Bool.and_eq_true,
    decide_eq_true_eq, beq_iff_eq] at hBreak
  simp only [Text.isWhitespace, Bool.or_eq_true,
    Bool.and_eq_true, decide_eq_true_eq, beq_iff_eq]
  omega

theorem plain_append
    {left right : Text}
    (hLeft : Plain left)
    (hRight : Plain right) :
    Plain (left ++ right) := by
  intro c hMem
  rcases List.mem_append.mp hMem with hOne | hTwo
  · exact hLeft c hOne
  · exact hRight c hTwo

/- What is written of a word is plain. -/
theorem sanitizeWord_plain
    {text word : Text}
    (hWord : word ∈ text.splitWhitespace) :
    Plain (sanitizeWord word) := by
  unfold sanitizeWord
  split
  · decide
  · intro c hMem
    have hVisible := List.mem_of_mem_take hMem
    simp only [visible, List.mem_filter,
      Bool.not_eq_true'] at hVisible
    refine ⟨hVisible.2, ?_⟩
    by_contra hBreak
    rw [Bool.not_eq_false] at hBreak
    have hSpace := isWhitespace_of_isLineBreak hBreak
    rw [Text.not_isWhitespace_of_mem_word hWord hVisible.1]
      at hSpace
    cases hSpace

/- Joined plain words are plain. -/
theorem plain_intercalate
    {words : List Text}
    (hWords : ∀ word ∈ words, Plain word) :
    Plain ([' '].intercalate words) := by
  induction words with
  | nil => simp [Plain]
  | cons word words ih =>
      have hHead := hWords word List.mem_cons_self
      have hTail := ih fun w hMem =>
        hWords w (List.mem_cons_of_mem _ hMem)
      cases words with
      | nil => simpa using hHead
      | cons second words =>
          rw [List.intercalate_cons_cons]
          refine plain_append (plain_append hHead ?_) hTail
          decide

/- The log has no control character and no line break. -/
theorem sanitize_plain
    (text : Text) :
    Plain (sanitize text) := by
  unfold sanitize
  split
  · decide
  · intro c hMem
    refine plain_intercalate ?_ c (List.mem_of_mem_take hMem)
    intro written hWritten
    rcases List.mem_map.mp hWritten with ⟨word, hWord, rfl⟩
    exact sanitizeWord_plain hWord

theorem sanitize_length
    (text : Text) :
    (sanitize text).length ≤ 8192 := by
  unfold sanitize
  split
  · decide
  · unfold sanitizeWords
    rw [List.length_take]
    exact Nat.min_le_left _ _

theorem newline_not_mem_sanitize
    (text : Text) :
    '\n' ∉ sanitize text := by
  intro hMem
  have hPlain := (sanitize_plain text _ hMem).2
  exact absurd hPlain (by decide)

/- The one line that a record is. -/
theorem record_one_line
    (now : Nat)
    (command stream text : Text) :
    ∃ line, record now command stream text = line ++ ['\n'] ∧
      '\n' ∉ line := by
  have hNumber : '\n' ∉ Text.ofNat now := by
    intro hMem
    have hDigit :=
      Nat.isDigit_of_mem_toDigits (by decide) (by decide) hMem
    exact absurd hDigit (by decide)
  refine ⟨_, rfl, ?_⟩
  simp only [List.mem_append, not_or]
  exact ⟨⟨⟨⟨⟨⟨hNumber, by decide⟩,
    newline_not_mem_sanitize command⟩, by decide⟩,
    newline_not_mem_sanitize stream⟩, by decide⟩,
    newline_not_mem_sanitize text⟩

end DevTunnel

end Sshdt

------------------------------------------------------------
-- Hidden Markers
------------------------------------------------------------

namespace Sshdt

namespace DevTunnel

/-
  The placeholder, or a text with no marker and no URL in
  it.
-/
def Redacted
    (written : Text) : Prop :=
  written = credentialOmitted ∨
    ((∀ key ∈ markers, ¬ key <:+: written.toAsciiLowercase) ∧
      ¬ urlMark <:+: written)

/- How much of the line the words before take up. -/
def writtenBefore
    (before : List Text) : Nat :=
  (before.map fun word =>
    (if Text.contains urlMark word then
      urlOmitted.length
    else
      min wordLimit (visible word).length) + 1).sum

/-
  A word that is no URL hides a key behind control
  characters, in the part of the word and of the line that
  is written.
-/
def Hides
    (key text : Text) : Prop :=
  ∃ before word after a b c,
    text.splitWhitespace = before ++ word :: after ∧
      Text.contains urlMark word = false ∧
      word = a ++ b ++ c ∧
      (visible b).toAsciiLowercase = key ∧
      (visible a).length + key.length ≤ wordLimit ∧
      writtenBefore before + (visible a).length + key.length ≤
        textLimit

/- The words of the placeholder. -/
def placeholderWords : List Text :=
  ["[credential-bearing".toList, "output".toList,
    "omitted]".toList]

/- The text is the placeholder, but for what is not visible. -/
def SpellsPlaceholder
    (text : Text) : Prop :=
  text.splitWhitespace.map visible = placeholderWords

/- The lower case of a capital letter is a small letter. -/
theorem eq_of_toLower
    {c d : Char}
    (hLetter : d.toNat < 97 ∨ 122 < d.toNat)
    (hLower : c.toLower = d) :
    c = d := by
  unfold Char.toLower at hLower
  split at hLower
  · rename_i hUpper
    subst hLower
    simp only [Char.toNat, ge_iff_le,
      UInt32.le_iff_toNat_le,
      UInt32.toNat_add] at hLetter hUpper
    simp at hLetter hUpper
    omega
  · exact hLower

theorem eq_of_lower_urlMark
    {b : Text}
    (hLower : b.map Char.toLower = urlMark) :
    b = urlMark := by
  unfold urlMark at hLower ⊢
  rcases b with _ | ⟨x, _ | ⟨y, _ | ⟨z, _ | ⟨w, rest⟩⟩⟩⟩
  all_goals simp at hLower
  rcases hLower with ⟨hX, hY, hZ⟩
  rw [eq_of_toLower (by decide) hX,
    eq_of_toLower (by decide) hY,
    eq_of_toLower (by decide) hZ]
  rfl

/- The mark of a URL has no letters. -/
theorem urlMark_infix_lower_iff
    {written : Text} :
    urlMark <:+: written.toAsciiLowercase ↔
      urlMark <:+: written := by
  constructor
  · rintro ⟨front, back, hLower⟩
    rcases List.map_eq_append_iff.mp hLower.symm with
      ⟨rest, c, rfl, hRest, _⟩
    rcases List.map_eq_append_iff.mp hRest with
      ⟨a, b, rfl, _, hMark⟩
    refine ⟨a, c, ?_⟩
    rw [eq_of_lower_urlMark hMark]
  · rintro ⟨a, c, rfl⟩
    exact ⟨a.map Char.toLower, c.map Char.toLower, by
      simp [Text.toAsciiLowercase, urlMark]⟩

theorem joinedLength_sanitizeWord
    (before : List Text) :
    joinedLength (before.map sanitizeWord) =
      writtenBefore before := by
  unfold joinedLength writtenBefore
  rw [List.map_map]
  congr 1
  apply List.map_congr_left
  intro word _
  simp only [Function.comp, sanitizeWord]
  split
  · rfl
  · rw [List.length_take]

/- What is written of a word that is no URL. -/
theorem occurs_sanitizeWord
    {b word : Text}
    {k n : Nat}
    (hKey :
      b.toAsciiLowercase ∈ urlMark :: markers) :
    Occurs b k n (sanitizeWord word) ↔
      Text.contains urlMark word = false ∧
        ∃ x y z, word = x ++ y ++ z ∧ visible y = b ∧
          (visible x).length + b.length ≤ wordLimit ∧
          k + (visible x).length + b.length ≤ n := by
  unfold sanitizeWord
  cases hUrl : Text.contains urlMark word with
  | true =>
      simp only [if_true, Bool.true_eq_false, false_and,
        iff_false]
      rintro ⟨x, z, hSplit, _⟩
      have hInfix :
          b.toAsciiLowercase <:+:
            urlOmitted.toAsciiLowercase := by
        rw [hSplit]
        exact ⟨x.map Char.toLower, z.map Char.toLower, by
          simp [Text.toAsciiLowercase]⟩
      rw [← Text.contains_iff] at hInfix
      have hNone :
          ∀ key ∈ urlMark :: markers,
            Text.contains key urlOmitted.toAsciiLowercase =
              false := by
        decide
      rw [hNone _ hKey] at hInfix
      cases hInfix
  | false =>
      simp only [Bool.false_eq_true, if_false, true_and]
      rw [occurs_take_iff]
      constructor
      · rintro ⟨a, c, hSplit, hWord, hEnd⟩
        rcases List.filter_eq_append_iff.mp hSplit with
          ⟨xy, z, rfl, hFirst, _⟩
        rcases List.filter_eq_append_iff.mp hFirst with
          ⟨x, y, rfl, rfl, rfl⟩
        exact ⟨x, y, z, rfl, rfl, hWord, hEnd⟩
      · rintro ⟨x, y, z, rfl, rfl, hWord, hEnd⟩
        exact ⟨visible x, visible z, by simp [visible],
          hWord, hEnd⟩

/- A key in the log was hidden in the text. -/
theorem infix_sanitizeWords_iff
    {key text : Text}
    (hKey : key ∈ urlMark :: markers) :
    key <:+: (sanitizeWords text).toAsciiLowercase ↔
      Hides key text := by
  have hSpace : ∀ k ∈ urlMark :: markers, ' ' ∉ k := by
    decide
  have hSome : ∀ k ∈ urlMark :: markers, k ≠ [] := by
    decide
  unfold sanitizeWords Text.toAsciiLowercase
  rw [List.map_take, infix_take_iff, occurs_map_iff]
  constructor
  · rintro ⟨b, rfl, hOccurs⟩
    have hNoSpace : ' ' ∉ b := by
      intro hMem
      apply hSpace _ hKey
      exact List.mem_map.mpr ⟨' ', hMem, by decide⟩
    have hNonempty : b ≠ [] := by
      rintro rfl
      exact hSome _ hKey rfl
    rw [occurs_intercalate_iff hNoSpace hNonempty] at hOccurs
    rcases hOccurs with
      ⟨before', word', after', hWords, hWord⟩
    rcases List.map_eq_append_iff.mp hWords with
      ⟨before, rest, hSplit, rfl, hRest⟩
    rcases List.map_eq_cons_iff.mp hRest with
      ⟨word, after, rfl, rfl, rfl⟩
    rw [occurs_sanitizeWord hKey,
      joinedLength_sanitizeWord] at hWord
    rcases hWord with
      ⟨hUrl, x, y, z, hParts, rfl, hLimit, hEnd⟩
    refine ⟨before, word, after, x, y, z, hSplit, hUrl,
      hParts, rfl, ?_, ?_⟩
    · simpa [Text.toAsciiLowercase] using hLimit
    · simpa [Text.toAsciiLowercase] using hEnd
  · rintro ⟨before, word, after, x, y, z, hSplit, hUrl,
      hParts, rfl, hLimit, hEnd⟩
    have hNoSpace : ' ' ∉ visible y := by
      intro hMem
      apply hSpace _ hKey
      exact List.mem_map.mpr ⟨' ', hMem, by decide⟩
    have hNonempty : visible y ≠ [] := by
      intro hNil
      apply hSome _ hKey
      simp [hNil, Text.toAsciiLowercase]
    refine ⟨visible y, rfl, ?_⟩
    rw [occurs_intercalate_iff hNoSpace hNonempty]
    refine ⟨before.map sanitizeWord, sanitizeWord word,
      after.map sanitizeWord, ?_, ?_⟩
    · rw [hSplit, List.map_append, List.map_cons]
    · rw [occurs_sanitizeWord hKey, joinedLength_sanitizeWord]
      simp only [Text.toAsciiLowercase,
        List.length_map] at hLimit hEnd
      refine ⟨hUrl, x, y, z, hParts, rfl, hLimit, ?_⟩
      omega

end DevTunnel

end Sshdt

------------------------------------------------------------
-- When The Log Is Redacted
------------------------------------------------------------

namespace Sshdt

namespace DevTunnel

/- A short word that is no URL is written as it is seen. -/
theorem sanitizeWord_eq_visible
    {word : Text}
    (hUrl : Text.contains urlMark word = false)
    (hShort : (sanitizeWord word).length < wordLimit) :
    sanitizeWord word = visible word := by
  simp only [sanitizeWord, hUrl, Bool.false_eq_true,
    if_false] at hShort ⊢
  rw [List.length_take] at hShort
  apply List.take_of_length_le
  omega

theorem mem_intercalate
    {words : List Text}
    {word : Text}
    {c : Char}
    (hWord : word ∈ words)
    (hMem : c ∈ word) :
    c ∈ [' '].intercalate words := by
  induction words with
  | nil => cases hWord
  | cons first words ih =>
      cases words with
      | nil =>
          rw [List.mem_singleton] at hWord
          simpa [← hWord] using hMem
      | cons second words =>
          rw [List.intercalate_cons_cons, List.mem_append,
            List.mem_append]
          rcases List.mem_cons.mp hWord with rfl | hRest
          · exact Or.inl (Or.inl hMem)
          · exact Or.inr (ih hRest)

/- The line that is the placeholder comes from its words. -/
theorem map_sanitizeWord_of_placeholder
    {text : Text}
    (hLine :
      [' '].intercalate
          (text.splitWhitespace.map sanitizeWord) =
        credentialOmitted) :
    (∀ word ∈ text.splitWhitespace,
      Text.contains urlMark word = false) ∧
      text.splitWhitespace.map sanitizeWord =
        placeholderWords := by
  have hUrl :
      ∀ word ∈ text.splitWhitespace,
        Text.contains urlMark word = false := by
    intro word hWord
    by_contra hUrl
    rw [Bool.not_eq_false] at hUrl
    have hMem : 'U' ∈ sanitizeWord word := by
      rw [sanitizeWord, if_pos hUrl]
      decide
    have hLetter :=
      mem_intercalate (List.mem_map_of_mem hWord) hMem
    rw [hLine] at hLetter
    exact absurd hLetter (by decide)
  refine ⟨hUrl, ?_⟩
  have hSpace :
      ∀ written ∈ text.splitWhitespace.map sanitizeWord,
        ' ' ∉ written := by
    intro written hWritten hMem
    rcases List.mem_map.mp hWritten with ⟨word, hWord, rfl⟩
    rw [sanitizeWord, if_neg (by simp [hUrl word hWord])]
      at hMem
    have hVisible := List.mem_of_mem_take hMem
    have hBlank := Text.not_isWhitespace_of_mem_word hWord
      (List.mem_filter.mp hVisible).1
    exact absurd hBlank (by decide)
  have hSome : text.splitWhitespace.map sanitizeWord ≠ [] := by
    intro hNil
    rw [hNil] at hLine
    exact absurd hLine (by decide)
  have hSplit := List.splitOn_intercalate ' ' hSpace hSome
  rw [hLine] at hSplit
  rw [← hSplit]
  decide

/- The words of the placeholder are short and no URLs. -/
theorem sanitizeWord_of_placeholder
    {word : Text}
    (hWord : visible word ∈ placeholderWords) :
    sanitizeWord word = visible word := by
  have hColon : ∀ w ∈ placeholderWords, ':' ∉ w := by decide
  have hShort :
      ∀ w ∈ placeholderWords, w.length < wordLimit := by
    decide
  have hUrl : Text.contains urlMark word = false := by
    by_contra hUrl
    rw [Bool.not_eq_false, Text.contains_iff] at hUrl
    apply hColon _ hWord
    rw [visible, List.mem_filter]
    refine ⟨hUrl.subset (by decide), by decide⟩
  rw [sanitizeWord, if_neg (by simp [hUrl])]
  apply List.take_of_length_le
  exact Nat.le_of_lt (hShort _ hWord)

/- The placeholder is written for its own words only. -/
theorem sanitizeWords_eq_placeholder_iff
    {text : Text} :
    sanitizeWords text = credentialOmitted ↔
      SpellsPlaceholder text := by
  unfold SpellsPlaceholder
  constructor
  · intro hWritten
    have hLine :
        [' '].intercalate
            (text.splitWhitespace.map sanitizeWord) =
          credentialOmitted := by
      rw [← hWritten, sanitizeWords]
      have hLength := congrArg List.length hWritten
      have hFixed : credentialOmitted.length = 35 := by decide
      rw [sanitizeWords, List.length_take, hFixed] at hLength
      symm
      apply List.take_of_length_le
      unfold textLimit at hLength ⊢
      omega
    rcases map_sanitizeWord_of_placeholder hLine with
      ⟨hUrl, hWords⟩
    have hShort :
        ∀ w ∈ placeholderWords, w.length < wordLimit := by
      decide
    rw [← hWords]
    apply List.map_congr_left
    intro word hWord
    symm
    apply sanitizeWord_eq_visible (hUrl word hWord)
    apply hShort
    rw [← hWords]
    exact List.mem_map_of_mem hWord
  · intro hWords
    have hSame :
        text.splitWhitespace.map sanitizeWord =
          placeholderWords := by
      rw [← hWords]
      apply List.map_congr_left
      intro word hWord
      apply sanitizeWord_of_placeholder
      rw [← hWords]
      exact List.mem_map_of_mem hWord
    rw [sanitizeWords, hSame]
    decide

/-
  Exactly when the log is redacted: the text carries a
  marker as it stands, or no word of it hides a marker or
  the mark of a URL behind control characters, or it spells
  the placeholder. The bounds and the single line hold
  always.
-/
theorem sanitize_redacts_iff
    (text : Text) :
    (Redacted (sanitize text) ∧ Plain (sanitize text) ∧
      (sanitize text).length ≤ 8192 ∧
      ∀ now command stream,
        ∃ line,
          record now command stream text = line ++ ['\n'] ∧
            '\n' ∉ line) ↔
      carriesMarker text = true ∨
        (∀ key ∈ urlMark :: markers, ¬ Hides key text) ∨
        SpellsPlaceholder text := by
  have hRest :
      Plain (sanitize text) ∧
        (sanitize text).length ≤ 8192 ∧
        ∀ now command stream,
          ∃ line,
            record now command stream text =
                line ++ ['\n'] ∧
              '\n' ∉ line :=
    ⟨sanitize_plain text, sanitize_length text,
      fun now command stream =>
        record_one_line now command stream text⟩
  rw [and_iff_left hRest]
  cases hMarker : carriesMarker text with
  | true => simp [Redacted, sanitize, hMarker]
  | false =>
      have hWritten : sanitize text = sanitizeWords text := by
        simp [sanitize, hMarker]
      simp only [hWritten, Redacted,
        sanitizeWords_eq_placeholder_iff, Bool.false_eq_true,
        false_or]
      rw [or_comm]
      apply or_congr_left
      rw [← urlMark_infix_lower_iff, List.forall_mem_cons,
        and_comm]
      apply and_congr
      · rw [infix_sanitizeWords_iff List.mem_cons_self]
      · apply forall₂_congr
        intro key hKey
        rw [infix_sanitizeWords_iff
          (List.mem_cons_of_mem _ hKey)]

/-
  A control character inside the word `token` keeps it from
  being found and does not keep it from being written.
-/
theorem control_character_hides_marker :
    sanitize "to\x01ken=abc".toList = "token=abc".toList ∧
      ¬ (Redacted (sanitize "to\x01ken=abc".toList) ∧
        Plain (sanitize "to\x01ken=abc".toList) ∧
        (sanitize "to\x01ken=abc".toList).length ≤ 8192 ∧
        ∀ now command stream,
          ∃ line,
            record now command stream
                "to\x01ken=abc".toList =
              line ++ ['\n'] ∧ '\n' ∉ line) := by
  have hWritten :
      sanitize "to\x01ken=abc".toList =
        "token=abc".toList := by
    decide
  refine ⟨hWritten, ?_⟩
  rintro ⟨hRedacted, _⟩
  rw [hWritten] at hRedacted
  rcases hRedacted with hPlaceholder | ⟨hMarkers, _⟩
  · exact absurd hPlaceholder (by decide)
  · apply hMarkers "token".toList (by decide)
    rw [← Text.contains_iff]
    decide

end DevTunnel

end Sshdt
