import Sshdt.Lib.Text
import Mathlib.Data.Char
import Mathlib.Data.List.Lex
import Mathlib.Order.Lattice

/-
  Strings and paths of the operating system, as far as a
  program sees them through `std::ffi` and `std::path`.

  An `OsString` may hold what no text can: on Windows, an
  unpaired surrogate. `to_string_lossy` replaces it, so an
  `OsString` comes back from its text if and only if it is
  Unicode.

  What makes a path absolute and how two paths are joined
  depends on the platform. `PathRules` has the operations
  with the facts shared by all platforms; `drive` has the
  rules of Windows for paths that start with a drive or with
  no prefix. In the same way `FileNames` has what programs
  use of the names in a directory, and `FileNames.wide` has
  the names of Windows.

  Key definitions include:
    * `OsString`
    * `OsString.toStringLossy`
    * `FileNames`
    * `FileNames.wide`
    * `PathRules`
    * `PathRules.CurrentDir`
    * `PathRules.drive`

  Key theorems include:
    * `OsString.ofText_toStringLossy_iff`
-/

------------------------------------------------------------
-- Strings
------------------------------------------------------------

/- A character, or an unpaired surrogate. -/
inductive OsChar where
  | char (c : Char)
  | surrogate (unit : Fin 2048)
  deriving DecidableEq, Repr

/- `std::ffi::OsString`. -/
abbrev OsString := List OsChar

namespace OsString

/- `OsString::from` of a string. -/
def ofText
    (t : Text) : OsString :=
  t.map .char

/- The character that stands for what is not Unicode. -/
def replacement : Char :=
  '\uFFFD'

/- The character shown for one unit. -/
def lossyChar : OsChar → Char
| .char c => c
| .surrogate _ => replacement

/- `OsStr::to_string_lossy`. -/
def toStringLossy
    (s : OsString) : Text :=
  s.map lossyChar

/- Whether `OsStr::to_str` succeeds. -/
def isUnicode
    (s : OsString) : Bool :=
  s.all fun c => c = .char (lossyChar c)

@[simp] theorem toStringLossy_ofText
    (t : Text) :
    toStringLossy (ofText t) = t := by
  have hChar : lossyChar ∘ OsChar.char = id := rfl
  simp [toStringLossy, ofText, hChar]

theorem toStringLossy_eq_nil
    {s : OsString} :
    toStringLossy s = [] ↔ s = [] := by
  simp [toStringLossy]

/- The lossy text is faithful exactly for Unicode strings. -/
theorem ofText_toStringLossy_iff
    {s : OsString} :
    ofText (toStringLossy s) = s ↔ isUnicode s = true := by
  induction s with
  | nil => simp [ofText, toStringLossy, isUnicode]
  | cons c s ih =>
      simp only [ofText, toStringLossy, isUnicode,
        List.map_cons, List.cons.injEq, List.all_cons,
        Bool.and_eq_true, decide_eq_true_eq] at ih ⊢
      rw [ih, eq_comm (a := c)]

@[simp] theorem isUnicode_ofText
    (t : Text) :
    isUnicode (ofText t) = true := by
  rw [← ofText_toStringLossy_iff, toStringLossy_ofText]

end OsString

------------------------------------------------------------
-- Names In A Directory
------------------------------------------------------------

/-
  The names a platform gives to the entries of a directory,
  in the order in which paths with one parent are sorted.
  Texts are names, they come back from the lossy text of the
  name, and they keep their order.
-/
structure FileNames (N : Type) [LinearOrder N] where
  ofText : Text → N
  toStringLossy : N → Text
  toStringLossy_ofText :
    ∀ t, toStringLossy (ofText t) = t
  ofText_lt :
    ∀ {t u}, t < u → ofText t < ofText u

namespace OsChar

/- The code point of a unit. -/
def code : OsChar → Nat
| .char c => c.toNat
| .surrogate unit => 0xD800 + unit.val

/- No character is a surrogate. -/
theorem code_char_ne_surrogate
    (c : Char)
    (unit : Fin 2048) :
    code (.char c) ≠ code (.surrogate unit) := by
  have hValid := c.valid
  have hUnit := unit.isLt
  simp only [UInt32.isValidChar, Nat.isValidChar] at hValid
  simp only [code, Char.toNat]
  omega

theorem code_injective :
    Function.Injective code := by
  intro x y hCode
  cases x with
  | char c =>
      cases y with
      | char d =>
          rw [Char.toNat_inj.mp hCode]
      | surrogate v =>
          exact absurd hCode (code_char_ne_surrogate c v)
  | surrogate u =>
      cases y with
      | char d =>
          exact absurd hCode.symm (code_char_ne_surrogate d u)
      | surrogate v =>
          simp only [code] at hCode
          rw [Fin.ext (Nat.add_left_cancel hCode)]

instance :
    LinearOrder OsChar :=
  LinearOrder.lift' code code_injective

theorem char_lt
    {c d : Char}
    (hLt : c < d) :
    OsChar.char c < OsChar.char d :=
  hLt

end OsChar

theorem OsString.ofText_lt
    {t u : Text}
    (hLt : t < u) :
    ofText t < ofText u := by
  induction hLt with
  | nil => exact List.Lex.nil
  | cons _ ih => exact List.Lex.cons ih
  | rel hChar => exact List.Lex.rel (OsChar.char_lt hChar)

/- The names of Windows. -/
def FileNames.wide : FileNames OsString where
  ofText := OsString.ofText
  toStringLossy := OsString.toStringLossy
  toStringLossy_ofText := OsString.toStringLossy_ofText
  ofText_lt := OsString.ofText_lt

------------------------------------------------------------
-- Paths
------------------------------------------------------------

/-
  The path operations of a platform. An absolute path is not
  empty, and neither is what is joined to one.
-/
structure PathRules where
  isAbsolute : OsString → Bool
  join : OsString → OsString → OsString
  absolute_ne_nil :
    ∀ p, isAbsolute p = true → p ≠ []
  join_ne_nil :
    ∀ d p, isAbsolute d = true → join d p ≠ []

namespace PathRules

/- What `std::env::current_dir` may return. -/
abbrev CurrentDir
    (rules : PathRules) :=
  { d : OsString // rules.isAbsolute d = true }

/- A path, or the current directory joined with it. -/
def resolve
    (rules : PathRules)
    (d p : OsString) : OsString :=
  if rules.isAbsolute p then p else rules.join d p

theorem resolve_ne_nil
    (rules : PathRules)
    (d : rules.CurrentDir)
    (p : OsString) :
    rules.resolve d p ≠ [] := by
  unfold resolve
  split
  · rename_i hAbsolute
    exact rules.absolute_ne_nil p hAbsolute
  · exact rules.join_ne_nil d p d.property

end PathRules

------------------------------------------------------------
-- Paths With A Drive
------------------------------------------------------------

namespace PathRules

/- Either separator of Windows. -/
def isSep : OsChar → Bool
| .char c => c == '\\' || c == '/'
| .surrogate _ => false

/- A drive prefix such as `C:`, and what follows it. -/
def splitDrive : OsString → OsString × OsString
| .char c :: .char ':' :: rest =>
    if c.isAlpha then
      ([.char c, .char ':'], rest)
    else
      ([], .char c :: .char ':' :: rest)
| p => ([], p)

/- `Path::has_root`. -/
def hasRoot
    (p : OsString) : Bool :=
  (splitDrive p).2.head?.any isSep

/- `Path::is_absolute`: a drive and a root. -/
def driveIsAbsolute
    (p : OsString) : Bool :=
  !(splitDrive p).1.isEmpty && hasRoot p

/- `PathBuf::push` on paths without a verbatim prefix. -/
def driveJoin
    (d p : OsString) : OsString :=
  if !(splitDrive p).1.isEmpty then
    p
  else if hasRoot p then
    (splitDrive d).1 ++ p
  else if d.getLast?.any isSep || (splitDrive d).2.isEmpty then
    d ++ p
  else
    d ++ .char '\\' :: p

theorem driveIsAbsolute_ne_nil
    (p : OsString)
    (hAbsolute : driveIsAbsolute p = true) :
    p ≠ [] := by
  intro hNil
  subst hNil
  simp [driveIsAbsolute, splitDrive] at hAbsolute

theorem driveJoin_ne_nil
    (d p : OsString)
    (hAbsolute : driveIsAbsolute d = true) :
    driveJoin d p ≠ [] := by
  have hDir := driveIsAbsolute_ne_nil d hAbsolute
  unfold driveJoin
  split
  · rename_i hDrive
    intro hNil
    subst hNil
    simp [splitDrive] at hDrive
  · split
    · rename_i hRoot
      intro hNil
      have hPath := (List.append_eq_nil_iff.mp hNil).2
      subst hPath
      simp [hasRoot, splitDrive] at hRoot
    · split
      · simp [hDir]
      · simp

/- The rules of Windows for drives. -/
def drive : PathRules where
  isAbsolute := driveIsAbsolute
  join := driveJoin
  absolute_ne_nil := driveIsAbsolute_ne_nil
  join_ne_nil := driveJoin_ne_nil

end PathRules
