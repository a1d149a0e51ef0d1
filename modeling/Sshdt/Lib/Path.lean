import Sshdt.Lib.Text
import Mathlib.Data.List.Induction
import Mathlib.Data.List.Infix

/-
  Unix paths as Rust's `std::path` sees them.

  A path is its text. `components` reads it the way
  `Path::components` does: repeated slashes, a trailing
  slash and every `.` but a leading one disappear. Rust
  compares paths by components, and so do `startsWith` and
  `stripPrefix` here. Where Rust returns a leading part of
  the original text (`parent`, `strip_prefix`), the model
  spells that part with single slashes; the two spellings
  have the same components.

  An absolute path in normal form is `ofNames names` for a
  list of proper names.

  Key definitions include:
    * `PathBuf`
    * `Path.components`
    * `Path.push`
    * `Path.pop`
    * `Path.startsWith`
    * `Path.stripPrefix`
    * `Path.ProperName`
    * `Path.ofNames`
    * `Path.withExtension`
    * `Path.setExtension`

  Key theorems include:
    * `Path.components_ofNames`
    * `Path.push_ofNames`
    * `Path.pop_ofNames`
    * `Path.startsWith_ofNames_iff`
    * `Path.components_push_ofNames`
    * `Path.components_push`
    * `Path.withExtension_append`
    * `Path.setExtension_push`
-/

------------------------------------------------------------
-- Components
------------------------------------------------------------

/- `std::path::PathBuf`, as its text. -/
abbrev PathBuf := Text

namespace Path

/- `std::path::Component`, without Windows prefixes. -/
inductive Component where
  | rootDir
  | curDir
  | parentDir
  | normal (name : Text)
  deriving DecidableEq, Repr

/- `Component::as_os_str`. -/
def Component.asText : Component → Text
| .rootDir => ['/']
| .curDir => ['.']
| .parentDir => ['.', '.']
| .normal name => name

/- A part between slashes that is not the first one. -/
def interior
    (part : Text) : Option Component :=
  if part = [] ∨ part = ['.'] then
    none
  else if part = ['.', '.'] then
    some .parentDir
  else
    some (.normal part)

/- `Path::has_root`. -/
def hasRoot
    (p : PathBuf) : Bool :=
  p.head? == some '/'

/- `Path::components`. -/
def components
    (p : PathBuf) : List Component :=
  match p.splitOn '/' with
  | [] => []
  | first :: rest =>
      let leading :=
        if hasRoot p then
          [.rootDir]
        else if first = ['.'] then
          [.curDir]
        else
          (interior first).toList
      leading ++ rest.filterMap interior

/- `Path::is_relative`: on Unix, without a root. -/
def isRelative
    (p : PathBuf) : Bool :=
  !hasRoot p

end Path

------------------------------------------------------------
-- Building And Comparing
------------------------------------------------------------

namespace Path

/- `PathBuf::push`, which is also `Path::join`. -/
def push
    (p q : PathBuf) : PathBuf :=
  if hasRoot q then
    q
  else if p = [] ∨ p.getLast? = some '/' then
    p ++ q
  else
    p ++ '/' :: q

/- The path that pushing the components one by one builds. -/
def ofComponents
    (parts : List Component) : PathBuf :=
  parts.foldl (fun p part => push p part.asText) []

/- `Path::parent`. -/
def parent
    (p : PathBuf) : Option PathBuf :=
  match (components p).getLast? with
  | none => none
  | some .rootDir => none
  | some _ => some (ofComponents (components p).dropLast)

/- `PathBuf::pop`: the parent, or no change without one. -/
def pop
    (p : PathBuf) : PathBuf :=
  (parent p).getD p

/- `Path::starts_with`. -/
def startsWith
    (p base : PathBuf) : Bool :=
  (components base).isPrefixOf (components p)

/- `Path::strip_prefix`. -/
def stripPrefix
    (p base : PathBuf) : Option PathBuf :=
  ((components p).dropPrefix? (components base)).map
    ofComponents

/- `Path::file_name`. -/
def fileName
    (p : PathBuf) : Option Text :=
  match (components p).getLast? with
  | some (.normal name) => some name
  | _ => none

/- `Path::extension`. -/
def extension
    (p : PathBuf) : Option Text :=
  match fileName p with
  | none => none
  | some name =>
      match Text.rsplitOnce '.' name with
      | some (before, after) =>
          if before = [] then none else some after
      | none => none

end Path

------------------------------------------------------------
-- Absolute Normal Forms
------------------------------------------------------------

namespace Path

/-
  A name that denotes a directory entry: it is not empty,
  has no slash and is neither `.` nor `..`.
-/
def ProperName
    (name : Text) : Prop :=
  name ≠ [] ∧ '/' ∉ name ∧ name ≠ ['.'] ∧ name ≠ ['.', '.']

instance
    (name : Text) :
    Decidable (ProperName name) := by
  unfold ProperName
  infer_instance

/- The absolute path with the given names. -/
def ofNames
    (names : List Text) : PathBuf :=
  '/' :: ['/'].intercalate names

@[simp] theorem hasRoot_ofNames
    (names : List Text) :
    hasRoot (ofNames names) = true := rfl

/- A proper name is read as itself. -/
theorem interior_of_proper
    {name : Text}
    (hName : ProperName name) :
    interior name = some (.normal name) := by
  rcases hName with ⟨hNil, _, hDot, hDots⟩
  simp [interior, hNil, hDot, hDots]

theorem filterMap_interior_of_proper
    {names : List Text}
    (hNames : ∀ name ∈ names, ProperName name) :
    names.filterMap interior =
      names.map Component.normal := by
  induction names with
  | nil => rfl
  | cons name names ih =>
      have hHead := interior_of_proper
        (hNames name List.mem_cons_self)
      have hTail := ih (fun n hn =>
        hNames n (List.mem_cons_of_mem _ hn))
      simp [hHead, hTail]

/- The parts between the slashes of a normal form. -/
theorem splitOn_ofNames
    {names : List Text}
    (hNames : ∀ name ∈ names, ProperName name)
    (hNonempty : names ≠ []) :
    (ofNames names).splitOn '/' = [] :: names := by
  have hFree : ∀ name ∈ names, '/' ∉ name :=
    fun name hName => (hNames name hName).2.1
  have hSplit :=
    List.splitOn_intercalate '/' hFree hNonempty
  have hCons :=
    List.splitOn_append_cons_self (a := '/') ([] : Text)
      (['/'].intercalate names)
  simpa [ofNames, hSplit] using hCons

/- Reading a normal form back. -/
theorem components_ofNames
    {names : List Text}
    (hNames : ∀ name ∈ names, ProperName name) :
    components (ofNames names) =
      .rootDir :: names.map Component.normal := by
  by_cases hNil : names = []
  · subst hNil
    decide
  · simp [components, splitOn_ofNames hNames hNil,
      filterMap_interior_of_proper hNames]

theorem ofNames_ne_nil
    (names : List Text) :
    ofNames names ≠ [] := by
  simp [ofNames]

/- Adding a name at the end of a normal form. -/
theorem ofNames_concat
    {names : List Text}
    (hNonempty : names ≠ [])
    (name : Text) :
    ofNames (names ++ [name]) =
      ofNames names ++ '/' :: name := by
  induction names with
  | nil => exact (hNonempty rfl).elim
  | cons first names ih =>
      cases names with
      | nil => simp [ofNames]
      | cons second names =>
          have hRest := ih (by simp)
          simp only [ofNames, List.cons_append,
            List.cons.injEq, true_and] at hRest ⊢
          simp only [List.intercalate_cons_cons,
            List.append_assoc, hRest]

/- A normal form ends in a slash only for the root. -/
theorem getLast?_ofNames
    {names : List Text}
    (hNames : ∀ name ∈ names, ProperName name)
    (hNonempty : names ≠ []) :
    (ofNames names).getLast? ≠ some '/' := by
  rcases List.eq_nil_or_concat names with
    hNil | ⟨init, last, hConcat⟩
  · exact (hNonempty hNil).elim
  · have hLast : ProperName last :=
      hNames last (by simp [hConcat])
    have hEnds :
        ∃ front, ofNames names = front ++ last := by
      by_cases hInit : init = []
      · exact ⟨['/'], by simp [hConcat, hInit, ofNames]⟩
      · refine ⟨ofNames init ++ ['/'], ?_⟩
        rw [hConcat, List.concat_eq_append,
          ofNames_concat hInit]
        simp
    rcases hEnds with ⟨front, hEq⟩
    rw [hEq, List.getLast?_append_of_ne_nil _ hLast.1]
    intro hSlash
    exact hLast.2.1 (List.mem_of_getLast? hSlash)

/- A proper name is a relative path. -/
theorem hasRoot_of_proper
    {name : Text}
    (hName : ProperName name) :
    hasRoot name = false := by
  cases name with
  | nil => rfl
  | cons c rest =>
      have hSlash : c ≠ '/' := by
        rintro rfl
        exact hName.2.1 List.mem_cons_self
      simp [hasRoot, hSlash]

/- Pushing a proper name extends a normal form. -/
theorem push_ofNames
    {names : List Text}
    {name : Text}
    (hNames : ∀ n ∈ names, ProperName n)
    (hName : ProperName name) :
    push (ofNames names) name =
      ofNames (names ++ [name]) := by
  have hRelative := hasRoot_of_proper hName
  by_cases hNil : names = []
  · subst hNil
    simp [push, hRelative, ofNames]
  · simp [push, hRelative, ofNames_ne_nil,
      getLast?_ofNames hNames hNil, ofNames_concat hNil]

theorem ofComponents_concat
    (parts : List Component)
    (part : Component) :
    ofComponents (parts ++ [part]) =
      push (ofComponents parts) part.asText := by
  simp [ofComponents]

/- The normal form that its components build. -/
theorem ofComponents_normal
    {names : List Text}
    (hNames : ∀ n ∈ names, ProperName n) :
    ofComponents
        (.rootDir :: names.map Component.normal) =
      ofNames names := by
  induction names using List.reverseRecOn with
  | nil => rfl
  | append_singleton names name ih =>
      have hInit : ∀ n ∈ names, ProperName n :=
        fun n hn => hNames n (List.mem_append_left _ hn)
      have hLast : ProperName name :=
        hNames name (by simp)
      rw [List.map_append, List.map_singleton,
        ← List.cons_append, ofComponents_concat, ih hInit]
      exact push_ofNames hInit hLast

/- Popping a normal form drops its last name. -/
theorem pop_ofNames
    {names : List Text}
    (hNames : ∀ n ∈ names, ProperName n) :
    pop (ofNames names) = ofNames names.dropLast := by
  rcases List.eq_nil_or_concat names with
    hNil | ⟨init, last, hConcat⟩
  · subst hNil
    decide
  · have hInit : ∀ n ∈ init, ProperName n := by
      intro n hn
      exact hNames n (by simp [hConcat, hn])
    have hComponents := components_ofNames hNames
    rw [List.concat_eq_append] at hConcat
    subst hConcat
    simp only [List.map_append, List.map_cons,
      List.map_nil] at hComponents
    have hParent :
        parent (ofNames (init ++ [last])) =
          some (ofNames init) := by
      simp only [parent, hComponents]
      rw [← List.cons_append, List.getLast?_concat,
        List.dropLast_concat,
        ofComponents_normal hInit]
    simp [pop, hParent]

/- Prefixes of normal forms are prefixes of names. -/
theorem startsWith_ofNames_iff
    {names base : List Text}
    (hNames : ∀ n ∈ names, ProperName n)
    (hBase : ∀ n ∈ base, ProperName n) :
    startsWith (ofNames names) (ofNames base) = true ↔
      base <+: names := by
  have hInjective : Function.Injective Component.normal := by
    intro left right hEq
    injection hEq
  rw [startsWith, components_ofNames hNames,
    components_ofNames hBase, List.isPrefixOf_iff_prefix,
    List.cons_prefix_cons,
    List.prefix_map_iff_of_injective hInjective]
  simp

end Path

------------------------------------------------------------
-- Relative Paths
------------------------------------------------------------

namespace Path

theorem slash_notMem_of_mem_splitOn
    {p part : Text}
    (hPart : part ∈ p.splitOn '/') :
    '/' ∉ part := by
  intro hMem
  rw [List.splitOn_eq_splitOnP] at hPart
  have hNot := Text.not_of_mem_splitOnP hPart hMem
  simp at hNot

/- The components that a path has below another one. -/
def relativeComponents
    (rel : PathBuf) : List Component :=
  (rel.splitOn '/').filterMap interior

/- They are proper names and steps to the parent. -/
theorem mem_relativeComponents
    {rel : PathBuf}
    {part : Component}
    (hPart : part ∈ relativeComponents rel) :
    part = .parentDir ∨
      ∃ name, part = .normal name ∧ ProperName name := by
  rcases List.mem_filterMap.mp hPart with
    ⟨text, hText, hInterior⟩
  have hFree := slash_notMem_of_mem_splitOn hText
  unfold interior at hInterior
  split at hInterior <;> [cases hInterior; skip]
  next hNotCur =>
    simp only [not_or] at hNotCur
    split at hInterior
    · exact .inl (Option.some.inj hInterior).symm
    next hNotUp =>
      right
      exact ⟨text, (Option.some.inj hInterior).symm,
        hNotCur.1, hFree, hNotCur.2, hNotUp⟩

/- Reading a relative path that was pushed. -/
theorem components_push_ofNames
    {names : List Text}
    {rel : PathBuf}
    (hNames : ∀ n ∈ names, ProperName n)
    (hRel : hasRoot rel = false) :
    components (push (ofNames names) rel) =
      .rootDir :: names.map Component.normal ++
        relativeComponents rel := by
  have hSplit :
      (push (ofNames names) rel).splitOn '/' =
        [] :: (names ++ rel.splitOn '/') := by
    by_cases hNil : names = []
    · subst hNil
      have hPush : push (ofNames []) rel = [] ++ '/' :: rel := by
        simp [push, hRel, ofNames]
      rw [hPush, List.splitOn_append_cons_self]
      simp
    · have hPush :
          push (ofNames names) rel =
            ofNames names ++ '/' :: rel := by
        simp [push, hRel, ofNames_ne_nil,
          getLast?_ofNames hNames hNil]
      rw [hPush, List.splitOn_append_cons_self,
        splitOn_ofNames hNames hNil]
      simp
  have hRooted : hasRoot (push (ofNames names) rel) = true := by
    unfold push
    split
    next hRoot => simp [hRel] at hRoot
    · split <;> rfl
  simp only [components, hSplit, hRooted, if_true,
    List.filterMap_append, filterMap_interior_of_proper hNames,
    relativeComponents]
  simp

theorem hasRoot_trimStartMatches
    (p : Text) :
    hasRoot (Text.trimStartMatches '/' p) = false := by
  unfold Text.trimStartMatches hasRoot
  cases hRest : p.dropWhile (· == '/') with
  | nil => rfl
  | cons c rest =>
      have hHead : ¬ (c == '/') = true := by
        have hNonempty : p.dropWhile (· == '/') ≠ [] := by
          simp [hRest]
        have hNot :=
          List.head_dropWhile_not (· == '/') hNonempty
        simpa [hRest] using hNot
      simpa using hHead

end Path

------------------------------------------------------------
-- Joining A Name
------------------------------------------------------------

namespace Path

/- A proper name is one part between slashes. -/
theorem splitOn_of_proper
    {name : Text}
    (hName : ProperName name) :
    name.splitOn '/' = [name] :=
  List.splitOn_eq_singleton hName.2.1

/- A proper name is a path of one component. -/
theorem components_of_proper
    {name : Text}
    (hName : ProperName name) :
    components name = [.normal name] := by
  simp [components, splitOn_of_proper hName,
    hasRoot_of_proper hName, hName.2.2.1,
    interior_of_proper hName]

/- Parts after a slash come after those before it. -/
theorem components_append_slash
    {p : PathBuf}
    (hNonempty : p ≠ [])
    (rel : PathBuf) :
    components (p ++ '/' :: rel) =
      components p ++ relativeComponents rel := by
  have hRoot : hasRoot (p ++ '/' :: rel) = hasRoot p := by
    cases p with
    | nil => exact (hNonempty rfl).elim
    | cons c p => rfl
  rcases List.exists_cons_of_ne_nil
      (List.splitOn_ne_nil '/' p) with ⟨first, rest, hSplit⟩
  simp only [components, relativeComponents, hRoot,
    List.splitOn_append_cons_self, hSplit, List.cons_append,
    List.filterMap_append, List.append_assoc]

/- Joining a proper name adds it as the last component. -/
theorem components_push
    {name : Text}
    (hName : ProperName name)
    (p : PathBuf) :
    components (push p name) =
      components p ++ [.normal name] := by
  have hRelative := hasRoot_of_proper hName
  have hRel : relativeComponents name = [.normal name] := by
    simp [relativeComponents, splitOn_of_proper hName,
      interior_of_proper hName]
  by_cases hNil : p = []
  · subst hNil
    have hPush : push [] name = name := by
      simp [push, hRelative]
    have hEmpty : components [] = [] := by decide
    rw [hPush, hEmpty, components_of_proper hName]
    rfl
  by_cases hSlash : p.getLast? = some '/'
  · rcases List.getLast?_eq_some_iff.mp hSlash with
      ⟨init, rfl⟩
    have hPush :
        push (init ++ ['/']) name = init ++ '/' :: name := by
      simp [push, hRelative]
    rw [hPush]
    by_cases hInit : init = []
    · subst hInit
      have hRooted := @components_push_ofNames [] name
        (by simp) hRelative
      have hPushed : push (ofNames []) name = '/' :: name := by
        simp [push, hRelative, ofNames]
      have hRoot : components ['/'] = [.rootDir] := by decide
      rw [hPushed, hRel] at hRooted
      rw [List.nil_append, List.nil_append, hRooted, hRoot]
      rfl
    · rw [components_append_slash hInit,
        components_append_slash hInit, hRel]
      simp [relativeComponents, interior]
  · have hPush : push p name = p ++ '/' :: name := by
      simp [push, hRelative, hNil, hSlash]
    rw [hPush, components_append_slash hNil, hRel]

/-
  A path that was joined with a name is the name after a
  text that does not depend on it.
-/
theorem push_eq_append
    {p : PathBuf} :
    ∃ front, ∀ name, ProperName name →
      push p name = front ++ name := by
  by_cases hEnds : p = [] ∨ p.getLast? = some '/'
  · refine ⟨p, fun name hName => ?_⟩
    simp [push, hasRoot_of_proper hName, hEnds]
  · refine ⟨p ++ ['/'], fun name hName => ?_⟩
    simp [push, hasRoot_of_proper hName, hEnds]

theorem fileName_push
    {name : Text}
    (hName : ProperName name)
    (p : PathBuf) :
    fileName (push p name) = some name := by
  simp [fileName, components_push hName]

end Path

------------------------------------------------------------
-- Extensions
------------------------------------------------------------

namespace Path

/- `Path::file_stem`, for a path that is one file name. -/
def fileStem
    (name : Text) : Text :=
  if name = ['.', '.'] then
    name
  else
    match name.rsplitOnce '.' with
    | some (before, _) =>
        if before = [] then name else before
    | none => name

/- `Path::with_extension`, for a path that is one file name. -/
def withExtension
    (name extension : Text) : Text :=
  if extension = [] then
    fileStem name
  else
    fileStem name ++ '.' :: extension

/- The extension of a name gives way to the new one. -/
theorem withExtension_append
    {stem extension extension' : Text}
    (hStem : stem ≠ [])
    (hDot : '.' ∉ extension)
    (hExtension : extension ≠ [])
    (hExtension' : extension' ≠ []) :
    withExtension (stem ++ '.' :: extension) extension' =
      stem ++ '.' :: extension' := by
  have hDots : stem ++ '.' :: extension ≠ ['.', '.'] := by
    intro hEq
    have hLength := congrArg List.length hEq
    have hOne := List.length_pos_of_ne_nil hStem
    have hTwo := List.length_pos_of_ne_nil hExtension
    simp at hLength
    omega
  rw [withExtension, if_neg hExtension', fileStem,
    if_neg hDots, Text.rsplitOnce_append hDot]
  simp [hStem]

/-
  Drop the slashes and the parts `.` at the end of a path,
  given and returned from its end.
-/
def dropTrailing : Text → Text
| '/' :: rest => dropTrailing rest
| '.' :: '/' :: rest => dropTrailing rest
| rest => rest

/-
  `Path::with_extension` for any path, which sets the
  extension of a copy. What follows the file name in the
  text is dropped with the old extension.
-/
def setExtension
    (p : PathBuf)
    (extension : Text) : PathBuf :=
  match fileName p with
  | none => p
  | some name =>
      let text := (dropTrailing p.reverse).reverse
      text.take (text.length - name.length) ++
        withExtension name extension

/- Nothing follows a proper name at the end. -/
theorem dropTrailing_of_proper
    {name : Text}
    (hName : ProperName name)
    (front : Text) :
    dropTrailing (front ++ name).reverse =
      (front ++ name).reverse := by
  rcases hName with ⟨hNil, hSlash, hDot, -⟩
  rw [List.reverse_append]
  have hMem : '/' ∉ name.reverse := by simpa using hSlash
  have hNil' : name.reverse ≠ [] := by simpa using hNil
  have hDot' : name.reverse ≠ ['.'] := by
    intro hEq
    exact hDot (List.reverse_eq_iff.mp hEq)
  cases hEnd : name.reverse with
  | nil => exact (hNil' hEnd).elim
  | cons c rest =>
      cases rest with
      | nil =>
          have hSlash' : c ≠ '/' := by
            rintro rfl
            simp [hEnd] at hMem
          have hDot'' : c ≠ '.' := by
            rintro rfl
            exact hDot' hEnd
          simp [dropTrailing, hSlash', hDot'']
      | cons d rest =>
          rw [hEnd] at hMem
          simp only [List.mem_cons, not_or] at hMem
          simp [dropTrailing, Ne.symm hMem.1, Ne.symm hMem.2.1]

/- A joined name changes its extension where it is. -/
theorem setExtension_push
    {name extension : Text}
    (hName : ProperName name)
    (hNew : ProperName (withExtension name extension))
    (p : PathBuf) :
    setExtension (push p name) extension =
      push p (withExtension name extension) := by
  rcases push_eq_append (p := p) with ⟨front, hFront⟩
  have hText := dropTrailing_of_proper hName front
  rw [setExtension, fileName_push hName, hFront _ hName,
    hFront _ hNew]
  simp only [hText, List.reverse_reverse, List.length_append,
    Nat.add_sub_cancel, List.take_left]

end Path
