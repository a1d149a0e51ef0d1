import Sshdt.Sftp.Handles

/-
  The answers of `realpath` (`src/sftp.rs`).

  `to_client_path` encodes a real path for the client and
  `resolve` decodes what the client sends back. Under a jail
  the answer spells the names below the root, and without
  one it is the real path itself. Two paths are the same for
  `std::path` when their components are.

  Key definitions include:
    * `SftpSession.Anchored`
    * `SftpSession.canonical`

  Key theorems include:
    * `FileSystem.canonicalize_idem`
    * `FileTree.walk_trailing_cur`
    * `SftpSession.resolve_below`
    * `SftpSession.realpath_stable`
-/

------------------------------------------------------------
-- Canonical Paths
------------------------------------------------------------

namespace FileSystem

theorem canonicalize_eq_ok_iff
    {fs : FileSystem}
    {p canon : PathBuf} :
    fs.canonicalize p = .ok canon ↔
      ∃ loc, fs.locate p = .ok loc ∧ canon = loc.toPath := by
  unfold canonicalize
  cases fs.locate p with
  | error kind => simp [Except.map]
  | ok loc => simp [Except.map, eq_comm]

/- A canonical path is its own canonical path. -/
theorem canonicalize_idem
    {fs : FileSystem}
    {p canon : PathBuf}
    (hCanon : fs.canonicalize p = .ok canon) :
    fs.canonicalize canon = .ok canon := by
  rcases canonicalize_eq_ok_iff.mp hCanon with
    ⟨loc, hLocate, rfl⟩
  rw [canonicalize_eq_ok_iff]
  refine ⟨loc, ?_, rfl⟩
  rw [locate_eq_ok_iff]
  exact resolvePath_of_locate true hLocate

end FileSystem

------------------------------------------------------------
-- A Final Slash And A Final Dot
------------------------------------------------------------

namespace Walk

/- The object that a walk ends at. -/
def found : Walk → Option Loc
| .existing loc => some loc
| _ => none

theorem found_eq_some_iff
    {walk : Walk}
    {loc : Loc} :
    walk.found = some loc ↔ walk = .existing loc := by
  cases walk <;> simp [found]

end Walk

namespace FileTree

/-
  A final slash asks for a directory, and so does a final
  dot: both lead to the same objects.
-/
theorem walkWith_trailing_cur
    {onLink : Loc → List Step → Walk}
    {follow : Bool}
    {root : FileTree}
    (hOnLink :
      ∀ start steps,
        (onLink start (steps ++ [.trailing])).found =
          (onLink start (steps ++ [.cur])).found)
    (steps : List Step) :
    ∀ loc,
      (walkWith onLink follow root loc
          (steps ++ [.trailing])).found =
        (walkWith onLink follow root loc
          (steps ++ [.cur])).found := by
  induction steps with
  | nil =>
      intro loc
      rfl
  | cons step rest ih =>
      intro loc
      cases step with
      | cur => exact ih loc
      | trailing => exact ih loc
      | up => exact ih loc.dropLast
      | name n =>
          simp only [List.cons_append, walkWith]
          split
          · split <;> split <;> rfl
          · exact ih (loc ++ [n])
          · simp
          next target hLookup =>
            have hLong :
                ∀ step, (rest ++ [step]).isEmpty = false := by
              intro step
              simp
            simp only [hLong, Bool.false_and]
            split
            · rfl
            · split
              · rfl
              · simp only [linkSteps, ← List.append_assoc]
                exact hOnLink _ _

theorem walk_trailing_cur
    (follow : Bool)
    (root : FileTree)
    (links : Nat) :
    ∀ loc steps,
      (root.walk follow links loc
          (steps ++ [.trailing])).found =
        (root.walk follow links loc
          (steps ++ [.cur])).found := by
  induction links with
  | zero =>
      intro loc steps
      exact walkWith_trailing_cur (fun _ _ => rfl) steps loc
  | succ links ih =>
      intro loc steps
      exact walkWith_trailing_cur (fun s t => ih s t) steps loc

end FileTree

namespace Path

/- Joining the empty path, and joining `.`. -/
theorem push_nil_dot
    {start : PathBuf}
    (hRoot : hasRoot start = true) :
    ∃ front,
      push start [] = front ++ '/' :: [] ∧
        push start ['.'] = front ++ '/' :: ['.'] := by
  have hNonempty : start ≠ [] := by
    rintro rfl
    cases hRoot
  have hNil : hasRoot [] = false := rfl
  have hDot : hasRoot ['.'] = false := by decide
  by_cases hSlash : start.getLast? = some '/'
  · rcases List.getLast?_eq_some_iff.mp hSlash with
      ⟨front, rfl⟩
    refine ⟨front, ?_, ?_⟩
    · simp [push, hNil]
    · simp [push, hDot]
  · refine ⟨start, ?_, ?_⟩
    · simp [push, hNil, hNonempty, hSlash]
    · simp [push, hDot, hNonempty, hSlash]

/- A path joined to an absolute one is absolute. -/
theorem hasRoot_push
    {start rel : PathBuf}
    (hRoot : hasRoot start = true) :
    hasRoot (push start rel) = true := by
  unfold push
  cases start with
  | nil => cases hRoot
  | cons c start =>
      split
      next hRel => exact hRel
      · split <;> exact hRoot

/- Both are the same path. -/
theorem components_push_dot
    {start : PathBuf}
    (hRoot : hasRoot start = true) :
    components (push start ['.']) =
      components (push start []) := by
  rcases push_nil_dot hRoot with ⟨front, hNil, hDot⟩
  have hSame :
      hasRoot (front ++ '/' :: ['.']) =
        hasRoot (front ++ '/' :: []) := by
    cases front <;> rfl
  rw [hNil, hDot]
  unfold components
  rw [hSame, List.splitOn_append_cons_self,
    List.splitOn_append_cons_self]
  have hDotParts : (['.'] : Text).splitOn '/' = [['.']] := by
    decide
  cases hFront : List.splitOn '/' front with
  | nil => exact absurd hFront (List.splitOn_ne_nil _ _)
  | cons first rest =>
      simp [hDotParts, interior]

end Path

namespace FileSystem

/- They lead to the same object. -/
theorem locate_push_dot
    (fs : FileSystem)
    {start : PathBuf}
    {loc : Loc}
    (hRoot : Path.hasRoot start = true) :
    fs.locate (Path.push start ['.']) = .ok loc ↔
      fs.locate (Path.push start []) = .ok loc := by
  rcases Path.push_nil_dot hRoot with ⟨front, hNil, hDot⟩
  rw [hNil, hDot, locate_eq_ok_iff, locate_eq_ok_iff,
    ← Walk.found_eq_some_iff, ← Walk.found_eq_some_iff]
  have hStart :
      ∀ rest, Path.hasRoot (front ++ '/' :: rest) = true := by
    intro rest
    have hHead := congrArg Path.hasRoot hNil
    rw [Path.hasRoot_push hRoot] at hHead
    cases front with
    | nil => rfl
    | cons c front => exact hHead.symm
  have hNothing : Step.ofPart [] = none := by decide
  have hSlash :
      Step.ofPath (front ++ '/' :: []) =
        (List.splitOn '/' front).filterMap Step.ofPart ++
          [.trailing] := by
    simp [Step.ofPath, List.splitOn_append_cons_self,
      hNothing]
  have hCur :
      Step.ofPath (front ++ '/' :: ['.']) =
        (List.splitOn '/' front).filterMap Step.ofPart ++
          [.cur] := by
    have hDotParts : (['.'] : Text).splitOn '/' = [['.']] := by
      decide
    simp [Step.ofPath, List.splitOn_append_cons_self,
      hDotParts, Step.ofPart]
  unfold resolvePath
  by_cases hNul : '\x00' ∈ front
  · simp [hNul]
  · simp only [List.mem_append, hNul, List.mem_cons,
      List.not_mem_nil, hStart, hSlash, hCur]
    simp [FileTree.walk_trailing_cur]

end FileSystem

------------------------------------------------------------
-- Answers Without A Jail
------------------------------------------------------------

namespace Sshdt

namespace SftpSession

/-
  A session under a canonical root, or without a root and
  with an absolute start directory.
-/
def Anchored
    (session : SftpSession) : Prop :=
  (session.root = none ∧
    Path.hasRoot session.startDir = true) ∨
    ∃ root : Loc, session.root = some root.toPath

/- `canonicalize().unwrap_or(real)`. -/
def canonical
    (fs : FileSystem)
    (real : PathBuf) : PathBuf :=
  match fs.canonicalize real with
  | .ok canon => canon
  | .error _ => real

/- The path that `realpath` reads for a client path. -/
def requested
    (path : Text) : Text :=
  if path.isEmpty then ['.'] else path

/- `realpath` shows what it resolved. -/
theorem realpath_reply
    {session : SftpSession}
    {fs : FileSystem}
    {p : Text}
    {reply : SftpAnswer} :
    (session.realpath fs p).reply = .ok reply ↔
      ∃ real,
        session.resolve fs (requested p) = .ok real ∧
          reply =
            .reply (.name
              [.dummy (session.toClientPath
                (canonical fs real))]) := by
  have hReply :
      (session.realpath fs p).reply =
        (session.resolve fs (requested p)).map fun real =>
          .reply (.name
            [.dummy (session.toClientPath
              (canonical fs real))]) := by
    unfold realpath requested
    simp only
    generalize session.resolve fs _ = resolved
    cases resolved <;> rfl
  rw [hReply]
  cases session.resolve fs (requested p) with
  | error code => simp [Except.map]
  | ok real =>
      rw [Except.map, Except.ok.injEq]
      constructor
      · rintro rfl
        exact ⟨real, rfl, rfl⟩
      · rintro ⟨other, hSame, hShown⟩
        cases hSame
        exact hShown.symm

/- The object of a canonical path is that of the path. -/
theorem canonicalize_canonical
    (fs : FileSystem)
    (real : PathBuf) :
    fs.canonicalize (canonical fs real) =
      fs.canonicalize real := by
  unfold canonical
  cases hCanon : fs.canonicalize real with
  | error kind => simp [hCanon]
  | ok canon => exact FileSystem.canonicalize_idem hCanon

theorem canonical_canonical
    (fs : FileSystem)
    (real : PathBuf) :
    canonical fs (canonical fs real) = canonical fs real := by
  cases hCanon : fs.canonicalize real with
  | error kind => simp [canonical, hCanon]
  | ok canon =>
      have hAgain := FileSystem.canonicalize_idem hCanon
      simp [canonical, hCanon, hAgain]

/- The canonical path of an absolute path is absolute. -/
theorem hasRoot_canonical
    {fs : FileSystem}
    {real : PathBuf}
    (hRoot : Path.hasRoot real = true) :
    Path.hasRoot (canonical fs real) = true := by
  unfold canonical
  split
  next canon hCanon =>
    rcases FileSystem.canonicalize_eq_ok_iff.mp hCanon with
      ⟨loc, _, rfl⟩
    exact Path.hasRoot_ofNames _
  · exact hRoot

/- An absolute path stands for itself. -/
theorem resolve_absolute
    {session : SftpSession}
    {fs : FileSystem}
    {q : Text}
    (hFree : session.root = none)
    (hRoot : Path.hasRoot q = true) :
    session.resolve fs q = .ok q := by
  simp [resolve, hFree, hRoot]

/- A path that `resolve` gives is absolute. -/
theorem hasRoot_resolve
    {session : SftpSession}
    {fs : FileSystem}
    {p : Text}
    {real : PathBuf}
    (hFree : session.root = none)
    (hStart : Path.hasRoot session.startDir = true)
    (hResolve : session.resolve fs p = .ok real) :
    Path.hasRoot real = true := by
  simp only [resolve, hFree] at hResolve
  split at hResolve <;> cases hResolve
  · assumption
  · exact Path.hasRoot_push hStart

theorem requested_of_ne_nil
    {q : Text}
    (hNonempty : q ≠ []) :
    requested q = q := by
  simp [requested, hNonempty]

/-
  What the empty path and the dot resolve to: the same
  object, and the same path.
-/
theorem resolve_requested
    {session : SftpSession}
    {fs : FileSystem}
    {p : Text}
    {real : PathBuf}
    (hFree : session.root = none)
    (hStart : Path.hasRoot session.startDir = true)
    (hResolve :
      session.resolve fs (requested p) = .ok real) :
    ∃ given,
      session.resolve fs p = .ok given ∧
        (∀ canon,
          fs.canonicalize given = .ok canon ↔
            fs.canonicalize real = .ok canon) ∧
        Path.components real = Path.components given := by
  by_cases hNil : p = []
  · subst hNil
    have hDot : Path.hasRoot ['.'] = false := by decide
    have hNone : Path.hasRoot [] = false := rfl
    simp only [requested, List.isEmpty_nil, if_true, resolve,
      hFree, hDot, Bool.false_eq_true, if_false,
      Except.ok.injEq] at hResolve
    subst hResolve
    refine ⟨Path.push session.startDir [], ?_, ?_,
      Path.components_push_dot hStart⟩
    · simp [resolve, hFree, hNone]
    · intro canon
      simp only [FileSystem.canonicalize_eq_ok_iff,
        fs.locate_push_dot hStart]
  · rw [requested_of_ne_nil hNil] at hResolve
    exact ⟨real, hResolve, fun _ => Iff.rfl, rfl⟩

end SftpSession

end Sshdt

------------------------------------------------------------
-- Paths Below A Normal Form
------------------------------------------------------------

namespace Path

/- The relative path with the given names. -/
theorem ofComponents_relative
    {names : List Text}
    (hNames : ∀ n ∈ names, ProperName n) :
    ofComponents (names.map Component.normal) =
      ['/'].intercalate names := by
  induction names using List.reverseRecOn with
  | nil => rfl
  | append_singleton names name ih =>
      have hInit : ∀ n ∈ names, ProperName n :=
        fun n hn => hNames n (List.mem_append_left _ hn)
      have hLast : ProperName name := hNames name (by simp)
      rw [List.map_append, List.map_singleton,
        ofComponents_concat, ih hInit]
      -- Both sides behind a slash are the absolute path.
      have hPush := push_ofNames hInit hLast
      have hRelative : hasRoot name = false :=
        hasRoot_of_proper hLast
      by_cases hNil : names = []
      · subst hNil
        simp [push, Component.asText, hRelative]
      · have hEnd := getLast?_ofNames hInit hNil
        have hSome : ['/'].intercalate names ≠ [] := by
          intro hEmpty
          simp [ofNames, hEmpty] at hEnd
        have hEnd' :
            (['/'].intercalate names).getLast? ≠
              some '/' := by
          rw [ofNames, List.getLast?_cons] at hEnd
          intro hSlash
          simp [hSlash] at hEnd
        simp only [push, hRelative, ofNames_ne_nil, hEnd,
          Bool.false_eq_true, if_false, false_or] at hPush
        simp only [push, Component.asText, hRelative, hSome,
          hEnd', Bool.false_eq_true, if_false, false_or]
        simpa [ofNames] using hPush

/- What is left of a path below a normal form. -/
theorem stripPrefix_below
    {base below : List Text}
    (hBase : ∀ n ∈ base, ProperName n)
    (hBelow : ∀ n ∈ below, ProperName n) :
    stripPrefix (ofNames (base ++ below)) (ofNames base) =
      some (['/'].intercalate below) := by
  have hAll : ∀ n ∈ base ++ below, ProperName n := by
    intro n hMem
    rcases List.mem_append.mp hMem with hOld | hNew
    · exact hBase n hOld
    · exact hBelow n hNew
  rw [stripPrefix, components_ofNames hAll,
    components_ofNames hBase, List.map_append,
    ← List.cons_append,
    List.dropPrefix?_append_of_beq _ (beq_self_eq_true _),
    Option.map_some, ofComponents_relative hBelow]

/- Reading a normal form without its first slash. -/
theorem relativeComponents_ofNames
    {names : List Text}
    (hNames : ∀ n ∈ names, ProperName n) :
    relativeComponents
        (Text.trimStartMatches '/' (ofNames names)) =
      names.map Component.normal := by
  cases names with
  | nil => decide
  | cons name rest =>
      have hHead : ProperName name := hNames name (by simp)
      have hTrim :
          Text.trimStartMatches '/' (ofNames (name :: rest)) =
            ['/'].intercalate (name :: rest) := by
        have hRelative := hasRoot_of_proper hHead
        cases name with
        | nil => exact absurd rfl hHead.1
        | cons c name =>
            have hSlash : (c == '/') = false := by
              simpa [hasRoot] using hRelative
            cases rest <;>
              simp [ofNames, Text.trimStartMatches, hSlash]
      have hFree : ∀ n ∈ name :: rest, '/' ∉ n :=
        fun n hn => (hNames n hn).2.1
      rw [hTrim, relativeComponents,
        List.splitOn_intercalate '/' hFree (by simp)]
      exact filterMap_interior_of_proper hNames

end Path

------------------------------------------------------------
-- Answers Under A Jail
------------------------------------------------------------

namespace Sshdt

namespace SftpSession

section Jailed

variable {session : SftpSession}
variable {fs : FileSystem}
variable {root : Loc}

/- What `resolve` lets through spells a path below. -/
theorem startsWith_of_resolve
    {p : Text}
    {real : PathBuf}
    (hJail : session.root = some root.toPath)
    (hResolve : session.resolve fs p = .ok real) :
    Path.startsWith (jailedPath root.toPath p)
      root.toPath = true := by
  by_contra hOutside
  rw [Bool.not_eq_true] at hOutside
  unfold jailedPath at hOutside
  simp [resolve, hJail, hOutside] at hResolve

/- What `resolve` lets through is below the root. -/
theorem resolve_names
    {p : Text}
    {real : PathBuf}
    (hJail : session.root = some root.toPath)
    (hResolve : session.resolve fs p = .ok real) :
    ∃ below : List Text,
      (∀ n ∈ below, Path.ProperName n) ∧
        real = Path.ofNames (root.names ++ below) ∧
        ∀ canon, fs.canonicalize real = .ok canon →
          canon = real := by
  rcases resolve_jailed hJail hResolve with
    ⟨loc, hLocate, hInside, rfl⟩ | ⟨kind, hLocate, rfl⟩
  · rcases hInside with ⟨rest, rfl⟩
    refine ⟨Loc.names rest, Loc.proper rest, ?_, ?_⟩
    · simp [Loc.toPath, Loc.names]
    · intro canon hCanon
      have hFound :
          fs.canonicalize (jailedPath root.toPath p) =
            .ok (Loc.toPath (root ++ rest)) := by
        simp [FileSystem.canonicalize, hLocate, Except.map]
      rw [FileSystem.canonicalize_idem hFound] at hCanon
      exact (Except.ok.inj hCanon).symm
  · rcases jailedPath_eq root.proper p with ⟨hPath, hProper⟩
    have hStarts := startsWith_of_resolve hJail hResolve
    unfold Loc.toPath at hStarts ⊢
    rw [hPath, Path.startsWith_ofNames_iff hProper
      root.proper] at hStarts
    rcases hStarts with ⟨below, hBelow⟩
    rw [← hBelow] at hProper
    refine ⟨below, ?_, ?_, ?_⟩
    · intro n hMem
      exact hProper n (List.mem_append_right _ hMem)
    · rw [hPath, hBelow]
    · intro canon hCanon
      rcases FileSystem.canonicalize_eq_ok_iff.mp hCanon with
        ⟨loc, hFound, _⟩
      unfold Loc.toPath at hLocate
      rw [hLocate] at hFound
      cases hFound

/- A path below the root is shown by its names. -/
theorem toClientPath_below
    {below : List Text}
    (hJail : session.root = some root.toPath)
    (hBelow : ∀ n ∈ below, Path.ProperName n) :
    session.toClientPath
        (Path.ofNames (root.names ++ below)) =
      Path.ofNames below := by
  have hNotDot : Path.ofNames below ≠ ['/', '.'] := by
    intro hDot
    have hParts := congrArg Path.components hDot
    have hRoot :
        Path.components ['/', '.'] = [.rootDir] := by
      decide
    rw [Path.components_ofNames hBelow, hRoot,
      List.cons.injEq, List.map_eq_nil_iff] at hParts
    rw [hParts.2] at hDot
    cases hDot
  simp only [toClientPath, hJail, Loc.toPath,
    Path.stripPrefix_below root.proper hBelow,
    Option.getD_some]
  exact if_neg hNotDot

/- What is shown is read back as what it was made from. -/
theorem jailedPath_below
    {below : List Text}
    (hBelow : ∀ n ∈ below, Path.ProperName n) :
    jailedPath root.toPath (Path.ofNames below) =
      Path.ofNames (root.names ++ below) := by
  have hPath :=
    (jailedPath_eq root.proper (Path.ofNames below)).1
  rw [clientParts, Path.relativeComponents_ofNames hBelow,
    descendAll_normal] at hPath
  exact hPath

/- So `resolve` gives the path that was shown. -/
theorem resolve_below
    {below : List Text}
    (hJail : session.root = some root.toPath)
    (hBelow : ∀ n ∈ below, Path.ProperName n)
    (hCanon :
      ∀ canon,
        fs.canonicalize
            (Path.ofNames (root.names ++ below)) =
          .ok canon →
        canon = Path.ofNames (root.names ++ below)) :
    session.resolve fs (Path.ofNames below) =
      .ok (Path.ofNames (root.names ++ below)) := by
  have hPath :
      normalizeLexical (Path.push root.toPath
        (Text.trimStartMatches '/' (Path.ofNames below))) =
        Path.ofNames (root.names ++ below) :=
    jailedPath_below hBelow
  have hProper :
      ∀ n ∈ root.names ++ below, Path.ProperName n := by
    intro n hMem
    rcases List.mem_append.mp hMem with hOld | hNew
    · exact root.proper n hOld
    · exact hBelow n hNew
  have hStarts :
      Path.startsWith (Path.ofNames (root.names ++ below))
        root.toPath = true := by
    unfold Loc.toPath
    rw [Path.startsWith_ofNames_iff hProper root.proper]
    exact List.prefix_append _ _
  simp only [resolve, hJail, hPath, hStarts]
  cases hFound :
      fs.canonicalize
        (Path.ofNames (root.names ++ below)) with
  | error kind => rfl
  | ok canon =>
      rw [hCanon canon hFound]
      simp [hStarts]

/- Under a jail the empty path and the dot are one path. -/
theorem resolve_requested_jailed
    (hJail : session.root = some root.toPath)
    (p : Text) :
    session.resolve fs (requested p) =
      session.resolve fs p := by
  by_cases hNil : p = []
  · subst hNil
    have hSame :
        jailedPath root.toPath ['.'] =
          jailedPath root.toPath [] := by
      have hDot := (jailedPath_eq root.proper ['.']).1
      have hNone := (jailedPath_eq root.proper []).1
      unfold Loc.toPath
      rw [hDot, hNone]
      rfl
    unfold jailedPath at hSame
    simp only [requested, List.isEmpty_nil, if_true, resolve,
      hJail, hSame]
  · rw [requested_of_ne_nil hNil]

end Jailed

end SftpSession

end Sshdt

------------------------------------------------------------
-- Stable Answers
------------------------------------------------------------

namespace Sshdt

namespace SftpSession

/-
  Answers of `realpath` are stable and name the same object.

  `resolve` takes the answer to the object that it takes the
  request to, or to the same path where nothing exists, and
  `realpath` gives the answer back unchanged. Under a jail
  the answer is a slash and the path of the object below the
  root.
-/
theorem realpath_stable
    {session : SftpSession}
    {fs : FileSystem}
    {p q : Text}
    (hSession : session.Anchored)
    (hAnswer :
      (session.realpath fs p).reply =
        .ok (.reply (.name [.dummy q]))) :
    ∃ real real',
      session.resolve fs p = .ok real ∧
        session.resolve fs q = .ok real' ∧
        (∀ canon,
          fs.canonicalize real = .ok canon ↔
            fs.canonicalize real' = .ok canon) ∧
        ((∀ canon, fs.canonicalize real ≠ .ok canon) →
          Path.components real' = Path.components real) ∧
        (session.realpath fs q).reply =
          .ok (.reply (.name [.dummy q])) ∧
        ∀ root, session.root = some root →
          ∃ below, Path.stripPrefix real' root = some below ∧
            real' = real ∧ q = '/' :: below := by
  rcases realpath_reply.mp hAnswer with
    ⟨real, hResolve, hShown⟩
  have hQ : q = session.toClientPath (canonical fs real) := by
    simpa [SftpFile.dummy] using hShown
  rcases hSession with ⟨hFree, hStart⟩ | ⟨root, hJail⟩
  · have hReal := hasRoot_resolve hFree hStart hResolve
    have hCanon : q = canonical fs real := by
      simpa [toClientPath, hFree] using hQ
    have hRoot : Path.hasRoot q = true :=
      hCanon ▸ hasRoot_canonical hReal
    have hNonempty : q ≠ [] := by
      rintro rfl
      cases hRoot
    have hBack := @resolve_absolute session fs q hFree hRoot
    rcases resolve_requested hFree hStart hResolve with
      ⟨given, hGiven, hObject, hPath⟩
    refine ⟨given, q, hGiven, hBack, ?_, ?_, ?_, ?_⟩
    · intro canon
      rw [hObject, hCanon, canonicalize_canonical]
    · intro hNothing
      have hSame : q = real := by
        cases hFound : fs.canonicalize real with
        | error kind => simpa [canonical, hFound] using hCanon
        | ok canon =>
            exact absurd ((hObject canon).mpr hFound)
              (hNothing canon)
      rw [hSame, hPath]
    · rw [realpath_reply, requested_of_ne_nil hNonempty]
      refine ⟨q, hBack, ?_⟩
      have hSame : canonical fs q = q := by
        rw [hCanon, canonical_canonical]
      simp [hSame, toClientPath, hFree]
    · intro root hJail
      rw [hFree] at hJail
      cases hJail
  · rw [resolve_requested_jailed hJail] at hResolve
    rcases resolve_names hJail hResolve with
      ⟨below, hBelow, rfl, hCanon⟩
    have hSame :
        canonical fs (Path.ofNames (root.names ++ below)) =
          Path.ofNames (root.names ++ below) := by
      unfold canonical
      split
      next canon hFound => exact hCanon canon hFound
      · rfl
    rw [hSame, toClientPath_below hJail hBelow] at hQ
    subst hQ
    have hBack := resolve_below hJail hBelow hCanon
    refine ⟨_, _, hResolve, hBack, fun _ => Iff.rfl,
      fun _ => rfl, ?_, ?_⟩
    · rw [realpath_reply,
        requested_of_ne_nil (Path.ofNames_ne_nil _)]
      refine ⟨_, hBack, ?_⟩
      rw [hSame, toClientPath_below hJail hBelow]
    · intro root' hJail'
      rw [hJail, Option.some.injEq] at hJail'
      subst hJail'
      exact ⟨_, Path.stripPrefix_below root.proper hBelow,
        rfl, rfl⟩

/-
  With a link `/jail/link` to `data`, the client is told the
  path of the file.
-/
theorem realpath_through_link_stable :
    let fs := linkedFs "data".toList
    (jailedSession fs).root = some (Loc.toPath [jailName]) ∧
      ((jailedSession fs).realpath fs
        "./link".toList).reply =
        .ok (.reply (.name [.dummy "/data".toList])) ∧
      ((jailedSession fs).realpath fs
        "/data".toList).reply =
        .ok (.reply (.name [.dummy "/data".toList])) := by
  have hRoot :
      (jailedSession (linkedFs "data".toList)).root =
        some (Loc.toPath [jailName]) := by
    decide +kernel
  have hAnswer :
      ((jailedSession (linkedFs "data".toList)).realpath
        (linkedFs "data".toList) "./link".toList).reply =
        .ok (.reply (.name [.dummy "/data".toList])) := by
    decide +kernel
  refine ⟨hRoot, hAnswer, ?_⟩
  rcases realpath_stable (Or.inr ⟨[jailName], hRoot⟩)
    hAnswer with ⟨_, _, _, _, _, _, hAgain, _⟩
  exact hAgain

end SftpSession

end Sshdt
