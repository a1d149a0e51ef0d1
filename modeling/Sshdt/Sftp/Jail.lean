import Sshdt.Lib.Machine
import Sshdt.Sftp.Session

/-
  What the root of an SFTP session keeps in (`resolve` and
  the requests of `src/sftp.rs`).

  `resolve` looks at the object that a client path leads to
  when there is one, and at the spelling of the path alone
  when there is none. The first part keeps every request on
  an existing object inside the root, and also moves the
  requests that mean a link over to the link's target. The
  second part lets a request out through a link to a
  directory outside, as long as nothing exists where it ends,
  and nothing keeps a request from removing the root itself.

  Key definitions include:
    * `reached`
    * `StrayLink`
    * `FreeOutside`
    * `RootItself`
    * `Escapes`
    * `Contained`
    * `SameEffect`
    * `RenamesAlike`
    * `ActsAlike`

  Key theorems include:
    * `resolvePath_resolve`
    * `handle_within_iff`
    * `handle_outside`
    * `jailed_run_outside`
    * `jail_containment_iff`
    * `renameAt_alike_iff`
    * `handle_sameEffect_iff`
    * `jail_transparent_iff`
-/

------------------------------------------------------------
-- Resolving In A Jail
------------------------------------------------------------

namespace Sshdt

/-
  Where a jailed path is taken: to the object it leads to,
  or, without one, to where its own walk ends.
-/
def reached
    (fs : FileSystem)
    (follow : Bool)
    (p : PathBuf) : Walk :=
  match fs.locate p with
  | .ok loc => .existing loc
  | .error _ => fs.resolvePath follow p

theorem reached_of_ok
    {fs : FileSystem}
    {follow : Bool}
    {p : PathBuf}
    {loc : Loc}
    (hLocate : fs.locate p = .ok loc) :
    reached fs follow p = .existing loc := by
  simp [reached, hLocate]

theorem reached_of_error
    {fs : FileSystem}
    {follow : Bool}
    {p : PathBuf}
    {kind : ErrorKind}
    (hLocate : fs.locate p = .error kind) :
    reached fs follow p = fs.resolvePath follow p := by
  simp [reached, hLocate]

/- Following the last link, nothing is changed. -/
theorem reached_follow
    (fs : FileSystem)
    (p : PathBuf) :
    reached fs true p = fs.resolvePath true p := by
  cases hLocate : fs.locate p with
  | error kind => exact reached_of_error hLocate
  | ok loc =>
      rw [reached_of_ok hLocate]
      exact (FileSystem.locate_eq_ok_iff.mp hLocate).symm

/- A free entry is free however the path is resolved. -/
theorem locate_of_missing
    {fs : FileSystem}
    {follow : Bool}
    {p : PathBuf}
    {d : Loc}
    {n : EntryName}
    {slash : Bool}
    (hWalk : fs.resolvePath follow p = .missing d n slash) :
    fs.locate p = .error .notFound := by
  have hFollow : fs.resolvePath true p = .missing d n slash := by
    cases follow with
    | true => exact hWalk
    | false =>
        rcases fs.resolvePath_follow_cases p with
          hSame | ⟨loc, target, hLink, -⟩
        · exact hSame.trans hWalk
        · rw [hLink] at hWalk
          cases hWalk
  simp [FileSystem.locate, hFollow]

theorem reached_eq_missing_iff
    {fs : FileSystem}
    {follow : Bool}
    {p : PathBuf}
    {d : Loc}
    {n : EntryName}
    {slash : Bool} :
    reached fs follow p = .missing d n slash ↔
      fs.resolvePath follow p = .missing d n slash := by
  constructor
  · intro hReached
    cases hLocate : fs.locate p with
    | error kind => rwa [reached_of_error hLocate] at hReached
    | ok loc =>
        rw [reached_of_ok hLocate] at hReached
        cases hReached
  · intro hWalk
    rw [reached_of_error (locate_of_missing hWalk), hWalk]

/-
  An object that is reached was located, or it is a link
  that leads nowhere.
-/
theorem reached_eq_existing
    {fs : FileSystem}
    {follow : Bool}
    {p : PathBuf}
    {loc : Loc}
    (hReached : reached fs follow p = .existing loc) :
    fs.locate p = .ok loc ∨
      (follow = false ∧ (∃ kind, fs.locate p = .error kind) ∧
        fs.resolvePath false p = .existing loc ∧
        ∃ target, fs.lookup loc = some (.symlink target)) := by
  cases hLocate : fs.locate p with
  | ok found =>
      rw [reached_of_ok hLocate] at hReached
      exact .inl (by rw [Walk.existing.inj hReached])
  | error kind =>
      rw [reached_of_error hLocate] at hReached
      have hNotFound :
          fs.resolvePath true p ≠ .existing loc := by
        intro hFollow
        rw [FileSystem.locate_eq_ok_iff.mpr hFollow] at hLocate
        cases hLocate
      cases follow with
      | true => exact (hNotFound hReached).elim
      | false =>
          rcases fs.resolvePath_follow_cases p with
            hSame | ⟨link, target, hLink, hTarget⟩
          · exact (hNotFound (hSame.trans hReached)).elim
          · rw [hReached] at hLink
            rw [← Walk.existing.inj hLink] at hTarget
            exact .inr
              ⟨rfl, ⟨kind, rfl⟩, hReached, target, hTarget⟩

/- `SftpSession::new` with a root that exists. -/
theorem new_root
    {host : Host}
    {fs : FileSystem}
    {rootPath : PathBuf}
    {root : Loc}
    (hRoot : fs.locate rootPath = .ok root) :
    (SftpSession.new host fs (some rootPath)).root =
      some root.toPath := by
  simp [SftpSession.new, FileSystem.canonicalize, hRoot,
    Except.map]

section Jailed

variable {session : SftpSession}
variable {fs : FileSystem}
variable {root : Loc}
variable {clientPath : Text}
variable {real : PathBuf}

/- What a path that `resolve` lets through looks like. -/
theorem resolve_jailed
    (hJail : session.root = some root.toPath)
    (hResolve : session.resolve fs clientPath = .ok real) :
    (∃ loc,
      fs.locate (jailedPath root.toPath clientPath) =
        .ok loc ∧
      root <+: loc ∧ real = loc.toPath) ∨
    (∃ kind,
      fs.locate (jailedPath root.toPath clientPath) =
        .error kind ∧
      real = jailedPath root.toPath clientPath) := by
  have hPath :
      normalizeLexical (Path.push root.toPath
        (Text.trimStartMatches '/' clientPath)) =
        jailedPath root.toPath clientPath := rfl
  simp only [SftpSession.resolve, hJail, hPath] at hResolve
  split at hResolve <;> [cases hResolve; skip]
  cases hLocate :
      fs.locate (jailedPath root.toPath clientPath) with
  | error kind =>
      simp only [FileSystem.canonicalize, hLocate,
        Except.map, Except.ok.injEq] at hResolve
      exact .inr ⟨kind, rfl, hResolve.symm⟩
  | ok loc =>
      simp only [FileSystem.canonicalize, hLocate,
        Except.map] at hResolve
      split at hResolve <;> [cases hResolve; skip]
      next hInside =>
        have hPrefix : root <+: loc := by
          rw [← Loc.startsWith_toPath_iff]
          simpa using hInside
        exact .inl
          ⟨loc, rfl, hPrefix, (Except.ok.inj hResolve).symm⟩

/- The object of a path that `resolve` lets through. -/
theorem locate_inside
    (hJail : session.root = some root.toPath)
    (hResolve : session.resolve fs clientPath = .ok real)
    {loc : Loc}
    (hLocate :
      fs.locate (jailedPath root.toPath clientPath) =
        .ok loc) :
    root <+: loc := by
  rcases resolve_jailed hJail hResolve with
    ⟨found, hFound, hInside, -⟩ | ⟨kind, hNone, -⟩
  · rw [hFound] at hLocate
    rwa [← Except.ok.inj hLocate]
  · rw [hNone] at hLocate
    cases hLocate

/- Where the resolved path leads. -/
theorem resolvePath_resolve
    (hJail : session.root = some root.toPath)
    (hResolve : session.resolve fs clientPath = .ok real)
    (follow : Bool) :
    fs.resolvePath follow real =
      reached fs follow
        (jailedPath root.toPath clientPath) := by
  rcases resolve_jailed hJail hResolve with
    ⟨loc, hLocate, -, rfl⟩ | ⟨kind, hLocate, rfl⟩
  · rw [reached_of_ok hLocate]
    exact FileSystem.resolvePath_of_locate follow hLocate
  · rw [reached_of_error hLocate]

end Jailed

end Sshdt

------------------------------------------------------------
-- Containment
------------------------------------------------------------

namespace Sshdt

/-
  A path that ends at a link which leads nowhere and is
  itself outside the root.
-/
def StrayLink
    (root : Loc)
    (fs : FileSystem)
    (p : PathBuf) : Prop :=
  (∃ kind, fs.locate p = .error kind) ∧
    ∃ loc, fs.resolvePath false p = .existing loc ∧
      ¬ root <+: loc

/-
  A path that ends at a free entry of a directory outside
  the root.
-/
def FreeOutside
    (root : Loc)
    (fs : FileSystem)
    (p : PathBuf) : Prop :=
  ∃ d n slash, fs.resolvePath false p = .missing d n slash ∧
    ¬ root <+: d

/- A path that is taken to the root itself. -/
def RootItself
    (root : Loc)
    (fs : FileSystem)
    (p : PathBuf)
    (kind : FileTree → Bool) : Prop :=
  reached fs false p = .existing root ∧
    ∃ t, fs.lookup root = some t ∧ kind t = true

/-
  The requests that leave the root. Either nothing exists
  where such a request ends, and the links on its way have
  led outside: a file or directory is made there, a link that
  leads nowhere is read or removed there, or a rename that
  the system carries out starts or ends there. Or the root
  itself is removed from the directory that it is in.
-/
def Escapes
    (lib : SftpLibrary)
    (root : Loc)
    (fs : FileSystem) : PathRequest → Prop
  | .openFile filename pflags =>
      let opts := SftpSession.openOptions lib pflags
      opts.creates = true ∧
        ∃ d n,
          fs.resolvePath (!opts.createNew)
              (jailedPath root.toPath filename) =
            .missing d n false ∧
          ¬ root <+: d
  | .mkdir path =>
      FreeOutside root fs (jailedPath root.toPath path)
  | .lstat path =>
      StrayLink root fs (jailedPath root.toPath path)
  | .readlink path =>
      StrayLink root fs (jailedPath root.toPath path)
  | .remove path =>
      StrayLink root fs (jailedPath root.toPath path) ∨
        RootItself root fs (jailedPath root.toPath path)
          (fun t => !t.isDir)
  | .rmdir path =>
      root ≠ [] ∧
        RootItself root fs (jailedPath root.toPath path)
          FileTree.isEmptyDir
  | .rename oldpath newpath =>
      let old := jailedPath root.toPath oldpath
      let new := jailedPath root.toPath newpath
      (StrayLink root fs old ∨ StrayLink root fs new ∨
        FreeOutside root fs new) ∧
      ∃ move,
        fs.renameCheck (reached fs false old)
          (reached fs false new) = .ok (some move)
  | .opendir _ => False
  | .stat _ => False
  | .setstat _ _ => False

section Containment

variable {fs : FileSystem}
variable {root : Loc}
variable {p : PathBuf}

/- Following the last link, only the object is found. -/
theorem reached_follow_inside
    (hInside : ∀ loc, fs.locate p = .ok loc → root <+: loc) :
    ∀ loc, reached fs true p = .existing loc →
      root <+: loc := by
  intro loc hReached
  rcases reached_eq_existing hReached with
    hLocate | ⟨hFollow, -⟩
  · exact hInside loc hLocate
  · cases hFollow

/- Otherwise only a stray link can be outside. -/
theorem reached_inside
    (hInside : ∀ loc, fs.locate p = .ok loc → root <+: loc)
    (hStray : ¬ StrayLink root fs p) :
    ∀ loc, reached fs false p = .existing loc →
      root <+: loc := by
  intro loc hReached
  rcases reached_eq_existing hReached with
    hLocate | ⟨-, hNone, hWalk, -⟩
  · exact hInside loc hLocate
  · by_contra hOutside
    exact hStray ⟨hNone, loc, hWalk, hOutside⟩

/- A stray link is what is reached. -/
theorem StrayLink.reached
    (hStray : StrayLink root fs p) :
    ∃ loc target,
      Sshdt.reached fs false p = .existing loc ∧
      fs.lookup loc = some (.symlink target) ∧
      ¬ root <+: loc := by
  rcases hStray with ⟨⟨kind, hNone⟩, loc, hWalk, hOutside⟩
  have hReached :
      Sshdt.reached fs false p = .existing loc := by
    rw [reached_of_error hNone, hWalk]
  rcases reached_eq_existing hReached with
    hLocate | ⟨-, -, -, target, hTarget⟩
  · rw [hNone] at hLocate
    cases hLocate
  · exact ⟨loc, target, hReached, hTarget, hOutside⟩

/-
  A call that acts on links gets out at stray ones, and
  where it changes a directory outside.
-/
theorem linkCall_within_iff
    {α : Type}
    {call : Walk → Effect α}
    (hCall : fs.LinkCall call)
    (hInside : ∀ loc, fs.locate p = .ok loc → root <+: loc) :
    (call (reached fs false p)).Within root ↔
      ¬ StrayLink root fs p ∧
        ∀ dir,
          .entries dir ∈ (call (reached fs false p)).touched →
          root <+: dir := by
  constructor
  · intro hWithin
    refine ⟨fun hStray => ?_, fun dir hDir => ?_⟩
    · rcases hStray.reached with
        ⟨loc, target, hReached, hTarget, hOutside⟩
      apply hOutside
      apply hWithin (.object loc)
      rw [hReached]
      exact hCall.link loc target hTarget
    · exact hWithin (.entries dir) hDir
  · rintro ⟨hStray, hEntries⟩
    exact hCall.within (reached_inside hInside hStray)
      hEntries

/- Below the root, a directory is inside, or it is above. -/
theorem Loc.prefix_dropLast
    {loc : Loc}
    (hBelow : root <+: loc)
    (hOther : loc ≠ root) :
    root <+: loc.dropLast := by
  rcases List.eq_nil_or_concat loc with
    rfl | ⟨d, n, hConcat⟩
  · exact hBelow
  · rw [List.concat_eq_append] at hConcat
    subst hConcat
    rw [List.dropLast_concat]
    rcases List.prefix_concat_iff.mp hBelow with
      hSelf | hDir
    · exact (hOther hSelf.symm).elim
    · exact hDir

theorem Loc.eq_nil_of_prefix_dropLast
    (hAbove : root <+: root.dropLast) :
    root = [] := by
  have hLength := hAbove.length_le
  rw [List.length_dropLast] at hLength
  apply List.eq_nil_of_length_eq_zero
  omega

/- Removing a file removes a stray link, or the root. -/
theorem removeFileAt_reached_within_iff
    (hInside : ∀ loc, fs.locate p = .ok loc → root <+: loc) :
    (fs.removeFileAt (reached fs false p)).Within root ↔
      ¬ (StrayLink root fs p ∨
        RootItself root fs p (fun t => !t.isDir)) := by
  rw [linkCall_within_iff fs.removeFileAt_linkCall hInside,
    not_or, and_congr_right_iff]
  intro hStray
  simp only [FileSystem.removeFileAt_entries_iff]
  constructor
  · rintro hEntries ⟨hReached, t, hFound, hDir⟩
    have hFile : t.isDir = false := by
      simpa using hDir
    have hAbove := hEntries root.dropLast
      ⟨root, t, hReached, hFound, hFile, rfl⟩
    rw [Loc.eq_nil_of_prefix_dropLast hAbove] at hFound
    have hRoot : fs.root = t := by
      simpa [FileSystem.lookup] using hFound
    rw [← hRoot, fs.rootDir] at hFile
    cases hFile
  · rintro hRoot dir ⟨loc, t, hReached, hFound, hDir, rfl⟩
    apply Loc.prefix_dropLast
      (reached_inside hInside hStray loc hReached)
    rintro rfl
    exact hRoot ⟨hReached, t, hFound, by simpa using hDir⟩

/- Removing a directory removes no link. -/
theorem removeDirAt_reached_within_iff
    (hInside : ∀ loc, fs.locate p = .ok loc → root <+: loc) :
    (fs.removeDirAt (reached fs false p)).Within root ↔
      ¬ (root ≠ [] ∧
        RootItself root fs p FileTree.isEmptyDir) := by
  rw [FileSystem.removeDirAt_within_iff]
  constructor
  · rintro hWithin ⟨hNil, hReached, t, hFound, hEmpty⟩
    exact hNil (Loc.eq_nil_of_prefix_dropLast
      (hWithin root hReached t hFound hEmpty hNil))
  · intro hRoot loc hReached t hFound hEmpty hNil
    have hBelow : root <+: loc := by
      rcases reached_eq_existing hReached with
        hLocate | ⟨-, -, -, target, hTarget⟩
      · exact hInside loc hLocate
      · rw [hTarget] at hFound
        rw [← Option.some.inj hFound] at hEmpty
        cases hEmpty
    apply Loc.prefix_dropLast hBelow
    rintro rfl
    exact hRoot ⟨hNil, hReached, t, hFound, hEmpty⟩

/-
  A rename gets out from a stray link, or to a stray link or
  a free entry outside. It never moves the root: nothing is
  moved below itself or put over what is above it.
-/
theorem renameAt_reached_within_iff
    {old new : PathBuf}
    (hOldInside :
      ∀ loc, fs.locate old = .ok loc → root <+: loc)
    (hNewInside :
      ∀ loc, fs.locate new = .ok loc → root <+: loc) :
    (fs.renameAt (reached fs false old)
        (reached fs false new)).Within root ↔
      ¬ ((StrayLink root fs old ∨ StrayLink root fs new ∨
          FreeOutside root fs new) ∧
        ∃ move,
          fs.renameCheck (reached fs false old)
            (reached fs false new) = .ok (some move)) := by
  rw [FileSystem.renameAt_within_iff]
  constructor
  · rintro hWithin ⟨hOut, ⟨s, d⟩, hCheck⟩
    rcases hWithin s d hCheck with ⟨hSource, hTarget⟩
    rcases FileSystem.renameCheck_move hCheck with
      ⟨hOld, -, hNew⟩
    rcases hOut with hStray | hStray | hFree
    · rcases hStray.reached with ⟨loc, -, hReached, -, hLoc⟩
      rw [hReached] at hOld
      rw [Walk.existing.inj hOld] at hLoc
      exact hLoc (hSource.trans (List.dropLast_prefix s))
    · rcases hStray.reached with ⟨loc, -, hReached, -, hLoc⟩
      rcases hNew with ⟨hNew, -⟩ | ⟨dir, n, slash, hNew, -⟩
      · rw [hReached] at hNew
        rw [Walk.existing.inj hNew] at hLoc
        exact hLoc (hTarget.trans (List.dropLast_prefix d))
      · rw [hReached] at hNew
        cases hNew
    · rcases hFree with ⟨dir, n, slash, hWalk, hDir⟩
      have hReached := reached_eq_missing_iff.mpr hWalk
      rcases hNew with
        ⟨hNew, -⟩ | ⟨dir', n', slash', hNew, rfl, -⟩
      · rw [hReached] at hNew
        cases hNew
      · rw [hReached] at hNew
        cases hNew
        rw [List.dropLast_concat] at hTarget
        exact hDir hTarget
  · intro hKept s d hCheck
    have hStay :
        ¬ StrayLink root fs old ∧ ¬ StrayLink root fs new ∧
          ¬ FreeOutside root fs new := by
      by_contra hOut
      apply hKept
      refine ⟨?_, (s, d), hCheck⟩
      tauto
    rcases hStay with ⟨hOldStay, hNewStay, hFree⟩
    rcases FileSystem.renameCheck_move hCheck with
      ⟨hOld, -, hNew⟩
    have hSource :=
      reached_inside hOldInside hOldStay s hOld
    rcases hNew with
      ⟨hNew, hAbove, hBelow⟩ | ⟨dir, n, slash, hNew, rfl, hAbove⟩
    · have hTarget :=
        reached_inside hNewInside hNewStay d hNew
      refine ⟨Loc.prefix_dropLast hSource ?_,
        Loc.prefix_dropLast hTarget ?_⟩
      · rintro rfl
        exact hAbove hTarget
      · rintro rfl
        exact hBelow hSource
    · have hDir : root <+: dir := by
        by_contra hOutside
        exact hFree ⟨dir, n, slash,
          reached_eq_missing_iff.mp hNew, hOutside⟩
      rw [List.dropLast_concat]
      refine ⟨Loc.prefix_dropLast hSource ?_, hDir⟩
      rintro rfl
      exact hAbove hDir

/- Opening makes a file only where none is. -/
theorem openAt_reached_within_iff
    (opts : OpenOptions)
    (hInside : ∀ loc, fs.locate p = .ok loc → root <+: loc) :
    (fs.openAt opts (reached fs (!opts.createNew) p)).Within
        root ↔
      ¬ (opts.creates = true ∧
        ∃ d n,
          fs.resolvePath (!opts.createNew) p =
            .missing d n false ∧
          ¬ root <+: d) := by
  have hFound :
      ∀ loc, reached fs (!opts.createNew) p = .existing loc →
        opts.createNew = true ∨ root <+: loc := by
    intro loc hReached
    cases hNew : opts.createNew with
    | true => exact .inl rfl
    | false =>
        rw [hNew] at hReached
        exact .inr (reached_follow_inside hInside loc hReached)
  rw [FileSystem.openAt_within_iff hFound]
  simp only [reached_eq_missing_iff]

end Containment

/-
  A request whose paths `resolve` lets through acts inside
  the root, unless it is one of the requests that escape.
-/
theorem handle_within_iff
    (lib : SftpLibrary)
    {session : SftpSession}
    {fs : FileSystem}
    {root : Loc}
    (hJail : session.root = some root.toPath)
    (request : PathRequest)
    (hResolve :
      ∀ clientPath ∈ request.paths, ∃ real,
        session.resolve fs clientPath = .ok real) :
    (∀ touch ∈ (session.handle lib fs request).touched,
      root <+: touch.loc) ↔
      ¬ Escapes lib root fs request := by
  cases request with
  | openFile filename pflags =>
      rcases hResolve filename (by simp [PathRequest.paths])
        with ⟨real, hReal⟩
      have hWithin := openAt_reached_within_iff
        (SftpSession.openOptions lib pflags)
        (fun _ => locate_inside hJail hReal)
      simpa [SftpSession.handle, SftpSession.openFile,
        SftpSession.withPath_ok hReal, FileSystem.openPath,
        resolvePath_resolve hJail hReal, Escapes,
        Effect.Within] using hWithin
  | opendir path =>
      rcases hResolve path (by simp [PathRequest.paths])
        with ⟨real, hReal⟩
      have hWithin :
          (fs.readDirAt (reached fs true
            (jailedPath root.toPath path))).Within root := by
        apply FileSystem.readDirAt_within
        exact reached_follow_inside
          (fun _ => locate_inside hJail hReal)
      simpa [SftpSession.handle, SftpSession.opendir,
        SftpSession.withPath_ok hReal, FileSystem.readDir,
        resolvePath_resolve hJail hReal, Escapes,
        Effect.Within] using hWithin
  | stat path =>
      rcases hResolve path (by simp [PathRequest.paths])
        with ⟨real, hReal⟩
      have hWithin :
          (fs.metadataAt (reached fs true
            (jailedPath root.toPath path))).Within root := by
        apply fs.metadataAt_linkCall.within
        · exact reached_follow_inside
            (fun _ => locate_inside hJail hReal)
        · intro dir hDir
          exact (fs.metadataAt_entries _ dir hDir).elim
      simpa [SftpSession.handle, SftpSession.stat,
        SftpSession.withPath_ok hReal, FileSystem.metadata,
        resolvePath_resolve hJail hReal, Escapes,
        Effect.Within] using hWithin
  | lstat path =>
      rcases hResolve path (by simp [PathRequest.paths])
        with ⟨real, hReal⟩
      have hWithin := linkCall_within_iff
        fs.metadataAt_linkCall
        (fun _ => locate_inside hJail hReal)
      simpa [SftpSession.handle, SftpSession.lstat,
        SftpSession.withPath_ok hReal,
        FileSystem.symlinkMetadata,
        fs.metadataAt_entries,
        resolvePath_resolve hJail hReal, Escapes,
        Effect.Within] using hWithin
  | setstat path attrs =>
      rcases hResolve path (by simp [PathRequest.paths])
        with ⟨real, hReal⟩
      have hFound :
          ∀ loc, fs.resolvePath true real = .existing loc →
            root <+: loc := by
        rw [resolvePath_resolve hJail hReal]
        exact reached_follow_inside
          (fun _ => locate_inside hJail hReal)
      have hWithin := applySetstat_within hFound attrs
      simpa [SftpSession.handle, SftpSession.setstat,
        SftpSession.withPath_ok hReal, Escapes] using hWithin
  | mkdir path =>
      rcases hResolve path (by simp [PathRequest.paths])
        with ⟨real, hReal⟩
      have hWithin := fs.createDirAt_within_iff
        (reached fs false (jailedPath root.toPath path)) root
      simp only [reached_eq_missing_iff] at hWithin
      simpa [SftpSession.handle, SftpSession.mkdir,
        SftpSession.withPath_ok hReal, FileSystem.createDir,
        resolvePath_resolve hJail hReal, Escapes,
        FreeOutside, Effect.Within] using hWithin
  | rmdir path =>
      rcases hResolve path (by simp [PathRequest.paths])
        with ⟨real, hReal⟩
      have hWithin := removeDirAt_reached_within_iff
        (fun _ => locate_inside hJail hReal)
      simpa [SftpSession.handle, SftpSession.rmdir,
        SftpSession.withPath_ok hReal, FileSystem.removeDir,
        resolvePath_resolve hJail hReal, Escapes,
        Effect.Within] using hWithin
  | remove filename =>
      rcases hResolve filename (by simp [PathRequest.paths])
        with ⟨real, hReal⟩
      have hWithin := removeFileAt_reached_within_iff
        (fun _ => locate_inside hJail hReal)
      simpa [SftpSession.handle, SftpSession.remove,
        SftpSession.withPath_ok hReal, FileSystem.removeFile,
        resolvePath_resolve hJail hReal, Escapes,
        Effect.Within] using hWithin
  | rename oldpath newpath =>
      rcases hResolve oldpath (by simp [PathRequest.paths])
        with ⟨old, hOld⟩
      rcases hResolve newpath (by simp [PathRequest.paths])
        with ⟨new, hNew⟩
      have hWithin := renameAt_reached_within_iff
        (fun _ => locate_inside hJail hOld)
        (fun _ => locate_inside hJail hNew)
      simpa only [SftpSession.handle, SftpSession.rename,
        SftpSession.withPath_ok hOld,
        SftpSession.withPath_ok hNew,
        SftpSession.conclude_touched, FileSystem.rename,
        resolvePath_resolve hJail hOld,
        resolvePath_resolve hJail hNew, Escapes,
        Effect.Within] using hWithin
  | readlink path =>
      rcases hResolve path (by simp [PathRequest.paths])
        with ⟨real, hReal⟩
      have hWithin := linkCall_within_iff
        fs.readLinkAt_linkCall
        (fun _ => locate_inside hJail hReal)
      simpa [SftpSession.handle, SftpSession.readlink,
        SftpSession.withPath_ok hReal, FileSystem.readLink,
        fs.readLinkAt_entries,
        resolvePath_resolve hJail hReal, Escapes,
        Effect.Within] using hWithin

/-
  A jailed request that does not escape leaves every object
  outside the root as it was.
-/
theorem handle_outside
    (lib : SftpLibrary)
    {session : SftpSession}
    {fs : FileSystem}
    {root : Loc}
    (hJail : session.root = some root.toPath)
    (request : PathRequest)
    (hKept : ¬ Escapes lib root fs request)
    {loc : Loc}
    (hOutside : ¬ root <+: loc) :
    ((session.handle lib fs request).fs.lookup loc).map
        FileTree.own =
      (fs.lookup loc).map FileTree.own := by
  by_cases hResolve :
      ∀ clientPath ∈ request.paths, ∃ real,
        session.resolve fs clientPath = .ok real
  · have hInside :=
      (handle_within_iff lib hJail request hResolve).mpr hKept
    apply (session.handle_sound fs lib request).frame.objects
    intro place hPlace hBelow
    exact hOutside
      ((hInside (.object place) hPlace).trans hBelow)
  · rcases session.handle_refused fs lib request hResolve with
      ⟨code, hRefused⟩
    rw [hRefused]
    rfl

/-
  The requests of a session whose root existed when it was
  made: everything they act on is inside the root, exactly
  when they do not escape.
-/
theorem jail_containment_iff
    (lib : SftpLibrary)
    (host : Host)
    (before fs : FileSystem)
    (rootPath : PathBuf)
    (root : Loc)
    (hRoot : before.locate rootPath = .ok root)
    (request : PathRequest)
    (hResolve :
      ∀ clientPath ∈ request.paths, ∃ real,
        (SftpSession.new host before (some rootPath)).resolve
          fs clientPath = .ok real) :
    (∀ touch ∈
        ((SftpSession.new host before (some rootPath)).handle
          lib fs request).touched,
      root <+: touch.loc) ↔
      ¬ Escapes lib root fs request :=
  handle_within_iff lib (new_root hRoot) request hResolve

end Sshdt

------------------------------------------------------------
-- Runs Of A Jailed Session
------------------------------------------------------------

namespace Sshdt

/- A session and its file system, one request at a time. -/
def sftpMachine
    (lib : SftpLibrary)
    (session : SftpSession)
    (fs : FileSystem) :
    Machine (SftpSession × FileSystem) PathRequest where
  init := (session, fs)
  step s request :=
    let outcome := s.1.handle lib s.2 request
    some (outcome.session, outcome.fs)

/-
  Along every run of a jailed session in which no request
  escapes, the objects outside the root stay as they were.
-/
theorem jailed_run_outside
    {lib : SftpLibrary}
    {session : SftpSession}
    {fs : FileSystem}
    {root : Loc}
    (hJail : session.root = some root.toPath)
    {s : SftpSession × FileSystem}
    (hReaches :
      (sftpMachine lib session fs).Reaches
        (fun s request => ¬ Escapes lib root s.2 request) s)
    {loc : Loc}
    (hOutside : ¬ root <+: loc) :
    (s.2.lookup loc).map FileTree.own =
      (fs.lookup loc).map FileTree.own := by
  -- The root of the session is part of the invariant, since
  -- the jail of the next request is read from it.
  have hInv :
      s.1.root = some root.toPath ∧
        (s.2.lookup loc).map FileTree.own =
          (fs.lookup loc).map FileTree.own := by
    apply hReaches.invariant ⟨hJail, rfl⟩
    rintro s request t ⟨hRoot, hSame⟩ hKept hStep
    rw [← Option.some.inj hStep]
    have hSound := s.1.handle_sound s.2 lib request
    exact ⟨hSound.root.trans hRoot,
      (handle_outside lib hRoot request hKept
        hOutside).trans hSame⟩
  exact hInv.2

end Sshdt

------------------------------------------------------------
-- A Jail With A Link To The Outside
------------------------------------------------------------

namespace Sshdt

/-
  The conversions of `russh-sftp`: a file has to be new only
  when CREATE and EXCLUDE are both set.
-/
def russhSftp : SftpLibrary where
  openOptions flags := {
    read := flags.read
    write := flags.write
    append := flags.append
    truncate := flags.truncate
    create := flags.create
    createNew := flags.create && flags.exclude }
  attributes metadata := {
    size := some metadata.size
    permissions := some metadata.mode }

/- A host without files, home directory or variables. -/
def bareHost : Host where
  readToString _ := none
  pathExists _ := false
  isDir _ := false
  homeDir := none
  envVar _ := none

def jailName : EntryName where
  text := "jail".toList
  proper := by decide
  noNul := by decide

def outsideName : EntryName where
  text := "outside".toList
  proper := by decide
  noNul := by decide

def linkName : EntryName where
  text := "link".toList
  proper := by decide
  noNul := by decide

def dataName : EntryName where
  text := "data".toList
  proper := by decide
  noNul := by decide

/-
  A directory `/jail` with a file `data` and a link `link`,
  beside an empty directory `/outside`.
-/
def linkedFs
    (target : Text) : FileSystem where
  root := .dir 0o755
    [(jailName, .dir 0o755
        [(dataName, .file 0), (linkName, .symlink target)]),
      (outsideName, .dir 0o755 [])]
  rootDir := rfl
  files _ := { bytes := [], mode := 0o644 }
  nextIno := 1
  cwd := "/".toList
  umask := 0o022

/- The session that serves `/jail`. -/
def jailedSession
    (fs : FileSystem) : SftpSession :=
  SftpSession.new bareHost fs (some "/jail".toList)

/- The flags of an upload. -/
def uploadFlags : OpenFlags where
  read := false
  write := true
  append := false
  create := true
  truncate := true
  exclude := false

/-
  With a link to `/outside` in the jail, the upload of
  `/link/data` passes `resolve` and makes a new file outside.
-/
theorem upload_through_link_escapes :
    let fs := linkedFs "/outside".toList
    let outcome := (jailedSession fs).handle russhSftp fs
      (.openFile "/link/data".toList uploadFlags)
    fs.locate "/jail".toList = .ok [jailName] ∧
      (jailedSession fs).resolve fs "/link/data".toList =
        .ok "/jail/link/data".toList ∧
      outcome.status = .ok ∧
      outcome.touched =
        [.entries [outsideName],
          .object [outsideName, dataName]] ∧
      (fs.lookup [outsideName, dataName]).isNone = true ∧
      (outcome.fs.lookup
        [outsideName, dataName]).isSome = true ∧
      ¬ [jailName] <+: [outsideName, dataName] ∧
      ¬ [jailName] <+: [outsideName] := by
  decide +kernel

/- Making `/docs` in the same jail stays inside. -/
theorem mkdir_contained :
    let fs := linkedFs "/outside".toList
    let outcome := (jailedSession fs).handle russhSftp fs
      (.mkdir "/docs".toList)
    fs.locate "/jail".toList = .ok [jailName] ∧
      outcome.status = .ok ∧
      ((∀ touch ∈ outcome.touched,
          [jailName] <+: touch.loc) ↔
        ¬ Escapes russhSftp [jailName] fs
          (.mkdir "/docs".toList)) := by
  refine ⟨by decide +kernel, by decide +kernel, ?_⟩
  apply jail_containment_iff
  · decide +kernel
  · intro clientPath hPath
    rw [List.mem_singleton.mp hPath]
    exact ⟨"/jail/docs".toList, by decide +kernel⟩

end Sshdt

------------------------------------------------------------
-- Paths That Stay Inside
------------------------------------------------------------

namespace Sshdt

/- The root joined with the normalized client path. -/
def rootedPath
    (root : Loc)
    (clientPath : Text) : PathBuf :=
  Path.ofNames
    (root.names ++ descendAll [] (clientParts clientPath))

/-
  A client path that stays inside the root: no part of it
  climbs above the root, and every leading part of it that
  exists is, after all links, inside the root.
-/
structure Contained
    (fs : FileSystem)
    (root : Loc)
    (clientPath : Text) : Prop where
  lexical :
    ∀ leading, leading <+: clientParts clientPath →
      root.names <+: descendAll root.names leading
  links :
    ∀ names,
      names <+: root.names ++
        descendAll [] (clientParts clientPath) →
      root.names <+: names →
      ∀ loc, fs.locate (Path.ofNames names) = .ok loc →
        root <+: loc

/- Whether what was located, if anything, is inside. -/
def locatedInside
    (root : Loc) : Except ErrorKind Loc → Bool
  | .ok loc => decide (root <+: loc)
  | .error _ => true

/- The property is decided by looking at every part. -/
instance
    (fs : FileSystem)
    (root : Loc)
    (clientPath : Text) :
    Decidable (Contained fs root clientPath) :=
  decidable_of_iff
    ((∀ leading ∈ (clientParts clientPath).inits,
        root.names <+: descendAll root.names leading) ∧
      ∀ names ∈ (root.names ++
          descendAll [] (clientParts clientPath)).inits,
        root.names <+: names →
        locatedInside root
          (fs.locate (Path.ofNames names)) = true)
    (by
      constructor
      · rintro ⟨hLexical, hLinks⟩
        refine ⟨fun leading hLeading => ?_, ?_⟩
        · exact hLexical leading
            ((List.mem_inits _ _).mpr hLeading)
        · intro names hNames hRoot loc hLocate
          have hLoc := hLinks names
            ((List.mem_inits _ _).mpr hNames) hRoot
          simpa [locatedInside, hLocate] using hLoc
      · rintro ⟨hLexical, hLinks⟩
        refine ⟨fun leading hLeading => ?_, ?_⟩
        · exact hLexical leading
            ((List.mem_inits _ _).mp hLeading)
        · intro names hNames hRoot
          cases hLocate : fs.locate (Path.ofNames names) with
          | error kind => rfl
          | ok loc =>
              have hLoc := hLinks names
                ((List.mem_inits _ _).mp hNames) hRoot loc
                hLocate
              simpa [locatedInside] using hLoc)

section Inside

variable {session : SftpSession}
variable {fs : FileSystem}
variable {root : Loc}
variable {clientPath : Text}

theorem Contained.jailedPath_eq
    (hInside : Contained fs root clientPath) :
    jailedPath root.toPath clientPath =
      rootedPath root clientPath := by
  have hNames := Sshdt.jailedPath_eq root.proper clientPath
  rw [descendAll_append _ _ hInside.lexical] at hNames
  exact hNames.1

/- `resolve` lets such a path through. -/
theorem Contained.resolve
    (hJail : session.root = some root.toPath)
    (hInside : Contained fs root clientPath) :
    ∃ real, session.resolve fs clientPath = .ok real := by
  have hNames := Sshdt.jailedPath_eq root.proper clientPath
  have hStarts :
      Path.startsWith (jailedPath root.toPath clientPath)
        root.toPath = true := by
    have hPrefix := hInside.lexical _ (List.prefix_refl _)
    unfold Loc.toPath
    rw [hNames.1]
    exact (Path.startsWith_ofNames_iff hNames.2
      root.proper).mpr hPrefix
  have hLinks :
      ∀ loc,
        fs.locate (jailedPath root.toPath clientPath) =
          .ok loc →
        Path.startsWith loc.toPath root.toPath = true := by
    intro loc hLocate
    rw [Loc.startsWith_toPath_iff]
    rw [hInside.jailedPath_eq] at hLocate
    exact hInside.links _ (List.prefix_refl _)
      (List.prefix_append _ _) loc hLocate
  unfold jailedPath at hStarts hLinks
  simp only [SftpSession.resolve, hJail, hStarts]
  cases hLocate : fs.locate (normalizeLexical
      (Path.push root.toPath
        (Text.trimStartMatches '/' clientPath))) with
  | error kind =>
      simp [FileSystem.canonicalize, hLocate, Except.map]
  | ok loc =>
      simp [FileSystem.canonicalize, hLocate, Except.map,
        hLinks loc hLocate]

/- Where the jailed request's path leads. -/
theorem Contained.resolvePath
    (hJail : session.root = some root.toPath)
    (hInside : Contained fs root clientPath) :
    ∃ real,
      session.resolve fs clientPath = .ok real ∧
      ∀ follow, fs.resolvePath follow real =
        reached fs follow (rootedPath root clientPath) := by
  rcases hInside.resolve hJail with ⟨real, hReal⟩
  refine ⟨real, hReal, fun follow => ?_⟩
  rw [resolvePath_resolve hJail hReal, hInside.jailedPath_eq]

/- Without a jail, a rooted path is taken as it is. -/
theorem resolve_unjailed
    (hFree : session.root = none) :
    session.resolve fs (rootedPath root clientPath) =
      .ok (rootedPath root clientPath) := by
  have hRooted :
      Path.hasRoot (rootedPath root clientPath) = true := rfl
  simp [SftpSession.resolve, hFree, hRooted]

end Inside

end Sshdt

------------------------------------------------------------
-- Links And Their Targets
------------------------------------------------------------

namespace Sshdt

/-
  Two requests with the same effect: the same file system
  after them, the same status, and the same objects and
  directories that they acted on.
-/
def SameEffect
    (left right : SftpOutcome) : Prop :=
  left.fs = right.fs ∧ left.status = right.status ∧
    left.touched = right.touched

/- A path whose last part is a link to some object. -/
def NamesLink
    (fs : FileSystem)
    (p : PathBuf) : Prop :=
  (∃ loc, fs.locate p = .ok loc) ∧
    ∃ link target,
      fs.resolvePath false p = .existing link ∧
      fs.lookup link = some (.symlink target)

/- A path that leads to a directory that can be removed. -/
def LeadsToEmptyDir
    (fs : FileSystem)
    (p : PathBuf) : Prop :=
  ∃ loc t,
    fs.locate p = .ok loc ∧ fs.lookup loc = some t ∧
    t.isEmptyDir = true ∧ loc ≠ []

/- A directory at a place. -/
def DirAt
    (fs : FileSystem)
    (loc : Loc) : Prop :=
  ∃ t, fs.lookup loc = some t ∧ t.isDir = true

/-
  No directory can be moved from one place over another: one
  is above the other, or there is no directory or no empty
  one to put it over. The places are not the same, where
  there is nothing to do, unless both are `/`.
-/
def NoDirMove
    (fs : FileSystem)
    (s d : Loc) : Prop :=
  (s = d → s = []) ∧
    (s <+: d ∨ d <+: s ∨
      ¬ (DirAt fs s ∧
        ∃ u, fs.lookup d = some u ∧ u.isEmptyDir = true))

/-
  Where a path has to lead for a rename to it to be refused
  both of a link and of the object `s` that the link leads
  to.
-/
def RefusesLink
    (fs : FileSystem)
    (s : Loc) : Walk → Prop
  | .error _ => True
  | .missing d _ slash =>
      slash = true ∧ (s <+: d ∨ ¬ DirAt fs s)
  | .existing d => DirAt fs d ∧ NoDirMove fs s d

/-
  Where a path has to lead for a rename from it to be refused
  both over a link and over the object `d` that the link
  leads to.
-/
def RefusedByLink
    (fs : FileSystem)
    (d : Loc) : Walk → Prop
  | .error _ => True
  | .missing _ _ _ => d ≠ []
  | .existing s => DirAt fs s ∧ NoDirMove fs s d

/- Two entries of one regular file, or one place. -/
def SameObject
    (fs : FileSystem)
    (s d : Loc) : Prop :=
  s = d ∨ ∃ ino,
    fs.lookup s = some (.file ino) ∧
    fs.lookup d = some (.file ino)

/-
  When a rename does the same with the links that its paths
  name and with the objects that they lead to: there is no
  such link; or both paths name one link, which has nowhere
  to go; or one names a link, and the other leads where both
  the link and its object are refused.
-/
def RenamesAlike
    (fs : FileSystem)
    (old new : PathBuf) : Prop :=
  (¬ NamesLink fs old ∧ ¬ NamesLink fs new) ∨
  (NamesLink fs old ∧ NamesLink fs new ∧
    fs.resolvePath false old = fs.resolvePath false new ∧
    ∃ s d, fs.locate old = .ok s ∧ fs.locate new = .ok d ∧
      s ≠ [] ∧ SameObject fs s d) ∨
  (NamesLink fs old ∧ ¬ NamesLink fs new ∧
    ∃ s, fs.locate old = .ok s ∧
      RefusesLink fs s (fs.resolvePath false new)) ∨
  (¬ NamesLink fs old ∧ NamesLink fs new ∧
    ∃ d, fs.locate new = .ok d ∧
      RefusedByLink fs d (fs.resolvePath false old))

/-
  When a jailed request does what it would do without the
  jail: the requests that follow a last link do so always;
  those that mean the link do so when the last part of the
  path is no link to an object, or, for `rmdir`, no link to
  a directory that can be removed. A rename of links also
  does so where the links and their objects both have to
  stay.
-/
def ActsAlike
    (fs : FileSystem)
    (root : Loc) : PathRequest → Prop
  | .lstat path => ¬ NamesLink fs (rootedPath root path)
  | .readlink path => ¬ NamesLink fs (rootedPath root path)
  | .remove path => ¬ NamesLink fs (rootedPath root path)
  | .rmdir path =>
      ¬ (NamesLink fs (rootedPath root path) ∧
        LeadsToEmptyDir fs (rootedPath root path))
  | .rename oldpath newpath =>
      RenamesAlike fs (rootedPath root oldpath)
        (rootedPath root newpath)
  | .openFile _ _ => True
  | .opendir _ => True
  | .stat _ => True
  | .setstat _ _ => True
  | .mkdir _ => True

section Links

variable {fs : FileSystem}
variable {p : PathBuf}

/- Only a link to an object is taken elsewhere. -/
theorem reached_of_not_namesLink
    (hLink : ¬ NamesLink fs p) :
    reached fs false p = fs.resolvePath false p := by
  cases hLocate : fs.locate p with
  | error kind => exact reached_of_error hLocate
  | ok loc =>
      rcases fs.resolvePath_follow_cases p with
        hSame | hLast
      · rw [reached_of_ok hLocate, ← hSame]
        exact (FileSystem.locate_eq_ok_iff.mp hLocate).symm
      · exact (hLink ⟨⟨loc, hLocate⟩, hLast⟩).elim

/- What is known of a link and of its target. -/
theorem NamesLink.cases
    (hLink : NamesLink fs p) :
    ∃ loc t link target,
      reached fs false p = .existing loc ∧
      fs.locate p = .ok loc ∧
      fs.lookup loc = some t ∧ t.isSymlink = false ∧
      fs.resolvePath false p = .existing link ∧
      fs.lookup link = some (.symlink target) ∧
      loc ≠ link := by
  rcases hLink with
    ⟨⟨loc, hLocate⟩, link, target, hWalk, hTarget⟩
  have hFollow := FileSystem.locate_eq_ok_iff.mp hLocate
  rcases FileSystem.resolvePath_existing hFollow with
    ⟨t, hFound, hNoLink⟩
  refine ⟨loc, t, link, target, reached_of_ok hLocate,
    hLocate, hFound, hNoLink rfl, hWalk, hTarget, ?_⟩
  rintro rfl
  have hEq : some t = some (.symlink target) :=
    hFound.symm.trans hTarget
  have hSymlink := hNoLink rfl
  rw [Option.some.inj hEq] at hSymlink
  cases hSymlink

/- `reached` tells whether the path names such a link. -/
theorem reached_eq_resolvePath_iff :
    reached fs false p = fs.resolvePath false p ↔
      ¬ NamesLink fs p := by
  constructor
  · intro hEq hLink
    rcases hLink.cases with
      ⟨loc, t, link, target, hReached, -, -, -, hWalk, -, hNe⟩
    rw [hReached, hWalk] at hEq
    exact hNe (Walk.existing.inj hEq)
  · exact reached_of_not_namesLink

end Links

end Sshdt

------------------------------------------------------------
-- Transparency
------------------------------------------------------------

namespace Sshdt

open SftpSession (callStatus)

/- Two calls that a client cannot tell apart. -/
def SameCall
    {α : Type}
    (left right : Effect α) : Prop :=
  left.fs = right.fs ∧
    callStatus left = callStatus right ∧
    left.touched = right.touched

theorem SameCall.refl
    {α : Type}
    (call : Effect α) :
    SameCall call call :=
  ⟨rfl, rfl, rfl⟩

/- A request that makes one call has the effect of it. -/
theorem sameEffect_conclude_iff
    {α : Type}
    {session session' : SftpSession}
    {left right : Effect α}
    {f f' : α → SftpReply × SftpSession} :
    SameEffect (session.conclude left f)
        (session'.conclude right f') ↔
      SameCall left right := by
  simp [SameEffect, SameCall]

section Calls

variable (fs : FileSystem)
variable (p : PathBuf)

/- An exclusive open fails on a link and on its target. -/
theorem openAt_reached
    (opts : OpenOptions) :
    fs.openAt opts (reached fs (!opts.createNew) p) =
      fs.openAt opts (fs.resolvePath (!opts.createNew) p) := by
  cases hNew : opts.createNew with
  | false =>
      rw [Bool.not_false, reached_follow]
  | true =>
      rw [Bool.not_true]
      by_cases hLink : NamesLink fs p
      · rcases hLink.cases with
          ⟨loc, t, link, target, hReached, -, -, -, hWalk, -⟩
        simp [hReached, hWalk, FileSystem.openAt, hNew]
      · rw [reached_of_not_namesLink hLink]

/- So does making a directory. -/
theorem createDirAt_reached :
    fs.createDirAt (reached fs false p) =
      fs.createDirAt (fs.resolvePath false p) := by
  by_cases hLink : NamesLink fs p
  · rcases hLink.cases with
      ⟨loc, t, link, target, hReached, -, -, -, hWalk, -⟩
    simp [hReached, hWalk, FileSystem.createDirAt]
  · rw [reached_of_not_namesLink hLink]

/- A call that acts on links tells a link from its target. -/
theorem linkCall_reached_iff
    {α : Type}
    {call : Walk → Effect α}
    (hCall : fs.LinkCall call) :
    SameCall (call (reached fs false p))
        (call (fs.resolvePath false p)) ↔
      ¬ NamesLink fs p := by
  constructor
  · intro hSame hLink
    rcases hLink.cases with
      ⟨loc, t, link, target, hReached, -, -, -, hWalk,
        hTarget, hNe⟩
    have hTouched := hSame.2.2
    rw [hReached, hWalk] at hTouched
    have hOwn := hCall.own (.existing loc) link
      (hTouched ▸ hCall.link link target hTarget)
    exact hNe (Walk.existing.inj hOwn)
  · intro hLink
    rw [reached_of_not_namesLink hLink]
    exact SameCall.refl _

/- A link itself is never removed by `rmdir`. -/
theorem removeDirAt_symlink
    {link : Loc}
    {target : Text}
    (hTarget : fs.lookup link = some (.symlink target)) :
    fs.removeDirAt (.existing link) =
      .fail fs .notADirectory := by
  simp [FileSystem.removeDirAt, hTarget, FileTree.isDir]

theorem removeDirAt_reached_iff :
    SameCall (fs.removeDirAt (reached fs false p))
        (fs.removeDirAt (fs.resolvePath false p)) ↔
      ¬ (NamesLink fs p ∧ LeadsToEmptyDir fs p) := by
  by_cases hLink : NamesLink fs p
  · rcases hLink.cases with
      ⟨loc, t, link, target, hReached, hLocate, hFound, -,
        hWalk, hTarget, -⟩
    rw [hReached, hWalk, removeDirAt_symlink fs hTarget]
    simp only [hLink, true_and]
    constructor
    · rintro hSame ⟨loc', t', hLocate', hFound', hEmpty, hNil⟩
      rw [hLocate] at hLocate'
      cases Except.ok.inj hLocate'
      rw [hFound] at hFound'
      cases Option.some.inj hFound'
      have hDir : t.isDir = true := by
        cases t with
        | dir mode entries => rfl
        | file ino => cases hEmpty
        | symlink target => cases hEmpty
      have hTouched := hSame.2.2
      simp [FileSystem.removeDirAt, hFound, hDir, hEmpty,
        hNil, Touch.entry] at hTouched
    · intro hKept
      unfold FileSystem.removeDirAt
      simp only [hFound]
      split <;> [exact ⟨rfl, rfl, rfl⟩; skip]
      split <;> [exact ⟨rfl, rfl, rfl⟩; skip]
      next hNil =>
        split <;> [exact ⟨rfl, rfl, rfl⟩; skip]
        next hEmpty =>
          exact (hKept ⟨loc, t, hLocate, hFound,
            by simpa using hEmpty, hNil⟩).elim
  · rw [reached_of_not_namesLink hLink]
    simp [hLink, SameCall.refl]

end Calls

/- The status of a rename that moves nothing. -/
def idleRename :
    Except ErrorKind (Option (Loc × Loc)) →
      Option StatusCode
  | .error kind => some (ioToStatus kind)
  | .ok none => some .ok
  | .ok (some _) => none

/- A rename that moves nothing. -/
theorem renameAt_idle
    {fs : FileSystem}
    {old new : Walk}
    {code : StatusCode}
    (hIdle :
      idleRename (fs.renameCheck old new) = some code) :
    (fs.renameAt old new).fs = fs ∧
      callStatus (fs.renameAt old new) = code ∧
      (fs.renameAt old new).touched = [] := by
  unfold FileSystem.renameAt
  cases hCheck : fs.renameCheck old new with
  | error kind =>
      rw [hCheck] at hIdle
      exact ⟨rfl, Option.some.inj hIdle, rfl⟩
  | ok verdict =>
      cases verdict with
      | none =>
          rw [hCheck] at hIdle
          exact ⟨rfl, Option.some.inj hIdle, rfl⟩
      | some move =>
          rw [hCheck] at hIdle
          cases hIdle

/- Every rename moves something or is idle. -/
theorem renameCheck_cases
    (fs : FileSystem)
    (old new : Walk) :
    (∃ s d,
      fs.renameCheck old new = .ok (some (s, d)) ∧
      (fs.renameAt old new).touched =
        Touch.entry s ++ Touch.entry d) ∨
    ∃ code,
      idleRename (fs.renameCheck old new) = some code := by
  cases hCheck : fs.renameCheck old new with
  | error kind => exact .inr ⟨_, rfl⟩
  | ok verdict =>
      cases verdict with
      | none => exact .inr ⟨_, rfl⟩
      | some move =>
          rcases FileSystem.renameAt_move hCheck with
            ⟨t, hMove⟩
          exact .inl ⟨move.1, move.2, rfl, by rw [hMove]; rfl⟩

/- A rename that moves the same both ways names no link. -/
theorem not_namesLink_of_move
    {fs : FileSystem}
    {old new : PathBuf}
    {s d : Loc}
    (hJailed :
      fs.renameCheck (reached fs false old)
        (reached fs false new) = .ok (some (s, d)))
    (hPlain :
      fs.renameCheck (fs.resolvePath false old)
        (fs.resolvePath false new) = .ok (some (s, d))) :
    ¬ NamesLink fs old ∧ ¬ NamesLink fs new := by
  rcases FileSystem.renameCheck_move hJailed with
    ⟨hOld, -, hNew⟩
  rcases FileSystem.renameCheck_move hPlain with
    ⟨hOld', -, hNew'⟩
  refine ⟨?_, ?_⟩
  · exact reached_eq_resolvePath_iff.mp
      (hOld.trans hOld'.symm)
  · intro hLink
    rcases hLink.cases with
      ⟨loc, t, link, target, hReached, -, -, -, hWalk, -, hNe⟩
    have hLoc : loc = d := by
      rcases hNew with ⟨hNew, -⟩ | ⟨dir, n, slash, hNew, -⟩
      · exact Walk.existing.inj (hReached.symm.trans hNew)
      · rw [hReached] at hNew
        cases hNew
    have hLinkLoc : link = d := by
      rcases hNew' with
        ⟨hNew', -⟩ | ⟨dir, n, slash, hNew', -⟩
      · exact Walk.existing.inj (hWalk.symm.trans hNew')
      · rw [hWalk] at hNew'
        cases hNew'
    exact hNe (hLoc.trans hLinkLoc.symm)

theorem renameAt_reached_iff
    (fs : FileSystem)
    (old new : PathBuf) :
    SameCall
        (fs.renameAt (reached fs false old)
          (reached fs false new))
        (fs.renameAt (fs.resolvePath false old)
          (fs.resolvePath false new)) ↔
      (¬ NamesLink fs old ∧ ¬ NamesLink fs new) ∨
        ∃ code,
          idleRename (fs.renameCheck (reached fs false old)
            (reached fs false new)) = some code ∧
          idleRename (fs.renameCheck
            (fs.resolvePath false old)
            (fs.resolvePath false new)) = some code := by
  constructor
  · rintro ⟨-, hStatus, hTouched⟩
    rcases renameCheck_cases fs (reached fs false old)
      (reached fs false new) with
      ⟨s, d, hJailed, hPlaces⟩ | ⟨code, hIdle⟩
    · rcases renameCheck_cases fs (fs.resolvePath false old)
        (fs.resolvePath false new) with
        ⟨s', d', hPlain, hPlaces'⟩ | ⟨code', hIdle'⟩
      · rw [hPlaces, hPlaces'] at hTouched
        simp only [Touch.entry, List.cons_append,
          List.nil_append, List.cons.injEq,
          Touch.object.injEq, and_true] at hTouched
        rcases hTouched with ⟨-, rfl, -, rfl⟩
        exact .inl (not_namesLink_of_move hJailed hPlain)
      · rw [hPlaces, (renameAt_idle hIdle').2.2] at hTouched
        cases hTouched
    · have hJailed := renameAt_idle hIdle
      rcases renameCheck_cases fs (fs.resolvePath false old)
        (fs.resolvePath false new) with
        ⟨s', d', hPlain, hPlaces'⟩ | ⟨code', hIdle'⟩
      · rw [hPlaces', hJailed.2.2] at hTouched
        cases hTouched
      · rw [hJailed.2.1, (renameAt_idle hIdle').2.1] at hStatus
        subst hStatus
        exact .inr ⟨code, hIdle, hIdle'⟩
  · rintro (⟨hOld, hNew⟩ | ⟨code, hIdle, hIdle'⟩)
    · rw [reached_of_not_namesLink hOld,
        reached_of_not_namesLink hNew]
      exact SameCall.refl _
    · have hJailed := renameAt_idle hIdle
      have hPlain := renameAt_idle hIdle'
      exact ⟨hJailed.1.trans hPlain.1.symm,
        hJailed.2.1.trans hPlain.2.1.symm,
        hJailed.2.2.trans hPlain.2.2.symm⟩

end Sshdt

------------------------------------------------------------
-- Renames That Move Nothing
------------------------------------------------------------

namespace Sshdt

section Renames

variable {fs : FileSystem}
variable {s d : Loc}
variable {t u : FileTree}
variable {code : StatusCode}

/- A link is not the root of the tree. -/
theorem ne_nil_of_link
    {target : Text}
    (hLink : fs.lookup s = some (.symlink target)) :
    s ≠ [] := by
  rintro rfl
  have hRoot : fs.root = .symlink target := by
    simpa [FileSystem.lookup] using hLink
  have hDir := fs.rootDir
  rw [hRoot] at hDir
  cases hDir

/- Nothing is below an object that is no directory. -/
theorem eq_of_above
    (hAbove : s <+: d)
    (hSource : fs.lookup s = some t)
    (hTarget : fs.lookup d = some u)
    (hDir : t.isDir = false) :
    s = d := by
  by_contra hOther
  have hIsDir := FileTree.isDir_of_prefix hAbove hOther
    hSource hTarget
  rw [hDir] at hIsDir
  cases hIsDir

theorem sameFile_iff
    (hSource : fs.lookup s = some t)
    (hTarget : fs.lookup d = some u) :
    FileSystem.sameFile t u = true ↔
      ∃ ino, fs.lookup s = some (.file ino) ∧
        fs.lookup d = some (.file ino) := by
  rw [hSource, hTarget]
  cases t <;> cases u <;> simp [FileSystem.sameFile]
  exact eq_comm

/-
  A rename between two objects moves nothing when they are
  one object, and fails when it would move an object below
  itself or put it over what it cannot replace.
-/
theorem idleRename_existing_iff
    (hSource : fs.lookup s = some t)
    (hTarget : fs.lookup d = some u) :
    idleRename (fs.renameCheck (.existing s) (.existing d)) =
        some code ↔
      (code = .ok ∧ s ≠ [] ∧ SameObject fs s d) ∨
      (code = .failure ∧ (s = d → s = []) ∧
        (s <+: d ∨ d <+: s ∨ ¬ SameObject fs s d ∧
          FileSystem.replaceCheck t u ≠ .ok ())) := by
  have hSame := sameFile_iff hSource hTarget
  simp only [FileSystem.renameCheck, hSource, hTarget]
  by_cases hRoot : s = []
  · subst hRoot
    simp [idleRename, ioToStatus, eq_comm]
  by_cases hOver : d = []
  · subst hOver
    have hNot : ¬ SameObject fs s [] := by
      rintro (hEq | ⟨ino, -, hFile⟩)
      · exact hRoot hEq
      · have hDir := fs.rootDir
        have hRootFile : fs.root = .file ino := by
          simpa [FileSystem.lookup] using hFile
        rw [hRootFile] at hDir
        cases hDir
    simp [idleRename, ioToStatus, hRoot, hNot, eq_comm]
  by_cases hEq : s = d
  · subst hEq
    simp [idleRename, SameObject, hRoot, eq_comm]
  have hFile :
      FileSystem.sameFile t u = true →
        ¬ s <+: d ∧ ¬ d <+: s := by
    intro hBoth
    rcases hSame.mp hBoth with ⟨ino, hLeft, hRight⟩
    rw [hLeft] at hSource
    rw [hRight] at hTarget
    exact ⟨fun hAbove => hEq
        (eq_of_above hAbove hLeft hRight rfl),
      fun hBelow => hEq
        (eq_of_above hBelow hRight hLeft rfl).symm⟩
  have hObject :
      SameObject fs s d ↔ FileSystem.sameFile t u = true := by
    rw [hSame]
    simp [SameObject, hEq]
  simp only [hRoot, hOver, hEq, hObject, decide_false,
    Bool.or_false, Bool.false_eq_true, if_false,
    List.isPrefixOf_iff_prefix, false_implies, true_and,
    ne_eq, not_false_eq_true]
  by_cases hAbove : s <+: d
  · have hNot : ¬ FileSystem.sameFile t u = true :=
      fun hBoth => (hFile hBoth).1 hAbove
    simp [idleRename, ioToStatus, hAbove, hNot, eq_comm]
  by_cases hBelow : d <+: s
  · have hNot : ¬ FileSystem.sameFile t u = true :=
      fun hBoth => (hFile hBoth).2 hBelow
    simp [idleRename, ioToStatus, hAbove, hBelow, hNot,
      eq_comm]
  by_cases hBoth : FileSystem.sameFile t u = true
  · simp [idleRename, hAbove, hBelow, hBoth, eq_comm]
  · cases hReplace : FileSystem.replaceCheck t u with
    | ok done =>
        simp [idleRename, hAbove, hBelow, hBoth, Except.map]
    | error kind =>
        have hStatus : ioToStatus kind = .failure := by
          unfold FileSystem.replaceCheck at hReplace
          split at hReplace <;> [skip; split at hReplace <;>
            [skip; split at hReplace <;> [skip; skip]]] <;>
            cases hReplace <;> rfl
        simp [idleRename, hAbove, hBelow, hBoth, Except.map,
          hStatus, eq_comm]

/- A link is moved over everything but a directory. -/
theorem idleRename_of_link
    {target : Text}
    (hSource : fs.lookup s = some (.symlink target))
    (hTarget : fs.lookup d = some u) :
    idleRename (fs.renameCheck (.existing s) (.existing d)) =
        some code ↔
      (code = .ok ∧ s = d) ∨
      (code = .failure ∧ u.isDir = true) := by
  rw [idleRename_existing_iff hSource hTarget]
  have hNil := ne_nil_of_link hSource
  have hObject : SameObject fs s d ↔ s = d := by
    simp [SameObject, hSource]
  have hReplace :
      FileSystem.replaceCheck (.symlink target) u ≠ .ok () ↔
        u.isDir = true := by
    cases u <;>
      simp [FileSystem.replaceCheck, FileTree.isDir]
  simp only [hObject, hReplace, hNil, ne_eq,
    not_false_eq_true, true_and, imp_false]
  apply or_congr_right
  apply and_congr_right
  intro _
  constructor
  · rintro ⟨hOther, hAbove | hBelow | ⟨-, hDir⟩⟩
    · exact (hOther
        (eq_of_above hAbove hSource hTarget rfl)).elim
    · exact FileTree.isDir_of_prefix hBelow
        (fun hEq => hOther hEq.symm) hTarget hSource
    · exact hDir
  · intro hDir
    have hOther : s ≠ d := by
      rintro rfl
      rw [hSource] at hTarget
      rw [← Option.some.inj hTarget] at hDir
      cases hDir
    exact ⟨hOther, .inr (.inr ⟨hOther, hDir⟩)⟩

/- Everything but a directory is moved over a link. -/
theorem idleRename_over_link
    {target : Text}
    (hSource : fs.lookup s = some t)
    (hTarget : fs.lookup d = some (.symlink target)) :
    idleRename (fs.renameCheck (.existing s) (.existing d)) =
        some code ↔
      (code = .ok ∧ s = d) ∨
      (code = .failure ∧ t.isDir = true) := by
  rw [idleRename_existing_iff hSource hTarget]
  have hNil := ne_nil_of_link hTarget
  have hObject : SameObject fs s d ↔ s = d := by
    simp [SameObject, hTarget]
  have hReplace :
      FileSystem.replaceCheck t (.symlink target) ≠ .ok () ↔
        t.isDir = true := by
    cases t <;>
      simp [FileSystem.replaceCheck, FileTree.isDir]
  simp only [hObject, hReplace]
  constructor
  · rintro (⟨hCode, -, hEq⟩ | ⟨hCode, hRoot, hRefused⟩)
    · exact .inl ⟨hCode, hEq⟩
    · refine .inr ⟨hCode, ?_⟩
      have hOther : s ≠ d := by
        rintro rfl
        exact hNil (hRoot rfl)
      rcases hRefused with hAbove | hBelow | ⟨-, hDir⟩
      · exact FileTree.isDir_of_prefix hAbove hOther
          hSource hTarget
      · exact (hOther
          (eq_of_above hBelow hTarget hSource rfl).symm).elim
      · exact hDir
  · rintro (⟨hCode, rfl⟩ | ⟨hCode, hDir⟩)
    · exact .inl ⟨hCode, hNil, rfl⟩
    · have hOther : s ≠ d := by
        rintro rfl
        rw [hSource] at hTarget
        rw [Option.some.inj hTarget] at hDir
        cases hDir
      exact .inr ⟨hCode, fun hEq => (hOther hEq).elim,
        .inr (.inr ⟨hOther, hDir⟩)⟩

/- A directory is moved over an empty one only. -/
theorem idleRename_dir_iff
    (hSource : fs.lookup s = some t)
    (hTarget : fs.lookup d = some u)
    (hDir : t.isDir = true ∨ u.isDir = true) :
    idleRename (fs.renameCheck (.existing s) (.existing d)) =
        some code ↔
      (code = .ok ∧ s ≠ [] ∧ s = d) ∨
      (code = .failure ∧ NoDirMove fs s d) := by
  rw [idleRename_existing_iff hSource hTarget]
  have hObject : SameObject fs s d ↔ s = d := by
    constructor
    · rintro (hEq | ⟨ino, hLeft, hRight⟩)
      · exact hEq
      · rw [hSource] at hLeft
        rw [hTarget] at hRight
        rw [Option.some.inj hLeft, Option.some.inj hRight]
          at hDir
        rcases hDir with hDir | hDir <;> cases hDir
    · exact .inl
  have hReplace :
      FileSystem.replaceCheck t u ≠ .ok () ↔
        ¬ (DirAt fs s ∧
          ∃ u, fs.lookup d = some u ∧
            u.isEmptyDir = true) := by
    simp only [DirAt, hSource, hTarget, Option.some.injEq,
      exists_eq_left']
    cases t <;> cases u <;>
      simp_all [FileSystem.replaceCheck, FileTree.isDir,
        FileTree.isEmptyDir]
  simp only [hObject, hReplace, NoDirMove]
  apply or_congr_right
  apply and_congr_right
  intro _
  apply and_congr_right
  intro hRoot
  constructor
  · rintro (hAbove | hBelow | ⟨-, hNone⟩)
    · exact .inl hAbove
    · exact .inr (.inl hBelow)
    · exact .inr (.inr hNone)
  · rintro (hAbove | hBelow | hNone)
    · exact .inl hAbove
    · exact .inr (.inl hBelow)
    · by_cases hEq : s = d
      · exact .inl (hEq ▸ List.prefix_refl _)
      · exact .inr (.inr ⟨hEq, hNone⟩)

/-
  Two paths that name one link each: the links can be moved,
  so that only one link stays.
-/
theorem idle_both_iff
    {old new : PathBuf}
    (hOld : NamesLink fs old)
    (hNew : NamesLink fs new) :
    (∃ code,
      idleRename (fs.renameCheck (reached fs false old)
        (reached fs false new)) = some code ∧
      idleRename (fs.renameCheck (fs.resolvePath false old)
        (fs.resolvePath false new)) = some code) ↔
      fs.resolvePath false old = fs.resolvePath false new ∧
        ∃ s d, fs.locate old = .ok s ∧
          fs.locate new = .ok d ∧ s ≠ [] ∧
          SameObject fs s d := by
  rcases hOld.cases with
    ⟨s, t, l, target, hReached, hLocate, hFound, -, hWalk,
      hTarget, -⟩
  rcases hNew.cases with
    ⟨d, u, l', target', hReached', hLocate', hFound', -,
      hWalk', hTarget', -⟩
  simp only [hReached, hReached', hWalk, hWalk',
    idleRename_existing_iff hFound hFound',
    idleRename_of_link hTarget hTarget', hLocate, hLocate',
    Except.ok.injEq, Walk.existing.injEq]
  constructor
  · rintro ⟨code, ⟨hCode, hRoot, hSame⟩ | ⟨hCode, -⟩,
      ⟨hCode', hLink⟩ | ⟨hCode', hDir⟩⟩
    · exact ⟨hLink, s, d, rfl, rfl, hRoot, hSame⟩
    · cases hDir
    · rw [hCode] at hCode'
      cases hCode'
    · cases hDir
  · rintro ⟨hLink, s, d, rfl, rfl, hRoot, hSame⟩
    exact ⟨.ok, .inl ⟨rfl, hRoot, hSame⟩,
      .inl ⟨rfl, hLink⟩⟩

/- A link is renamed to a path that names no link. -/
theorem idle_old_iff
    {old new : PathBuf}
    (hOld : NamesLink fs old)
    (hNew : ¬ NamesLink fs new) :
    (∃ code,
      idleRename (fs.renameCheck (reached fs false old)
        (reached fs false new)) = some code ∧
      idleRename (fs.renameCheck (fs.resolvePath false old)
        (fs.resolvePath false new)) = some code) ↔
      ∃ s, fs.locate old = .ok s ∧
        RefusesLink fs s (fs.resolvePath false new) := by
  rcases hOld.cases with
    ⟨s, t, l, target, hReached, hLocate, hFound, hNoLink,
      hWalk, hTarget, -⟩
  have hNil := ne_nil_of_link hTarget
  simp only [hReached, hWalk, reached_of_not_namesLink hNew,
    hLocate, Except.ok.injEq, exists_eq_left']
  cases hPlace : fs.resolvePath false new with
  | error kind =>
      simp [FileSystem.renameCheck, idleRename, RefusesLink]
  | missing d n slash =>
      rcases FileSystem.resolvePath_missing hPlace with
        ⟨u, hFound', hDir⟩
      have hOff : ¬ l <+: d := by
        intro hAbove
        have hEq := eq_of_above hAbove hTarget hFound' rfl
        rw [hEq] at hTarget
        rw [Option.some.inj (hFound'.symm.trans hTarget)]
          at hDir
        cases hDir
      have hDirAt : DirAt fs s ↔ t.isDir = true := by
        simp [DirAt, hFound]
      have hFile : (FileTree.symlink target).isDir = false :=
        rfl
      simp only [FileSystem.renameCheck, hFound, hTarget,
        RefusesLink, hDirAt]
      by_cases hRoot : s = []
      · subst hRoot
        cases slash <;>
          simp [hNil, hOff, hFile, idleRename,
            ioToStatus, List.isPrefixOf_iff_prefix]
      · cases slash with
        | false =>
            simp [hNil, hOff, idleRename,
              List.isPrefixOf_iff_prefix]
        | true =>
            by_cases hIsDir : t.isDir = true
            · by_cases hAbove : s <+: d <;>
                simp [hNil, hRoot, hIsDir, hAbove, hFile,
                  idleRename, ioToStatus,
                  List.isPrefixOf_iff_prefix]
            · simp [hNil, hRoot, hIsDir, hFile,
                idleRename, ioToStatus]
  | existing d =>
      rcases FileSystem.resolvePath_existing hPlace with
        ⟨u, hFound', -⟩
      have hDirAt : DirAt fs d ↔ u.isDir = true := by
        have hSome : fs.lookup d = some u := hFound'
        simp [DirAt, hSome]
      simp only [idleRename_of_link hTarget hFound',
        RefusesLink, hDirAt]
      constructor
      · rintro ⟨code, hJailed,
          ⟨hCode, hLink⟩ | ⟨hCode, hDir⟩⟩
        · -- The path ends at the very link, which its own
          -- walk could not follow.
          rw [hLink] at hTarget
          rcases (idleRename_over_link hFound
            hTarget).mp hJailed with
            ⟨-, hEq⟩ | ⟨hCode', -⟩
          · rw [hEq, hTarget] at hFound
            rw [← Option.some.inj hFound] at hNoLink
            cases hNoLink
          · rw [hCode] at hCode'
            cases hCode'
        · refine ⟨hDir, ?_⟩
          rcases (idleRename_dir_iff hFound hFound'
            (.inr hDir)).mp hJailed with
            ⟨hCode', -⟩ | ⟨-, hMove⟩
          · rw [hCode] at hCode'
            cases hCode'
          · exact hMove
      · rintro ⟨hDir, hMove⟩
        exact ⟨.failure,
          (idleRename_dir_iff hFound hFound'
            (.inr hDir)).mpr (.inr ⟨rfl, hMove⟩),
          .inr ⟨rfl, hDir⟩⟩

/- A path that names no link is renamed over a link. -/
theorem idle_new_iff
    {old new : PathBuf}
    (hOld : ¬ NamesLink fs old)
    (hNew : NamesLink fs new) :
    (∃ code,
      idleRename (fs.renameCheck (reached fs false old)
        (reached fs false new)) = some code ∧
      idleRename (fs.renameCheck (fs.resolvePath false old)
        (fs.resolvePath false new)) = some code) ↔
      ∃ d, fs.locate new = .ok d ∧
        RefusedByLink fs d (fs.resolvePath false old) := by
  rcases hNew.cases with
    ⟨d, u, l, target, hReached, hLocate, hFound, hNoLink,
      hWalk, hTarget, -⟩
  have hNil := ne_nil_of_link hTarget
  simp only [hReached, hWalk, reached_of_not_namesLink hOld,
    hLocate, Except.ok.injEq, exists_eq_left']
  cases hPlace : fs.resolvePath false old with
  | error kind =>
      simp [FileSystem.renameCheck, idleRename,
        RefusedByLink]
  | missing dir n slash =>
      by_cases hRoot : d = [] <;>
        simp [FileSystem.renameCheck, idleRename, ioToStatus,
          RefusedByLink, hNil, hRoot]
  | existing s =>
      rcases FileSystem.resolvePath_existing hPlace with
        ⟨t, hFound', -⟩
      have hDirAt : DirAt fs s ↔ t.isDir = true := by
        have hSome : fs.lookup s = some t := hFound'
        simp [DirAt, hSome]
      simp only [idleRename_over_link hFound' hTarget,
        RefusedByLink, hDirAt]
      constructor
      · rintro ⟨code, hJailed,
          ⟨hCode, hLink⟩ | ⟨hCode, hDir⟩⟩
        · rw [← hLink] at hTarget
          rcases (idleRename_of_link hTarget
            hFound).mp hJailed with
            ⟨-, hEq⟩ | ⟨hCode', -⟩
          · rw [← hEq, hTarget] at hFound
            rw [← Option.some.inj hFound] at hNoLink
            cases hNoLink
          · rw [hCode] at hCode'
            cases hCode'
        · refine ⟨hDir, ?_⟩
          rcases (idleRename_dir_iff hFound' hFound
            (.inl hDir)).mp hJailed with
            ⟨hCode', -⟩ | ⟨-, hMove⟩
          · rw [hCode] at hCode'
            cases hCode'
          · exact hMove
      · rintro ⟨hDir, hMove⟩
        exact ⟨.failure,
          (idleRename_dir_iff hFound' hFound
            (.inl hDir)).mpr (.inr ⟨rfl, hMove⟩),
          .inr ⟨rfl, hDir⟩⟩

/- When a rename does the same with links and objects. -/
theorem renameAt_alike_iff
    (old new : PathBuf) :
    SameCall
        (fs.renameAt (reached fs false old)
          (reached fs false new))
        (fs.renameAt (fs.resolvePath false old)
          (fs.resolvePath false new)) ↔
      RenamesAlike fs old new := by
  rw [renameAt_reached_iff]
  unfold RenamesAlike
  by_cases hOld : NamesLink fs old <;>
    by_cases hNew : NamesLink fs new
  · rw [idle_both_iff hOld hNew]
    simp [hOld, hNew]
  · rw [idle_old_iff hOld hNew]
    simp [hOld, hNew]
  · rw [idle_new_iff hOld hNew]
    simp [hOld, hNew]
  · simp [hOld, hNew]

end Renames

end Sshdt

------------------------------------------------------------
-- Transparent Requests
------------------------------------------------------------

namespace Sshdt

/-
  On paths that stay inside the root, a jailed request has
  the effect of the same request on the rooted path without
  a jail exactly when `ActsAlike` holds.
-/
theorem handle_sameEffect_iff
    (lib : SftpLibrary)
    {jailed plain : SftpSession}
    {fs : FileSystem}
    {root : Loc}
    (hJail : jailed.root = some root.toPath)
    (hFree : plain.root = none)
    (request : PathRequest)
    (hInside :
      ∀ clientPath ∈ request.paths,
        Contained fs root clientPath) :
    SameEffect (jailed.handle lib fs request)
        (plain.handle lib fs
          (request.mapPaths (rootedPath root))) ↔
      ActsAlike fs root request := by
  cases request with
  | openFile filename pflags =>
      rcases (hInside filename (by simp [PathRequest.paths])
        ).resolvePath hJail with ⟨real, hReal, hWalk⟩
      simp only [SftpSession.handle, PathRequest.mapPaths,
        SftpSession.openFile, SftpSession.withPath_ok hReal,
        SftpSession.withPath_ok (resolve_unjailed hFree),
        sameEffect_conclude_iff, FileSystem.openPath, hWalk,
        openAt_reached, SameCall.refl, ActsAlike]
  | opendir path =>
      rcases (hInside path (by simp [PathRequest.paths])
        ).resolvePath hJail with ⟨real, hReal, hWalk⟩
      simp only [SftpSession.handle, PathRequest.mapPaths,
        SftpSession.opendir, SftpSession.withPath_ok hReal,
        SftpSession.withPath_ok (resolve_unjailed hFree),
        sameEffect_conclude_iff, FileSystem.readDir, hWalk,
        reached_follow, SameCall.refl, ActsAlike]
  | stat path =>
      rcases (hInside path (by simp [PathRequest.paths])
        ).resolvePath hJail with ⟨real, hReal, hWalk⟩
      simp only [SftpSession.handle, PathRequest.mapPaths,
        SftpSession.stat, SftpSession.withPath_ok hReal,
        SftpSession.withPath_ok (resolve_unjailed hFree),
        sameEffect_conclude_iff, FileSystem.metadata, hWalk,
        reached_follow, SameCall.refl, ActsAlike]
  | lstat path =>
      rcases (hInside path (by simp [PathRequest.paths])
        ).resolvePath hJail with ⟨real, hReal, hWalk⟩
      simp only [SftpSession.handle, PathRequest.mapPaths,
        SftpSession.lstat, SftpSession.withPath_ok hReal,
        SftpSession.withPath_ok (resolve_unjailed hFree),
        sameEffect_conclude_iff, FileSystem.symlinkMetadata,
        hWalk, ActsAlike]
      exact linkCall_reached_iff fs (rootedPath root path)
        fs.metadataAt_linkCall
  | setstat path attrs =>
      rcases (hInside path (by simp [PathRequest.paths])
        ).resolvePath hJail with ⟨real, hReal, hWalk⟩
      have hSet := applySetstat_congr
        ((hWalk true).trans (reached_follow fs _)) attrs
      simp only [SftpSession.handle, PathRequest.mapPaths,
        SftpSession.setstat, SftpSession.withPath_ok hReal,
        SftpSession.withPath_ok (resolve_unjailed hFree),
        hSet, SameEffect, SftpOutcome.status, and_self,
        ActsAlike]
  | mkdir path =>
      rcases (hInside path (by simp [PathRequest.paths])
        ).resolvePath hJail with ⟨real, hReal, hWalk⟩
      simp only [SftpSession.handle, PathRequest.mapPaths,
        SftpSession.mkdir, SftpSession.withPath_ok hReal,
        SftpSession.withPath_ok (resolve_unjailed hFree),
        sameEffect_conclude_iff, FileSystem.createDir, hWalk,
        createDirAt_reached, SameCall.refl, ActsAlike]
  | rmdir path =>
      rcases (hInside path (by simp [PathRequest.paths])
        ).resolvePath hJail with ⟨real, hReal, hWalk⟩
      simp only [SftpSession.handle, PathRequest.mapPaths,
        SftpSession.rmdir, SftpSession.withPath_ok hReal,
        SftpSession.withPath_ok (resolve_unjailed hFree),
        sameEffect_conclude_iff, FileSystem.removeDir,
        hWalk, ActsAlike]
      exact removeDirAt_reached_iff fs (rootedPath root path)
  | remove filename =>
      rcases (hInside filename (by simp [PathRequest.paths])
        ).resolvePath hJail with ⟨real, hReal, hWalk⟩
      simp only [SftpSession.handle, PathRequest.mapPaths,
        SftpSession.remove, SftpSession.withPath_ok hReal,
        SftpSession.withPath_ok (resolve_unjailed hFree),
        sameEffect_conclude_iff, FileSystem.removeFile,
        hWalk, ActsAlike]
      exact linkCall_reached_iff fs
        (rootedPath root filename) fs.removeFileAt_linkCall
  | rename oldpath newpath =>
      rcases (hInside oldpath (by simp [PathRequest.paths])
        ).resolvePath hJail with ⟨old, hOld, hOldWalk⟩
      rcases (hInside newpath (by simp [PathRequest.paths])
        ).resolvePath hJail with ⟨new, hNew, hNewWalk⟩
      simp only [SftpSession.handle, PathRequest.mapPaths,
        SftpSession.rename, SftpSession.withPath_ok hOld,
        SftpSession.withPath_ok hNew,
        SftpSession.withPath_ok (resolve_unjailed hFree),
        sameEffect_conclude_iff, FileSystem.rename,
        hOldWalk, hNewWalk, ActsAlike]
      exact renameAt_alike_iff (rootedPath root oldpath)
        (rootedPath root newpath)
  | readlink path =>
      rcases (hInside path (by simp [PathRequest.paths])
        ).resolvePath hJail with ⟨real, hReal, hWalk⟩
      simp only [SftpSession.handle, PathRequest.mapPaths,
        SftpSession.readlink, SftpSession.withPath_ok hReal,
        SftpSession.withPath_ok (resolve_unjailed hFree),
        sameEffect_conclude_iff, FileSystem.readLink,
        hWalk, ActsAlike]
      exact linkCall_reached_iff fs (rootedPath root path)
        fs.readLinkAt_linkCall

/-
  The requests of a session with an existing root, beside
  those of a session without a root.
-/
theorem jail_transparent_iff
    (lib : SftpLibrary)
    (host : Host)
    (before fs : FileSystem)
    (rootPath : PathBuf)
    (root : Loc)
    (hRoot : before.locate rootPath = .ok root)
    (request : PathRequest)
    (hInside :
      ∀ clientPath ∈ request.paths,
        Contained fs root clientPath) :
    SameEffect
        ((SftpSession.new host before (some rootPath)).handle
          lib fs request)
        ((SftpSession.new host before none).handle lib fs
          (request.mapPaths (rootedPath root))) ↔
      ActsAlike fs root request :=
  handle_sameEffect_iff lib (new_root hRoot) rfl request
    hInside

/-
  With a link to `data` in the jail, removing `/link` deletes
  `data` and leaves the link, which now leads nowhere.
-/
theorem remove_of_link_deletes_target :
    let fs := linkedFs "data".toList
    let jailed := (jailedSession fs).handle russhSftp fs
      (.remove "/link".toList)
    let plain :=
      (SftpSession.new bareHost fs none).handle russhSftp fs
        (.remove (rootedPath [jailName] "/link".toList))
    fs.locate "/jail".toList = .ok [jailName] ∧
      Contained fs [jailName] "/link".toList ∧
      ¬ SameEffect jailed plain ∧
      jailed.status = .ok ∧ plain.status = .ok ∧
      jailed.touched =
        [.entries [jailName], .object [jailName, dataName]] ∧
      plain.touched =
        [.entries [jailName], .object [jailName, linkName]] ∧
      (jailed.fs.lookup [jailName, dataName]).isNone = true ∧
      (jailed.fs.lookup [jailName, linkName]).isSome = true ∧
      (plain.fs.lookup [jailName, dataName]).isSome = true ∧
      (plain.fs.lookup [jailName, linkName]).isNone = true := by
  refine ⟨by decide +kernel, by decide +kernel, ?_,
    by decide +kernel⟩
  rintro ⟨-, -, hTouched⟩
  exact absurd hTouched (by decide +kernel)

/- The upload over the same link is transparent. -/
theorem upload_over_link_transparent :
    let fs := linkedFs "data".toList
    fs.locate "/jail".toList = .ok [jailName] ∧
      Contained fs [jailName] "/link".toList ∧
      (SameEffect
          ((jailedSession fs).handle russhSftp fs
            (.openFile "/link".toList uploadFlags))
          ((SftpSession.new bareHost fs none).handle
            russhSftp fs
            (.openFile (rootedPath [jailName] "/link".toList)
              uploadFlags)) ↔
        ActsAlike fs [jailName]
          (.openFile "/link".toList uploadFlags)) := by
  refine ⟨by decide +kernel, by decide +kernel, ?_⟩
  apply jail_transparent_iff
  · decide +kernel
  · intro clientPath hPath
    rw [List.mem_singleton.mp hPath]
    decide +kernel

end Sshdt
