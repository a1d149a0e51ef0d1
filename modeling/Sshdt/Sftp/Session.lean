import Sshdt.Lib.FileFrame
import Sshdt.Server.Session

/-
  The SFTP subsystem (`src/sftp.rs`): a session's mapping of
  client paths and the requests that take a path.

  A request runs on a file system and gives the file system
  after it, the session after it, the reply and the places
  of the objects it acted on. The conversions of `russh-sftp`
  between its own types and those of `std::fs` are a
  parameter.

  Key definitions include:
    * `SftpLibrary`
    * `SftpSession`
    * `SftpSession.new`
    * `SftpSession.resolve`
    * `normalizeLexical`
    * `applySetstat`
    * `PathRequest`
    * `SftpSession.handle`
    * `jailedPath`

  Key theorems include:
    * `jailedPath_eq`
    * `descendAll_append`
    * `SftpSession.handle_cases`
    * `SftpSession.handle_sound`
    * `SftpSession.handle_refused`
-/

------------------------------------------------------------
-- Protocol Types
------------------------------------------------------------

namespace Sshdt

/- `russh_sftp::protocol::StatusCode`. -/
inductive StatusCode where
  | ok
  | eof
  | noSuchFile
  | permissionDenied
  | failure
  | badMessage
  | noConnection
  | connectionLost
  | opUnsupported
  deriving DecidableEq, Repr

/- The fields of `FileAttributes` that the requests use. -/
structure FileAttributes where
  size : Option Nat
  permissions : Option Nat
  deriving DecidableEq, Repr

/- `FileAttributes::default`. -/
def FileAttributes.default : FileAttributes where
  size := none
  permissions := none

/- `russh_sftp::protocol::OpenFlags`. -/
structure OpenFlags where
  read : Bool
  write : Bool
  append : Bool
  create : Bool
  truncate : Bool
  exclude : Bool
  deriving DecidableEq, Repr

/- `russh_sftp::protocol::File`. -/
structure SftpFile where
  filename : Text
  attrs : FileAttributes
  deriving DecidableEq, Repr

/- `File::dummy`. -/
def SftpFile.dummy
    (filename : Text) : SftpFile where
  filename := filename
  attrs := .default

/- The conversions that `russh-sftp` provides. -/
structure SftpLibrary where
  openOptions : OpenFlags → OpenOptions
  attributes : Metadata → FileAttributes

/- What a request sends back. -/
inductive SftpReply where
  | status
  | handle (handle : Text)
  | attrs (attrs : FileAttributes)
  | name (files : List SftpFile)
  deriving DecidableEq, Repr

/- `io_to_status`. -/
def ioToStatus : ErrorKind → StatusCode
  | .notFound => .noSuchFile
  | .permissionDenied => .permissionDenied
  | _ => .failure

end Sshdt

------------------------------------------------------------
-- Sessions And Paths
------------------------------------------------------------

namespace Sshdt

/- `HandleEntry`. -/
inductive HandleEntry where
  | file (file : OpenFile)
  | dir (entries : List SftpFile) (offset : Nat)
  deriving DecidableEq

/- `SftpSession`. -/
structure SftpSession where
  root : Option PathBuf
  startDir : PathBuf
  handles : List (Text × HandleEntry)
  nextHandle : Nat
  deriving DecidableEq

/- The loop body of `normalize_lexical`. -/
def normalizeTurn
    (out : PathBuf) : Path.Component → PathBuf
  | .parentDir => Path.pop out
  | .curDir => out
  | other => Path.push out other.asText

/- `normalize_lexical`. -/
def normalizeLexical
    (p : PathBuf) : PathBuf :=
  (Path.components p).foldl normalizeTurn []

namespace SftpSession

/- `std::env::current_dir`. -/
def currentDir
    (fs : FileSystem) : Option PathBuf :=
  match fs.locate fs.cwd with
  | .ok _ => some fs.cwd
  | .error _ => none

/- `SftpSession::new`. -/
def new
    (host : Host)
    (fs : FileSystem)
    (root : Option PathBuf) : SftpSession where
  root := root.map fun r =>
    match fs.canonicalize r with
    | .ok canon => canon
    | .error _ => r
  startDir :=
    ((sessionStartDir host).or (currentDir fs)).getD ['.']
  handles := []
  nextHandle := 0

/- `alloc_handle`. -/
def allocHandle
    (session : SftpSession)
    (entry : HandleEntry) : Text × SftpSession :=
  let key := 'h' :: Nat.toDigits 10 session.nextHandle
  (key, { session with
    nextHandle := session.nextHandle + 1
    handles := (key, entry) ::
      session.handles.filter (fun e => e.1 ≠ key) })

/- `resolve`. -/
def resolve
    (session : SftpSession)
    (fs : FileSystem)
    (clientPath : Text) : Except StatusCode PathBuf :=
  match session.root with
  | none =>
      if Path.hasRoot clientPath then
        .ok clientPath
      else
        .ok (Path.push session.startDir clientPath)
  | some root =>
      let rel := Text.trimStartMatches '/' clientPath
      let joined := Path.push root rel
      let normalized := normalizeLexical joined
      if !Path.startsWith normalized root then
        .error .permissionDenied
      else
        match fs.canonicalize normalized with
        | .ok canon =>
            if !Path.startsWith canon root then
              .error .permissionDenied
            else
              .ok canon
        | .error _ => .ok normalized

/- `to_client_path`. -/
def toClientPath
    (session : SftpSession)
    (real : PathBuf) : Text :=
  match session.root with
  | none => real
  | some root =>
      let shown := (Path.stripPrefix real root).getD real
      let s := '/' :: shown
      if s = ['/', '.'] then ['/'] else s

end SftpSession

end Sshdt

------------------------------------------------------------
-- Requests That Take A Path
------------------------------------------------------------

namespace Sshdt

/- What a request did. -/
structure SftpOutcome where
  fs : FileSystem
  session : SftpSession
  reply : Except StatusCode SftpReply
  touched : List Touch

/- The status that the client sees. -/
def SftpOutcome.status
    (outcome : SftpOutcome) : StatusCode :=
  match outcome.reply with
  | .ok _ => .ok
  | .error code => code

/- The size part of `apply_setstat`, with what it touched. -/
def applySize
    (fs : FileSystem)
    (path : PathBuf) :
    Option Nat → FileSystem × List Touch
  | none => (fs, [])
  | some size =>
      let opened :=
        fs.openPath { OpenOptions.new with write := true } path
      match opened.result with
      | .error _ => (opened.fs, opened.touched)
      | .ok file =>
          match opened.fs.setLen file size with
          | .error _ => (opened.fs, opened.touched)
          | .ok changed => (changed, opened.touched)

/- `apply_setstat`: the state, and what was touched. -/
def applySetstat
    (fs : FileSystem)
    (path : PathBuf)
    (attrs : FileAttributes) : FileSystem × List Touch :=
  let sized := applySize fs path attrs.size
  match attrs.permissions with
  | none => sized
  | some mode =>
      let set := sized.1.setPermissions (mode &&& 0o7777) path
      (set.fs, sized.2 ++ set.touched)

namespace SftpSession

/- A request whose path `resolve` turned away. -/
def refused
    (session : SftpSession)
    (fs : FileSystem)
    (code : StatusCode) : SftpOutcome where
  fs := fs
  session := session
  reply := .error code
  touched := []

/-
  The end of a request that makes one call: its error as a
  status, or a reply and the session made from its result.
-/
def conclude
    {α : Type}
    (session : SftpSession)
    (call : Effect α)
    (f : α → SftpReply × SftpSession) : SftpOutcome :=
  match call.result with
  | .error kind => {
      fs := call.fs
      session := session
      reply := .error (ioToStatus kind)
      touched := call.touched }
  | .ok a => {
      fs := call.fs
      session := (f a).2
      reply := .ok (f a).1
      touched := call.touched }

/- The options that `open` asks the system for. -/
def openOptions
    (lib : SftpLibrary)
    (pflags : OpenFlags) : OpenOptions :=
  let opts := lib.openOptions pflags
  if pflags.write || pflags.append then
    { opts with create := true }
  else
    { opts with read := true }

/- Continue with the path that `resolve` gives, if any. -/
def withPath
    (session : SftpSession)
    (fs : FileSystem)
    (clientPath : Text)
    (k : PathBuf → SftpOutcome) : SftpOutcome :=
  match session.resolve fs clientPath with
  | .error code => session.refused fs code
  | .ok real => k real

/- `open`. -/
def openFile
    (session : SftpSession)
    (lib : SftpLibrary)
    (fs : FileSystem)
    (filename : Text)
    (pflags : OpenFlags) : SftpOutcome :=
  session.withPath fs filename fun path =>
    session.conclude
      (fs.openPath (openOptions lib pflags) path) fun file =>
        let (key, session) := session.allocHandle (.file file)
        (.handle key, session)

/- `opendir`. -/
def opendir
    (session : SftpSession)
    (lib : SftpLibrary)
    (fs : FileSystem)
    (path : Text) : SftpOutcome :=
  session.withPath fs path fun real =>
    session.conclude (fs.readDir real) fun dirents =>
      let entries := dirents.map fun (name, metadata) =>
        { filename := name.text
          attrs := lib.attributes metadata }
      let (key, session) :=
        session.allocHandle (.dir entries 0)
      (.handle key, session)

/- `stat`. -/
def stat
    (session : SftpSession)
    (lib : SftpLibrary)
    (fs : FileSystem)
    (path : Text) : SftpOutcome :=
  session.withPath fs path fun real =>
    session.conclude (fs.metadata real) fun metadata =>
      (.attrs (lib.attributes metadata), session)

/- `lstat`. -/
def lstat
    (session : SftpSession)
    (lib : SftpLibrary)
    (fs : FileSystem)
    (path : Text) : SftpOutcome :=
  session.withPath fs path fun real =>
    session.conclude (fs.symlinkMetadata real)
      fun metadata =>
        (.attrs (lib.attributes metadata), session)

/- `setstat`, which answers `Ok` whatever could be set. -/
def setstat
    (session : SftpSession)
    (fs : FileSystem)
    (path : Text)
    (attrs : FileAttributes) : SftpOutcome :=
  session.withPath fs path fun real => {
    fs := (applySetstat fs real attrs).1
    session := session
    reply := .ok .status
    touched := (applySetstat fs real attrs).2 }

/- `mkdir`. -/
def mkdir
    (session : SftpSession)
    (fs : FileSystem)
    (path : Text) : SftpOutcome :=
  session.withPath fs path fun real =>
    session.conclude (fs.createDir real) fun _ =>
      (.status, session)

/- `rmdir`. -/
def rmdir
    (session : SftpSession)
    (fs : FileSystem)
    (path : Text) : SftpOutcome :=
  session.withPath fs path fun real =>
    session.conclude (fs.removeDir real) fun _ =>
      (.status, session)

/- `remove`. -/
def remove
    (session : SftpSession)
    (fs : FileSystem)
    (filename : Text) : SftpOutcome :=
  session.withPath fs filename fun real =>
    session.conclude (fs.removeFile real) fun _ =>
      (.status, session)

/- `rename`. -/
def rename
    (session : SftpSession)
    (fs : FileSystem)
    (oldpath newpath : Text) : SftpOutcome :=
  session.withPath fs oldpath fun old =>
    session.withPath fs newpath fun new =>
      session.conclude (fs.rename old new) fun _ =>
        (.status, session)

/- `readlink`. -/
def readlink
    (session : SftpSession)
    (fs : FileSystem)
    (path : Text) : SftpOutcome :=
  session.withPath fs path fun real =>
    session.conclude (fs.readLink real) fun target =>
      (.name [.dummy (session.toClientPath target)], session)

end SftpSession

/- The requests that take one or two paths. -/
inductive PathRequest where
  | openFile (filename : Text) (pflags : OpenFlags)
  | opendir (path : Text)
  | stat (path : Text)
  | lstat (path : Text)
  | setstat (path : Text) (attrs : FileAttributes)
  | mkdir (path : Text)
  | rmdir (path : Text)
  | remove (filename : Text)
  | rename (oldpath newpath : Text)
  | readlink (path : Text)
  deriving DecidableEq, Repr

/- The client paths of a request. -/
def PathRequest.paths : PathRequest → List Text
  | .openFile filename _ => [filename]
  | .opendir path => [path]
  | .stat path => [path]
  | .lstat path => [path]
  | .setstat path _ => [path]
  | .mkdir path => [path]
  | .rmdir path => [path]
  | .remove filename => [filename]
  | .rename oldpath newpath => [oldpath, newpath]
  | .readlink path => [path]

/- The same request on other paths. -/
def PathRequest.mapPaths
    (f : Text → Text) : PathRequest → PathRequest
  | .openFile filename pflags => .openFile (f filename) pflags
  | .opendir path => .opendir (f path)
  | .stat path => .stat (f path)
  | .lstat path => .lstat (f path)
  | .setstat path attrs => .setstat (f path) attrs
  | .mkdir path => .mkdir (f path)
  | .rmdir path => .rmdir (f path)
  | .remove filename => .remove (f filename)
  | .rename oldpath newpath => .rename (f oldpath) (f newpath)
  | .readlink path => .readlink (f path)

/- The handler of a request. -/
def SftpSession.handle
    (session : SftpSession)
    (lib : SftpLibrary)
    (fs : FileSystem) : PathRequest → SftpOutcome
  | .openFile filename pflags =>
      session.openFile lib fs filename pflags
  | .opendir path => session.opendir lib fs path
  | .stat path => session.stat lib fs path
  | .lstat path => session.lstat lib fs path
  | .setstat path attrs => session.setstat fs path attrs
  | .mkdir path => session.mkdir fs path
  | .rmdir path => session.rmdir fs path
  | .remove filename => session.remove fs filename
  | .rename oldpath newpath =>
      session.rename fs oldpath newpath
  | .readlink path => session.readlink fs path

end Sshdt

------------------------------------------------------------
-- Outcomes
------------------------------------------------------------

namespace Sshdt

namespace SftpSession

/- The status that a call alone decides. -/
def callStatus
    {α : Type}
    (call : Effect α) : StatusCode :=
  match call.result with
  | .ok _ => .ok
  | .error kind => ioToStatus kind

variable {α : Type}
variable {session : SftpSession}
variable {call : Effect α}
variable {f : α → SftpReply × SftpSession}

@[simp] theorem conclude_fs :
    (session.conclude call f).fs = call.fs := by
  unfold conclude
  split <;> rfl

@[simp] theorem conclude_touched :
    (session.conclude call f).touched = call.touched := by
  unfold conclude
  split <;> rfl

@[simp] theorem conclude_status :
    (session.conclude call f).status = callStatus call := by
  unfold conclude callStatus
  split
  next hResult => simp [SftpOutcome.status, hResult]
  next hResult => simp [SftpOutcome.status, hResult]

theorem withPath_ok
    {fs : FileSystem}
    {clientPath : Text}
    {real : PathBuf}
    {k : PathBuf → SftpOutcome}
    (hResolve : session.resolve fs clientPath = .ok real) :
    session.withPath fs clientPath k = k real := by
  simp [withPath, hResolve]

end SftpSession

end Sshdt

------------------------------------------------------------
-- Client Paths In A Jail
------------------------------------------------------------

namespace Sshdt

/- The path below `root` that a client path spells. -/
def jailedPath
    (root : PathBuf)
    (clientPath : Text) : PathBuf :=
  normalizeLexical
    (Path.push root (Text.trimStartMatches '/' clientPath))

/- The parts of a client path, as seen from the root. -/
def clientParts
    (clientPath : Text) : List Path.Component :=
  Path.relativeComponents
    (Text.trimStartMatches '/' clientPath)

/- One part of a client path, without a look at links. -/
def descend
    (names : List Text) : Path.Component → List Text
  | .normal name => names ++ [name]
  | .parentDir => names.dropLast
  | _ => names

/- The parts of a client path, one after the other. -/
def descendAll
    (names : List Text)
    (parts : List Path.Component) : List Text :=
  parts.foldl descend names

/- One turn of the loop of `normalize_lexical`. -/
theorem normalizeTurn_ofNames
    {names : List Text}
    {part : Path.Component}
    (hNames : ∀ n ∈ names, Path.ProperName n)
    (hPart :
      part = .parentDir ∨
        ∃ name, part = .normal name ∧ Path.ProperName name) :
    normalizeTurn (Path.ofNames names) part =
        Path.ofNames (descend names part) ∧
      ∀ n ∈ descend names part, Path.ProperName n := by
  rcases hPart with rfl | ⟨name, rfl, hName⟩
  · refine ⟨Path.pop_ofNames hNames, ?_⟩
    intro n hn
    exact hNames n (List.mem_of_mem_dropLast hn)
  · refine ⟨Path.push_ofNames hNames hName, ?_⟩
    intro n hn
    rcases List.mem_append.mp hn with hOld | hNew
    · exact hNames n hOld
    · rw [List.mem_singleton.mp hNew]
      exact hName

/- The loop of `normalize_lexical` from a normal form on. -/
theorem foldl_normalizeTurn
    {parts : List Path.Component}
    (hParts :
      ∀ part ∈ parts, part = .parentDir ∨
        ∃ name, part = .normal name ∧
          Path.ProperName name) :
    ∀ names, (∀ n ∈ names, Path.ProperName n) →
      parts.foldl normalizeTurn (Path.ofNames names) =
          Path.ofNames (descendAll names parts) ∧
        ∀ n ∈ descendAll names parts,
          Path.ProperName n := by
  induction parts with
  | nil =>
      intro names hNames
      exact ⟨rfl, hNames⟩
  | cons part parts ih =>
      intro names hNames
      have hTurn := normalizeTurn_ofNames hNames
        (hParts part List.mem_cons_self)
      have hRest := ih
        (fun q hq => hParts q (List.mem_cons_of_mem _ hq))
        (descend names part) hTurn.2
      refine ⟨?_, hRest.2⟩
      rw [List.foldl_cons, hTurn.1]
      exact hRest.1

/- A plain list of names is descended to itself. -/
theorem descendAll_normal
    (names more : List Text) :
    descendAll names (more.map Path.Component.normal) =
      names ++ more := by
  induction more generalizing names with
  | nil => simp [descendAll]
  | cons name more ih =>
      have hStep := ih (names ++ [name])
      simpa [descendAll, descend] using hStep

/-
  In a jail with a canonical root, a client path stands for
  the names that its parts lead to from the root.
-/
theorem jailedPath_eq
    {root : List Text}
    (hRoot : ∀ n ∈ root, Path.ProperName n)
    (clientPath : Text) :
    jailedPath (Path.ofNames root) clientPath =
        Path.ofNames (descendAll root (clientParts clientPath)) ∧
      ∀ n ∈ descendAll root (clientParts clientPath),
        Path.ProperName n := by
  have hStart : normalizeTurn [] .rootDir = Path.ofNames [] := rfl
  have hNormal :
      ∀ part ∈ root.map Path.Component.normal,
        part = .parentDir ∨
          ∃ name, part = .normal name ∧
            Path.ProperName name := by
    intro part hPart
    rcases List.mem_map.mp hPart with ⟨name, hName, rfl⟩
    exact .inr ⟨name, rfl, hRoot name hName⟩
  have hDown := foldl_normalizeTurn hNormal [] (by simp)
  have hParts :
      ∀ part ∈ clientParts clientPath,
        part = .parentDir ∨
          ∃ name, part = .normal name ∧
            Path.ProperName name := by
    intro part hPart
    exact Path.mem_relativeComponents hPart
  have hClient := foldl_normalizeTurn hParts root hRoot
  rw [descendAll_normal, List.nil_append] at hDown
  refine ⟨?_, hClient.2⟩
  unfold jailedPath normalizeLexical
  rw [Path.components_push_ofNames hRoot
      (Path.hasRoot_trimStartMatches clientPath),
    List.cons_append, List.foldl_cons, hStart,
    List.foldl_append, hDown.1]
  exact hClient.1

/-
  A client path that never climbs above the root stands for
  the root followed by what it spells on its own.
-/
theorem descendAll_append
    (root : List Text)
    (parts : List Path.Component)
    (hInside :
      ∀ leading, leading <+: parts →
        root <+: descendAll root leading) :
    descendAll root parts = root ++ descendAll [] parts := by
  induction parts using List.reverseRecOn with
  | nil => simp [descendAll]
  | append_singleton parts part ih =>
      have hBefore := ih (fun leading hLeading =>
        hInside leading
          (hLeading.trans (List.prefix_append _ _)))
      have hAfter := hInside (parts ++ [part])
        (List.prefix_refl _)
      simp only [descendAll, List.foldl_append,
        List.foldl_cons, List.foldl_nil] at hBefore hAfter ⊢
      rw [hBefore] at hAfter ⊢
      cases part with
      | normal name => simp [descend]
      | rootDir => simp [descend]
      | curDir => simp [descend]
      | parentDir =>
          simp only [descend] at hAfter ⊢
          cases hBelow : parts.foldl descend [] with
          | nil =>
              rw [hBelow, List.append_nil] at hAfter
              have hLength := hAfter.length_le
              rw [List.length_dropLast] at hLength
              have hNil : root = [] := by
                apply List.length_eq_zero_iff.mp
                omega
              simp [hNil]
          | cons n rest =>
              rw [List.dropLast_append_of_ne_nil (by simp)]

end Sshdt

------------------------------------------------------------
-- Setting Attributes
------------------------------------------------------------

namespace Sshdt

/- Setting a size moves no entry, so paths lead on alike. -/
theorem applySize_resolvePath
    (fs : FileSystem)
    (path : PathBuf)
    (size : Option Nat)
    (follow : Bool)
    (p : PathBuf) :
    (applySize fs path size).1.resolvePath follow p =
      fs.resolvePath follow p := by
  have hOpened :
      ∀ w, FileSystem.SameTree fs
        (fs.openAt { OpenOptions.new with write := true }
          w).fs := by
    intro w
    exact FileSystem.openAt_sameTree (by decide)
  cases size with
  | none => rfl
  | some size =>
      simp only [applySize, FileSystem.openPath]
      split
      · exact (hOpened _).resolvePath follow p
      · split
        · exact (hOpened _).resolvePath follow p
        next hLen =>
          have hChanged := FileSystem.setLen_sameTree hLen
          exact ((hOpened _).trans hChanged).resolvePath
            follow p

/- `apply_setstat` sees its path only through its walk. -/
theorem applySetstat_congr
    {fs : FileSystem}
    {p q : PathBuf}
    (hWalk : fs.resolvePath true p = fs.resolvePath true q)
    (attrs : FileAttributes) :
    applySetstat fs p attrs = applySetstat fs q attrs := by
  have hSize :
      applySize fs p attrs.size = applySize fs q attrs.size := by
    cases attrs.size with
    | none => rfl
    | some size =>
        simp [applySize, FileSystem.openPath,
          OpenOptions.new, hWalk]
  unfold applySetstat
  simp only [FileSystem.setPermissions,
    applySize_resolvePath, hSize, hWalk]

/- `apply_setstat` acts on the object its path leads to. -/
theorem applySetstat_within
    {fs : FileSystem}
    {p : PathBuf}
    {base : Loc}
    (hFound :
      ∀ loc, fs.resolvePath true p = .existing loc →
        base <+: loc)
    (attrs : FileAttributes) :
    ∀ touch ∈ (applySetstat fs p attrs).2,
      base <+: touch.loc := by
  have hOpened :
      (fs.openPath { OpenOptions.new with write := true }
        p).Within base := by
    apply (FileSystem.openAt_within_iff ?_).mpr
    · rintro ⟨hCreates, -⟩
      exact absurd hCreates (by decide)
    · intro loc hLoc
      exact .inr (hFound loc hLoc)
  have hSize :
      ∀ touch ∈ (applySize fs p attrs.size).2,
        base <+: touch.loc := by
    cases attrs.size with
    | none => simp [applySize]
    | some size =>
        simp only [applySize]
        split
        · exact hOpened
        · split
          · exact hOpened
          · exact hOpened
  unfold applySetstat
  split
  · exact hSize
  next mode _ =>
    have hMode :
        ((applySize fs p attrs.size).1.setPermissions
          (mode &&& 0o7777) p).Within base := by
      apply FileSystem.setPermissionsAt_within
      intro loc hLoc
      rw [applySize_resolvePath] at hLoc
      exact hFound loc hLoc
    intro touch hTouch
    rcases List.mem_append.mp hTouch with hFirst | hSecond
    · exact hSize touch hFirst
    · exact hMode touch hSecond

/- `apply_setstat` changes nothing else. -/
theorem applySetstat_frame
    (fs : FileSystem)
    (p : PathBuf)
    (attrs : FileAttributes) :
    FileSystem.Frame (applySetstat fs p attrs).2 fs
      (applySetstat fs p attrs).1 := by
  have hOpened := fs.openAt_framed (fs.resolvePath true p)
    { OpenOptions.new with write := true }
  have hSize :
      FileSystem.Frame (applySize fs p attrs.size).2 fs
          (applySize fs p attrs.size).1 ∧
        FileSystem.SameTree fs
          (applySize fs p attrs.size).1 := by
    cases attrs.size with
    | none => exact ⟨.refl _ _, rfl, rfl⟩
    | some size =>
        have hSame :
            FileSystem.SameTree fs
              (fs.openAt
                { OpenOptions.new with write := true }
                (fs.resolvePath true p)).fs :=
          FileSystem.openAt_sameTree (by decide)
        simp only [applySize, FileSystem.openPath]
        split
        · exact ⟨hOpened, hSame⟩
        next hOpen =>
          split
          · exact ⟨hOpened, hSame⟩
          next hLen =>
            exact ⟨FileSystem.openAt_setLen_frame (by decide)
                hOpen hLen,
              hSame.trans (FileSystem.setLen_sameTree hLen)⟩
  unfold applySetstat
  split
  · exact hSize.1
  · exact hSize.1.trans
      (FileSystem.setPermissionsAt_framed _ _ _) hSize.2

end Sshdt

------------------------------------------------------------
-- What A Request Leaves Alone
------------------------------------------------------------

namespace Sshdt

namespace SftpSession

variable (session : SftpSession)
variable (fs : FileSystem)

/-
  An outcome that changed nothing but what it reports
  and that kept the session's root.
-/
structure Sound
    (outcome : SftpOutcome) : Prop where
  frame : FileSystem.Frame outcome.touched fs outcome.fs
  root : outcome.session.root = session.root

/- A request that makes one framed call. -/
theorem conclude_sound
    {α : Type}
    {call : Effect α}
    {f : α → SftpReply × SftpSession}
    (hFramed : call.Framed fs)
    (hRoot : ∀ a, (f a).2.root = session.root) :
    session.Sound fs (session.conclude call f) where
  frame := by
    simpa [Effect.Framed] using hFramed
  root := by
    unfold conclude
    split
    · rfl
    · exact hRoot _

/- A path that is turned away changes nothing. -/
theorem withPath_cases
    (clientPath : Text)
    (k : PathBuf → SftpOutcome) :
    (∃ code, session.withPath fs clientPath k =
      session.refused fs code) ∨
    ∃ real, session.withPath fs clientPath k = k real ∧
      session.resolve fs clientPath = .ok real := by
  cases hResolve : session.resolve fs clientPath with
  | error code =>
      exact .inl ⟨code, by simp [withPath, hResolve]⟩
  | ok real =>
      exact .inr ⟨real, by simp [withPath, hResolve], rfl⟩

/-
  Every request resolves its paths one after the other and
  then does something sound.
-/
theorem handle_cases
    (lib : SftpLibrary)
    (request : PathRequest) :
    (∃ path k,
      request.paths = [path] ∧
      session.handle lib fs request =
        session.withPath fs path k ∧
      ∀ real, session.Sound fs (k real)) ∨
    ∃ oldpath newpath,
      ∃ k : PathBuf → PathBuf → SftpOutcome,
      request.paths = [oldpath, newpath] ∧
      session.handle lib fs request =
        session.withPath fs oldpath (fun old =>
          session.withPath fs newpath (k old)) ∧
      ∀ old new, session.Sound fs (k old new) := by
  cases request with
  | openFile filename pflags =>
      refine .inl ⟨filename, _, rfl, rfl, fun real => ?_⟩
      exact session.conclude_sound fs (fs.openAt_framed _ _)
        (fun _ => rfl)
  | opendir path =>
      refine .inl ⟨path, _, rfl, rfl, fun real => ?_⟩
      exact session.conclude_sound fs (fs.readDirAt_framed _)
        (fun _ => rfl)
  | stat path =>
      refine .inl ⟨path, _, rfl, rfl, fun real => ?_⟩
      exact session.conclude_sound fs (fs.metadataAt_framed _)
        (fun _ => rfl)
  | lstat path =>
      refine .inl ⟨path, _, rfl, rfl, fun real => ?_⟩
      exact session.conclude_sound fs (fs.metadataAt_framed _)
        (fun _ => rfl)
  | setstat path attrs =>
      refine .inl ⟨path, _, rfl, rfl, fun real => ?_⟩
      exact ⟨applySetstat_frame fs real attrs, rfl⟩
  | mkdir path =>
      refine .inl ⟨path, _, rfl, rfl, fun real => ?_⟩
      exact session.conclude_sound fs
        (fs.createDirAt_framed _) (fun _ => rfl)
  | rmdir path =>
      refine .inl ⟨path, _, rfl, rfl, fun real => ?_⟩
      exact session.conclude_sound fs
        (fs.removeDirAt_framed _) (fun _ => rfl)
  | remove filename =>
      refine .inl ⟨filename, _, rfl, rfl, fun real => ?_⟩
      exact session.conclude_sound fs
        (fs.removeFileAt_framed _) (fun _ => rfl)
  | rename oldpath newpath =>
      refine .inr
        ⟨oldpath, newpath, _, rfl, rfl, fun old new => ?_⟩
      exact session.conclude_sound fs
        (fs.renameAt_framed _ _) (fun _ => rfl)
  | readlink path =>
      refine .inl ⟨path, _, rfl, rfl, fun real => ?_⟩
      exact session.conclude_sound fs
        (fs.readLinkAt_framed _) (fun _ => rfl)

theorem refused_sound
    (code : StatusCode) :
    session.Sound fs (session.refused fs code) :=
  ⟨FileSystem.Frame.refl _ _, rfl⟩

/-
  Whatever a request does, everything outside the places it
  reports is as it was, and so is the session's root.
-/
theorem handle_sound
    (lib : SftpLibrary)
    (request : PathRequest) :
    session.Sound fs (session.handle lib fs request) := by
  have hOne :
      ∀ path k, (∀ real, session.Sound fs (k real)) →
        session.Sound fs (session.withPath fs path k) := by
    intro path k hSound
    rcases session.withPath_cases fs path k with
      ⟨code, hRefused⟩ | ⟨real, hReal, -⟩
    · rw [hRefused]
      exact session.refused_sound fs code
    · rw [hReal]
      exact hSound real
  rcases session.handle_cases fs lib request with
    ⟨path, k, -, hHandle, hSound⟩ |
      ⟨oldpath, newpath, k, -, hHandle, hSound⟩
  · rw [hHandle]
    exact hOne path k hSound
  · rw [hHandle]
    apply hOne
    intro old
    exact hOne newpath (k old) (hSound old)

/- A request whose path is turned away does nothing. -/
theorem handle_refused
    (lib : SftpLibrary)
    (request : PathRequest)
    (hRefused :
      ¬ ∀ clientPath ∈ request.paths, ∃ real,
        session.resolve fs clientPath = .ok real) :
    ∃ code,
      session.handle lib fs request =
        session.refused fs code := by
  rcases session.handle_cases fs lib request with
    ⟨path, k, hPaths, hHandle, -⟩ |
      ⟨oldpath, newpath, k, hPaths, hHandle, -⟩
  · rcases session.withPath_cases fs path k with
      ⟨code, hOutcome⟩ | ⟨real, -, hReal⟩
    · exact ⟨code, hHandle.trans hOutcome⟩
    · exact (hRefused (by simp [hPaths, hReal])).elim
  · rcases session.withPath_cases fs oldpath
        (fun old => session.withPath fs newpath (k old)) with
      ⟨code, hOutcome⟩ | ⟨old, hOutcome, hOld⟩
    · exact ⟨code, hHandle.trans hOutcome⟩
    · rcases session.withPath_cases fs newpath (k old) with
        ⟨code, hInner⟩ | ⟨new, -, hNew⟩
      · exact ⟨code, (hHandle.trans hOutcome).trans hInner⟩
      · exact (hRefused
          (by simp [hPaths, hOld, hNew])).elim

end SftpSession

end Sshdt
