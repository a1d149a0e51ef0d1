import Sshdt.Lib.FileSystem

/-
  The calls of `std::fs` on a Unix file system.

  Every call is given the result of resolving its path, so
  that the same call can be studied for two paths that lead
  to the same place. Besides the new state and the result, a
  call reports what it touched: the places of the objects
  that it read, created, changed or removed, and the
  directories whose entries it changed. A call that fails
  does nothing.

  Key definitions include:
    * `Touch`
    * `Effect`
    * `OpenOptions`
    * `FileSystem.openAt`
    * `FileSystem.readDirAt`
    * `FileSystem.metadataAt`
    * `FileSystem.createDirAt`
    * `FileSystem.removeDirAt`
    * `FileSystem.removeFileAt`
    * `FileSystem.renameCheck`
    * `FileSystem.renameAt`
    * `FileSystem.readLinkAt`
    * `Effect.Within`
    * `FileSystem.LinkCall`

  Key theorems include:
    * `FileSystem.openAt_within_iff`
    * `FileSystem.renameCheck_move`
    * `FileSystem.renameAt_within_iff`
-/

------------------------------------------------------------
-- Effects
------------------------------------------------------------

/-
  One thing that a call acted on: the object at a place, or
  the entries of a directory, of which one was added or
  removed.
-/
inductive Touch where
  | object (loc : Loc)
  | entries (dir : Loc)
  deriving DecidableEq

/- Where it is. -/
def Touch.loc : Touch → Loc
| .object loc => loc
| .entries dir => dir

@[simp] theorem Touch.loc_object
    (loc : Loc) :
    (Touch.object loc).loc = loc := rfl

@[simp] theorem Touch.loc_entries
    (dir : Loc) :
    (Touch.entries dir).loc = dir := rfl

/-
  What an object that is added or removed touches: itself
  and the directory that it is in.
-/
def Touch.entry
    (loc : Loc) : List Touch :=
  [.entries loc.dropLast, .object loc]

@[simp] theorem Touch.object_mem_entry_iff
    (loc place : Loc) :
    .object place ∈ Touch.entry loc ↔ place = loc := by
  simp [Touch.entry]

@[simp] theorem Touch.entries_mem_entry_iff
    (loc dir : Loc) :
    .entries dir ∈ Touch.entry loc ↔ dir = loc.dropLast := by
  simp [Touch.entry]

/- What a call did: the state, its result, and the places. -/
structure Effect (α : Type) where
  fs : FileSystem
  result : Except ErrorKind α
  touched : List Touch

namespace Effect

variable {α : Type}

/- A call that fails and does nothing. -/
def fail
    (fs : FileSystem)
    (kind : ErrorKind) : Effect α where
  fs := fs
  result := .error kind
  touched := []

/- A call that succeeds. -/
def done
    (fs : FileSystem)
    (a : α)
    (touched : List Touch) : Effect α where
  fs := fs
  result := .ok a
  touched := touched

@[simp] theorem fail_fs
    (fs : FileSystem)
    (kind : ErrorKind) :
    (fail fs kind : Effect α).fs = fs := rfl

@[simp] theorem fail_result
    (fs : FileSystem)
    (kind : ErrorKind) :
    (fail fs kind : Effect α).result = .error kind := rfl

@[simp] theorem fail_touched
    (fs : FileSystem)
    (kind : ErrorKind) :
    (fail fs kind : Effect α).touched = [] := rfl

@[simp] theorem done_fs
    (fs : FileSystem)
    (a : α)
    (touched : List Touch) :
    (done fs a touched).fs = fs := rfl

@[simp] theorem done_result
    (fs : FileSystem)
    (a : α)
    (touched : List Touch) :
    (done fs a touched).result = .ok a := rfl

@[simp] theorem done_touched
    (fs : FileSystem)
    (a : α)
    (touched : List Touch) :
    (done fs a touched).touched = touched := rfl

end Effect

------------------------------------------------------------
-- Editing The Tree
------------------------------------------------------------

namespace FileSystem

/- The object at a place. -/
def lookup
    (fs : FileSystem)
    (loc : Loc) : Option FileTree :=
  fs.root.lookup loc

/- Change one directory. -/
def editDir
    (fs : FileSystem)
    (f : Nat × List (EntryName × FileTree) →
      Nat × List (EntryName × FileTree))
    (d : Loc) : FileSystem where
  root := fs.root.editDir f d
  rootDir := by simpa using fs.rootDir
  files := fs.files
  nextIno := fs.nextIno
  cwd := fs.cwd
  umask := fs.umask

/- Remove the entry `n` of the directory at `d`. -/
def erase
    (fs : FileSystem)
    (d : Loc)
    (n : EntryName) : FileSystem :=
  fs.editDir (fun (mode, entries) =>
    (mode, entries.filter (fun e => e.1 ≠ n))) d

/- Put `t` at the entry `n` of the directory at `d`. -/
def insert
    (fs : FileSystem)
    (d : Loc)
    (n : EntryName)
    (t : FileTree) : FileSystem :=
  fs.editDir (fun (mode, entries) =>
    (mode, entries.filter (fun e => e.1 ≠ n) ++ [(n, t)])) d

/- Remove the object at a place; the root stays. -/
def eraseAt
    (fs : FileSystem)
    (loc : Loc) : FileSystem :=
  match loc.getLast? with
  | none => fs
  | some n => fs.erase loc.dropLast n

/- Put an object at a place; the root stays. -/
def insertAt
    (fs : FileSystem)
    (loc : Loc)
    (t : FileTree) : FileSystem :=
  match loc.getLast? with
  | none => fs
  | some n => fs.insert loc.dropLast n t

/- Change the contents and the mode of an inode. -/
def setFile
    (fs : FileSystem)
    (ino : Nat)
    (data : FileData) : FileSystem :=
  { fs with files := Function.update fs.files ino data }

end FileSystem

------------------------------------------------------------
-- Opening Files
------------------------------------------------------------

/- `std::fs::OpenOptions`. -/
structure OpenOptions where
  read : Bool
  write : Bool
  append : Bool
  truncate : Bool
  create : Bool
  createNew : Bool
  deriving DecidableEq, Repr

namespace OpenOptions

/- `OpenOptions::new`. -/
def new : OpenOptions where
  read := false
  write := false
  append := false
  truncate := false
  create := false
  createNew := false

/-
  Whether `open` accepts the options: some access is asked
  for, nothing is created or truncated without write access,
  and an appending open truncates no existing file.
-/
def valid
    (opts : OpenOptions) : Bool :=
  (opts.read || opts.write || opts.append) &&
    if opts.append then
      !opts.truncate || opts.createNew
    else if opts.write then
      true
    else
      !(opts.truncate || opts.create || opts.createNew)

/- Whether an open with the options makes a missing file. -/
def creates
    (opts : OpenOptions) : Bool :=
  opts.valid && (opts.create || opts.createNew)

end OpenOptions

/- What an open file description stands for. -/
inductive OpenObject where
  | file (ino : Nat)
  | dir (loc : Loc)
  deriving DecidableEq

/- `std::fs::File`. -/
structure OpenFile where
  object : OpenObject
  readable : Bool
  writable : Bool
  append : Bool
  deriving DecidableEq

namespace FileSystem

/- The open file that the options give on an object. -/
def openFile
    (opts : OpenOptions)
    (object : OpenObject) : OpenFile where
  object := object
  readable := opts.read
  writable := opts.write || opts.append
  append := opts.append

/- An inode that neither the tree nor an open file has. -/
def freshIno
    (fs : FileSystem) : Nat :=
  max fs.nextIno fs.root.inoBound

/- Make a regular file in a directory and open it. -/
def createFile
    (fs : FileSystem)
    (opts : OpenOptions)
    (d : Loc)
    (n : EntryName) : Effect OpenFile :=
  let ino := fs.freshIno
  let made := (fs.insert d n (.file ino)).setFile ino
    { bytes := [], mode := 0o666 &&& (0o777 ^^^ fs.umask) }
  .done { made with nextIno := ino + 1 }
    (openFile opts (.file ino)) (Touch.entry (d ++ [n]))

/- `OpenOptions::open` on a resolved path. -/
def openAt
    (fs : FileSystem)
    (opts : OpenOptions)
    (w : Walk) : Effect OpenFile :=
  if !opts.valid then
    .fail fs .invalidInput
  else
    match w with
    | .error kind => .fail fs kind
    | .missing d n slash =>
        if !opts.creates then
          .fail fs .notFound
        else if slash then
          .fail fs .isADirectory
        else
          fs.createFile opts d n
    | .existing loc =>
        if opts.createNew then
          .fail fs .alreadyExists
        else
          match fs.lookup loc with
          | none => .fail fs .notFound
          | some (.symlink _) => .fail fs .filesystemLoop
          | some (.dir _ _) =>
              if opts.write || opts.append then
                .fail fs .isADirectory
              else
                .done fs (openFile opts (.dir loc)) [.object loc]
          | some (.file ino) =>
              let opened :=
                if opts.truncate then
                  fs.setFile ino
                    { fs.files ino with bytes := [] }
                else
                  fs
              .done opened (openFile opts (.file ino))
                [.object loc]

/- `OpenOptions::open`; an exclusive one follows no link. -/
def openPath
    (fs : FileSystem)
    (opts : OpenOptions)
    (p : PathBuf) : Effect OpenFile :=
  fs.openAt opts (fs.resolvePath (!opts.createNew) p)

end FileSystem

------------------------------------------------------------
-- Reading Directories, Attributes And Links
------------------------------------------------------------

/- The type of an object. -/
inductive FileType where
  | file
  | dir
  | symlink
  deriving DecidableEq, Repr

/- `std::fs::Metadata`, without owners and times. -/
structure Metadata where
  fileType : FileType
  size : Nat
  mode : Nat
  deriving DecidableEq, Repr

namespace FileSystem

/- The metadata of an object. -/
def metadataOf
    (fs : FileSystem) : FileTree → Metadata
| .file ino => {
    fileType := .file
    size := (fs.files ino).bytes.length
    mode := (fs.files ino).mode }
| .symlink target => {
    fileType := .symlink
    size := (Text.asBytes target).length
    mode := 0o777 }
| .dir mode _ => {
    fileType := .dir
    size := 0
    mode := mode }

/- `stat` and `lstat` on a resolved path. -/
def metadataAt
    (fs : FileSystem)
    (w : Walk) : Effect Metadata :=
  match w with
  | .error kind => .fail fs kind
  | .missing _ _ _ => .fail fs .notFound
  | .existing loc =>
      match fs.lookup loc with
      | none => .fail fs .notFound
      | some t => .done fs (fs.metadataOf t) [.object loc]

/- `fs::metadata`. -/
def metadata
    (fs : FileSystem)
    (p : PathBuf) : Effect Metadata :=
  fs.metadataAt (fs.resolvePath true p)

/- `fs::symlink_metadata`. -/
def symlinkMetadata
    (fs : FileSystem)
    (p : PathBuf) : Effect Metadata :=
  fs.metadataAt (fs.resolvePath false p)

/-
  `fs::read_dir` on a resolved path, with the metadata of
  every entry; `DirEntry::metadata` follows no link.
-/
def readDirAt
    (fs : FileSystem)
    (w : Walk) : Effect (List (EntryName × Metadata)) :=
  match w with
  | .error kind => .fail fs kind
  | .missing _ _ _ => .fail fs .notFound
  | .existing loc =>
      match fs.lookup loc with
      | none => .fail fs .notFound
      | some (.file _) => .fail fs .notADirectory
      | some (.symlink _) => .fail fs .notADirectory
      | some (.dir _ entries) =>
          .done fs
            (entries.map fun e => (e.1, fs.metadataOf e.2))
            (.object loc ::
              entries.map fun e => .object (loc ++ [e.1]))

/- `fs::read_dir`. -/
def readDir
    (fs : FileSystem)
    (p : PathBuf) : Effect (List (EntryName × Metadata)) :=
  fs.readDirAt (fs.resolvePath true p)

/- `fs::read_link` on a resolved path. -/
def readLinkAt
    (fs : FileSystem)
    (w : Walk) : Effect PathBuf :=
  match w with
  | .error kind => .fail fs kind
  | .missing _ _ _ => .fail fs .notFound
  | .existing loc =>
      match fs.lookup loc with
      | some (.symlink target) => .done fs target [.object loc]
      | none => .fail fs .notFound
      | some _ => .fail fs .invalidInput

/- `fs::read_link`. -/
def readLink
    (fs : FileSystem)
    (p : PathBuf) : Effect PathBuf :=
  fs.readLinkAt (fs.resolvePath false p)

end FileSystem

------------------------------------------------------------
-- Changing Attributes
------------------------------------------------------------

namespace FileSystem

/-
  `File::set_len`, which needs a file open for writing and
  takes no size above `i64::MAX`.
-/
def setLen
    (fs : FileSystem)
    (file : OpenFile)
    (size : Nat) : Except ErrorKind FileSystem :=
  match file.object with
  | .dir _ => .error .invalidInput
  | .file ino =>
      if file.writable && size ≤ 0x7fffffffffffffff then
        let old := fs.files ino
        .ok (fs.setFile ino { old with
          bytes := old.bytes.take size ++
            List.replicate (size - old.bytes.length) 0 })
      else
        .error .invalidInput

/- `fs::set_permissions` on a resolved path. -/
def setPermissionsAt
    (fs : FileSystem)
    (mode : Nat)
    (w : Walk) : Effect Unit :=
  match w with
  | .error kind => .fail fs kind
  | .missing _ _ _ => .fail fs .notFound
  | .existing loc =>
      match fs.lookup loc with
      | none => .fail fs .notFound
      | some (.symlink _) => .fail fs .filesystemLoop
      | some (.file ino) =>
          .done
            (fs.setFile ino { fs.files ino with mode := mode })
            () [.object loc]
      | some (.dir _ _) =>
          .done
            (fs.editDir (fun (_, entries) => (mode, entries))
              loc)
            () [.object loc]

/- `fs::set_permissions`. -/
def setPermissions
    (fs : FileSystem)
    (mode : Nat)
    (p : PathBuf) : Effect Unit :=
  fs.setPermissionsAt mode (fs.resolvePath true p)

end FileSystem

------------------------------------------------------------
-- Making, Removing And Renaming Entries
------------------------------------------------------------

namespace FileSystem

/- `fs::create_dir` on a resolved path. -/
def createDirAt
    (fs : FileSystem)
    (w : Walk) : Effect Unit :=
  match w with
  | .error kind => .fail fs kind
  | .existing _ => .fail fs .alreadyExists
  | .missing d n _ =>
      .done
        (fs.insert d n
          (.dir (0o777 &&& (0o777 ^^^ fs.umask)) []))
        () (Touch.entry (d ++ [n]))

/- `fs::create_dir`. -/
def createDir
    (fs : FileSystem)
    (p : PathBuf) : Effect Unit :=
  fs.createDirAt (fs.resolvePath false p)

/- `fs::remove_dir` on a resolved path. -/
def removeDirAt
    (fs : FileSystem)
    (w : Walk) : Effect Unit :=
  match w with
  | .error kind => .fail fs kind
  | .missing _ _ _ => .fail fs .notFound
  | .existing loc =>
      match fs.lookup loc with
      | none => .fail fs .notFound
      | some t =>
          if !t.isDir then
            .fail fs .notADirectory
          else if loc = [] then
            .fail fs .resourceBusy
          else if !t.isEmptyDir then
            .fail fs .directoryNotEmpty
          else
            .done (fs.eraseAt loc) () (Touch.entry loc)

/- `fs::remove_dir`. -/
def removeDir
    (fs : FileSystem)
    (p : PathBuf) : Effect Unit :=
  fs.removeDirAt (fs.resolvePath false p)

/- `fs::remove_file` on a resolved path. -/
def removeFileAt
    (fs : FileSystem)
    (w : Walk) : Effect Unit :=
  match w with
  | .error kind => .fail fs kind
  | .missing _ _ _ => .fail fs .notFound
  | .existing loc =>
      match fs.lookup loc with
      | none => .fail fs .notFound
      | some t =>
          if t.isDir then
            .fail fs .isADirectory
          else
            .done (fs.eraseAt loc) () (Touch.entry loc)

/- `fs::remove_file`. -/
def removeFile
    (fs : FileSystem)
    (p : PathBuf) : Effect Unit :=
  fs.removeFileAt (fs.resolvePath false p)

/- Two entries of one regular file. -/
def sameFile : FileTree → FileTree → Bool
| .file left, .file right => left == right
| _, _ => false

/-
  Whether an object may be put over another one: only a
  directory over a directory, which has to be empty.
-/
def replaceCheck
    (old new : FileTree) : Except ErrorKind Unit :=
  if old.isDir && !new.isDir then
    .error .notADirectory
  else if !old.isDir && new.isDir then
    .error .isADirectory
  else if new.isDir && !new.isEmptyDir then
    .error .directoryNotEmpty
  else
    .ok ()

/-
  What `rename` decides before it acts: an error, nothing to
  do, or the object to move and where.
-/
def renameCheck
    (fs : FileSystem)
    (old new : Walk) :
    Except ErrorKind (Option (Loc × Loc)) :=
  match old, new with
  | .error kind, _ => .error kind
  | _, .error kind => .error kind
  | .missing _ _ _, .missing _ _ _ => .error .notFound
  | .missing _ _ _, .existing d =>
      if d = [] then .error .resourceBusy
      else .error .notFound
  | .existing s, .missing d n slash =>
      match fs.lookup s with
      | none => .error .notFound
      | some t =>
          if s = [] then
            .error .resourceBusy
          else if slash && !t.isDir then
            .error .notADirectory
          else if s.isPrefixOf d then
            .error .invalidInput
          else
            .ok (some (s, d ++ [n]))
  | .existing s, .existing d =>
      match fs.lookup s, fs.lookup d with
      | some t, some u =>
          if s = [] || d = [] then
            .error .resourceBusy
          else if s = d then
            .ok none
          else if s.isPrefixOf d then
            .error .invalidInput
          else if d.isPrefixOf s then
            .error .directoryNotEmpty
          else if sameFile t u then
            .ok none
          else
            (replaceCheck t u).map fun _ => some (s, d)
      | _, _ => .error .notFound

/- `fs::rename` on resolved paths. -/
def renameAt
    (fs : FileSystem)
    (old new : Walk) : Effect Unit :=
  match fs.renameCheck old new with
  | .error kind => .fail fs kind
  | .ok none => .done fs () []
  | .ok (some (s, d)) =>
      match fs.lookup s with
      | none => .fail fs .notFound
      | some t =>
          .done ((fs.eraseAt s).insertAt d t) ()
            (Touch.entry s ++ Touch.entry d)

/- `fs::rename`, which follows no link at the end. -/
def rename
    (fs : FileSystem)
    (old new : PathBuf) : Effect Unit :=
  fs.renameAt (fs.resolvePath false old)
    (fs.resolvePath false new)

end FileSystem

------------------------------------------------------------
-- Calls That Move No Entry
------------------------------------------------------------

namespace FileSystem

/- Two states with the same names. -/
def SameTree
    (before after : FileSystem) : Prop :=
  after.root = before.root ∧ after.cwd = before.cwd

theorem SameTree.trans
    {first second third : FileSystem}
    (hFirst : SameTree first second)
    (hSecond : SameTree second third) :
    SameTree first third :=
  ⟨hSecond.1.trans hFirst.1, hSecond.2.trans hFirst.2⟩

/- Paths lead to the same places in both. -/
theorem SameTree.resolvePath
    {before after : FileSystem}
    (hSame : SameTree before after)
    (follow : Bool)
    (p : PathBuf) :
    after.resolvePath follow p =
      before.resolvePath follow p := by
  unfold FileSystem.resolvePath
  rw [hSame.1, hSame.2]

theorem openAt_sameTree
    {fs : FileSystem}
    {opts : OpenOptions}
    {w : Walk}
    (hCreates : opts.creates = false) :
    SameTree fs (fs.openAt opts w).fs := by
  have hSelf : SameTree fs fs := ⟨rfl, rfl⟩
  unfold openAt
  split <;> [exact hSelf; skip]
  split
  · exact hSelf
  · simp [hCreates, hSelf]
  · split <;> [exact hSelf; skip]
    split
    · exact hSelf
    · exact hSelf
    · split <;> exact hSelf
    · simp only [Effect.done_fs]
      split
      · exact ⟨rfl, rfl⟩
      · exact hSelf

theorem setLen_sameTree
    {fs fs' : FileSystem}
    {file : OpenFile}
    {size : Nat}
    (hLen : fs.setLen file size = .ok fs') :
    SameTree fs fs' := by
  unfold setLen at hLen
  split at hLen
  · cases hLen
  · split at hLen <;> [skip; cases hLen]
    injection hLen with hEq
    rw [← hEq]
    exact ⟨rfl, rfl⟩

end FileSystem

------------------------------------------------------------
-- Where A Call Acts
------------------------------------------------------------

/- Everything that a call acted on is below a place. -/
def Effect.Within
    {α : Type}
    (base : Loc)
    (call : Effect α) : Prop :=
  ∀ touch ∈ call.touched, base <+: touch.loc

namespace Effect

variable {α : Type}

@[simp] theorem fail_within
    (base : Loc)
    (fs : FileSystem)
    (kind : ErrorKind) :
    (fail fs kind : Effect α).Within base := by
  simp [Within]

@[simp] theorem done_within_iff
    (base : Loc)
    (fs : FileSystem)
    (a : α)
    (touched : List Touch) :
    (done fs a touched).Within base ↔
      ∀ touch ∈ touched, base <+: touch.loc := Iff.rfl

end Effect

/- An entry is below a place when its directory is. -/
@[simp] theorem Touch.entry_within_iff
    (base loc : Loc) :
    (∀ touch ∈ Touch.entry loc, base <+: touch.loc) ↔
      base <+: loc.dropLast := by
  simp only [Touch.entry, List.mem_cons, List.not_mem_nil,
    or_false, forall_eq_or_imp, forall_eq, Touch.loc_entries,
    Touch.loc_object, and_iff_left_iff_imp]
  intro hBase
  exact hBase.trans (List.dropLast_prefix loc)

namespace FileSystem

/-
  Opening acts below `base` unless it makes a file
  elsewhere; an open file has to be below `base` already or
  be refused.
-/
theorem openAt_within_iff
    {fs : FileSystem}
    {opts : OpenOptions}
    {w : Walk}
    {base : Loc}
    (hFound :
      ∀ loc, w = .existing loc →
        opts.createNew = true ∨ base <+: loc) :
    (fs.openAt opts w).Within base ↔
      ¬ (opts.creates = true ∧
        ∃ d n, w = .missing d n false ∧ ¬ base <+: d) := by
  by_cases hValid : opts.valid = true
  · cases w with
    | error kind => simp [openAt, hValid]
    | missing d n slash =>
        by_cases hCreates : opts.creates = true
        · cases slash with
          | false =>
              simp [openAt, hValid, hCreates, createFile]
          | true => simp [openAt, hValid, hCreates]
        · simp [openAt, hValid, hCreates]
    | existing loc =>
        rcases hFound loc rfl with hNew | hBase
        · simp [openAt, hValid, hNew]
        · have hWithin :
              (fs.openAt opts (.existing loc)).Within
                base := by
            simp only [openAt, hValid]
            split <;> [simp; skip]
            split <;> [simp; skip]
            split
            · simp
            · simp
            · split <;> simp [hBase]
            · simp [hBase]
          simp [hWithin]
  · have hNot : opts.creates = false := by
      simp [OpenOptions.creates, hValid]
    simp [openAt, hValid, hNot]

/-
  A call that acts on the object a walk ends at and on
  nothing else, also when the object is a link.
-/
structure LinkCall
    {α : Type}
    (fs : FileSystem)
    (call : Walk → Effect α) : Prop where
  own :
    ∀ w loc, .object loc ∈ (call w).touched →
      w = .existing loc
  link :
    ∀ loc target, fs.lookup loc = some (.symlink target) →
      .object loc ∈ (call (.existing loc)).touched

theorem LinkCall.within
    {α : Type}
    {fs : FileSystem}
    {call : Walk → Effect α}
    {w : Walk}
    {base : Loc}
    (hCall : LinkCall fs call)
    (hFound : ∀ loc, w = .existing loc → base <+: loc)
    (hEntries :
      ∀ dir, .entries dir ∈ (call w).touched →
        base <+: dir) :
    (call w).Within base := by
  intro touch hTouch
  cases touch with
  | object loc => exact hFound loc (hCall.own w loc hTouch)
  | entries dir => exact hEntries dir hTouch

theorem metadataAt_linkCall
    (fs : FileSystem) :
    LinkCall fs fs.metadataAt where
  own w loc hLoc := by
    unfold metadataAt at hLoc
    split at hLoc
    · simp at hLoc
    · simp at hLoc
    · split at hLoc <;> simp_all
  link loc target hLink := by
    simp [metadataAt, hLink]

theorem readLinkAt_linkCall
    (fs : FileSystem) :
    LinkCall fs fs.readLinkAt where
  own w loc hLoc := by
    unfold readLinkAt at hLoc
    split at hLoc
    · simp at hLoc
    · simp at hLoc
    · split at hLoc <;> simp_all
  link loc target hLink := by
    simp [readLinkAt, hLink]

theorem removeFileAt_linkCall
    (fs : FileSystem) :
    LinkCall fs fs.removeFileAt where
  own w loc hLoc := by
    unfold removeFileAt at hLoc
    split at hLoc
    · simp at hLoc
    · simp at hLoc
    · split at hLoc
      · simp at hLoc
      · split at hLoc
        · simp at hLoc
        · rw [Effect.done_touched,
            Touch.object_mem_entry_iff] at hLoc
          rw [hLoc]
  link loc target hLink := by
    simp [removeFileAt, hLink, FileTree.isDir]

/- Reading attributes or a link changes no directory. -/
theorem metadataAt_entries
    (fs : FileSystem)
    (w : Walk)
    (dir : Loc) :
    .entries dir ∉ (fs.metadataAt w).touched := by
  unfold metadataAt
  split
  · simp
  · simp
  · split <;> simp

theorem readLinkAt_entries
    (fs : FileSystem)
    (w : Walk)
    (dir : Loc) :
    .entries dir ∉ (fs.readLinkAt w).touched := by
  unfold readLinkAt
  split
  · simp
  · simp
  · split <;> simp

/- Removing a file changes the directory that it is in. -/
theorem removeFileAt_entries_iff
    (fs : FileSystem)
    (w : Walk)
    (dir : Loc) :
    .entries dir ∈ (fs.removeFileAt w).touched ↔
      ∃ loc t,
        w = .existing loc ∧ fs.lookup loc = some t ∧
        t.isDir = false ∧ dir = loc.dropLast := by
  cases w with
  | error kind => simp [removeFileAt]
  | missing d n slash => simp [removeFileAt]
  | existing loc =>
      cases hFound : fs.lookup loc with
      | none => simp [removeFileAt, hFound]
      | some t =>
          by_cases hDir : t.isDir = true
          · simp [removeFileAt, hFound, hDir]
          · simp [removeFileAt, hFound, hDir, Touch.entry]

theorem readDirAt_within
    {fs : FileSystem}
    {w : Walk}
    {base : Loc}
    (hFound : ∀ loc, w = .existing loc → base <+: loc) :
    (fs.readDirAt w).Within base := by
  unfold readDirAt
  split
  · simp
  · simp
  next loc =>
    have hBase := hFound loc rfl
    split
    · simp
    · simp
    · simp
    next entries _ =>
      rw [Effect.done_within_iff]
      intro below hBelow
      rcases List.mem_cons.mp hBelow with hSelf | hEntry
      · rw [hSelf]
        exact hBase
      · rcases List.mem_map.mp hEntry with ⟨e, -, hEq⟩
        rw [← hEq]
        exact hBase.trans (List.prefix_append _ _)

theorem setPermissionsAt_within
    {fs : FileSystem}
    {mode : Nat}
    {w : Walk}
    {base : Loc}
    (hFound : ∀ loc, w = .existing loc → base <+: loc) :
    (fs.setPermissionsAt mode w).Within base := by
  unfold setPermissionsAt
  split
  · simp
  · simp
  next loc =>
    split <;> simp [hFound loc rfl]

/- Removing a directory changes the one that it is in. -/
theorem removeDirAt_within_iff
    (fs : FileSystem)
    (w : Walk)
    (base : Loc) :
    (fs.removeDirAt w).Within base ↔
      ∀ loc, w = .existing loc →
        ∀ t, fs.lookup loc = some t →
          t.isEmptyDir = true → loc ≠ [] →
          base <+: loc.dropLast := by
  cases w with
  | error kind => simp [removeDirAt]
  | missing d n slash => simp [removeDirAt]
  | existing loc =>
      cases hFound : fs.lookup loc with
      | none => simp [removeDirAt, hFound]
      | some t =>
          by_cases hEmpty : t.isEmptyDir = true
          · have hDir : t.isDir = true := by
              cases t with
              | dir mode entries => rfl
              | file ino => cases hEmpty
              | symlink target => cases hEmpty
            by_cases hNil : loc = []
            · subst hNil
              simp [removeDirAt, hFound, hDir]
            · simp [removeDirAt, hFound, hDir, hEmpty, hNil]
          · have hIdle :
                (fs.removeDirAt (.existing loc)).touched =
                  [] := by
              simp only [removeDirAt, hFound]
              split <;> [rfl; skip]
              split <;> [rfl; skip]
              simp [hEmpty]
            simp [Effect.Within, hIdle, hFound, hEmpty]

/- Making a directory changes the one that it is made in. -/
theorem createDirAt_within_iff
    (fs : FileSystem)
    (w : Walk)
    (base : Loc) :
    (fs.createDirAt w).Within base ↔
      ¬ ∃ d n slash, w = .missing d n slash ∧
        ¬ base <+: d := by
  cases w <;> simp [createDirAt]

/-
  What `rename` moves, and where to: neither place is below
  the other.
-/
theorem renameCheck_move
    {fs : FileSystem}
    {old new : Walk}
    {s d : Loc}
    (hCheck : fs.renameCheck old new = .ok (some (s, d))) :
    old = .existing s ∧ (∃ t, fs.lookup s = some t) ∧
      ((new = .existing d ∧ ¬ s <+: d ∧ ¬ d <+: s) ∨
        ∃ dir n slash, new = .missing dir n slash ∧
          d = dir ++ [n] ∧ ¬ s <+: dir) := by
  unfold renameCheck at hCheck
  split at hCheck
  · cases hCheck
  · cases hCheck
  · cases hCheck
  · split at hCheck <;> cases hCheck
  next dir n slash =>
    split at hCheck
    · cases hCheck
    next t hFound =>
      split at hCheck <;> [cases hCheck; skip]
      split at hCheck <;> [cases hCheck; skip]
      split at hCheck <;> [cases hCheck; skip]
      next hAbove =>
        simp only [Except.ok.injEq, Option.some.injEq,
          Prod.mk.injEq] at hCheck
        rcases hCheck with ⟨rfl, rfl⟩
        rw [List.isPrefixOf_iff_prefix] at hAbove
        exact ⟨rfl, ⟨t, hFound⟩,
          .inr ⟨dir, n, slash, rfl, rfl, hAbove⟩⟩
  · split at hCheck
    next t u hFound _ =>
      split at hCheck <;> [cases hCheck; skip]
      split at hCheck <;> [cases hCheck; skip]
      split at hCheck <;> [cases hCheck; skip]
      next hAbove =>
        split at hCheck <;> [cases hCheck; skip]
        next hBelow =>
          split at hCheck <;> [cases hCheck; skip]
          rw [List.isPrefixOf_iff_prefix] at hAbove hBelow
          cases hReplace : replaceCheck t u with
          | error kind =>
              simp [hReplace, Except.map] at hCheck
          | ok done =>
              simp only [hReplace, Except.map,
                Except.ok.injEq, Option.some.injEq,
                Prod.mk.injEq] at hCheck
              rcases hCheck with ⟨rfl, rfl⟩
              exact ⟨rfl, ⟨t, hFound⟩,
                .inl ⟨rfl, hAbove, hBelow⟩⟩
    · cases hCheck

/- Renaming acts on the object and on its new place. -/
theorem renameAt_move
    {fs : FileSystem}
    {old new : Walk}
    {s d : Loc}
    (hCheck : fs.renameCheck old new = .ok (some (s, d))) :
    ∃ t, fs.renameAt old new =
      .done ((fs.eraseAt s).insertAt d t) ()
        (Touch.entry s ++ Touch.entry d) := by
  rcases renameCheck_move hCheck with ⟨-, ⟨t, hFound⟩, -⟩
  exact ⟨t, by simp [renameAt, hCheck, hFound]⟩

theorem renameAt_within_iff
    (fs : FileSystem)
    (old new : Walk)
    (base : Loc) :
    (fs.renameAt old new).Within base ↔
      ∀ s d,
        fs.renameCheck old new = .ok (some (s, d)) →
        base <+: s.dropLast ∧ base <+: d.dropLast := by
  cases hCheck : fs.renameCheck old new with
  | error kind => simp [renameAt, hCheck]
  | ok verdict =>
      cases verdict with
      | none => simp [renameAt, hCheck]
      | some move =>
          rcases renameAt_move hCheck with ⟨t, hMove⟩
          rw [hMove, Effect.done_within_iff]
          simp only [List.forall_mem_append,
            Touch.entry_within_iff, Except.ok.injEq,
            Option.some.injEq]
          constructor
          · rintro hBelow s d rfl
            exact hBelow
          · intro hBelow
            exact hBelow move.1 move.2 rfl

end FileSystem
