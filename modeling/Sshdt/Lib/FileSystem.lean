import Sshdt.Lib.Path

/-
  A Unix file system and the resolution of its paths.

  The name space is a tree of directories, regular files
  and symbolic links; a file entry holds the number of its
  inode, so that two entries can be links to one file. Path
  resolution follows POSIX: a symbolic link in the middle of
  a path is followed always, one at its end when the caller
  asks for it or when a slash follows, and a resolution that
  meets too many links fails.

  Permission bits are kept and never checked: every caller
  owns the tree. Names are text without slash and NUL. A
  path that ends in `.` or `..` names the directory it leads
  to, also for the calls that refuse such a path.

  Key definitions include:
    * `EntryName`
    * `FileTree`
    * `FileTree.lookup`
    * `FileTree.walk`
    * `FileTree.Ends`
    * `FileSystem`
    * `FileSystem.resolvePath`
    * `FileSystem.locate`

  Key theorems include:
    * `FileTree.lookup_append`
    * `FileTree.walk_sound`
    * `FileTree.walk_names`
    * `FileTree.walk_follow_cases`
    * `FileSystem.resolvePath_toPath`
    * `FileSystem.resolvePath_follow_cases`
-/

------------------------------------------------------------
-- Names And Trees
------------------------------------------------------------

/- The name of a directory entry. -/
structure EntryName where
  text : Text
  proper : Path.ProperName text
  noNul : '\x00' ∉ text
  deriving DecidableEq

/- The entry name that a text spells, if it spells one. -/
def EntryName.ofText?
    (text : Text) : Option EntryName :=
  if hName : Path.ProperName text ∧ '\x00' ∉ text then
    some ⟨text, hName.1, hName.2⟩
  else
    none

theorem EntryName.text_injective :
    Function.Injective EntryName.text := by
  intro left right hText
  cases left
  cases right
  simpa using hText

/- The place of an object: the names from the root to it. -/
abbrev Loc := List EntryName

/- The texts of the names of a place. -/
def Loc.names
    (loc : Loc) : List Text :=
  loc.map EntryName.text

/- The absolute path of a place. -/
def Loc.toPath
    (loc : Loc) : PathBuf :=
  Path.ofNames loc.names

/- An object of the name space with all that is below it. -/
inductive FileTree where
  | file (ino : Nat)
  | symlink (target : Text)
  | dir
      (mode : Nat)
      (entries : List (EntryName × FileTree))

namespace FileTree

def isDir : FileTree → Bool
| .dir _ _ => true
| _ => false

def isSymlink : FileTree → Bool
| .symlink _ => true
| _ => false

/- A directory without entries. -/
def isEmptyDir : FileTree → Bool
| .dir _ entries => entries.isEmpty
| _ => false

/- The object at a place below this one. -/
def lookup : Loc → FileTree → Option FileTree
| [], t => some t
| n :: rest, .dir _ entries =>
    match entries.lookup n with
    | none => none
    | some t => lookup rest t
| _ :: _, _ => none

/- Change the mode and the entries of one directory. -/
def editDir
    (f : Nat × List (EntryName × FileTree) →
      Nat × List (EntryName × FileTree)) :
    Loc → FileTree → FileTree
| [], .dir mode entries =>
    .dir (f (mode, entries)).1 (f (mode, entries)).2
| n :: rest, .dir mode entries =>
    .dir mode (entries.map fun e =>
      if e.1 = n then (e.1, editDir f rest e.2) else e)
| _, t => t

mutual

/- A number above every inode number in a tree. -/
def inoBound : FileTree → Nat
| .file ino => ino + 1
| .symlink _ => 0
| .dir _ entries => entriesInoBound entries

def entriesInoBound : List (EntryName × FileTree) → Nat
| [] => 0
| (_, t) :: rest => max (inoBound t) (entriesInoBound rest)

end

/- The object itself, without what is below it. -/
def own : FileTree → FileTree
| .dir mode _ => .dir mode []
| t => t

@[simp] theorem lookup_nil
    (t : FileTree) :
    lookup [] t = some t := by
  simp [lookup]

/- Looking further down from an object that was found. -/
theorem lookup_append
    (first rest : Loc)
    (t : FileTree) :
    lookup (first ++ rest) t =
      (lookup first t).bind (lookup rest) := by
  induction first generalizing t with
  | nil => simp
  | cons n first ih =>
      cases t with
      | file ino => simp [lookup]
      | symlink target => simp [lookup]
      | dir mode entries =>
          simp only [List.cons_append, lookup]
          cases entries.lookup n with
          | none => rfl
          | some child => exact ih child

/- Nothing is below an object that is not a directory. -/
theorem isDir_of_lookup_cons
    {n : EntryName}
    {rest : Loc}
    {t found : FileTree}
    (hFound : lookup (n :: rest) t = some found) :
    t.isDir = true := by
  cases t with
  | dir mode entries => rfl
  | file ino => simp [lookup] at hFound
  | symlink target => simp [lookup] at hFound

/- What is properly above an object is a directory. -/
theorem isDir_of_prefix
    {place loc : Loc}
    {root t found : FileTree}
    (hAbove : place <+: loc)
    (hOther : place ≠ loc)
    (hPlace : lookup place root = some t)
    (hFound : lookup loc root = some found) :
    t.isDir = true := by
  rcases hAbove with ⟨rest, rfl⟩
  rw [lookup_append, hPlace] at hFound
  cases rest with
  | nil => exact (hOther (List.append_nil _).symm).elim
  | cons n rest => exact isDir_of_lookup_cons hFound

theorem inoBound_le_of_lookup
    {entries : List (EntryName × FileTree)}
    {n : EntryName}
    {t : FileTree}
    (hFound : entries.lookup n = some t) :
    t.inoBound ≤ entriesInoBound entries := by
  induction entries with
  | nil => simp at hFound
  | cons e rest ih =>
      rcases e with ⟨m, u⟩
      rw [List.lookup_cons] at hFound
      rw [entriesInoBound]
      split at hFound
      · rw [Option.some.inj hFound]
        exact Nat.le_max_left _ _
      · exact (ih hFound).trans (Nat.le_max_right _ _)

/- The bound is above every file that can be found. -/
theorem lt_inoBound
    {loc : Loc}
    {t : FileTree}
    {ino : Nat}
    (hFound : lookup loc t = some (.file ino)) :
    ino < t.inoBound := by
  induction loc generalizing t with
  | nil =>
      rw [lookup_nil] at hFound
      rw [Option.some.inj hFound, inoBound]
      exact Nat.lt_succ_self ino
  | cons n loc ih =>
      cases t with
      | file other => simp [lookup] at hFound
      | symlink target => simp [lookup] at hFound
      | dir mode entries =>
          rw [lookup] at hFound
          split at hFound
          · cases hFound
          next child hChild =>
            have hBelow := ih hFound
            have hBound := inoBound_le_of_lookup hChild
            rw [inoBound]
            omega

/- Looking up in entries that were changed one by one. -/
theorem lookup_map_entries
    (g : EntryName → FileTree → FileTree)
    (entries : List (EntryName × FileTree))
    (n : EntryName) :
    (entries.map fun e => (e.1, g e.1 e.2)).lookup n =
      (entries.lookup n).map (g n) := by
  induction entries with
  | nil => rfl
  | cons e rest ih =>
      rcases e with ⟨m, t⟩
      rw [List.map_cons, List.lookup_cons, List.lookup_cons]
      cases hEq : n == m with
      | true =>
          rw [eq_of_beq hEq]
          rfl
      | false => exact ih

/- What is at the entry `m` of a directory edited below. -/
theorem lookup_editDir_cons
    (f : Nat × List (EntryName × FileTree) →
      Nat × List (EntryName × FileTree))
    (n m : EntryName)
    (d rest : Loc)
    (mode : Nat)
    (entries : List (EntryName × FileTree)) :
    lookup (m :: rest) (editDir f (n :: d) (.dir mode entries)) =
      (entries.lookup m).bind fun t =>
        lookup rest (if m = n then editDir f d t else t) := by
  have hMap :
      (entries.map fun e =>
        if e.1 = n then (e.1, editDir f d e.2) else e) =
      entries.map fun e =>
        (e.1, if e.1 = n then editDir f d e.2 else e.2) := by
    apply List.map_congr_left
    intro e _
    split <;> rfl
  rw [editDir, lookup, hMap,
    lookup_map_entries (fun k t =>
      if k = n then editDir f d t else t)]
  cases entries.lookup m with
  | none => rfl
  | some t => rfl

/- The directory that is edited. -/
theorem lookup_editDir_self
    (f : Nat × List (EntryName × FileTree) →
      Nat × List (EntryName × FileTree))
    (d : Loc)
    (t : FileTree) :
    lookup d (editDir f d t) =
      (lookup d t).map (editDir f []) := by
  induction d generalizing t with
  | nil => simp
  | cons n d ih =>
      cases t with
      | file ino => simp [editDir, lookup]
      | symlink target => simp [editDir, lookup]
      | dir mode entries =>
          rw [lookup_editDir_cons, lookup]
          cases entries.lookup n with
          | none => rfl
          | some child => simpa using ih child

/- Places that are not below it keep their objects. -/
theorem lookup_editDir_off
    (f : Nat × List (EntryName × FileTree) →
      Nat × List (EntryName × FileTree))
    {d loc : Loc}
    (t : FileTree)
    (hOff : ¬ d <+: loc) :
    (lookup loc (editDir f d t)).map own =
      (lookup loc t).map own := by
  induction d generalizing t loc with
  | nil => exact (hOff (List.nil_prefix)).elim
  | cons n d ih =>
      cases t with
      | file ino => simp [editDir]
      | symlink target => simp [editDir]
      | dir mode entries =>
          cases loc with
          | nil => simp [editDir, own]
          | cons m rest =>
              rw [lookup_editDir_cons, lookup]
              cases entries.lookup m with
              | none => rfl
              | some child =>
                  by_cases hName : m = n
                  · have hBelow : ¬ d <+: rest := by
                      intro hPrefix
                      apply hOff
                      rw [hName]
                      exact List.cons_prefix_cons.mpr
                        ⟨rfl, hPrefix⟩
                    simpa [hName] using ih child hBelow
                  · simp [hName]

/-
  Editing the entry `n` of a directory changes nothing but
  what is at that entry and below it.
-/
theorem lookup_editDir_entry
    {f : Nat × List (EntryName × FileTree) →
      Nat × List (EntryName × FileTree)}
    {n : EntryName}
    (hMode : ∀ dir, (f dir).1 = dir.1)
    (hOthers :
      ∀ dir m, m ≠ n →
        (f dir).2.lookup m = dir.2.lookup m)
    {d loc : Loc}
    (t : FileTree)
    (hOff : ¬ d ++ [n] <+: loc) :
    (lookup loc (editDir f d t)).map own =
      (lookup loc t).map own := by
  by_cases hBelow : d <+: loc
  · rcases hBelow with ⟨rest, rfl⟩
    rw [lookup_append, lookup_append, lookup_editDir_self]
    cases hDir : lookup d t with
    | none => rfl
    | some dir =>
        cases dir with
        | file ino => cases rest <;> rfl
        | symlink target => cases rest <;> rfl
        | dir mode entries =>
            cases rest with
            | nil => simp [editDir, own, hMode]
            | cons m rest =>
                have hName : m ≠ n := by
                  rintro rfl
                  apply hOff
                  rw [List.prefix_append_right_inj]
                  exact List.cons_prefix_cons.mpr
                    ⟨rfl, List.nil_prefix⟩
                simp [editDir, lookup,
                  hOthers (mode, entries) m hName]
  · exact lookup_editDir_off f t hBelow

/- Editing a directory keeps a directory a directory. -/
@[simp] theorem editDir_isDir
    (f : Nat × List (EntryName × FileTree) →
      Nat × List (EntryName × FileTree))
    (loc : Loc)
    (t : FileTree) :
    (editDir f loc t).isDir = t.isDir := by
  cases t <;> cases loc <;> rfl

end FileTree

------------------------------------------------------------
-- Path Steps
------------------------------------------------------------

/- What one part of a path asks for. -/
inductive Step where
  | cur
  | up
  | trailing
  | name (n : EntryName)
  deriving DecidableEq

namespace Step

/- A part between slashes; empty parts ask for nothing. -/
def ofPart
    (part : Text) : Option Step :=
  if part = ['.'] then
    some .cur
  else if part = ['.', '.'] then
    some .up
  else
    (EntryName.ofText? part).map .name

/- The steps of a path, with a mark for a final slash. -/
def ofPath
    (path : Text) : List Step :=
  (path.splitOn '/').filterMap ofPart ++
    if path.getLast? = some '/' then [.trailing] else []

/- A text as the system reads it: it ends at a NUL. -/
def cString
    (text : Text) : Text :=
  text.takeWhile (fun c => c ≠ '\x00')

end Step

------------------------------------------------------------
-- Path Resolution
------------------------------------------------------------

/- The error kinds of `std::io` that the calls report. -/
inductive ErrorKind where
  | notFound
  | permissionDenied
  | alreadyExists
  | invalidInput
  | notADirectory
  | isADirectory
  | directoryNotEmpty
  | filesystemLoop
  | resourceBusy
  | uncategorized
  deriving DecidableEq, Repr

/-
  Where a path leads: to an object, to a free entry of a
  directory (`slash` when a slash follows its name), or
  nowhere.
-/
inductive Walk where
  | existing (loc : Loc)
  | missing (dir : Loc) (name : EntryName) (slash : Bool)
  | error (kind : ErrorKind)
  deriving DecidableEq

namespace FileTree

/- The start and the steps of a link met in `loc`. -/
def linkSteps
    (loc : Loc)
    (target : Text)
    (rest : List Step) : Loc × List Step :=
  (if Path.hasRoot target then [] else loc,
    Step.ofPath (Step.cString target) ++ rest)

/-
  Take the steps from the directory `loc`. `onLink` goes on
  from a link that has to be followed.
-/
def walkWith
    (onLink : Loc → List Step → Walk)
    (follow : Bool)
    (root : FileTree) :
    Loc → List Step → Walk
| loc, [] => .existing loc
| loc, .cur :: rest => walkWith onLink follow root loc rest
| loc, .trailing :: rest =>
    walkWith onLink follow root loc rest
| loc, .up :: rest =>
    walkWith onLink follow root loc.dropLast rest
| loc, .name n :: rest =>
    match root.lookup (loc ++ [n]) with
    | none =>
        -- A free entry counts only where nothing but
        -- slashes follows its name.
        if rest.all (· = .trailing) then
          .missing loc n (!rest.isEmpty)
        else
          .error .notFound
    | some (.dir _ _) =>
        walkWith onLink follow root (loc ++ [n]) rest
    | some (.file _) =>
        if rest.isEmpty then
          .existing (loc ++ [n])
        else
          .error .notADirectory
    | some (.symlink target) =>
        if rest.isEmpty && !follow then
          .existing (loc ++ [n])
        else if Step.cString target = [] then
          .error .notFound
        else
          onLink (linkSteps loc target rest).1
            (linkSteps loc target rest).2

/- The walk that follows at most so many links. -/
def walk
    (follow : Bool)
    (root : FileTree) :
    Nat → Loc → List Step → Walk
| 0 => walkWith (fun _ _ => .error .filesystemLoop)
    follow root
| links + 1 => walkWith (walk follow root links) follow root

end FileTree

------------------------------------------------------------
-- The File System
------------------------------------------------------------

/- The contents and the mode of an inode. -/
structure FileData where
  bytes : List UInt8
  mode : Nat
  deriving DecidableEq, Repr

/-
  A file system as one process sees it: the tree, the files
  by inode, a number above the inodes handed out so far, and
  the process's working directory and file mode mask.
-/
structure FileSystem where
  root : FileTree
  rootDir : root.isDir = true
  files : Nat → FileData
  nextIno : Nat
  cwd : PathBuf
  umask : Nat

namespace FileSystem

/- How many links one resolution follows on Linux. -/
def linkLimit : Nat := 40

/- Resolve a path, with or without a link at its end. -/
def resolvePath
    (fs : FileSystem)
    (follow : Bool)
    (p : PathBuf) : Walk :=
  if '\x00' ∈ p then
    .error .invalidInput
  else if p = [] then
    .error .notFound
  else if Path.hasRoot p then
    fs.root.walk follow linkLimit [] (Step.ofPath p)
  else
    fs.root.walk follow linkLimit []
      (Step.ofPath (Step.cString fs.cwd) ++ Step.ofPath p)

/- The place of the object that a path leads to. -/
def locate
    (fs : FileSystem)
    (p : PathBuf) : Except ErrorKind Loc :=
  match fs.resolvePath true p with
  | .existing loc => .ok loc
  | .missing _ _ _ => .error .notFound
  | .error kind => .error kind

/- `fs::canonicalize`. -/
def canonicalize
    (fs : FileSystem)
    (p : PathBuf) : Except ErrorKind PathBuf :=
  (fs.locate p).map Loc.toPath

end FileSystem

------------------------------------------------------------
-- Walks That Find An Object
------------------------------------------------------------

namespace FileTree

/- The parent of a directory is a directory. -/
theorem isDir_dropLast
    {root : FileTree}
    {loc : Loc}
    (hDir : ∃ t, root.lookup loc = some t ∧ t.isDir = true) :
    ∃ t, root.lookup loc.dropLast = some t ∧
      t.isDir = true := by
  rcases List.eq_nil_or_concat loc with
    hNil | ⟨parent, last, hConcat⟩
  · subst hNil
    simpa using hDir
  · rw [List.concat_eq_append] at hConcat
    subst hConcat
    rcases hDir with ⟨t, hFound, -⟩
    rw [lookup_append, Option.bind_eq_some_iff] at hFound
    rcases hFound with ⟨above, hAbove, hBelow⟩
    refine ⟨above, ?_, isDir_of_lookup_cons hBelow⟩
    simpa using hAbove

/-
  Where a walk can end: at an object of the tree, which is no
  link when links are followed, or at a free entry of a
  directory of the tree.
-/
def Ends
    (follow : Bool)
    (root : FileTree) : Walk → Prop
  | .existing loc =>
      ∃ t, root.lookup loc = some t ∧
        (follow = true → t.isSymlink = false)
  | .missing d _ _ =>
      ∃ t, root.lookup d = some t ∧ t.isDir = true
  | .error _ => True

theorem walkWith_sound
    {onLink : Loc → List Step → Walk}
    {follow : Bool}
    {root : FileTree}
    (hOnLink :
      ∀ start steps,
        (∃ t, root.lookup start = some t ∧
          t.isDir = true) →
        Ends follow root (onLink start steps))
    (hRoot : root.isDir = true)
    (steps : List Step) :
    ∀ loc,
      (∃ t, root.lookup loc = some t ∧ t.isDir = true) →
      Ends follow root
        (walkWith onLink follow root loc steps) := by
  induction steps with
  | nil =>
      rintro loc ⟨t, hLookup, hIsDir⟩
      refine ⟨t, hLookup, fun _ => ?_⟩
      cases t with
      | dir mode entries => rfl
      | file ino => rfl
      | symlink target => cases hIsDir
  | cons step rest ih =>
      intro loc hDir
      cases step with
      | cur => exact ih loc hDir
      | trailing => exact ih loc hDir
      | up => exact ih _ (isDir_dropLast hDir)
      | name n =>
          simp only [walkWith]
          split
          · split
            · exact hDir
            · trivial
          next hLookup => exact ih _ ⟨_, hLookup, rfl⟩
          next hLookup =>
            split
            · exact ⟨_, hLookup, fun _ => rfl⟩
            · trivial
          next target hLookup =>
            split
            next hEnd =>
              refine ⟨_, hLookup, fun hFollow => ?_⟩
              simp [hFollow] at hEnd
            · split
              · trivial
              · apply hOnLink
                unfold linkSteps
                split
                · exact ⟨root, lookup_nil root, hRoot⟩
                · exact hDir

theorem walk_sound
    {follow : Bool}
    {root : FileTree}
    (hRoot : root.isDir = true)
    (links : Nat) :
    ∀ loc steps,
      (∃ t, root.lookup loc = some t ∧ t.isDir = true) →
      Ends follow root (root.walk follow links loc steps) := by
  induction links with
  | zero =>
      intro loc steps hDir
      apply walkWith_sound ?_ hRoot steps loc hDir
      intro _ _ _
      trivial
  | succ links ih =>
      intro loc steps hDir
      exact walkWith_sound ih hRoot steps loc hDir

/-
  The names of a place that holds no link lead to it, with
  no link on the way.
-/
theorem walkWith_names
    (onLink : Loc → List Step → Walk)
    (follow : Bool)
    {root t : FileTree}
    (names : Loc) :
    ∀ loc,
      root.lookup (loc ++ names) = some t →
      t.isSymlink = false →
      walkWith onLink follow root loc (names.map Step.name) =
        .existing (loc ++ names) := by
  induction names with
  | nil =>
      intro loc _ _
      simp [walkWith]
  | cons n names ih =>
      intro loc hFound hLink
      have hSplit : loc ++ n :: names = (loc ++ [n]) ++ names := by
        simp
      rw [hSplit] at hFound ⊢
      have hAt := hFound
      rw [lookup_append, Option.bind_eq_some_iff] at hAt
      rcases hAt with ⟨at_n, hAtN, hBelow⟩
      simp only [List.map_cons, walkWith, hAtN]
      cases at_n with
      | dir mode entries => exact ih _ hFound hLink
      | file ino =>
          cases names with
          | nil => simp
          | cons m names => simp [lookup] at hBelow
      | symlink target =>
          cases names with
          | nil =>
              simp only [lookup_nil, Option.some.injEq] at hBelow
              subst hBelow
              simp [isSymlink] at hLink
          | cons m names => simp [lookup] at hBelow

theorem walk_names
    (follow : Bool)
    {root t : FileTree}
    (links : Nat)
    (names loc : Loc)
    (hFound : root.lookup (loc ++ names) = some t)
    (hLink : t.isSymlink = false) :
    root.walk follow links loc (names.map Step.name) =
      .existing (loc ++ names) := by
  cases links with
  | zero => exact walkWith_names _ follow names loc hFound hLink
  | succ links =>
      exact walkWith_names _ follow names loc hFound hLink

end FileTree

------------------------------------------------------------
-- Following The Last Link Or Not
------------------------------------------------------------

namespace FileTree

/-
  Following a link at the end changes a walk only where the
  walk that does not follow ends at a link.
-/
theorem walkWith_follow_cases
    {onLink onLink' : Loc → List Step → Walk}
    {root : FileTree}
    (hOnLink :
      ∀ start steps,
        onLink start steps = onLink' start steps ∨
        ∃ found target,
          onLink' start steps = .existing found ∧
          root.lookup found = some (.symlink target))
    (steps : List Step) :
    ∀ loc,
      walkWith onLink true root loc steps =
          walkWith onLink' false root loc steps ∨
        ∃ found target,
          walkWith onLink' false root loc steps =
            .existing found ∧
          root.lookup found = some (.symlink target) := by
  induction steps with
  | nil =>
      intro loc
      exact .inl rfl
  | cons step rest ih =>
      intro loc
      cases step with
      | cur => exact ih loc
      | trailing => exact ih loc
      | up => exact ih loc.dropLast
      | name n =>
          simp only [walkWith]
          split
          · exact .inl rfl
          · exact ih (loc ++ [n])
          · exact .inl rfl
          next target hLookup =>
            by_cases hLast : rest.isEmpty = true
            · right
              exact ⟨loc ++ [n], target, by simp [hLast], hLookup⟩
            · by_cases hEmpty : Step.cString target = []
              · simp [hLast, hEmpty]
              · simpa [hLast, hEmpty] using hOnLink
                  (linkSteps loc target rest).1
                  (linkSteps loc target rest).2

theorem walk_follow_cases
    (root : FileTree)
    (links : Nat) :
    ∀ loc steps,
      root.walk true links loc steps =
          root.walk false links loc steps ∨
        ∃ found target,
          root.walk false links loc steps =
            .existing found ∧
          root.lookup found = some (.symlink target) := by
  induction links with
  | zero =>
      intro loc steps
      exact walkWith_follow_cases (fun _ _ => .inl rfl)
        steps loc
  | succ links ih =>
      intro loc steps
      exact walkWith_follow_cases ih steps loc

end FileTree

------------------------------------------------------------
-- Resolved Paths
------------------------------------------------------------

namespace Loc

theorem proper
    (loc : Loc) :
    ∀ name ∈ loc.names, Path.ProperName name := by
  intro name hName
  rcases List.mem_map.mp hName with ⟨n, -, rfl⟩
  exact n.proper

theorem names_eq_nil_iff
    (loc : Loc) :
    loc.names = [] ↔ loc = [] :=
  List.map_eq_nil_iff

theorem nul_notMem_toPath
    (loc : Loc) :
    '\x00' ∉ loc.toPath := by
  have hJoined :
      '\x00' ∉ ['/'].intercalate loc.names := by
    induction loc with
    | nil => simp [names]
    | cons n loc ih =>
        cases loc with
        | nil => simpa [names] using n.noNul
        | cons m loc =>
            simp only [names, List.map_cons,
              List.intercalate_cons_cons,
              List.mem_append] at ih ⊢
            rintro ((hName | hSlash) | hRest)
            · exact n.noNul hName
            · exact absurd hSlash (by decide)
            · exact ih hRest
  simp [toPath, Path.ofNames, hJoined]

/- One place is above another when its path is. -/
theorem startsWith_toPath_iff
    (loc base : Loc) :
    Path.startsWith loc.toPath base.toPath = true ↔
      base <+: loc := by
  have hNames :=
    Path.startsWith_ofNames_iff loc.proper base.proper
  have hMap : base.names <+: loc.names ↔ base <+: loc :=
    List.prefix_map_iff_of_injective EntryName.text_injective
  exact hNames.trans hMap

end Loc

namespace Step

theorem ofPart_text
    (n : EntryName) :
    ofPart n.text = some (.name n) := by
  have hProper := n.proper
  simp [ofPart, EntryName.ofText?, hProper.2.2.1,
    hProper.2.2.2, hProper, n.noNul]

/- The path of a place spells the names of the place. -/
theorem ofPath_toPath
    {loc : Loc}
    (hNonempty : loc ≠ []) :
    ofPath loc.toPath = loc.map .name := by
  have hNames : loc.names ≠ [] :=
    mt loc.names_eq_nil_iff.mp hNonempty
  have hSplit := Path.splitOn_ofNames loc.proper hNames
  have hLast := Path.getLast?_ofNames loc.proper hNames
  have hHead : ofPart [] = none := by decide
  have hParts :
      loc.names.filterMap ofPart = loc.map .name := by
    rw [Loc.names, List.filterMap_map,
      ← List.filterMap_eq_map]
    apply List.filterMap_congr
    intro n _
    exact ofPart_text n
  simp [ofPath, Loc.toPath, hSplit, hLast, hHead, hParts]

end Step

namespace FileSystem

/- Where a path leads: to what the tree has. -/
theorem resolvePath_ends
    (fs : FileSystem)
    (follow : Bool)
    (p : PathBuf) :
    fs.root.Ends follow (fs.resolvePath follow p) := by
  have hStart :
      ∃ t, fs.root.lookup [] = some t ∧ t.isDir = true :=
    ⟨fs.root, FileTree.lookup_nil _, fs.rootDir⟩
  unfold resolvePath
  split <;> [trivial; skip]
  split <;> [trivial; skip]
  split
  · exact FileTree.walk_sound fs.rootDir _ _ _ hStart
  · exact FileTree.walk_sound fs.rootDir _ _ _ hStart

theorem resolvePath_existing
    {fs : FileSystem}
    {follow : Bool}
    {p : PathBuf}
    {loc : Loc}
    (hWalk : fs.resolvePath follow p = .existing loc) :
    ∃ t, fs.root.lookup loc = some t ∧
      (follow = true → t.isSymlink = false) := by
  have hEnds := fs.resolvePath_ends follow p
  rw [hWalk] at hEnds
  exact hEnds

theorem resolvePath_missing
    {fs : FileSystem}
    {follow : Bool}
    {p : PathBuf}
    {d : Loc}
    {n : EntryName}
    {slash : Bool}
    (hWalk : fs.resolvePath follow p = .missing d n slash) :
    ∃ t, fs.root.lookup d = some t ∧ t.isDir = true := by
  have hEnds := fs.resolvePath_ends follow p
  rw [hWalk] at hEnds
  exact hEnds

/- The path of an object that is no link leads to it. -/
theorem resolvePath_toPath
    {fs : FileSystem}
    {loc : Loc}
    {t : FileTree}
    (follow : Bool)
    (hFound : fs.root.lookup loc = some t)
    (hLink : t.isSymlink = false) :
    fs.resolvePath follow loc.toPath = .existing loc := by
  have hNul := loc.nul_notMem_toPath
  have hNil : loc.toPath ≠ [] := Path.ofNames_ne_nil _
  have hRooted : Path.hasRoot loc.toPath = true := rfl
  simp only [resolvePath, hNul, hNil, hRooted, if_false,
    if_true]
  by_cases hEmpty : loc = []
  · subst hEmpty
    have hSlash : Step.ofPath (Loc.toPath []) = [.trailing] := by
      decide
    rw [hSlash]
    rfl
  · rw [Step.ofPath_toPath hEmpty]
    exact FileTree.walk_names follow linkLimit loc []
      hFound hLink

/-
  The two ways to resolve a path differ only at a path whose
  last part is a link.
-/
theorem resolvePath_follow_cases
    (fs : FileSystem)
    (p : PathBuf) :
    fs.resolvePath true p = fs.resolvePath false p ∨
      ∃ loc target,
        fs.resolvePath false p = .existing loc ∧
        fs.root.lookup loc = some (.symlink target) := by
  unfold resolvePath
  split
  · exact .inl rfl
  · split
    · exact .inl rfl
    · split
      · exact FileTree.walk_follow_cases _ _ _ _
      · exact FileTree.walk_follow_cases _ _ _ _

theorem locate_eq_ok_iff
    {fs : FileSystem}
    {p : PathBuf}
    {loc : Loc} :
    fs.locate p = .ok loc ↔
      fs.resolvePath true p = .existing loc := by
  unfold locate
  split <;> simp_all

/- Every way to resolve the path of a located object. -/
theorem resolvePath_of_locate
    {fs : FileSystem}
    {p : PathBuf}
    {loc : Loc}
    (follow : Bool)
    (hLocate : fs.locate p = .ok loc) :
    fs.resolvePath follow loc.toPath = .existing loc := by
  rw [locate_eq_ok_iff] at hLocate
  rcases resolvePath_existing hLocate with
    ⟨t, hFound, hLink⟩
  exact resolvePath_toPath follow hFound (hLink rfl)

end FileSystem
