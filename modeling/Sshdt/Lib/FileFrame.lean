import Sshdt.Lib.SystemCalls

/-
  What the calls on a file system leave alone.

  A call reports what it touched. A frame says that nothing
  else has changed, so that what is reported is all that a
  caller has to look at.

  Key definitions include:
    * `Touch.Off`
    * `FileSystem.Frame`
    * `Effect.Framed`

  Key theorems include:
    * `FileSystem.openAt_framed`
    * `FileSystem.openAt_setLen_frame`
    * `FileSystem.removeDirAt_framed`
    * `FileSystem.removeFileAt_framed`
    * `FileSystem.renameAt_framed`
-/

------------------------------------------------------------
-- Frames
------------------------------------------------------------

/- No object that was touched is at a place or above it. -/
def Touch.Off
    (touched : List Touch)
    (loc : Loc) : Prop :=
  ∀ place, .object place ∈ touched → ¬ place <+: loc

theorem Touch.Off.mono
    {touched more : List Touch}
    {loc : Loc}
    (hOff : Touch.Off more loc)
    (hMore : touched ⊆ more) :
    Touch.Off touched loc :=
  fun place hPlace => hOff place (hMore hPlace)

theorem Touch.off_entry_iff
    {place loc : Loc} :
    Touch.Off (Touch.entry place) loc ↔ ¬ place <+: loc := by
  simp [Touch.Off]

namespace FileSystem

/-
  Everything that was not touched is as it was: every object
  that is not at or below a touched one, the names in every
  directory whose entries were not touched, and the contents
  of every file that has no touched entry.
-/
structure Frame
    (touched : List Touch)
    (before after : FileSystem) : Prop where
  objects :
    ∀ loc, Touch.Off touched loc →
      (after.lookup loc).map FileTree.own =
        (before.lookup loc).map FileTree.own
  entries :
    ∀ dir, .entries dir ∉ touched → Touch.Off touched dir →
      ∀ n, (after.lookup (dir ++ [n])).isSome =
        (before.lookup (dir ++ [n])).isSome
  contents :
    ∀ loc ino, before.lookup loc = some (.file ino) →
      (∀ place, .object place ∈ touched →
        before.lookup place ≠ some (.file ino)) →
      after.files ino = before.files ino

theorem Frame.refl
    (touched : List Touch)
    (fs : FileSystem) :
    Frame touched fs fs where
  objects _ _ := rfl
  entries _ _ _ _ := rfl
  contents _ _ _ _ := rfl

/- A frame over less is one over more. -/
theorem Frame.mono
    {touched more : List Touch}
    {before after : FileSystem}
    (hFrame : Frame touched before after)
    (hMore : touched ⊆ more) :
    Frame more before after where
  objects loc hLoc := hFrame.objects loc (hLoc.mono hMore)
  entries dir hDir hLoc :=
    hFrame.entries dir (fun hTouch => hDir (hMore hTouch))
      (hLoc.mono hMore)
  contents loc ino hLoc hFile :=
    hFrame.contents loc ino hLoc (fun place hPlace =>
      hFile place (hMore hPlace))

/- Two frames, when the first changed no file's entries. -/
theorem Frame.trans
    {first second : List Touch}
    {fs₁ fs₂ fs₃ : FileSystem}
    (hFirst : Frame first fs₁ fs₂)
    (hSecond : Frame second fs₂ fs₃)
    (hSame : SameTree fs₁ fs₂) :
    Frame (first ++ second) fs₁ fs₃ := by
  have hLeft : first ⊆ first ++ second :=
    List.subset_append_left _ _
  have hRight : second ⊆ first ++ second :=
    List.subset_append_right _ _
  have hLookup : ∀ l, fs₂.lookup l = fs₁.lookup l := by
    intro l
    unfold FileSystem.lookup
    rw [hSame.1]
  refine ⟨fun loc hLoc => ?_, fun dir hDir hLoc n => ?_,
    fun loc ino hLoc hFile => ?_⟩
  · exact (hSecond.objects loc (hLoc.mono hRight)).trans
      (hFirst.objects loc (hLoc.mono hLeft))
  · have hLater := hSecond.entries dir
      (fun hTouch => hDir (hRight hTouch))
      (hLoc.mono hRight) n
    rw [hLater, hLookup]
  · have hLater : fs₃.files ino = fs₂.files ino := by
      apply hSecond.contents loc ino
      · rw [hLookup]
        exact hLoc
      · intro place hPlace
        rw [hLookup]
        exact hFile place (hRight hPlace)
    have hEarlier : fs₂.files ino = fs₁.files ino := by
      apply hFirst.contents loc ino hLoc
      intro place hPlace
      exact hFile place (hLeft hPlace)
    exact hLater.trans hEarlier

/-
  Where the objects off a place are as they were, only the
  directory that the place is in has other names.
-/
theorem entry_frame
    {fs fs' : FileSystem}
    {place : Loc}
    (hObjects :
      ∀ loc, ¬ place <+: loc →
        (fs'.lookup loc).map FileTree.own =
          (fs.lookup loc).map FileTree.own)
    (hFiles : fs'.files = fs.files) :
    Frame (Touch.entry place) fs fs' := by
  refine ⟨fun loc hLoc => ?_, fun dir hDir hLoc n => ?_,
    fun _ _ _ _ => by rw [hFiles]⟩
  · exact hObjects loc (Touch.off_entry_iff.mp hLoc)
  · have hBelow : ¬ place <+: dir ++ [n] := by
      rw [List.prefix_concat_iff]
      rintro (rfl | hPrefix)
      · exact hDir (by simp)
      · exact Touch.off_entry_iff.mp hLoc hPrefix
    have hOwn := congrArg Option.isSome (hObjects _ hBelow)
    simpa using hOwn

theorem lookup_filter_ne
    {entries : List (EntryName × FileTree)}
    {n m : EntryName}
    (hName : m ≠ n) :
    (entries.filter (fun e => e.1 ≠ n)).lookup m =
      entries.lookup m := by
  induction entries with
  | nil => rfl
  | cons e rest ih =>
      rcases e with ⟨k, t⟩
      by_cases hErased : k = n
      · have hOther : (m == n) = false := by
          simpa using hName
        simpa [hErased, List.lookup_cons, hOther] using ih
      · simp only [ne_eq, hErased, not_false_eq_true,
          decide_true, List.filter_cons_of_pos,
          List.lookup_cons]
        split
        · rfl
        · exact ih

theorem erase_frame
    (fs : FileSystem)
    (d : Loc)
    (n : EntryName) :
    Frame (Touch.entry (d ++ [n])) fs (fs.erase d n) := by
  refine entry_frame (fun loc hLoc => ?_) rfl
  apply FileTree.lookup_editDir_entry
  · intro dir
    rfl
  · intro dir m hName
    exact lookup_filter_ne hName
  · exact hLoc

theorem insert_frame
    (fs : FileSystem)
    (d : Loc)
    (n : EntryName)
    (t : FileTree) :
    Frame (Touch.entry (d ++ [n])) fs (fs.insert d n t) := by
  refine entry_frame (fun loc hLoc => ?_) rfl
  apply FileTree.lookup_editDir_entry
  · intro dir
    rfl
  · intro dir m hName
    have hOther : (m == n) = false := by
      simpa using hName
    rw [List.lookup_append, lookup_filter_ne hName,
      List.lookup_cons, hOther]
    simp
  · exact hLoc

theorem eraseAt_frame
    (fs : FileSystem)
    (loc : Loc) :
    Frame (Touch.entry loc) fs (fs.eraseAt loc) := by
  rcases List.eq_nil_or_concat loc with
    rfl | ⟨d, n, hConcat⟩
  · exact Frame.refl _ _
  · rw [List.concat_eq_append] at hConcat
    subst hConcat
    simpa [eraseAt] using fs.erase_frame d n

theorem insertAt_frame
    (fs : FileSystem)
    (loc : Loc)
    (t : FileTree) :
    Frame (Touch.entry loc) fs (fs.insertAt loc t) := by
  rcases List.eq_nil_or_concat loc with
    rfl | ⟨d, n, hConcat⟩
  · exact Frame.refl _ _
  · rw [List.concat_eq_append] at hConcat
    subst hConcat
    simpa [insertAt] using fs.insert_frame d n t

@[simp] theorem files_eraseAt
    (fs : FileSystem)
    (loc : Loc) :
    (fs.eraseAt loc).files = fs.files := by
  unfold eraseAt
  split <;> rfl

@[simp] theorem files_insertAt
    (fs : FileSystem)
    (loc : Loc)
    (t : FileTree) :
    (fs.insertAt loc t).files = fs.files := by
  unfold insertAt
  split <;> rfl

theorem setFile_frame
    {fs : FileSystem}
    {loc : Loc}
    {ino : Nat}
    (hFound : fs.lookup loc = some (.file ino))
    (data : FileData) :
    Frame [.object loc] fs (fs.setFile ino data) where
  objects _ _ := rfl
  entries _ _ _ _ := rfl
  contents place other hPlace hFile := by
    have hOther : other ≠ ino := by
      rintro rfl
      exact hFile loc List.mem_cons_self hFound
    exact Function.update_of_ne hOther data fs.files

end FileSystem

------------------------------------------------------------
-- Framed Calls
------------------------------------------------------------

/- A call that changed nothing but what it reports. -/
def Effect.Framed
    {α : Type}
    (fs : FileSystem)
    (call : Effect α) : Prop :=
  FileSystem.Frame call.touched fs call.fs

namespace FileSystem

variable {α : Type}

@[simp] theorem fail_framed
    (fs : FileSystem)
    (kind : ErrorKind) :
    (Effect.fail fs kind : Effect α).Framed fs :=
  Frame.refl _ _

@[simp] theorem done_self_framed
    (fs : FileSystem)
    (a : α)
    (touched : List Touch) :
    (Effect.done fs a touched).Framed fs :=
  Frame.refl _ _

variable (fs : FileSystem)
variable (w : Walk)

theorem createFile_framed
    (opts : OpenOptions)
    (d : Loc)
    (n : EntryName) :
    (fs.createFile opts d n).Framed fs where
  objects := (fs.insert_frame d n (.file fs.freshIno)).objects
  entries := (fs.insert_frame d n (.file fs.freshIno)).entries
  contents loc ino hLoc _ := by
    have hBelow : ino < fs.freshIno :=
      (FileTree.lt_inoBound hLoc).trans_le
        (Nat.le_max_right _ _)
    exact Function.update_of_ne (Nat.ne_of_lt hBelow) _ _

theorem openAt_framed
    (opts : OpenOptions) :
    (fs.openAt opts w).Framed fs := by
  unfold openAt
  split <;> [simp; skip]
  split
  · simp
  · split <;> [simp; skip]
    split <;> [simp; skip]
    exact fs.createFile_framed opts _ _
  · split <;> [simp; skip]
    split
    · simp
    · simp
    · split <;> simp
    next hFound =>
      simp only
      split
      · exact setFile_frame hFound _
      · simp

/- The place of a file that was opened and not made. -/
theorem openAt_file
    {fs : FileSystem}
    {w : Walk}
    {opts : OpenOptions}
    {file : OpenFile}
    {ino : Nat}
    (hCreates : opts.creates = false)
    (hOpen : (fs.openAt opts w).result = .ok file)
    (hObject : file.object = .file ino) :
    ∃ loc, (fs.openAt opts w).touched = [.object loc] ∧
      fs.lookup loc = some (.file ino) := by
  unfold openAt at hOpen ⊢
  split at hOpen <;> [cases hOpen; skip]
  next hValid =>
    rw [if_neg hValid]
    split at hOpen
    · cases hOpen
    · simp [hCreates] at hOpen
    next loc =>
      split at hOpen <;> [cases hOpen; skip]
      next hNew =>
        simp only [hNew]
        split at hOpen
        · cases hOpen
        · cases hOpen
        · split at hOpen
          · cases hOpen
          · rw [← Except.ok.inj hOpen] at hObject
            cases hObject
        next other hFound =>
          rw [← Except.ok.inj hOpen] at hObject
          have hIno : other = ino :=
            OpenObject.file.inj hObject
          subst hIno
          exact ⟨loc, rfl, hFound⟩

/- Setting the length of a file changes that file. -/
theorem setLen_frame
    {fs fs' : FileSystem}
    {file : OpenFile}
    {loc : Loc}
    {size : Nat}
    (hFound :
      ∀ ino, file.object = .file ino →
        fs.lookup loc = some (.file ino))
    (hLen : fs.setLen file size = .ok fs') :
    Frame [.object loc] fs fs' := by
  unfold setLen at hLen
  split at hLen
  · cases hLen
  next ino hObject =>
    split at hLen <;> [skip; cases hLen]
    rw [← Except.ok.inj hLen]
    exact setFile_frame (hFound ino hObject) _

/- Opening a file and setting its length. -/
theorem openAt_setLen_frame
    {fs fs' : FileSystem}
    {w : Walk}
    {opts : OpenOptions}
    {file : OpenFile}
    {size : Nat}
    (hCreates : opts.creates = false)
    (hOpen : (fs.openAt opts w).result = .ok file)
    (hLen : (fs.openAt opts w).fs.setLen file size = .ok fs') :
    Frame (fs.openAt opts w).touched fs fs' := by
  have hSame : SameTree fs (fs.openAt opts w).fs :=
    openAt_sameTree hCreates
  cases hObject : file.object with
  | dir loc => simp [setLen, hObject] at hLen
  | file ino =>
      rcases openAt_file hCreates hOpen hObject with
        ⟨loc, hTouched, hFound⟩
      have hOpened := fs.openAt_framed w opts
      have hSet :
          Frame [.object loc] (fs.openAt opts w).fs fs' := by
        apply setLen_frame ?_ hLen
        intro other hOther
        rw [hObject] at hOther
        unfold FileSystem.lookup
        rw [hSame.1, ← OpenObject.file.inj hOther]
        exact hFound
      have hBoth := Frame.trans hOpened hSet hSame
      apply hBoth.mono
      rw [hTouched]
      simp

theorem metadataAt_framed :
    (fs.metadataAt w).Framed fs := by
  unfold metadataAt
  split
  · simp
  · simp
  · split <;> simp

theorem readDirAt_framed :
    (fs.readDirAt w).Framed fs := by
  unfold readDirAt
  split
  · simp
  · simp
  · split <;> simp

theorem readLinkAt_framed :
    (fs.readLinkAt w).Framed fs := by
  unfold readLinkAt
  split
  · simp
  · simp
  · split <;> simp

/- Only what is at or below an edited place may go. -/
theorem isSome_editDir_off
    {f : Nat × List (EntryName × FileTree) →
      Nat × List (EntryName × FileTree)}
    {d loc : Loc}
    (hOff : ¬ d <+: loc) :
    ((fs.editDir f d).lookup loc).isSome =
      (fs.lookup loc).isSome := by
  have hOwn := FileTree.lookup_editDir_off f fs.root hOff
  simpa [FileSystem.lookup, editDir] using
    congrArg Option.isSome hOwn

theorem setPermissionsAt_framed
    (mode : Nat) :
    (fs.setPermissionsAt mode w).Framed fs := by
  unfold setPermissionsAt
  split
  · simp
  · simp
  next loc =>
    split
    · simp
    · simp
    next hFound => exact setFile_frame hFound _
    next =>
      refine ⟨fun place hPlace => ?_, fun dir _ hDir n => ?_,
        fun _ _ _ _ => rfl⟩
      · apply FileTree.lookup_editDir_off
        exact hPlace loc List.mem_cons_self
      · -- The mode of an entry may have been set; it stays.
        by_cases hSelf : loc = dir ++ [n]
        · rw [← hSelf]
          simp [FileSystem.lookup, editDir,
            FileTree.lookup_editDir_self]
        · have hOff : ¬ loc <+: dir ++ [n] := by
            rw [List.prefix_concat_iff]
            rintro (hEq | hPrefix)
            · exact hSelf hEq
            · exact hDir loc List.mem_cons_self hPrefix
          exact isSome_editDir_off fs hOff

theorem createDirAt_framed :
    (fs.createDirAt w).Framed fs := by
  cases w with
  | error kind => simp [createDirAt]
  | existing loc => simp [createDirAt]
  | missing d n slash => exact fs.insert_frame d n _

theorem removeDirAt_framed :
    (fs.removeDirAt w).Framed fs := by
  unfold removeDirAt
  split
  · simp
  · simp
  next loc =>
    split
    · simp
    · split <;> [simp; skip]
      split <;> [simp; skip]
      split <;> [simp; skip]
      exact fs.eraseAt_frame loc

theorem removeFileAt_framed :
    (fs.removeFileAt w).Framed fs := by
  unfold removeFileAt
  split
  · simp
  · simp
  next loc =>
    split
    · simp
    · split <;> [simp; skip]
      exact fs.eraseAt_frame loc

theorem renameAt_framed
    (old new : Walk) :
    (fs.renameAt old new).Framed fs := by
  unfold renameAt
  split
  · simp
  · simp
  next s d _ =>
    split
    · simp
    next t _ =>
      have hErase := fs.eraseAt_frame s
      have hInsert := (fs.eraseAt s).insertAt_frame d t
      have hLeft := List.subset_append_left
        (Touch.entry s) (Touch.entry d)
      have hRight := List.subset_append_right
        (Touch.entry s) (Touch.entry d)
      refine ⟨fun loc hLoc => ?_, fun dir hDir hLoc n => ?_,
        fun loc ino _ _ => ?_⟩
      · exact (hInsert.objects loc (hLoc.mono hRight)).trans
          (hErase.objects loc (hLoc.mono hLeft))
      · exact (hInsert.entries dir
            (fun hTouch => hDir (hRight hTouch))
            (hLoc.mono hRight) n).trans
          (hErase.entries dir
            (fun hTouch => hDir (hLeft hTouch))
            (hLoc.mono hLeft) n)
      · rw [Effect.done_fs, files_insertAt, files_eraseAt]

end FileSystem
