import Sshdt.Lib.OpenFiles
import Sshdt.Lib.Positional

/-
  The cursor of an open file.

  A read or a write starts at the cursor and moves it past
  what was read or written. `write_all` calls `write` until
  nothing is left, and every call takes as much as the system
  gives it. Whatever the pieces are, the file is written as
  it would be in one piece.

  Key definitions include:
    * `FileSystem.readCursor`
    * `FileSystem.writeLoop`
    * `FileSystem.writeAllCursor`

  Key theorems include:
    * `FileSystem.writeBytes_append`
    * `FileSystem.writeLoop_fs`
    * `FileSystem.writeAllCursor_eq`
    * `FileSystem.writeAllTo_ok`
    * `FileSystem.readFrom_ok`
    * `FileSystem.setLen_ok`
-/

------------------------------------------------------------
-- Calls That Move The Cursor
------------------------------------------------------------

namespace FileSystem

/- `File::read`. -/
def readCursor
    (fs : FileSystem)
    (io : IoAnswer)
    (file : OpenFile)
    (cursor len : Nat) : Except ErrorKind (List UInt8) × Nat :=
  match fs.readFrom io file cursor len with
  | .ok data => (.ok data, cursor + data.length)
  | .error kind => (.error kind, cursor)

/- `File::write` of bytes that the system takes at once. -/
def writeChunk
    (fs : FileSystem)
    (file : OpenFile)
    (ino cursor : Nat)
    (chunk : List UInt8) : FileSystem × Nat :=
  let written := fs.writeBytes file ino cursor chunk
  let next :=
    if file.append then
      (written.files ino).bytes.length
    else
      cursor + chunk.length
  (written, next)

/-
  The loop of `write_all`. The list says how many bytes
  beyond the first each call takes; the call after the list
  takes all that is left.
-/
def writeLoop
    (file : OpenFile)
    (ino : Nat) :
    List Nat → FileSystem → Nat → List UInt8 →
      FileSystem × Nat
| _, fs, cursor, [] => (fs, cursor)
| [], fs, cursor, byte :: rest =>
    fs.writeChunk file ino cursor (byte :: rest)
| beyond :: chunks, fs, cursor, byte :: rest =>
    let call := fs.writeChunk file ino cursor
      (byte :: rest.take beyond)
    writeLoop file ino chunks call.1 call.2
      (rest.drop beyond)

/- `File::write_all`, up to an error of the system. -/
def writeAllCursor
    (fs : FileSystem)
    (io : IoAnswer)
    (chunks : List Nat)
    (file : OpenFile)
    (cursor : Nat)
    (data : List UInt8) :
    (FileSystem × Nat) × Except ErrorKind Unit :=
  if data.isEmpty then
    ((fs, cursor), .ok ())
  else
    match file.object with
    | .dir _ => ((fs, cursor), .error .uncategorized)
    | .file ino =>
        if !file.writable then
          ((fs, cursor), .error .uncategorized)
        else
          match io.fault with
          | none =>
              (writeLoop file ino chunks fs cursor data,
                .ok ())
          | some (kind, written) =>
              (writeLoop file ino chunks fs cursor
                (data.take written), .error kind)

end FileSystem

------------------------------------------------------------
-- Pieces Of A Write
------------------------------------------------------------

namespace FileSystem

variable {file : OpenFile}
variable {ino : Nat}

/- Where a write goes. -/
def writeStart
    (file : OpenFile)
    (bytes : List UInt8)
    (position : Nat) : Nat :=
  if file.append then bytes.length else position

/- A write to an inode as a write to an array. -/
theorem writeBytes_eq
    (fs : FileSystem)
    (file : OpenFile)
    (ino position : Nat)
    (data : List UInt8) :
    fs.writeBytes file ino position data =
      fs.setFile ino
        { fs.files ino with
          bytes :=
            Positional.writeAt 0 (fs.files ino).bytes
              (writeStart file (fs.files ino).bytes position)
              data } := by
  cases data with
  | nil => simp [writeBytes, setFile]
  | cons byte rest =>
      rw [Positional.writeAt_eq_splice _ _ _
        (List.cons_ne_nil byte rest)]
      rfl

/- Two writes, the second where the first one ended. -/
theorem writeBytes_append
    (fs : FileSystem)
    {position next : Nat}
    {first : List UInt8}
    (second : List UInt8)
    (hNext :
      file.append = false → next = position + first.length) :
    (fs.writeBytes file ino position first).writeBytes file
        ino next second =
      fs.writeBytes file ino position (first ++ second) := by
  simp only [writeBytes_eq, setFile, Function.update_self,
    Function.update_idem, FileSystem.mk.injEq, true_and,
    and_true]
  congr 2
  rw [← Positional.writeAt_append]
  congr 1
  unfold writeStart
  cases hAppend : file.append with
  | false => simp [hNext hAppend]
  | true =>
      cases first with
      | nil => simp
      | cons byte rest =>
          simp only [if_true]
          rw [Positional.length_writeAt
            (List.cons_ne_nil byte rest)]
          omega

/- The pieces of a write do not show in the file. -/
theorem writeLoop_fs
    (chunks : List Nat)
    (fs : FileSystem)
    (cursor : Nat)
    (data : List UInt8) :
    (writeLoop file ino chunks fs cursor data).1 =
      fs.writeBytes file ino cursor data := by
  induction chunks generalizing fs cursor data with
  | nil => cases data <;> rfl
  | cons beyond chunks ih =>
      cases data with
      | nil => rfl
      | cons byte rest =>
          have hWhole :
              (byte :: rest.take beyond) ++ rest.drop beyond =
                byte :: rest := by
            rw [List.cons_append, List.take_append_drop]
          rw [writeLoop, ih, ← hWhole]
          apply writeBytes_append
          intro hAppend
          simp [writeChunk, hAppend]

/- `write_all` at the cursor writes at that position. -/
theorem writeAllCursor_eq
    (fs : FileSystem)
    (io : IoAnswer)
    (chunks : List Nat)
    (file : OpenFile)
    (cursor : Nat)
    (data : List UInt8) :
    fs.writeAllTo io file cursor data =
      ((fs.writeAllCursor io chunks file cursor data).1.1,
        (fs.writeAllCursor io chunks file cursor data).2) := by
  unfold writeAllTo writeAllCursor
  by_cases hEmpty : data.isEmpty = true
  · simp only [hEmpty, if_true]
  · simp only [if_neg hEmpty]
    cases file.object with
    | dir loc => rfl
    | file ino =>
        cases file.writable with
        | false => rfl
        | true =>
            simp only [Bool.not_true, Bool.false_eq_true,
              if_false]
            cases io.fault with
            | none => simp only [writeLoop_fs]
            | some fault => simp only [writeLoop_fs]

/- All bytes of a write that succeeds are written. -/
theorem writeAllTo_ok
    {fs fs' : FileSystem}
    {io : IoAnswer}
    {position : Nat}
    {data : List UInt8}
    (hObject : file.object = .file ino)
    (hWrite :
      fs.writeAllTo io file position data = (fs', .ok ())) :
    fs' = fs.writeBytes file ino position data := by
  unfold writeAllTo at hWrite
  by_cases hEmpty : data.isEmpty = true
  · rw [if_pos hEmpty] at hWrite
    cases hWrite
    simp [writeBytes, hEmpty]
  · rw [if_neg hEmpty] at hWrite
    simp only [hObject] at hWrite
    split at hWrite <;> [cases hWrite; skip]
    split at hWrite <;> [skip; cases hWrite]
    cases hWrite
    rfl

/- What a read that succeeds returns. -/
theorem readFrom_ok
    {fs : FileSystem}
    {io : IoAnswer}
    {position len : Nat}
    {data : List UInt8}
    (hObject : file.object = .file ino)
    (hRead :
      fs.readFrom io file position len = .ok data) :
    data =
      ((fs.files ino).bytes.drop position).take
        (min len (io.beyondFirst + 1)) := by
  unfold readFrom at hRead
  split at hRead <;> [cases hRead; skip]
  split at hRead <;> [cases hRead; skip]
  simp only [hObject] at hRead
  cases hRead
  rfl

/- A change of size that succeeds. -/
theorem setLen_ok
    {fs fs' : FileSystem}
    {size : Nat}
    (hObject : file.object = .file ino)
    (hLen : fs.setLen file size = .ok fs') :
    fs' =
      fs.setFile ino
        { fs.files ino with
          bytes :=
            Positional.resize 0 (fs.files ino).bytes size } := by
  simp only [setLen, hObject] at hLen
  split at hLen <;> [skip; cases hLen]
  cases hLen
  rw [Positional.resize_eq_take]

end FileSystem
