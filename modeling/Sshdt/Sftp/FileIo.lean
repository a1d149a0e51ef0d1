import Sshdt.Lib.Cursor
import Sshdt.Lib.Machine
import Sshdt.Sftp.Handles

/-
  Reading and writing through SFTP handles (`read`, `write`
  and `fsetstat` in `src/sftp.rs`).

  Every handle of a file has a cursor, which each request
  moves. A request seeks before it reads or writes, so what
  it does depends on its own offset only: the files are
  arrays of bytes that the requests change at positions, in
  the order in which they come.

  A read of no bytes is answered with the end of the file
  wherever it starts.

  Key definitions include:
    * `SftpFiles`
    * `SftpFiles.serve`
    * `SftpFiles.served`
    * `SftpFiles.arraysAfter`
    * `SftpFiles.ReadsRight`
    * `SftpFiles.AsksForByte`

  Key theorems include:
    * `SftpFiles.serve_eq`
    * `SftpFiles.bytes_serve`
    * `SftpFiles.bytes_after`
    * `SftpFiles.readsRight_iff`
    * `SftpFiles.file_io_positional_iff`
-/

------------------------------------------------------------
-- Handles With Cursors
------------------------------------------------------------

namespace Sshdt

/- The session, the files and the cursor of each handle. -/
structure SftpFiles where
  fs : FileSystem
  session : SftpSession
  cursor : Text → Nat

/- The requests that read, write or resize a file. -/
inductive FileRequest where
  | read (handle : Text) (offset : UInt64) (len : UInt32)
  | write
      (handle : Text) (offset : UInt64) (data : List UInt8)
  | fsetstat (handle : Text) (attrs : FileAttributes)
  deriving DecidableEq, Repr

/-
  A request with the system's part in it: an answer, and how
  many bytes beyond the first each `write` takes.
-/
structure FileEvent where
  io : IoAnswer
  chunks : List Nat
  request : FileRequest

namespace FileRequest

def handle : FileRequest → Text
| .read handle _ _ => handle
| .write handle _ _ => handle
| .fsetstat handle _ => handle

/- The request among all requests. -/
def toSftp : FileRequest → SftpRequest
| .read handle offset len => .read handle offset len
| .write handle offset data => .write handle offset data
| .fsetstat handle attrs => .fsetstat handle attrs

end FileRequest

namespace SftpFiles

/- The state with the cursor of a handle moved. -/
def moveTo
    (s : SftpFiles)
    (handle : Text)
    (position : Nat) : SftpFiles :=
  { s with cursor := Function.update s.cursor handle position }

/- `read`. -/
def read
    (s : SftpFiles)
    (io : IoAnswer)
    (handle : Text)
    (offset : UInt64)
    (len : UInt32) :
    SftpFiles × Except StatusCode SftpAnswer :=
  match Table.get s.session.handles handle with
  | some (.file file) =>
      match FileSystem.seekStart offset.toNat with
      | .error kind => (s, .error (ioToStatus kind))
      | .ok () =>
          let sought := s.moveTo handle offset.toNat
          match sought.fs.readCursor io file
              (sought.cursor handle) len.toNat with
          | (.error kind, next) =>
              (sought.moveTo handle next,
                .error (ioToStatus kind))
          | (.ok buf, next) =>
              (sought.moveTo handle next,
                if buf.isEmpty then
                  .error .eof
                else
                  .ok (.data buf))
  | _ => (s, .error .failure)

/- `write`. -/
def write
    (s : SftpFiles)
    (io : IoAnswer)
    (chunks : List Nat)
    (handle : Text)
    (offset : UInt64)
    (data : List UInt8) :
    SftpFiles × Except StatusCode SftpAnswer :=
  match Table.get s.session.handles handle with
  | some (.file file) =>
      match FileSystem.seekStart offset.toNat with
      | .error kind => (s, .error (ioToStatus kind))
      | .ok () =>
          let sought := s.moveTo handle offset.toNat
          match sought.fs.writeAllCursor io chunks file
              (sought.cursor handle) data with
          | ((written, next), result) =>
              ({ sought.moveTo handle next with
                  fs := written },
                match result with
                | .error kind => .error (ioToStatus kind)
                | .ok () => .ok (.reply .status))
  | _ => (s, .error .failure)

/- `fsetstat`; `set_len` leaves the cursor. -/
def fsetstat
    (s : SftpFiles)
    (io : IoAnswer)
    (handle : Text)
    (attrs : FileAttributes) :
    SftpFiles × Except StatusCode SftpAnswer :=
  match Table.get s.session.handles handle, attrs.size with
  | some (.file file), some size =>
      ({ s with
          fs := SftpSession.setFileSize s.fs io file size },
        .ok (.reply .status))
  | _, _ => (s, .ok (.reply .status))

/- The handler of a request. -/
def serve
    (s : SftpFiles)
    (event : FileEvent) :
    SftpFiles × Except StatusCode SftpAnswer :=
  match event.request with
  | .read handle offset len =>
      s.read event.io handle offset len
  | .write handle offset data =>
      s.write event.io event.chunks handle offset data
  | .fsetstat handle attrs =>
      s.fsetstat event.io handle attrs

end SftpFiles

end Sshdt

------------------------------------------------------------
-- The Cursor Does Not Show
------------------------------------------------------------

namespace Sshdt

namespace SftpFiles

/- What a request did, without the cursors. -/
def outcome
    (result : SftpFiles × Except StatusCode SftpAnswer) :
    SftpResult where
  fs := result.1.fs
  session := result.1.session
  reply := result.2

@[simp]
theorem moveTo_fs
    (s : SftpFiles)
    (handle : Text)
    (position : Nat) :
    (s.moveTo handle position).fs = s.fs :=
  rfl

@[simp]
theorem moveTo_session
    (s : SftpFiles)
    (handle : Text)
    (position : Nat) :
    (s.moveTo handle position).session = s.session :=
  rfl

@[simp]
theorem moveTo_cursor
    (s : SftpFiles)
    (handle : Text)
    (position : Nat) :
    (s.moveTo handle position).cursor handle = position :=
  Function.update_self _ _ _

theorem read_eq
    (s : SftpFiles)
    (io : IoAnswer)
    (handle : Text)
    (offset : UInt64)
    (len : UInt32) :
    outcome (s.read io handle offset len) =
      s.session.read s.fs io handle offset len := by
  unfold read SftpSession.read
  rcases Table.get s.session.handles handle with
    _ | file | _
  · rfl
  · cases FileSystem.seekStart offset.toNat with
    | error kind => rfl
    | ok _ =>
        simp only [moveTo_fs, moveTo_cursor,
          FileSystem.readCursor]
        rcases s.fs.readFrom io file offset.toNat len.toNat with
          kind | buf
        · rfl
        · cases buf with
          | nil => rfl
          | cons byte rest => rfl
  · rfl

theorem write_eq
    (s : SftpFiles)
    (io : IoAnswer)
    (chunks : List Nat)
    (handle : Text)
    (offset : UInt64)
    (data : List UInt8) :
    outcome (s.write io chunks handle offset data) =
      s.session.write s.fs io handle offset data := by
  unfold write SftpSession.write
  rcases Table.get s.session.handles handle with
    _ | file | _
  · rfl
  · cases FileSystem.seekStart offset.toNat with
    | error kind => rfl
    | ok _ =>
        simp only [moveTo_fs, moveTo_cursor,
          FileSystem.writeAllCursor_eq s.fs io chunks]
        cases (s.fs.writeAllCursor io chunks file
            offset.toNat data).2 with
        | error kind => rfl
        | ok _ => rfl
  · rfl

theorem fsetstat_eq
    (s : SftpFiles)
    (io : IoAnswer)
    (handle : Text)
    (attrs : FileAttributes) :
    outcome (s.fsetstat io handle attrs) =
      s.session.fsetstat s.fs io handle attrs := by
  unfold fsetstat SftpSession.fsetstat
  rcases Table.get s.session.handles handle with
    _ | file | _
  · rfl
  · cases attrs.size with
    | none => rfl
    | some size => rfl
  · rfl

/-
  The files, the table and the answers are those of the
  session whose calls take the position.
-/
theorem serve_eq
    (lib : SftpLibrary)
    (s : SftpFiles)
    (event : FileEvent) :
    outcome (s.serve event) =
      s.session.serve lib s.fs event.io
        event.request.toSftp := by
  unfold serve
  cases event.request with
  | read handle offset len =>
      exact s.read_eq event.io handle offset len
  | write handle offset data =>
      exact s.write_eq event.io event.chunks handle offset data
  | fsetstat handle attrs =>
      exact s.fsetstat_eq event.io handle attrs

end SftpFiles

end Sshdt

------------------------------------------------------------
-- Arrays Of Bytes
------------------------------------------------------------

namespace Sshdt

/- The contents of all files, each an array of bytes. -/
abbrev ByteArrays := Nat → List UInt8

/- What a request does to the array of its file. -/
def FileRequest.apply
    (array : List UInt8) : FileRequest → List UInt8
| .read _ _ _ => array
| .write _ offset data =>
    Positional.writeAt 0 array offset.toNat data
| .fsetstat _ attrs =>
    match attrs.size with
    | none => array
    | some size => Positional.resize 0 array size

namespace SftpFiles

/- The contents of the files. -/
def bytes
    (s : SftpFiles) : ByteArrays :=
  fun ino => (s.fs.files ino).bytes

/- The file that a handle has open, if not for appending. -/
def plainFile
    (s : SftpFiles)
    (handle : Text) : Option (OpenFile × Nat) :=
  match Table.get s.session.handles handle with
  | some (.file file) =>
      match file.object with
      | .file ino =>
          if file.append then none else some (file, ino)
      | .dir _ => none
  | _ => none

/- The calls on an open file that a request makes succeed. -/
def callsSucceed
    (fs : FileSystem)
    (io : IoAnswer)
    (file : OpenFile) : FileRequest → Bool
| .read _ offset len =>
    (FileSystem.seekStart offset.toNat).isOk &&
      (fs.readFrom io file offset.toNat len.toNat).isOk
| .write _ offset data =>
    (FileSystem.seekStart offset.toNat).isOk &&
      (fs.writeAllTo io file offset.toNat data).2.isOk
| .fsetstat _ attrs =>
    match attrs.size with
    | none => true
    | some size =>
        io.fault.isNone && (fs.setLen file size).isOk

/-
  The request is for a file open without appending, and its
  calls succeed.
-/
def served
    (s : SftpFiles)
    (event : FileEvent) : Bool :=
  match s.plainFile event.request.handle with
  | none => false
  | some (file, _) =>
      callsSucceed s.fs event.io file event.request

/- Requests that are served, one after another. -/
def machine
    (start : SftpFiles) : Machine SftpFiles FileEvent where
  init := start
  step s event :=
    if s.served event then some (s.serve event).1 else none

/- The arrays after one more request. -/
def applyTo
    (start : SftpFiles)
    (arrays : ByteArrays)
    (event : FileEvent) : ByteArrays :=
  match start.plainFile event.request.handle with
  | none => arrays
  | some (_, ino) =>
      Function.update arrays ino
        (event.request.apply (arrays ino))

/- The arrays after the requests, in their order. -/
def arraysAfter
    (start : SftpFiles)
    (events : List FileEvent) : ByteArrays :=
  events.foldl start.applyTo start.bytes

/-
  A read returns some bytes from its offset on, no more than
  it asks for, or the end of the file exactly when it starts
  there or beyond.
-/
def ReadAnswers
    (array : List UInt8)
    (offset len : Nat)
    (reply : Except StatusCode SftpAnswer) : Prop :=
  (∀ data, reply = .ok (.data data) →
    data ≠ [] ∧ data <+: array.drop offset ∧
      data.length ≤ len) ∧
  (reply = .error .eof ↔ array.length ≤ offset)

/- If the request is a read, its answer is right. -/
def ReadsRight
    (s : SftpFiles)
    (event : FileEvent) : Prop :=
  ∀ handle offset len file ino,
    event.request = .read handle offset len →
      s.plainFile handle = some (file, ino) →
        ReadAnswers (s.bytes ino) offset.toNat len.toNat
          (s.serve event).2

/- A read asks for a byte, or starts at or past the end. -/
def AsksForByte
    (s : SftpFiles)
    (event : FileEvent) : Prop :=
  match event.request with
  | .read handle offset len =>
      match s.plainFile handle with
      | some (_, ino) =>
          len ≠ 0 ∨ (s.bytes ino).length ≤ offset.toNat
      | none => True
  | _ => True

instance decidableAsksForByte
    (s : SftpFiles)
    (event : FileEvent) :
    Decidable (s.AsksForByte event) := by
  unfold AsksForByte
  split
  · split <;> infer_instance
  · infer_instance

end SftpFiles

end Sshdt

------------------------------------------------------------
-- Files As Arrays
------------------------------------------------------------

namespace Sshdt

namespace SftpFiles

variable {s t : SftpFiles}
variable {event : FileEvent}
variable {handle : Text}
variable {file : OpenFile}
variable {ino : Nat}

theorem plainFile_some
    (hPlain : s.plainFile handle = some (file, ino)) :
    Table.get s.session.handles handle = some (.file file) ∧
      file.object = .file ino ∧ file.append = false := by
  unfold plainFile at hPlain
  split at hPlain <;> [skip; cases hPlain]
  rename_i found hGet
  split at hPlain <;> [skip; cases hPlain]
  rename_i number hObject
  split at hPlain <;> [cases hPlain; skip]
  rename_i hAppend
  cases hPlain
  exact ⟨hGet, hObject, by simpa using hAppend⟩

/- A request that is served has a file and its calls. -/
theorem served_iff :
    s.served event = true ↔
      ∃ file ino,
        s.plainFile event.request.handle = some (file, ino) ∧
          callsSucceed s.fs event.io file event.request =
            true := by
  unfold served
  cases s.plainFile event.request.handle with
  | none => simp
  | some found =>
      rcases found with ⟨file, ino⟩
      simp

theorem isOk_iff
    {ε α : Type}
    {result : Except ε α} :
    result.isOk = true ↔ ∃ value, result = .ok value := by
  cases result with
  | error e => simp [Except.isOk, Except.toBool]
  | ok value => simp [Except.isOk, Except.toBool]

/- The bytes after one file is changed. -/
theorem bytes_setFile
    (s : SftpFiles)
    (fs : FileSystem)
    (ino : Nat)
    (data : FileData)
    (hFs : s.fs = fs.setFile ino data) :
    s.bytes =
      Function.update (fun ino => (fs.files ino).bytes) ino
        data.bytes := by
  funext other
  simp only [bytes, hFs, FileSystem.setFile]
  by_cases hSame : other = ino
  · subst hSame
    simp
  · simp [Function.update_of_ne hSame]

/- The table of handles stays. -/
theorem serve_session
    (s : SftpFiles)
    (event : FileEvent) :
    (s.serve event).1.session = s.session := by
  unfold serve
  cases event.request with
  | read handle offset len =>
      simp only [read]
      split
      · split
        · rfl
        · split
          · rfl
          · rfl
      · rfl
  | write handle offset data =>
      simp only [write]
      split
      · split
        · rfl
        · rfl
      · rfl
  | fsetstat handle attrs =>
      simp only [fsetstat]
      split
      · rfl
      · rfl

/- Reading changes no file. -/
theorem read_fs
    (s : SftpFiles)
    (io : IoAnswer)
    (handle : Text)
    (offset : UInt64)
    (len : UInt32) :
    (s.read io handle offset len).1.fs = s.fs := by
  simp only [read]
  split
  · split
    · rfl
    · split
      · rfl
      · rfl
  · rfl

/- Writing changes the array of the handle's file. -/
theorem write_fs
    {io : IoAnswer}
    {chunks : List Nat}
    {offset : UInt64}
    {data : List UInt8}
    (hPlain : s.plainFile handle = some (file, ino))
    (hCalls :
      callsSucceed s.fs io file (.write handle offset data) =
        true) :
    (s.write io chunks handle offset data).1.fs =
      s.fs.setFile ino
        { s.fs.files ino with
          bytes :=
            Positional.writeAt 0 (s.bytes ino) offset.toNat
              data } := by
  rcases plainFile_some hPlain with ⟨hGet, hObject, hAppend⟩
  simp only [callsSucceed, Bool.and_eq_true, isOk_iff] at hCalls
  rcases hCalls with ⟨⟨_, hSeek⟩, ⟨_, hOk⟩⟩
  have hWrite := FileSystem.writeAllTo_ok hObject
    (Prod.ext rfl hOk :
      s.fs.writeAllTo io file offset.toNat data = (_, .ok ()))
  have hFs :
      (s.write io chunks handle offset data).1.fs =
        (s.fs.writeAllTo io file offset.toNat data).1 := by
    rw [FileSystem.writeAllCursor_eq s.fs io chunks]
    simp only [write, hGet, hSeek, moveTo_fs, moveTo_cursor]
  rw [hFs]
  refine hWrite.trans ?_
  rw [FileSystem.writeBytes_eq, FileSystem.writeStart,
    if_neg (by simp [hAppend])]
  rfl

/- Resizing changes the array of the handle's file. -/
theorem fsetstat_fs
    {io : IoAnswer}
    {attrs : FileAttributes}
    {size : Nat}
    (hPlain : s.plainFile handle = some (file, ino))
    (hSize : attrs.size = some size)
    (hCalls :
      callsSucceed s.fs io file (.fsetstat handle attrs) =
        true) :
    (s.fsetstat io handle attrs).1.fs =
      s.fs.setFile ino
        { s.fs.files ino with
          bytes :=
            Positional.resize 0 (s.bytes ino) size } := by
  rcases plainFile_some hPlain with ⟨hGet, hObject, _⟩
  simp only [callsSucceed, hSize, Bool.and_eq_true,
    Option.isNone_iff_eq_none, isOk_iff] at hCalls
  rcases hCalls with ⟨hFault, changed, hLen⟩
  simp only [fsetstat, hGet, hSize, SftpSession.setFileSize,
    hFault, hLen]
  exact FileSystem.setLen_ok hObject hLen

/- A request that is served changes its array only. -/
theorem bytes_serve
    (hServed : s.served event = true) :
    (s.serve event).1.bytes = s.applyTo s.bytes event := by
  rcases served_iff.mp hServed with
    ⟨file, ino, hPlain, hCalls⟩
  simp only [applyTo, hPlain]
  rcases event with ⟨io, chunks, request⟩
  cases request with
  | read handle offset len =>
      simp only [serve, FileRequest.apply,
        Function.update_eq_self]
      unfold bytes
      rw [s.read_fs io handle offset len]
  | write handle offset data =>
      exact bytes_setFile _ s.fs ino _
        (write_fs hPlain hCalls)
  | fsetstat handle attrs =>
      cases hSize : attrs.size with
      | some size =>
          simp only [FileRequest.apply, hSize]
          exact bytes_setFile _ s.fs ino _
            (fsetstat_fs hPlain hSize hCalls)
      | none =>
          have hGet :
              Table.get s.session.handles handle =
                some (.file file) :=
            (plainFile_some hPlain).1
          have hSame :
              (s.fsetstat io handle attrs).1 = s := by
            simp only [fsetstat, hGet, hSize]
          simp only [serve, hSame, FileRequest.apply, hSize,
            Function.update_eq_self]

end SftpFiles

end Sshdt

------------------------------------------------------------
-- The Answers Of Reads
------------------------------------------------------------

namespace Sshdt

namespace SftpFiles

variable {s t start : SftpFiles}
variable {event : FileEvent}
variable {handle : Text}
variable {file : OpenFile}
variable {ino : Nat}

/- How the bytes that a read got are answered. -/
def readReply
    (buf : List UInt8) : Except StatusCode SftpAnswer :=
  if buf.isEmpty then .error .eof else .ok (.data buf)

/- What a read that is served answers. -/
theorem read_reply
    {io : IoAnswer}
    {offset : UInt64}
    {len : UInt32}
    (hPlain : s.plainFile handle = some (file, ino))
    (hCalls :
      callsSucceed s.fs io file (.read handle offset len) =
        true) :
    (s.read io handle offset len).2 =
      readReply
        (((s.bytes ino).drop offset.toNat).take
          (min len.toNat (io.beyondFirst + 1))) := by
  rcases plainFile_some hPlain with ⟨hGet, hObject, _⟩
  simp only [callsSucceed, Bool.and_eq_true, isOk_iff] at hCalls
  rcases hCalls with ⟨⟨_, hSeek⟩, buf, hRead⟩
  have hBuf := FileSystem.readFrom_ok hObject hRead
  simp only [read, hGet, hSeek, moveTo_fs, moveTo_cursor,
    FileSystem.readCursor, hRead]
  rw [hBuf]
  rfl

/-
  The end of the file is inferred from an empty buffer, which
  is right unless the buffer was empty to begin with.
-/
theorem readAnswers_iff
    (array : List UInt8)
    (offset len beyond : Nat) :
    ReadAnswers array offset len
        (readReply
          ((array.drop offset).take (min len (beyond + 1)))) ↔
      len ≠ 0 ∨ array.length ≤ offset := by
  generalize hIs :
    (array.drop offset).take (min len (beyond + 1)) = buf
  have hEmpty :
      buf.isEmpty = true ↔ len = 0 ∨ array.length ≤ offset := by
    rw [← hIs, List.isEmpty_iff, List.take_eq_nil_iff,
      List.drop_eq_nil_iff]
    constructor
    · rintro (hNone | hBeyond)
      · left
        omega
      · exact Or.inr hBeyond
    · rintro (hNone | hBeyond)
      · left
        omega
      · exact Or.inr hBeyond
  unfold readReply
  by_cases hBuf : buf.isEmpty = true
  · rw [if_pos hBuf]
    have hOr := hEmpty.mp hBuf
    constructor
    · rintro ⟨_, hEof⟩
      exact Or.inr (hEof.mp rfl)
    · intro hAsks
      refine ⟨?_, ?_⟩
      · intro data hData
        cases hData
      · simp only [true_iff]
        omega
  · rw [if_neg hBuf]
    have hNot := mt hEmpty.mpr hBuf
    rw [not_or] at hNot
    refine iff_of_true ⟨?_, ?_⟩ (Or.inl hNot.1)
    · intro data hData
      cases hData
      refine ⟨?_, ?_, ?_⟩
      · rwa [List.isEmpty_iff] at hBuf
      · rw [← hIs]
        exact List.take_prefix _ _
      · rw [← hIs]
        exact (List.length_take_le _ _).trans
          (Nat.min_le_left _ _)
    · simp only [reduceCtorEq, false_iff]
      exact hNot.2

theorem read_right_iff
    {io : IoAnswer}
    {offset : UInt64}
    {len : UInt32}
    (hPlain : s.plainFile handle = some (file, ino))
    (hCalls :
      callsSucceed s.fs io file (.read handle offset len) =
        true) :
    ReadAnswers (s.bytes ino) offset.toNat len.toNat
        (s.read io handle offset len).2 ↔
      len ≠ 0 ∨ (s.bytes ino).length ≤ offset.toNat := by
  rw [read_reply hPlain hCalls, readAnswers_iff, ne_eq, ne_eq,
    ← UInt32.toNat_inj]
  rfl

/- A read is answered right if it asks for a byte. -/
theorem readsRight_iff
    (hServed : s.served event = true) :
    s.ReadsRight event ↔ s.AsksForByte event := by
  rcases served_iff.mp hServed with
    ⟨file, ino, hPlain, hCalls⟩
  rcases event with ⟨io, chunks, request⟩
  unfold ReadsRight AsksForByte
  cases request with
  | read handle offset len =>
      change s.plainFile handle = some (file, ino) at hPlain
      simp only [hPlain]
      rw [← read_right_iff hPlain hCalls]
      constructor
      · intro hRight
        exact hRight handle offset len file ino rfl hPlain
      · intro hRight handle' offset' len' found number hRequest
          hFound
        cases hRequest
        cases hPlain.symm.trans hFound
        exact hRight
  | write handle offset data => simp
  | fsetstat handle attrs => simp

end SftpFiles

end Sshdt

------------------------------------------------------------
-- Runs Of Requests
------------------------------------------------------------

namespace Sshdt

namespace SftpFiles

variable {s t start : SftpFiles}
variable {event : FileEvent}
variable {events : List FileEvent}

theorem step_some
    (hStep : (machine start).step s event = some t) :
    s.served event = true ∧ t = (s.serve event).1 := by
  simp only [machine] at hStep
  split at hStep <;> [skip; cases hStep]
  rename_i hServed
  cases hStep
  exact ⟨hServed, rfl⟩

/- The file of a handle depends on the table only. -/
theorem applyTo_congr
    (hSession : s.session = start.session) :
    s.applyTo = start.applyTo := by
  funext arrays event
  simp only [applyTo, plainFile, hSession]

/- Along a run the files are the arrays. -/
theorem bytes_after
    (hRun : (machine start).exec start events = some s) :
    s.session = start.session ∧
      s.bytes = start.arraysAfter events := by
  refine Machine.exec_history
    (P := fun events s =>
      s.session = start.session ∧
        s.bytes = start.arraysAfter events)
    hRun ⟨rfl, rfl⟩ ?_
  rintro before r event t _ ⟨hSession, hBytes⟩ hStep
  rcases step_some hStep with ⟨hServed, rfl⟩
  refine ⟨(serve_session r event).trans hSession, ?_⟩
  rw [bytes_serve hServed, applyTo_congr hSession, hBytes,
    arraysAfter, arraysAfter, List.foldl_concat]

/-
  Requests through handles that are not open for appending,
  whose calls succeed: the files are the arrays of bytes to
  which the requests are applied in order, and the reads are
  answered as positional reads, exactly when every read asks
  for a byte or starts at or past the end of its file.
-/
theorem file_io_positional_iff
    (start final : SftpFiles)
    (events : List FileEvent)
    (hRun :
      (machine start).exec start events = some final) :
    (final.bytes = start.arraysAfter events ∧
      (machine start).MeetsAll ReadsRight start events) ↔
      (machine start).MeetsAll AsksForByte start events := by
  rw [and_iff_right (bytes_after hRun).2]
  apply Machine.meetsAll_congr ?_ hRun
  intro s event t hStep
  exact readsRight_iff (step_some hStep).1

/- A file open for reading and writing. -/
def sharedFile : OpenFile where
  object := .file 0
  readable := true
  writable := true
  append := false

/- Two handles of one empty file. -/
def twoHandles : SftpFiles where
  fs := linkedFs "data".toList
  session :=
    { jailedSession (linkedFs "data".toList) with
      handles :=
        [("h0".toList, .file sharedFile),
          ("h1".toList, .file sharedFile)]
      nextHandle := 2 }
  cursor _ := 0

/- A request whose calls move a few bytes at a time. -/
def piecewise
    (request : FileRequest) : FileEvent where
  io := { SftpRun.quietIo with beyondFirst := 1 }
  chunks := [0, 1]
  request := request

/- Writes with a gap and over each other, reads, a cut. -/
def mixedRequests : List FileEvent :=
  [piecewise (.write "h0".toList 3 [1, 2]),
    piecewise (.write "h1".toList 0 [7, 8, 9, 10]),
    piecewise (.read "h0".toList 1 10),
    piecewise (.fsetstat "h1".toList
      { size := some 2, permissions := none }),
    piecewise (.read "h1".toList 2 4)]

theorem mixedRequests_run :
    ((machine twoHandles).exec twoHandles
      mixedRequests).isSome = true := by
  decide +kernel

/- The requests are answered as positional reads and writes. -/
theorem mixedRequests_positional :
    ∃ final,
      (machine twoHandles).exec twoHandles mixedRequests =
          some final ∧
        final.bytes = twoHandles.arraysAfter mixedRequests ∧
        (machine twoHandles).MeetsAll ReadsRight twoHandles
          mixedRequests :=
  ⟨_, (Option.some_get mixedRequests_run).symm,
    (file_io_positional_iff twoHandles _ mixedRequests
      (Option.some_get mixedRequests_run).symm).mpr
      (by decide +kernel)⟩

/- One byte is written, then a read of no bytes follows. -/
def oneByte : List FileEvent :=
  [piecewise (.write "h0".toList 0 [1])]

def emptyRead : FileEvent :=
  piecewise (.read "h0".toList 0 0)

theorem oneByte_run :
    ((machine twoHandles).exec twoHandles
      oneByte).isSome = true := by
  decide +kernel

theorem emptyRead_run :
    ((machine twoHandles).exec twoHandles
      (oneByte ++ [emptyRead])).isSome = true := by
  decide +kernel

/- The read of no bytes is told that the file is at its end. -/
theorem emptyRead_not_positional :
    ∃ final,
      (machine twoHandles).exec twoHandles
          (oneByte ++ [emptyRead]) = some final ∧
        ¬ (final.bytes =
            twoHandles.arraysAfter (oneByte ++ [emptyRead]) ∧
          (machine twoHandles).MeetsAll ReadsRight twoHandles
            (oneByte ++ [emptyRead])) := by
  refine ⟨_, (Option.some_get emptyRead_run).symm, ?_⟩
  rintro ⟨_, hMeets⟩
  have hRight :=
    (Machine.meetsAll_concat
      (Option.some_get oneByte_run).symm hMeets).2
  rw [readsRight_iff (by decide +kernel)] at hRight
  revert hRight
  decide +kernel

end SftpFiles

end Sshdt
