import Sshdt.Lib.SystemCalls

/-
  The calls of `std::fs::File` on a file that is open.

  What a call does apart from its arguments is the system's
  answer: an error that it reports, how much one read
  delivers, and what it tells about an open directory, whose
  entry may have been moved or removed since.

  A caller that seeks before every read and write never
  sees the cursor, so the calls take the position instead.

  Key definitions include:
    * `IoAnswer`
    * `FileSystem.seekStart`
    * `FileSystem.readFrom`
    * `FileSystem.writeAllTo`
    * `FileSystem.fileMetadata`
-/

------------------------------------------------------------
-- Answers Of The System
------------------------------------------------------------

/-
  The system's part in one call: an error with the number of
  bytes written before it, how many bytes beyond the first
  one read may deliver, and the metadata of an open
  directory.
-/
structure IoAnswer where
  fault : Option (ErrorKind × Nat)
  beyondFirst : Nat
  dirMetadata : Metadata
  deriving DecidableEq, Repr

namespace FileSystem

/- `File::seek` from the start; the offset is an `i64`. -/
def seekStart
    (offset : Nat) : Except ErrorKind Unit :=
  if offset ≤ 0x7fffffffffffffff then
    .ok ()
  else
    .error .invalidInput

/- `File::read` at a position, into a buffer of `len`. -/
def readFrom
    (fs : FileSystem)
    (io : IoAnswer)
    (file : OpenFile)
    (position len : Nat) : Except ErrorKind (List UInt8) :=
  match io.fault with
  | some (kind, _) => .error kind
  | none =>
      if !file.readable then
        .error .uncategorized
      else
        match file.object with
        | .dir _ => .error .isADirectory
        | .file ino =>
            .ok (((fs.files ino).bytes.drop position).take
              (min len (io.beyondFirst + 1)))

/- The contents with bytes written over a position. -/
def overwrite
    (bytes : List UInt8)
    (position : Nat)
    (data : List UInt8) : List UInt8 :=
  bytes.take position ++
    List.replicate (position - bytes.length) 0 ++ data ++
    bytes.drop (position + data.length)

/- Bytes written to an inode, at the end when appending. -/
def writeBytes
    (fs : FileSystem)
    (file : OpenFile)
    (ino position : Nat)
    (data : List UInt8) : FileSystem :=
  if data.isEmpty then
    fs
  else
    let old := fs.files ino
    let start :=
      if file.append then old.bytes.length else position
    fs.setFile ino
      { old with bytes := overwrite old.bytes start data }

/-
  `File::write_all` at a position. Nothing is asked of the
  system for no bytes; an error may come after some bytes.
-/
def writeAllTo
    (fs : FileSystem)
    (io : IoAnswer)
    (file : OpenFile)
    (position : Nat)
    (data : List UInt8) : FileSystem × Except ErrorKind Unit :=
  if data.isEmpty then
    (fs, .ok ())
  else
    match file.object with
    | .dir _ => (fs, .error .uncategorized)
    | .file ino =>
        if !file.writable then
          (fs, .error .uncategorized)
        else
          match io.fault with
          | none =>
              (fs.writeBytes file ino position data, .ok ())
          | some (kind, written) =>
              (fs.writeBytes file ino position
                (data.take written), .error kind)

/- `File::metadata`. -/
def fileMetadata
    (fs : FileSystem)
    (io : IoAnswer)
    (file : OpenFile) : Except ErrorKind Metadata :=
  match io.fault with
  | some (kind, _) => .error kind
  | none =>
      match file.object with
      | .file ino => .ok (fs.metadataOf (.file ino))
      | .dir _ => .ok io.dirMetadata

end FileSystem
