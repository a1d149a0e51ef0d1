import Sshdt.Lib.Machine
import Sshdt.Lib.Table
import Sshdt.Lib.OpenFiles
import Sshdt.Sftp.Jail

/-
  The handle table of an SFTP session (`src/sftp.rs`): the
  requests that take a handle, next to those that take a
  path, and the table over a whole session.

  The counter `next_handle` is a natural number here; below
  2^64 opens that is the value of the source's `u64`.

  Between two requests other programs may change the file
  system in any way.

  Key definitions include:
    * `SftpRequest`
    * `SftpSession.serve`
    * `SftpRun`
    * `SftpRun.machine`
    * `SftpRun.HandleTable`

  Key theorems include:
    * `SftpSession.serve_cases`
    * `SftpRun.reachable_inv`
    * `SftpRun.reachable_handleTable`
-/

------------------------------------------------------------
-- Requests That Take A Handle
------------------------------------------------------------

namespace Sshdt

/- `READDIR_BATCH`. -/
def readdirBatch : Nat := 100

/- What a request of any kind sends back. -/
inductive SftpAnswer where
  | version
  | reply (reply : SftpReply)
  | data (data : List UInt8)
  deriving DecidableEq, Repr

/- What a request of any kind did. -/
structure SftpResult where
  fs : FileSystem
  session : SftpSession
  reply : Except StatusCode SftpAnswer

namespace SftpSession

/- A request that changes neither files nor the session. -/
def answer
    (session : SftpSession)
    (fs : FileSystem)
    (reply : Except StatusCode SftpAnswer) : SftpResult where
  fs := fs
  session := session
  reply := reply

/- `realpath`. -/
def realpath
    (session : SftpSession)
    (fs : FileSystem)
    (path : Text) : SftpResult :=
  let path := if path.isEmpty then ['.'] else path
  match session.resolve fs path with
  | .error code => session.answer fs (.error code)
  | .ok real =>
      let canonical :=
        match fs.canonicalize real with
        | .ok canon => canon
        | .error _ => real
      session.answer fs (.ok (.reply (.name
        [.dummy (session.toClientPath canonical)])))

/- `read`. -/
def read
    (session : SftpSession)
    (fs : FileSystem)
    (io : IoAnswer)
    (handle : Text)
    (offset : UInt64)
    (len : UInt32) : SftpResult :=
  match Table.get session.handles handle with
  | some (.file file) =>
      match FileSystem.seekStart offset.toNat with
      | .error kind =>
          session.answer fs (.error (ioToStatus kind))
      | .ok () =>
          match fs.readFrom io file offset.toNat len.toNat with
          | .error kind =>
              session.answer fs (.error (ioToStatus kind))
          | .ok buf =>
              if buf.isEmpty then
                session.answer fs (.error .eof)
              else
                session.answer fs (.ok (.data buf))
  | _ => session.answer fs (.error .failure)

/- `write`. -/
def write
    (session : SftpSession)
    (fs : FileSystem)
    (io : IoAnswer)
    (handle : Text)
    (offset : UInt64)
    (data : List UInt8) : SftpResult :=
  match Table.get session.handles handle with
  | some (.file file) =>
      match FileSystem.seekStart offset.toNat with
      | .error kind =>
          session.answer fs (.error (ioToStatus kind))
      | .ok () =>
          match fs.writeAllTo io file offset.toNat data with
          | (written, .error kind) =>
              session.answer written
                (.error (ioToStatus kind))
          | (written, .ok ()) =>
              session.answer written (.ok (.reply .status))
  | _ => session.answer fs (.error .failure)

/- `close`. -/
def close
    (session : SftpSession)
    (fs : FileSystem)
    (handle : Text) : SftpResult :=
  { session with
    handles := Table.remove session.handles handle }.answer
      fs (.ok (.reply .status))

/- `readdir`. -/
def readdir
    (session : SftpSession)
    (fs : FileSystem)
    (handle : Text) : SftpResult :=
  match Table.get session.handles handle with
  | some (.dir entries offset) =>
      if entries.length ≤ offset then
        session.answer fs (.error .eof)
      else
        let stop := min (offset + readdirBatch) entries.length
        let batch := (entries.take stop).drop offset
        { session with
          handles := Table.set session.handles handle
            (.dir entries stop) }.answer
          fs (.ok (.reply (.name batch)))
  | _ => session.answer fs (.error .failure)

/- `fstat`. -/
def fstat
    (session : SftpSession)
    (lib : SftpLibrary)
    (fs : FileSystem)
    (io : IoAnswer)
    (handle : Text) : SftpResult :=
  match Table.get session.handles handle with
  | some (.file file) =>
      match fs.fileMetadata io file with
      | .error kind =>
          session.answer fs (.error (ioToStatus kind))
      | .ok metadata =>
          session.answer fs
            (.ok (.reply (.attrs (lib.attributes metadata))))
  | _ => session.answer fs (.error .failure)

/- The size change of `fsetstat`; an error is ignored. -/
def setFileSize
    (fs : FileSystem)
    (io : IoAnswer)
    (file : OpenFile)
    (size : Nat) : FileSystem :=
  match io.fault with
  | some _ => fs
  | none =>
      match fs.setLen file size with
      | .error _ => fs
      | .ok changed => changed

/- `fsetstat`. -/
def fsetstat
    (session : SftpSession)
    (fs : FileSystem)
    (io : IoAnswer)
    (handle : Text)
    (attrs : FileAttributes) : SftpResult :=
  match Table.get session.handles handle, attrs.size with
  | some (.file file), some size =>
      session.answer (setFileSize fs io file size)
        (.ok (.reply .status))
  | _, _ => session.answer fs (.ok (.reply .status))

end SftpSession

/- The requests of a client. -/
inductive SftpRequest where
  | init
  | path (request : PathRequest)
  | realpath (path : Text)
  | read (handle : Text) (offset : UInt64) (len : UInt32)
  | write
      (handle : Text) (offset : UInt64) (data : List UInt8)
  | close (handle : Text)
  | readdir (handle : Text)
  | fstat (handle : Text)
  | fsetstat (handle : Text) (attrs : FileAttributes)
  | unimplemented
  deriving DecidableEq, Repr

/- The handle that a request names. -/
def SftpRequest.handle? : SftpRequest → Option Text
  | .read handle _ _ => some handle
  | .write handle _ _ => some handle
  | .close handle => some handle
  | .readdir handle => some handle
  | .fstat handle => some handle
  | .fsetstat handle _ => some handle
  | _ => none

/- The requests that answer with a new handle. -/
def SftpRequest.allocates : SftpRequest → Bool
  | .path (.openFile _ _) => true
  | .path (.opendir _) => true
  | _ => false

/- The handler of a request. -/
def SftpSession.serve
    (session : SftpSession)
    (lib : SftpLibrary)
    (fs : FileSystem)
    (io : IoAnswer) : SftpRequest → SftpResult
  | .init => session.answer fs (.ok .version)
  | .path request =>
      let outcome := session.handle lib fs request
      outcome.session.answer outcome.fs
        (outcome.reply.map SftpAnswer.reply)
  | .realpath path => session.realpath fs path
  | .read handle offset len =>
      session.read fs io handle offset len
  | .write handle offset data =>
      session.write fs io handle offset data
  | .close handle => session.close fs handle
  | .readdir handle => session.readdir fs handle
  | .fstat handle => session.fstat lib fs io handle
  | .fsetstat handle attrs =>
      session.fsetstat fs io handle attrs
  | .unimplemented =>
      session.answer fs (.error .opUnsupported)

end Sshdt

------------------------------------------------------------
-- What A Request Does To The Table
------------------------------------------------------------

namespace Sshdt

/- The key that `alloc_handle` makes of a number. -/
def handleKey
    (id : Nat) : Text :=
  'h' :: Nat.toDigits 10 id

/- Different numbers have different decimal forms. -/
theorem handleKey_injective :
    Function.Injective handleKey := by
  intro i j hEqual
  have hDigits : Nat.toDigits 10 i = Nat.toDigits 10 j :=
    (List.cons.inj hEqual).2
  have hValue := congrArg
    (fun digits => Nat.ofDigitChars 10 digits 0) hDigits
  simpa only [Nat.ofDigitChars_ten_toDigits] using hValue

namespace SftpSession

/- The session after a handle has been allocated. -/
theorem allocHandle_eq
    (session : SftpSession)
    (entry : HandleEntry) :
    session.allocHandle entry =
      (handleKey session.nextHandle,
        { session with
          nextHandle := session.nextHandle + 1
          handles := Table.insert session.handles
            (handleKey session.nextHandle) entry }) :=
  rfl

/- The outcome keeps the session and names no handle. -/
def Keeps
    (session : SftpSession)
    (outcome : SftpOutcome) : Prop :=
  outcome.session = session ∧
    ∀ key, outcome.reply ≠ .ok (.handle key)

/- The outcome is an error that keeps the session. -/
def Fails
    (session : SftpSession)
    (outcome : SftpOutcome) : Prop :=
  outcome.session = session ∧
    ∃ code, outcome.reply = .error code

/- The outcome answers with the next handle, for an entry. -/
def Allocates
    (session : SftpSession)
    (outcome : SftpOutcome)
    (entry : HandleEntry) : Prop :=
  outcome.reply =
      .ok (.handle (handleKey session.nextHandle)) ∧
    outcome.session = (session.allocHandle entry).2

/- The listing of a directory that has just been read. -/
def listing
    (lib : SftpLibrary)
    (dirents : List (EntryName × Metadata)) : HandleEntry :=
  .dir
    (dirents.map fun (name, metadata) =>
      { filename := name.text
        attrs := lib.attributes metadata }) 0

/- The file or listing that a request makes a handle for. -/
def Creates
    (session : SftpSession)
    (lib : SftpLibrary)
    (fs : FileSystem) : SftpRequest → HandleEntry → Prop
  | .path (.openFile filename pflags), entry =>
      ∃ path file,
        session.resolve fs filename = .ok path ∧
          (fs.openPath (openOptions lib pflags) path).result =
            .ok file ∧
          entry = .file file
  | .path (.opendir path), entry =>
      ∃ real dirents,
        session.resolve fs path = .ok real ∧
          (fs.readDir real).result = .ok dirents ∧
          entry = listing lib dirents
  | _, _ => False

theorem refused_keeps
    (session : SftpSession)
    (fs : FileSystem)
    (code : StatusCode) :
    session.Keeps (session.refused fs code) := by
  refine ⟨rfl, fun key hReply => ?_⟩
  cases hReply

/- A call whose result is only reported. -/
theorem conclude_keeps
    {α : Type}
    (session : SftpSession)
    (call : Effect α)
    {f : α → SftpReply × SftpSession}
    (hSession : ∀ a, (f a).2 = session)
    (hReply : ∀ a key, (f a).1 ≠ .handle key) :
    session.Keeps (session.conclude call f) := by
  unfold conclude
  split
  · refine ⟨rfl, fun key hEqual => ?_⟩
    cases hEqual
  · next a _ =>
      refine ⟨hSession a, fun key hEqual => ?_⟩
      exact hReply a key (Except.ok.inj hEqual)

/- A call whose result is put into the table. -/
theorem conclude_allocates
    {α : Type}
    (session : SftpSession)
    (call : Effect α)
    (entry : α → HandleEntry) :
    (∃ a,
      call.result = .ok a ∧
        session.Allocates
          (session.conclude call fun a =>
            (.handle (session.allocHandle (entry a)).1,
              (session.allocHandle (entry a)).2))
          (entry a)) ∨
      session.Fails
        (session.conclude call fun a =>
          (.handle (session.allocHandle (entry a)).1,
            (session.allocHandle (entry a)).2)) := by
  unfold conclude
  split
  · exact Or.inr ⟨rfl, _, rfl⟩
  · next a hResult => exact Or.inl ⟨a, hResult, rfl, rfl⟩

/- What holds of refusals and of the rest holds overall. -/
theorem withPath_of_forall
    {session : SftpSession}
    {fs : FileSystem}
    {P : SftpOutcome → Prop}
    {clientPath : Text}
    {k : PathBuf → SftpOutcome}
    (hRefused : ∀ code, P (session.refused fs code))
    (hRest :
      ∀ real, session.resolve fs clientPath = .ok real →
        P (k real)) :
    P (session.withPath fs clientPath k) := by
  rcases session.withPath_cases fs clientPath k with
    ⟨code, hOutcome⟩ | ⟨real, hOutcome, hReal⟩
  · rw [hOutcome]
    exact hRefused code
  · rw [hOutcome]
    exact hRest real hReal

/-
  A path request that allocates makes a handle for its file
  or listing, or fails; any other one keeps the table.
-/
theorem handle_table
    (session : SftpSession)
    (lib : SftpLibrary)
    (fs : FileSystem)
    (request : PathRequest) :
    ((SftpRequest.path request).allocates = true ∧
        ((∃ entry,
            session.Creates lib fs (.path request) entry ∧
              session.Allocates
                (session.handle lib fs request) entry) ∨
          session.Fails (session.handle lib fs request))) ∨
      ((SftpRequest.path request).allocates = false ∧
        session.Keeps (session.handle lib fs request)) := by
  have hRefused := session.refused_keeps fs
  cases request with
  | openFile filename pflags =>
      left
      refine ⟨rfl, withPath_of_forall
        (P := fun outcome =>
          (∃ entry,
            session.Creates lib fs
                (.path (.openFile filename pflags)) entry ∧
              session.Allocates outcome entry) ∨
            session.Fails outcome)
        (fun code => Or.inr ⟨rfl, code, rfl⟩) ?_⟩
      intro path hPath
      rcases session.conclude_allocates
          (fs.openPath (openOptions lib pflags) path)
          HandleEntry.file with
        ⟨file, hResult, hNew⟩ | hFails
      · exact Or.inl ⟨.file file,
          ⟨path, file, hPath, hResult, rfl⟩, hNew⟩
      · exact Or.inr hFails
  | opendir path =>
      left
      refine ⟨rfl, withPath_of_forall
        (P := fun outcome =>
          (∃ entry,
            session.Creates lib fs
                (.path (.opendir path)) entry ∧
              session.Allocates outcome entry) ∨
            session.Fails outcome)
        (fun code => Or.inr ⟨rfl, code, rfl⟩) ?_⟩
      intro real hReal
      rcases session.conclude_allocates (fs.readDir real)
          (listing lib) with
        ⟨dirents, hResult, hNew⟩ | hFails
      · exact Or.inl ⟨listing lib dirents,
          ⟨real, dirents, hReal, hResult, rfl⟩, hNew⟩
      · exact Or.inr hFails
  | setstat path attrs =>
      refine Or.inr
        ⟨rfl, withPath_of_forall hRefused (fun real _ => ?_)⟩
      refine ⟨rfl, fun key hEqual => ?_⟩
      cases hEqual
  | rename oldpath newpath =>
      refine Or.inr
        ⟨rfl, withPath_of_forall hRefused (fun old _ => ?_)⟩
      refine withPath_of_forall hRefused (fun new _ => ?_)
      exact session.conclude_keeps _ (fun _ => rfl)
        (fun _ _ hEqual => by cases hEqual)
  | stat path | lstat path | mkdir path | rmdir path
  | remove filename | readlink path =>
      refine Or.inr
        ⟨rfl, withPath_of_forall hRefused (fun real _ => ?_)⟩
      exact session.conclude_keeps _ (fun _ => rfl)
        (fun _ _ hEqual => by cases hEqual)

/- The result keeps the session and names no handle. -/
def KeepsResult
    (session : SftpSession)
    (request : SftpRequest)
    (result : SftpResult) : Prop :=
  result.session = session ∧
    (∀ key, result.reply ≠ .ok (.reply (.handle key))) ∧
    (request.allocates = true →
      ∃ code, result.reply = .error code)

/- An answer of a request that takes no new handle. -/
theorem answer_keeps
    {session : SftpSession}
    {fs : FileSystem}
    {request : SftpRequest}
    {reply : Except StatusCode SftpAnswer}
    (hRequest : request.allocates = false)
    (hReply : ∀ key, reply ≠ .ok (.reply (.handle key))) :
    session.KeepsResult request
      (session.answer fs reply) := by
  refine ⟨rfl, hReply, fun hAllocates => ?_⟩
  rw [hRequest] at hAllocates
  cases hAllocates

/-
  What a request does to the table: it puts the next handle
  into it, closes one, moves on in one listing, or does
  nothing; and in the last case it answers with no handle.
-/
theorem serve_cases
    (session : SftpSession)
    (lib : SftpLibrary)
    (fs : FileSystem)
    (io : IoAnswer)
    (request : SftpRequest) :
    (∃ entry,
      request.allocates = true ∧
        session.Creates lib fs request entry ∧
        (session.serve lib fs io request).reply =
          .ok (.reply
            (.handle (handleKey session.nextHandle))) ∧
        (session.serve lib fs io request).session =
          (session.allocHandle entry).2) ∨
      (∃ handle,
        request = .close handle ∧
          (session.serve lib fs io request).reply =
            .ok (.reply .status) ∧
          (session.serve lib fs io request).session =
            { session with
              handles :=
                Table.remove session.handles handle }) ∨
      (∃ handle entries offset stop batch,
        request = .readdir handle ∧
          Table.get session.handles handle =
            some (.dir entries offset) ∧
          (session.serve lib fs io request).reply =
            .ok (.reply (.name batch)) ∧
          (session.serve lib fs io request).session =
            { session with
              handles := Table.set session.handles handle
                (.dir entries stop) }) ∨
      session.KeepsResult request
        (session.serve lib fs io request) := by
  cases request with
  | path request =>
      rcases session.handle_table lib fs request with
        ⟨hAllocates,
          ⟨entry, hCreates, hReply, hSession⟩ |
            ⟨hSession, code, hReply⟩⟩ |
          ⟨hNot, hSession, hReply⟩
      · left
        refine ⟨entry, hAllocates, hCreates, ?_, hSession⟩
        simp [serve, answer, hReply, Except.map]
      · right; right; right
        have hError :
            (session.serve lib fs io
              (.path request)).reply = .error code := by
          simp [serve, answer, hReply, Except.map]
        refine ⟨hSession, fun key hEqual => ?_,
          fun _ => ⟨code, hError⟩⟩
        rw [hError] at hEqual
        cases hEqual
      · right; right; right
        refine ⟨hSession, fun key hEqual => ?_, ?_⟩
        · simp only [serve, answer] at hEqual
          cases hResult :
              (session.handle lib fs request).reply with
          | error code =>
              rw [hResult] at hEqual
              cases hEqual
          | ok reply =>
              rw [hResult] at hEqual
              cases hEqual
              exact hReply key hResult
        · rw [hNot]
          intro hAllocates
          cases hAllocates
  | close handle =>
      right; left
      exact ⟨handle, rfl, rfl, rfl⟩
  | readdir handle =>
      right; right
      simp only [serve, readdir]
      split
      · next entries offset hEntry =>
          split
          · right
            exact answer_keeps rfl
              (fun key hEqual => by cases hEqual)
          · left
            exact ⟨handle, entries, offset, _, _, rfl, hEntry,
              rfl, rfl⟩
      · right
        exact answer_keeps rfl
          (fun key hEqual => by cases hEqual)
  | init | unimplemented =>
      right; right; right
      exact answer_keeps rfl
        (fun key hEqual => by cases hEqual)
  | realpath path =>
      right; right; right
      simp only [serve, realpath]
      split
      all_goals
        exact answer_keeps rfl
          (fun key hEqual => by cases hEqual)
  | read handle offset len =>
      right; right; right
      simp only [serve, read]
      repeat' split
      all_goals
        exact answer_keeps rfl
          (fun key hEqual => by cases hEqual)
  | write handle offset data =>
      right; right; right
      simp only [serve, write]
      repeat' split
      all_goals
        exact answer_keeps rfl
          (fun key hEqual => by cases hEqual)
  | fstat handle =>
      right; right; right
      simp only [serve, fstat]
      repeat' split
      all_goals
        exact answer_keeps rfl
          (fun key hEqual => by cases hEqual)
  | fsetstat handle attrs =>
      right; right; right
      simp only [serve, fsetstat]
      split
      all_goals
        exact answer_keeps rfl
          (fun key hEqual => by cases hEqual)

end SftpSession

end Sshdt

------------------------------------------------------------
-- Whole Sessions
------------------------------------------------------------

namespace Sshdt

/- A session, its file system and the handles handed out. -/
structure SftpRun where
  fs : FileSystem
  session : SftpSession
  issued : List Text

/- A request of the client, or a change from outside. -/
inductive SftpEvent where
  | request (io : IoAnswer) (request : SftpRequest)
  | outside (fs : FileSystem)

/- The event names the handle. -/
def SftpEvent.Names
    (handle : Text) : SftpEvent → Prop
  | .request _ asked => asked.handle? = some handle
  | .outside _ => False

/- The event closes the handle. -/
def SftpEvent.Closes
    (handle : Text) : SftpEvent → Prop
  | .request _ asked => asked = .close handle
  | .outside _ => False

/- The handle that an answer carries. -/
def SftpResult.handle?
    (result : SftpResult) : Option Text :=
  match result.reply with
  | .ok (.reply (.handle key)) => some key
  | _ => none

namespace SftpRun

def step
    (lib : SftpLibrary)
    (s : SftpRun) : SftpEvent → Option SftpRun
  | .request io request =>
      let result := s.session.serve lib s.fs io request
      some {
        fs := result.fs
        session := result.session
        issued := s.issued ++ result.handle?.toList }
  | .outside fs => some { s with fs := fs }

def machine
    (lib : SftpLibrary)
    (host : Host)
    (fs : FileSystem)
    (root : Option PathBuf) :
    Machine SftpRun SftpEvent where
  init :=
    { fs := fs, session := .new host fs root, issued := [] }
  step := step lib

/- The entry of a handle. -/
def entryAt
    (s : SftpRun)
    (handle : Text) : Option HandleEntry :=
  Table.get s.session.handles handle

/-
  Keys and issued handles are decimal forms of numbers below
  the counter.
-/
structure Inv
    (s : SftpRun) : Prop where
  keys :
    ∀ key ∈ s.session.handles.map Prod.fst,
      ∃ n < s.session.nextHandle, key = handleKey n
  issued :
    ∀ key ∈ s.issued,
      ∃ n < s.session.nextHandle, key = handleKey n

/- The next key is neither in the table nor handed out. -/
theorem Inv.next_fresh
    {s : SftpRun}
    (hInv : s.Inv) :
    handleKey s.session.nextHandle ∉ s.issued ∧
      s.entryAt (handleKey s.session.nextHandle) = none := by
  constructor
  · intro hMem
    rcases hInv.issued _ hMem with ⟨n, hBelow, hKey⟩
    have hSame := handleKey_injective hKey
    omega
  · rw [entryAt, Table.get_eq_none_iff]
    intro hMem
    rcases hInv.keys _ hMem with ⟨n, hBelow, hKey⟩
    have hSame := handleKey_injective hKey
    omega

/- The number of an old key is below the new counter. -/
theorem below_succ
    {counter : Nat}
    {key : Text}
    (hBelow : ∃ n < counter, key = handleKey n) :
    ∃ n < counter + 1, key = handleKey n := by
  rcases hBelow with ⟨n, hBelow, hKey⟩
  exact ⟨n, by omega, hKey⟩

theorem step_inv
    {lib : SftpLibrary}
    {s t : SftpRun}
    {e : SftpEvent}
    (hInv : s.Inv)
    (hStep : step lib s e = some t) :
    t.Inv := by
  cases e with
  | outside fs =>
      simp only [step, Option.some.injEq] at hStep
      subst hStep
      exact ⟨hInv.keys, hInv.issued⟩
  | request io request =>
      simp only [step, Option.some.injEq] at hStep
      subst hStep
      rcases s.session.serve_cases lib s.fs io request with
        ⟨entry, _, _, hReply, hSession⟩ |
          ⟨handle, _, hReply, hSession⟩ |
          ⟨handle, entries, offset, stop, batch, _, _, hReply,
            hSession⟩ |
          ⟨hSession, hReply, _⟩
      · have hIssued :
            (s.session.serve lib s.fs io request).handle? =
              some (handleKey s.session.nextHandle) := by
          simp [SftpResult.handle?, hReply]
        have hNext :
            (s.session.allocHandle entry).2.nextHandle =
              s.session.nextHandle + 1 :=
          rfl
        constructor
        · simp only [hSession, hNext]
          intro key hMem
          rw [SftpSession.allocHandle_eq, Table.insert,
            List.map_cons, List.mem_cons] at hMem
          rcases hMem with hNew | hOld
          · exact ⟨s.session.nextHandle, by omega, hNew⟩
          · rcases List.mem_map.mp hOld with ⟨e, hKept, rfl⟩
            exact below_succ (hInv.keys _ (List.mem_map_of_mem
              (List.mem_of_mem_filter hKept)))
        · simp only [hSession, hNext, hIssued]
          intro key hMem
          rcases List.mem_append.mp hMem with hOld | hNew
          · exact below_succ (hInv.issued key hOld)
          · exact ⟨s.session.nextHandle, by omega,
              by simpa using hNew⟩
      · constructor
        · simp only [hSession]
          intro key hMem
          rcases List.mem_map.mp hMem with ⟨e, hKept, rfl⟩
          exact hInv.keys _ (List.mem_map_of_mem
            (List.mem_of_mem_filter hKept))
        · simpa [hSession, SftpResult.handle?, hReply]
            using hInv.issued
      · constructor
        · simpa [hSession] using hInv.keys
        · simpa [hSession, SftpResult.handle?, hReply]
            using hInv.issued
      · have hNone :
            (s.session.serve lib s.fs io request).handle? =
              none := by
          unfold SftpResult.handle?
          split
          · next key hKey => exact absurd hKey (hReply key)
          · rfl
        constructor
        · simpa [hSession] using hInv.keys
        · simpa [hSession, hNone] using hInv.issued

theorem reachable_inv
    {lib : SftpLibrary}
    {host : Host}
    {fs : FileSystem}
    {root : Option PathBuf}
    {s : SftpRun}
    (hReachable : (machine lib host fs root).Reachable s) :
    s.Inv := by
  refine hReachable.invariant ?_ ?_
  · constructor <;> simp [machine, SftpSession.new]
  · intro s e t hInv _ hStep
    exact step_inv hInv hStep

end SftpRun

end Sshdt

------------------------------------------------------------
-- Entries Over Time
------------------------------------------------------------

namespace Sshdt

/- The entries denote the same file or the same listing. -/
def HandleEntry.SameObject : HandleEntry → HandleEntry → Prop
  | .file opened, .file opened' => opened = opened'
  | .dir entries _, .dir entries' _ => entries = entries'
  | _, _ => False

theorem HandleEntry.SameObject.refl
    (entry : HandleEntry) :
    entry.SameObject entry := by
  cases entry <;> simp [SameObject]

theorem HandleEntry.SameObject.trans
    {a b c : HandleEntry}
    (hFirst : a.SameObject b)
    (hSecond : b.SameObject c) :
    a.SameObject c := by
  cases a <;> cases b <;> cases c <;>
    simp_all [SameObject]

namespace SftpRun

variable {lib : SftpLibrary}

/- One step on the entry of a handle that it does not close. -/
theorem step_entry
    {s t : SftpRun}
    {e : SftpEvent}
    {handle : Text}
    {entry : HandleEntry}
    (hInv : s.Inv)
    (hStep : step lib s e = some t)
    (hEntry : s.entryAt handle = some entry)
    (hOpen : ¬ e.Closes handle) :
    ∃ entry',
      t.entryAt handle = some entry' ∧
        entry.SameObject entry' ∧
        (¬ e.Names handle → entry' = entry) := by
  have hKept :
      t.session.handles = s.session.handles →
        ∃ entry',
          t.entryAt handle = some entry' ∧
            entry.SameObject entry' ∧
            (¬ e.Names handle → entry' = entry) := by
    intro hSame
    refine ⟨entry, ?_, .refl entry, fun _ => rfl⟩
    rw [entryAt, hSame]
    exact hEntry
  cases e with
  | outside fs =>
      simp only [step, Option.some.injEq] at hStep
      subst hStep
      exact hKept rfl
  | request io request =>
      simp only [step, Option.some.injEq] at hStep
      subst hStep
      rcases s.session.serve_cases lib s.fs io request with
        ⟨new, _, _, _, hSession⟩ | ⟨other, hClose, _, hSession⟩ |
          ⟨other, entries, offset, stop, batch, hRequest,
            hOther, _, hSession⟩ |
          ⟨hSession, _, _⟩
      · -- The new handle is not in the table yet.
        have hOther :
            handle ≠ handleKey s.session.nextHandle := by
          intro hSame
          rw [hSame, hInv.next_fresh.2] at hEntry
          cases hEntry
        refine ⟨entry, ?_, .refl entry, fun _ => rfl⟩
        rw [entryAt, hSession, SftpSession.allocHandle_eq,
          Table.get_insert, if_neg hOther]
        exact hEntry
      · have hOther : handle ≠ other := by
          intro hSame
          exact hOpen (hSame ▸ hClose)
        refine ⟨entry, ?_, .refl entry, fun _ => rfl⟩
        rw [entryAt, hSession, Table.get_remove,
          if_neg hOther]
        exact hEntry
      · by_cases hSame : handle = other
        · subst hSame
          rw [entryAt, hOther] at hEntry
          cases hEntry
          refine ⟨.dir entries stop, ?_,
            by simp [HandleEntry.SameObject],
            fun hNot => ?_⟩
          · rw [entryAt, hSession, Table.get_set, if_pos rfl,
              hOther]
            rfl
          · exact absurd (by rw [hRequest]; rfl) hNot
        · refine ⟨entry, ?_, .refl entry, fun _ => rfl⟩
          rw [entryAt, hSession, Table.get_set, if_neg hSame]
          exact hEntry
      · exact hKept (congrArg SftpSession.handles hSession)

/- A run on the entry of a handle that it does not close. -/
theorem exec_entry
    {host : Host}
    {fs : FileSystem}
    {root : Option PathBuf}
    {s t : SftpRun}
    {es : List SftpEvent}
    {handle : Text}
    {entry : HandleEntry}
    (hInv : s.Inv)
    (hExec : (machine lib host fs root).exec s es = some t)
    (hEntry : s.entryAt handle = some entry)
    (hOpen : ∀ e ∈ es, ¬ e.Closes handle) :
    ∃ entry',
      t.entryAt handle = some entry' ∧
        entry.SameObject entry' ∧
        ((∀ e ∈ es, ¬ e.Names handle) → entry' = entry) := by
  induction es generalizing s entry with
  | nil =>
      cases hExec
      exact ⟨entry, hEntry, .refl entry, fun _ => rfl⟩
  | cons e es ih =>
      rcases Machine.exec_cons.mp hExec with
        ⟨u, hStep, hRest⟩
      rcases step_entry hInv hStep hEntry
        (hOpen e List.mem_cons_self) with
        ⟨middle, hMiddle, hSame, hUnnamed⟩
      rcases ih (step_inv hInv hStep) hRest hMiddle
        (fun e' hMem => hOpen e' (List.mem_cons_of_mem e hMem))
        with ⟨last, hLast, hSame', hUnnamed'⟩
      refine ⟨last, hLast, hSame.trans hSame', fun hNone => ?_⟩
      rw [hUnnamed' (fun e' hMem =>
        hNone e' (List.mem_cons_of_mem e hMem))]
      exact hUnnamed (hNone e List.mem_cons_self)

/- A handle that was handed out and is gone stays gone. -/
theorem step_gone
    {s t : SftpRun}
    {e : SftpEvent}
    {handle : Text}
    (hInv : s.Inv)
    (hStep : step lib s e = some t)
    (hIssued : handle ∈ s.issued)
    (hGone : s.entryAt handle = none) :
    handle ∈ t.issued ∧ t.entryAt handle = none := by
  cases e with
  | outside fs =>
      simp only [step, Option.some.injEq] at hStep
      subst hStep
      exact ⟨hIssued, hGone⟩
  | request io request =>
      simp only [step, Option.some.injEq] at hStep
      subst hStep
      refine ⟨List.mem_append_left _ hIssued, ?_⟩
      rcases s.session.serve_cases lib s.fs io request with
        ⟨new, _, _, _, hSession⟩ | ⟨other, _, _, hSession⟩ |
          ⟨other, entries, offset, stop, batch, _, hOther, _,
            hSession⟩ |
          ⟨hSession, _, _⟩
      · have hOther :
            handle ≠ handleKey s.session.nextHandle := by
          intro hSame
          exact hInv.next_fresh.1 (hSame ▸ hIssued)
        rw [entryAt, hSession, SftpSession.allocHandle_eq,
          Table.get_insert, if_neg hOther]
        exact hGone
      · rw [entryAt, hSession, Table.get_remove]
        split
        · rfl
        · exact hGone
      · rw [entryAt, hSession, Table.get_set]
        split
        · rw [show Table.get s.session.handles handle = none
            from hGone]
          rfl
        · exact hGone
      · rw [entryAt, hSession]
        exact hGone

theorem exec_gone
    {host : Host}
    {fs : FileSystem}
    {root : Option PathBuf}
    {s t : SftpRun}
    {es : List SftpEvent}
    {handle : Text}
    (hInv : s.Inv)
    (hExec : (machine lib host fs root).exec s es = some t)
    (hIssued : handle ∈ s.issued)
    (hGone : s.entryAt handle = none) :
    t.entryAt handle = none := by
  induction es generalizing s with
  | nil =>
      cases hExec
      exact hGone
  | cons e es ih =>
      rcases Machine.exec_cons.mp hExec with
        ⟨u, hStep, hRest⟩
      rcases step_gone hInv hStep hIssued hGone with
        ⟨hIssued', hGone'⟩
      exact ih (step_inv hInv hStep) hRest hIssued' hGone'

/-
  What a request on a handle without an entry answers:
  `Failure`, but for `close` and `fsetstat`, which do
  nothing and answer `Ok`.
-/
theorem serve_gone
    {s : SftpRun}
    {handle : Text}
    {request : SftpRequest}
    (io : IoAnswer)
    (hGone : s.entryAt handle = none)
    (hNames : request.handle? = some handle) :
    (∃ attrs, request = .fsetstat handle attrs) ∧
        s.session.serve lib s.fs io request =
          s.session.answer s.fs (.ok (.reply .status)) ∨
      request = .close handle ∨
      s.session.serve lib s.fs io request =
        s.session.answer s.fs (.error .failure) := by
  have hEntry :
      Table.get s.session.handles handle = none :=
    hGone
  cases request with
  | init | path | realpath | unimplemented => cases hNames
  | close other =>
      cases hNames
      exact Or.inr (Or.inl rfl)
  | fsetstat other attrs =>
      cases hNames
      left
      refine ⟨⟨attrs, rfl⟩, ?_⟩
      simp [SftpSession.serve, SftpSession.fsetstat, hEntry]
  | read other offset len =>
      cases hNames
      right; right
      simp [SftpSession.serve, SftpSession.read, hEntry]
  | write other offset data =>
      cases hNames
      right; right
      simp [SftpSession.serve, SftpSession.write, hEntry]
  | readdir other =>
      cases hNames
      right; right
      simp [SftpSession.serve, SftpSession.readdir, hEntry]
  | fstat other =>
      cases hNames
      right; right
      simp [SftpSession.serve, SftpSession.fstat, hEntry]

end SftpRun

end Sshdt

------------------------------------------------------------
-- The Handle Table
------------------------------------------------------------

namespace Sshdt

namespace SftpRun

/-
  What the handle table of a session promises in a state,
  for every request there and every run that goes on from
  there.
-/
structure HandleTable
    (lib : SftpLibrary)
    (host : Host)
    (fs : FileSystem)
    (root : Option PathBuf)
    (s : SftpRun) : Prop where
  keys :
    ∀ key ∈ s.session.handles.map Prod.fst,
      ∃ n < s.session.nextHandle,
        key = 'h' :: Nat.toDigits 10 n
  -- A new handle is new and denotes what it was made for.
  fresh :
    ∀ io request reply t,
      request.allocates = true →
        step lib s (.request io request) = some t →
          (s.session.serve lib s.fs io request).reply =
              .ok reply →
            ∃ key entry,
              reply = .reply (.handle key) ∧
                t.issued = s.issued ++ [key] ∧
                key ∉ s.issued ∧
                s.entryAt key = none ∧
                s.session.Creates lib s.fs request entry ∧
                t.entryAt key = some entry ∧
                ∀ other, other ≠ key →
                  t.entryAt other = s.entryAt other
  -- It denotes that until it is closed.
  keeps :
    ∀ es t handle entry,
      (machine lib host fs root).exec s es = some t →
        s.entryAt handle = some entry →
          (∀ e ∈ es, ¬ e.Closes handle) →
            ∃ entry',
              t.entryAt handle = some entry' ∧
                entry.SameObject entry' ∧
                ((∀ e ∈ es, ¬ e.Names handle) →
                  entry' = entry)
  -- Once closed it is refused for ever.
  closed :
    ∀ e handle t es u,
      e.Closes handle → handle ∈ s.issued →
        step lib s e = some t →
          (machine lib host fs root).exec t es = some u →
            u.entryAt handle = none ∧
              ∀ io request,
                request.handle? = some handle →
                  (∃ attrs, request = .fsetstat handle attrs) ∧
                      u.session.serve lib u.fs io request =
                        u.session.answer u.fs
                          (.ok (.reply .status)) ∨
                    request = .close handle ∨
                    u.session.serve lib u.fs io request =
                      u.session.answer u.fs (.error .failure)
  -- An error leaves the whole session as it was.
  errors :
    ∀ io request code t,
      step lib s (.request io request) = some t →
        (s.session.serve lib s.fs io request).reply =
            .error code →
          t.session = s.session

variable {lib : SftpLibrary}

/- An allocation that succeeds. -/
theorem Inv.allocates
    {s t : SftpRun}
    {io : IoAnswer}
    {request : SftpRequest}
    {reply : SftpAnswer}
    (hInv : s.Inv)
    (hAllocates : request.allocates = true)
    (hStep : step lib s (.request io request) = some t)
    (hReply :
      (s.session.serve lib s.fs io request).reply =
        .ok reply) :
    ∃ key entry,
      reply = .reply (.handle key) ∧
        t.issued = s.issued ++ [key] ∧
        key ∉ s.issued ∧
        s.entryAt key = none ∧
        s.session.Creates lib s.fs request entry ∧
        t.entryAt key = some entry ∧
        ∀ other, other ≠ key →
          t.entryAt other = s.entryAt other := by
  simp only [step, Option.some.injEq] at hStep
  subst hStep
  rcases s.session.serve_cases lib s.fs io request with
    ⟨entry, _, hCreates, hHandle, hSession⟩ |
      ⟨other, rfl, _⟩ | ⟨other, _, _, _, _, rfl, _⟩ |
      ⟨_, _, hError⟩
  · have hIssued :
        (s.session.serve lib s.fs io request).handle? =
          some (handleKey s.session.nextHandle) := by
      simp [SftpResult.handle?, hHandle]
    have hGet :
        ∀ other,
          Table.get
              (s.session.allocHandle entry).2.handles other =
            if other = handleKey s.session.nextHandle then
              some entry
            else
              Table.get s.session.handles other := by
      intro other
      rw [SftpSession.allocHandle_eq, Table.get_insert]
    rw [hReply] at hHandle
    refine ⟨handleKey s.session.nextHandle, entry,
      Except.ok.inj hHandle, by rw [hIssued]; rfl,
      hInv.next_fresh.1, hInv.next_fresh.2, hCreates, ?_, ?_⟩
    · rw [entryAt, hSession, hGet, if_pos rfl]
    · intro other hOther
      rw [entryAt, hSession, hGet, if_neg hOther]
      rfl
  · cases hAllocates
  · cases hAllocates
  · rcases hError hAllocates with ⟨code, hError⟩
    rw [hReply] at hError
    cases hError

/- Only requests that succeed change the session. -/
theorem serve_error
    {s : SftpRun}
    {io : IoAnswer}
    {request : SftpRequest}
    {code : StatusCode}
    (hReply :
      (s.session.serve lib s.fs io request).reply =
        .error code) :
    (s.session.serve lib s.fs io request).session =
      s.session := by
  rcases s.session.serve_cases lib s.fs io request with
    ⟨_, _, _, hOk, _⟩ | ⟨_, _, hOk, _⟩ |
      ⟨_, _, _, _, _, _, _, hOk, _⟩ | ⟨hSession, _⟩
  · rw [hOk] at hReply
    cases hReply
  · rw [hOk] at hReply
    cases hReply
  · rw [hOk] at hReply
    cases hReply
  · exact hSession

/-
  The handle table of every session, after any requests with
  any handle strings: keys, fresh handles, entries that stay
  what they are until they are closed, closed handles that
  never come back, and errors that change nothing.
-/
theorem reachable_handleTable
    {host : Host}
    {fs : FileSystem}
    {root : Option PathBuf}
    {s : SftpRun}
    (hReachable : (machine lib host fs root).Reachable s) :
    s.HandleTable lib host fs root := by
  have hInv := reachable_inv hReachable
  refine ⟨hInv.keys, ?_, ?_, ?_, ?_⟩
  · intro io request reply t hAllocates hStep hReply
    exact hInv.allocates hAllocates hStep hReply
  · intro es t handle entry hExec hEntry hOpen
    exact exec_entry hInv hExec hEntry hOpen
  · intro e handle t es u hCloses hIssued hStep hExec
    have hInv' := step_inv hInv hStep
    have hClosed :
        handle ∈ t.issued ∧ t.entryAt handle = none := by
      cases e with
      | outside fs => exact hCloses.elim
      | request io request =>
          simp only [SftpEvent.Closes] at hCloses
          subst hCloses
          simp only [step, Option.some.injEq] at hStep
          subst hStep
          refine ⟨List.mem_append_left _ hIssued, ?_⟩
          simp [entryAt, SftpSession.serve, SftpSession.close,
            SftpSession.answer, Table.get_remove]
    have hGone :=
      exec_gone hInv' hExec hClosed.1 hClosed.2
    exact ⟨hGone, fun io request hNames =>
      serve_gone io hGone hNames⟩
  · intro io request code t hStep hReply
    simp only [step, Option.some.injEq] at hStep
    subst hStep
    exact serve_error hReply

/- A system that reports no error. -/
def quietIo : IoAnswer where
  fault := none
  beyondFirst := 0
  dirMetadata :=
    { fileType := .dir, size := 0, mode := 0o755 }

/- A file and a directory are opened, the file is closed. -/
def handleRun : List SftpEvent :=
  [.request quietIo
      (.path (.openFile "/jail/data".toList uploadFlags)),
    .request quietIo (.path (.opendir "/jail".toList)),
    .request quietIo (.readdir "h1".toList),
    .request quietIo (.close "h0".toList),
    .request quietIo (.read "h0".toList 0 10)]

theorem handleRun_handleTable :
    let M := machine russhSftp bareHost
      (linkedFs "/outside".toList) none
    let s := M.final handleRun rfl
    s.issued = ["h0".toList, "h1".toList] ∧
      (s.entryAt "h0".toList).isNone = true ∧
      (s.entryAt "h1".toList).isSome = true ∧
      s.HandleTable russhSftp bareHost
        (linkedFs "/outside".toList) none := by
  intro M s
  refine ⟨by decide +kernel, by decide +kernel,
    by decide +kernel, ?_⟩
  apply reachable_handleTable
  exact Machine.reachable_final (M := M) handleRun rfl

end SftpRun

end Sshdt
