import Sshdt.Config.TunnelId
import Sshdt.DevTunnel.Rendezvous

/-
  The files that carry a tunnel id in their names (`acquire`
  and `broker` in `src/devtunnel/client.rs`, `start` in
  `src/devtunnel/host.rs`).

  A tunnel has an endpoint file and a lock file in the
  directory of the brokers and a lock file of its host in
  the state directory. The broker joins the name of its lock
  file to the directory; `acquire` replaces the extension of
  the endpoint path, where the id may have a dot of its own.
  The state directory is any path.

  Key definitions include:
    * `acquireLockPath`
    * `brokerLockPath`
    * `hostLockPath`
    * `TunnelFile`
    * `PlainName`
    * `SafeId`

  Key theorems include:
    * `TunnelFile.plainName`
    * `TunnelFile.components_path`
    * `TunnelFile.path_injective`
    * `acquireLockPath_eq`
    * `tunnelId_files`
-/

------------------------------------------------------------
-- Paths
------------------------------------------------------------

namespace Sshdt

namespace DevTunnel

/- The path that `ipc::directory` returns. -/
def brokersDirectory
    (stateDir : PathBuf) : PathBuf :=
  Path.push stateDir "brokers".toList

/- `path` in `acquire`. -/
def acquirePath
    (stateDir : PathBuf)
    (tunnel : Text) : PathBuf :=
  Path.push (brokersDirectory stateDir) (endpointName tunnel)

/- The lock file that `acquire` opens. -/
def acquireLockPath
    (stateDir : PathBuf)
    (tunnel : Text) : PathBuf :=
  Path.setExtension (acquirePath stateDir tunnel)
    "lock".toList

/- `lock_path` in `broker`. -/
def brokerLockPath
    (stateDir : PathBuf)
    (tunnel : Text) : PathBuf :=
  Path.push (brokersDirectory stateDir) (lockName tunnel)

/- `endpoint_path` in `broker`. -/
def endpointPath
    (stateDir : PathBuf)
    (tunnel : Text) : PathBuf :=
  Path.push (brokersDirectory stateDir) (endpointName tunnel)

/- The name of the host's lock file. -/
def hostLockName
    (id : Text) : Text :=
  "devtunnel-host-".toList ++ id ++ ".lock".toList

/- `lock_path` in `start`. -/
def hostLockPath
    (stateDir : PathBuf)
    (id : Text) : PathBuf :=
  Path.push stateDir (hostLockName id)

/- The files that carry the id of a tunnel. -/
inductive TunnelFile where
  | endpoint
  | lock
  | hostLock
  deriving DecidableEq, Repr

namespace TunnelFile

def name : TunnelFile → Text → Text
| .endpoint => endpointName
| .lock => lockName
| .hostLock => hostLockName

/- The directory that the file is meant to be in. -/
def directory
    (stateDir : PathBuf) : TunnelFile → PathBuf
| .endpoint => brokersDirectory stateDir
| .lock => brokersDirectory stateDir
| .hostLock => stateDir

/- The path that the code opens. -/
def path
    (stateDir : PathBuf)
    (id : Text) : TunnelFile → PathBuf
| .endpoint => endpointPath stateDir id
| .lock => brokerLockPath stateDir id
| .hostLock => hostLockPath stateDir id

theorem path_eq
    (stateDir : PathBuf)
    (id : Text)
    (file : TunnelFile) :
    file.path stateDir id =
      Path.push (file.directory stateDir) (file.name id) := by
  cases file <;> rfl

end TunnelFile

end DevTunnel

end Sshdt

------------------------------------------------------------
-- Names
------------------------------------------------------------

namespace Sshdt

namespace DevTunnel

/-
  A name that denotes an entry of a directory and has none
  of the separators that Windows adds to the slash.
-/
def PlainName
    (name : Text) : Prop :=
  Path.ProperName name ∧ '\\' ∉ name ∧ ':' ∉ name

/- Characters of ids and dots make plain names. -/
theorem plainName_of_chars
    {name : Text}
    (hChars : ∀ c ∈ name, TunnelChar c ∨ c = '.')
    (hLength : 3 ≤ name.length) :
    PlainName name := by
  have hOther : ∀ c, ¬ (TunnelChar c ∨ c = '.') → c ∉ name :=
    fun c hNot hMem => hNot (hChars c hMem)
  refine ⟨⟨?_, hOther _ (by decide), ?_, ?_⟩,
    hOther _ (by decide), hOther _ (by decide)⟩
  all_goals
    rintro rfl
    simp at hLength

namespace TunnelFile

/- What a name adds to the id is in the alphabet too. -/
theorem chars_name
    {id : Text}
    (hId : TunnelId id)
    (file : TunnelFile) :
    ∀ c ∈ file.name id, TunnelChar c ∨ c = '.' := by
  have hJson :
      ∀ c ∈ ".json".toList, TunnelChar c ∨ c = '.' := by
    simp [TunnelChar]
  have hLock :
      ∀ c ∈ ".lock".toList, TunnelChar c ∨ c = '.' := by
    simp [TunnelChar]
  have hHost :
      ∀ c ∈ "devtunnel-host-".toList,
        TunnelChar c ∨ c = '.' := by
    simp [TunnelChar]
  intro c hc
  cases file with
  | endpoint =>
      rcases List.mem_append.mp hc with hMem | hMem
      · exact hId.chars c hMem
      · exact hJson c hMem
  | lock =>
      rcases List.mem_append.mp hc with hMem | hMem
      · exact hId.chars c hMem
      · exact hLock c hMem
  | hostLock =>
      rcases List.mem_append.mp hc with hFront | hMem
      · rcases List.mem_append.mp hFront with hMem | hMem
        · exact hHost c hMem
        · exact hId.chars c hMem
      · exact hLock c hMem

/- The id is part of each name. -/
theorem infix_name
    (file : TunnelFile)
    (id : Text) :
    id <:+: file.name id := by
  cases file with
  | endpoint => exact ⟨[], ".json".toList, rfl⟩
  | lock => exact ⟨[], ".lock".toList, rfl⟩
  | hostLock =>
      exact ⟨"devtunnel-host-".toList, ".lock".toList, rfl⟩

theorem plainName
    {id : Text}
    (hId : TunnelId id)
    (file : TunnelFile) :
    PlainName (file.name id) := by
  have hLength : 3 ≤ (file.name id).length :=
    Nat.le_trans hId.length_ge (file.infix_name id).length_le
  exact plainName_of_chars (file.chars_name hId) hLength

/- The file lies directly in its directory. -/
theorem components_path
    {id : Text}
    (hId : TunnelId id)
    (stateDir : PathBuf)
    (file : TunnelFile) :
    Path.components (file.path stateDir id) =
      Path.components (file.directory stateDir) ++
        [.normal (file.name id)] := by
  rw [path_eq]
  exact Path.components_push (file.plainName hId).1 _

end TunnelFile

/- Both processes lock the same file. -/
theorem acquireLockPath_eq
    {id : Text}
    (hId : TunnelId id)
    (stateDir : PathBuf) :
    acquireLockPath stateDir id =
      brokerLockPath stateDir id := by
  have hNonempty : id ≠ [] := by
    rintro rfl
    exact absurd hId.length_ge (by decide)
  have hProbe :
      Path.withExtension (endpointName id) "lock".toList =
        lockName id :=
    probeName_eq hNonempty
  have hEndpoint : Path.ProperName (endpointName id) :=
    (TunnelFile.endpoint.plainName hId).1
  have hLock : Path.ProperName (lockName id) :=
    (TunnelFile.lock.plainName hId).1
  rw [← hProbe] at hLock
  rw [acquireLockPath, acquirePath,
    Path.setExtension_push hEndpoint hLock, hProbe]
  rfl

end DevTunnel

end Sshdt

------------------------------------------------------------
-- Different Files
------------------------------------------------------------

namespace Sshdt

namespace DevTunnel

namespace TunnelFile

theorem name_injective
    (file : TunnelFile) :
    Function.Injective file.name := by
  intro id id' hName
  cases file with
  | endpoint => exact List.append_cancel_right hName
  | lock => exact List.append_cancel_right hName
  | hostLock =>
      exact List.append_cancel_left
        (List.append_cancel_right hName)

/- The two names in the directory of the brokers differ. -/
theorem endpointName_ne_lockName
    (id id' : Text) :
    endpointName id ≠ lockName id' := by
  intro hName
  have hLast := congrArg List.getLast? hName
  rw [endpointName, lockName,
    List.getLast?_append_of_ne_nil _ (by decide),
    List.getLast?_append_of_ne_nil _ (by decide)] at hLast
  exact absurd hLast (by decide)

/- The directory of the brokers is one level deeper. -/
theorem length_components_brokersDirectory
    (stateDir : PathBuf) :
    (Path.components (brokersDirectory stateDir)).length =
      (Path.components stateDir).length + 1 := by
  have hBrokers : Path.ProperName "brokers".toList := by decide
  rw [brokersDirectory, Path.components_push hBrokers]
  simp

/- A path tells which file it is and whose. -/
theorem path_injective
    {stateDir : PathBuf}
    {file file' : TunnelFile}
    {id id' : Text}
    (hId : TunnelId id)
    (hId' : TunnelId id')
    (hPath :
      Path.components (file.path stateDir id) =
        Path.components (file'.path stateDir id')) :
    file = file' ∧ id = id' := by
  rw [file.components_path hId, file'.components_path hId']
    at hPath
  rcases List.append_inj' hPath rfl with ⟨hDirectory, hLast⟩
  have hName : file.name id = file'.name id' := by
    simpa using hLast
  have hDepth := congrArg List.length hDirectory
  have hDeeper := length_components_brokersDirectory stateDir
  have hFile : file = file' := by
    cases file <;> cases file'
    case endpoint.lock =>
      exact absurd hName (endpointName_ne_lockName id id')
    case lock.endpoint =>
      exact absurd hName.symm (endpointName_ne_lockName id' id)
    case endpoint.hostLock =>
      simp only [directory] at hDepth
      omega
    case lock.hostLock =>
      simp only [directory] at hDepth
      omega
    case hostLock.endpoint =>
      simp only [directory] at hDepth
      omega
    case hostLock.lock =>
      simp only [directory] at hDepth
      omega
    all_goals rfl
  subst hFile
  exact ⟨rfl, file.name_injective hName⟩

end TunnelFile

end DevTunnel

end Sshdt

------------------------------------------------------------
-- Safety Of Ids
------------------------------------------------------------

namespace Sshdt

namespace DevTunnel

/- What an id can be used for. -/
structure SafeId
    (stateDir : PathBuf)
    (id : Text) : Prop where
  names :
    ∀ file : TunnelFile, PlainName (file.name id) ∧
      Path.components (file.name id) =
        [.normal (file.name id)]
  placed :
    ∀ file : TunnelFile,
      Path.components (file.path stateDir id) =
        Path.components (file.directory stateDir) ++
          [.normal (file.name id)]
  argument : id.head? ≠ some '-'
  endpoint :
    acquirePath stateDir id = endpointPath stateDir id
  lock :
    acquireLockPath stateDir id = brokerLockPath stateDir id

theorem safeId_of_tunnelId
    {id : Text}
    (hId : TunnelId id)
    (stateDir : PathBuf) :
    SafeId stateDir id where
  names file :=
    ⟨file.plainName hId,
      Path.components_of_proper (file.plainName hId).1⟩
  placed := TunnelFile.components_path hId stateDir
  argument := hId.head?_ne
  endpoint := rfl
  lock := acquireLockPath_eq hId stateDir

/-
  Tunnel ids are those of the grammar, they are safe in file
  names and arguments, and no two files of tunnels share a
  path.
-/
theorem tunnelId_files
    (stateDir : PathBuf) :
    (∀ value, validTunnelId value = true ↔ TunnelId value) ∧
      (∀ id, validTunnelId id = true → SafeId stateDir id) ∧
        ∀ (file file' : TunnelFile) (id id' : Text),
          validTunnelId id = true →
            validTunnelId id' = true →
              Path.components (file.path stateDir id) =
                Path.components (file'.path stateDir id') →
                  file = file' ∧ id = id' := by
  refine ⟨fun value => validTunnelId_iff_grammar, ?_, ?_⟩
  · intro id hId
    exact safeId_of_tunnelId (validTunnelId_iff_grammar.mp hId)
      stateDir
  · intro file file' id id' hId hId' hPath
    exact TunnelFile.path_injective
      (validTunnelId_iff_grammar.mp hId)
      (validTunnelId_iff_grammar.mp hId') hPath

/- An id with a region, below a home directory. -/
theorem regionalId_files :
    validTunnelId "my-box.use2".toList = true ∧
      acquireLockPath "/home/u/.sshdt".toList
          "my-box.use2".toList =
        "/home/u/.sshdt/brokers/my-box.use2.lock".toList := by
  have hId : validTunnelId "my-box.use2".toList = true := by
    decide +kernel
  have hSafe := (tunnelId_files "/home/u/.sshdt".toList).2.1
    "my-box.use2".toList hId
  refine ⟨hId, ?_⟩
  rw [hSafe.lock]
  decide +kernel

end DevTunnel

end Sshdt
