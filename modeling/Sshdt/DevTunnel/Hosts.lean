import Sshdt.DevTunnel.Hosting
import Sshdt.Lib.FileLock

/-
  All servers that host tunnels from one state directory
  (`start` and `print_status` in `src/devtunnel/host.rs`).

  A server holds the lock of its own process as long as its
  task goes on, and the lock of the tunnel from the first
  attempt to host it. Its status file lies next to these
  locks, and stays behind when the server is gone. A reader
  reads one status file after the other, and prints a status
  if it cannot take the lock of its process then.

  Servers start, stop and crash at any time, process ids are
  used again, and readers come in between.

  Key definitions include:
    * `Hosts`
    * `Hosts.step`
    * `Hosts.Inv`
    * `Hosts.printed`

  Key theorems include:
    * `Hosting.step_goes_on`
    * `Hosts.advance_inv`
    * `Hosts.step_inv`
-/

------------------------------------------------------------
-- Servers, Locks And Status Files
------------------------------------------------------------

namespace Sshdt

namespace DevTunnel

/-
  The lock files: `devtunnel-instance-{pid}.lock` and
  `devtunnel-host-{id}.lock`.
-/
inductive HostFile where
  | process (pid : Nat)
  | tunnel (id : Text)
  deriving DecidableEq, Repr

/- Who may hold a lock: a server, or a `print_status`. -/
inductive HostFileUser where
  | server (pid : Nat)
  | reader (n : Nat)
  deriving DecidableEq, Repr

/- A server; `saved` says that its last status is in a file. -/
structure Server where
  setup : HostSetup
  task : Hosting
  saved : Bool

/-
  Where a `print_status` is: between two files, behind the
  status of a process, or with the lock of one.
-/
inductive StatusReader where
  | scanning
  | read (pid : Nat) (status : Status)
  | locked
  deriving DecidableEq, Repr

/-
  The servers by process id, the state directory and those
  who read it.
-/
structure Hosts where
  now : Instant
  servers : Nat → Option Server
  locks : HostFile → FileLock HostFileUser
  files : Nat → Option Status
  readers : Nat → StatusReader

/- The events of a task that take a lock. -/
def HostEvent.locks : HostEvent → Bool
| .opened _ | .checked _ => true
| _ => false

namespace Hosts

/-
  What happens. `opens` is the way to the lock of the
  process, and `checks` to that of the tunnel, which may not
  be opened; `saved` says whether a status that is written
  gets into its file. A reader `reads` the file of a process
  and `looks` at its lock; it is through with both, or gone,
  in `looked`.
-/
inductive Event where
  | tick (duration : Duration)
  | launch (pid : Nat) (setup : HostSetup)
  | opens (pid : Nat) (prepared : Bool)
  | checks (pid : Nat) (failure : Option Text) (saved : Bool)
  | task (pid : Nat) (event : HostEvent) (saved : Bool)
  | exits (pid : Nat)
  | reads (reader pid : Nat)
  | looks (reader : Nat)
  | looked (reader : Nat)

/- The reader that takes a step. -/
def Event.reader : Event → Option Nat
| .reads reader _ | .looks reader | .looked reader =>
    some reader
| _ => none

/- No server runs, and no file is there. -/
def initial : Hosts where
  now := 0
  servers := fun _ => none
  locks := fun _ => .missing
  files := fun _ => none
  readers := fun _ => .scanning

/-
  A task has taken a step and the lock that it needed. Its
  end closes its files.
-/
def advance
    (w : Hosts)
    (pid : Nat)
    (server : Server)
    (locks : HostFile → FileLock HostFileUser)
    (saved : Bool)
    (task : Hosting) : Hosts :=
  { w with
    servers := Function.update w.servers pid
      (some
        { server with
          task
          saved :=
            if task.written = server.task.written then
              server.saved
            else
              saved })
    locks :=
      if task.phase = .ended then
        FileLock.release locks (.server pid)
      else
        locks
    files :=
      if saved = true ∧
          task.written ≠ server.task.written then
        Function.update w.files pid task.last
      else
        w.files }

/- The log, and the lock of the process. -/
def opens
    (w : Hosts)
    (pid : Nat)
    (server : Server)
    (prepared : Bool) : Option Hosts :=
  if prepared then
    let locks := FileLock.openCreate w.locks (.process pid)
    match FileLock.tryLock locks (.process pid)
        (.server pid) with
    | some locks =>
        (server.task.step server.setup w.now
          (.opened .locked)).map
            (w.advance pid server locks false)
    | none =>
        (server.task.step server.setup w.now
          (.opened .held)).map
            (w.advance pid server locks false)
  else
    (server.task.step server.setup w.now
      (.opened .fails)).map
        (w.advance pid server w.locks false)

/- The checks, and the lock of the tunnel. -/
def checks
    (w : Hosts)
    (pid : Nat)
    (server : Server)
    (failure : Option Text)
    (saved : Bool) : Option Hosts :=
  match server.setup.checked, failure with
  | .error _, _ =>
      (server.task.step server.setup w.now
        (.checked .held)).map
          (w.advance pid server w.locks saved)
  | .ok _, some reason =>
      (server.task.step server.setup w.now
        (.checked (.fails reason))).map
          (w.advance pid server w.locks saved)
  | .ok id, none =>
      let locks := FileLock.openCreate w.locks (.tunnel id)
      match FileLock.tryLock locks (.tunnel id)
          (.server pid) with
      | some locks =>
          (server.task.step server.setup w.now
            (.checked .locked)).map
              (w.advance pid server locks saved)
      | none =>
          (server.task.step server.setup w.now
            (.checked .held)).map
              (w.advance pid server locks saved)

/- One step of a server, a reader or the clock. -/
def step
    (w : Hosts) : Event → Option Hosts
| .tick duration => some { w with now := w.now + duration }
| .launch pid setup =>
    if (w.servers pid).isNone then
      some
        { w with
          servers := Function.update w.servers pid
            (some
              { setup, task := .spawned setup
                saved := false }) }
    else
      none
| .opens pid prepared =>
    (w.servers pid).bind fun server =>
      w.opens pid server prepared
| .checks pid failure saved =>
    (w.servers pid).bind fun server =>
      w.checks pid server failure saved
| .task pid event saved =>
    if event.locks then
      none
    else
      (w.servers pid).bind fun server =>
        (server.task.step server.setup w.now event).map
          (w.advance pid server w.locks saved)
| .exits pid =>
    some
      { w with
        servers := Function.update w.servers pid none
        locks := FileLock.release w.locks (.server pid) }
| .reads reader pid =>
    if w.readers reader = .scanning then
      match w.files pid with
      | some status =>
          some
            { w with
              readers := Function.update w.readers reader
                (.read pid status) }
      | none => some w
    else
      none
| .looks reader =>
    match w.readers reader with
    | .read pid _ =>
        match FileLock.tryLock w.locks (.process pid)
            (.reader reader) with
        | some locks =>
            some
              { w with
                locks
                readers := Function.update w.readers reader
                  .locked }
        | none =>
            some
              { w with
                readers := Function.update w.readers reader
                  .scanning }
    | _ => none
| .looked reader =>
    some
      { w with
        locks := FileLock.release w.locks (.reader reader)
        readers := Function.update w.readers reader
          .scanning }

/- The runs of all servers on one state directory. -/
def machine : Machine Hosts Event where
  init := initial
  step := step

/-
  What a reader that looks at a lock now prints: the status
  that it has read, if the lock of the process is held.
-/
def printed
    (w : Hosts)
    (reader : Nat) : Option (Nat × Status) :=
  match w.readers reader with
  | .read pid status =>
      match w.locks (.process pid) with
      | .held _ => some (pid, status)
      | _ => none
  | _ => none

end Hosts

end DevTunnel

end Sshdt

------------------------------------------------------------
-- What A Task Does To Its Locks
------------------------------------------------------------

namespace Sshdt

namespace DevTunnel

/- The task holds the lock of its process. -/
def HostPhase.opened : HostPhase → Bool
| .opening | .ended => false
| _ => true

/- A task that hosts has the lock of its process. -/
theorem HostPhase.opened_of_hosts
    {phase : HostPhase}
    (hHosts : phase.hosts = true) :
    phase.opened = true := by
  cases phase <;> first
    | rfl
    | cases hHosts

namespace Hosting

variable {c : HostSetup}
variable {now : Instant}
variable {s t : Hosting}
variable {e : HostEvent}

/- A step writes one status, or leaves the last one. -/
theorem step_writes
    (hStep : s.step c now e = some t) :
    t.last = s.last ∨ t.written = s.written + 1 := by
  cases e with
  | stop =>
      cases hStep
      exact Or.inl rfl
  | notify =>
      cases hStep
      exact Or.inl rfl
  | opened result =>
      simp only [step] at hStep
      split at hStep <;> cases hStep
      exact Or.inl rfl
  | checked lock =>
      simp only [step] at hStep
      split at hStep <;> [skip; cases hStep]
      split at hStep
      · cases hStep
        exact Or.inr rfl
      · cases lock <;> cases hStep <;> exact Or.inr rfl
  | panics =>
      simp only [step] at hStep
      split at hStep <;> cases hStep
      exact Or.inl rfl
  | spawn =>
      simp only [step] at hStep
      split at hStep <;> [skip; cases hStep]
      rcases Option.map_eq_some_iff.mp hStep with
        ⟨args, _, rfl⟩
      exact Or.inl rfl
  | reply run spawnFailure =>
      simp only [step] at hStep
      split at hStep <;> [skip; cases hStep]
      split at hStep <;> cases hStep
      unfold replied
      split
      · exact Or.inl rfl
      · exact Or.inr rfl
      · exact Or.inr rfl
  | wake =>
      simp only [step] at hStep
      split at hStep <;> [skip; cases hStep]
      split at hStep <;> cases hStep
      exact Or.inr rfl
  | pass result =>
      simp only [step] at hStep
      split at hStep <;> [skip; cases hStep]
      split at hStep <;> [skip; cases hStep]
      split at hStep <;> cases hStep
      · exact Or.inr rfl
      · exact Or.inl rfl
  | child event =>
      simp only [step] at hStep
      split at hStep <;> cases hStep
      rcases event with _ | (_ | _)
      · exact Or.inl rfl
      · exact Or.inl rfl
      · exact Or.inr rfl
  | closed =>
      simp only [step] at hStep
      split at hStep <;> cases hStep
      · exact Or.inr rfl
      · exact Or.inl rfl
  | cancel =>
      simp only [step] at hStep
      split at hStep <;> [skip; cases hStep]
      split at hStep <;> cases hStep <;> first
        | exact Or.inl rfl
        | exact Or.inr rfl

/- The other steps enter no phase that needs a lock. -/
theorem step_phase
    (hStep : s.step c now e = some t)
    (hLocks : e.locks = false) :
    (t.phase.opened = true → s.phase.opened = true) ∧
      (t.phase.hosts = true → s.phase.hosts = true) := by
  cases e with
  | stop =>
      cases hStep
      exact ⟨fun h => h, fun h => h⟩
  | notify =>
      cases hStep
      exact ⟨fun h => h, fun h => h⟩
  | opened result => cases hLocks
  | checked lock => cases hLocks
  | panics =>
      simp only [step] at hStep
      split at hStep <;> cases hStep
      simp [HostPhase.opened, HostPhase.hosts]
  | spawn =>
      simp only [step] at hStep
      split at hStep <;> [rename_i hPhase _; cases hStep]
      simp [hPhase, HostPhase.opened, HostPhase.hosts]
  | reply run spawnFailure =>
      simp only [step] at hStep
      split at hStep <;> [rename_i hPhase; cases hStep]
      simp [hPhase, HostPhase.opened, HostPhase.hosts]
  | wake =>
      simp only [step] at hStep
      split at hStep <;> [rename_i hPhase; cases hStep]
      simp [hPhase, HostPhase.opened, HostPhase.hosts]
  | pass result =>
      simp only [step] at hStep
      split at hStep <;> [rename_i hPhase; cases hStep]
      simp [hPhase, HostPhase.opened, HostPhase.hosts]
  | child event =>
      simp only [step] at hStep
      split at hStep <;> [rename_i hPhase; cases hStep]
      simp [hPhase, HostPhase.opened, HostPhase.hosts]
  | closed =>
      simp only [step] at hStep
      split at hStep <;> [rename_i hPhase; rename_i hPhase;
        cases hStep]
      · simp [hPhase, HostPhase.opened, HostPhase.hosts]
      · simp [hPhase, HostPhase.opened, HostPhase.hosts]
  | cancel =>
      simp only [step] at hStep
      split at hStep <;> [skip; cases hStep]
      split at hStep <;> cases hStep <;> rename_i hPhase <;>
        simp [hPhase, HostPhase.opened, HostPhase.hosts,
          stopped, writeStatus]

/- A task that has the locks keeps them until it ends. -/
theorem step_goes_on
    (hStep : s.step c now e = some t) :
    (s.phase.opened = true →
        t.phase.opened = true ∨ t.phase = .ended) ∧
      (s.phase.hosts = true →
        t.phase.hosts = true ∨ t.phase = .ended) := by
  cases e with
  | stop =>
      cases hStep
      exact ⟨Or.inl, Or.inl⟩
  | notify =>
      cases hStep
      exact ⟨Or.inl, Or.inl⟩
  | opened result =>
      simp only [step] at hStep
      split at hStep <;> [rename_i hPhase; cases hStep]
      simp [hPhase, HostPhase.opened, HostPhase.hosts]
  | checked lock =>
      simp only [step] at hStep
      split at hStep <;> [rename_i hPhase; cases hStep]
      refine ⟨fun _ => Or.inl ?_, fun h => ?_⟩
      · split at hStep
        · cases hStep
          rfl
        · cases lock <;> cases hStep <;> rfl
      · rw [hPhase] at h
        cases h
  | panics =>
      simp only [step] at hStep
      split at hStep <;> cases hStep
      exact ⟨fun _ => Or.inr rfl, fun _ => Or.inr rfl⟩
  | spawn =>
      simp only [step] at hStep
      split at hStep <;> [skip; cases hStep]
      rcases Option.map_eq_some_iff.mp hStep with
        ⟨args, _, rfl⟩
      exact ⟨Or.inl, Or.inl⟩
  | reply run spawnFailure =>
      simp only [step] at hStep
      split at hStep <;> [skip; cases hStep]
      split at hStep <;> cases hStep
      unfold replied
      split <;> exact ⟨fun _ => Or.inl rfl, fun _ => Or.inl rfl⟩
  | wake =>
      simp only [step] at hStep
      split at hStep <;> [skip; cases hStep]
      split at hStep <;> cases hStep
      exact ⟨fun _ => Or.inl rfl, fun _ => Or.inl rfl⟩
  | pass result =>
      simp only [step] at hStep
      split at hStep <;> [skip; cases hStep]
      split at hStep <;> [skip; cases hStep]
      split at hStep <;> cases hStep
      · exact ⟨fun _ => Or.inl rfl, fun _ => Or.inl rfl⟩
      · exact ⟨Or.inl, Or.inl⟩
  | child event =>
      simp only [step] at hStep
      split at hStep <;> cases hStep
      rcases event with _ | (_ | _)
      · exact ⟨fun _ => Or.inl rfl, fun _ => Or.inl rfl⟩
      · exact ⟨Or.inl, Or.inl⟩
      · exact ⟨fun _ => Or.inl rfl, fun _ => Or.inl rfl⟩
  | closed =>
      simp only [step] at hStep
      split at hStep <;> cases hStep
      · exact ⟨fun _ => Or.inr rfl, fun _ => Or.inr rfl⟩
      · exact ⟨fun _ => Or.inl rfl, fun _ => Or.inl rfl⟩
  | cancel =>
      simp only [step] at hStep
      split at hStep <;> [skip; cases hStep]
      split at hStep <;> cases hStep <;> first
        | exact ⟨fun _ => Or.inr rfl, fun _ => Or.inr rfl⟩
        | exact ⟨fun _ => Or.inl rfl, fun _ => Or.inl rfl⟩

end Hosting

end DevTunnel

end Sshdt

------------------------------------------------------------
-- Invariant
------------------------------------------------------------

namespace Sshdt

namespace DevTunnel

/- The server is in a phase that needs the lock. -/
def Server.Needs
    (server : Server)
    (pid : Nat) : HostFile → Prop
| .process pid' =>
    pid' = pid ∧ server.task.phase.opened = true
| .tunnel id =>
    server.task.phase.hosts = true ∧
      server.setup.config.id = some id

namespace Hosts

variable {w w' : Hosts}

/-
  A server holds the locks that its phase needs and no
  others, and a status that it has saved is in its file. A
  reader holds the lock of a process while it looks at it.
-/
structure Inv
    (w : Hosts) : Prop where
  task :
    ∀ pid server, w.servers pid = some server →
      server.task.Inv server.setup w.now
  process :
    ∀ pid server, w.servers pid = some server →
      server.task.phase.opened = true →
        w.locks (.process pid) = .held (.server pid)
  tunnel :
    ∀ pid server id, w.servers pid = some server →
      server.task.phase.hosts = true →
        server.setup.config.id = some id →
          w.locks (.tunnel id) = .held (.server pid)
  needed :
    ∀ name pid, w.locks name = .held (.server pid) →
      ∃ server, w.servers pid = some server ∧
        server.Needs pid name
  read :
    ∀ name reader, w.locks name = .held (.reader reader) →
      (∃ pid, name = .process pid) ∧
        w.readers reader = .locked
  file :
    ∀ pid server, w.servers pid = some server →
      server.saved = true →
        w.files pid = server.task.last

theorem initial_inv : initial.Inv where
  task := by simp [initial]
  process := by simp [initial]
  tunnel := by simp [initial]
  needed := by simp [initial]
  read := by simp [initial]
  file := by simp [initial]

/- The locks that others hold stay theirs. -/
def Keeps
    (locks locks' : HostFile → FileLock HostFileUser)
    (user : HostFileUser) : Prop :=
  ∀ name other, other ≠ user → locks name = .held other →
    locks' name = .held other

/- What a step of a task locks is what its phase needs. -/
def Takes
    (locks locks' : HostFile → FileLock HostFileUser)
    (pid : Nat)
    (setup : HostSetup)
    (task : Hosting) : Prop :=
  ∀ name user, locks' name = .held user →
    locks name = .held user ∨
      user = .server pid ∧
        Server.Needs { setup, task, saved := false } pid name

section Advance

variable {pid : Nat}
variable {server : Server}
variable {locks : HostFile → FileLock HostFileUser}
variable {saved : Bool}
variable {task : Hosting}
variable {name : HostFile}

/- The locks of the others, if the task is over or not. -/
theorem held_advance
    {other : HostFileUser}
    (hOther : other ≠ .server pid)
    (hHeld : locks name = .held other) :
    (w.advance pid server locks saved task).locks name =
      .held other := by
  simp only [advance]
  split
  · exact FileLock.held_release hOther hHeld
  · exact hHeld

/- A task that goes on keeps its own. -/
theorem held_advance_own
    {user : HostFileUser}
    (hGoing : task.phase ≠ .ended)
    (hHeld : locks name = .held user) :
    (w.advance pid server locks saved task).locks name =
      .held user := by
  simp only [advance, if_neg hGoing]
  exact hHeld

/- What is held after the step, unless the task has ended. -/
theorem of_held_advance
    {user : HostFileUser}
    (hHeld :
      (w.advance pid server locks saved task).locks name =
        .held user) :
    locks name = .held user ∧
      (task.phase = .ended → user ≠ .server pid) := by
  simp only [advance] at hHeld
  split at hHeld
  · rcases FileLock.of_held_release hHeld with
      ⟨hNot, hHeld⟩
    exact ⟨hHeld, fun _ => hNot⟩
  · rename_i hGoing
    exact ⟨hHeld, fun hEnded => absurd hEnded hGoing⟩

/- The server itself, and the other servers. -/
theorem server_advance
    {pid' : Nat}
    {server' : Server}
    (hServer' :
      (w.advance pid server locks saved task).servers pid' =
        some server') :
    (pid' = pid ∧ server'.setup = server.setup ∧
        server'.task = task) ∨
      (pid' ≠ pid ∧ w.servers pid' = some server') := by
  by_cases hPid : pid' = pid
  · subst hPid
    simp only [advance, Function.update_self,
      Option.some.injEq] at hServer'
    subst hServer'
    exact Or.inl ⟨rfl, rfl, rfl⟩
  · simp only [advance, Function.update_of_ne hPid]
      at hServer'
    exact Or.inr ⟨hPid, hServer'⟩

/- A file holds the status that was saved in it. -/
theorem file_advance
    {e : HostEvent}
    (hFile :
      server.saved = true →
        w.files pid = server.task.last)
    (hStep :
      server.task.step server.setup w.now e = some task)
    (hSaved :
      (if task.written = server.task.written then
        server.saved else saved) = true) :
    (w.advance pid server locks saved task).files pid =
      task.last := by
  by_cases hWritten : task.written = server.task.written
  · rw [if_pos hWritten] at hSaved
    have hLast :=
      (Hosting.step_writes hStep).resolve_right (by omega)
    simp only [advance, hWritten, ne_eq, not_true,
      and_false, if_false, hLast]
    exact hFile hSaved
  · rw [if_neg hWritten] at hSaved
    simp [advance, hSaved, hWritten]

/- The files of the other servers are theirs. -/
theorem file_advance_of_ne
    {pid' : Nat}
    (hPid : pid' ≠ pid) :
    (w.advance pid server locks saved task).files pid' =
      w.files pid' := by
  simp only [advance]
  split
  · exact Function.update_of_ne hPid _ _
  · rfl

end Advance

/- A step of a task with the locks that its phase needs. -/
theorem advance_inv
    {pid : Nat}
    {server : Server}
    {locks : HostFile → FileLock HostFileUser}
    {saved : Bool}
    {task : Hosting}
    {e : HostEvent}
    (hInv : w.Inv)
    (hServer : w.servers pid = some server)
    (hStep :
      server.task.step server.setup w.now e = some task)
    (hKeeps : Keeps w.locks locks (.server pid))
    (hProcess :
      task.phase.opened = true →
        locks (.process pid) = .held (.server pid))
    (hTunnel :
      ∀ id, task.phase.hosts = true →
        server.setup.config.id = some id →
          locks (.tunnel id) = .held (.server pid))
    (hNew : Takes w.locks locks pid server.setup task) :
    (w.advance pid server locks saved task).Inv := by
  have hTask :=
    Hosting.step_inv (hInv.task pid server hServer) hStep
  have hGoesOn := Hosting.step_goes_on hStep
  refine
    { task := ?_, process := ?_, tunnel := ?_, needed := ?_
      read := ?_, file := ?_ }
  · intro pid' server' hServer'
    rcases server_advance hServer' with
      ⟨rfl, hSetup, rfl⟩ | ⟨_, hServer'⟩
    · rw [hSetup]
      exact hTask
    · exact hInv.task pid' server' hServer'
  · intro pid' server' hServer' hOpened
    rcases server_advance hServer' with
      ⟨rfl, _, rfl⟩ | ⟨hPid, hServer'⟩
    · refine held_advance_own ?_ (hProcess hOpened)
      intro hEnded
      rw [hEnded] at hOpened
      cases hOpened
    · have hNot : HostFileUser.server pid' ≠ .server pid := by
        simpa using hPid
      exact held_advance hNot (hKeeps _ _ hNot
        (hInv.process pid' server' hServer' hOpened))
  · intro pid' server' id hServer' hHosts hId
    rcases server_advance hServer' with
      ⟨rfl, hSetup, rfl⟩ | ⟨hPid, hServer'⟩
    · rw [hSetup] at hId
      refine held_advance_own ?_ (hTunnel id hHosts hId)
      intro hEnded
      rw [hEnded] at hHosts
      cases hHosts
    · have hNot : HostFileUser.server pid' ≠ .server pid := by
        simpa using hPid
      exact held_advance hNot (hKeeps _ _ hNot
        (hInv.tunnel pid' server' id hServer' hHosts hId))
  · intro name pid' hHeld
    rcases of_held_advance hHeld with ⟨hLocked, hGoing⟩
    rcases hNew name _ hLocked with hOld | ⟨hUser, hNeeds⟩
    · rcases hInv.needed name pid' hOld with
        ⟨server', hServer', hNeeds⟩
      by_cases hPid : pid' = pid
      · subst hPid
        rw [hServer, Option.some.injEq] at hServer'
        subst hServer'
        have hNotEnded : task.phase ≠ .ended :=
          fun hEnded => hGoing hEnded rfl
        refine ⟨_, Function.update_self _ _ _, ?_⟩
        cases name with
        | process pid'' =>
            exact ⟨hNeeds.1, (hGoesOn.1 hNeeds.2).resolve_right
              hNotEnded⟩
        | tunnel id =>
            exact ⟨(hGoesOn.2 hNeeds.1).resolve_right
              hNotEnded, hNeeds.2⟩
      · refine ⟨server', ?_, hNeeds⟩
        change Function.update w.servers pid _ pid' = _
        rw [Function.update_of_ne hPid]
        exact hServer'
    · cases hUser
      refine ⟨_, Function.update_self _ _ _, ?_⟩
      cases name with
      | process pid'' => exact hNeeds
      | tunnel id => exact hNeeds
  · intro name reader hHeld
    rcases hNew _ _ (of_held_advance hHeld).1 with
      hOld | ⟨hUser, _⟩
    · exact hInv.read name reader hOld
    · cases hUser
  · intro pid' server' hServer' hSaved
    by_cases hPid : pid' = pid
    · subst hPid
      simp only [advance, Function.update_self,
        Option.some.injEq] at hServer'
      subst hServer'
      exact file_advance (hInv.file pid' server hServer)
        hStep hSaved
    · rw [file_advance_of_ne hPid]
      apply hInv.file pid' server' _ hSaved
      simpa only [advance, Function.update_of_ne hPid]
        using hServer'

theorem keeps_refl
    (user : HostFileUser) :
    Keeps w.locks w.locks user :=
  fun _ _ _ hHeld => hHeld

theorem takes_refl
    {pid : Nat}
    {setup : HostSetup}
    {task : Hosting} :
    Takes w.locks w.locks pid setup task :=
  fun _ _ hHeld => Or.inl hHeld

theorem takes_openCreate
    {name : HostFile}
    {pid : Nat}
    {setup : HostSetup}
    {task : Hosting} :
    Takes w.locks (FileLock.openCreate w.locks name) pid
      setup task :=
  fun _ _ hHeld => Or.inl (FileLock.of_held_openCreate hHeld)

theorem takes_tryLock
    {name : HostFile}
    {pid : Nat}
    {locks : HostFile → FileLock HostFileUser}
    {setup : HostSetup}
    {task : Hosting}
    (hTry :
      FileLock.tryLock (FileLock.openCreate w.locks name)
        name (.server pid) = some locks)
    (hNeeds :
      Server.Needs { setup, task, saved := false } pid name) :
    Takes w.locks locks pid setup task := by
  intro name' user hHeld
  rcases FileLock.of_held_tryLock hTry hHeld with
    hOld | ⟨rfl, rfl⟩
  · exact Or.inl (FileLock.of_held_openCreate hOld)
  · exact Or.inr ⟨rfl, hNeeds⟩

/- Opening a lock file and taking it keeps what is held. -/
theorem keeps_openCreate
    (name : HostFile)
    (user : HostFileUser) :
    Keeps w.locks (FileLock.openCreate w.locks name) user :=
  fun _ _ _ hHeld => FileLock.held_openCreate hHeld

theorem keeps_tryLock
    {name : HostFile}
    {user : HostFileUser}
    {locks : HostFile → FileLock HostFileUser}
    (hTry :
      FileLock.tryLock (FileLock.openCreate w.locks name)
        name user = some locks) :
    Keeps w.locks locks user :=
  fun _ _ _ hHeld => FileLock.held_tryLock hTry
    (FileLock.held_openCreate hHeld)

/- The lock of the process is taken first, and alone. -/
theorem opens_inv
    {pid : Nat}
    {server : Server}
    {prepared : Bool}
    (hInv : w.Inv)
    (hServer : w.servers pid = some server)
    (hStep : w.opens pid server prepared = some w') :
    w'.Inv := by
  -- No result of this lock leads to a tunnel.
  have hPhase :
      ∀ {result task},
        server.task.step server.setup w.now
            (.opened result) = some task →
          task.phase =
            if result = .locked then .checking else .ended := by
    intro result task hTask
    simp only [Hosting.step] at hTask
    split at hTask <;> cases hTask
    rfl
  have hEnds :
      ∀ {result task locks},
        result ≠ .locked →
        Keeps w.locks locks (.server pid) →
        Takes w.locks locks pid server.setup task →
        server.task.step server.setup w.now
            (.opened result) = some task →
          (w.advance pid server locks false task).Inv := by
    intro result task locks hNot hKeeps hTakes hTask
    have hEnded := hPhase hTask
    rw [if_neg hNot] at hEnded
    exact advance_inv hInv hServer hTask hKeeps
      (by simp [hEnded, HostPhase.opened])
      (by simp [hEnded, HostPhase.hosts]) hTakes
  unfold opens at hStep
  split at hStep
  · dsimp only at hStep
    split at hStep
    · rename_i locks hTry
      rcases Option.map_eq_some_iff.mp hStep with
        ⟨task, hTask, rfl⟩
      have hChecking := hPhase hTask
      rw [if_pos rfl] at hChecking
      exact advance_inv hInv hServer hTask
        (keeps_tryLock hTry)
        (fun _ => FileLock.held_of_tryLock hTry)
        (by simp [hChecking, HostPhase.hosts])
        (takes_tryLock hTry
          ⟨rfl, by simp [hChecking, HostPhase.opened]⟩)
    · rcases Option.map_eq_some_iff.mp hStep with
        ⟨task, hTask, rfl⟩
      exact hEnds (by simp) (keeps_openCreate _ _)
        takes_openCreate hTask
  · rcases Option.map_eq_some_iff.mp hStep with
      ⟨task, hTask, rfl⟩
    exact hEnds (by simp) (keeps_refl _) takes_refl hTask

/- The checks come behind the first lock. -/
theorem checked_phase
    {c : HostSetup}
    {now : Instant}
    {s t : Hosting}
    {lock : TunnelLock}
    (hStep : s.step c now (.checked lock) = some t) :
    s.phase = .checking ∧
      (t.phase.hosts = true → lock = .locked) := by
  simp only [Hosting.step] at hStep
  split at hStep <;> [rename_i hPhase; cases hStep]
  refine ⟨hPhase, fun hHosts => ?_⟩
  split at hStep
  · cases hStep
    cases hHosts
  · cases lock with
    | locked => rfl
    | _ =>
        cases hStep
        cases hHosts

/- The lock of the tunnel is taken, or nothing is hosted. -/
theorem checks_inv
    {pid : Nat}
    {server : Server}
    {failure : Option Text}
    {saved : Bool}
    (hInv : w.Inv)
    (hServer : w.servers pid = some server)
    (hStep :
      w.checks pid server failure saved = some w') :
    w'.Inv := by
  -- Without the lock the task waits for the end.
  have hWaits :
      ∀ {lock task locks},
        lock ≠ .locked →
        Keeps w.locks locks (.server pid) →
        Takes w.locks locks pid server.setup task →
        locks (.process pid) =
          w.locks (.process pid) →
        server.task.step server.setup w.now
            (.checked lock) = some task →
          (w.advance pid server locks saved task).Inv := by
    intro lock task locks hNot hKeeps hTakes hSame hTask
    rcases checked_phase hTask with ⟨hPhase, hHosts⟩
    refine advance_inv hInv hServer hTask hKeeps ?_ ?_
      hTakes
    · intro _
      rw [hSame]
      exact hInv.process pid server hServer
        (by simp [hPhase, HostPhase.opened])
    · intro _ hTask
      exact absurd (hHosts hTask) hNot
  have hOther :
      ∀ id, FileLock.openCreate w.locks (.tunnel id)
          (.process pid) = w.locks (.process pid) :=
    fun id => Function.update_of_ne (by simp) _ _
  unfold checks at hStep
  split at hStep
  · rcases Option.map_eq_some_iff.mp hStep with
      ⟨task, hTask, rfl⟩
    exact hWaits (by simp) (keeps_refl _) takes_refl rfl
      hTask
  · rcases Option.map_eq_some_iff.mp hStep with
      ⟨task, hTask, rfl⟩
    exact hWaits (by simp) (keeps_refl _) takes_refl rfl
      hTask
  · rename_i id hChecked
    dsimp only at hStep
    split at hStep
    · rename_i locks hTry
      rcases Option.map_eq_some_iff.mp hStep with
        ⟨task, hTask, rfl⟩
      have hPhase := (checked_phase hTask).1
      have hId := (HostSetup.checked_ok hChecked).1
      have hHosts : task.phase.hosts = true := by
        simp only [Hosting.step, hPhase, if_true,
          hChecked] at hTask
        cases hTask
        rfl
      refine advance_inv hInv hServer hTask
        (keeps_tryLock hTry) ?_ ?_
        (takes_tryLock hTry ⟨hHosts, hId⟩)
      · intro _
        refine FileLock.held_tryLock hTry ?_
        rw [hOther]
        exact hInv.process pid server hServer
          (by simp [hPhase, HostPhase.opened])
      · intro id' _ hId'
        rw [hId, Option.some.injEq] at hId'
        subst hId'
        exact FileLock.held_of_tryLock hTry
    · rcases Option.map_eq_some_iff.mp hStep with
        ⟨task, hTask, rfl⟩
      exact hWaits (by simp) (keeps_openCreate _ _)
        takes_openCreate (hOther id) hTask

/- The other steps of a task leave the locks as they are. -/
theorem task_inv
    {pid : Nat}
    {server : Server}
    {e : HostEvent}
    {saved : Bool}
    {task : Hosting}
    (hInv : w.Inv)
    (hServer : w.servers pid = some server)
    (hLocks : e.locks = false)
    (hTask :
      server.task.step server.setup w.now e = some task) :
    (w.advance pid server w.locks saved task).Inv := by
  rcases Hosting.step_phase hTask hLocks with
    ⟨hOpened, hHosts⟩
  exact advance_inv hInv hServer hTask (keeps_refl _)
    (fun h => hInv.process pid server hServer (hOpened h))
    (fun id h hId =>
      hInv.tunnel pid server id hServer (hHosts h) hId)
    takes_refl

/- Locks that a reader takes or gives back are its own. -/
theorem setReaders_inv
    {locks : HostFile → FileLock HostFileUser}
    {readers : Nat → StatusReader}
    (hInv : w.Inv)
    (hHeld :
      ∀ name pid, w.locks name = .held (.server pid) ↔
        locks name = .held (.server pid))
    (hRead :
      ∀ name reader, locks name = .held (.reader reader) →
        (∃ pid, name = .process pid) ∧
          readers reader = .locked) :
    Inv { w with locks, readers } where
  task := hInv.task
  process := fun pid server hServer hOpened =>
    (hHeld _ _).mp
      (hInv.process pid server hServer hOpened)
  tunnel := fun pid server id hServer hHosts hId =>
    (hHeld _ _).mp
      (hInv.tunnel pid server id hServer hHosts hId)
  needed := fun name pid hLocked =>
    hInv.needed name pid ((hHeld _ _).mpr hLocked)
  read := hRead
  file := hInv.file

/- A reader that holds no lock goes to another file. -/
theorem setReader_inv
    {reader : Nat}
    (hInv : w.Inv)
    (hOpen : w.readers reader ≠ .locked)
    (next : StatusReader) :
    Inv
      { w with
        readers := Function.update w.readers reader next } := by
  refine setReaders_inv hInv (fun _ _ => Iff.rfl) ?_
  intro name reader' hHeld
  rcases hInv.read name reader' hHeld with ⟨hName, hLocked⟩
  refine ⟨hName, ?_⟩
  rw [Function.update_of_ne]
  · exact hLocked
  · rintro rfl
    exact hOpen hLocked

/- A reader takes the lock of a process, or does not. -/
theorem looks_inv
    {reader : Nat}
    (hInv : w.Inv)
    (hStep : w.step (.looks reader) = some w') :
    w'.Inv := by
  simp only [step] at hStep
  split at hStep <;> [rename_i pid status hRead; cases hStep]
  split at hStep
  · rename_i locks hTry
    cases hStep
    refine setReaders_inv hInv
      (fun name pid' => ⟨fun hHeld =>
        FileLock.held_tryLock hTry hHeld, fun hHeld => ?_⟩) ?_
    · exact (FileLock.of_held_tryLock hTry hHeld).resolve_right
        (by simp)
    · intro name reader' hHeld
      rcases FileLock.of_held_tryLock hTry hHeld with
        hOld | ⟨rfl, hUser⟩
      · rcases hInv.read name reader' hOld with
          ⟨hName, hLocked⟩
        refine ⟨hName, ?_⟩
        by_cases hSame : reader' = reader
        · rw [hSame, Function.update_self]
        · rw [Function.update_of_ne hSame]
          exact hLocked
      · cases hUser
        exact ⟨⟨pid, rfl⟩, Function.update_self _ _ _⟩
  · cases hStep
    exact setReader_inv hInv (by simp [hRead]) _

/- A reader gives back what it holds. -/
theorem looked_inv
    (hInv : w.Inv)
    (reader : Nat) :
    Inv
      { w with
        locks := FileLock.release w.locks (.reader reader)
        readers := Function.update w.readers reader
          .scanning } := by
  refine setReaders_inv hInv
    (fun name pid => ⟨fun hHeld =>
      FileLock.held_release (by simp) hHeld, fun hHeld =>
      (FileLock.of_held_release hHeld).2⟩) ?_
  intro name reader' hHeld
  rcases FileLock.of_held_release hHeld with ⟨hNot, hOld⟩
  rcases hInv.read name reader' hOld with ⟨hName, hLocked⟩
  refine ⟨hName, ?_⟩
  rw [Function.update_of_ne (by simpa using hNot)]
  exact hLocked

/- A server that is gone holds nothing. -/
theorem exits_inv
    (hInv : w.Inv)
    (pid : Nat) :
    Inv
      { w with
        servers := Function.update w.servers pid none
        locks := FileLock.release w.locks (.server pid) } := by
  have hStays :
      ∀ pid' server,
        Function.update w.servers pid none pid' =
            some server →
          pid' ≠ pid ∧ w.servers pid' = some server := by
    intro pid' server hServer
    by_cases hPid : pid' = pid
    · rw [hPid, Function.update_self] at hServer
      cases hServer
    · rw [Function.update_of_ne hPid] at hServer
      exact ⟨hPid, hServer⟩
  refine
    { task := ?_, process := ?_, tunnel := ?_, needed := ?_
      read := ?_, file := ?_ }
  · intro pid' server hServer
    exact hInv.task pid' server (hStays _ _ hServer).2
  · intro pid' server hServer hOpened
    rcases hStays _ _ hServer with ⟨hPid, hServer⟩
    exact FileLock.held_release (by simpa using hPid)
      (hInv.process pid' server hServer hOpened)
  · intro pid' server id hServer hHosts hId
    rcases hStays _ _ hServer with ⟨hPid, hServer⟩
    exact FileLock.held_release (by simpa using hPid)
      (hInv.tunnel pid' server id hServer hHosts hId)
  · intro name pid' hHeld
    rcases FileLock.of_held_release hHeld with ⟨hNot, hHeld⟩
    rcases hInv.needed name pid' hHeld with
      ⟨server, hServer, hNeeds⟩
    refine ⟨server, ?_, hNeeds⟩
    change Function.update w.servers pid none pid' = _
    rw [Function.update_of_ne (by simpa using hNot)]
    exact hServer
  · intro name reader hHeld
    exact hInv.read name reader
      (FileLock.of_held_release hHeld).2
  · intro pid' server hServer hSaved
    exact hInv.file pid' server (hStays _ _ hServer).2 hSaved

/- A new server holds nothing and has saved nothing. -/
theorem launch_inv
    {pid : Nat}
    (hInv : w.Inv)
    (hFree : w.servers pid = none)
    (setup : HostSetup) :
    Inv
      { w with
        servers := Function.update w.servers pid
          (some
            { setup, task := .spawned setup
              saved := false }) } := by
  have hNew : (Hosting.spawned setup).phase.opened = false := by
    unfold Hosting.spawned
    split <;> rfl
  have hNone : (Hosting.spawned setup).phase.hosts = false := by
    rw [Bool.eq_false_iff]
    intro hHosts
    rw [HostPhase.opened_of_hosts hHosts] at hNew
    cases hNew
  refine
    { task := ?_, process := ?_, tunnel := ?_, needed := ?_
      read := hInv.read, file := ?_ }
  · intro pid' server hServer
    by_cases hPid : pid' = pid
    · simp only [hPid, Function.update_self,
        Option.some.injEq] at hServer
      subst hServer
      exact Hosting.spawned_inv setup w.now
    · simp only [Function.update_of_ne hPid] at hServer
      exact hInv.task pid' server hServer
  · intro pid' server hServer hOpened
    by_cases hPid : pid' = pid
    · simp only [hPid, Function.update_self,
        Option.some.injEq] at hServer
      subst hServer
      rw [hNew] at hOpened
      cases hOpened
    · simp only [Function.update_of_ne hPid] at hServer
      exact hInv.process pid' server hServer hOpened
  · intro pid' server id hServer hHosts hId
    by_cases hPid : pid' = pid
    · simp only [hPid, Function.update_self,
        Option.some.injEq] at hServer
      subst hServer
      rw [hNone] at hHosts
      cases hHosts
    · simp only [Function.update_of_ne hPid] at hServer
      exact hInv.tunnel pid' server id hServer hHosts hId
  · intro name pid' hHeld
    rcases hInv.needed name pid' hHeld with
      ⟨server, hServer, hNeeds⟩
    refine ⟨server, ?_, hNeeds⟩
    change Function.update w.servers pid _ pid' = _
    rw [Function.update_of_ne]
    · exact hServer
    · rintro rfl
      rw [hFree] at hServer
      cases hServer
  · intro pid' server hServer hSaved
    by_cases hPid : pid' = pid
    · simp only [hPid, Function.update_self,
        Option.some.injEq] at hServer
      subst hServer
      cases hSaved
    · simp only [Function.update_of_ne hPid] at hServer
      exact hInv.file pid' server hServer hSaved

/- Every step keeps the invariant. -/
theorem step_inv
    {e : Event}
    (hInv : w.Inv)
    (hStep : w.step e = some w') :
    w'.Inv := by
  cases e with
  | tick duration =>
      cases hStep
      exact
        { task := fun pid server hServer =>
            (hInv.task pid server hServer).later
              (Nat.le_add_right _ _)
          process := hInv.process, tunnel := hInv.tunnel
          needed := hInv.needed, read := hInv.read
          file := hInv.file }
  | launch pid setup =>
      simp only [step] at hStep
      split at hStep <;> [rename_i hFree; cases hStep]
      cases hStep
      exact launch_inv hInv (Option.isNone_iff_eq_none.mp hFree)
        setup
  | opens pid prepared =>
      rcases Option.bind_eq_some_iff.mp hStep with
        ⟨server, hServer, hStep⟩
      exact opens_inv hInv hServer hStep
  | checks pid failure saved =>
      rcases Option.bind_eq_some_iff.mp hStep with
        ⟨server, hServer, hStep⟩
      exact checks_inv hInv hServer hStep
  | task pid event saved =>
      simp only [step] at hStep
      split at hStep <;> [cases hStep; rename_i hLocks]
      rcases Option.bind_eq_some_iff.mp hStep with
        ⟨server, hServer, hStep⟩
      rcases Option.map_eq_some_iff.mp hStep with
        ⟨task, hTask, rfl⟩
      exact task_inv hInv hServer
        ((Bool.not_eq_true _).mp hLocks) hTask
  | exits pid =>
      cases hStep
      exact exits_inv hInv pid
  | reads reader pid =>
      simp only [step] at hStep
      split at hStep <;> [rename_i hScans; cases hStep]
      split at hStep <;> cases hStep
      · exact setReader_inv hInv (by simp [hScans]) _
      · exact hInv
  | looks reader => exact looks_inv hInv hStep
  | looked reader =>
      cases hStep
      exact looked_inv hInv reader

theorem reachable_inv
    (hReachable : machine.Reachable w) :
    w.Inv :=
  hReachable.invariant initial_inv
    (fun _ _ _ hInv _ hStep => step_inv hInv hStep)

end Hosts

end DevTunnel

end Sshdt
