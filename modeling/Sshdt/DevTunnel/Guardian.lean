import Sshdt.Lib.Machine
import Sshdt.Lib.Processes

/-
  The guardian of a `devtunnel` process (`guardian` and
  `run_unix_child` in `src/devtunnel/process.rs`, on Unix).

  A guardian starts its child in a group of its own and
  waits until its owner is gone, which a thread learns from
  standard input, or until the child has ended, which it
  looks at without reaping the child. Then it sends a signal
  to the group and reaps the child.

  Other processes do what they like in the meantime, except
  that nothing ends the guardian from outside. A child that
  is started is in its own group at once. A status is the
  exit code, and `none` for a process ended by a signal.

  Key definitions include:
    * `Guardian`
    * `Guardian.step`
    * `Guardian.Inv`

  Key theorems include:
    * `Guardian.step_inv`
    * `Guardian.kills_own_group`
    * `Guardian.leaves_nothing_running`
    * `Guardian.ends_with_owner`
-/

------------------------------------------------------------
-- Guardians And Their Steps
------------------------------------------------------------

namespace Sshdt

namespace DevTunnel

/- Why the guardian stops waiting. -/
inductive KillCause where
  | ownerGone
  | childEnded (status : Option Int)
  | waitFails
  deriving DecidableEq, Repr

/-
  Where a guardian is: before the first look at the channel,
  before the spawn, in `recv_timeout` or `waitid`, and at the
  signal or the wait that follow.
-/
inductive GuardianPhase where
  | checking
  | spawning
  | receiving (pid : Pid)
  | asking (pid : Pid)
  | killing (pid : Pid)
  | waiting (pid : Pid)
  | returned (result : Except Unit Int)
  deriving DecidableEq, Repr

/-
  A guardian among the other processes. `noticed` says that
  the thread has sent its message, `child` is the number and
  the birth of the child, and `entered` that a process came
  into the group of the child from outside after the signal.
-/
structure Guardian where
  table : ProcessTable (Option Int)
  ownerOpen : Bool
  readFailed : Bool
  noticed : Bool
  phase : GuardianPhase
  child : Option (Pid × Nat)
  cause : Option KillCause
  entered : Bool
  status : Option (Option Int)
  deriving DecidableEq, Repr

namespace Guardian

/- What happens around a guardian and what it does. -/
inductive Event where
  | outside (step : ProcessStep (Option Int))
  | ownerCloses
  | notices (readError : Bool)
  | check
  | spawn (pid : Pid) (started : Bool)
  | receive
  | ask (fails : Bool)
  | kill
  | wait (fails : Bool)

/- A guardian that has just been started. -/
def initial
    (table : ProcessTable (Option Int)) : Guardian where
  table
  ownerOpen := true
  readFailed := false
  noticed := false
  phase := .checking
  child := none
  cause := none
  entered := false
  status := none

/- The signal was sent. -/
def afterKill : GuardianPhase → Bool
| .waiting _ | .returned _ => true
| _ => false

/- The loop is left, and for which reason. -/
def leaveLoop
    (g : Guardian)
    (pid : Pid)
    (cause : KillCause) : Guardian :=
  { g with phase := .killing pid, cause := some cause }

/- The step brings a process into the group of the child. -/
def intrudes
    (g : Guardian)
    (e : ProcessStep (Option Int)) : Bool :=
  afterKill g.phase &&
    g.child.any fun child => g.table.enters child.2 e

/- A step of another process, which the guardian survives. -/
def outsideStep
    (guardian : Pid)
    (g : Guardian)
    (e : ProcessStep (Option Int)) : Option Guardian :=
  match g.table.step none e with
  | some table =>
      if e.actor ≠ some guardian ∧
          table.runs guardian = true then
        some
          { g with
            table
            entered := g.entered || g.intrudes e }
      else
        none
  | none => none

/- The child is started and founds its group. -/
def spawnStep
    (guardian : Pid)
    (g : Guardian)
    (pid : Pid) : Option Guardian :=
  (g.table.step none (.fork guardian pid)).bind fun forked =>
    (forked.step none (.lead pid)).map fun table =>
      { g with
        table
        phase := .receiving pid
        child := some (pid, g.table.next) }

/- What `waitid` says, without reaping the child. -/
def askStep
    (guardian : Pid)
    (g : Guardian)
    (pid : Pid) : Guardian :=
  match g.table.find pid with
  | some p =>
      if p.parent = guardian then
        match p.ended with
        | some status =>
            g.leaveLoop pid (.childEnded status)
        | none => { g with phase := .receiving pid }
      else
        g.leaveLoop pid .waitFails
  | none => g.leaveLoop pid .waitFails

/- `Child::wait` on a child that has ended. -/
def waitStep
    (guardian : Pid)
    (g : Guardian)
    (pid : Pid) : Option Guardian :=
  match g.table.find pid with
  | some p =>
      match p.ended with
      | some status =>
          (g.table.step none (.reap guardian pid)).map
            fun table =>
              { g with
                table
                status := some status
                phase := .returned (.ok (status.getD 1)) }
      | none => none
  | none => none

/- One step of the guardian or of what surrounds it. -/
def step
    (guardian : Pid)
    (g : Guardian) : Event → Option Guardian
| .outside e => g.outsideStep guardian e
| .ownerCloses =>
    if g.ownerOpen = true then
      some { g with ownerOpen := false }
    else
      none
| .notices readError =>
    if g.noticed = false ∧
        (g.ownerOpen = false ∨ readError = true) then
      some
        { g with
          noticed := true
          readFailed := g.readFailed || readError }
    else
      none
| .check =>
    if g.phase = .checking then
      some
        { g with
          phase :=
            if g.noticed then .returned (.ok 0)
            else .spawning }
    else
      none
| .spawn pid started =>
    if g.phase = .spawning then
      if started = true then
        g.spawnStep guardian pid
      else
        some { g with phase := .returned (.error ()) }
    else
      none
| .receive =>
    match g.phase with
    | .receiving pid =>
        some
          (if g.noticed then
            g.leaveLoop pid .ownerGone
          else
            { g with phase := .asking pid })
    | _ => none
| .ask fails =>
    match g.phase with
    | .asking pid =>
        some
          (if fails then
            g.leaveLoop pid .waitFails
          else
            g.askStep guardian pid)
    | _ => none
| .kill =>
    match g.phase with
    | .killing pid =>
        (g.table.step none (.kill pid)).map fun table =>
          { g with table, phase := .waiting pid }
    | _ => none
| .wait fails =>
    match g.phase with
    | .waiting pid =>
        if fails = true then
          some { g with phase := .returned (.error ()) }
        else
          g.waitStep guardian pid
    | _ => none

/- The runs of a guardian among some processes. -/
def machine
    (guardian : Pid)
    (table : ProcessTable (Option Int)) :
    Machine Guardian Event where
  init := initial table
  step := step guardian

end Guardian

end DevTunnel

end Sshdt

------------------------------------------------------------
-- Invariant
------------------------------------------------------------

namespace Sshdt

namespace DevTunnel

namespace Guardian

variable {guardian : Pid}
variable {g h : Guardian}

/-
  The child was started and not reaped, and the guardian is
  not in its group.
-/
structure Started
    (guardian : Pid)
    (t : ProcessTable (Option Int))
    (pid : Pid)
    (birth : Nat) : Prop where
  there : t.Child guardian pid birth
  spared :
    ∀ p ∈ t.processes, p.pid = guardian → p.founder ≠ birth
  early : birth < t.next

/- The reason for the signal is a good one. -/
def CauseFits
    (g : Guardian)
    (birth : Nat) : Prop :=
  match g.cause with
  | some .ownerGone => g.noticed = true
  | some (.childEnded status) =>
      g.table.EndedWith birth status
  | some .waitFails => True
  | none => False

/-
  A guardian that returns without an error has reaped its
  child, and its code is that of the child.
-/
def ResultFits
    (g : Guardian)
    (birth : Nat)
    (result : Except Unit Int) : Prop :=
  match result with
  | .ok code =>
      g.table.Gone birth ∧
        ∃ status,
          g.status = some status ∧ code = status.getD 1 ∧
            ∀ known, g.cause = some (.childEnded known) →
              status = known
  | .error _ => True

/- What is known in a phase about the child. -/
def PhaseFits
    (guardian : Pid)
    (g : Guardian) : Prop :=
  match g.phase with
  | .checking | .spawning => g.child = none
  | .receiving pid | .asking pid =>
      ∃ birth,
        g.child = some (pid, birth) ∧
          Started guardian g.table pid birth
  | .killing pid =>
      ∃ birth,
        g.child = some (pid, birth) ∧
          Started guardian g.table pid birth ∧ g.CauseFits birth
  | .waiting pid =>
      ∃ birth,
        g.child = some (pid, birth) ∧
          Started guardian g.table pid birth ∧
          g.CauseFits birth ∧
          (g.entered = false → g.table.NoneRuns birth)
  | .returned result =>
      ∀ pid birth, g.child = some (pid, birth) →
        birth < g.table.next ∧
          (g.entered = false → g.table.NoneRuns birth) ∧
          g.ResultFits birth result

structure Inv
    (guardian : Pid)
    (g : Guardian) : Prop where
  coherent : g.table.Coherent
  runs : g.table.runs guardian = true
  noticed :
    g.noticed = true →
      g.ownerOpen = false ∨ g.readFailed = true
  phase : g.PhaseFits guardian

theorem initial_inv
    {table : ProcessTable (Option Int)}
    (hCoherent : table.Coherent)
    (hRuns : table.runs guardian = true) :
    (initial table).Inv guardian where
  coherent := hCoherent
  runs := hRuns
  noticed := by simp [initial]
  phase := rfl

/- The child stays a child, whatever another process does. -/
theorem Started.step
    {t u : ProcessTable (Option Int)}
    {e : ProcessStep (Option Int)}
    {pid : Pid}
    {birth : Nat}
    (hStarted : Started guardian t pid birth)
    (hCoherent : t.Coherent)
    (hSelf : t.runs guardian = true)
    (hStep : t.step none e = some u)
    (hActor : e.actor ≠ some guardian)
    (hRuns : u.runs guardian = true) :
    Started guardian u pid birth where
  there := by
    refine hStarted.there.step hCoherent ?_ hStep hRuns
    rintro rfl
    exact hActor rfl
  spared := by
    intro p hp hPid
    rcases ProcessTable.step_source hStep hp with
      ⟨_, hNew⟩ | ⟨q, hq, hqPid, _, _, hFounder⟩
    · rcases ProcessTable.runs_iff.mp hSelf with
        ⟨q, hq, hqSelf, _⟩
      exact absurd (hqSelf.trans hPid.symm)
        ((ProcessTable.unused_iff.mp hNew).2 q hq).1
    · rw [hFounder (by rw [hqPid, hPid]; exact hActor)]
      exact hStarted.spared q hq (hqPid.trans hPid)
  early :=
    Nat.lt_of_lt_of_le hStarted.early
      (ProcessTable.step_next hStep)

/- A reason stays one, whatever another process does. -/
theorem CauseFits.step
    {u : ProcessTable (Option Int)}
    {e : ProcessStep (Option Int)}
    {birth : Nat}
    (hFits : g.CauseFits birth)
    (hBirth : birth < g.table.next)
    (hStep : g.table.step none e = some u) :
    CauseFits { g with table := u } birth := by
  unfold CauseFits at hFits ⊢
  cases hCause : g.cause with
  | none =>
      rw [hCause] at hFits
      exact hFits
  | some cause =>
      rw [hCause] at hFits
      cases cause with
      | childEnded status => exact hFits.step hBirth hStep
      | _ => exact hFits

/- Nobody runs until somebody enters. -/
theorem noneRuns_outside
    {u : ProcessTable (Option Int)}
    {e : ProcessStep (Option Int)}
    {pid : Pid}
    {birth : Nat}
    (hChild : g.child = some (pid, birth))
    (hAfter : afterKill g.phase = true)
    (hNone : g.entered = false → g.table.NoneRuns birth)
    (hStep : g.table.step none e = some u)
    (hEntered : (g.entered || g.intrudes e) = false) :
    u.NoneRuns birth := by
  rw [Bool.or_eq_false_iff] at hEntered
  refine (hNone hEntered.1).step hStep ?_
  simpa [intrudes, hAfter, hChild] using hEntered.2

theorem outside_inv
    {e : ProcessStep (Option Int)}
    (hInv : g.Inv guardian)
    (hStep : g.outsideStep guardian e = some h) :
    h.Inv guardian := by
  unfold outsideStep at hStep
  split at hStep <;> [rename_i table hTable; cases hStep]
  split at hStep <;> [rename_i hOther; cases hStep]
  cases hStep
  have hStarted :
      ∀ {pid birth}, Started guardian g.table pid birth →
        Started guardian table pid birth :=
    fun hOld => hOld.step hInv.coherent hInv.runs hTable
      hOther.1 hOther.2
  refine
    { coherent :=
        ProcessTable.step_coherent hInv.coherent hTable
      runs := hOther.2, noticed := hInv.noticed
      phase := ?_ }
  have hFits := hInv.phase
  unfold PhaseFits at hFits ⊢
  cases hPhase : g.phase with
  | checking =>
      rw [hPhase] at hFits
      exact hFits
  | spawning =>
      rw [hPhase] at hFits
      exact hFits
  | receiving pid =>
      rw [hPhase] at hFits
      rcases hFits with ⟨birth, hChild, hOld⟩
      exact ⟨birth, hChild, hStarted hOld⟩
  | asking pid =>
      rw [hPhase] at hFits
      rcases hFits with ⟨birth, hChild, hOld⟩
      exact ⟨birth, hChild, hStarted hOld⟩
  | killing pid =>
      rw [hPhase] at hFits
      rcases hFits with ⟨birth, hChild, hOld, hCause⟩
      exact ⟨birth, hChild, hStarted hOld,
        CauseFits.step hCause hOld.early hTable⟩
  | waiting pid =>
      rw [hPhase] at hFits
      rcases hFits with ⟨birth, hChild, hOld, hCause, hNone⟩
      exact ⟨birth, hChild, hStarted hOld,
        CauseFits.step hCause hOld.early hTable,
        noneRuns_outside hChild (by rw [hPhase]; rfl) hNone
          hTable⟩
  | returned result =>
      rw [hPhase] at hFits
      intro pid birth hChild
      rcases hFits pid birth hChild with
        ⟨hEarly, hNone, hResult⟩
      refine ⟨Nat.lt_of_lt_of_le hEarly
          (ProcessTable.step_next hTable),
        noneRuns_outside hChild (by rw [hPhase]; rfl) hNone
          hTable, ?_⟩
      cases result with
      | error _ => trivial
      | ok code =>
          exact ⟨hResult.1.step hEarly hTable, hResult.2⟩

/- The loop is left with a child that was not reaped. -/
theorem leaveLoop_inv
    {pid : Pid}
    {birth : Nat}
    {cause : KillCause}
    (hInv : g.Inv guardian)
    (hChild : g.child = some (pid, birth))
    (hStarted : Started guardian g.table pid birth)
    (hCause : (g.leaveLoop pid cause).CauseFits birth) :
    (g.leaveLoop pid cause).Inv guardian where
  coherent := hInv.coherent
  runs := hInv.runs
  noticed := hInv.noticed
  phase := ⟨birth, hChild, hStarted, hCause⟩

theorem spawn_inv
    {pid : Pid}
    (hInv : g.Inv guardian)
    (hStep : g.spawnStep guardian pid = some h) :
    h.Inv guardian := by
  unfold spawnStep at hStep
  rcases Option.bind_eq_some_iff.mp hStep with
    ⟨forked, hFork, hRest⟩
  rcases Option.map_eq_some_iff.mp hRest with
    ⟨table, hLead, rfl⟩
  have hBoth := ProcessTable.step_coherent
    (ProcessTable.step_coherent hInv.coherent hFork) hLead
  rcases ProcessTable.spawn_group hInv.coherent hFork
      hLead with
    ⟨hChild, hNext, hOld⟩
  rcases ProcessTable.runs_iff.mp hInv.runs with
    ⟨p, hMem, hPid, hOpen⟩
  rcases (hOld p).mp hMem with ⟨hStill, hBirth⟩
  refine
    { coherent := hBoth
      runs := ProcessTable.runs_iff.mpr
        ⟨p, hStill, hPid, hOpen⟩
      noticed := hInv.noticed
      phase := ⟨g.table.next, rfl, hChild, ?_, hNext⟩ }
  intro q hq hqPid
  -- The guardian itself was there before.
  have hSame : p.birth = q.birth :=
    (hBoth.pids p hStill q hq).mp (hPid.trans hqPid.symm)
  have hBefore := (hOld q).mpr ⟨hq, hSame ▸ hBirth⟩
  exact Nat.ne_of_lt (hInv.coherent.births q hBefore).2

/- `waitid` has seen what became of the child. -/
theorem ask_inv
    {pid : Pid}
    {birth : Nat}
    (hInv : g.Inv guardian)
    (hChild : g.child = some (pid, birth))
    (hStarted : Started guardian g.table pid birth) :
    (g.askStep guardian pid).Inv guardian := by
  have hFails : (g.leaveLoop pid .waitFails).Inv guardian :=
    leaveLoop_inv hInv hChild hStarted trivial
  unfold askStep
  split
  · rename_i p hFind
    split
    · split
      · rename_i status hStatus
        refine leaveLoop_inv hInv hChild hStarted ?_
        rcases ProcessTable.mem_of_find hFind with
          ⟨hMem, hPid⟩
        rcases hStarted.there with ⟨q, hq, hqPid, hqBirth, _⟩
        intro r hr hBirth
        have hSame : r = p := by
          refine hInv.coherent.unique r hr p hMem ?_
          rw [hBirth, ← hqBirth]
          exact (hInv.coherent.pids q hq p hMem).mp
            (hqPid.trans hPid.symm)
        rw [hSame]
        exact hStatus
      · exact
          { coherent := hInv.coherent, runs := hInv.runs
            noticed := hInv.noticed
            phase := ⟨birth, hChild, hStarted⟩ }
    · exact hFails
  · exact hFails

/- The signal leaves the guardian and reaches the group. -/
theorem kill_inv
    {pid : Pid}
    {birth : Nat}
    {table : ProcessTable (Option Int)}
    (hInv : g.Inv guardian)
    (hChild : g.child = some (pid, birth))
    (hStarted : Started guardian g.table pid birth)
    (hCause : g.CauseFits birth)
    (hKill : g.table.step none (.kill pid) = some table) :
    Inv guardian { g with table, phase := .waiting pid } := by
  have hRuns : table.runs guardian = true := by
    rcases ProcessTable.runs_iff.mp hInv.runs with
      ⟨p, hMem, hPid, hOpen⟩
    rcases ProcessTable.kill_spares hInv.coherent
        hStarted.there hMem (hStarted.spared p hMem hPid)
        hKill with
      ⟨q, hq, hSame⟩
    refine ProcessTable.runs_iff.mpr ⟨q, hq, ?_⟩
    rw [hSame]
    exact ⟨hPid, hOpen⟩
  exact
    { coherent :=
        ProcessTable.step_coherent hInv.coherent hKill
      runs := hRuns, noticed := hInv.noticed
      phase := ⟨birth, hChild,
        hStarted.step hInv.coherent hInv.runs hKill
          (by simp [ProcessStep.actor]) hRuns,
        CauseFits.step hCause hStarted.early hKill,
        fun _ => ProcessTable.kill_noneRuns hInv.coherent
          hStarted.there hKill⟩ }

/- The child is reaped. -/
theorem wait_inv
    {pid : Pid}
    {birth : Nat}
    (hInv : g.Inv guardian)
    (hChild : g.child = some (pid, birth))
    (hStarted : Started guardian g.table pid birth)
    (hCause : g.CauseFits birth)
    (hNone : g.entered = false → g.table.NoneRuns birth)
    (hStep : g.waitStep guardian pid = some h) :
    h.Inv guardian := by
  unfold waitStep at hStep
  split at hStep <;> [rename_i p hFind; cases hStep]
  split at hStep <;> [rename_i status hStatus; cases hStep]
  rcases Option.map_eq_some_iff.mp hStep with
    ⟨table, hReap, rfl⟩
  rcases ProcessTable.mem_of_find hFind with ⟨hMem, hPid⟩
  rcases hStarted.there with ⟨q, hq, hqPid, hqBirth, _⟩
  have hBirth : p.birth = birth := by
    rw [← hqBirth]
    exact (hInv.coherent.pids p hMem q hq).mp
      (hPid.trans hqPid.symm)
  have hRuns : table.runs guardian = true := by
    rcases ProcessTable.runs_iff.mp hInv.runs with
      ⟨r, hr, hrPid, hOpen⟩
    refine ProcessTable.runs_iff.mpr ⟨r, ?_, hrPid, hOpen⟩
    simp only [ProcessTable.step] at hReap
    split at hReap <;> [skip; cases hReap]
    split at hReap <;> cases hReap
    refine List.mem_filter.mpr ⟨hr, ?_⟩
    simp only [ne_eq, decide_eq_true_eq]
    intro hSame
    have hEq := hInv.coherent.unique r hr p hMem
      ((hInv.coherent.pids r hr p hMem).mp
        (hSame.trans hPid.symm))
    rw [hEq, hStatus] at hOpen
    cases hOpen
  refine
    { coherent :=
        ProcessTable.step_coherent hInv.coherent hReap
      runs := hRuns, noticed := hInv.noticed
      phase := fun pid' birth' hSame => ?_ }
  rw [hChild] at hSame
  cases hSame
  refine ⟨Nat.lt_of_lt_of_le hStarted.early
      (ProcessTable.step_next hReap),
    fun hQuiet => (hNone hQuiet).step hReap rfl,
    ProcessTable.reap_gone hInv.coherent hStarted.there
      hReap, status, rfl, rfl, fun known hKnown => ?_⟩
  rw [CauseFits, hKnown] at hCause
  rw [hCause p hMem hBirth] at hStatus
  exact (Option.some.inj hStatus).symm

/- Every step keeps the invariant. -/
theorem step_inv
    {e : Event}
    (hInv : g.Inv guardian)
    (hStep : g.step guardian e = some h) :
    h.Inv guardian := by
  have hFits := hInv.phase
  cases e with
  | outside e => exact outside_inv hInv hStep
  | ownerCloses =>
      simp only [step] at hStep
      split at hStep <;> cases hStep
      exact
        { coherent := hInv.coherent, runs := hInv.runs
          noticed := fun _ => Or.inl rfl
          phase := hFits }
  | notices readError =>
      simp only [step] at hStep
      split at hStep <;> [rename_i hMay; cases hStep]
      cases hStep
      refine
        { coherent := hInv.coherent, runs := hInv.runs
          noticed := fun _ => ?_, phase := ?_ }
      · exact hMay.2.imp_right (fun h => by simp [h])
      · unfold PhaseFits at hFits ⊢
        have hCauses :
            ∀ birth, g.CauseFits birth →
              CauseFits
                { g with
                  noticed := true
                  readFailed := g.readFailed || readError }
                birth := by
          intro birth hOld
          unfold CauseFits at hOld ⊢
          cases hCause : g.cause with
          | none =>
              rw [hCause] at hOld
              exact hOld
          | some cause =>
              rw [hCause] at hOld
              cases cause with
              | ownerGone => rfl
              | _ => exact hOld
        cases hPhase : g.phase with
        | killing pid =>
            rw [hPhase] at hFits
            rcases hFits with ⟨birth, hChild, hOld, hCause⟩
            exact ⟨birth, hChild, hOld, hCauses _ hCause⟩
        | waiting pid =>
            rw [hPhase] at hFits
            rcases hFits with
              ⟨birth, hChild, hOld, hCause, hNone⟩
            exact ⟨birth, hChild, hOld, hCauses _ hCause,
              hNone⟩
        | _ =>
            rw [hPhase] at hFits
            exact hFits
  | check =>
      simp only [step] at hStep
      split at hStep <;> [rename_i hPhase; cases hStep]
      cases hStep
      rw [PhaseFits, hPhase] at hFits
      refine
        { coherent := hInv.coherent, runs := hInv.runs
          noticed := hInv.noticed, phase := ?_ }
      cases g.noticed with
      | true =>
          intro pid birth hChild
          rw [hFits] at hChild
          cases hChild
      | false => exact hFits
  | spawn pid started =>
      simp only [step] at hStep
      split at hStep <;> [rename_i hPhase; cases hStep]
      split at hStep
      · exact spawn_inv hInv hStep
      · cases hStep
        rw [PhaseFits, hPhase] at hFits
        refine
          { coherent := hInv.coherent, runs := hInv.runs
            noticed := hInv.noticed
            phase := fun pid birth hChild => ?_ }
        rw [hFits] at hChild
        cases hChild
  | receive =>
      simp only [step] at hStep
      split at hStep <;> [rename_i pid hPhase; cases hStep]
      cases hStep
      rw [PhaseFits, hPhase] at hFits
      rcases hFits with ⟨birth, hChild, hStarted⟩
      split
      · rename_i hNoticed
        exact leaveLoop_inv hInv hChild hStarted hNoticed
      · exact
          { coherent := hInv.coherent, runs := hInv.runs
            noticed := hInv.noticed
            phase := ⟨birth, hChild, hStarted⟩ }
  | ask fails =>
      simp only [step] at hStep
      split at hStep <;> [rename_i pid hPhase; cases hStep]
      cases hStep
      rw [PhaseFits, hPhase] at hFits
      rcases hFits with ⟨birth, hChild, hStarted⟩
      split
      · exact leaveLoop_inv hInv hChild hStarted trivial
      · exact ask_inv hInv hChild hStarted
  | kill =>
      simp only [step] at hStep
      split at hStep <;> [rename_i pid hPhase; cases hStep]
      rcases Option.map_eq_some_iff.mp hStep with
        ⟨table, hKill, rfl⟩
      rw [PhaseFits, hPhase] at hFits
      rcases hFits with ⟨birth, hChild, hStarted, hCause⟩
      exact kill_inv hInv hChild hStarted hCause hKill
  | wait fails =>
      simp only [step] at hStep
      split at hStep <;> [rename_i pid hPhase; cases hStep]
      rw [PhaseFits, hPhase] at hFits
      rcases hFits with
        ⟨birth, hChild, hStarted, hCause, hNone⟩
      split at hStep
      · cases hStep
        refine
          { coherent := hInv.coherent, runs := hInv.runs
            noticed := hInv.noticed
            phase := fun pid' birth' hSame => ?_ }
        rw [hChild] at hSame
        cases hSame
        exact ⟨hStarted.early, hNone, trivial⟩
      · exact wait_inv hInv hChild hStarted hCause hNone
          hStep

theorem reachable_inv
    {table : ProcessTable (Option Int)}
    (hCoherent : table.Coherent)
    (hRuns : table.runs guardian = true)
    (hReachable : (machine guardian table).Reachable g) :
    g.Inv guardian :=
  hReachable.invariant (initial_inv hCoherent hRuns)
    (fun _ _ _ hInv _ hStep => step_inv hInv hStep)

end Guardian

end DevTunnel

end Sshdt

------------------------------------------------------------
-- Whom The Signal Reaches
------------------------------------------------------------

namespace Sshdt

namespace DevTunnel

namespace Guardian

variable {guardian : Pid}
variable {table : ProcessTable (Option Int)}
variable {g h : Guardian}

/-
  What the signal of a guardian does. It is sent while the
  child still has its number, and only after the owner is
  gone, reading from it or asking for the child has failed,
  or the child has ended. It ends the group that the child
  has founded and no process of another group, in particular
  not the guardian.
-/
structure KillsOwnGroup
    (guardian : Pid)
    (g h : Guardian)
    (pid : Pid)
    (birth : Nat) : Prop where
  child : g.child = some (pid, birth)
  unreaped : g.table.Child guardian pid birth
  cause : g.CauseFits birth
  owner :
    g.noticed = true →
      g.ownerOpen = false ∨ g.readFailed = true
  group : h.table.NoneRuns birth
  others :
    ∀ p ∈ g.table.processes, p.founder ≠ birth →
      ∃ q ∈ h.table.processes, q = { p with parent := q.parent }
  alive : h.table.runs guardian = true

/-
  In every run, whatever the other processes do and however
  the numbers of processes are reused.
-/
theorem kills_own_group
    (hCoherent : table.Coherent)
    (hRuns : table.runs guardian = true)
    (hReachable : (machine guardian table).Reachable g)
    (hStep : g.step guardian .kill = some h) :
    ∃ pid birth,
      g.phase = .killing pid ∧
        KillsOwnGroup guardian g h pid birth := by
  have hInv := reachable_inv hCoherent hRuns hReachable
  have hAfter := step_inv hInv hStep
  have hFits := hInv.phase
  simp only [step] at hStep
  split at hStep <;> [rename_i pid hPhase; cases hStep]
  rcases Option.map_eq_some_iff.mp hStep with
    ⟨table', hKill, rfl⟩
  rw [PhaseFits, hPhase] at hFits
  rcases hFits with ⟨birth, hChild, hStarted, hCause⟩
  exact ⟨pid, birth, hPhase,
    { child := hChild, unreaped := hStarted.there
      cause := hCause, owner := hInv.noticed
      group := ProcessTable.kill_noneRuns hInv.coherent
        hStarted.there hKill
      others := fun p hMem hOther =>
        ProcessTable.kill_spares hInv.coherent
          hStarted.there hMem hOther hKill
      alive := hAfter.runs }⟩

/- The guardian 10 and a process of another group. -/
def sampleTable : ProcessTable (Option Int) where
  processes :=
    [{ pid := 10, birth := 0, parent := 5, group := 10
       founder := 0, ended := none },
      { pid := 20, birth := 1, parent := 5, group := 20
        founder := 1, ended := none }]
  next := 2

theorem sampleTable_coherent : sampleTable.Coherent where
  unique := by decide
  births := by decide
  pids := by decide
  groups := by decide
  leads := by decide

/-
  The child 30 starts a child of its own and ends, and the
  owner goes.
-/
def orphanEvents : List Event :=
  [.check, .spawn 30 true, .outside (.fork 30 31),
    .receive, .ask false, .ownerCloses, .notices false,
    .outside (.exits 30 (some 4)), .receive]

theorem orphanEvents_kill :
    ∃ g h,
      (machine 10 sampleTable).exec (initial sampleTable)
          orphanEvents = some g ∧
        g.step 10 .kill = some h ∧
        g.table.runs 31 = true ∧ h.table.runs 20 = true ∧
        ∃ pid birth,
          g.phase = .killing pid ∧
            KillsOwnGroup 10 g h pid birth := by
  have hBefore :
      ((machine 10 sampleTable).exec (initial sampleTable)
          orphanEvents).map
        (fun g => g.table.runs 31) = some true := by
    decide
  rcases Option.map_eq_some_iff.mp hBefore with
    ⟨g, hRun, hDescendant⟩
  have hKill :
      ((machine 10 sampleTable).exec (initial sampleTable)
          (orphanEvents ++ [.kill])).map
        (fun h => h.table.runs 20) = some true := by
    decide
  rcases Option.map_eq_some_iff.mp hKill with
    ⟨h, hBoth, hOther⟩
  rcases Machine.exec_append.mp hBoth with ⟨g', hFirst, hLast⟩
  rw [hRun] at hFirst
  cases hFirst
  have hStep : g.step 10 .kill = some h := by
    rw [Machine.exec_singleton] at hLast
    exact hLast
  exact ⟨g, h, hRun, hStep, hDescendant, hOther,
    kills_own_group sampleTable_coherent (by decide)
      (.exec .init (Machine.meetsAll_true _ _) hRun) hStep⟩

/-
  After the return nothing of the group runs, unless another
  process came in after the signal. The child was reaped, and
  a code is that of the child: 1 if a signal has ended it,
  and its own code if it had ended before.
-/
theorem leaves_nothing_running
    {pid : Pid}
    {birth : Nat}
    {result : Except Unit Int}
    (hCoherent : table.Coherent)
    (hRuns : table.runs guardian = true)
    (hReachable : (machine guardian table).Reachable g)
    (hPhase : g.phase = .returned result)
    (hChild : g.child = some (pid, birth)) :
    (g.entered = false → g.table.NoneRuns birth) ∧
      g.ResultFits birth result := by
  have hFits :=
    (reachable_inv hCoherent hRuns hReachable).phase
  rw [PhaseFits, hPhase] at hFits
  exact (hFits pid birth hChild).2

/- The number 30 is used again after the return. -/
def reuseEvents : List Event :=
  orphanEvents ++
    [.kill, .outside (.reap 1 31), .wait false,
      .outside (.fork 20 30)]

theorem reuseEvents_code :
    ∃ g,
      (machine 10 sampleTable).exec (initial sampleTable)
          reuseEvents = some g ∧
        g.table.runs 30 = true ∧
        (g.entered = false → g.table.NoneRuns 2) ∧
        g.ResultFits 2 (.ok 4) := by
  have hState :
      ((machine 10 sampleTable).exec (initial sampleTable)
          reuseEvents).map
        (fun g => (g.table.runs 30, g.phase, g.child)) =
          some (true, .returned (.ok 4), some (30, 2)) := by
    decide
  rcases Option.map_eq_some_iff.mp hState with
    ⟨g, hRun, hEq⟩
  rcases Prod.mk.inj hEq with ⟨hReused, hRest⟩
  rcases Prod.mk.inj hRest with ⟨hPhase, hChild⟩
  exact ⟨g, hRun, hReused,
    leaves_nothing_running sampleTable_coherent (by decide)
      (.exec .init (Machine.meetsAll_true _ _) hRun) hPhase
      hChild⟩

end Guardian

end DevTunnel

end Sshdt

------------------------------------------------------------
-- The End Of The Owner
------------------------------------------------------------

namespace Sshdt

namespace DevTunnel

namespace Guardian

variable {guardian : Pid}
variable {table : ProcessTable (Option Int)}
variable {g h : Guardian}

/- The event is a step of the guardian's main thread. -/
def Event.own : Event → Bool
| .outside _ | .ownerCloses | .notices _ => false
| _ => true

/- The event is an error. -/
def Event.fails : Event → Bool
| .notices readError => readError
| .spawn _ started => !started
| .ask fails | .wait fails => fails
| _ => false

/- The steps that are left once the message was sent. -/
def left : GuardianPhase → Nat
| .checking => 1
| .spawning => 4
| .receiving _ => 3
| .asking _ => 4
| .killing _ => 2
| .waiting _ => 1
| .returned _ => 0

theorem left_le
    (phase : GuardianPhase) :
    left phase ≤ 4 := by
  cases phase <;> simp [left]

/- Only the guardian's own steps change its phase. -/
theorem step_foreign
    {e : Event}
    (hForeign : e.own = false)
    (hNoticed : g.noticed = true)
    (hStep : g.step guardian e = some h) :
    h.phase = g.phase ∧ h.noticed = true := by
  cases e with
  | outside e =>
      simp only [step, outsideStep] at hStep
      split at hStep <;> [skip; cases hStep]
      split at hStep <;> cases hStep
      exact ⟨rfl, hNoticed⟩
  | ownerCloses =>
      simp only [step] at hStep
      split at hStep <;> cases hStep
      exact ⟨rfl, hNoticed⟩
  | notices readError =>
      simp only [step, hNoticed] at hStep
      split at hStep <;> cases hStep
      exact ⟨rfl, rfl⟩
  | _ => cases hForeign

/- `waitid` leads out of the loop or back to the channel. -/
theorem left_askStep
    (pid : Pid) :
    left (g.askStep guardian pid).phase ≤ 3 ∧
      (g.askStep guardian pid).noticed = g.noticed := by
  unfold askStep
  split
  · split
    · split
      · exact ⟨by simp [leaveLoop, left], rfl⟩
      · exact ⟨by simp [left], rfl⟩
    · exact ⟨by simp [leaveLoop, left], rfl⟩
  · exact ⟨by simp [leaveLoop, left], rfl⟩

/- A step of its own brings the guardian nearer to its end. -/
theorem step_left
    {e : Event}
    (hOwn : e.own = true)
    (hNoticed : g.noticed = true)
    (hStep : g.step guardian e = some h) :
    left h.phase < left g.phase ∧ h.noticed = true := by
  cases e with
  | outside e => cases hOwn
  | ownerCloses => cases hOwn
  | notices readError => cases hOwn
  | check =>
      simp only [step, hNoticed] at hStep
      split at hStep <;> [rename_i hPhase; cases hStep]
      cases hStep
      exact ⟨by simp [hPhase, left], rfl⟩
  | spawn pid started =>
      simp only [step, spawnStep] at hStep
      split at hStep <;> [rename_i hPhase; cases hStep]
      split at hStep
      · rcases Option.bind_eq_some_iff.mp hStep with
          ⟨forked, _, hRest⟩
        rcases Option.map_eq_some_iff.mp hRest with
          ⟨_, _, rfl⟩
        exact ⟨by simp [hPhase, left], hNoticed⟩
      · cases hStep
        exact ⟨by simp [hPhase, left], hNoticed⟩
  | receive =>
      simp only [step, hNoticed, if_true] at hStep
      split at hStep <;> [rename_i pid hPhase; cases hStep]
      cases hStep
      exact ⟨by simp [leaveLoop, hPhase, left], hNoticed⟩
  | ask fails =>
      simp only [step] at hStep
      split at hStep <;> [rename_i pid hPhase; cases hStep]
      cases hStep
      rcases @left_askStep guardian g pid with
        ⟨hLeft, hSame⟩
      cases fails with
      | true =>
          exact ⟨by simp [leaveLoop, hPhase, left], hNoticed⟩
      | false =>
          simp only [Bool.false_eq_true, if_false, hPhase]
          exact ⟨Nat.lt_succ_of_le hLeft,
            hSame.trans hNoticed⟩
  | kill =>
      simp only [step] at hStep
      split at hStep <;> [rename_i pid hPhase; cases hStep]
      rcases Option.map_eq_some_iff.mp hStep with
        ⟨_, _, rfl⟩
      exact ⟨by simp [hPhase, left], hNoticed⟩
  | wait fails =>
      simp only [step, waitStep] at hStep
      split at hStep <;> [rename_i pid hPhase; cases hStep]
      split at hStep
      · cases hStep
        exact ⟨by simp [hPhase, left], hNoticed⟩
      · split at hStep <;> [skip; cases hStep]
        split at hStep <;> [skip; cases hStep]
        rcases Option.map_eq_some_iff.mp hStep with
          ⟨_, _, rfl⟩
        exact ⟨by simp [hPhase, left], hNoticed⟩

/-
  A guardian that waits for a child which escaped its
  signal: the child had left its own group before.
-/
def ChildEscaped
    (g : Guardian) : Prop :=
  ∃ pid birth,
    g.phase = .waiting pid ∧ g.child = some (pid, birth) ∧
      ∃ p ∈ g.table.processes,
        p.birth = birth ∧ p.ended = none ∧
          (p.founder ≠ birth ∨ g.entered = true)

/- A guardian finds a number for its child. -/
theorem spawnStep_isSome
    {pid : Pid}
    (hInv : g.Inv guardian)
    (hUnused : g.table.unused pid = true) :
    (g.spawnStep guardian pid).isSome = true := by
  rcases ProcessTable.spawn_isSome none hInv.coherent
      hInv.runs hUnused with
    ⟨forked, table, hFork, hLead⟩
  simp [spawnStep, hFork, hLead]

/-
  A guardian can go on without an error, unless its child
  escaped.
-/
theorem Inv.goesOn
    (hInv : g.Inv guardian)
    (hOpen : ∀ result, g.phase ≠ .returned result) :
    g.ChildEscaped ∨
      ∃ e : Event, e.own = true ∧ e.fails = false ∧
        (g.step guardian e).isSome = true := by
  have hFits := hInv.phase
  cases hPhase : g.phase with
  | checking =>
      exact Or.inr ⟨.check, rfl, rfl, by simp [step, hPhase]⟩
  | spawning =>
      rcases ProcessTable.exists_unused g.table with
        ⟨pid, hUnused⟩
      refine Or.inr ⟨.spawn pid true, rfl, rfl, ?_⟩
      simpa [step, hPhase] using
        spawnStep_isSome hInv hUnused
  | receiving pid =>
      exact Or.inr ⟨.receive, rfl, rfl,
        by simp [step, hPhase]⟩
  | asking pid =>
      exact Or.inr ⟨.ask false, rfl, rfl,
        by simp [step, hPhase]⟩
  | killing pid =>
      exact Or.inr ⟨.kill, rfl, rfl,
        by simp [step, hPhase, ProcessTable.step]⟩
  | returned result => exact absurd hPhase (hOpen result)
  | waiting pid =>
      rw [PhaseFits, hPhase] at hFits
      rcases hFits with ⟨birth, hChild, hStarted, _, hNone⟩
      rcases hStarted.there with
        ⟨p, hMem, hPid, hBirth, hParent⟩
      have hFind :=
        ProcessTable.find_eq_some hInv.coherent hMem
      rw [hPid] at hFind
      cases hEnded : p.ended with
      | some status =>
          refine Or.inr ⟨.wait false, rfl, rfl, ?_⟩
          simp [step, hPhase, waitStep, hFind, hEnded,
            ProcessTable.step, hParent]
      | none =>
          refine Or.inl ⟨pid, birth, hPhase, hChild, p, hMem,
            hBirth, hEnded, ?_⟩
          by_contra hNot
          push Not at hNot
          exact hNone (by simpa using hNot.2) p hMem hNot.1
            hEnded

/-
  The owner takes the guardian and its child with it.

  Once the thread has noticed that the owner is gone, the
  guardian takes four more steps at most, whatever the other
  processes do in between, and it can always take one that
  is no error until it has returned, unless it waits for a
  child that had left its group before the signal.
-/
theorem ends_with_owner
    {es : List Event}
    (hCoherent : table.Coherent)
    (hRuns : table.runs guardian = true)
    (hReachable : (machine guardian table).Reachable g)
    (hNoticed : g.noticed = true)
    (hExec : (machine guardian table).exec g es = some h) :
    left g.phase ≤ 4 ∧
      es.countP Event.own + left h.phase ≤ left g.phase ∧
      ((∃ result, h.phase = .returned result) ∨
        h.ChildEscaped ∨
        ∃ e : Event, e.own = true ∧ e.fails = false ∧
          (h.step guardian e).isSome = true) := by
  refine ⟨left_le _, ?_⟩
  induction es generalizing g with
  | nil =>
      simp only [Machine.exec, Option.some.injEq] at hExec
      subst hExec
      refine ⟨by simp, ?_⟩
      by_cases hEnd : ∃ result, g.phase = .returned result
      · exact Or.inl hEnd
      · push Not at hEnd
        exact Or.inr ((reachable_inv hCoherent hRuns
          hReachable).goesOn hEnd)
  | cons e es ih =>
      rcases Machine.exec_cons.mp hExec with
        ⟨t, hStep, hRest⟩
      have hNext := Machine.Reaches.step hReachable trivial
        hStep
      cases hOwn : e.own with
      | true =>
          rcases step_left hOwn hNoticed hStep with
            ⟨hLess, hStill⟩
          rcases ih hNext hStill hRest with ⟨hBound, hEnd⟩
          refine ⟨?_, hEnd⟩
          rw [List.countP_cons, if_pos hOwn]
          omega
      | false =>
          rcases step_foreign hOwn hNoticed hStep with
            ⟨hSame, hStill⟩
          rcases ih hNext hStill hRest with ⟨hBound, hEnd⟩
          refine ⟨?_, hEnd⟩
          rw [List.countP_cons, if_neg (by simp [hOwn])]
          rw [hSame] at hBound
          omega

/- The owner goes while the child runs. -/
def closingEvents : List Event :=
  [.check, .spawn 30 true, .outside (.fork 30 31),
    .receive, .ownerCloses, .notices false]

/- The rest of the run, next to other processes. -/
def endingEvents : List Event :=
  [.ask false, .outside (.fork 20 21), .receive, .kill,
    .outside (.exits 20 none), .wait false]

theorem endingEvents_end :
    ∃ g h,
      (machine 10 sampleTable).exec (initial sampleTable)
          closingEvents = some g ∧
        (machine 10 sampleTable).exec g endingEvents =
          some h ∧
        left g.phase ≤ 4 ∧
        endingEvents.countP Event.own + left h.phase ≤
          left g.phase ∧
        ((∃ result, h.phase = .returned result) ∨
          h.ChildEscaped ∨
          ∃ e : Event, e.own = true ∧ e.fails = false ∧
            (h.step 10 e).isSome = true) := by
  have hBefore :
      ((machine 10 sampleTable).exec (initial sampleTable)
          closingEvents).map
        Guardian.noticed = some true := by
    decide
  rcases Option.map_eq_some_iff.mp hBefore with
    ⟨g, hRun, hNoticed⟩
  have hBoth :
      ((machine 10 sampleTable).exec (initial sampleTable)
        (closingEvents ++ endingEvents)).isSome = true := by
    decide
  rcases Option.isSome_iff_exists.mp hBoth with ⟨h, hAll⟩
  rcases Machine.exec_append.mp hAll with ⟨r, hFirst, hRest⟩
  rw [hRun] at hFirst
  cases hFirst
  exact ⟨g, h, hRun, hRest,
    ends_with_owner sampleTable_coherent (by decide)
      (.exec .init (Machine.meetsAll_true _ _) hRun) hNoticed
      hRest⟩

end Guardian

end DevTunnel

end Sshdt
