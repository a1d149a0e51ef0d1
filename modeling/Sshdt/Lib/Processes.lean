import Mathlib.Algebra.Order.BigOperators.Group.List
import Mathlib.Algebra.Order.Group.Nat
import Mathlib.Data.List.Basic

/-
  Processes, their groups and the reuse of process numbers.

  A process keeps its number until its parent has reaped it,
  and a number is given out again only when neither a process
  nor a group goes by it. A process may found a group under
  its own number or join a group that has members; its
  children start in its group. A signal to a group ends all
  members that run. The children of a process that has ended
  are adopted.

  Numbers are reused and births are not: `birth` tells two
  processes of one number apart, and `founder` is the birth
  of the process that founded a group.

  Key definitions include:
    * `ProcessTable`
    * `ProcessTable.step`
    * `ProcessTable.Coherent`
    * `ProcessTable.Child`
    * `ProcessTable.NoneRuns`

  Key theorems include:
    * `ProcessTable.step_coherent`
    * `ProcessTable.step_source`
    * `ProcessTable.Coherent.group_iff`
    * `ProcessTable.Child.step`
    * `ProcessTable.EndedWith.step`
    * `ProcessTable.NoneRuns.step`
-/

------------------------------------------------------------
-- Tables And Their Steps
------------------------------------------------------------

/- A process number, which is also that of a group. -/
abbrev Pid := Nat

/- The process that adopts children. -/
def initPid : Pid :=
  1

/- `ended` is the status of a process that has ended. -/
structure Process (σ : Type) where
  pid : Pid
  birth : Nat
  parent : Pid
  group : Pid
  founder : Nat
  ended : Option σ
  deriving DecidableEq, Repr

/- The processes not reaped yet, and the next birth. -/
structure ProcessTable (σ : Type) where
  processes : List (Process σ)
  next : Nat
  deriving DecidableEq, Repr

/- What processes do, and what is done to them. -/
inductive ProcessStep (σ : Type) where
  | fork (parent child : Pid)
  | lead (pid : Pid)
  | join (pid group : Pid)
  | exits (pid : Pid) (status : σ)
  | kill (group : Pid)
  | reap (parent pid : Pid)
  deriving DecidableEq, Repr

/- The process that takes a step; a signal may be sent by any. -/
def ProcessStep.actor
    {σ : Type} : ProcessStep σ → Option Pid
| .fork parent _ => some parent
| .lead pid | .join pid _ | .exits pid _ => some pid
| .kill _ => none
| .reap parent _ => some parent

namespace ProcessTable

variable {σ : Type}

/- The process with a number. -/
def find
    (t : ProcessTable σ)
    (pid : Pid) : Option (Process σ) :=
  t.processes.find? (fun p => p.pid = pid)

/- A process with this number runs. -/
def runs
    (t : ProcessTable σ)
    (pid : Pid) : Bool :=
  t.processes.any fun p => p.pid = pid ∧ p.ended.isNone

/- Neither a process nor a group goes by a number. -/
def unused
    (t : ProcessTable σ)
    (pid : Pid) : Bool :=
  initPid < pid ∧
    t.processes.all fun p => p.pid ≠ pid ∧ p.group ≠ pid

/- Some processes that run end, and lose their children. -/
def endThose
    (t : ProcessTable σ)
    (who : Process σ → Bool)
    (status : σ) : ProcessTable σ :=
  let gone := t.processes.filter fun p =>
    p.ended.isNone ∧ who p
  { t with
    processes := t.processes.map fun p =>
      { p with
        ended :=
          if p.ended.isNone ∧ who p then
            some status
          else
            p.ended
        parent :=
          if gone.any (fun q => q.pid = p.parent) then
            initPid
          else
            p.parent } }

/- A process moves to another group. -/
def regroup
    (t : ProcessTable σ)
    (pid group : Pid)
    (founder : Nat) : ProcessTable σ :=
  { t with
    processes := t.processes.map fun p =>
      if p.pid = pid then { p with group, founder } else p }

/- One step; `killed` is the status that a signal leaves. -/
def step
    (killed : σ)
    (t : ProcessTable σ) :
    ProcessStep σ → Option (ProcessTable σ)
| .fork parent child =>
    match t.find parent with
    | some p =>
        if p.ended.isNone ∧ t.unused child = true then
          some
            { processes :=
                { pid := child
                  birth := t.next
                  parent
                  group := p.group
                  founder := p.founder
                  ended := none } :: t.processes
              next := t.next + 1 }
        else
          none
    | none => none
| .lead pid =>
    match t.find pid with
    | some p =>
        if p.ended.isNone then
          some (t.regroup pid pid p.birth)
        else
          none
    | none => none
| .join pid group =>
    match t.processes.find? (fun p => p.group = group) with
    | some member =>
        if t.runs pid then
          some (t.regroup pid group member.founder)
        else
          none
    | none => none
| .exits pid status =>
    if t.runs pid then
      some (t.endThose (fun p => p.pid = pid) status)
    else
      none
| .kill group =>
    some (t.endThose (fun p => p.group = group) killed)
| .reap parent pid =>
    match t.find pid with
    | some p =>
        if p.ended.isSome ∧ p.parent = parent then
          some
            { t with
              processes :=
                t.processes.filter fun p => p.pid ≠ pid }
        else
          none
    | none => none

end ProcessTable

------------------------------------------------------------
-- Coherence
------------------------------------------------------------

namespace ProcessTable

variable {σ : Type}
variable {killed : σ}
variable {t u : ProcessTable σ}
variable {e : ProcessStep σ}

/-
  Numbers and births identify processes, and a group number
  stands for one founder as long as the group has members.
-/
structure Coherent
    (t : ProcessTable σ) : Prop where
  unique :
    ∀ p ∈ t.processes, ∀ q ∈ t.processes,
      p.birth = q.birth → p = q
  births :
    ∀ p ∈ t.processes, p.birth < t.next ∧ p.founder < t.next
  pids :
    ∀ p ∈ t.processes, ∀ q ∈ t.processes,
      p.pid = q.pid ↔ p.birth = q.birth
  groups :
    ∀ p ∈ t.processes, ∀ q ∈ t.processes,
      p.group = q.group ↔ p.founder = q.founder
  leads :
    ∀ p ∈ t.processes, ∀ q ∈ t.processes,
      q.group = p.pid ↔ q.founder = p.birth

theorem mem_of_find
    {p : Process σ}
    {pid : Pid}
    (hFind : t.find pid = some p) :
    p ∈ t.processes ∧ p.pid = pid := by
  refine ⟨List.mem_of_find?_eq_some hFind, ?_⟩
  simpa using List.find?_some hFind

theorem unused_iff
    {pid : Pid} :
    t.unused pid = true ↔
      initPid < pid ∧
        ∀ p ∈ t.processes, p.pid ≠ pid ∧ p.group ≠ pid := by
  simp [unused]

/- Only who has what number in what group matters. -/
theorem Coherent.image
    {f : Process σ → Process σ}
    (hCoherent : t.Coherent)
    (hNext : u.next = t.next)
    (hKeeps :
      ∀ p, (f p).pid = p.pid ∧ (f p).birth = p.birth ∧
        (f p).group = p.group ∧ (f p).founder = p.founder)
    (hSource :
      ∀ p ∈ u.processes, ∃ q ∈ t.processes, f q = p) :
    u.Coherent := by
  rcases hCoherent with
    ⟨hUnique, hBirths, hPids, hGroups, hLeads⟩
  refine ⟨?_, ?_, ?_, ?_, ?_⟩
  · intro p hp p' hp' hBirth
    rcases hSource p hp with ⟨q, hq, rfl⟩
    rcases hSource p' hp' with ⟨q', hq', rfl⟩
    rw [(hKeeps q).2.1, (hKeeps q').2.1] at hBirth
    rw [hUnique q hq q' hq' hBirth]
  · intro p hp
    rcases hSource p hp with ⟨q, hq, rfl⟩
    rw [(hKeeps q).2.1, (hKeeps q).2.2.2, hNext]
    exact hBirths q hq
  · intro p hp p' hp'
    rcases hSource p hp with ⟨q, hq, rfl⟩
    rcases hSource p' hp' with ⟨q', hq', rfl⟩
    rw [(hKeeps q).1, (hKeeps q').1, (hKeeps q).2.1,
      (hKeeps q').2.1]
    exact hPids q hq q' hq'
  · intro p hp p' hp'
    rcases hSource p hp with ⟨q, hq, rfl⟩
    rcases hSource p' hp' with ⟨q', hq', rfl⟩
    rw [(hKeeps q).2.2.1, (hKeeps q').2.2.1,
      (hKeeps q).2.2.2, (hKeeps q').2.2.2]
    exact hGroups q hq q' hq'
  · intro p hp p' hp'
    rcases hSource p hp with ⟨q, hq, rfl⟩
    rcases hSource p' hp' with ⟨q', hq', rfl⟩
    rw [(hKeeps q).1, (hKeeps q).2.1, (hKeeps q').2.2.1,
      (hKeeps q').2.2.2]
    exact hLeads q hq q' hq'

theorem endThose_coherent
    {who : Process σ → Bool}
    {status : σ}
    (hCoherent : t.Coherent) :
    (t.endThose who status).Coherent := by
  refine hCoherent.image rfl ?_
    (fun _ hp => List.mem_map.mp hp)
  exact fun _ => ⟨rfl, rfl, rfl, rfl⟩

/-
  A process moves to a group whose number and founder agree
  with all that is known about groups.
-/
theorem regroup_coherent
    {pid group : Pid}
    {founder : Nat}
    (hCoherent : t.Coherent)
    (hFounder : founder < t.next)
    (hMembers :
      ∀ q ∈ t.processes,
        q.group = group ↔ q.founder = founder)
    (hLeader :
      ∀ q ∈ t.processes,
        group = q.pid ↔ founder = q.birth) :
    (t.regroup pid group founder).Coherent := by
  rcases hCoherent with
    ⟨hUnique, hBirths, hPids, hGroups, hLeads⟩
  -- A process of the new table, and where it comes from.
  have hSource :
      ∀ p ∈ (t.regroup pid group founder).processes,
        ∃ q ∈ t.processes,
          q.pid = p.pid ∧ q.birth = p.birth ∧
            (p.group = q.group ∧ p.founder = q.founder ∨
              p.group = group ∧ p.founder = founder) := by
    intro p hp
    rcases List.mem_map.mp hp with ⟨q, hq, rfl⟩
    refine ⟨q, hq, ?_⟩
    split
    · exact ⟨rfl, rfl, Or.inr ⟨rfl, rfl⟩⟩
    · exact ⟨rfl, rfl, Or.inl ⟨rfl, rfl⟩⟩
  refine ⟨?_, ?_, ?_, ?_, ?_⟩
  · intro p hp p' hp' hBirth
    rcases List.mem_map.mp hp with ⟨q, hq, rfl⟩
    rcases List.mem_map.mp hp' with ⟨q', hq', rfl⟩
    have hSame : q.birth = q'.birth := by
      split at hBirth <;> split at hBirth <;> exact hBirth
    rw [hUnique q hq q' hq' hSame]
  · intro p hp
    rcases hSource p hp with ⟨q, hq, _, hBirth, hGroup⟩
    rw [← hBirth]
    refine ⟨(hBirths q hq).1, ?_⟩
    rcases hGroup with ⟨_, hOld⟩ | ⟨_, hNew⟩
    · rw [hOld]
      exact (hBirths q hq).2
    · rw [hNew]
      exact hFounder
  · intro p hp p' hp'
    rcases hSource p hp with ⟨q, hq, hPid, hBirth, _⟩
    rcases hSource p' hp' with ⟨q', hq', hPid', hBirth', _⟩
    rw [← hPid, ← hPid', ← hBirth, ← hBirth']
    exact hPids q hq q' hq'
  · intro p hp p' hp'
    rcases hSource p hp with ⟨q, hq, _, _, hGroup⟩
    rcases hSource p' hp' with ⟨q', hq', _, _, hGroup'⟩
    rcases hGroup with ⟨hOld, hOldF⟩ | ⟨hNew, hNewF⟩ <;>
      rcases hGroup' with ⟨hOld', hOldF'⟩ | ⟨hNew', hNewF'⟩
    · rw [hOld, hOld', hOldF, hOldF']
      exact hGroups q hq q' hq'
    · rw [hOld, hNew', hOldF, hNewF']
      exact hMembers q hq
    · rw [hNew, hOld', hNewF, hOldF', eq_comm,
        eq_comm (a := founder)]
      exact hMembers q' hq'
    · rw [hNew, hNew', hNewF, hNewF']
      exact ⟨fun _ => rfl, fun _ => rfl⟩
  · intro p hp p' hp'
    rcases hSource p hp with ⟨q, hq, hPid, hBirth, _⟩
    rcases hSource p' hp' with ⟨q', hq', _, _, hGroup'⟩
    rw [← hPid, ← hBirth]
    rcases hGroup' with ⟨hOld', hOldF'⟩ | ⟨hNew', hNewF'⟩
    · rw [hOld', hOldF']
      exact hLeads q hq q' hq'
    · rw [hNew', hNewF']
      exact hLeader q hq

/- A child is born into the group of its parent. -/
theorem fork_coherent
    {parent child : Pid}
    (hCoherent : t.Coherent)
    (hStep : t.step killed (.fork parent child) = some u) :
    u.Coherent := by
  simp only [step] at hStep
  split at hStep <;> [rename_i p hFind; cases hStep]
  split at hStep <;> [rename_i hMay; cases hStep]
  cases hStep
  rcases hCoherent with
    ⟨hUnique, hBirths, hPids, hGroups, hLeads⟩
  have hParent := (mem_of_find hFind).1
  have hFresh := (unused_iff.mp hMay.2).2
  refine ⟨?_, ?_, ?_, ?_, ?_⟩
  · intro q hq q' hq' hBirth
    rcases List.mem_cons.mp hq with rfl | hq <;>
      rcases List.mem_cons.mp hq' with rfl | hq'
    · rfl
    · have hOld := (hBirths q' hq').1
      simp only at hBirth
      omega
    · have hOld := (hBirths q hq).1
      simp only at hBirth
      omega
    · exact hUnique q hq q' hq' hBirth
  · intro q hq
    rcases List.mem_cons.mp hq with rfl | hq
    · exact ⟨Nat.lt_succ_self _,
        Nat.lt_succ_of_lt (hBirths p hParent).2⟩
    · exact ⟨Nat.lt_succ_of_lt (hBirths q hq).1,
        Nat.lt_succ_of_lt (hBirths q hq).2⟩
  · intro q hq q' hq'
    rcases List.mem_cons.mp hq with rfl | hq <;>
      rcases List.mem_cons.mp hq' with rfl | hq'
    · simp
    · have hNew := (hFresh q' hq').1
      have hOld := (hBirths q' hq').1
      constructor <;> intro hEq <;> simp only at hEq
      · exact absurd hEq.symm hNew
      · omega
    · have hNew := (hFresh q hq).1
      have hOld := (hBirths q hq).1
      constructor <;> intro hEq <;> simp only at hEq
      · exact absurd hEq hNew
      · omega
    · exact hPids q hq q' hq'
  · intro q hq q' hq'
    rcases List.mem_cons.mp hq with rfl | hq <;>
      rcases List.mem_cons.mp hq' with rfl | hq'
    · simp
    · exact hGroups p hParent q' hq'
    · exact hGroups q hq p hParent
    · exact hGroups q hq q' hq'
  · intro q hq q' hq'
    rcases List.mem_cons.mp hq with rfl | hq <;>
      rcases List.mem_cons.mp hq' with rfl | hq'
    · have hNew := (hFresh p hParent).2
      have hOld := (hBirths p hParent).2
      constructor <;> intro hEq <;> simp only at hEq
      · exact absurd hEq hNew
      · omega
    · have hNew := (hFresh q' hq').2
      have hOld := (hBirths q' hq').2
      constructor <;> intro hEq <;> simp only at hEq
      · exact absurd hEq hNew
      · omega
    · exact hLeads q hq p hParent
    · exact hLeads q hq q' hq'

/- Every step keeps a table coherent. -/
theorem step_coherent
    (hCoherent : t.Coherent)
    (hStep : t.step killed e = some u) :
    u.Coherent := by
  cases e with
  | fork parent child => exact fork_coherent hCoherent hStep
  | lead pid =>
      simp only [step] at hStep
      split at hStep <;> [rename_i p hFind; cases hStep]
      split at hStep <;> cases hStep
      rcases mem_of_find hFind with ⟨hMem, rfl⟩
      exact regroup_coherent hCoherent
        (hCoherent.births p hMem).1
        (fun q hq => hCoherent.leads p hMem q hq)
        (fun q hq => hCoherent.pids p hMem q hq)
  | join pid group =>
      simp only [step] at hStep
      split at hStep <;> [rename_i member hFind; cases hStep]
      split at hStep <;> cases hStep
      have hMem := List.mem_of_find?_eq_some hFind
      have hGroup : member.group = group := by
        simpa using List.find?_some hFind
      rw [← hGroup]
      exact regroup_coherent hCoherent
        (hCoherent.births member hMem).2
        (fun q hq => hCoherent.groups q hq member hMem)
        (fun q hq => hCoherent.leads q hq member hMem)
  | exits pid status =>
      simp only [step] at hStep
      split at hStep <;> cases hStep
      exact endThose_coherent hCoherent
  | kill group =>
      cases hStep
      exact endThose_coherent hCoherent
  | reap parent pid =>
      simp only [step] at hStep
      split at hStep <;> [skip; cases hStep]
      split at hStep <;> cases hStep
      exact hCoherent.image (f := fun p => p) rfl
        (fun _ => ⟨rfl, rfl, rfl, rfl⟩)
        (fun p hp => ⟨p, (List.mem_filter.mp hp).1, rfl⟩)

end ProcessTable

------------------------------------------------------------
-- Children And Groups
------------------------------------------------------------

namespace ProcessTable

variable {σ : Type}
variable {killed : σ}
variable {t u : ProcessTable σ}
variable {e : ProcessStep σ}

/- A child that was not reaped, by number and birth. -/
def Child
    (t : ProcessTable σ)
    (parent pid : Pid)
    (birth : Nat) : Prop :=
  ∃ p ∈ t.processes,
    p.pid = pid ∧ p.birth = birth ∧ p.parent = parent

/-
  Before a child is reaped, the group under its number has
  the members that its own group has.
-/
theorem Coherent.group_iff
    {parent pid : Pid}
    {birth : Nat}
    {p : Process σ}
    (hCoherent : t.Coherent)
    (hChild : t.Child parent pid birth)
    (hMem : p ∈ t.processes) :
    p.group = pid ↔ p.founder = birth := by
  rcases hChild with ⟨leader, hLeader, rfl, rfl, _⟩
  exact hCoherent.leads leader hLeader p hMem

theorem runs_iff
    {pid : Pid} :
    t.runs pid = true ↔
      ∃ p ∈ t.processes, p.pid = pid ∧ p.ended = none := by
  simp [runs]

/- Numbers do not run out. -/
theorem exists_unused
    (t : ProcessTable σ) :
    ∃ pid, t.unused pid = true := by
  -- A number larger than all that are in use.
  let used : List Nat :=
    t.processes.map fun p => p.pid + p.group
  have hSum : ∀ n ∈ used, n ≤ used.sum :=
    fun _ hMem => List.le_sum_of_mem hMem
  have hLess : ∀ n ≤ used.sum, n ≠ used.sum + 2 := by omega
  refine ⟨used.sum + 2, unused_iff.mpr
    ⟨Nat.lt_add_left _ Nat.one_lt_two, fun p hp => ?_⟩⟩
  have hLe := hSum _ (List.mem_map_of_mem hp)
  exact ⟨hLess _ ((Nat.le_add_right _ _).trans hLe),
    hLess _ ((Nat.le_add_left _ _).trans hLe)⟩

/- A process is found under its number. -/
theorem find_eq_some
    {p : Process σ}
    (hCoherent : t.Coherent)
    (hMem : p ∈ t.processes) :
    t.find p.pid = some p := by
  have hSome : (t.find p.pid).isSome = true :=
    List.find?_isSome.mpr ⟨p, hMem, by simp⟩
  rcases Option.isSome_iff_exists.mp hSome with ⟨q, hFind⟩
  rcases mem_of_find hFind with ⟨hq, hPid⟩
  rw [hFind, hCoherent.unique q hq p hMem
    ((hCoherent.pids q hq p hMem).mp hPid)]

/- The parent is not among those that end. -/
theorem endThose_child
    {who : Process σ → Bool}
    {status : σ}
    {parent pid : Pid}
    {birth : Nat}
    (hCoherent : t.Coherent)
    (hChild : t.Child parent pid birth)
    (hRuns : (t.endThose who status).runs parent = true) :
    (t.endThose who status).Child parent pid birth := by
  rcases hChild with ⟨p, hMem, hPid, hBirth, hParent⟩
  refine ⟨_, List.mem_map_of_mem hMem, hPid, hBirth, ?_⟩
  rw [if_neg, hParent]
  simp only [List.any_eq_true, List.mem_filter,
    decide_eq_true_eq]
  rintro ⟨q, ⟨hq, hEnds⟩, hqPid⟩
  rcases runs_iff.mp hRuns with ⟨r', hr', hrPid, hOpen⟩
  rcases List.mem_map.mp hr' with ⟨r, hr, rfl⟩
  have hSame : r = q := by
    refine hCoherent.unique r hr q hq
      ((hCoherent.pids r hr q hq).mp ?_)
    rw [hqPid, hParent]
    exact hrPid
  subst hSame
  simp only [if_pos hEnds] at hOpen
  cases hOpen

/-
  A child keeps its number until its parent has reaped it,
  as long as the parent runs.
-/
theorem Child.step
    {parent pid : Pid}
    {birth : Nat}
    (hChild : t.Child parent pid birth)
    (hCoherent : t.Coherent)
    (hReap : e ≠ .reap parent pid)
    (hStep : t.step killed e = some u)
    (hRuns : u.runs parent = true) :
    u.Child parent pid birth := by
  rcases hChild with ⟨p, hMem, hPid, hBirth, hParent⟩
  -- To change groups is nothing to the child.
  have hRegroup :
      ∀ who group founder,
        (t.regroup who group founder).Child parent pid
          birth := by
    intro who group founder
    refine ⟨_, List.mem_map_of_mem hMem, ?_⟩
    split <;> exact ⟨hPid, hBirth, hParent⟩
  cases e with
  | fork from_ child =>
      simp only [ProcessTable.step] at hStep
      split at hStep <;> [skip; cases hStep]
      split at hStep <;> cases hStep
      exact ⟨p, List.mem_cons_of_mem _ hMem, hPid, hBirth,
        hParent⟩
  | lead who =>
      simp only [ProcessTable.step] at hStep
      split at hStep <;> [skip; cases hStep]
      split at hStep <;> cases hStep
      exact hRegroup _ _ _
  | join who group =>
      simp only [ProcessTable.step] at hStep
      split at hStep <;> [skip; cases hStep]
      split at hStep <;> cases hStep
      exact hRegroup _ _ _
  | exits who status =>
      simp only [ProcessTable.step] at hStep
      split at hStep <;> cases hStep
      exact endThose_child hCoherent
        ⟨p, hMem, hPid, hBirth, hParent⟩ hRuns
  | kill group =>
      cases hStep
      exact endThose_child hCoherent
        ⟨p, hMem, hPid, hBirth, hParent⟩ hRuns
  | reap reaper who =>
      simp only [ProcessTable.step] at hStep
      split at hStep <;> [rename_i q hFind; cases hStep]
      split at hStep <;> [rename_i hEnded; cases hStep]
      cases hStep
      rcases mem_of_find hFind with ⟨hq, hqPid⟩
      refine ⟨p, List.mem_filter.mpr ⟨hMem, ?_⟩, hPid, hBirth,
        hParent⟩
      simp only [ne_eq, decide_eq_true_eq]
      intro hWho
      have hSame : p = q :=
        hCoherent.unique p hMem q hq
          ((hCoherent.pids p hMem q hq).mp
            (hWho.trans hqPid.symm))
      apply hReap
      rw [← hEnded.2, ← hSame, hParent, ← hWho, hPid]

/-
  Where a process of the next table comes from: it was born
  in this step, or it was there before. It ends once, and
  changes its group only by a step of its own.
-/
theorem step_source
    {p : Process σ}
    (hStep : t.step killed e = some u)
    (hMem : p ∈ u.processes) :
    (p.birth = t.next ∧ t.unused p.pid = true) ∨
      ∃ q ∈ t.processes,
        q.pid = p.pid ∧ q.birth = p.birth ∧
          (q.ended ≠ none → p.ended = q.ended) ∧
          (e.actor ≠ some q.pid →
            p.founder = q.founder) := by
  have hThose :
      ∀ (who : Process σ → Bool) (status : σ),
        p ∈ (t.endThose who status).processes →
        ∃ q ∈ t.processes,
          q.pid = p.pid ∧ q.birth = p.birth ∧
            (q.ended ≠ none → p.ended = q.ended) ∧
            (e.actor ≠ some q.pid →
              p.founder = q.founder) := by
    intro who status hp
    rcases List.mem_map.mp hp with ⟨q, hq, rfl⟩
    refine ⟨q, hq, rfl, rfl, fun hEnded => ?_, fun _ => rfl⟩
    simp [hEnded]
  have hRegroup :
      ∀ pid group founder, e.actor = some pid →
        p ∈ (t.regroup pid group founder).processes →
        ∃ q ∈ t.processes,
          q.pid = p.pid ∧ q.birth = p.birth ∧
            (q.ended ≠ none → p.ended = q.ended) ∧
            (e.actor ≠ some q.pid →
              p.founder = q.founder) := by
    intro pid group founder hActor hp
    rcases List.mem_map.mp hp with ⟨q, hq, rfl⟩
    refine ⟨q, hq, ?_⟩
    split
    · rename_i hPid
      refine ⟨rfl, rfl, fun _ => rfl, fun hOther => ?_⟩
      rw [hActor, hPid] at hOther
      exact absurd rfl hOther
    · exact ⟨rfl, rfl, fun _ => rfl, fun _ => rfl⟩
  cases e with
  | fork parent child =>
      simp only [ProcessTable.step] at hStep
      split at hStep <;> [skip; cases hStep]
      split at hStep <;> [rename_i hMay; cases hStep]
      cases hStep
      rcases List.mem_cons.mp hMem with rfl | hOld
      · exact Or.inl ⟨rfl, hMay.2⟩
      · exact Or.inr ⟨p, hOld, rfl, rfl, fun _ => rfl,
          fun _ => rfl⟩
  | lead pid =>
      simp only [ProcessTable.step] at hStep
      split at hStep <;> [skip; cases hStep]
      split at hStep <;> cases hStep
      exact Or.inr (hRegroup _ _ _ rfl hMem)
  | join pid group =>
      simp only [ProcessTable.step] at hStep
      split at hStep <;> [skip; cases hStep]
      split at hStep <;> cases hStep
      exact Or.inr (hRegroup _ _ _ rfl hMem)
  | exits pid status =>
      simp only [ProcessTable.step] at hStep
      split at hStep <;> cases hStep
      exact Or.inr (hThose _ _ hMem)
  | kill group =>
      cases hStep
      exact Or.inr (hThose _ _ hMem)
  | reap parent pid =>
      simp only [ProcessTable.step] at hStep
      split at hStep <;> [skip; cases hStep]
      split at hStep <;> cases hStep
      exact Or.inr ⟨p, (List.mem_filter.mp hMem).1, rfl, rfl,
        fun _ => rfl, fun _ => rfl⟩

theorem step_next
    (hStep : t.step killed e = some u) :
    t.next ≤ u.next := by
  cases e with
  | fork parent child =>
      simp only [ProcessTable.step] at hStep
      split at hStep <;> [skip; cases hStep]
      split at hStep <;> cases hStep
      exact Nat.le_succ _
  | kill group =>
      cases hStep
      exact Nat.le_refl _
  | exits pid status =>
      simp only [ProcessTable.step] at hStep
      split at hStep <;> cases hStep
      exact Nat.le_refl _
  | _ =>
      simp only [ProcessTable.step] at hStep
      split at hStep <;> [skip; cases hStep]
      split at hStep <;> cases hStep
      exact Nat.le_refl _

/- The process of a birth has ended, and how. -/
def EndedWith
    (t : ProcessTable σ)
    (birth : Nat)
    (status : σ) : Prop :=
  ∀ p ∈ t.processes,
    p.birth = birth → p.ended = some status

/- A process ends once. -/
theorem EndedWith.step
    {birth : Nat}
    {status : σ}
    (hEnded : t.EndedWith birth status)
    (hBirth : birth < t.next)
    (hStep : t.step killed e = some u) :
    u.EndedWith birth status := by
  intro p hp hSame
  rcases step_source hStep hp with
    ⟨hNew, _⟩ | ⟨q, hq, _, hOld, hKept, _⟩
  · omega
  · have hStatus := hEnded q hq (hOld.trans hSame)
    rw [hKept (by simp [hStatus]), hStatus]

/- The process of a birth was reaped. -/
def Gone
    (t : ProcessTable σ)
    (birth : Nat) : Prop :=
  ∀ p ∈ t.processes, p.birth ≠ birth

theorem Gone.step
    {birth : Nat}
    (hGone : t.Gone birth)
    (hBirth : birth < t.next)
    (hStep : t.step killed e = some u) :
    u.Gone birth := by
  intro p hp hSame
  rcases step_source hStep hp with
    ⟨hNew, _⟩ | ⟨q, hq, _, hOld, _⟩
  · omega
  · exact hGone q hq (hOld.trans hSame)

/- A child that is reaped is gone. -/
theorem reap_gone
    {parent pid : Pid}
    {birth : Nat}
    (hCoherent : t.Coherent)
    (hChild : t.Child parent pid birth)
    (hStep : t.step killed (.reap parent pid) = some u) :
    u.Gone birth := by
  rcases hChild with ⟨p, hMem, hPid, hBirth, _⟩
  simp only [ProcessTable.step] at hStep
  split at hStep <;> [skip; cases hStep]
  split at hStep <;> cases hStep
  intro q hq hSame
  rcases List.mem_filter.mp hq with ⟨hOld, hNot⟩
  have hEq := hCoherent.unique q hOld p hMem
    (hSame.trans hBirth.symm)
  rw [hEq, hPid] at hNot
  simp at hNot

/-
  A child that founds a group of its own at once: the other
  processes stay as they are.
-/
theorem spawn_group
    {f : ProcessTable σ}
    {parent child : Pid}
    (hCoherent : t.Coherent)
    (hFork : t.step killed (.fork parent child) = some f)
    (hLead : f.step killed (.lead child) = some u) :
    u.Child parent child t.next ∧ t.next < u.next ∧
      ∀ p, p ∈ t.processes ↔
        p ∈ u.processes ∧ p.birth ≠ t.next := by
  simp only [ProcessTable.step] at hFork
  split at hFork <;> [rename_i q hFind; cases hFork]
  split at hFork <;> [rename_i hMay; cases hFork]
  cases hFork
  have hFresh := (unused_iff.mp hMay.2).2
  simp only [ProcessTable.step, find, List.find?_cons,
    decide_true, Option.isNone_none, if_true,
    Option.some.injEq] at hLead
  subst hLead
  have hOld :
      ∀ p ∈ t.processes,
        (if p.pid = child then
          { p with group := child, founder := t.next }
        else p) = p :=
    fun p hp => if_neg (hFresh p hp).1
  refine ⟨⟨_, List.mem_map_of_mem List.mem_cons_self, ?_⟩,
    Nat.lt_succ_self _, fun p => ⟨fun hp => ⟨?_, ?_⟩, ?_⟩⟩
  · simp
  · exact List.mem_map.mpr
      ⟨p, List.mem_cons_of_mem _ hp, hOld p hp⟩
  · exact Nat.ne_of_lt (hCoherent.births p hp).1
  · rintro ⟨hp, hBirth⟩
    rcases List.mem_map.mp hp with ⟨r, hr, rfl⟩
    rcases List.mem_cons.mp hr with rfl | hr
    · simp at hBirth
    · rw [hOld r hr]
      exact hr

/- A process that runs can have such a child. -/
theorem spawn_isSome
    (killed : σ)
    {parent child : Pid}
    (hCoherent : t.Coherent)
    (hRuns : t.runs parent = true)
    (hUnused : t.unused child = true) :
    ∃ f u,
      t.step killed (.fork parent child) = some f ∧
        f.step killed (.lead child) = some u := by
  rcases runs_iff.mp hRuns with ⟨p, hMem, hPid, hEnded⟩
  have hFind := find_eq_some hCoherent hMem
  rw [hPid] at hFind
  simp only [step, hFind, hEnded, hUnused]
  simp [find]

/- No member of a group runs. -/
def NoneRuns
    (t : ProcessTable σ)
    (founder : Nat) : Prop :=
  ∀ p ∈ t.processes, p.founder = founder → p.ended ≠ none

/- A process enters the group that was founded by a birth. -/
def enters
    (t : ProcessTable σ)
    (founder : Nat) : ProcessStep σ → Bool
| .join _ group =>
    t.processes.any fun p =>
      p.group = group ∧ p.founder = founder
| .lead pid =>
    t.processes.any fun p =>
      p.pid = pid ∧ p.birth = founder
| _ => false

theorem endThose_noneRuns
    {who : Process σ → Bool}
    {status : σ}
    {founder : Nat}
    (hNone : t.NoneRuns founder) :
    (t.endThose who status).NoneRuns founder := by
  intro p hp hFounder
  rcases List.mem_map.mp hp with ⟨q, hq, rfl⟩
  simp only
  split
  · simp
  · exact hNone q hq hFounder

theorem regroup_noneRuns
    {pid group : Pid}
    {founder founder' : Nat}
    (hNone : t.NoneRuns founder)
    (hOther : founder' ≠ founder) :
    (t.regroup pid group founder').NoneRuns founder := by
  intro p hp hFounder
  rcases List.mem_map.mp hp with ⟨q, hq, rfl⟩
  split at hFounder
  · exact absurd hFounder hOther
  · rename_i hPid
    rw [if_neg hPid]
    exact hNone q hq hFounder

/-
  A group none of whose members runs stays so until a
  process from outside enters it.
-/
theorem NoneRuns.step
    {founder : Nat}
    (hNone : t.NoneRuns founder)
    (hStep : t.step killed e = some u)
    (hEnters : t.enters founder e = false) :
    u.NoneRuns founder := by
  cases e with
  | fork parent child =>
      simp only [ProcessTable.step] at hStep
      split at hStep <;> [rename_i p hFind; cases hStep]
      split at hStep <;> [rename_i hMay; cases hStep]
      cases hStep
      intro q hq hFounder
      rcases List.mem_cons.mp hq with rfl | hq
      · exact absurd (Option.isNone_iff_eq_none.mp hMay.1)
          (hNone p (mem_of_find hFind).1 hFounder)
      · exact hNone q hq hFounder
  | lead pid =>
      simp only [ProcessTable.step] at hStep
      split at hStep <;> [rename_i p hFind; cases hStep]
      split at hStep <;> cases hStep
      refine regroup_noneRuns hNone ?_
      simp only [enters, List.any_eq_false,
        decide_eq_true_eq] at hEnters
      rcases mem_of_find hFind with ⟨hMem, hPid⟩
      exact fun h => hEnters p hMem ⟨hPid, h⟩
  | join pid group =>
      simp only [ProcessTable.step] at hStep
      split at hStep <;> [rename_i p hFind; cases hStep]
      split at hStep <;> cases hStep
      refine regroup_noneRuns hNone ?_
      simp only [enters, List.any_eq_false,
        decide_eq_true_eq] at hEnters
      have hGroup : p.group = group := by
        simpa using List.find?_some hFind
      exact fun h => hEnters p
        (List.mem_of_find?_eq_some hFind) ⟨hGroup, h⟩
  | exits pid status =>
      simp only [ProcessTable.step] at hStep
      split at hStep <;> cases hStep
      exact endThose_noneRuns hNone
  | kill group =>
      cases hStep
      exact endThose_noneRuns hNone
  | reap parent pid =>
      simp only [ProcessTable.step] at hStep
      split at hStep <;> [skip; cases hStep]
      split at hStep <;> cases hStep
      intro p hp
      exact hNone p (List.mem_filter.mp hp).1

/-
  A process of another group survives a signal. It may get
  another parent.
-/
theorem kill_spares
    {parent pid : Pid}
    {birth : Nat}
    {p : Process σ}
    (hCoherent : t.Coherent)
    (hChild : t.Child parent pid birth)
    (hMem : p ∈ t.processes)
    (hOther : p.founder ≠ birth)
    (hStep : t.step killed (.kill pid) = some u) :
    ∃ q ∈ u.processes, q = { p with parent := q.parent } := by
  cases hStep
  refine ⟨_, List.mem_map_of_mem hMem, ?_⟩
  have hGroup : p.group ≠ pid :=
    fun h => hOther ((hCoherent.group_iff hChild hMem).mp h)
  simp [hGroup]

/- After a signal no member of the group runs. -/
theorem kill_noneRuns
    {parent pid : Pid}
    {birth : Nat}
    (hCoherent : t.Coherent)
    (hChild : t.Child parent pid birth)
    (hStep : t.step killed (.kill pid) = some u) :
    u.NoneRuns birth := by
  cases hStep
  intro p hp hFounder
  rcases List.mem_map.mp hp with ⟨q, hq, rfl⟩
  have hGroup := (hCoherent.group_iff hChild hq).mpr hFounder
  simp only
  split
  · simp
  · rename_i hNot
    intro hOpen
    exact hNot ⟨by simp [hOpen], by simpa using hGroup⟩

end ProcessTable
