import Mathlib.Logic.Function.Basic

/-
  Exclusive locks on files.

  A lock is taken without waiting or not at all, and belongs
  to a holder until it is given back. Closing the file gives
  it back too, so the end of a process releases everything
  that the process holds.

  Key definitions include:
    * `FileLock`
    * `FileLock.openCreate`
    * `FileLock.tryLock`
    * `FileLock.release`

  Key theorems include:
    * `FileLock.held_of_tryLock`
    * `FileLock.held_tryLock`
    * `FileLock.held_release`
    * `FileLock.of_held_tryLock`
    * `FileLock.of_held_release`
-/

------------------------------------------------------------
-- Lock Files
------------------------------------------------------------

/- The file under a name, as far as its lock goes. -/
inductive FileLock (H : Type) where
  | missing
  | free
  | held (holder : H)
  deriving DecidableEq, Repr

namespace FileLock

variable {N H : Type}
variable [DecidableEq N]

/- The file is there. -/
def created : FileLock H → FileLock H
| missing => free
| lock => lock

/- Open a file, creating it if it is missing. -/
def openCreate
    (locks : N → FileLock H)
    (name : N) : N → FileLock H :=
  Function.update locks name (locks name).created

/- `try_lock`, which would block on a lock that is held. -/
def tryLock
    (locks : N → FileLock H)
    (name : N)
    (holder : H) : Option (N → FileLock H) :=
  match locks name with
  | .free =>
      some (Function.update locks name (.held holder))
  | _ => none

/- Give back every lock of a holder. -/
def release
    [DecidableEq H]
    (locks : N → FileLock H)
    (holder : H) : N → FileLock H :=
  fun name =>
    if locks name = .held holder then .free else locks name

end FileLock

------------------------------------------------------------
-- Held Locks
------------------------------------------------------------

namespace FileLock

variable {N H : Type}
variable [DecidableEq N]
variable {locks locks' : N → FileLock H}
variable {name other : N}
variable {holder held' : H}

/- Opening a file leaves every held lock alone. -/
theorem held_openCreate
    (hHeld : locks other = .held held') :
    openCreate locks name other = .held held' := by
  unfold openCreate
  by_cases hName : other = name
  · subst hName
    rw [Function.update_self, hHeld]
    rfl
  · rw [Function.update_of_ne hName]
    exact hHeld

/- A lock that is taken is held. -/
theorem held_of_tryLock
    (hTry : tryLock locks name holder = some locks') :
    locks' name = .held holder := by
  unfold tryLock at hTry
  split at hTry
  · cases hTry
    rw [Function.update_self]
  · cases hTry

/- Taking a lock leaves every held lock alone. -/
theorem held_tryLock
    (hTry : tryLock locks name holder = some locks')
    (hHeld : locks other = .held held') :
    locks' other = .held held' := by
  unfold tryLock at hTry
  split at hTry
  · rename_i hFree
    cases hTry
    have hNe : other ≠ name := by
      rintro rfl
      rw [hFree] at hHeld
      cases hHeld
    rw [Function.update_of_ne hNe]
    exact hHeld
  · cases hTry

omit [DecidableEq N] in
/- Giving locks back leaves the locks of others alone. -/
theorem held_release
    [DecidableEq H]
    (hOther : held' ≠ holder)
    (hHeld : locks name = .held held') :
    release locks holder name = .held held' := by
  unfold release
  rw [if_neg (by simp [hHeld, hOther])]
  exact hHeld

/- Opening a file does not lock it. -/
theorem of_held_openCreate
    (hHeld : openCreate locks name other = .held held') :
    locks other = .held held' := by
  unfold openCreate at hHeld
  by_cases hName : other = name
  · rw [hName] at hHeld ⊢
    rw [Function.update_self] at hHeld
    cases hLock : locks name with
    | missing =>
        rw [hLock] at hHeld
        cases hHeld
    | free =>
        rw [hLock] at hHeld
        cases hHeld
    | held user =>
        rw [hLock] at hHeld
        exact hHeld
  · rwa [Function.update_of_ne hName] at hHeld

/- Taking a lock locks this one only. -/
theorem of_held_tryLock
    (hTry : tryLock locks name holder = some locks')
    (hHeld : locks' other = .held held') :
    locks other = .held held' ∨
      other = name ∧ held' = holder := by
  unfold tryLock at hTry
  split at hTry <;> cases hTry
  by_cases hName : other = name
  · rw [hName, Function.update_self] at hHeld
    cases hHeld
    exact Or.inr ⟨hName, rfl⟩
  · rw [Function.update_of_ne hName] at hHeld
    exact Or.inl hHeld

omit [DecidableEq N] in
/- What was given back is not held any more. -/
theorem of_held_release
    [DecidableEq H]
    (hHeld : release locks holder name = .held held') :
    held' ≠ holder ∧ locks name = .held held' := by
  unfold release at hHeld
  split at hHeld
  · cases hHeld
  · rename_i hNot
    refine ⟨?_, hHeld⟩
    intro hSame
    exact hNot (hSame ▸ hHeld)

end FileLock
