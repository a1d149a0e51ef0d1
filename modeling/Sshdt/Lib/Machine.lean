import Mathlib.Data.List.Induction

/-
  Event-driven machines and the clock they read.

  A machine has one initial state and a partial step
  function. An event that is not enabled in a state is
  refused there, so a run is a list of events none of which
  is refused. Nondeterminism of the environment (the answer
  of an operating-system call, the order of tasks) is data
  carried by the events.

  A run may be restricted by a condition on each step. The
  unrestricted case is `Machine.Reachable`.

  Key definitions include:
    * `Machine`
    * `Machine.exec`
    * `Machine.Reaches`
    * `Machine.Reachable`
    * `Machine.MeetsAll`
    * `Machine.final`

  Key theorems include:
    * `Machine.Reaches.invariant`
    * `Machine.reaches_final`
    * `Machine.exec_append`
    * `Machine.exec_history`
    * `Machine.exec_history_meets`
-/

------------------------------------------------------------
-- Machines
------------------------------------------------------------

/-
  A deterministic transition system whose events may be
  refused.
-/
structure Machine (σ ε : Type) where
  init : σ
  step : σ → ε → Option σ

namespace Machine

variable {σ ε : Type}

/- Run a list of events from a state. -/
def exec
    (M : Machine σ ε) :
    σ → List ε → Option σ
| s, [] => some s
| s, e :: es =>
    match M.step s e with
    | none => none
    | some t => M.exec t es

/-
  The states reached by runs from the initial state whose
  every step meets the condition `ok`.
-/
inductive Reaches
    (M : Machine σ ε)
    (ok : σ → ε → Prop) : σ → Prop
| init : Reaches M ok M.init
| step
    {s t : σ}
    {e : ε}
    (hReaches : Reaches M ok s)
    (hOk : ok s e)
    (hStep : M.step s e = some t) :
    Reaches M ok t

/- The states reached by arbitrary runs. -/
abbrev Reachable
    (M : Machine σ ε) : σ → Prop :=
  M.Reaches (fun _ _ => True)

/-
  Every step of a list of events meets `ok` in the state
  where it is taken. Nothing is asked after a refused event.
-/
def MeetsAll
    (M : Machine σ ε)
    (ok : σ → ε → Prop) :
    σ → List ε → Prop
| _, [] => True
| s, e :: es =>
    ok s e ∧
      match M.step s e with
      | none => True
      | some t => M.MeetsAll ok t es

instance decidableMeetsAll
    (M : Machine σ ε)
    (ok : σ → ε → Prop)
    [∀ s e, Decidable (ok s e)] :
    (s : σ) → (es : List ε) →
      Decidable (M.MeetsAll ok s es)
| _, [] => .isTrue trivial
| s, e :: es =>
    match hStep : M.step s e with
    | none =>
        decidable_of_iff (ok s e) (by
          simp [MeetsAll, hStep])
    | some t =>
        have := decidableMeetsAll M ok t es
        decidable_of_iff
          (ok s e ∧ M.MeetsAll ok t es) (by
            simp [MeetsAll, hStep])

end Machine

------------------------------------------------------------
-- Invariants
------------------------------------------------------------

namespace Machine

variable {σ ε : Type}
variable {M : Machine σ ε}
variable {ok : σ → ε → Prop}

/-
  The invariant rule: a property of the initial state that
  every permitted step preserves holds in every state
  reached.
-/
theorem Reaches.invariant
    {I : σ → Prop}
    {s : σ}
    (hReaches : M.Reaches ok s)
    (hInit : I M.init)
    (hStep :
      ∀ s e t, I s → ok s e → M.step s e = some t → I t) :
    I s := by
  induction hReaches with
  | init => exact hInit
  | step _ hOk hNext ih => exact hStep _ _ _ ih hOk hNext

/- Executing permitted events stays within reach. -/
theorem Reaches.exec
    {s t : σ}
    {es : List ε}
    (hReaches : M.Reaches ok s)
    (hMeets : M.MeetsAll ok s es)
    (hExec : M.exec s es = some t) :
    M.Reaches ok t := by
  induction es generalizing s with
  | nil =>
      simp only [Machine.exec, Option.some.injEq] at hExec
      exact hExec ▸ hReaches
  | cons e es ih =>
      cases hStep : M.step s e with
      | none => simp [Machine.exec, hStep] at hExec
      | some u =>
          simp only [MeetsAll, hStep] at hMeets
          simp only [Machine.exec, hStep] at hExec
          exact ih (.step hReaches hMeets.1 hStep)
            hMeets.2 hExec

/- Every list of events meets the trivial condition. -/
theorem meetsAll_true
    (s : σ)
    (es : List ε) :
    M.MeetsAll (fun _ _ => True) s es := by
  induction es generalizing s with
  | nil => trivial
  | cons e es ih =>
      refine ⟨trivial, ?_⟩
      cases M.step s e with
      | none => trivial
      | some t => exact ih t

/- The last state of an execution that is not refused. -/
def final
    (M : Machine σ ε)
    (es : List ε)
    (hExec : (M.exec M.init es).isSome = true) : σ :=
  (M.exec M.init es).get hExec

/- The end of a permitted execution is reached. -/
theorem reaches_final
    (es : List ε)
    (hExec : (M.exec M.init es).isSome = true)
    (hMeets : M.MeetsAll ok M.init es) :
    M.Reaches ok (M.final es hExec) :=
  Reaches.exec .init hMeets (Option.some_get hExec).symm

/- The end of an execution is reachable. -/
theorem reachable_final
    (es : List ε)
    (hExec : (M.exec M.init es).isSome = true) :
    M.Reachable (M.final es hExec) :=
  reaches_final es hExec (meetsAll_true _ es)

end Machine

------------------------------------------------------------
-- Histories
------------------------------------------------------------

namespace Machine

variable {σ ε : Type}
variable {M : Machine σ ε}

/- A run takes its first event, then the others. -/
theorem exec_cons
    {s u : σ}
    {e : ε}
    {es : List ε} :
    M.exec s (e :: es) = some u ↔
      ∃ t, M.step s e = some t ∧ M.exec t es = some u := by
  cases hStep : M.step s e with
  | none => simp [exec, hStep]
  | some t => simp [exec, hStep]

/- A run of two lists is a run of each, one after another. -/
theorem exec_append
    {s u : σ}
    {es es' : List ε} :
    M.exec s (es ++ es') = some u ↔
      ∃ t, M.exec s es = some t ∧ M.exec t es' = some u := by
  induction es generalizing s with
  | nil => simp [exec]
  | cons e es ih =>
      rw [List.cons_append, exec_cons]
      constructor
      · rintro ⟨t, hStep, hRest⟩
        rcases ih.mp hRest with ⟨u, hMiddle, hLast⟩
        exact ⟨u, exec_cons.mpr ⟨t, hStep, hMiddle⟩, hLast⟩
      · rintro ⟨u, hFirst, hLast⟩
        rcases exec_cons.mp hFirst with ⟨t, hStep, hMiddle⟩
        exact ⟨t, hStep, ih.mpr ⟨u, hMiddle, hLast⟩⟩

@[simp]
theorem exec_singleton
    (s : σ)
    (e : ε) :
    M.exec s [e] = M.step s e := by
  cases hStep : M.step s e with
  | none => simp [exec, hStep]
  | some t => simp [exec, hStep]

/-
  The history rule: a relation between the events taken and
  the state reached that holds at the start and is kept by
  one more step holds of every run.
-/
theorem exec_history
    {P : List ε → σ → Prop}
    {es : List ε}
    {s : σ}
    (hExec : M.exec M.init es = some s)
    (hInit : P [] M.init)
    (hStep :
      ∀ es s e t, M.exec M.init es = some s → P es s →
        M.step s e = some t → P (es ++ [e]) t) :
    P es s := by
  induction es using List.reverseRecOn generalizing s with
  | nil =>
      simp only [exec, Option.some.injEq] at hExec
      exact hExec ▸ hInit
  | append_singleton es e ih =>
      rcases exec_append.mp hExec with ⟨r, hPre, hLast⟩
      rw [exec_singleton] at hLast
      exact hStep es r e s hPre (ih hPre) hLast

/- A permitted run of one more event is a permitted run. -/
theorem meetsAll_concat
    {ok : σ → ε → Prop}
    {s t : σ}
    {es : List ε}
    {e : ε}
    (hExec : M.exec s es = some t)
    (hMeets : M.MeetsAll ok s (es ++ [e])) :
    M.MeetsAll ok s es ∧ ok t e := by
  induction es generalizing s with
  | nil =>
      simp only [exec, Option.some.injEq] at hExec
      subst hExec
      exact ⟨trivial, hMeets.1⟩
  | cons e' es ih =>
      rcases exec_cons.mp hExec with ⟨u, hStep, hRest⟩
      simp only [List.cons_append, MeetsAll,
        hStep] at hMeets ⊢
      rcases ih hRest hMeets.2 with ⟨hBefore, hLast⟩
      exact ⟨⟨hMeets.1, hBefore⟩, hLast⟩

theorem MeetsAll.concat
    {ok : σ → ε → Prop}
    {s t : σ}
    {es : List ε}
    {e : ε}
    (hMeets : M.MeetsAll ok s es)
    (hExec : M.exec s es = some t)
    (hOk : ok t e) :
    M.MeetsAll ok s (es ++ [e]) := by
  induction es generalizing s with
  | nil =>
      simp only [exec, Option.some.injEq] at hExec
      subst hExec
      refine ⟨hOk, ?_⟩
      cases M.step s e <;> trivial
  | cons e' es ih =>
      rcases exec_cons.mp hExec with ⟨u, hStep, hRest⟩
      simp only [List.cons_append, MeetsAll,
        hStep] at hMeets ⊢
      exact ⟨hMeets.1, ih hMeets.2 hRest⟩

/- Conditions that agree on the steps taken agree on a run. -/
theorem meetsAll_congr
    {ok ok' : σ → ε → Prop}
    {s t : σ}
    {es : List ε}
    (hSame :
      ∀ s e t, M.step s e = some t → (ok s e ↔ ok' s e))
    (hExec : M.exec s es = some t) :
    M.MeetsAll ok s es ↔ M.MeetsAll ok' s es := by
  induction es generalizing s with
  | nil => exact Iff.rfl
  | cons e es ih =>
      rcases exec_cons.mp hExec with ⟨u, hStep, hRest⟩
      simp only [MeetsAll, hStep]
      rw [hSame s e u hStep, ih hRest]

/- The history rule for runs whose steps meet a condition. -/
theorem exec_history_meets
    {ok : σ → ε → Prop}
    {P : List ε → σ → Prop}
    {es : List ε}
    {s : σ}
    (hExec : M.exec M.init es = some s)
    (hMeets : M.MeetsAll ok M.init es)
    (hInit : P [] M.init)
    (hStep :
      ∀ es s e t, M.exec M.init es = some s → P es s →
        ok s e → M.step s e = some t → P (es ++ [e]) t) :
    P es s := by
  revert hMeets
  apply exec_history hExec
  · intro _
    exact hInit
  · intro es s e t hPre ih hNext hMeets
    rcases meetsAll_concat hPre hMeets with ⟨hBefore, hOk⟩
    exact hStep es s e t hPre (ih hBefore) hOk hNext

end Machine

------------------------------------------------------------
-- Clocks
------------------------------------------------------------

/- A point of the monotonic clock, in nanoseconds. -/
abbrev Instant := Nat

/- A span of time, in nanoseconds. -/
abbrev Duration := Nat

/- `Duration::from_secs`. -/
def Duration.fromSecs
    (secs : Nat) : Duration :=
  secs * 1000000000
