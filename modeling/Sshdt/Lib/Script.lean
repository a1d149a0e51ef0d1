import Mathlib.Data.List.Basic

/-
  Programs that talk to their surroundings in questions and
  replies.

  A script asks a question, goes on with whatever reply it
  gets, and ends with a value or an error. Nothing is known
  about the replies, so what is proved of a script holds for
  every sequence of them. A question may be judged by all
  that was asked and replied before it.

  Key definitions include:
    * `Script`
    * `Script.bind`
    * `Script.history`
    * `Script.pending`
    * `Script.outcome`
    * `Script.All`

  Key theorems include:
    * `Script.All.bind`
    * `Script.All.pending`
    * `Script.All.outcome`
    * `Script.pending_or_outcome`
-/

------------------------------------------------------------
-- Scripts And Their Runs
------------------------------------------------------------

/- A program over questions, replies and errors. -/
inductive Script (Q R E α : Type) where
  | done (a : α)
  | fail (e : E)
  | ask (q : Q) (k : R → Script Q R E α)

namespace Script

variable {Q R E α β : Type}

/- Continue with the value of a script. -/
def bind :
    Script Q R E α → (α → Script Q R E β) → Script Q R E β
  | .done a, f => f a
  | .fail e, _ => .fail e
  | .ask q k, f => .ask q fun r => (k r).bind f

instance instMonad : Monad (Script Q R E) where
  pure := .done
  bind := bind

/- The questions asked and the replies they got. -/
def history :
    Script Q R E α → List R → List (Q × R)
  | .ask q k, r :: replies => (q, r) :: (k r).history replies
  | _, _ => []

/- The question that is asked after the replies. -/
def pending :
    Script Q R E α → List R → Option Q
  | .ask q _, [] => some q
  | .ask _ k, r :: replies => (k r).pending replies
  | .done _, _ => none
  | .fail _, _ => none

/- How the script ends after exactly these replies. -/
def outcome :
    Script Q R E α → List R → Option (Except E α)
  | .ask _ k, r :: replies => (k r).outcome replies
  | .done a, [] => some (.ok a)
  | .fail e, [] => some (.error e)
  | _, _ => none

end Script

------------------------------------------------------------
-- What All Runs Have In Common
------------------------------------------------------------

namespace Script

variable {Q R E α β : Type}
variable {P : List (Q × R) → Q → Prop}
variable {T U : List (Q × R) → α → Prop}
variable {V : List (Q × R) → β → Prop}

/-
  From a history on, every question asked meets `P` of what
  was said before it, and every value meets `T` of all that
  was said.
-/
def All
    (P : List (Q × R) → Q → Prop)
    (T : List (Q × R) → α → Prop) :
    List (Q × R) → Script Q R E α → Prop
  | h, .done a => T h a
  | _, .fail _ => True
  | h, .ask q k => P h q ∧ ∀ r, All P T (h ++ [(q, r)]) (k r)

/- Sequencing: the second part starts from the first's end. -/
theorem All.bind
    {h : List (Q × R)}
    {s : Script Q R E α}
    {f : α → Script Q R E β}
    (hFirst : All P T h s)
    (hSecond : ∀ h a, T h a → All P V h (f a)) :
    All P V h (s >>= f) := by
  induction s generalizing h with
  | done a => exact hSecond h a hFirst
  | fail e => trivial
  | ask q k ih =>
      exact ⟨hFirst.1, fun r => ih r (hFirst.2 r)⟩

/- Every pending question was judged. -/
theorem All.pending
    {h : List (Q × R)}
    {s : Script Q R E α}
    {replies : List R}
    {q : Q}
    (hAll : All P T h s)
    (hPending : s.pending replies = some q) :
    P (h ++ s.history replies) q := by
  induction s generalizing h replies with
  | done a => cases hPending
  | fail e => cases hPending
  | ask q' k ih =>
      cases replies with
      | nil =>
          cases hPending
          simpa [history] using hAll.1
      | cons r replies =>
          have hRest := ih r (hAll.2 r) hPending
          simpa [history] using hRest

/- The value came with the history that was judged. -/
theorem All.outcome
    {h : List (Q × R)}
    {s : Script Q R E α}
    {replies : List R}
    {a : α}
    (hAll : All P T h s)
    (hOutcome : s.outcome replies = some (.ok a)) :
    T (h ++ s.history replies) a := by
  induction s generalizing h replies with
  | done a' =>
      cases replies with
      | nil =>
          simp only [Script.outcome, Option.some.injEq,
            Except.ok.injEq] at hOutcome
          subst hOutcome
          simpa [history, All] using hAll
      | cons r replies => cases hOutcome
  | fail e => cases replies <;> cases hOutcome
  | ask q k ih =>
      cases replies with
      | nil => cases hOutcome
      | cons r replies =>
          have hRest := ih r (hAll.2 r) hOutcome
          simpa [history] using hRest

/- Nothing is asked of a judge that agrees to everything. -/
theorem All.trivial
    (h : List (Q × R))
    (s : Script Q R E α) :
    All (fun _ _ => True) (fun _ _ => True) h s := by
  induction s generalizing h with
  | done a => exact True.intro
  | fail e => exact True.intro
  | ask q k ih => exact ⟨True.intro, fun r => ih r _⟩

/- One more reply answers the pending question. -/
theorem history_concat
    {s : Script Q R E α}
    {replies : List R}
    {q : Q}
    (hPending : s.pending replies = some q)
    (r : R) :
    s.history (replies ++ [r]) =
      s.history replies ++ [(q, r)] := by
  induction s generalizing replies with
  | done a => cases hPending
  | fail e => cases hPending
  | ask q' k ih =>
      cases replies with
      | nil =>
          cases hPending
          simp [history]
      | cons r' replies =>
          simp [history, ih r' hPending]

/- After a reply the script asks again or is over. -/
theorem pending_or_outcome
    {s : Script Q R E α}
    {replies : List R}
    {q : Q}
    (hPending : s.pending replies = some q)
    (r : R) :
    (s.pending (replies ++ [r])).isSome = true ∨
      (s.outcome (replies ++ [r])).isSome = true := by
  induction s generalizing replies with
  | done a => cases hPending
  | fail e => cases hPending
  | ask q' k ih =>
      cases replies with
      | nil =>
          cases hNext : k r with
          | done a =>
              exact Or.inr (by simp [Script.outcome, hNext])
          | fail e =>
              exact Or.inr (by simp [Script.outcome, hNext])
          | ask q k' =>
              exact Or.inl (by simp [Script.pending, hNext])
      | cons r' replies => exact ih r' hPending

end Script
