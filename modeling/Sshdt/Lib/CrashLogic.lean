import Sshdt.Lib.Script

/-
  A program logic for scripts over a device that may be cut
  short.

  A device performs the calls of a script one after another
  and replies to each. A call may also be refused, which
  leaves the device as it is, and the script may end between
  any two calls, when its process is killed or the machine
  loses power.

  A triple has a condition for each way to end: what holds
  when the script has returned a value, and what holds
  whenever it ends in any other way.

  Key definitions include:
    * `Device`
    * `Device.Exec`
    * `Device.Triple`
    * `Device.run`

  Key theorems include:
    * `Device.Triple.pure`
    * `Device.Triple.ask`
    * `Device.Triple.bind`
    * `Device.Triple.consequence`
    * `Device.exec_run`
-/

------------------------------------------------------------
-- Devices And Executions
------------------------------------------------------------

/-
  A device with state `D`: how it performs a call, and what
  it replies to a call that it refuses.
-/
structure Device (D Q R : Type) where
  perform : D → Q → D × R
  refusal : R

/- How a script ended; `cut` is an end between two calls. -/
inductive Ending (E α : Type) where
  | value (a : α)
  | error (e : E)
  | cut

namespace Device

variable {D Q R E α β : Type}

/- An execution, from a state of the device to another. -/
inductive Exec
    (M : Device D Q R) :
    D → Script Q R E α → D → Ending E α → Prop
| cut
    (d : D)
    (s : Script Q R E α) :
    Exec M d s d .cut
| done
    (d : D)
    (a : α) :
    Exec M d (.done a) d (.value a)
| fail
    (d : D)
    (e : E) :
    Exec M d (.fail e) d (.error e)
| performed
    {d f : D}
    {q : Q}
    {k : R → Script Q R E α}
    {ending : Ending E α}
    (hRest :
      Exec M (M.perform d q).1 (k (M.perform d q).2) f
        ending) :
    Exec M d (.ask q k) f ending
| refused
    {d f : D}
    {q : Q}
    {k : R → Script Q R E α}
    {ending : Ending E α}
    (hRest : Exec M d (k M.refusal) f ending) :
    Exec M d (.ask q k) f ending

/- The execution in which every call is performed. -/
def run
    (M : Device D Q R)
    (d : D) : Script Q R E α → D × Except E α
| .done a => (d, .ok a)
| .fail e => (d, .error e)
| .ask q k => run M (M.perform d q).1 (k (M.perform d q).2)

/-
  From a state with `pre`, a script that returns a value
  leaves a state with `post`, and one that ends in any other
  way a state with `crash`.
-/
def Triple
    (M : Device D Q R)
    (pre : D → Prop)
    (s : Script Q R E α)
    (post : α → D → Prop)
    (crash : D → Prop) : Prop :=
  ∀ d f ending, pre d → M.Exec d s f ending →
    match ending with
    | .value a => post a f
    | _ => crash f

end Device

------------------------------------------------------------
-- Rules
------------------------------------------------------------

namespace Device

variable {D Q R E α β : Type}
variable {M : Device D Q R}
variable {pre pre' : D → Prop}
variable {post post' : α → D → Prop}
variable {crash crash' : D → Prop}

/- A value. -/
theorem Triple.pure
    {a : α}
    (hPost : ∀ d, pre d → post a d)
    (hCrash : ∀ d, pre d → crash d) :
    M.Triple pre (.done a : Script Q R E α) post crash := by
  intro d f ending hPre hExec
  cases hExec with
  | cut => exact hCrash d hPre
  | done => exact hPost d hPre

/- An error. -/
theorem Triple.fail
    {e : E}
    (hCrash : ∀ d, pre d → crash d) :
    M.Triple pre (.fail e : Script Q R E α) post crash := by
  intro d f ending hPre hExec
  cases hExec with
  | cut => exact hCrash d hPre
  | fail => exact hCrash d hPre

/- A call that is performed, refused, or never made. -/
theorem Triple.ask
    {q : Q}
    {k : R → Script Q R E α}
    (hCrash : ∀ d, pre d → crash d)
    (hRefused : M.Triple pre (k M.refusal) post crash)
    (hPerformed :
      ∀ d, pre d →
        M.Triple (fun f => f = (M.perform d q).1)
          (k (M.perform d q).2) post crash) :
    M.Triple pre (.ask q k) post crash := by
  intro d f ending hPre hExec
  cases hExec with
  | cut => exact hCrash d hPre
  | performed hRest =>
      exact hPerformed d hPre _ f ending rfl hRest
  | refused hRest => exact hRefused d f ending hPre hRest

/- Stronger conditions before, weaker ones after. -/
theorem Triple.consequence
    {s : Script Q R E α}
    (hTriple : M.Triple pre s post crash)
    (hPre : ∀ d, pre' d → pre d)
    (hPost : ∀ a d, post a d → post' a d)
    (hCrash : ∀ d, crash d → crash' d) :
    M.Triple pre' s post' crash' := by
  intro d f ending hBefore hExec
  have hEnd := hTriple d f ending (hPre d hBefore) hExec
  cases ending with
  | value a => exact hPost a f hEnd
  | error e => exact hCrash f hEnd
  | cut => exact hCrash f hEnd

/- An execution of a sequence stops in the first part or not. -/
theorem Exec.bind_cases
    {s : Script Q R E α}
    {k : α → Script Q R E β}
    {d f : D}
    {ending : Ending E β}
    (hExec : M.Exec d (s >>= k) f ending) :
    (∃ e, ending = .error e ∧ M.Exec d s f (.error e)) ∨
      (ending = .cut ∧ M.Exec d s f .cut) ∨
      ∃ a m, M.Exec d s m (.value a) ∧
        M.Exec m (k a) f ending := by
  induction s generalizing d with
  | done a => exact Or.inr (Or.inr ⟨a, d, .done d a, hExec⟩)
  | fail e =>
      cases hExec with
      | cut => exact Or.inr (Or.inl ⟨rfl, .cut _ _⟩)
      | fail => exact Or.inl ⟨e, rfl, .fail _ _⟩
  | ask q next ih =>
      cases hExec with
      | cut => exact Or.inr (Or.inl ⟨rfl, .cut _ _⟩)
      | performed hRest =>
          rcases ih _ hRest with
            ⟨e, hEnd, hFirst⟩ | ⟨hEnd, hFirst⟩ |
              ⟨a, m, hFirst, hSecond⟩
          · exact Or.inl ⟨e, hEnd, .performed hFirst⟩
          · exact Or.inr (Or.inl ⟨hEnd, .performed hFirst⟩)
          · exact Or.inr (Or.inr
              ⟨a, m, .performed hFirst, hSecond⟩)
      | refused hRest =>
          rcases ih _ hRest with
            ⟨e, hEnd, hFirst⟩ | ⟨hEnd, hFirst⟩ |
              ⟨a, m, hFirst, hSecond⟩
          · exact Or.inl ⟨e, hEnd, .refused hFirst⟩
          · exact Or.inr (Or.inl ⟨hEnd, .refused hFirst⟩)
          · exact Or.inr (Or.inr
              ⟨a, m, .refused hFirst, hSecond⟩)

/- Sequencing: the second part starts where the first ends. -/
theorem Triple.bind
    {s : Script Q R E α}
    {k : α → Script Q R E β}
    {between : α → D → Prop}
    {post : β → D → Prop}
    (hFirst : M.Triple pre s between crash)
    (hSecond : ∀ a, M.Triple (between a) (k a) post crash) :
    M.Triple pre (s >>= k) post crash := by
  intro d f ending hPre hExec
  rcases hExec.bind_cases with
    ⟨e, rfl, hPart⟩ | ⟨rfl, hPart⟩ | ⟨a, m, hPart, hRest⟩
  · exact hFirst d f _ hPre hPart
  · exact hFirst d f _ hPre hPart
  · exact hSecond a m f ending (hFirst d m _ hPre hPart) hRest

/- A run without refusals is an execution. -/
theorem exec_run
    (d : D)
    (s : Script Q R E α) :
    M.Exec d s (M.run d s).1
      (match (M.run d s).2 with
      | .ok a => .value a
      | .error e => .error e) := by
  induction s generalizing d with
  | done a => exact .done d a
  | fail e => exact .fail d e
  | ask q k ih => exact .performed (ih _ _)

end Device
