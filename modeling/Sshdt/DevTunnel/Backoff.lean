import Sshdt.DevTunnel.Connector

/-
  The delays between two attempts (`src/devtunnel/retry.rs`).

  A history is the list of calls made so far, with the time
  of each. What a `failed` call returns is compared with its
  rank: the number of `failed` calls before it since the
  creation or the last reset.

  Key definitions include:
    * `RetryCall`
    * `Retry.after`
    * `FirstReady`
    * `ResetAt`
    * `Rank`

  Key theorems include:
    * `Retry.readySince_after`
    * `Retry.delay_of_rank`
    * `Retry.backoff_schedule`
-/

------------------------------------------------------------
-- Histories
------------------------------------------------------------

namespace Sshdt

namespace DevTunnel

/- The calls of a `Retry`. -/
inductive RetryCall where
  | ready
  | failed
  deriving DecidableEq, Repr

/- Calls with the times at which they are made. -/
abbrev RetryHistory := List (Instant × RetryCall)

namespace Retry

/- The state that one call leaves behind. -/
def call
    (retry : Retry) :
    Instant × RetryCall → Retry
| (now, .ready) => retry.ready now
| (now, .failed) => (retry.failed now).2

/- The state after a history. -/
def after
    (history : RetryHistory) : Retry :=
  history.foldl call .default

/- What a `failed` call returns after a history. -/
def delayAfter
    (history : RetryHistory)
    (now : Instant) : Duration :=
  ((after history).failed now).1

end Retry

/- No `failed` call among these. -/
def AllReady
    (history : RetryHistory) : Prop :=
  ∀ call ∈ history, call.2 = .ready

/- The history is empty or its last call is `failed`. -/
def EndsFailed
    (history : RetryHistory) : Prop :=
  history = [] ∨
    ∃ before time, history = before ++ [(time, .failed)]

/-
  The time of the first `ready` call after the last `failed`
  call, or after the creation.
-/
def FirstReady
    (history : RetryHistory)
    (since : Instant) : Prop :=
  ∃ before rest,
    history = before ++ (since, .ready) :: rest ∧
      EndsFailed before ∧ AllReady rest

/- A `failed` call at this time follows enough readiness. -/
def ResetAt
    (history : RetryHistory)
    (now : Instant) : Prop :=
  ∃ since,
    FirstReady history since ∧
      since + Duration.fromSecs 300 ≤ now

/-
  The rank of a `failed` call, counted from zero since the
  creation or since the last reset.
-/
inductive Rank : RetryHistory → Instant → Nat → Prop
| reset
    {history : RetryHistory}
    {now : Instant}
    (hReset : ResetAt history now) :
    Rank history now 0
| first
    {history : RetryHistory}
    {now : Instant}
    (hReady : AllReady history)
    (hNoReset : ¬ ResetAt history now) :
    Rank history now 0
| next
    {before rest : RetryHistory}
    {last now : Instant}
    {k : Nat}
    (hLast : Rank before last k)
    (hReady : AllReady rest)
    (hNoReset :
      ¬ ResetAt (before ++ (last, .failed) :: rest) now) :
    Rank (before ++ (last, .failed) :: rest) now (k + 1)

end DevTunnel

end Sshdt

------------------------------------------------------------
-- The State After A History
------------------------------------------------------------

namespace Sshdt

namespace DevTunnel

variable {history rest : RetryHistory}
variable {now since : Instant}

namespace Retry

theorem after_append
    (history rest : RetryHistory) :
    after (history ++ rest) =
      rest.foldl call (after history) := by
  rw [after, List.foldl_append, after]

theorem after_failed
    (history : RetryHistory)
    (now : Instant) :
    after (history ++ [(now, .failed)]) =
      ((after history).failed now).2 := by
  rw [after_append]
  rfl

/- `ready` calls change neither the delay nor an old time. -/
theorem foldl_ready
    {retry : Retry}
    (hReady : AllReady rest) :
    (rest.foldl call retry).delay = retry.delay ∧
      ∀ since, retry.readySince = some since →
        (rest.foldl call retry).readySince = some since := by
  induction rest generalizing retry with
  | nil => exact ⟨rfl, fun _ hSince => hSince⟩
  | cons entry rest ih =>
      rcases entry with ⟨time, kind⟩
      have hKind : kind = .ready :=
        hReady (time, kind) List.mem_cons_self
      subst hKind
      have hRest : AllReady rest := fun call hCall =>
        hReady call (List.mem_cons_of_mem _ hCall)
      rcases @ih (retry.ready time) hRest with
        ⟨hDelay, hKept⟩
      refine ⟨hDelay, fun since hSince => ?_⟩
      apply hKept
      simp [ready, hSince]

/- Nothing is remembered at the start of a new count. -/
theorem readySince_of_endsFailed
    (hEnds : EndsFailed history) :
    (after history).readySince = none := by
  rcases hEnds with rfl | ⟨before, time, rfl⟩
  · rfl
  · rw [after_failed]
    rfl

/- The remembered time is that of the first `ready` call. -/
theorem readySince_of_firstReady
    (hFirst : FirstReady history since) :
    (after history).readySince = some since := by
  rcases hFirst with ⟨before, rest, rfl, hEnds, hReady⟩
  have hNone := readySince_of_endsFailed hEnds
  rw [after_append]
  apply (foldl_ready hReady).2
  simp [call, ready, hNone]

/- A history whose time is not set ends with `failed`. -/
theorem endsFailed_of_readySince
    (hNone : (after history).readySince = none) :
    EndsFailed history := by
  rcases List.eq_nil_or_concat' history with
    rfl | ⟨before, ⟨time, kind⟩, rfl⟩
  · exact Or.inl rfl
  · cases kind with
    | failed => exact Or.inr ⟨before, time, rfl⟩
    | ready =>
        rw [after_append] at hNone
        simp [call, ready] at hNone

/- What is remembered, in terms of the calls. -/
theorem readySince_after :
    (after history).readySince = some since ↔
      FirstReady history since := by
  refine ⟨fun hSome => ?_, readySince_of_firstReady⟩
  induction history using List.reverseRecOn with
  | nil => cases hSome
  | append_singleton before entry ih =>
      rcases entry with ⟨time, kind⟩
      rw [after_append] at hSome
      cases kind with
      | failed => cases hSome
      | ready =>
          simp only [List.foldl_cons, List.foldl_nil, call,
            ready, Option.some.injEq] at hSome
          cases hBefore : (after before).readySince with
          | none =>
              rw [hBefore] at hSome
              subst hSome
              exact ⟨before, [], rfl,
                endsFailed_of_readySince hBefore,
                fun _ hCall => by cases hCall⟩
          | some old =>
              rw [hBefore] at hSome
              cases hSome
              rcases ih hBefore with
                ⟨start, rest, hEq, hEnds, hReady⟩
              refine ⟨start, rest ++ [(time, .ready)],
                by simp [hEq], hEnds, ?_⟩
              intro call hCall
              rcases List.mem_append.mp hCall with
                hOld | hNew
              · exact hReady call hOld
              · rw [List.mem_singleton.mp hNew]

/- The test of `failed` is the reset of the schedule. -/
theorem resetAt_iff :
    (after history).readySince.any (fun since =>
        Duration.fromSecs 300 ≤ now - since) = true ↔
      ResetAt history now := by
  have hLong : ∀ since : Instant,
      Duration.fromSecs 300 ≤ now - since ↔
        since + Duration.fromSecs 300 ≤ now := by
    intro since
    have hNat : ∀ a b : Nat,
        300 * 1000000000 ≤ b - a ↔
          a + 300 * 1000000000 ≤ b := by
      omega
    exact hNat since now
  rw [Option.any_eq_true]
  constructor
  · rintro ⟨since, hSome, hElapsed⟩
    rw [decide_eq_true_eq, hLong] at hElapsed
    exact ⟨since, readySince_after.mp hSome, hElapsed⟩
  · rintro ⟨since, hFirst, hElapsed⟩
    refine ⟨since, readySince_after.mpr hFirst, ?_⟩
    rw [decide_eq_true_eq, hLong]
    exact hElapsed

theorem delayAfter_of_reset
    (hReset : ResetAt history now) :
    delayAfter history now = Duration.fromSecs 30 := by
  unfold delayAfter failed
  rw [if_pos (resetAt_iff.mpr hReset)]

theorem delayAfter_of_not_reset
    (hNoReset : ¬ ResetAt history now) :
    delayAfter history now = (after history).delay := by
  unfold delayAfter failed
  rw [if_neg (fun hAny => hNoReset (resetAt_iff.mp hAny))]

/- The delay that waits for the next `failed` call. -/
theorem delay_after_failed
    {before : RetryHistory}
    {last : Instant}
    (hReady : AllReady rest) :
    (after (before ++ (last, .failed) :: rest)).delay =
      min (delayAfter before last * 2)
        (Duration.fromSecs 300) := by
  rw [after_append, List.foldl_cons]
  rw [(foldl_ready hReady).1]
  rfl

end Retry

end DevTunnel

end Sshdt

------------------------------------------------------------
-- The Schedule
------------------------------------------------------------

namespace Sshdt

namespace DevTunnel

variable {history : RetryHistory}
variable {now : Instant}

/- The calls since the last `failed` call. -/
theorem allReady_or_failed
    (history : RetryHistory) :
    AllReady history ∨
      ∃ before last rest,
        history = before ++ (last, .failed) :: rest ∧
          AllReady rest := by
  induction history with
  | nil => exact Or.inl (fun _ hCall => by cases hCall)
  | cons entry history ih =>
      rcases entry with ⟨time, kind⟩
      rcases ih with hReady | ⟨before, last, rest, rfl, hRest⟩
      · cases kind with
        | failed =>
            exact Or.inr ⟨[], time, history, rfl, hReady⟩
        | ready =>
            refine Or.inl (fun call hCall => ?_)
            rcases List.mem_cons.mp hCall with rfl | hOld
            · rfl
            · exact hReady call hOld
      · exact Or.inr
          ⟨(time, kind) :: before, last, rest, rfl, hRest⟩

/- There is one last `failed` call. -/
theorem last_failed_unique
    {before before' rest rest' : RetryHistory}
    {last last' : Instant}
    (hEq :
      before ++ (last, .failed) :: rest =
        before' ++ (last', .failed) :: rest')
    (hReady : AllReady rest)
    (hReady' : AllReady rest') :
    before = before' ∧ last = last' := by
  have hNot : ∀ {tail : RetryHistory} {time : Instant},
      AllReady tail → (time, RetryCall.failed) ∉ tail := by
    intro tail time hTail hMem
    have hKind := hTail _ hMem
    cases hKind
  rcases List.append_eq_append_iff.mp hEq with
    ⟨middle, rfl, hTail⟩ | ⟨middle, rfl, hTail⟩
  · cases middle with
    | nil =>
        cases hTail
        exact ⟨(List.append_nil _).symm, rfl⟩
    | cons entry middle =>
        cases hTail
        exact (hNot hReady
          (List.mem_append_right _ List.mem_cons_self)).elim
  · cases middle with
    | nil =>
        cases hTail
        exact ⟨List.append_nil _, rfl⟩
    | cons entry middle =>
        cases hTail
        exact (hNot hReady'
          (List.mem_append_right _ List.mem_cons_self)).elim

/- Every `failed` call has a rank. -/
theorem exists_rank
    (history : RetryHistory)
    (now : Instant) :
    ∃ k, Rank history now k := by
  by_cases hReset : ResetAt history now
  · exact ⟨0, .reset hReset⟩
  · rcases allReady_or_failed history with
      hReady | ⟨before, last, rest, hEq, hReady⟩
    · exact ⟨0, .first hReady hReset⟩
    · have hShorter : before.length < history.length := by
        rw [hEq, List.length_append, List.length_cons]
        omega
      rcases exists_rank before last with ⟨k, hLast⟩
      rw [hEq] at hReset ⊢
      exact ⟨k + 1, .next hLast hReady hReset⟩
termination_by history.length

/- It has only one. -/
theorem Rank.unique
    {k k' : Nat}
    (hRank : Rank history now k)
    (hRank' : Rank history now k') :
    k = k' := by
  induction hRank generalizing k' with
  | reset hReset =>
      cases hRank' with
      | reset => rfl
      | first _ hNoReset => exact (hNoReset hReset).elim
      | next _ _ hNoReset => exact (hNoReset hReset).elim
  | first hReady hNoReset =>
      cases hRank' with
      | reset => rfl
      | first => rfl
      | next =>
          have hKind := hReady _
            (List.mem_append_right _ List.mem_cons_self)
          cases hKind
  | @next before rest last now k hLast hReady hNoReset ih =>
      generalize hHistory :
        before ++ (last, .failed) :: rest = history at hRank'
      cases hRank' with
      | reset hReset =>
          rw [← hHistory] at hReset
          exact (hNoReset hReset).elim
      | first hAll =>
          rw [← hHistory] at hAll
          have hKind := hAll _
            (List.mem_append_right _ List.mem_cons_self)
          cases hKind
      | next hLast' hReady' =>
          rcases last_failed_unique hHistory hReady hReady'
            with ⟨rfl, rfl⟩
          rw [ih hLast']

namespace Retry

/- Doubling under the cap of five minutes. -/
theorem double_delay
    (k : Nat) :
    min (Duration.fromSecs (min (30 * 2 ^ k) 300) * 2)
        (Duration.fromSecs 300) =
      Duration.fromSecs (min (30 * 2 ^ (k + 1)) 300) := by
  have hNat : ∀ power : Nat,
      min (min (30 * power) 300 * 1000000000 * 2)
          (300 * 1000000000) =
        min (30 * (power * 2)) 300 * 1000000000 := by
    omega
  rw [pow_succ]
  exact hNat (2 ^ k)

/- The delay is given by the rank. -/
theorem delay_of_rank
    {k : Nat}
    (hRank : Rank history now k) :
    delayAfter history now =
      Duration.fromSecs (min (30 * 2 ^ k) 300) := by
  induction hRank with
  | reset hReset =>
      rw [delayAfter_of_reset hReset]
      rfl
  | first hReady hNoReset =>
      rw [delayAfter_of_not_reset hNoReset, after,
        (foldl_ready hReady).1]
      rfl
  | next hLast hReady hNoReset ih =>
      rw [delayAfter_of_not_reset hNoReset,
        delay_after_failed hReady, ih, double_delay]

theorem fromSecs_le
    {a b : Nat}
    (hLe : a ≤ b) :
    Duration.fromSecs a ≤ Duration.fromSecs b := by
  unfold Duration.fromSecs
  exact Nat.mul_le_mul_right _ hLe

/-
  After any calls at any times, the `failed` call with rank
  `k` returns `min (30 * 2 ^ k) 300` seconds: between 30 and
  300 seconds, and no less than the call before unless the
  schedule is reset.
-/
theorem backoff_schedule
    (history : RetryHistory)
    (now : Instant) :
    ∃ k,
      Rank history now k ∧
        (∀ k', Rank history now k' → k' = k) ∧
        delayAfter history now =
          Duration.fromSecs (min (30 * 2 ^ k) 300) ∧
        Duration.fromSecs 30 ≤ delayAfter history now ∧
        delayAfter history now ≤ Duration.fromSecs 300 ∧
        ∀ before last rest,
          history = before ++ (last, .failed) :: rest →
            AllReady rest →
            ¬ ResetAt history now →
            delayAfter before last ≤
              delayAfter history now := by
  rcases exists_rank history now with ⟨k, hRank⟩
  have hDelay := delay_of_rank hRank
  have hPower : 1 ≤ 2 ^ k := Nat.one_le_two_pow
  refine ⟨k, hRank, fun k' hRank' => hRank'.unique hRank,
    hDelay, ?_, ?_, ?_⟩
  · rw [hDelay]
    apply fromSecs_le
    omega
  · rw [hDelay]
    apply fromSecs_le
    omega
  · rintro before last rest rfl hReady hNoReset
    rcases exists_rank before last with ⟨j, hBefore⟩
    have hNext := Rank.next hBefore hReady hNoReset
    rw [delay_of_rank hBefore, delay_of_rank hNext, pow_succ]
    apply fromSecs_le
    omega

end Retry

end DevTunnel

end Sshdt
