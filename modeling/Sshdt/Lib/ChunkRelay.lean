import Mathlib.Data.List.Basic

/-
  Two tasks that carry a stream over a queue of chunks.

  A reader takes a chunk from a source and sends it into a
  queue, where it may have to wait for room. A writer takes
  the chunks out and writes each of them to a sink, piece by
  piece. A reader ends at the end of the source or gives up
  on an error; once a write has failed, all further ones do.

  Key definitions include:
    * `ChunkRelay`
    * `ChunkRelay.step`
    * `ChunkRelay.Inv`
    * `ChunkRelay.work`

  Key theorems include:
    * `ChunkRelay.step_inv`
    * `ChunkRelay.Inv.complete`
    * `ChunkRelay.step_work`
-/

------------------------------------------------------------
-- Relays And Their Steps
------------------------------------------------------------

/-
  `held` is a chunk that the reader has not sent yet and
  `current` what the writer has left of its chunk. `cut` is a
  reader that gave up and `broken` a sink that failed.
-/
structure ChunkRelay (α : Type) where
  written : List α
  waiting : List α
  sourceOpen : Bool
  held : List α
  readerDone : Bool
  cut : Bool
  queue : List (List α)
  current : Option (List α)
  broken : Bool
  delivered : List α
  deriving DecidableEq, Repr

/- Who takes a step. -/
inductive RelaySide where
  | source
  | reader
  | writer
  deriving DecidableEq, Repr

/- What happens on the way. -/
inductive RelayStep (α : Type) where
  | put (items : List α)
  | close
  | read (n : Nat)
  | send
  | eof
  | readFails
  | take
  | deliver (n : Nat)
  | chunkDone
  | writeFails
  deriving DecidableEq, Repr

/- The side that takes a step. -/
def RelayStep.side
    {α : Type} : RelayStep α → RelaySide
| .put _ | .close => .source
| .read _ | .send | .eof | .readFails => .reader
| .take | .deliver _ | .chunkDone | .writeFails => .writer

namespace ChunkRelay

variable {α : Type}

/- Nothing is on its way yet. -/
def start : ChunkRelay α where
  written := []
  waiting := []
  sourceOpen := true
  held := []
  readerDone := false
  cut := false
  queue := []
  current := none
  broken := false
  delivered := []

/- The queue is empty and nothing more will be sent. -/
def ended
    (r : ChunkRelay α) : Bool :=
  r.readerDone && r.queue.isEmpty

/- What a step delivers. -/
def output
    (r : ChunkRelay α) : RelayStep α → List α
| .deliver n => (r.current.getD []).take n
| _ => []

/-
  One step. A chunk has `chunk` items at most, and the queue
  `room` places for chunks; `none` is a queue without bound.
-/
def step
    (chunk : Nat)
    (room : Option Nat)
    (r : ChunkRelay α) : RelayStep α → Option (ChunkRelay α)
| .put items =>
    if r.sourceOpen = true then
      some
        { r with
          written := r.written ++ items
          waiting := r.waiting ++ items }
    else
      none
| .close =>
    if r.sourceOpen = true then
      some { r with sourceOpen := false }
    else
      none
| .read n =>
    if r.readerDone = false ∧ r.held = [] ∧ 1 ≤ n ∧
        n ≤ chunk ∧ n ≤ r.waiting.length then
      some
        { r with
          held := r.waiting.take n
          waiting := r.waiting.drop n }
    else
      none
| .send =>
    if r.held ≠ [] ∧
        room.all (fun room => r.queue.length < room) then
      some
        { r with
          held := []
          queue := r.queue ++ [r.held] }
    else
      none
| .eof =>
    if r.readerDone = false ∧ r.held = [] ∧
        r.waiting = [] ∧ r.sourceOpen = false then
      some { r with readerDone := true }
    else
      none
| .readFails =>
    if r.readerDone = false ∧ r.held = [] then
      some { r with readerDone := true, cut := true }
    else
      none
| .take =>
    match r.current, r.queue with
    | none, items :: queue =>
        some { r with current := some items, queue }
    | _, _ => none
| .deliver n =>
    match r.current with
    | some items =>
        if r.broken = false ∧ 1 ≤ n ∧ n ≤ items.length then
          some
            { r with
              current := some (items.drop n)
              delivered := r.delivered ++ items.take n }
        else
          none
    | none => none
| .chunkDone =>
    match r.current with
    | some [] => some { r with current := none }
    | _ => none
| .writeFails =>
    match r.current with
    | some _ => some { r with current := none, broken := true }
    | none => none

end ChunkRelay

------------------------------------------------------------
-- What Is Delivered
------------------------------------------------------------

namespace ChunkRelay

variable {α : Type}
variable {chunk : Nat}
variable {room : Option Nat}
variable {r t : ChunkRelay α}
variable {e : RelayStep α}

/-
  Until a write fails nothing is lost, repeated or
  reordered. A reader that has ended at the end of the
  source has left nothing there.
-/
structure Inv
    (r : ChunkRelay α) : Prop where
  conserved :
    r.broken = false →
      r.delivered ++ r.current.getD [] ++ r.queue.flatten ++
        r.held ++ r.waiting = r.written
  prefix_written : r.delivered <+: r.written
  drained :
    r.readerDone = true →
      r.held = [] ∧
        (r.cut = false →
          r.sourceOpen = false ∧ r.waiting = [])
  chunks : [] ∉ r.queue

theorem start_inv :
    (start : ChunkRelay α).Inv where
  conserved := fun _ => rfl
  prefix_written := List.prefix_refl _
  drained := by simp [start]
  chunks := by simp [start]

/- The source is filled or closed. -/
theorem source_inv
    (hInv : r.Inv)
    (hStep : r.step chunk room e = some t)
    (hSide : e.side = .source) :
    t.Inv := by
  rcases hInv with ⟨hConserved, hPrefix, hDrained, hChunks⟩
  cases e with
  | put items =>
      simp only [step] at hStep
      split at hStep <;> [rename_i hOpen; cases hStep]
      cases hStep
      refine ⟨fun hWhole => ?_,
        hPrefix.trans (List.prefix_append _ _),
        fun hDone => ⟨(hDrained hDone).1, fun hCut => ?_⟩,
        hChunks⟩
      · simp only [← hConserved hWhole, List.append_assoc]
      · rw [((hDrained hDone).2 hCut).1] at hOpen
        cases hOpen
  | close =>
      simp only [step] at hStep
      split at hStep <;> [skip; cases hStep]
      cases hStep
      exact ⟨hConserved, hPrefix,
        fun hDone => ⟨(hDrained hDone).1,
          fun hCut => ⟨rfl, ((hDrained hDone).2 hCut).2⟩⟩,
        hChunks⟩
  | _ => cases hSide

theorem reader_inv
    (hInv : r.Inv)
    (hStep : r.step chunk room e = some t)
    (hSide : e.side = .reader) :
    t.Inv := by
  rcases hInv with ⟨hConserved, hPrefix, hDrained, hChunks⟩
  cases e with
  | read n =>
      simp only [step] at hStep
      split at hStep <;> [rename_i hRead; cases hStep]
      cases hStep
      refine ⟨fun hWhole => ?_, hPrefix,
        fun hDone => ?_, hChunks⟩
      · have hAll := hConserved hWhole
        rw [hRead.2.1, List.append_nil] at hAll
        simp only [← hAll, List.append_assoc,
          List.take_append_drop]
      · rw [hRead.1] at hDone
        cases hDone
  | send =>
      simp only [step] at hStep
      split at hStep <;> [rename_i hSend; cases hStep]
      cases hStep
      refine ⟨fun hWhole => ?_, hPrefix,
        fun hDone => ⟨rfl, (hDrained hDone).2⟩, ?_⟩
      · simp only [← hConserved hWhole,
          List.flatten_append, List.flatten_singleton,
          List.append_nil, List.append_assoc]
      · intro hNil
        rcases List.mem_append.mp hNil with hOld | hNew
        · exact hChunks hOld
        · exact hSend.1 (List.mem_singleton.mp hNew).symm
  | eof =>
      simp only [step] at hStep
      split at hStep <;> [rename_i hEof; cases hStep]
      cases hStep
      exact ⟨hConserved, hPrefix,
        fun _ => ⟨hEof.2.1, fun _ => ⟨hEof.2.2.2, hEof.2.2.1⟩⟩,
        hChunks⟩
  | readFails =>
      simp only [step] at hStep
      split at hStep <;> [rename_i hFails; cases hStep]
      cases hStep
      exact ⟨hConserved, hPrefix,
        fun _ => ⟨hFails.2, by simp⟩, hChunks⟩
  | _ => cases hSide

theorem writer_inv
    (hInv : r.Inv)
    (hStep : r.step chunk room e = some t)
    (hSide : e.side = .writer) :
    t.Inv := by
  rcases hInv with ⟨hConserved, hPrefix, hDrained, hChunks⟩
  cases e with
  | take =>
      simp only [step] at hStep
      split at hStep <;> [rename_i items queue hNone hQueue;
        cases hStep]
      cases hStep
      refine ⟨fun hWhole => ?_, hPrefix, hDrained, ?_⟩
      · have hAll := hConserved hWhole
        rw [hNone, hQueue] at hAll
        simpa using hAll
      · intro hNil
        exact hChunks (hQueue ▸ List.mem_cons_of_mem _ hNil)
  | deliver n =>
      simp only [step] at hStep
      split at hStep <;> [rename_i items hCurrent; cases hStep]
      split at hStep <;> [rename_i hDeliver; cases hStep]
      cases hStep
      have hAll := hConserved hDeliver.1
      rw [hCurrent, Option.getD_some] at hAll
      refine ⟨fun _ => ?_, ?_, hDrained, hChunks⟩
      · rw [Option.getD_some, ← hAll,
          List.append_assoc r.delivered,
          List.take_append_drop]
      · refine ⟨items.drop n ++ r.queue.flatten ++ r.held ++
          r.waiting, ?_⟩
        rw [← hAll]
        simp only [List.append_assoc]
        rw [← List.append_assoc (items.take n),
          List.take_append_drop]
  | chunkDone =>
      simp only [step] at hStep
      split at hStep <;> [rename_i hCurrent; cases hStep]
      cases hStep
      refine ⟨fun hWhole => ?_, hPrefix, hDrained, hChunks⟩
      have hAll := hConserved hWhole
      rw [hCurrent] at hAll
      exact hAll
  | writeFails =>
      simp only [step] at hStep
      split at hStep <;> cases hStep
      exact ⟨by simp, hPrefix, hDrained, hChunks⟩
  | _ => cases hSide

/- Every step keeps the invariant. -/
theorem step_inv
    (hInv : r.Inv)
    (hStep : r.step chunk room e = some t) :
    t.Inv := by
  cases hSide : e.side with
  | source => exact source_inv hInv hStep hSide
  | reader => exact reader_inv hInv hStep hSide
  | writer => exact writer_inv hInv hStep hSide

/- Everything was delivered, from the first item to the last. -/
def Arrived
    (r : ChunkRelay α) : Prop :=
  r.delivered = r.written ∧ r.sourceOpen = false

/- A stream that arrived, or was cut off on its way. -/
def Settled
    (r : ChunkRelay α) : Prop :=
  r.Arrived ∨ r.cut = true ∨ r.broken = true

/-
  A writer that has nothing left has delivered everything,
  unless reading or writing failed.
-/
theorem Inv.arrived
    (hInv : r.Inv)
    (hEnded : r.ended = true)
    (hIdle : r.current = none)
    (hCut : r.cut = false)
    (hBroken : r.broken = false) :
    r.Arrived := by
  simp only [ended, Bool.and_eq_true,
    List.isEmpty_iff] at hEnded
  rcases hInv.drained hEnded.1 with ⟨hHeld, hRest⟩
  rcases hRest hCut with ⟨hClosed, hWaiting⟩
  have hAll := hInv.conserved hBroken
  rw [hIdle, hEnded.2, hHeld, hWaiting] at hAll
  simp only [Option.getD_none, List.flatten_nil,
    List.append_nil] at hAll
  exact ⟨hAll, hClosed⟩

theorem Inv.complete
    (hInv : r.Inv)
    (hEnded : r.ended = true)
    (hIdle : r.current = none) :
    r.Settled := by
  cases hCut : r.cut with
  | true => exact Or.inr (Or.inl hCut)
  | false =>
      cases hBroken : r.broken with
      | true => exact Or.inr (Or.inr hBroken)
      | false =>
          exact Or.inl
            (hInv.arrived hEnded hIdle hCut hBroken)

/- Nothing changes this but more writing. -/
theorem step_arrived
    (hArrived : r.Arrived)
    (hStep : r.step chunk room e = some t)
    (hSide : e.side ≠ .writer) :
    t.Arrived := by
  rcases hArrived with ⟨hAll, hClosed⟩
  cases e with
  | put items =>
      simp only [step] at hStep
      split at hStep <;> [rename_i hOpen; cases hStep]
      rw [hClosed] at hOpen
      cases hOpen
  | close =>
      simp only [step] at hStep
      split at hStep <;> cases hStep
      exact ⟨hAll, rfl⟩
  | read n =>
      simp only [step] at hStep
      split at hStep <;> cases hStep
      exact ⟨hAll, hClosed⟩
  | send =>
      simp only [step] at hStep
      split at hStep <;> cases hStep
      exact ⟨hAll, hClosed⟩
  | eof =>
      simp only [step] at hStep
      split at hStep <;> cases hStep
      exact ⟨hAll, hClosed⟩
  | readFails =>
      simp only [step] at hStep
      split at hStep <;> cases hStep
      exact ⟨hAll, hClosed⟩
  | _ => exact absurd rfl hSide

/- An error is not forgotten. -/
theorem step_cut
    (hCut : r.cut = true)
    (hStep : r.step chunk room e = some t) :
    t.cut = true := by
  cases e with
  | readFails =>
      simp only [step] at hStep
      split at hStep <;> cases hStep
      rfl
  | deliver n =>
      simp only [step] at hStep
      split at hStep <;> [skip; cases hStep]
      split at hStep <;> cases hStep
      exact hCut
  | _ =>
      simp only [step] at hStep
      split at hStep <;> cases hStep
      exact hCut

theorem step_writeFails
    (hStep : r.step chunk room .writeFails = some t) :
    t.broken = true := by
  simp only [step] at hStep
  split at hStep <;> cases hStep
  rfl

/- Only a failed write breaks the way. -/
theorem step_unbroken
    (hStep : r.step chunk room e = some t)
    (hFailed : e ≠ .writeFails) :
    t.broken = r.broken := by
  cases e with
  | writeFails => exact absurd rfl hFailed
  | deliver n =>
      simp only [step] at hStep
      split at hStep <;> [skip; cases hStep]
      split at hStep <;> cases hStep
      rfl
  | _ =>
      simp only [step] at hStep
      split at hStep <;> cases hStep
      rfl

theorem step_broken
    (hBroken : r.broken = true)
    (hStep : r.step chunk room e = some t) :
    t.broken = true := by
  by_cases hFailed : e = .writeFails
  · exact step_writeFails (hFailed ▸ hStep)
  · exact (step_unbroken hStep hFailed).trans hBroken

theorem step_settled
    (hSettled : r.Settled)
    (hStep : r.step chunk room e = some t)
    (hSide : e.side ≠ .writer) :
    t.Settled := by
  rcases hSettled with hArrived | hCut | hBroken
  · exact Or.inl (step_arrived hArrived hStep hSide)
  · exact Or.inr (Or.inl (step_cut hCut hStep))
  · exact Or.inr (Or.inr (step_broken hBroken hStep))

/- A step delivers its output. -/
theorem step_delivered
    (hStep : r.step chunk room e = some t) :
    t.delivered = r.delivered ++ r.output e := by
  cases e with
  | take =>
      simp only [step] at hStep
      split at hStep <;> cases hStep
      simp [output]
  | deliver n =>
      simp only [step] at hStep
      split at hStep <;> [rename_i items hCurrent; cases hStep]
      split at hStep <;> cases hStep
      simp [output, hCurrent]
  | chunkDone =>
      simp only [step] at hStep
      split at hStep <;> cases hStep
      simp [output]
  | writeFails =>
      simp only [step] at hStep
      split at hStep <;> cases hStep
      simp [output]
  | _ =>
      simp only [step] at hStep
      split at hStep <;> cases hStep
      simp [output]

/- Only the writer delivers. -/
theorem output_not_writer
    (hSide : e.side ≠ .writer) :
    r.output e = [] := by
  cases e with
  | deliver n => exact absurd rfl hSide
  | _ => rfl

end ChunkRelay

------------------------------------------------------------
-- Progress
------------------------------------------------------------

namespace ChunkRelay

variable {α : Type}
variable {chunk : Nat}
variable {room : Option Nat}
variable {r t : ChunkRelay α}
variable {e : RelayStep α}

/-
  A bound on the steps that reader and writer have left once
  nobody fills the source.
-/
def work
    (r : ChunkRelay α) : Nat :=
  6 * r.waiting.length + 5 * r.held.length +
    4 * r.queue.flatten.length +
    (match r.current with
    | some items => items.length + 1
    | none => 0) +
    (if r.readerDone then 0 else 1)

/- Each step of reader or writer makes the work smaller. -/
theorem step_work
    (hInv : r.Inv)
    (hStep : r.step chunk room e = some t)
    (hSide : e.side ≠ .source) :
    t.work < r.work := by
  cases e with
  | put items => exact absurd rfl hSide
  | close => exact absurd rfl hSide
  | read n =>
      simp only [step] at hStep
      split at hStep <;> [rename_i hRead; cases hStep]
      cases hStep
      simp only [work, hRead.2.1, List.length_take,
        List.length_drop, List.length_nil]
      omega
  | send =>
      simp only [step] at hStep
      split at hStep <;> [rename_i hSend; cases hStep]
      cases hStep
      have hSome := List.length_pos_iff.mpr hSend.1
      simp only [work, List.flatten_append,
        List.flatten_singleton, List.length_append,
        List.length_nil]
      omega
  | eof =>
      simp only [step] at hStep
      split at hStep <;> [rename_i hEof; cases hStep]
      cases hStep
      simp [work, hEof.1]
  | readFails =>
      simp only [step] at hStep
      split at hStep <;> [rename_i hFails; cases hStep]
      cases hStep
      simp [work, hFails.1]
  | take =>
      simp only [step] at hStep
      split at hStep <;> [rename_i items queue hNone hQueue;
        cases hStep]
      cases hStep
      have hSome : 0 < items.length := by
        rw [List.length_pos_iff]
        rintro rfl
        exact hInv.chunks (hQueue ▸ List.mem_cons_self)
      simp only [work, hNone, hQueue, List.flatten_cons,
        List.length_append]
      omega
  | deliver n =>
      simp only [step] at hStep
      split at hStep <;> [rename_i items hCurrent; cases hStep]
      split at hStep <;> [rename_i hDeliver; cases hStep]
      cases hStep
      simp only [work, hCurrent, List.length_drop]
      omega
  | chunkDone =>
      simp only [step] at hStep
      split at hStep <;> [rename_i hCurrent; cases hStep]
      cases hStep
      simp [work, hCurrent]
  | writeFails =>
      simp only [step] at hStep
      split at hStep <;> [rename_i items hCurrent; cases hStep]
      cases hStep
      simp only [work, hCurrent]
      omega

/-
  A writer in the middle of a chunk can go on. It fails only
  where writing has failed before.
-/
theorem writer_enabled
    (hBusy : r.current.isSome = true) :
    ∃ e : RelayStep α, e.side = .writer ∧
      (e = .writeFails → r.broken = true) ∧
      (r.step chunk room e).isSome = true := by
  rcases Option.isSome_iff_exists.mp hBusy with
    ⟨items, hCurrent⟩
  cases hBroken : r.broken with
  | true =>
      exact ⟨.writeFails, rfl, fun _ => rfl,
        by simp [step, hCurrent]⟩
  | false =>
      cases items with
      | nil =>
          exact ⟨.chunkDone, rfl, by simp,
            by simp [step, hCurrent]⟩
      | cons item items =>
          exact ⟨.deliver 1, rfl, by simp,
            by simp [step, hCurrent, hBroken]⟩

end ChunkRelay
