import Sshdt.DevTunnel.Process

/-
  The loop of `drain` (`src/devtunnel/process.rs`), read by
  read, against the lines of the whole stream.

  A read hands over between one and 4096 bytes, and where it
  cuts the stream is up to the operating system. The line
  buffer and its flag live across reads and are reset at a
  newline only. A send fails once the receiver of the channel
  is dropped, and `drain` returns there.

  The reference knows nothing of reads: it splits the stream
  at its newlines and looks at each piece by itself.

  Key definitions include:
    * `Draining.onByte`
    * `Draining.onReads`
    * `drainReads`
    * `referenceLines`
    * `LineBuffer.holding`

  Key theorems include:
    * `drain_eq_reference`
    * `drainReads_eq_drain`
    * `drainReads_lossless`
    * `DrainTask.reachable_reference`
-/

------------------------------------------------------------
-- The Loop Over The Reads
------------------------------------------------------------

namespace Sshdt

namespace DevTunnel

/-
  The receiving end of the channel: `none` if it is kept for
  good, otherwise how many lines it takes before it is
  dropped.
-/
abbrev Receiver := Option Nat

namespace Receiver

/- The next send finds the receiver alive. -/
def isAlive
    (receiver : Receiver)
    (sent : List Text) : Bool :=
  match receiver with
  | none => true
  | some n => sent.length < n

/- What the receiver gets of a list of lines. -/
def takes
    (receiver : Receiver)
    (lines : List Text) : List Text :=
  match receiver with
  | none => lines
  | some n => lines.take n

end Receiver

/-
  What one read puts into the array of the loop. A read that
  gives no bytes or fails ends the loop, so it is the end of
  the list of reads.
-/
structure Chunk where
  bytes : List UInt8
  bytes_pos : 1 ≤ bytes.length
  bytes_le : bytes.length ≤ chunkSize

namespace Chunk

/- The bytes that reads give one after the other. -/
def stream
    (reads : List Chunk) : List UInt8 :=
  reads.flatMap bytes

end Chunk

/-
  Where `drain` stands between two bytes: it goes on with its
  line buffer, or a send failed and it has returned. Both
  have the lines sent so far.
-/
inductive Draining where
  | looking (buffer : LineBuffer) (sent : List Text)
  | returned (sent : List Text)
  deriving DecidableEq, Repr

namespace Draining

/- Before the first read. -/
def start : Draining :=
  .looking .empty []

/- The body of the loop over the bytes of a chunk. -/
def onByte
    (receiver : Receiver) :
    Draining → UInt8 → Draining
| .returned sent, _ => .returned sent
| .looking buffer sent, byte =>
    if byte = newline then
      if receiver.isAlive sent then
        .looking .empty (sent ++ [buffer.terminated])
      else
        .returned sent
    else
      .looking (buffer.push byte) sent

/- The loop over bytes. -/
def onBytes
    (receiver : Receiver)
    (d : Draining)
    (bytes : List UInt8) : Draining :=
  bytes.foldl (onByte receiver) d

/- The loop over reads: every byte of each chunk in turn. -/
def onReads
    (receiver : Receiver)
    (d : Draining)
    (reads : List Chunk) : Draining :=
  reads.foldl
    (fun d chunk => d.onBytes receiver chunk.bytes) d

/- The end of the stream: what is left is one more line. -/
def finish
    (receiver : Receiver) :
    Draining → List Text
| .returned sent => sent
| .looking buffer sent =>
    match buffer.remainder with
    | none => sent
    | some line =>
        if receiver.isAlive sent then
          sent ++ [line]
        else
          sent

/- The bytes in the line buffer, while there is one. -/
def held : Draining → Nat
| .looking buffer _ => buffer.line.length
| .returned _ => 0

end Draining

/- The lines that `drain` sends for a list of reads. -/
def drainReads
    (receiver : Receiver)
    (reads : List Chunk) : List Text :=
  (Draining.start.onReads receiver reads).finish receiver

end DevTunnel

end Sshdt

------------------------------------------------------------
-- The Reference
------------------------------------------------------------

namespace Sshdt

namespace DevTunnel

/- The text of a line with a newline at its end. -/
def terminatedText
    (line : List UInt8) : Text :=
  if line.length ≤ lineLimit then
    Text.trimEndMatches '\r' (Text.fromUtf8Lossy line)
  else
    LineBuffer.omitted

/- The text of what comes after the last newline, if any. -/
def remainderText
    (line : List UInt8) : Option Text :=
  if line = [] then
    none
  else if line.length ≤ lineLimit then
    some (Text.fromUtf8Lossy line)
  else
    some LineBuffer.omitted

/- The lines of pieces, the last of which has no newline. -/
def pieceLines : List (List UInt8) → List Text
| [] => []
| [piece] => (remainderText piece).toList
| piece :: pieces => terminatedText piece :: pieceLines pieces

/- The lines of a stream that is known as a whole. -/
def referenceLines
    (output : List UInt8) : List Text :=
  pieceLines (output.splitOn newline)

namespace LineBuffer

/- The buffer after the bytes of a line. -/
def holding
    (seen : List UInt8) : LineBuffer where
  line := seen.take lineLimit
  oversized := lineLimit < seen.length

theorem empty_eq_holding :
    empty = holding [] := by
  rfl

theorem length_holding_le
    (seen : List UInt8) :
    (holding seen).line.length ≤ lineLimit :=
  List.length_take_le lineLimit seen

/- A byte beyond the limit sets the flag only. -/
theorem push_holding
    (seen : List UInt8)
    (byte : UInt8) :
    (holding seen).push byte = holding (seen ++ [byte]) := by
  unfold push holding
  simp only [List.length_take, List.length_append,
    List.length_singleton]
  split
  · rename_i hRoom
    have hLength : seen.length < lineLimit := by
      omega
    rw [List.take_of_length_le (Nat.le_of_lt hLength),
      List.take_of_length_le
        (by simpa using Nat.succ_le_of_lt hLength)]
    simp only [mk.injEq, true_and]
    simp only [decide_eq_decide]
    omega
  · rename_i hFull
    have hLength : lineLimit ≤ seen.length := by
      omega
    rw [List.take_append_of_le_length hLength]
    simp only [mk.injEq, true_and]
    symm
    rw [decide_eq_true_eq]
    omega

theorem terminated_holding
    (seen : List UInt8) :
    (holding seen).terminated = terminatedText seen := by
  unfold terminated holding terminatedText
  simp only [decide_eq_true_eq]
  by_cases hLong : lineLimit < seen.length
  · rw [if_pos hLong, if_neg (Nat.not_le.mpr hLong)]
  · have hLength := Nat.not_lt.mp hLong
    rw [if_neg hLong, if_pos hLength,
      List.take_of_length_le hLength]

theorem remainder_holding
    (seen : List UInt8) :
    (holding seen).remainder = remainderText seen := by
  unfold remainder holding remainderText
  by_cases hEmpty : seen = []
  · subst hEmpty
    simp
  · rw [if_neg hEmpty]
    by_cases hLong : lineLimit < seen.length
    · simp [hLong]
    · have hLength := Nat.not_lt.mp hLong
      rw [List.take_of_length_le hLength, if_pos hLength]
      simp [hLong, hEmpty]

end LineBuffer

/- Nothing seen changes no piece. -/
theorem modifyHead_nil_append
    (pieces : List (List UInt8)) :
    pieces.modifyHead ([] ++ ·) = pieces := by
  cases pieces with
  | nil => rfl
  | cons piece pieces => rfl

/- A piece with pieces after it ends in a newline. -/
theorem pieceLines_cons
    {pieces : List (List UInt8)}
    (hPieces : pieces ≠ [])
    (piece : List UInt8) :
    pieceLines (piece :: pieces) =
      terminatedText piece :: pieceLines pieces := by
  cases pieces with
  | nil => exact absurd rfl hPieces
  | cons next pieces => rfl

/-
  The buffer after `seen` and the rest of the stream give the
  lines of the pieces, the first of them after `seen`.
-/
theorem drainFrom_holding
    (seen bytes : List UInt8) :
    drainFrom (.holding seen) bytes =
      pieceLines
        ((bytes.splitOn newline).modifyHead (seen ++ ·)) := by
  induction bytes generalizing seen with
  | nil =>
      simp [drainFrom, pieceLines,
        LineBuffer.remainder_holding]
  | cons byte bytes ih =>
      rw [drainFrom, List.splitOn_cons_eq_if_modifyHead]
      by_cases hByte : byte = newline
      · -- A newline: the next line starts with nothing seen.
        rw [if_pos hByte, if_pos (by simpa using hByte),
          List.modifyHead_cons, List.append_nil,
          pieceLines_cons (List.splitOn_ne_nil _ _),
          LineBuffer.terminated_holding,
          LineBuffer.empty_eq_holding, ih,
          modifyHead_nil_append]
      · rw [if_neg hByte, if_neg (by simpa using hByte),
          LineBuffer.push_holding, ih,
          List.modifyHead_modifyHead]
        congr 2
        funext piece
        simp

/- The lines of `drain` are those of the reference. -/
theorem drain_eq_reference
    (output : List UInt8) :
    drain output = referenceLines output := by
  rw [drain, LineBuffer.empty_eq_holding,
    drainFrom_holding, modifyHead_nil_append,
    referenceLines]

end DevTunnel

end Sshdt

------------------------------------------------------------
-- Every Way Of Reading
------------------------------------------------------------

namespace Sshdt

namespace DevTunnel

namespace Receiver

/- A receiver that is gone gets nothing more. -/
theorem takes_append_of_gone
    {receiver : Receiver}
    {sent : List Text}
    (hSent : receiver.takes sent = sent)
    (hGone : receiver.isAlive sent = false)
    (lines : List Text) :
    receiver.takes (sent ++ lines) = sent := by
  cases receiver with
  | none => cases hGone
  | some n =>
      simp only [isAlive, decide_eq_false_iff_not,
        Nat.not_lt] at hGone
      simp only [takes] at hSent ⊢
      rw [List.take_append_of_le_length hGone, hSent]

/- A receiver that is alive gets the next line. -/
theorem takes_append_of_alive
    {receiver : Receiver}
    {sent : List Text}
    (hAlive : receiver.isAlive sent = true)
    (line : Text) :
    receiver.takes (sent ++ [line]) = sent ++ [line] := by
  cases receiver with
  | none => rfl
  | some n =>
      simp only [isAlive, decide_eq_true_eq] at hAlive
      simp only [takes]
      rw [List.take_of_length_le]
      simpa using Nat.succ_le_of_lt hAlive

end Receiver

namespace Draining

/-
  The lines that the receiver gets in the end, given the
  bytes to come.
-/
def due
    (receiver : Receiver)
    (d : Draining)
    (bytes : List UInt8) : List Text :=
  match d with
  | .looking buffer sent =>
      receiver.takes (sent ++ drainFrom buffer bytes)
  | .returned sent => sent

/- The receiver has got every line that was sent to it. -/
def Delivered
    (receiver : Receiver) : Draining → Prop
| .looking _ sent => receiver.takes sent = sent
| .returned _ => True

/- The buffer is what the bytes of one line leave. -/
def HoldsLine : Draining → Prop
| .looking buffer _ => ∃ seen, buffer = .holding seen
| .returned _ => True

theorem onByte_delivered
    {receiver : Receiver}
    {d : Draining}
    (hDelivered : d.Delivered receiver)
    (byte : UInt8) :
    (d.onByte receiver byte).Delivered receiver := by
  cases d with
  | returned sent => trivial
  | looking buffer sent =>
      simp only [onByte]
      split
      · split
        · rename_i hAlive
          exact Receiver.takes_append_of_alive hAlive _
        · trivial
      · exact hDelivered

/- One byte changes nothing of what is due. -/
theorem due_onByte
    {receiver : Receiver}
    {d : Draining}
    (hDelivered : d.Delivered receiver)
    (byte : UInt8)
    (bytes : List UInt8) :
    (d.onByte receiver byte).due receiver bytes =
      d.due receiver (byte :: bytes) := by
  cases d with
  | returned sent => rfl
  | looking buffer sent =>
      simp only [onByte, due, drainFrom]
      by_cases hByte : byte = newline
      · rw [if_pos hByte, if_pos hByte]
        cases hAlive : receiver.isAlive sent with
        | true => simp
        | false =>
            exact
              (Receiver.takes_append_of_gone hDelivered hAlive
                _).symm
      · rw [if_neg hByte, if_neg hByte]

theorem onByte_holdsLine
    {d : Draining}
    (hHolds : d.HoldsLine)
    (receiver : Receiver)
    (byte : UInt8) :
    (d.onByte receiver byte).HoldsLine := by
  cases d with
  | returned sent => trivial
  | looking buffer sent =>
      rcases hHolds with ⟨seen, rfl⟩
      simp only [onByte]
      split
      · split
        · exact ⟨[], rfl⟩
        · trivial
      · exact ⟨seen ++ [byte],
          LineBuffer.push_holding seen byte⟩

/- All bytes keep what one byte keeps. -/
theorem onBytes_delivered
    {receiver : Receiver}
    {d : Draining}
    (hDelivered : d.Delivered receiver)
    (bytes : List UInt8) :
    (d.onBytes receiver bytes).Delivered receiver := by
  induction bytes generalizing d with
  | nil => exact hDelivered
  | cons byte bytes ih =>
      exact ih (onByte_delivered hDelivered byte)

theorem onBytes_holdsLine
    {d : Draining}
    (hHolds : d.HoldsLine)
    (receiver : Receiver)
    (bytes : List UInt8) :
    (d.onBytes receiver bytes).HoldsLine := by
  induction bytes generalizing d with
  | nil => exact hHolds
  | cons byte bytes ih =>
      exact ih (onByte_holdsLine hHolds receiver byte)

theorem due_onBytes
    {receiver : Receiver}
    {d : Draining}
    (hDelivered : d.Delivered receiver)
    (bytes rest : List UInt8) :
    (d.onBytes receiver bytes).due receiver rest =
      d.due receiver (bytes ++ rest) := by
  induction bytes generalizing d with
  | nil => rfl
  | cons byte bytes ih =>
      rw [List.cons_append, ← due_onByte hDelivered byte,
        ← ih (onByte_delivered hDelivered byte)]
      rfl

/- Reads are looked at byte by byte. -/
theorem onReads_eq_onBytes
    (receiver : Receiver)
    (d : Draining)
    (reads : List Chunk) :
    d.onReads receiver reads =
      d.onBytes receiver (Chunk.stream reads) := by
  simp only [onReads, onBytes, Chunk.stream,
    List.foldl_flatMap]

/- At the end of the stream, all that is due is sent. -/
theorem finish_eq_due
    {receiver : Receiver}
    {d : Draining}
    (hDelivered : d.Delivered receiver) :
    d.finish receiver = d.due receiver [] := by
  cases d with
  | returned sent => rfl
  | looking buffer sent =>
      simp only [finish, due, drainFrom]
      cases buffer.remainder with
      | none =>
          simpa [Delivered] using hDelivered.symm
      | some line =>
          cases hAlive : receiver.isAlive sent with
          | true =>
              exact
                (Receiver.takes_append_of_alive hAlive
                  line).symm
          | false =>
              exact
                (Receiver.takes_append_of_gone hDelivered
                  hAlive _).symm

theorem start_delivered
    (receiver : Receiver) :
    start.Delivered receiver := by
  cases receiver with
  | none => rfl
  | some n => exact List.take_nil

theorem start_holdsLine :
    start.HoldsLine :=
  ⟨[], rfl⟩

theorem held_le
    {d : Draining}
    (hHolds : d.HoldsLine) :
    d.held ≤ lineLimit := by
  cases d with
  | returned sent => exact Nat.zero_le _
  | looking buffer sent =>
      rcases hHolds with ⟨seen, rfl⟩
      exact LineBuffer.length_holding_le seen

end Draining

open Draining

/- The reads count for their bytes only. -/
theorem drainReads_eq_drain
    (receiver : Receiver)
    (reads : List Chunk) :
    drainReads receiver reads =
      receiver.takes (drain (Chunk.stream reads)) := by
  have hStart := start_delivered receiver
  have hDue := due_onBytes hStart (Chunk.stream reads) []
  rw [List.append_nil] at hDue
  unfold drainReads
  rw [onReads_eq_onBytes,
    finish_eq_due (onBytes_delivered hStart _), hDue]
  rfl

/-
  However a stream is cut into reads, `drain` sends the lines
  of the reference, and a receiver that is dropped after some
  lines has got the first ones. Between any two bytes the
  line buffer is within its limit.
-/
theorem drainReads_lossless
    (output : List UInt8)
    (reads : List Chunk)
    (hCut : Chunk.stream reads = output) :
    drainReads none reads = referenceLines output ∧
      (∀ n,
        drainReads (some n) reads =
          (referenceLines output).take n) ∧
      ∀ receiver before chunk after seen rest,
        reads = before ++ chunk :: after →
        chunk.bytes = seen ++ rest →
        ((start.onReads receiver before).onBytes receiver
          seen).held ≤ lineLimit := by
  subst hCut
  refine ⟨?_, ?_, ?_⟩
  · rw [drainReads_eq_drain, drain_eq_reference]
    rfl
  · intro n
    rw [drainReads_eq_drain, drain_eq_reference]
    rfl
  · intro receiver before chunk after seen rest _ _
    apply held_le
    apply onBytes_holdsLine
    rw [onReads_eq_onBytes]
    exact onBytes_holdsLine start_holdsLine receiver _

/- `a\r`, a newline and `€`, which the second cut divides. -/
def cutInCharacter : List Chunk :=
  [⟨[0x61], by decide, by decide⟩,
    ⟨[0x0d, 0x0a, 0xe2], by decide, by decide⟩,
    ⟨[0x82, 0xac], by decide, by decide⟩]

theorem cutInCharacter_lossless :
    drainReads none cutInCharacter =
        referenceLines [0x61, 0x0d, 0x0a, 0xe2, 0x82, 0xac] ∧
      referenceLines [0x61, 0x0d, 0x0a, 0xe2, 0x82, 0xac] =
        [['a'], ['€']] :=
  ⟨(drainReads_lossless _ cutInCharacter rfl).1, by decide⟩

end DevTunnel

end Sshdt

------------------------------------------------------------
-- The Drain Task
------------------------------------------------------------

namespace Sshdt

namespace DevTunnel

namespace DrainTask

/-
  A drain task with the lines it has sent; its reads and its
  waits for the channel are the steps.
-/
def machine
    (output : List UInt8) :
    Machine (DrainTask × List Text) DrainStep where
  init := (.spawned output, [])
  step := fun s step =>
    (s.1.step step s.1.phase).map fun after =>
      (after.1, s.2 ++ after.2.toList)

/- A step leaves the bytes of one line in the buffer. -/
theorem step_holding
    {task after : DrainTask}
    {step : DrainStep}
    {sent : Option Text}
    (hHolds : ∃ seen, task.buffer = .holding seen)
    (hStep :
      task.step step task.phase = some (after, sent)) :
    ∃ seen, after.buffer = .holding seen := by
  rcases hHolds with ⟨seen, hSeen⟩
  unfold DrainTask.step at hStep
  split at hStep
  · split at hStep <;> [skip; cases hStep]
    cases hStep
    exact ⟨seen, hSeen⟩
  · split at hStep <;> [skip; cases hStep]
    split at hStep <;> cases hStep
    · exact ⟨seen, hSeen⟩
    · exact ⟨seen, hSeen⟩
  · rename_i byte chunk hPhase
    split at hStep <;> cases hStep
    · exact ⟨seen, hSeen⟩
    · refine ⟨seen ++ [byte], ?_⟩
      rw [hSeen]
      exact LineBuffer.push_holding seen byte
  · cases hStep
    exact ⟨[], rfl⟩
  · cases hStep
    exact ⟨seen, hSeen⟩
  · cases hStep

/- What holds between any two steps of a drain task. -/
structure Inv
    (output : List UInt8)
    (s : DrainTask × List Text) : Prop where
  lines : s.2 ++ s.1.remaining = referenceLines output
  holding : ∃ seen, s.1.buffer = .holding seen

theorem step_inv
    {output : List UInt8}
    {s t : DrainTask × List Text}
    {step : DrainStep}
    (hInv : Inv output s)
    (hStep : (machine output).step s step = some t) :
    Inv output t := by
  rcases Option.map_eq_some_iff.mp hStep with
    ⟨⟨after, sent⟩, hTask, rfl⟩
  refine ⟨?_, step_holding hInv.holding hTask⟩
  rw [← hInv.lines, step_remaining hTask,
    List.append_assoc]

/-
  In every state of a drain task, the lines sent and those to
  come are the lines of the reference, and the line buffer is
  within its limit.
-/
theorem reachable_reference
    {output : List UInt8}
    {s : DrainTask × List Text}
    (hReachable : (machine output).Reachable s) :
    s.2 ++ s.1.remaining = referenceLines output ∧
      s.1.buffer.line.length ≤ lineLimit := by
  have hInit : Inv output (machine output).init :=
    ⟨drain_eq_reference output, [], rfl⟩
  have hInv : Inv output s :=
    hReachable.invariant hInit
      (fun _ _ _ hInv _ hStep => step_inv hInv hStep)
  rcases hInv with ⟨hLines, seen, hSeen⟩
  refine ⟨hLines, ?_⟩
  rw [hSeen]
  exact LineBuffer.length_holding_le seen

end DrainTask

end DevTunnel

end Sshdt
