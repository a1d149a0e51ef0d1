import Sshdt.Lib.ChunkRelay
import Sshdt.Server.Pipes

/-
  A session on a terminal (`run_pty` and `finish_channel` in
  `src/session.rs`).

  Two threads read and write the terminal. The session task
  sends what the one has read to the client and hands the
  client's data to the other, and asks at intervals whether
  the child has ended. A session ends when the child has, or
  when the output has, and then sends what is still queued,
  for two seconds at most.

  Both ways are relays of chunks. A terminal may stay open
  after its child has ended, and a write to the client may
  wait. The sizes of the terminal are modelled elsewhere.

  Key definitions include:
    * `PtySession`
    * `PtySession.step`
    * `PtySession.Inv`
    * `PtySession.Faithful`

  Key theorems include:
    * `PtySession.step_inv`
    * `PtySession.terminal_output_precedes_exit`
    * `PtySession.ends_after_exit`
-/

------------------------------------------------------------
-- Sessions
------------------------------------------------------------

namespace Sshdt

/- The bytes of one read of the terminal or the client. -/
def ptyChunk : Nat :=
  32768

/- The chunks between the reader thread and the session. -/
def ptyQueue : Option Nat :=
  some 64

/-
  Where the session task is. `looping` is the `select!`,
  which also writes to the client, `waiting` the blocking
  wait for the child and `flushing` the bounded flush of
  what is queued.
-/
inductive PtyPhase where
  | spawning
  | looping
  | waiting
  | flushing (result : WaitResult)
  | closing (code : UInt32) (sent : Nat)
  deriving DecidableEq, Repr

/-
  A session: `output` goes from the terminal to the client
  and `input` from the client to the terminal. `exit` is
  what waiting for the child gives.
-/
structure PtySession where
  output : ChunkRelay UInt8
  input : ChunkRelay UInt8
  started : Bool
  exit : Option WaitResult
  timedOut : Bool
  phase : PtyPhase
  sent : List ChannelMessage
  deriving DecidableEq, Repr

/-
  What happens in a session. `spawn` also says whether the
  terminal could be cloned for the two threads, and `stdin`
  is data of the client that the session reads.
-/
inductive PtyEvent where
  | spawn
      (inStartDir inherited : Except Unit Unit)
      (cloned : Bool)
  | output (step : RelayStep UInt8)
  | input (step : RelayStep UInt8)
  | stdin (n : Nat)
  | exits (result : WaitResult)
  | outputEnds
  | tick
  | waited
  | timeout
  | finish (delivered : Bool)

namespace PtySession

/- A session before its child is started. -/
def initial : PtySession where
  output := .start
  input := .start
  started := false
  exit := none
  timedOut := false
  phase := .spawning
  sent := []

/- The session task is at its `select!`, writing nothing. -/
def atSelect
    (p : PtySession) : Bool :=
  p.phase = .looping ∧ p.output.current = none

/-
  The phase once the output has ended or a write to the
  client has failed: the loop waits for the child, which it
  hangs up after a failure, and the flush is over.
-/
def afterOutput : PtyPhase → PtyPhase
| .looping => .waiting
| .flushing result => .closing (exitCodeOf result) 0
| phase => phase

/- The session receives chunks and writes them. -/
def writes : PtyPhase → Bool
| .looping | .flushing _ => true
| _ => false

/-
  A step on the way from the terminal to the client. The end
  of the terminal is a read of nothing or an error, and the
  reader thread ends at either.
-/
def outputStep
    (p : PtySession)
    (e : RelayStep UInt8) : Option PtySession :=
  if p.started = true ∧
      (e.side = .writer → writes p.phase = true) then
    (p.output.step ptyChunk ptyQueue e).map fun output =>
      { p with
        output
        phase :=
          if e = .writeFails then
            afterOutput p.phase
          else
            p.phase
        sent := p.sent ++
          PipeSession.carry .data (p.output.output e) }
  else
    none

/-
  A step on the way from the client to the terminal. The
  session reads in `stdin` only; the thread that writes the
  terminal ends at its first error.
-/
def inputStep
    (p : PtySession)
    (e : RelayStep UInt8) : Option PtySession :=
  if (e.side = .reader →
        p.atSelect = true ∧ (e = .eof ∨ e = .readFails)) ∧
      (e.side = .writer →
        p.started = true ∧ p.input.broken = false) then
    (p.input.step ptyChunk none e).map fun input =>
      { p with input }
  else
    none

/- One step of `run_pty` or of what surrounds it. -/
def step
    (command : SessionCommand)
    (p : PtySession) : PtyEvent → Option PtySession
| .spawn inStartDir inherited cloned =>
    match p.phase with
    | .spawning =>
        match spawnInStartDir command inStartDir
            inherited with
        | .ok _ =>
            if cloned then
              some { p with
                started := true, phase := .looping }
            else
              some { p with phase := .closing 1 0 }
        | .error _ => some { p with phase := .closing 127 0 }
    | _ => none
| .output e => p.outputStep e
| .input e => p.inputStep e
| .stdin n =>
    if p.atSelect = true ∧ p.input.readerDone = false then
      ((p.input.step ptyChunk none (.read n)).bind
        (·.step ptyChunk none .send)).map fun input =>
          { p with input }
    else
      none
| .exits result =>
    if p.started = true ∧ p.exit = none then
      some { p with exit := some result }
    else
      none
| .outputEnds =>
    if writes p.phase = true ∧ p.output.ended = true ∧
        p.output.current = none then
      some { p with phase := afterOutput p.phase }
    else
      none
-- A `try_wait` that fails is not looked at.
| .tick =>
    match p.exit with
    | some .failed => none
    | some result =>
        if p.atSelect then
          some { p with phase := .flushing result }
        else
          none
    | none => none
| .waited =>
    match p.phase, p.exit with
    | .waiting, some result =>
        some { p with phase := .flushing result }
    | _, _ => none
-- The flush is given up, in the middle of a write or not.
| .timeout =>
    match p.phase with
    | .flushing result =>
        some { p with
          timedOut := true
          phase := .closing (exitCodeOf result) 0 }
    | _ => none
| .finish delivered =>
    match p.phase with
    | .closing code sent =>
        match (closingMessages code)[sent]? with
        | some reply =>
            some { p with
              phase := .closing code (sent + 1)
              sent := p.sent ++
                if delivered then [.closing reply] else [] }
        | none => none
    | _ => none

/- The runs of a session with a command. -/
def machine
    (command : SessionCommand) :
    Machine PtySession PtyEvent where
  init := initial
  step := step command

end PtySession

end Sshdt

------------------------------------------------------------
-- Invariant
------------------------------------------------------------

namespace Sshdt

namespace PtySession

open ChannelMessage

variable {command : SessionCommand}
variable {p q : PtySession}

/- The closing messages that a phase allows. -/
def ClosingFits
    (phase : PtyPhase)
    (closing : List Reply) : Prop :=
  match phase with
  | .closing code sent =>
      closing.Sublist ((closingMessages code).take sent)
  | _ => closing = []

/- What is known in a phase about the child and its output. -/
def PhaseFits
    (p : PtySession) : Prop :=
  match p.phase with
  | .spawning => p.started = false
  | .looping =>
      p.started = true ∧ p.output.broken = false
  | .waiting => p.started = true
  | .flushing result =>
      p.started = true ∧ p.exit = some result
  | .closing code sent =>
      sent ≤ 3 ∧
        (p.started = false ∧ (code = 127 ∨ code = 1) ∨
          p.started = true ∧
            (p.timedOut = true ∨ p.output.Settled) ∧
            ∃ result,
              p.exit = some result ∧
                code = exitCodeOf result)

structure Inv
    (p : PtySession) : Prop where
  output : p.output.Inv
  input : p.input.Inv
  sent :
    ∃ closing,
      Transcript p.sent p.output.delivered [] closing ∧
        ClosingFits p.phase closing
  unstarted :
    p.started = false →
      p.output.delivered = [] ∧ p.output.broken = false ∧
        p.exit = none
  phase : p.PhaseFits

theorem initial_inv : initial.Inv where
  output := ChunkRelay.start_inv
  input := ChunkRelay.start_inv
  sent := ⟨[], .nil, rfl⟩
  unstarted := fun _ => ⟨rfl, rfl, rfl⟩
  phase := rfl

/- Before the session closes, nothing was closed. -/
theorem ClosingFits.eq_nil
    {phase : PtyPhase}
    {closing : List Reply}
    (hFits : ClosingFits phase closing)
    (hOpen : ∀ code sent, phase ≠ .closing code sent) :
    closing = [] := by
  unfold ClosingFits at hFits
  split at hFits
  · exact absurd rfl (hOpen _ _)
  · exact hFits

/- `finish_channel` starts with nothing closed. -/
theorem closingFits_start
    {phase : PtyPhase}
    (code : UInt32)
    (hOpen : ∀ code sent, phase ≠ .closing code sent) :
    ClosingFits phase = ClosingFits (.closing code 0) := by
  funext closing
  cases phase with
  | closing code sent => exact absurd rfl (hOpen code sent)
  | _ => simp [ClosingFits]

/- A session that writes has not begun to close. -/
theorem not_closing_of_writes
    {phase : PtyPhase}
    (hWrites : writes phase = true) :
    ∀ code sent, phase ≠ .closing code sent := by
  rintro code sent rfl
  cases hWrites

/- The session goes on to another phase. -/
theorem Inv.moveTo
    {phase : PtyPhase}
    {timedOut : Bool}
    (hInv : p.Inv)
    (hClosing : ClosingFits p.phase = ClosingFits phase)
    (hFits : PhaseFits { p with phase, timedOut }) :
    Inv { p with phase, timedOut } where
  output := hInv.output
  input := hInv.input
  sent := by
    rcases hInv.sent with ⟨closing, hSent, hOld⟩
    refine ⟨closing, hSent, ?_⟩
    rw [← hClosing]
    exact hOld
  unstarted := hInv.unstarted
  phase := hFits

/- What happens to the input does not concern the output. -/
theorem Inv.setInput
    {input : ChunkRelay UInt8}
    (hInv : p.Inv)
    (hInput : input.Inv) :
    Inv { p with input } where
  output := hInv.output
  input := hInput
  sent := hInv.sent
  unstarted := hInv.unstarted
  phase := hInv.phase

/- What a phase says about the output after a step of it. -/
theorem PhaseFits.setOutput
    {output : ChunkRelay UInt8}
    {sent : List ChannelMessage}
    (hFits : p.PhaseFits)
    (hStarted : p.started = true)
    (hUnbroken : output.broken = p.output.broken)
    (hSettled :
      (∃ code n, p.phase = .closing code n) →
        p.output.Settled → output.Settled) :
    PhaseFits { p with output, sent } := by
  unfold PhaseFits at hFits ⊢
  cases hPhase : p.phase with
  | spawning =>
      rw [hPhase] at hFits
      rw [hStarted] at hFits
      cases hFits
  | looping =>
      rw [hPhase] at hFits
      exact ⟨hStarted, hUnbroken.trans hFits.2⟩
  | waiting => exact hStarted
  | flushing result =>
      rw [hPhase] at hFits
      exact hFits
  | closing code n =>
      rw [hPhase] at hFits
      refine ⟨hFits.1, hFits.2.imp_right ?_⟩
      rintro ⟨hYes, hEnd, hCode⟩
      exact ⟨hYes, hEnd.imp_right
        (hSettled ⟨code, n, hPhase⟩), hCode⟩

/- A failed write is the last one of its loop. -/
theorem PhaseFits.afterOutput
    {output : ChunkRelay UInt8}
    {sent : List ChannelMessage}
    (hFits : p.PhaseFits)
    (hWrites : writes p.phase = true)
    (hSettled : output.Settled) :
    PhaseFits
      { p with
        output, sent
        phase := PtySession.afterOutput p.phase } := by
  unfold PhaseFits at hFits ⊢
  cases hPhase : p.phase with
  | looping =>
      rw [hPhase] at hFits
      exact hFits.1
  | flushing result =>
      rw [hPhase] at hFits
      exact ⟨Nat.zero_le 3, Or.inr ⟨hFits.1,
        Or.inr hSettled, result, hFits.2, rfl⟩⟩
  | _ =>
      rw [hPhase] at hWrites
      cases hWrites

/- Nothing is closed where the loops write or stop to. -/
theorem closingFits_afterOutput
    {phase : PtyPhase}
    (hWrites : writes phase = true) :
    ClosingFits phase =
      ClosingFits (PtySession.afterOutput phase) := by
  cases phase with
  | looping => rfl
  | flushing result =>
      exact closingFits_start _ (by simp)
  | _ => cases hWrites

theorem outputStep_inv
    {e : RelayStep UInt8}
    (hInv : p.Inv)
    (hStep : p.outputStep e = some q) :
    q.Inv := by
  unfold outputStep at hStep
  split at hStep <;> [rename_i hMay; cases hStep]
  rcases Option.map_eq_some_iff.mp hStep with
    ⟨output, hRelay, rfl⟩
  rcases hMay with ⟨hStarted, hWriter⟩
  have hOutput := ChunkRelay.step_inv hInv.output hRelay
  have hNotClosing :
      e.side = .writer →
        ∀ code n, p.phase ≠ .closing code n :=
    fun hSide => not_closing_of_writes (hWriter hSide)
  -- What the step sends comes before any closing message.
  have hSent :
      ∃ closing,
        Transcript (p.sent ++
            PipeSession.carry .data (p.output.output e))
          output.delivered [] closing ∧
          ClosingFits p.phase closing := by
    rcases hInv.sent with ⟨closing, hOld, hFits⟩
    rw [ChunkRelay.step_delivered hRelay]
    cases hSide : e.side with
    | writer =>
        rw [hFits.eq_nil (hNotClosing hSide)] at hOld hFits
        refine ⟨[], ?_, hFits⟩
        have hMore := hOld.output
          (PipeSession.closingOf_carry_data
            (p.output.output e))
        simpa using hMore
    | _ =>
        rw [ChunkRelay.output_not_writer (by simp [hSide])]
        refine ⟨closing, ?_, hFits⟩
        simpa [PipeSession.carry] using hOld
  have hUnstarted :
      p.started = false → output.delivered = [] ∧
        output.broken = false ∧ p.exit = none := by
    rw [hStarted]
    simp
  have hSettled :
      (∃ code n, p.phase = .closing code n) →
        p.output.Settled → output.Settled := by
    rintro ⟨code, n, hPhase⟩ hOld
    refine ChunkRelay.step_settled hOld hRelay ?_
    intro hSide
    exact hNotClosing hSide code n hPhase
  by_cases hFailed : e = .writeFails
  · rw [if_pos hFailed]
    have hWrites := hWriter (by rw [hFailed]; rfl)
    have hBroken := ChunkRelay.step_writeFails
      (hFailed ▸ hRelay)
    refine
      { output := hOutput, input := hInv.input, sent := ?_
        unstarted := hUnstarted
        phase := hInv.phase.afterOutput hWrites
          (Or.inr (Or.inr hBroken)) }
    rw [← closingFits_afterOutput hWrites]
    exact hSent
  · rw [if_neg hFailed]
    exact
      { output := hOutput, input := hInv.input, sent := hSent
        unstarted := hUnstarted
        phase := hInv.phase.setOutput hStarted
          (ChunkRelay.step_unbroken hRelay hFailed)
          hSettled }

theorem inputStep_inv
    {e : RelayStep UInt8}
    (hInv : p.Inv)
    (hStep : p.inputStep e = some q) :
    q.Inv := by
  unfold inputStep at hStep
  split at hStep <;> [skip; cases hStep]
  rcases Option.map_eq_some_iff.mp hStep with
    ⟨input, hRelay, rfl⟩
  exact hInv.setInput (ChunkRelay.step_inv hInv.input hRelay)

/- The child is started, or the session closes at once. -/
theorem spawn_inv
    {inStartDir inherited : Except Unit Unit}
    {cloned : Bool}
    (hInv : p.Inv)
    (hStep :
      p.step command (.spawn inStartDir inherited cloned) =
        some q) :
    q.Inv := by
  simp only [step] at hStep
  split at hStep <;> [rename_i hPhase; cases hStep]
  have hFits := hInv.phase
  rw [PhaseFits, hPhase] at hFits
  have hStart :
      ∀ code, ClosingFits p.phase =
        ClosingFits (.closing code 0) :=
    fun code => closingFits_start code (by simp [hPhase])
  split at hStep
  · split at hStep
    · cases hStep
      rcases hInv.sent with ⟨closing, hSent, hClosing⟩
      rw [hPhase] at hClosing
      exact
        { output := hInv.output, input := hInv.input
          sent := ⟨closing, hSent, hClosing⟩
          unstarted := by simp
          phase := ⟨rfl, (hInv.unstarted hFits).2.1⟩ }
    · cases hStep
      exact hInv.moveTo (hStart 1)
        ⟨Nat.zero_le 3, Or.inl ⟨hFits, Or.inr rfl⟩⟩
  · cases hStep
    exact hInv.moveTo (hStart 127)
      ⟨Nat.zero_le 3, Or.inl ⟨hFits, Or.inl rfl⟩⟩

theorem finish_inv
    {delivered : Bool}
    (hInv : p.Inv)
    (hStep : p.step command (.finish delivered) = some q) :
    q.Inv := by
  simp only [step] at hStep
  split at hStep <;> [rename_i code sent hPhase; cases hStep]
  split at hStep <;> [rename_i reply hReply; cases hStep]
  cases hStep
  have hFits := hInv.phase
  rw [PhaseFits, hPhase] at hFits
  rcases hInv.sent with ⟨closing, hSent, hClosing⟩
  rw [hPhase] at hClosing
  have hLess : sent < 3 := by
    rw [List.getElem?_eq_some_iff] at hReply
    exact hReply.1
  have hTake :
      (closingMessages code).take (sent + 1) =
        (closingMessages code).take sent ++ [reply] := by
    rw [List.take_add_one, hReply]
    rfl
  refine
    { output := hInv.output, input := hInv.input, sent := ?_
      unstarted := hInv.unstarted
      phase := ⟨hLess, hFits.2⟩ }
  cases delivered with
  | true =>
      refine ⟨closing ++ [reply], hSent.close reply, ?_⟩
      simp only [ClosingFits, hTake]
      exact hClosing.append_right [reply]
  | false =>
      simp only [Bool.false_eq_true, if_false,
        List.append_nil]
      refine ⟨closing, hSent, ?_⟩
      simp only [ClosingFits, hTake]
      exact hClosing.trans (List.sublist_append_left _ _)

/- The child has ended, which the session may not know yet. -/
theorem exits_inv
    {result : WaitResult}
    (hInv : p.Inv)
    (hStep : p.step command (.exits result) = some q) :
    q.Inv := by
  simp only [step] at hStep
  split at hStep <;> [rename_i hRuns; cases hStep]
  cases hStep
  refine
    { output := hInv.output, input := hInv.input
      sent := hInv.sent
      unstarted := fun hNot => ?_, phase := ?_ }
  · rw [hRuns.1] at hNot
    cases hNot
  · have hFits := hInv.phase
    unfold PhaseFits at hFits ⊢
    cases hPhase : p.phase with
    | flushing known =>
        rw [hPhase, hRuns.2] at hFits
        cases hFits.2
    | closing code sent =>
        rw [hPhase] at hFits
        rcases hFits.2 with hNot | ⟨_, _, known, hExit, _⟩
        · exact ⟨hFits.1, Or.inl hNot⟩
        · rw [hRuns.2] at hExit
          cases hExit
    | _ =>
        rw [hPhase] at hFits
        exact hFits

/- A poll that finds the child ended, between two chunks. -/
theorem tick_enabled
    (hStep : p.step command .tick = some q) :
    ∃ result,
      p.exit = some result ∧ result ≠ .failed ∧
        (p.phase = .looping ∧ p.output.current = none) ∧
        q = { p with phase := .flushing result } := by
  simp only [step] at hStep
  split at hStep
  · cases hStep
  next result hNot hExit =>
    split at hStep <;> [rename_i hSelect; cases hStep]
    cases hStep
    refine ⟨result, hExit, fun hFailed => ?_, ?_, rfl⟩
    · exact hNot hFailed
    · simpa [atSelect] using hSelect
  · cases hStep

/- Every step keeps the invariant. -/
theorem step_inv
    {e : PtyEvent}
    (hInv : p.Inv)
    (hStep : p.step command e = some q) :
    q.Inv := by
  have hFits := hInv.phase
  cases e with
  | spawn inStartDir inherited cloned =>
      exact spawn_inv hInv hStep
  | output e => exact outputStep_inv hInv hStep
  | input e => exact inputStep_inv hInv hStep
  | stdin n =>
      simp only [step] at hStep
      split at hStep <;> [skip; cases hStep]
      rcases Option.map_eq_some_iff.mp hStep with
        ⟨input, hBoth, rfl⟩
      rcases Option.bind_eq_some_iff.mp hBoth with
        ⟨held, hRead, hSend⟩
      exact hInv.setInput (ChunkRelay.step_inv
        (ChunkRelay.step_inv hInv.input hRead) hSend)
  | exits result => exact exits_inv hInv hStep
  | outputEnds =>
      simp only [step] at hStep
      split at hStep <;> [rename_i hEnds; cases hStep]
      cases hStep
      exact hInv.moveTo (closingFits_afterOutput hEnds.1)
        (hFits.afterOutput hEnds.1
          (hInv.output.complete hEnds.2.1 hEnds.2.2))
  | tick =>
      rcases tick_enabled hStep with
        ⟨result, hExit, _, hSelect, rfl⟩
      rw [PhaseFits, hSelect.1] at hFits
      exact hInv.moveTo (by rw [hSelect.1]; rfl)
        ⟨hFits.1, hExit⟩
  | waited =>
      simp only [step] at hStep
      split at hStep <;> [rename_i result hPhase hExit;
        cases hStep]
      cases hStep
      rw [PhaseFits, hPhase] at hFits
      exact hInv.moveTo (by rw [hPhase]; rfl) ⟨hFits, hExit⟩
  | timeout =>
      simp only [step] at hStep
      split at hStep <;> [rename_i result hPhase; cases hStep]
      cases hStep
      rw [PhaseFits, hPhase] at hFits
      exact hInv.moveTo
        (closingFits_start _ (by simp [hPhase]))
        ⟨Nat.zero_le 3, Or.inr ⟨hFits.1, Or.inl rfl, result,
          hFits.2, rfl⟩⟩
  | finish delivered => exact finish_inv hInv hStep

theorem reachable_inv
    (hReachable : (machine command).Reachable p) :
    p.Inv :=
  hReachable.invariant initial_inv
    (fun _ _ _ hInv _ hStep => step_inv hInv hStep)

end PtySession

end Sshdt

------------------------------------------------------------
-- What The Client And The Terminal Get
------------------------------------------------------------

namespace Sshdt

namespace PtySession

open ChannelMessage

variable {command : SessionCommand}
variable {p q : PtySession}

/-
  What a session does to the streams of its terminal.

  The client gets a first part of what the terminal shows,
  nothing on standard error, and closing messages only after
  the output. Once it got one of these, the session never
  started (code 127, or 1 for a terminal that could not be
  cloned), or the child was waited for and the exit code is
  that of the wait; unless the flush was given up after its
  two seconds, the output has then arrived as a whole, or
  was cut off by an error. The terminal gets a first part of
  the client's data.
-/
structure Faithful
    (p : PtySession) : Prop where
  order : OutputFirst p.sent
  output : outOf p.sent <+: p.output.written
  error : errOf p.sent = []
  closing :
    closingOf p.sent ≠ [] →
      ∃ code,
        (closingOf p.sent).Sublist (closingMessages code) ∧
          (p.started = false ∧ outOf p.sent = [] ∧
              (code = 127 ∨ code = 1) ∨
            ∃ result,
              p.exit = some result ∧
                code = exitCodeOf result ∧
                (p.timedOut = true ∨ p.output.cut = true ∨
                  p.output.broken = true ∨
                  outOf p.sent = p.output.written ∧
                    p.output.sourceOpen = false))
  input : p.input.delivered <+: p.input.written

theorem Inv.faithful
    (hInv : p.Inv) :
    p.Faithful := by
  rcases hInv.sent with ⟨closing, hSent, hClosing⟩
  have hFits := hInv.phase
  refine
    { order := hSent.first, output := ?_
      error := hSent.err, closing := ?_
      input := hInv.input.prefix_written }
  · rw [hSent.out]
    exact hInv.output.prefix_written
  · intro hSome
    rw [hSent.closing] at hSome ⊢
    have hPhase :
        ∃ code sent, p.phase = .closing code sent := by
      by_contra hOpen
      push Not at hOpen
      exact hSome (hClosing.eq_nil hOpen)
    rcases hPhase with ⟨code, sent, hPhase⟩
    rw [hPhase] at hClosing
    rw [PhaseFits, hPhase] at hFits
    refine ⟨code, hClosing.trans (List.take_sublist _ _), ?_⟩
    rcases hFits.2 with ⟨hNot, hCode⟩ | ⟨_, hEnd, hCode⟩
    · refine Or.inl ⟨hNot, ?_, hCode⟩
      rw [hSent.out]
      exact (hInv.unstarted hNot).1
    · rcases hCode with ⟨result, hResult, hCode⟩
      refine Or.inr ⟨result, hResult, hCode, ?_⟩
      rcases hEnd with hLate | hArrived | hCut | hBroken
      · exact Or.inl hLate
      · exact Or.inr (Or.inr (Or.inr
          ⟨hSent.out.trans hArrived.1, hArrived.2⟩))
      · exact Or.inr (Or.inl hCut)
      · exact Or.inr (Or.inr (Or.inl hBroken))

/-
  In every state of every run, however the two threads, the
  session, the child and the client are interleaved.
-/
theorem terminal_output_precedes_exit
    (hReachable : (machine command).Reachable p) :
    p.Faithful :=
  (reachable_inv hReachable).faithful

/-
  The child echoes a byte and writes on after the session
  has seen it end.
-/
def endedEvents : List PtyEvent :=
  [.spawn (.ok ()) (.ok ()) true, .input (.put [1]),
    .stdin 1, .input .take, .input (.deliver 1),
    .output (.put [1, 2]), .output (.read 2), .output .send,
    .output .take, .output (.deliver 1), .exits (.code 3),
    .output (.put [4])]

/- The last chunk is flushed and the channel closed. -/
def flushEvents : List PtyEvent :=
  [.output (.deliver 1), .output .chunkDone, .tick,
    .output (.read 1), .output .send, .output .take,
    .output (.deliver 1), .output .chunkDone, .timeout,
    .finish true, .finish true, .finish true]

/- What the client is sent in that run. -/
def flushedSent : List ChannelMessage :=
  [.data [1], .data [2], .data [4],
    .closing (.exitStatus 3), .closing .eof, .closing .close]

theorem flushEvents_faithful :
    ∃ p,
      (machine PipeSession.sampleCommand).exec initial
          (endedEvents ++ flushEvents) = some p ∧
        p.sent = flushedSent ∧ p.Faithful := by
  have hSent :
      ((machine PipeSession.sampleCommand).exec initial
          (endedEvents ++ flushEvents)).map
        PtySession.sent = some flushedSent := by
    decide
  rcases Option.map_eq_some_iff.mp hSent with ⟨p, hRun, hEq⟩
  refine ⟨p, hRun, hEq,
    @terminal_output_precedes_exit
      PipeSession.sampleCommand p ?_⟩
  exact .exec .init (Machine.meetsAll_true _ _) hRun

end PtySession

end Sshdt

------------------------------------------------------------
-- The End Of A Session
------------------------------------------------------------

namespace Sshdt

/- The event is a step of the session or of its threads. -/
def PtyEvent.own : PtyEvent → Bool
| .output e | .input e => e.side ≠ .source
| .exits _ => false
| _ => true

/- The event is an error of a read or a write. -/
def PtyEvent.fails : PtyEvent → Bool
| .output e | .input e => e = .readFails ∨ e = .writeFails
| .finish delivered => !delivered
| _ => false

/- The event is a write to the client or the terminal. -/
def PtyEvent.writing : PtyEvent → Bool
| .output e | .input e => e.side = .writer
| _ => false

/- The steps of its own that a phase has left at most. -/
def PtyPhase.left : PtyPhase → Nat
| .looping => 6
| .waiting => 5
| .flushing _ => 4
| .closing _ sent => 3 - sent
| .spawning => 0

namespace PtySession

variable {command : SessionCommand}
variable {p q : PtySession}

/- All closing messages were sent, or could not be. -/
def Closed
    (p : PtySession) : Prop :=
  ∃ code, p.phase = .closing code 3

/- The steps of its own that a session has left at most. -/
def work
    (p : PtySession) : Nat :=
  p.output.work + p.input.work + p.phase.left

/- To stop writing is a step onwards. -/
theorem left_afterOutput
    {phase : PtyPhase}
    (hWrites : writes phase = true) :
    (afterOutput phase).left < phase.left := by
  cases phase with
  | looping => decide
  | flushing result => simp [afterOutput, PtyPhase.left]
  | _ => cases hWrites

/- A child that has ended was started. -/
theorem Inv.started_of_exit
    (hInv : p.Inv)
    (hExit : p.exit.isSome = true) :
    p.started = true := by
  by_contra hNot
  rw [Bool.not_eq_true] at hNot
  rw [(hInv.unstarted hNot).2.2] at hExit
  cases hExit

theorem outputStep_work
    {e : RelayStep UInt8}
    (hInv : p.Inv)
    (hSide : e.side ≠ .source)
    (hStep : p.outputStep e = some q) :
    q.work < p.work ∧ q.exit = p.exit := by
  unfold outputStep at hStep
  split at hStep <;> [rename_i hMay; cases hStep]
  rcases Option.map_eq_some_iff.mp hStep with
    ⟨output, hRelay, rfl⟩
  have hLess := ChunkRelay.step_work hInv.output hRelay hSide
  refine ⟨?_, rfl⟩
  simp only [work]
  split
  · rename_i hFailed
    have hPhase := left_afterOutput
      (hMay.2 (by rw [hFailed]; rfl))
    omega
  · omega

theorem inputStep_work
    {e : RelayStep UInt8}
    (hInv : p.Inv)
    (hSide : e.side ≠ .source)
    (hStep : p.inputStep e = some q) :
    q.work < p.work ∧ q.exit = p.exit := by
  unfold inputStep at hStep
  split at hStep <;> [skip; cases hStep]
  rcases Option.map_eq_some_iff.mp hStep with
    ⟨input, hRelay, rfl⟩
  have hLess := ChunkRelay.step_work hInv.input hRelay hSide
  refine ⟨?_, rfl⟩
  simp only [work]
  omega

/- A step of its own makes the work of a session smaller. -/
theorem step_work
    {e : PtyEvent}
    (hInv : p.Inv)
    (hExit : p.exit.isSome = true)
    (hOwn : e.own = true)
    (hStep : p.step command e = some q) :
    q.work < p.work ∧ q.exit = p.exit := by
  have hStarted := hInv.started_of_exit hExit
  have hFits := hInv.phase
  cases e with
  | spawn inStartDir inherited cloned =>
      simp only [step] at hStep
      split at hStep <;> [rename_i hPhase; cases hStep]
      rw [PhaseFits, hPhase, hStarted] at hFits
      cases hFits
  | output e =>
      exact outputStep_work hInv (of_decide_eq_true hOwn)
        hStep
  | input e =>
      exact inputStep_work hInv (of_decide_eq_true hOwn)
        hStep
  | stdin n =>
      simp only [step] at hStep
      split at hStep <;> [skip; cases hStep]
      rcases Option.map_eq_some_iff.mp hStep with
        ⟨input, hBoth, rfl⟩
      rcases Option.bind_eq_some_iff.mp hBoth with
        ⟨held, hRead, hSend⟩
      have hFirst := ChunkRelay.step_work hInv.input hRead
        (by simp [RelayStep.side])
      have hSecond := ChunkRelay.step_work
        (ChunkRelay.step_inv hInv.input hRead) hSend
        (by simp [RelayStep.side])
      refine ⟨?_, rfl⟩
      simp only [work]
      omega
  | exits result => cases hOwn
  | outputEnds =>
      simp only [step] at hStep
      split at hStep <;> [rename_i hEnds; cases hStep]
      cases hStep
      have hLess := left_afterOutput hEnds.1
      refine ⟨?_, rfl⟩
      simp only [work]
      omega
  | tick =>
      rcases tick_enabled hStep with
        ⟨result, _, _, hSelect, rfl⟩
      refine ⟨?_, rfl⟩
      simp only [work, hSelect.1, PtyPhase.left]
      omega
  | waited =>
      simp only [step] at hStep
      split at hStep <;> [rename_i hPhase _; cases hStep]
      cases hStep
      refine ⟨?_, rfl⟩
      simp only [work, hPhase, PtyPhase.left]
      omega
  | timeout =>
      simp only [step] at hStep
      split at hStep <;> [rename_i hPhase; cases hStep]
      cases hStep
      refine ⟨?_, rfl⟩
      simp only [work, hPhase, PtyPhase.left]
      omega
  | finish delivered =>
      simp only [step] at hStep
      split at hStep <;> [rename_i code sent hPhase;
        cases hStep]
      split at hStep <;> [rename_i reply hReply; cases hStep]
      cases hStep
      have hLess : sent < 3 := by
        rw [List.getElem?_eq_some_iff] at hReply
        exact hReply.1
      refine ⟨?_, rfl⟩
      simp only [work, hPhase, PtyPhase.left]
      omega

/- The child has ended, and waiting for it tells how. -/
def ChildEnded
    (p : PtySession) : Prop :=
  ∃ result, p.exit = some result ∧ result ≠ .failed

instance decidableChildEnded
    (p : PtySession) : Decidable p.ChildEnded :=
  decidable_of_iff
    (p.exit.any (fun result => result ≠ .failed) = true)
    (by simp [ChildEnded, Option.any_eq_true])

/-
  A session can go on by itself, without an error: only in
  the loop, in the middle of a chunk, does it depend on the
  client.
-/
def GoesOn
    (command : SessionCommand)
    (p : PtySession) : Prop :=
  ∃ e : PtyEvent, e.own = true ∧ e.fails = false ∧
    (p.step command e).isSome = true ∧
    (e.writing = true →
      p.phase = .looping ∧ p.output.current.isSome = true)

/- Until it has closed the channel, a session can go on. -/
theorem Inv.goesOn
    (hInv : p.Inv)
    (hEnded : p.ChildEnded)
    (hOpen : ¬ p.Closed) :
    p.GoesOn command := by
  rcases hEnded with ⟨result, hResult, hStatus⟩
  have hStarted := hInv.started_of_exit (by simp [hResult])
  have hFits := hInv.phase
  cases hPhase : p.phase with
  | spawning =>
      rw [PhaseFits, hPhase, hStarted] at hFits
      cases hFits
  | looping =>
      rw [PhaseFits, hPhase] at hFits
      cases hBusy : p.output.current with
      | none =>
          have hSelect : p.atSelect = true := by
            simp [atSelect, hPhase, hBusy]
          refine ⟨.tick, rfl, rfl, ?_,
            by simp [PtyEvent.writing]⟩
          cases result with
          | failed => exact absurd rfl hStatus
          | _ => simp [step, hResult, hSelect]
      | some items =>
          have hWriter :
              ∃ e : RelayStep UInt8, e.side = .writer ∧
                (e = .writeFails → p.output.broken = true) ∧
                (p.output.step ptyChunk ptyQueue e).isSome =
                  true :=
            ChunkRelay.writer_enabled
              (Option.isSome_iff_exists.mpr ⟨_, hBusy⟩)
          rcases hWriter with ⟨e, hSide, hBroken, hSome⟩
          have hWrite : e ≠ .writeFails := by
            intro hFails
            rw [hFits.2] at hBroken
            cases hBroken hFails
          have hRead : e ≠ .readFails := by
            rintro rfl
            cases hSide
          refine ⟨.output e, by simp [PtyEvent.own, hSide],
            by simp [PtyEvent.fails, hWrite, hRead],
            ?_, fun _ => ⟨hPhase, by simp [hBusy]⟩⟩
          simpa [step, outputStep, hStarted, hPhase, writes]
            using hSome
  | waiting =>
      exact ⟨.waited, rfl, rfl,
        by simp [step, hPhase, hResult],
        by simp [PtyEvent.writing]⟩
  | flushing known =>
      exact ⟨.timeout, rfl, rfl, by simp [step, hPhase],
        by simp [PtyEvent.writing]⟩
  | closing code sent =>
      refine ⟨.finish true, rfl, rfl, ?_,
        by simp [PtyEvent.writing]⟩
      have hLess : sent < (closingMessages code).length := by
        rw [PhaseFits, hPhase] at hFits
        have hMost := hFits.1
        have hNot : sent ≠ 3 := by
          rintro rfl
          exact hOpen ⟨code, hPhase⟩
        simp only [closingMessages, List.length_cons,
          List.length_nil]
        omega
      simp [step, hPhase, List.getElem?_eq_getElem hLess]

/-
  A session whose child has ended closes its channel, even
  where the terminal stays open for good.

  However its threads are scheduled, it takes no more steps
  of its own than it has work left, and it can always take
  one that is no error until all closing messages were sent.
-/
theorem ends_after_exit
    {es : List PtyEvent}
    (hReachable : (machine command).Reachable p)
    (hEnded : p.ChildEnded)
    (hOwn : ∀ e ∈ es, e.own = true)
    (hExec : (machine command).exec p es = some q) :
    es.length + q.work ≤ p.work ∧
      (q.Closed ∨ q.GoesOn command) := by
  induction es generalizing p with
  | nil =>
      simp only [Machine.exec, Option.some.injEq] at hExec
      subst hExec
      refine ⟨by simp, ?_⟩
      by_cases hClosed : p.Closed
      · exact Or.inl hClosed
      · exact Or.inr
          ((reachable_inv hReachable).goesOn hEnded hClosed)
  | cons e es ih =>
      rcases Machine.exec_cons.mp hExec with
        ⟨t, hStep, hRest⟩
      have hExit : p.exit.isSome = true := by
        rcases hEnded with ⟨result, hResult, _⟩
        simp [hResult]
      rcases step_work (reachable_inv hReachable) hExit
          (hOwn e List.mem_cons_self) hStep with
        ⟨hLess, hSame⟩
      rcases ih (.step hReachable trivial hStep)
          (by rwa [ChildEnded, hSame])
          (fun e' h => hOwn e' (List.mem_cons_of_mem e h))
          hRest with
        ⟨hBound, hEnd⟩
      refine ⟨?_, hEnd⟩
      rw [List.length_cons]
      omega

theorem flushEvents_end :
    ∃ p q,
      (machine PipeSession.sampleCommand).exec initial
          endedEvents = some p ∧
        (machine PipeSession.sampleCommand).exec p
          flushEvents = some q ∧
        p.output.sourceOpen = true ∧
        flushEvents.length + q.work ≤ p.work ∧
        (q.Closed ∨ q.GoesOn PipeSession.sampleCommand) := by
  have hEnded :
      ((machine PipeSession.sampleCommand).exec initial
          endedEvents).map
        (fun p => (decide p.ChildEnded,
          p.output.sourceOpen)) =
          some (true, true) := by
    decide
  rcases Option.map_eq_some_iff.mp hEnded with
    ⟨p, hBefore, hState⟩
  have hBoth :
      ((machine PipeSession.sampleCommand).exec initial
        (endedEvents ++ flushEvents)).isSome = true := by
    decide
  rcases Option.isSome_iff_exists.mp hBoth with ⟨q, hAll⟩
  rcases Machine.exec_append.mp hAll with ⟨r, hFirst, hRest⟩
  rw [hBefore] at hFirst
  cases hFirst
  refine ⟨p, q, hBefore, hRest,
    (Prod.mk.inj hState).2, ends_after_exit ?_
      (of_decide_eq_true (Prod.mk.inj hState).1)
      (by decide) hRest⟩
  exact .exec .init (Machine.meetsAll_true _ _) hBefore

end PtySession

end Sshdt
