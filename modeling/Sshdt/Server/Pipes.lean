import Sshdt.Lib.Machine
import Sshdt.Lib.Pump
import Sshdt.Server.Channel

/-
  A session without a terminal (`run_pipe` and
  `finish_channel` in `src/session.rs`).

  The child runs with three pipes. Two tasks copy its output
  to the client, and the session copies the client's data to
  the child until the child ends. Then the session waits for
  the two tasks and closes the channel.

  The pipes are pumps. What the child and its descendants
  write, when a pipe is closed and when the child ends is up
  to them: a pipe may stay open after the child has ended. A
  write to the client may fail at any time, as may a write
  to the child.

  Key definitions include:
    * `ChannelMessage`
    * `Transcript`
    * `exitCodeOf`
    * `spawnInStartDir`
    * `PipeSession`
    * `PipeSession.step`
    * `PipeSession.Inv`

  Key theorems include:
    * `PipeSession.step_inv`
    * `PipeSession.step_slot`
    * `PipeSession.output_precedes_exit`
    * `PipeSession.closes_after_exit`
-/

------------------------------------------------------------
-- What The Client Is Sent
------------------------------------------------------------

namespace Sshdt

/-
  A message on the channel of a running session: data,
  extended data of type 1, or a closing message.
-/
inductive ChannelMessage where
  | data (bytes : List UInt8)
  | extended (bytes : List UInt8)
  | closing (reply : Reply)
  deriving DecidableEq, Repr

namespace ChannelMessage

/- The bytes of standard output in a message. -/
def out : ChannelMessage → List UInt8
| data bytes => bytes
| _ => []

/- The bytes of standard error in a message. -/
def err : ChannelMessage → List UInt8
| extended bytes => bytes
| _ => []

/- The closing message that a message is. -/
def reply? : ChannelMessage → Option Reply
| closing reply => some reply
| _ => none

/- The standard output in a list of messages. -/
def outOf
    (sent : List ChannelMessage) : List UInt8 :=
  sent.flatMap out

/- The standard error in a list of messages. -/
def errOf
    (sent : List ChannelMessage) : List UInt8 :=
  sent.flatMap err

/- The closing messages in a list of messages. -/
def closingOf
    (sent : List ChannelMessage) : List Reply :=
  sent.filterMap reply?

@[simp]
theorem outOf_append
    (sent more : List ChannelMessage) :
    outOf (sent ++ more) = outOf sent ++ outOf more :=
  List.flatMap_append

@[simp]
theorem errOf_append
    (sent more : List ChannelMessage) :
    errOf (sent ++ more) = errOf sent ++ errOf more :=
  List.flatMap_append

@[simp]
theorem closingOf_append
    (sent more : List ChannelMessage) :
    closingOf (sent ++ more) =
      closingOf sent ++ closingOf more :=
  List.filterMap_append

end ChannelMessage

open ChannelMessage

/-
  The output comes first, and the closing messages follow
  it.
-/
def OutputFirst
    (sent : List ChannelMessage) : Prop :=
  ∃ output,
    sent = output ++ (closingOf sent).map .closing ∧
      closingOf output = []

/- What the client was sent, sorted by its kind. -/
structure Transcript
    (sent : List ChannelMessage)
    (out err : List UInt8)
    (closing : List Reply) : Prop where
  out : outOf sent = out
  err : errOf sent = err
  closing : closingOf sent = closing
  first : OutputFirst sent

namespace Transcript

variable {sent : List ChannelMessage}
variable {out err : List UInt8}
variable {closing : List Reply}

theorem nil : Transcript [] [] [] [] where
  out := rfl
  err := rfl
  closing := rfl
  first := ⟨[], rfl, rfl⟩

/- More output, as long as nothing was closed. -/
theorem output
    {more : List ChannelMessage}
    (hSent : Transcript sent out err [])
    (hMore : closingOf more = []) :
    Transcript (sent ++ more) (out ++ outOf more)
      (err ++ errOf more) [] where
  out := by rw [outOf_append, hSent.out]
  err := by rw [errOf_append, hSent.err]
  closing := by rw [closingOf_append, hSent.closing, hMore]; rfl
  first := by
    have hNone : closingOf (sent ++ more) = [] := by
      rw [closingOf_append, hSent.closing, hMore]
      rfl
    exact ⟨sent ++ more, by rw [hNone]; simp, hNone⟩

/- One more closing message. -/
theorem close
    (hSent : Transcript sent out err closing)
    (reply : Reply) :
    Transcript (sent ++ [.closing reply]) out err
      (closing ++ [reply]) where
  out := by
    rw [outOf_append, hSent.out]
    exact List.append_nil _
  err := by
    rw [errOf_append, hSent.err]
    exact List.append_nil _
  closing := by rw [closingOf_append, hSent.closing]; rfl
  first := by
    rcases hSent.first with ⟨output, hOutput, hNone⟩
    refine ⟨output, ?_, hNone⟩
    rw [closingOf_append, List.map_append,
      ← List.append_assoc, ← hOutput]
    rfl

end Transcript

end Sshdt

------------------------------------------------------------
-- The Child
------------------------------------------------------------

namespace Sshdt

/-
  The result of waiting for a child: its exit code, the
  signal that ended it, neither, or an error.
-/
inductive WaitResult where
  | code (code : Int32)
  | signal (signal : Int32)
  | neither
  | failed
  deriving DecidableEq, Repr

/- `exit_code_of`, on Unix. -/
def exitCodeOf : WaitResult → UInt32
| .code code => code.toUInt32
| .signal signal => 128 + signal.toUInt32
| .neither => 1
| .failed => 1

/-
  `spawn_in_start_dir`: a child that cannot be started in
  the start directory is started in the inherited one.
-/
def spawnInStartDir
    {T E : Type}
    (command : SessionCommand)
    (inStartDir inherited : Except E T) : Except E T :=
  match inStartDir with
  | .error error =>
      if command.cwd.isSome then inherited else .error error
  | result => result

/- What the client is told when there is no child. -/
def spawnNotice
    (program error : Text) : List UInt8 :=
  Text.asBytes ("sshdt: failed to run ".toList ++ program ++
    ": ".toList ++ error ++ "\n".toList)

/- The buffer of `tokio::io::copy`. -/
def copyBufferSize : Nat :=
  8192

/- The pipes of a child. -/
inductive StdStream where
  | stdin
  | stdout
  | stderr
  deriving DecidableEq, Repr

end Sshdt

------------------------------------------------------------
-- Sessions
------------------------------------------------------------

namespace Sshdt

/-
  Where the session task is. `selecting` is the `select!`
  over the child and the copy of the client's data,
  `waiting` waits for the child alone, `drainingOut` and
  `drainingErr` wait for the tasks that copy the output, and
  `closing` is `finish_channel` with so many messages sent.
-/
inductive PipePhase where
  | spawning
  | notifying (rest : List UInt8)
  | selecting
  | waiting
  | drainingOut (result : WaitResult)
  | drainingErr (result : WaitResult)
  | closing (code : UInt32) (sent : Nat)
  deriving DecidableEq, Repr

/-
  A session. `exit` is what waiting for the child gives, and
  `notice` is what the client was told of a failed start.
-/
structure PipeSession where
  stdin : Pump UInt8
  stdout : Pump UInt8
  stderr : Pump UInt8
  spawned : Bool
  exit : Option WaitResult
  phase : PipePhase
  notice : List UInt8
  sent : List ChannelMessage
  deriving DecidableEq, Repr

/-
  What happens in a session. `joined` is the end of one of
  the two output tasks as the session sees it.
-/
inductive PipeEvent where
  | spawn (inStartDir inherited : Except Text Unit)
  | notice (n : Nat)
  | noticeEnds
  | pump (stream : StdStream) (step : PumpStep UInt8)
  | exits (result : WaitResult)
  | waited
  | stdinEnds
  | joined
  | finish (delivered : Bool)

namespace PipeSession

/- A session before its child is started. -/
def initial : PipeSession where
  stdin := .start
  stdout := .start
  stderr := .start
  spawned := false
  exit := none
  phase := .spawning
  notice := []
  sent := []

/- The messages that carry some bytes. -/
def carry
    (message : List UInt8 → ChannelMessage) :
    List UInt8 → List ChannelMessage
| [] => []
| byte :: bytes => [message (byte :: bytes)]

/- A step of the copy from the client to the child. -/
def stdinStep
    (p : PipeSession)
    (e : PumpStep UInt8) : Option PipeSession :=
  if e.own = true ∧ p.phase ≠ .selecting then
    none
  else
    (p.stdin.step copyBufferSize e).map fun stdin =>
      { p with stdin }

/- A step at the standard output of the child. -/
def stdoutStep
    (p : PipeSession)
    (e : PumpStep UInt8) : Option PipeSession :=
  if p.spawned then
    (p.stdout.step copyBufferSize e).map fun stdout =>
      { p with
        stdout
        sent := p.sent ++ carry .data (p.stdout.output e) }
  else
    none

/- A step at the standard error of the child. -/
def stderrStep
    (p : PipeSession)
    (e : PumpStep UInt8) : Option PipeSession :=
  if p.spawned then
    (p.stderr.step copyBufferSize e).map fun stderr =>
      { p with
        stderr
        sent := p.sent ++
          carry .extended (p.stderr.output e) }
  else
    none

/- One step of `run_pipe` or of what surrounds it. -/
def step
    (command : SessionCommand)
    (p : PipeSession) : PipeEvent → Option PipeSession
| .spawn inStartDir inherited =>
    match p.phase with
    | .spawning =>
        match spawnInStartDir command inStartDir
            inherited with
        | .ok _ =>
            some { p with
              spawned := true, phase := .selecting }
        | .error error =>
            some { p with
              phase := .notifying
                (spawnNotice command.program error) }
    | _ => none
| .notice n =>
    match p.phase with
    | .notifying rest =>
        if 1 ≤ n ∧ n ≤ rest.length then
          some { p with
            phase := .notifying (rest.drop n)
            notice := p.notice ++ rest.take n
            sent := p.sent ++ [.extended (rest.take n)] }
        else
          none
    | _ => none
-- A failed write of the notice is not looked at.
| .noticeEnds =>
    match p.phase with
    | .notifying _ =>
        some { p with phase := .closing 127 0 }
    | _ => none
| .pump .stdin e => p.stdinStep e
| .pump .stdout e => p.stdoutStep e
| .pump .stderr e => p.stderrStep e
| .exits result =>
    if p.spawned = true ∧ p.exit = none then
      some { p with exit := some result }
    else
      none
-- The copy to the child is dropped with the `select!`.
| .waited =>
    match p.phase, p.exit with
    | .selecting, some result =>
        some { p with
          stdin := p.stdin.drop
          phase := .drainingOut result }
    | .waiting, some result =>
        some { p with phase := .drainingOut result }
    | _, _ => none
| .stdinEnds =>
    match p.phase with
    | .selecting =>
        if p.stdin.state = .running then
          none
        else
          some { p with phase := .waiting }
    | _ => none
| .joined =>
    match p.phase with
    | .drainingOut result =>
        if p.stdout.state = .running then
          none
        else
          some { p with phase := .drainingErr result }
    | .drainingErr result =>
        if p.stderr.state = .running then
          none
        else
          some { p with
            phase := .closing (exitCodeOf result) 0 }
    | _ => none
| .finish delivered =>
    match p.phase with
    | .closing code sent =>
        match (closingMessages code)[sent]? with
        | some reply =>
            some { p with
              phase := .closing code (sent + 1)
              sent := p.sent ++
                if delivered then [.closing reply] else [] }
        | none => none
    | _ => none

/- The runs of a session with a command. -/
def machine
    (command : SessionCommand) :
    Machine PipeSession PipeEvent where
  init := initial
  step := step command

end PipeSession

end Sshdt

------------------------------------------------------------
-- Invariant
------------------------------------------------------------

namespace Sshdt

namespace PipeSession

open ChannelMessage

variable {command : SessionCommand}
variable {p q : PipeSession}

@[simp]
theorem outOf_carry_data
    (bytes : List UInt8) :
    outOf (carry .data bytes) = bytes := by
  cases bytes <;> simp [carry, outOf, out]

@[simp]
theorem errOf_carry_data
    (bytes : List UInt8) :
    errOf (carry .data bytes) = [] := by
  cases bytes <;> simp [carry, errOf, err]

@[simp]
theorem outOf_carry_extended
    (bytes : List UInt8) :
    outOf (carry .extended bytes) = [] := by
  cases bytes <;> simp [carry, outOf, out]

@[simp]
theorem errOf_carry_extended
    (bytes : List UInt8) :
    errOf (carry .extended bytes) = bytes := by
  cases bytes <;> simp [carry, errOf, err]

@[simp]
theorem closingOf_carry_data
    (bytes : List UInt8) :
    closingOf (carry .data bytes) = [] := by
  cases bytes <;> simp [carry, closingOf, reply?]

@[simp]
theorem closingOf_carry_extended
    (bytes : List UInt8) :
    closingOf (carry .extended bytes) = [] := by
  cases bytes <;> simp [carry, closingOf, reply?]

/- What standard error of the channel carries. -/
def errorOutput
    (p : PipeSession) : List UInt8 :=
  if p.spawned then p.stderr.delivered else p.notice

/- The closing messages that a phase allows. -/
def ClosingFits
    (phase : PipePhase)
    (closing : List Reply) : Prop :=
  match phase with
  | .closing code sent =>
      closing.Sublist ((closingMessages code).take sent)
  | _ => closing = []

/-
  What is known in a phase about the child and the tasks.
-/
def PhaseFits
    (command : SessionCommand)
    (p : PipeSession) : Prop :=
  match p.phase with
  | .spawning => p.spawned = false ∧ p.notice = []
  | .notifying rest =>
      p.spawned = false ∧
        ∃ error,
          p.notice ++ rest =
            spawnNotice command.program error
  | .selecting => p.spawned = true
  | .waiting =>
      p.spawned = true ∧ p.stdin.state ≠ .running
  | .drainingOut result =>
      p.spawned = true ∧ p.exit = some result ∧
        p.stdin.state ≠ .running
  | .drainingErr result =>
      p.spawned = true ∧ p.exit = some result ∧
        p.stdin.state ≠ .running ∧
        p.stdout.state ≠ .running
  | .closing code sent =>
      sent ≤ 3 ∧
        (p.spawned = false ∧ code = 127 ∨
          p.spawned = true ∧ p.stdin.state ≠ .running ∧
            p.stdout.state ≠ .running ∧
            p.stderr.state ≠ .running ∧
            ∃ result,
              p.exit = some result ∧
                code = exitCodeOf result)

structure Inv
    (command : SessionCommand)
    (p : PipeSession) : Prop where
  stdin : p.stdin.Inv
  stdout : p.stdout.Inv
  stderr : p.stderr.Inv
  undropped :
    p.stdout.state ≠ .dropped ∧ p.stderr.state ≠ .dropped
  dropped :
    p.stdin.state = .dropped → p.exit.isSome = true
  sent :
    ∃ closing,
      Transcript p.sent p.stdout.delivered p.errorOutput
        closing ∧
      ClosingFits p.phase closing
  unspawned :
    p.spawned = false →
      p.stdout.delivered = [] ∧ p.stderr.delivered = [] ∧
        p.exit = none ∧
          ∃ error,
            p.notice <+: spawnNotice command.program error
  phase : p.PhaseFits command

theorem initial_inv
    (command : SessionCommand) :
    initial.Inv command where
  stdin := Pump.start_inv
  stdout := Pump.start_inv
  stderr := Pump.start_inv
  undropped := by simp [initial, Pump.start]
  dropped := by simp [initial, Pump.start]
  sent := ⟨[], .nil, rfl⟩
  unspawned := fun _ =>
    ⟨rfl, rfl, rfl, [], List.nil_prefix⟩
  phase := ⟨rfl, rfl⟩

/- The session is not closing while a pump still runs. -/
theorem Inv.not_closing
    (hInv : p.Inv command)
    (hSpawned : p.spawned = true)
    (hRunning :
      p.stdout.state = .running ∨
        p.stderr.state = .running) :
    ∀ code sent, p.phase ≠ .closing code sent := by
  intro code sent hPhase
  have hFits := hInv.phase
  rw [PhaseFits, hPhase] at hFits
  rcases hFits.2 with ⟨hNot, _⟩ | ⟨_, _, hOut, hErr, _⟩
  · rw [hSpawned] at hNot
    cases hNot
  · exact hRunning.elim hOut hErr

/- What a phase says is kept while no ended pump restarts. -/
theorem PhaseFits.mono
    (hFits : p.PhaseFits command)
    (hPhase : q.phase = p.phase)
    (hSpawned : q.spawned = p.spawned)
    (hExit : ∀ result, p.exit = some result →
      q.exit = some result)
    (hNotice : q.notice = p.notice)
    (hStdin : p.stdin.state ≠ .running →
      q.stdin.state ≠ .running)
    (hStdout : p.stdout.state ≠ .running →
      q.stdout.state ≠ .running)
    (hStderr : p.stderr.state ≠ .running →
      q.stderr.state ≠ .running) :
    q.PhaseFits command := by
  unfold PhaseFits at hFits ⊢
  rw [hPhase, hSpawned, hNotice]
  split at hFits
  · exact hFits
  · exact hFits
  · exact hFits
  · exact ⟨hFits.1, hStdin hFits.2⟩
  · exact ⟨hFits.1, hExit _ hFits.2.1, hStdin hFits.2.2⟩
  · exact ⟨hFits.1, hExit _ hFits.2.1, hStdin hFits.2.2.1,
      hStdout hFits.2.2.2⟩
  · rcases hFits with ⟨hBound, hFailed | hEnded⟩
    · exact ⟨hBound, Or.inl hFailed⟩
    · rcases hEnded with
        ⟨hYes, hIn, hOut, hErr, result, hResult, hCode⟩
      exact ⟨hBound, Or.inr ⟨hYes, hStdin hIn, hStdout hOut,
        hStderr hErr, result, hExit _ hResult, hCode⟩⟩

/- A pump that has ended does not start again. -/
theorem ended_of_step
    {pump pump' : Pump UInt8}
    {e : PumpStep UInt8}
    (hStep : pump.step copyBufferSize e = some pump')
    (hEnded : pump.state ≠ .running) :
    pump'.state ≠ .running := by
  rw [Pump.step_ended hStep hEnded]
  exact hEnded

/- Before the session closes, nothing was closed. -/
theorem ClosingFits.eq_nil
    {phase : PipePhase}
    {closing : List Reply}
    (hFits : ClosingFits phase closing)
    (hOpen : ∀ code sent, phase ≠ .closing code sent) :
    closing = [] := by
  unfold ClosingFits at hFits
  split at hFits
  · exact absurd rfl (hOpen _ _)
  · exact hFits

/- A step at an output pipe sends what the task copies. -/
theorem Inv.transcript_output
    {pump : Pump UInt8}
    {e : PumpStep UInt8}
    {message : List UInt8 → ChannelMessage}
    (hInv : p.Inv command)
    (hSpawned : p.spawned = true)
    (hPump : pump = p.stdout ∨ pump = p.stderr)
    (hStep : (pump.step copyBufferSize e).isSome = true)
    (hMessage : ∀ bytes, closingOf (carry message bytes) = []) :
    ∃ closing,
      Transcript (p.sent ++ carry message (pump.output e))
        (p.stdout.delivered ++
          outOf (carry message (pump.output e)))
        (p.stderr.delivered ++
          errOf (carry message (pump.output e))) closing ∧
        ClosingFits p.phase closing := by
  rcases hInv.sent with ⟨closing, hSent, hFits⟩
  rw [errorOutput, hSpawned, if_pos rfl] at hSent
  rcases Option.isSome_iff_exists.mp hStep with
    ⟨pump', hPumpStep⟩
  cases hOwn : e.own with
  | false =>
      rw [Pump.output_foreign pump hOwn]
      simp only [carry, List.append_nil]
      exact ⟨closing, by simpa [outOf, errOf] using hSent,
        hFits⟩
  | true =>
      have hRunning := Pump.step_own_running hPumpStep hOwn
      have hOpen := hInv.not_closing hSpawned (by
        rcases hPump with rfl | rfl
        · exact Or.inl hRunning
        · exact Or.inr hRunning)
      rw [hFits.eq_nil hOpen] at hSent hFits
      exact ⟨[], hSent.output (hMessage _), hFits⟩

theorem stdinStep_inv
    {e : PumpStep UInt8}
    (hInv : p.Inv command)
    (hStep : p.stdinStep e = some q) :
    q.Inv command := by
  unfold stdinStep at hStep
  split at hStep <;> [cases hStep; skip]
  rcases Option.map_eq_some_iff.mp hStep with
    ⟨stdin, hPump, rfl⟩
  exact
    { stdin := Pump.step_inv hInv.stdin hPump
      stdout := hInv.stdout
      stderr := hInv.stderr
      undropped := hInv.undropped
      dropped := fun hDropped => by
        by_contra hNone
        exact Pump.step_undropped hPump
          (fun h => hNone (hInv.dropped h)) hDropped
      sent := hInv.sent
      unspawned := hInv.unspawned
      phase := PhaseFits.mono hInv.phase rfl rfl
        (fun _ h => h) rfl (ended_of_step hPump)
        (fun h => h) (fun h => h) }

theorem stdoutStep_inv
    {e : PumpStep UInt8}
    (hInv : p.Inv command)
    (hStep : p.stdoutStep e = some q) :
    q.Inv command := by
  unfold stdoutStep at hStep
  split at hStep <;> [rename_i hSpawned; cases hStep]
  rcases Option.map_eq_some_iff.mp hStep with
    ⟨stdout, hPump, rfl⟩
  rcases hInv.transcript_output hSpawned (Or.inl rfl)
      (Option.isSome_iff_exists.mpr ⟨_, hPump⟩)
      closingOf_carry_data with
    ⟨closing, hSent, hFits⟩
  rw [outOf_carry_data, errOf_carry_data, List.append_nil,
    ← Pump.step_delivered hPump] at hSent
  exact
    { stdin := hInv.stdin
      stdout := Pump.step_inv hInv.stdout hPump
      stderr := hInv.stderr
      undropped := ⟨Pump.step_undropped hPump
        hInv.undropped.1, hInv.undropped.2⟩
      dropped := hInv.dropped
      sent := by
        refine ⟨closing, ?_, hFits⟩
        rw [errorOutput, hSpawned, if_pos rfl]
        exact hSent
      unspawned := fun hNot => by
        rw [hSpawned] at hNot
        cases hNot
      phase := PhaseFits.mono hInv.phase rfl rfl
        (fun _ h => h) rfl (fun h => h)
        (ended_of_step hPump) (fun h => h) }

theorem stderrStep_inv
    {e : PumpStep UInt8}
    (hInv : p.Inv command)
    (hStep : p.stderrStep e = some q) :
    q.Inv command := by
  unfold stderrStep at hStep
  split at hStep <;> [rename_i hSpawned; cases hStep]
  rcases Option.map_eq_some_iff.mp hStep with
    ⟨stderr, hPump, rfl⟩
  rcases hInv.transcript_output hSpawned (Or.inr rfl)
      (Option.isSome_iff_exists.mpr ⟨_, hPump⟩)
      closingOf_carry_extended with
    ⟨closing, hSent, hFits⟩
  rw [outOf_carry_extended, errOf_carry_extended,
    List.append_nil, ← Pump.step_delivered hPump] at hSent
  exact
    { stdin := hInv.stdin
      stdout := hInv.stdout
      stderr := Pump.step_inv hInv.stderr hPump
      undropped := ⟨hInv.undropped.1,
        Pump.step_undropped hPump hInv.undropped.2⟩
      dropped := hInv.dropped
      sent := by
        refine ⟨closing, ?_, hFits⟩
        rw [errorOutput, hSpawned, if_pos rfl]
        exact hSent
      unspawned := fun hNot => by
        rw [hSpawned] at hNot
        cases hNot
      phase := PhaseFits.mono hInv.phase rfl rfl
        (fun _ h => h) rfl (fun h => h) (fun h => h)
        (ended_of_step hPump) }

theorem spawn_inv
    {inStartDir inherited : Except Text Unit}
    (hInv : p.Inv command)
    (hStep :
      p.step command (.spawn inStartDir inherited) =
        some q) :
    q.Inv command := by
  simp only [step] at hStep
  split at hStep <;> [rename_i hPhase; cases hStep]
  have hFits := hInv.phase
  rw [PhaseFits, hPhase] at hFits
  rcases hInv.sent with ⟨closing, hSent, hClosing⟩
  rw [hPhase] at hClosing
  rw [errorOutput, hFits.1] at hSent
  split at hStep
  · cases hStep
    -- Nothing was written by a child that was not there.
    rcases hInv.unspawned hFits.1 with ⟨_, hErr, _⟩
    exact
      { stdin := hInv.stdin, stdout := hInv.stdout
        stderr := hInv.stderr, undropped := hInv.undropped
        dropped := hInv.dropped
        sent := ⟨closing, by
          rw [errorOutput, if_pos rfl, hErr]
          rw [hFits.2] at hSent
          exact hSent, hClosing⟩
        unspawned := by simp
        phase := rfl }
  · cases hStep
    exact
      { stdin := hInv.stdin, stdout := hInv.stdout
        stderr := hInv.stderr, undropped := hInv.undropped
        dropped := hInv.dropped
        sent := ⟨closing, by
          rw [errorOutput, hFits.1]
          exact hSent, hClosing⟩
        unspawned := hInv.unspawned
        phase := ⟨hFits.1, _, by
          rw [hFits.2]
          rfl⟩ }

/- The notice is sent in pieces. -/
theorem notice_inv
    {n : Nat}
    (hInv : p.Inv command)
    (hStep : p.step command (.notice n) = some q) :
    q.Inv command := by
  simp only [step] at hStep
  split at hStep <;> [rename_i rest hPhase; cases hStep]
  split at hStep <;> [skip; cases hStep]
  cases hStep
  have hFits := hInv.phase
  rw [PhaseFits, hPhase] at hFits
  rcases hFits with ⟨hNot, error, hNotice⟩
  rcases hInv.sent with ⟨closing, hSent, hClosing⟩
  rw [hPhase] at hClosing
  rw [errorOutput, hNot] at hSent
  have hNothing : closing = [] := hClosing
  rw [hNothing] at hSent
  exact
    { stdin := hInv.stdin, stdout := hInv.stdout
      stderr := hInv.stderr, undropped := hInv.undropped
      dropped := hInv.dropped
      sent := ⟨[], by
        have hMore :=
          @Transcript.output _ _ _
            [.extended (rest.take n)] hSent rfl
        simp only [outOf, errOf, List.flatMap_singleton, out,
          err, List.append_nil] at hMore
        rw [errorOutput, hNot]
        exact hMore, rfl⟩
      unspawned := fun _ => by
        rcases hInv.unspawned hNot with ⟨hOut, hErr, hExit, _⟩
        refine ⟨hOut, hErr, hExit, error, rest.drop n, ?_⟩
        rw [List.append_assoc, List.take_append_drop]
        exact hNotice
      phase := ⟨hNot, error, by
        rw [List.append_assoc, List.take_append_drop]
        exact hNotice⟩ }

/- The session goes on to a phase before its closing. -/
theorem Inv.moveTo
    {phase : PipePhase}
    (hInv : p.Inv command)
    (hClosing : ClosingFits p.phase = ClosingFits phase)
    (hFits : PhaseFits command { p with phase }) :
    Inv command { p with phase } where
  stdin := hInv.stdin
  stdout := hInv.stdout
  stderr := hInv.stderr
  undropped := hInv.undropped
  dropped := hInv.dropped
  sent := by
    rcases hInv.sent with ⟨closing, hSent, hOld⟩
    refine ⟨closing, hSent, ?_⟩
    rw [← hClosing]
    exact hOld
  unspawned := hInv.unspawned
  phase := hFits

/- `finish_channel` starts with nothing closed. -/
theorem closingFits_start
    {phase : PipePhase}
    (code : UInt32)
    (hOpen : ∀ code sent, phase ≠ .closing code sent) :
    ClosingFits phase = ClosingFits (.closing code 0) := by
  funext closing
  cases phase with
  | closing code sent => exact absurd rfl (hOpen code sent)
  | _ => simp [ClosingFits]

/- The child is there and the session waits for it no more. -/
theorem waited_inv
    (hInv : p.Inv command)
    (hStep : p.step command .waited = some q) :
    q.Inv command := by
  simp only [step] at hStep
  have hFits := hInv.phase
  split at hStep
  · rename_i result hPhase hExit
    cases hStep
    rw [PhaseFits, hPhase] at hFits
    rcases hInv.sent with ⟨closing, hSent, hClosing⟩
    rw [hPhase] at hClosing
    exact
      { stdin := Pump.drop_inv hInv.stdin
        stdout := hInv.stdout, stderr := hInv.stderr
        undropped := hInv.undropped
        dropped := fun _ => by
          rw [hExit]
          rfl
        sent := ⟨closing, hSent, hClosing⟩
        unspawned := hInv.unspawned
        phase := ⟨hFits, hExit, Pump.drop_ended _⟩ }
  · rename_i result hPhase hExit
    cases hStep
    rw [PhaseFits, hPhase] at hFits
    exact hInv.moveTo (by rw [hPhase]; rfl)
      ⟨hFits.1, hExit, hFits.2⟩
  · cases hStep

theorem joined_inv
    (hInv : p.Inv command)
    (hStep : p.step command .joined = some q) :
    q.Inv command := by
  simp only [step] at hStep
  have hFits := hInv.phase
  split at hStep
  · rename_i result hPhase
    split at hStep <;> [cases hStep; rename_i hEnded]
    cases hStep
    rw [PhaseFits, hPhase] at hFits
    exact hInv.moveTo (by rw [hPhase]; rfl)
      ⟨hFits.1, hFits.2.1, hFits.2.2, hEnded⟩
  · rename_i result hPhase
    split at hStep <;> [cases hStep; rename_i hEnded]
    cases hStep
    rw [PhaseFits, hPhase] at hFits
    refine hInv.moveTo (closingFits_start _ ?_)
      ⟨Nat.zero_le 3, Or.inr ⟨hFits.1, hFits.2.2.1,
        hFits.2.2.2, hEnded, result, hFits.2.1, rfl⟩⟩
    simp [hPhase]
  · cases hStep

theorem finish_inv
    {delivered : Bool}
    (hInv : p.Inv command)
    (hStep : p.step command (.finish delivered) = some q) :
    q.Inv command := by
  simp only [step] at hStep
  split at hStep <;> [rename_i code sent hPhase; cases hStep]
  split at hStep <;> [rename_i reply hReply; cases hStep]
  cases hStep
  have hFits := hInv.phase
  rw [PhaseFits, hPhase] at hFits
  rcases hInv.sent with ⟨closing, hSent, hClosing⟩
  rw [hPhase] at hClosing
  have hLess : sent < 3 := by
    rw [List.getElem?_eq_some_iff] at hReply
    exact hReply.1
  have hTake :
      (closingMessages code).take (sent + 1) =
        (closingMessages code).take sent ++ [reply] := by
    rw [List.take_add_one, hReply]
    rfl
  refine
    { stdin := hInv.stdin, stdout := hInv.stdout
      stderr := hInv.stderr, undropped := hInv.undropped
      dropped := hInv.dropped, sent := ?_
      unspawned := hInv.unspawned
      phase := ⟨hLess, hFits.2⟩ }
  cases delivered with
  | true =>
      refine ⟨closing ++ [reply], hSent.close reply, ?_⟩
      simp only [ClosingFits, hTake]
      exact hClosing.append_right [reply]
  | false =>
      simp only [Bool.false_eq_true, if_false,
        List.append_nil]
      refine ⟨closing, hSent, ?_⟩
      simp only [ClosingFits, hTake]
      exact hClosing.trans (List.sublist_append_left _ _)

/- Every step keeps the invariant. -/
theorem step_inv
    {e : PipeEvent}
    (hInv : p.Inv command)
    (hStep : p.step command e = some q) :
    q.Inv command := by
  cases e with
  | spawn inStartDir inherited => exact spawn_inv hInv hStep
  | notice n => exact notice_inv hInv hStep
  | noticeEnds =>
      simp only [step] at hStep
      split at hStep <;> [rename_i hPhase; cases hStep]
      cases hStep
      have hFits := hInv.phase
      rw [PhaseFits, hPhase] at hFits
      refine hInv.moveTo (closingFits_start _ ?_)
        ⟨Nat.zero_le 3, Or.inl ⟨hFits.1, rfl⟩⟩
      simp [hPhase]
  | pump stream e =>
      cases stream with
      | stdin => exact stdinStep_inv hInv hStep
      | stdout => exact stdoutStep_inv hInv hStep
      | stderr => exact stderrStep_inv hInv hStep
  | exits result =>
      simp only [step] at hStep
      split at hStep <;> [rename_i hRuns; cases hStep]
      cases hStep
      exact
        { stdin := hInv.stdin, stdout := hInv.stdout
          stderr := hInv.stderr, undropped := hInv.undropped
          dropped := fun _ => rfl
          sent := hInv.sent
          unspawned := fun hNot => by
            rw [hRuns.1] at hNot
            cases hNot
          phase := PhaseFits.mono hInv.phase rfl rfl
            (by simp [hRuns.2]) rfl (fun h => h)
            (fun h => h) (fun h => h) }
  | waited => exact waited_inv hInv hStep
  | stdinEnds =>
      simp only [step] at hStep
      split at hStep <;> [rename_i hPhase; cases hStep]
      split at hStep <;> [cases hStep; rename_i hEnded]
      cases hStep
      have hFits := hInv.phase
      rw [PhaseFits, hPhase] at hFits
      exact hInv.moveTo (by rw [hPhase]; rfl)
        ⟨hFits, hEnded⟩
  | joined => exact joined_inv hInv hStep
  | finish delivered => exact finish_inv hInv hStep

theorem reachable_inv
    (hReachable : (machine command).Reachable p) :
    p.Inv command :=
  hReachable.invariant (initial_inv command)
    (fun _ _ _ hInv _ hStep => step_inv hInv hStep)

end PipeSession

end Sshdt

------------------------------------------------------------
-- The Runner Of The Channel
------------------------------------------------------------

namespace Sshdt

namespace PipeSession

open ChannelMessage

variable {command : SessionCommand}
variable {p q : PipeSession}

/- The session as the runner of its channel. -/
def progress
    (p : PipeSession) : Progress :=
  match p.phase with
  | .closing code sent => .ended code sent
  | _ => .running

/- What a step of the session is to its channel. -/
inductive RunnerMove
    (slot slot' : Slot)
    (runner : Nat)
    (closing : List Reply) : Prop
| stays
    (hSlot : slot' = slot)
    (hClosing : closing = [])
| ends
    (code : UInt32)
    (hSlot : slot.runEnds runner code = some slot')
    (hClosing : closing = [])
| finishes
    (delivered : Bool)
    (hSlot : slot.finishChannel runner delivered = some slot')
    (hReplies : slot'.replies = slot.replies ++ closing)

/-
  The session is a runner of its channel: whatever it does,
  the runner stands still, ends its run or sends the next
  closing message, the one that the session sends.
-/
theorem step_slot
    {e : PipeEvent}
    {slot : Slot}
    {runner : Nat}
    {request : SessionRequest}
    {runs : SessionCommand}
    {env : List (Text × Text)}
    (hStep : p.step command e = some q)
    (hRunner :
      slot.runners[runner]? =
        some (.session request runs env p.progress)) :
    ∃ slot' closing,
      RunnerMove slot slot' runner closing ∧
        slot'.runners[runner]? =
          some (.session request runs env q.progress) ∧
        closingOf q.sent = closingOf p.sent ++ closing := by
  have hLength : runner < slot.runners.length := by
    rw [List.getElem?_eq_some_iff] at hRunner
    exact hRunner.1
  -- A step that neither ends the run nor closes anything.
  have hStays :
      q.progress = p.progress →
      closingOf q.sent = closingOf p.sent →
      ∃ slot' closing,
        RunnerMove slot slot' runner closing ∧
          slot'.runners[runner]? =
            some (.session request runs env q.progress) ∧
          closingOf q.sent = closingOf p.sent ++ closing := by
    intro hProgress hClosing
    refine ⟨slot, [], .stays rfl rfl, ?_, ?_⟩
    · rw [hProgress]
      exact hRunner
    · rw [hClosing, List.append_nil]
  -- The run ends with a code.
  have hEnds :
      ∀ code, p.progress = .running →
      q.progress = .ended code 0 →
      q.sent = p.sent →
      ∃ slot' closing,
        RunnerMove slot slot' runner closing ∧
          slot'.runners[runner]? =
            some (.session request runs env q.progress) ∧
          closingOf q.sent = closingOf p.sent ++ closing := by
    intro code hRunning hEnded hSent
    rw [hRunning] at hRunner
    have hRun : slot.runEnds runner code = some
        { slot with
          runners := slot.runners.set runner
            (.session request runs env (.ended code 0)) } := by
      rw [Slot.runEnds, hRunner]
    refine ⟨_, [], .ends code hRun rfl, ?_, ?_⟩
    · rw [hEnded]
      exact List.getElem?_set_self hLength
    · rw [hSent, List.append_nil]
  cases e with
  | spawn inStartDir inherited =>
      simp only [step] at hStep
      split at hStep <;> [rename_i hPhase; cases hStep]
      split at hStep <;> cases hStep <;>
        exact hStays (by simp [progress, hPhase]) rfl
  | notice n =>
      simp only [step] at hStep
      split at hStep <;> [rename_i hPhase; cases hStep]
      split at hStep <;> cases hStep
      refine hStays (by simp [progress, hPhase]) ?_
      rw [closingOf_append]
      exact List.append_nil _
  | noticeEnds =>
      simp only [step] at hStep
      split at hStep <;> [rename_i hPhase; cases hStep]
      cases hStep
      exact hEnds 127 (by simp [progress, hPhase]) rfl rfl
  | pump stream e =>
      cases stream with
      | stdin =>
          simp only [step, stdinStep] at hStep
          split at hStep <;> [cases hStep; skip]
          rcases Option.map_eq_some_iff.mp hStep with
            ⟨_, _, rfl⟩
          exact hStays rfl rfl
      | stdout =>
          simp only [step, stdoutStep] at hStep
          split at hStep <;> [skip; cases hStep]
          rcases Option.map_eq_some_iff.mp hStep with
            ⟨_, _, rfl⟩
          exact hStays rfl (by simp)
      | stderr =>
          simp only [step, stderrStep] at hStep
          split at hStep <;> [skip; cases hStep]
          rcases Option.map_eq_some_iff.mp hStep with
            ⟨_, _, rfl⟩
          exact hStays rfl (by simp)
  | exits result =>
      simp only [step] at hStep
      split at hStep <;> cases hStep
      exact hStays rfl rfl
  | waited =>
      simp only [step] at hStep
      split at hStep
      · rename_i hPhase _
        cases hStep
        exact hStays (by simp [progress, hPhase]) rfl
      · rename_i hPhase _
        cases hStep
        exact hStays (by simp [progress, hPhase]) rfl
      · cases hStep
  | stdinEnds =>
      simp only [step] at hStep
      split at hStep <;> [rename_i hPhase; cases hStep]
      split at hStep <;> cases hStep
      exact hStays (by simp [progress, hPhase]) rfl
  | joined =>
      simp only [step] at hStep
      split at hStep
      · rename_i hPhase
        split at hStep <;> cases hStep
        exact hStays (by simp [progress, hPhase]) rfl
      · rename_i hPhase
        split at hStep <;> cases hStep
        exact hEnds _ (by simp [progress, hPhase]) rfl rfl
      · cases hStep
  | finish delivered =>
      simp only [step] at hStep
      split at hStep <;> [rename_i code sent hPhase;
        cases hStep]
      split at hStep <;> [rename_i reply hReply; cases hStep]
      cases hStep
      have hProgress : p.progress = .ended code sent := by
        simp [progress, hPhase]
      rw [hProgress] at hRunner
      have hFinish : slot.finishChannel runner delivered = some
          { slot.reply (if delivered then [reply] else []) with
            runners := slot.runners.set runner
              (.session request runs env
                (.ended code (sent + 1))) } := by
        rw [Slot.finishChannel, hRunner]
        simp only [hReply]
      refine ⟨_, if delivered then [reply] else [],
        .finishes delivered hFinish rfl, ?_, ?_⟩
      · exact List.getElem?_set_self hLength
      · rw [closingOf_append]
        cases delivered <;> rfl

end PipeSession

end Sshdt

------------------------------------------------------------
-- What The Client And The Child Get
------------------------------------------------------------

namespace Sshdt

namespace PipeSession

open ChannelMessage

variable {command : SessionCommand}
variable {p q : PipeSession}

/- A stream that was not cut off arrived as a whole. -/
def Arrived
    (pump : Pump UInt8) : Prop :=
  pump.delivered = pump.written ∧ pump.sourceOpen = false

/-
  What a session does to the streams of its child.

  The client gets first parts of both outputs, and closing
  messages only after them. Once it got one of these, the
  child was waited for, the exit code is that of the wait,
  and both outputs have arrived unless reading one from the
  child or writing it to the client failed. A child that could not be started is code 127 and
  a notice on standard error. The child gets a first part of
  the client's data, and its standard input is closed when
  it got all of that, when copying failed or when it was
  waited for.
-/
structure Faithful
    (command : SessionCommand)
    (p : PipeSession) : Prop where
  order : OutputFirst p.sent
  stdout : outOf p.sent <+: p.stdout.written
  stderr :
    p.spawned = true → errOf p.sent <+: p.stderr.written
  notice :
    p.spawned = false →
      ∃ error,
        errOf p.sent <+: spawnNotice command.program error
  closing :
    closingOf p.sent ≠ [] →
      ∃ code,
        (closingOf p.sent).Sublist (closingMessages code) ∧
          (p.spawned = false ∧ code = 127 ∨
            ∃ result,
              p.exit = some result ∧
                code = exitCodeOf result ∧
                (p.stdout.state = .failed ∨
                  Arrived p.stdout ∧
                    outOf p.sent = p.stdout.written) ∧
                (p.stderr.state = .failed ∨
                  Arrived p.stderr ∧
                    errOf p.sent = p.stderr.written))
  stdin : p.stdin.delivered <+: p.stdin.written
  stdinClosed :
    p.stdin.state ≠ .running →
      Arrived p.stdin ∨ p.stdin.state = .failed ∨
        p.exit.isSome = true

/- A task that ended without being cut off, or failed. -/
theorem arrived_or_failed
    {pump : Pump UInt8}
    (hInv : pump.Inv)
    (hEnded : pump.state ≠ .running)
    (hUndropped : pump.state ≠ .dropped) :
    pump.state = .failed ∨ Arrived pump := by
  cases hState : pump.state with
  | running => exact absurd hState hEnded
  | dropped => exact absurd hState hUndropped
  | failed => exact Or.inl rfl
  | finished => exact Or.inr (hInv.complete hState)

/- The output of a session precedes its exit status. -/
theorem Inv.faithful
    (hInv : p.Inv command) :
    p.Faithful command := by
  rcases hInv.sent with ⟨closing, hSent, hClosing⟩
  have hFits := hInv.phase
  refine
    { order := hSent.first, stdout := ?_, stderr := ?_
      notice := ?_, closing := ?_
      stdin := hInv.stdin.prefix_written, stdinClosed := ?_ }
  · rw [hSent.out]
    exact hInv.stdout.prefix_written
  · intro hSpawned
    rw [hSent.err, errorOutput, hSpawned, if_pos rfl]
    exact hInv.stderr.prefix_written
  · intro hNot
    rw [hSent.err, errorOutput, hNot]
    simp only [Bool.false_eq_true, if_false]
    exact (hInv.unspawned hNot).2.2.2
  · intro hSome
    rw [hSent.closing] at hSome ⊢
    have hPhase :
        ∃ code sent, p.phase = .closing code sent := by
      by_contra hOpen
      push Not at hOpen
      exact hSome (hClosing.eq_nil hOpen)
    rcases hPhase with ⟨code, sent, hPhase⟩
    rw [hPhase] at hClosing
    rw [PhaseFits, hPhase] at hFits
    refine ⟨code, hClosing.trans (List.take_sublist _ _), ?_⟩
    rcases hFits.2 with hFailed | ⟨hYes, _, hOut, hErr, hCode⟩
    · exact Or.inl hFailed
    · rcases hCode with ⟨result, hResult, hCode⟩
      refine Or.inr ⟨result, hResult, hCode, ?_, ?_⟩
      · rcases arrived_or_failed hInv.stdout hOut
          hInv.undropped.1 with hFailed | hArrived
        · exact Or.inl hFailed
        · exact Or.inr ⟨hArrived, hSent.out.trans hArrived.1⟩
      · rcases arrived_or_failed hInv.stderr hErr
          hInv.undropped.2 with hFailed | hArrived
        · exact Or.inl hFailed
        · refine Or.inr ⟨hArrived, ?_⟩
          rw [hSent.err, errorOutput, hYes, if_pos rfl]
          exact hArrived.1
  · intro hEnded
    by_cases hDropped : p.stdin.state = .dropped
    · exact Or.inr (Or.inr (hInv.dropped hDropped))
    · rcases arrived_or_failed hInv.stdin hEnded hDropped with
        hFailed | hArrived
      · exact Or.inr (Or.inl hFailed)
      · exact Or.inl hArrived

/-
  In every state of every run, whatever the child, its
  descendants and the client do and however the tasks are
  interleaved.
-/
theorem output_precedes_exit
    (hReachable : (machine command).Reachable p) :
    p.Faithful command :=
  (reachable_inv hReachable).faithful

/- A child without arguments and a start directory. -/
def sampleCommand : SessionCommand where
  program := "cat".toList
  args := []
  env := []
  cwd := none

/-
  The child reads one byte, writes to both pipes and exits;
  standard output is closed only after that.
-/
def goneEvents : List PipeEvent :=
  [.spawn (.ok ()) (.ok ()),
    .pump .stdin (.put [1, 2]), .pump .stdin (.read 2),
    .pump .stdin (.deliver 1), .pump .stdout (.put [3, 4]),
    .pump .stderr (.put [5]), .pump .stdout (.read 2),
    .pump .stdout (.deliver 1), .exits (.code 7),
    .pump .stderr .close, .waited, .pump .stdout (.put [6]),
    .pump .stdout .close]

/- The output tasks end and the session closes its channel. -/
def closingEvents : List PipeEvent :=
  [.pump .stderr (.read 1), .pump .stdout (.deliver 1),
    .pump .stdout (.read 1), .pump .stdout (.deliver 1),
    .pump .stdout .eof, .pump .stdout .finish, .joined,
    .pump .stderr (.deliver 1), .pump .stderr .eof,
    .pump .stderr .finish, .joined, .finish true,
    .finish true, .finish true]

/- What the client is sent in that run. -/
def sampleSent : List ChannelMessage :=
  [.data [3], .data [4], .data [6], .extended [5],
    .closing (.exitStatus 7), .closing .eof, .closing .close]

theorem closingEvents_faithful :
    ∃ p,
      (machine sampleCommand).exec initial
          (goneEvents ++ closingEvents) = some p ∧
        p.sent = sampleSent ∧ p.Faithful sampleCommand := by
  have hSent :
      ((machine sampleCommand).exec initial
          (goneEvents ++ closingEvents)).map
        PipeSession.sent = some sampleSent := by
    decide
  rcases Option.map_eq_some_iff.mp hSent with ⟨p, hRun, hEq⟩
  refine ⟨p, hRun, hEq, output_precedes_exit ?_⟩
  exact .exec .init (Machine.meetsAll_true _ _) hRun

end PipeSession

end Sshdt

------------------------------------------------------------
-- The End Of A Session
------------------------------------------------------------

namespace Sshdt

/- The event is a step of the session or of its tasks. -/
def PipeEvent.own : PipeEvent → Bool
| .pump _ e => e.own
| .exits _ => false
| _ => true

/- The event is an error. -/
def PipeEvent.fails : PipeEvent → Bool
| .spawn _ (.error _) => true
| .pump _ e => e.fails
| .finish delivered => !delivered
| _ => false

/- The steps of its own that a phase has left at most. -/
def PipePhase.left : PipePhase → Nat
| .selecting => 7
| .waiting => 6
| .drainingOut _ => 5
| .drainingErr _ => 4
| .closing _ sent => 3 - sent
| _ => 0

namespace PipeSession

variable {command : SessionCommand}
variable {p q : PipeSession}

/- All closing messages were sent, or could not be. -/
def Closed
    (p : PipeSession) : Prop :=
  ∃ code, p.phase = .closing code 3

/- The child was waited for and nobody writes its output. -/
structure ChildGone
    (p : PipeSession) : Prop where
  exit : p.exit.isSome = true
  stdout : p.stdout.sourceOpen = false
  stderr : p.stderr.sourceOpen = false

instance decidableChildGone
    (p : PipeSession) : Decidable p.ChildGone :=
  decidable_of_iff
    (p.exit.isSome = true ∧ p.stdout.sourceOpen = false ∧
      p.stderr.sourceOpen = false)
    ⟨fun h => ⟨h.1, h.2.1, h.2.2⟩,
      fun h => ⟨h.exit, h.stdout, h.stderr⟩⟩

/- The steps of its own that a session has left at most. -/
def work
    (p : PipeSession) : Nat :=
  p.stdin.work + p.stdout.work + p.stderr.work + p.phase.left

/- Once the child is gone, the session did start it. -/
theorem Inv.spawned_of_gone
    (hInv : p.Inv command)
    (hGone : p.ChildGone) :
    p.spawned = true := by
  by_contra hNot
  rw [Bool.not_eq_true] at hNot
  have hExit := hGone.exit
  rw [(hInv.unspawned hNot).2.2.1] at hExit
  cases hExit

/- A step at a pump of the session makes its work smaller. -/
theorem step_work
    {e : PipeEvent}
    (hInv : p.Inv command)
    (hGone : p.ChildGone)
    (hOwn : e.own = true)
    (hStep : p.step command e = some q) :
    q.work < p.work ∧ q.ChildGone := by
  have hSpawned := hInv.spawned_of_gone hGone
  have hFits := hInv.phase
  cases e with
  | spawn inStartDir inherited =>
      simp only [step] at hStep
      split at hStep <;> [rename_i hPhase; cases hStep]
      rw [PhaseFits, hPhase, hSpawned] at hFits
      cases hFits.1
  | notice n =>
      simp only [step] at hStep
      split at hStep <;> [rename_i hPhase; cases hStep]
      rw [PhaseFits, hPhase, hSpawned] at hFits
      cases hFits.1
  | noticeEnds =>
      simp only [step] at hStep
      split at hStep <;> [rename_i hPhase; cases hStep]
      rw [PhaseFits, hPhase, hSpawned] at hFits
      cases hFits.1
  | pump stream e =>
      cases stream with
      | stdin =>
          simp only [step, stdinStep] at hStep
          split at hStep <;> [cases hStep; skip]
          rcases Option.map_eq_some_iff.mp hStep with
            ⟨stdin, hPump, rfl⟩
          have hLess := Pump.step_work hPump hOwn
          refine ⟨?_, hGone.exit, hGone.stdout, hGone.stderr⟩
          simp only [work]
          omega
      | stdout =>
          simp only [step, stdoutStep, hSpawned,
            if_true] at hStep
          rcases Option.map_eq_some_iff.mp hStep with
            ⟨stdout, hPump, rfl⟩
          have hLess := Pump.step_work hPump hOwn
          refine ⟨?_, hGone.exit, Pump.step_sourceClosed hPump
            hGone.stdout, hGone.stderr⟩
          simp only [work]
          omega
      | stderr =>
          simp only [step, stderrStep, hSpawned,
            if_true] at hStep
          rcases Option.map_eq_some_iff.mp hStep with
            ⟨stderr, hPump, rfl⟩
          have hLess := Pump.step_work hPump hOwn
          refine ⟨?_, hGone.exit, hGone.stdout,
            Pump.step_sourceClosed hPump hGone.stderr⟩
          simp only [work]
          omega
  | exits result => cases hOwn
  | waited =>
      simp only [step] at hStep
      split at hStep
      · rename_i hPhase hExit
        cases hStep
        refine ⟨?_, hGone.exit, hGone.stdout, hGone.stderr⟩
        simp only [work, hPhase, PipePhase.left,
          Pump.work_drop]
        omega
      · rename_i hPhase hExit
        cases hStep
        refine ⟨?_, hGone.exit, hGone.stdout, hGone.stderr⟩
        simp only [work, hPhase, PipePhase.left]
        omega
      · cases hStep
  | stdinEnds =>
      simp only [step] at hStep
      split at hStep <;> [rename_i hPhase; cases hStep]
      split at hStep <;> cases hStep
      refine ⟨?_, hGone.exit, hGone.stdout, hGone.stderr⟩
      simp only [work, hPhase, PipePhase.left]
      omega
  | joined =>
      simp only [step] at hStep
      split at hStep
      · rename_i hPhase
        split at hStep <;> cases hStep
        refine ⟨?_, hGone.exit, hGone.stdout, hGone.stderr⟩
        simp only [work, hPhase, PipePhase.left]
        omega
      · rename_i hPhase
        split at hStep <;> cases hStep
        refine ⟨?_, hGone.exit, hGone.stdout, hGone.stderr⟩
        simp only [work, hPhase, PipePhase.left]
        omega
      · cases hStep
  | finish delivered =>
      simp only [step] at hStep
      split at hStep <;> [rename_i code sent hPhase;
        cases hStep]
      split at hStep <;> [rename_i reply hReply; cases hStep]
      cases hStep
      have hLess : sent < 3 := by
        rw [List.getElem?_eq_some_iff] at hReply
        exact hReply.1
      refine ⟨?_, hGone.exit, hGone.stdout, hGone.stderr⟩
      simp only [work, hPhase, PipePhase.left]
      omega

/- An output task that still runs can go on. -/
theorem output_enabled
    {pump : Pump UInt8}
    (hRunning : pump.state = .running)
    (hClosed : pump.sourceOpen = false) :
    ∃ e, e.own = true ∧ e.fails = false ∧
      (pump.step copyBufferSize e).isSome = true := by
  have hCapacity : 1 ≤ copyBufferSize := by decide
  rcases Pump.enabled hCapacity hRunning hClosed with
    ⟨e, hOwn, hFails, hSome⟩
  exact ⟨e, hOwn, Pump.fails_eq_false hFails, hSome⟩

/- Until it has closed the channel, a session can go on. -/
theorem own_enabled
    (hInv : p.Inv command)
    (hGone : p.ChildGone)
    (hOpen : ¬ p.Closed) :
    ∃ e : PipeEvent, e.own = true ∧ e.fails = false ∧
      (p.step command e).isSome = true := by
  have hSpawned := hInv.spawned_of_gone hGone
  have hFits := hInv.phase
  rcases Option.isSome_iff_exists.mp hGone.exit with
    ⟨result, hExit⟩
  cases hPhase : p.phase with
  | spawning =>
      rw [PhaseFits, hPhase, hSpawned] at hFits
      cases hFits.1
  | notifying rest =>
      rw [PhaseFits, hPhase, hSpawned] at hFits
      cases hFits.1
  | selecting =>
      exact ⟨.waited, rfl, rfl,
        by simp [step, hPhase, hExit]⟩
  | waiting =>
      exact ⟨.waited, rfl, rfl,
        by simp [step, hPhase, hExit]⟩
  | drainingOut result =>
      by_cases hRunning : p.stdout.state = .running
      · rcases output_enabled hRunning hGone.stdout with
          ⟨e, hOwn, hFails, hSome⟩
        refine ⟨.pump .stdout e, hOwn, hFails, ?_⟩
        simpa [step, stdoutStep, hSpawned] using hSome
      · exact ⟨.joined, rfl, rfl,
          by simp [step, hPhase, hRunning]⟩
  | drainingErr result =>
      by_cases hRunning : p.stderr.state = .running
      · rcases output_enabled hRunning hGone.stderr with
          ⟨e, hOwn, hFails, hSome⟩
        refine ⟨.pump .stderr e, hOwn, hFails, ?_⟩
        simpa [step, stderrStep, hSpawned] using hSome
      · exact ⟨.joined, rfl, rfl,
          by simp [step, hPhase, hRunning]⟩
  | closing code sent =>
      refine ⟨.finish true, rfl, rfl, ?_⟩
      have hLess : sent < (closingMessages code).length := by
        rw [PhaseFits, hPhase] at hFits
        have hMost := hFits.1
        have hNot : sent ≠ 3 := by
          rintro rfl
          exact hOpen ⟨code, hPhase⟩
        simp only [closingMessages, List.length_cons,
          List.length_nil]
        omega
      simp [step, hPhase, List.getElem?_eq_getElem hLess]

/-
  A session whose child is gone closes its channel.

  However its tasks are scheduled, it takes no more steps of
  its own than it has work left, and it can always take one
  that is no error until all closing messages were sent.
-/
theorem closes_after_exit
    {es : List PipeEvent}
    (hReachable : (machine command).Reachable p)
    (hGone : p.ChildGone)
    (hOwn : ∀ e ∈ es, e.own = true)
    (hExec : (machine command).exec p es = some q) :
    es.length + q.work ≤ p.work ∧
      (q.Closed ∨
        ∃ e : PipeEvent, e.own = true ∧ e.fails = false ∧
          (q.step command e).isSome = true) := by
  induction es generalizing p with
  | nil =>
      simp only [Machine.exec, Option.some.injEq] at hExec
      subst hExec
      refine ⟨by simp, ?_⟩
      by_cases hClosed : p.Closed
      · exact Or.inl hClosed
      · exact Or.inr (own_enabled
          (reachable_inv hReachable) hGone hClosed)
  | cons e es ih =>
      rcases Machine.exec_cons.mp hExec with
        ⟨t, hStep, hRest⟩
      rcases step_work (reachable_inv hReachable) hGone
          (hOwn e List.mem_cons_self) hStep with
        ⟨hLess, hStill⟩
      rcases ih (.step hReachable trivial hStep) hStill
          (fun e' h => hOwn e' (List.mem_cons_of_mem e h))
          hRest with
        ⟨hBound, hEnd⟩
      refine ⟨?_, hEnd⟩
      rw [List.length_cons]
      omega

theorem closingEvents_close :
    ∃ p q,
      (machine sampleCommand).exec initial goneEvents =
          some p ∧
        (machine sampleCommand).exec p closingEvents =
          some q ∧
        closingEvents.length + q.work ≤ p.work ∧
        (q.Closed ∨
          ∃ e : PipeEvent, e.own = true ∧ e.fails = false ∧
            (q.step sampleCommand e).isSome = true) := by
  have hGone :
      ((machine sampleCommand).exec initial goneEvents).map
        (fun p => decide p.ChildGone) = some true := by
    decide
  rcases Option.map_eq_some_iff.mp hGone with
    ⟨p, hBefore, hChild⟩
  have hBoth :
      ((machine sampleCommand).exec initial
        (goneEvents ++ closingEvents)).isSome = true := by
    decide
  rcases Option.isSome_iff_exists.mp hBoth with ⟨q, hAll⟩
  rcases Machine.exec_append.mp hAll with ⟨r, hFirst, hRest⟩
  rw [hBefore] at hFirst
  cases hFirst
  refine ⟨p, q, hBefore, hRest, closes_after_exit ?_
    (of_decide_eq_true hChild) (by decide) hRest⟩
  exact .exec .init (Machine.meetsAll_true _ _) hBefore

end PipeSession

end Sshdt
