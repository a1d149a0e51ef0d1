import Sshdt.DevTunnel.Host
import Sshdt.Lib.Interleave
import Sshdt.Lib.Machine

/-
  The events of a child process (`src/devtunnel/process.rs`).

  Two `drain` tasks cut the output of the child into lines
  and send them into one bounded channel. `next_event`
  receives from the channel and, when both tasks are gone
  and the channel is empty, waits for the child. Its future
  may be dropped at either await: a dropped `recv` takes
  nothing out of the channel, and a dropped `Child::wait`
  does not use up the exit status.

  The bytes of a stream are those its reads deliver before
  the end of the file or an error.

  Key definitions include:
    * `LineBuffer.push`
    * `drainFrom`
    * `DrainTask.step`
    * `OwnedProcess.poll`
    * `OwnedProcess.step`
    * `OwnedProcess.Inv`

  Key theorems include:
    * `DrainTask.step_remaining`
    * `OwnedProcess.step_inv`
    * `OwnedProcess.events_complete`
-/

------------------------------------------------------------
-- Draining A Stream
------------------------------------------------------------

namespace Sshdt

namespace DevTunnel

/- The bound on the bytes kept of one line. -/
def lineLimit : Nat :=
  65536

/- The bytes of one read at most. -/
def chunkSize : Nat :=
  4096

/- The line being read, and whether bytes were left out. -/
structure LineBuffer where
  line : List UInt8
  oversized : Bool
  deriving DecidableEq, Repr

namespace LineBuffer

/- No bytes of a line yet. -/
def empty : LineBuffer where
  line := []
  oversized := false

/- One byte that is no newline. -/
def push
    (buffer : LineBuffer)
    (byte : UInt8) : LineBuffer :=
  if buffer.line.length < lineLimit then
    { buffer with line := buffer.line ++ [byte] }
  else
    { buffer with oversized := true }

/- The text in place of a line that is too long. -/
def omitted : Text :=
  "[oversized output line omitted]".toList

/- The text of a line that a newline ends. -/
def terminated
    (buffer : LineBuffer) : Text :=
  if buffer.oversized then
    omitted
  else
    Text.trimEndMatches '\r' (Text.fromUtf8Lossy buffer.line)

/- The text of what is left at the end of the stream. -/
def remainder
    (buffer : LineBuffer) : Option Text :=
  if buffer.oversized || !buffer.line.isEmpty then
    some
      (if buffer.oversized then
        omitted
      else
        Text.fromUtf8Lossy buffer.line)
  else
    none

end LineBuffer

/- The byte of `\n`. -/
def newline : UInt8 :=
  0x0a

/- The lines that `drain` sends for these bytes. -/
def drainFrom :
    LineBuffer → List UInt8 → List Text
| buffer, [] => buffer.remainder.toList
| buffer, byte :: rest =>
    if byte = newline then
      buffer.terminated :: drainFrom .empty rest
    else
      drainFrom (buffer.push byte) rest

/- The lines that `drain` produces for a whole stream. -/
def drain
    (output : List UInt8) : List Text :=
  drainFrom .empty output

/-
  Where a drain task stands. `looking` has bytes of the last
  read to look at and reads again when there are none,
  `sending` waits for the channel in the middle of a chunk
  and `finishing` at the end of the stream.
-/
inductive DrainPhase where
  | looking (chunk : List UInt8)
  | sending (line : Text) (chunk : List UInt8)
  | finishing (line : Text)
  | ended
  deriving DecidableEq, Repr

/- A drain task; `input` is what its reads will deliver. -/
structure DrainTask where
  input : List UInt8
  buffer : LineBuffer
  phase : DrainPhase
  deriving DecidableEq, Repr

/- The steps of a drain task. -/
inductive DrainStep where
  | read (n : Nat)
  | look
  | eof
  | send
  deriving DecidableEq, Repr

namespace DrainTask

/- A task that was just spawned. -/
def spawned
    (output : List UInt8) : DrainTask where
  input := output
  buffer := .empty
  phase := .looking []

/- The task after a step, and the line it sent. -/
def step
    (task : DrainTask) :
    DrainStep → DrainPhase → Option (DrainTask × Option Text)
| .read n, .looking [] =>
    if 1 ≤ n ∧ n ≤ chunkSize ∧ n ≤ task.input.length then
      some
        ({ task with
            input := task.input.drop n
            phase := .looking (task.input.take n) }, none)
    else
      none
| .eof, .looking [] =>
    if task.input = [] then
      match task.buffer.remainder with
      | some line =>
          some ({ task with phase := .finishing line }, none)
      | none => some ({ task with phase := .ended }, none)
    else
      none
| .look, .looking (byte :: chunk) =>
    if byte = newline then
      some
        ({ task with
            phase := .sending task.buffer.terminated chunk },
          none)
    else
      some
        ({ task with
            buffer := task.buffer.push byte
            phase := .looking chunk }, none)
| .send, .sending line chunk =>
    some
      ({ task with buffer := .empty, phase := .looking chunk },
        some line)
| .send, .finishing line =>
    some ({ task with phase := .ended }, some line)
| _, _ => none

/- The lines that the task will still send. -/
def remaining
    (task : DrainTask) : List Text :=
  match task.phase with
  | .looking chunk =>
      drainFrom task.buffer (chunk ++ task.input)
  | .sending line chunk =>
      line :: drainFrom .empty (chunk ++ task.input)
  | .finishing line => [line]
  | .ended => []

/- A step sends the next line, if it sends one. -/
theorem step_remaining
    {task after : DrainTask}
    {step : DrainStep}
    {sent : Option Text}
    (hStep :
      task.step step task.phase = some (after, sent)) :
    task.remaining = sent.toList ++ after.remaining := by
  rcases task with ⟨input, buffer, phase⟩
  simp only at hStep
  unfold DrainTask.step at hStep
  split at hStep
  · -- A read moves bytes from the input to the chunk.
    split at hStep <;> [skip; cases hStep]
    cases hStep
    simp [remaining]
  · split at hStep <;> [rename_i hInput; cases hStep]
    simp only at hInput
    subst hInput
    split at hStep <;> rename_i hRemainder <;> cases hStep
    · simp only at hRemainder
      simp [remaining, drainFrom, hRemainder]
    · simp only at hRemainder
      simp [remaining, drainFrom, hRemainder]
  · split at hStep <;> rename_i hByte <;> cases hStep
    · simp [remaining, drainFrom, hByte]
    · simp [remaining, drainFrom, hByte]
  · cases hStep
    simp [remaining]
  · cases hStep
    simp [remaining]
  · cases hStep

/- A task that has ended stays so. -/
theorem step_ended
    {task : DrainTask}
    {step : DrainStep}
    (hEnded : task.phase = .ended) :
    task.step step task.phase = none := by
  rw [hEnded]
  cases step <;> rfl

/-
  A task that has not ended can go on, unless it waits for
  room in the channel.
-/
theorem step_enabled
    {task : DrainTask}
    (hRuns : task.phase ≠ .ended) :
    ∃ step, (task.step step task.phase).isSome = true := by
  cases hPhase : task.phase with
  | looking chunk =>
      cases chunk with
      | cons byte chunk =>
          refine ⟨.look, ?_⟩
          simp only [DrainTask.step]
          split <;> rfl
      | nil =>
          cases hInput : task.input with
          | nil =>
              refine ⟨.eof, ?_⟩
              simp only [DrainTask.step, hInput]
              rw [if_pos trivial]
              split <;> rfl
          | cons byte rest =>
              refine ⟨.read 1, ?_⟩
              simp [DrainTask.step, hInput, chunkSize]
  | sending line chunk => exact ⟨.send, rfl⟩
  | finishing line => exact ⟨.send, rfl⟩
  | ended => exact absurd hPhase hRuns

end DrainTask

end DevTunnel

end Sshdt

------------------------------------------------------------
-- The Consumer
------------------------------------------------------------

namespace Sshdt

namespace DevTunnel

/- The capacity of the channel. -/
def channelCapacity : Nat :=
  256

/- What `Child::wait` gives. -/
inductive ExitStatus where
  | exited (success : Bool) (code : Option Int)
  | waitFails
  deriving DecidableEq, Repr

/- The event made from the result of `Child::wait`. -/
def ExitStatus.event :
    ExitStatus → ProcessEvent
| .exited success code => .exited success code
| .waitFails => .exited false none

/- The await at which a call of `next_event` stands. -/
inductive NextEvent where
  | receiving
  | waiting
  deriving DecidableEq, Repr

/-
  A process and the tasks around it. `status` is the exit
  status once the child is gone, `call` the pending
  `next_event`, and `returned` what the calls so far gave.
-/
structure OwnedProcess where
  stdout : DrainTask
  stderr : DrainTask
  events : List ProcessEvent
  status : Option ExitStatus
  exited : Bool
  call : Option NextEvent
  returned : List (Option ProcessEvent)
  deriving DecidableEq, Repr

namespace OwnedProcess

/- The steps of the tasks, of the child and of the caller. -/
inductive Event where
  | drain (stream : Stream) (step : DrainStep)
  | exits (status : ExitStatus)
  | nextEvent
  | poll
  | cancel
  deriving DecidableEq, Repr

/- `spawn_owned`, for a child with these two outputs. -/
def spawnOwned
    (out err : List UInt8) : OwnedProcess where
  stdout := .spawned out
  stderr := .spawned err
  events := []
  status := none
  exited := false
  call := none
  returned := []

/- The drain task of a stream. -/
def task
    (p : OwnedProcess) : Stream → DrainTask
| .stdout => p.stdout
| .stderr => p.stderr

/- Both senders are dropped. -/
def sendersGone
    (p : OwnedProcess) : Bool :=
  p.stdout.phase = .ended ∧ p.stderr.phase = .ended

/- The state with another task and channel. -/
def setTask
    (p : OwnedProcess)
    (stream : Stream)
    (task : DrainTask)
    (events : List ProcessEvent) : OwnedProcess :=
  match stream with
  | .stdout => { p with stdout := task, events }
  | .stderr => { p with stderr := task, events }

/- A drain task takes a step; a send needs room. -/
def drainStep
    (p : OwnedProcess)
    (stream : Stream)
    (step : DrainStep) : Option OwnedProcess :=
  match (p.task stream).step step (p.task stream).phase with
  | none => none
  | some (task, none) => some (p.setTask stream task p.events)
  | some (task, some line) =>
      if p.events.length < channelCapacity then
        some
          (p.setTask stream task
            (p.events ++ [.line stream line]))
      else
        none

/- A call of `next_event` returns. -/
def finish
    (p : OwnedProcess)
    (result : Option ProcessEvent) : OwnedProcess :=
  { p with
    call := none, returned := p.returned ++ [result] }

/-
  Poll the pending call. A call that receives nothing more
  goes on to the exit status, in the next step here. A poll
  that is pending changes nothing.
-/
def poll
    (p : OwnedProcess) : NextEvent → OwnedProcess
| .receiving =>
    match p.events with
    | event :: events =>
        { p with events }.finish (some event)
    | [] =>
        if p.sendersGone then
          if p.exited then
            p.finish none
          else
            { p with call := some .waiting }
        else
          p
| .waiting =>
    match p.status with
    | some status =>
        { p with exited := true }.finish (some status.event)
    | none => p

/- One step. -/
def step
    (p : OwnedProcess) :
    Event → Option OwnedProcess
| .drain stream step => p.drainStep stream step
| .exits status =>
    match p.status with
    | some _ => none
    | none => some { p with status := some status }
| .nextEvent =>
    match p.call with
    | some _ => none
    | none => some { p with call := some .receiving }
| .poll =>
    match p.call with
    | none => none
    | some call => some (p.poll call)
| .cancel =>
    match p.call with
    | none => none
    | some _ => some { p with call := none }

/- The runs of a child with these two outputs. -/
def machine
    (out err : List UInt8) : Machine OwnedProcess Event where
  init := spawnOwned out err
  step := step

end OwnedProcess

end DevTunnel

end Sshdt

------------------------------------------------------------
-- What The Calls Obtain
------------------------------------------------------------

namespace Sshdt

namespace DevTunnel

namespace OwnedProcess

/- The events of the lines of a stream. -/
def linesOf
    (stream : Stream)
    (lines : List Text) : List ProcessEvent :=
  lines.map (.line stream)

theorem linesOf_concat
    (stream : Stream)
    (lines : List Text)
    (line : Text) :
    linesOf stream (lines ++ [line]) =
      linesOf stream lines ++ [.line stream line] := by
  simp [linesOf]

/-
  The lines sent so far are merged in the channel and in
  what was obtained from it. The exit event is given only
  with both tasks gone and the channel empty, and nothing
  follows it.
-/
structure Inv
    (out err : List UInt8)
    (sentOut sentErr : List Text)
    (obtained : List ProcessEvent)
    (p : OwnedProcess) : Prop where
  out : sentOut ++ p.stdout.remaining = drain out
  err : sentErr ++ p.stderr.remaining = drain err
  merge :
    Interleaves (linesOf .stdout sentOut)
      (linesOf .stderr sentErr) (obtained ++ p.events)
  running :
    p.exited = false → p.returned = obtained.map some
  gone :
    p.exited = true →
      p.sendersGone = true ∧ p.events = [] ∧
        ∃ status n, p.status = some status ∧
          p.returned =
            obtained.map some ++
              some status.event :: List.replicate n none
  waiting :
    p.call = some .waiting →
      p.sendersGone = true ∧ p.events = [] ∧
        p.exited = false

theorem init_inv
    (out err : List UInt8) :
    Inv out err [] [] [] (spawnOwned out err) where
  out := rfl
  err := rfl
  merge := .nil
  running := fun _ => rfl
  gone := by simp [spawnOwned]
  waiting := by simp [spawnOwned]

/- No task steps once both are gone. -/
theorem drainStep_sendersGone
    {p : OwnedProcess}
    {stream : Stream}
    {step : DrainStep}
    (hGone : p.sendersGone = true) :
    p.drainStep stream step = none := by
  unfold sendersGone at hGone
  rw [decide_eq_true_eq] at hGone
  have hEnded : (p.task stream).phase = .ended := by
    cases stream with
    | stdout => exact hGone.1
    | stderr => exact hGone.2
  rw [drainStep, DrainTask.step_ended hEnded]

/- A task adds its next line at the end of the channel. -/
theorem drain_inv
    {out err : List UInt8}
    {sentOut sentErr : List Text}
    {obtained : List ProcessEvent}
    {p q : OwnedProcess}
    {stream : Stream}
    {step : DrainStep}
    (hInv : Inv out err sentOut sentErr obtained p)
    (hStep : p.drainStep stream step = some q) :
    ∃ sentOut' sentErr',
      Inv out err sentOut' sentErr' obtained q := by
  have hRuns : p.sendersGone = false := by
    by_contra hGone
    rw [Bool.not_eq_false] at hGone
    rw [drainStep_sendersGone hGone] at hStep
    cases hStep
  have hNotExited : p.exited = false := by
    by_contra hExited
    rw [Bool.not_eq_false] at hExited
    rw [(hInv.gone hExited).1] at hRuns
    cases hRuns
  have hNotWaiting : p.call ≠ some .waiting := by
    intro hCall
    rw [(hInv.waiting hCall).1] at hRuns
    cases hRuns
  have hGone :
      ∀ {P : Prop}, p.exited = true → P := by
    intro P hExited
    rw [hNotExited] at hExited
    cases hExited
  unfold drainStep at hStep
  split at hStep
  · cases hStep
  · rename_i task hTask
    cases hStep
    have hSame := DrainTask.step_remaining hTask
    rw [Option.toList_none, List.nil_append] at hSame
    refine ⟨sentOut, sentErr, ?_⟩
    cases stream with
    | stdout =>
        exact
          { out := hSame ▸ hInv.out, err := hInv.err
            merge := hInv.merge, running := hInv.running
            gone := hGone
            waiting := fun h => absurd h hNotWaiting }
    | stderr =>
        exact
          { out := hInv.out, err := hSame ▸ hInv.err
            merge := hInv.merge, running := hInv.running
            gone := hGone
            waiting := fun h => absurd h hNotWaiting }
  · rename_i task line hTask
    split at hStep <;> [skip; cases hStep]
    cases hStep
    have hNext := DrainTask.step_remaining hTask
    rw [Option.toList_some, List.singleton_append] at hNext
    cases stream with
    | stdout =>
        refine ⟨sentOut ++ [line], sentErr, ?_⟩
        refine
          { out := ?_, err := hInv.err, merge := ?_
            running := hInv.running, gone := hGone
            waiting := fun h => absurd h hNotWaiting }
        · rw [List.append_assoc, List.singleton_append]
          exact hNext ▸ hInv.out
        · rw [linesOf_concat]
          simpa only [setTask, List.append_assoc] using
            hInv.merge.concat_left (.line .stdout line)
    | stderr =>
        refine ⟨sentOut, sentErr ++ [line], ?_⟩
        refine
          { out := hInv.out, err := ?_, merge := ?_
            running := hInv.running, gone := hGone
            waiting := fun h => absurd h hNotWaiting }
        · rw [List.append_assoc, List.singleton_append]
          exact hNext ▸ hInv.err
        · rw [linesOf_concat]
          simpa only [setTask, List.append_assoc] using
            hInv.merge.concat_right (.line .stderr line)

/- A poll takes the first event of the channel or the exit. -/
theorem poll_inv
    {out err : List UInt8}
    {sentOut sentErr : List Text}
    {obtained : List ProcessEvent}
    {p : OwnedProcess}
    {call : NextEvent}
    (hInv : Inv out err sentOut sentErr obtained p)
    (hCall : p.call = some call) :
    ∃ obtained',
      Inv out err sentOut sentErr obtained'
        (p.poll call) := by
  cases call with
  | receiving =>
      simp only [poll]
      split
      · rename_i event events hEvents
        have hNotExited : p.exited = false := by
          by_contra hExited
          rw [Bool.not_eq_false] at hExited
          rw [(hInv.gone hExited).2.1] at hEvents
          cases hEvents
        refine ⟨obtained ++ [event], ?_⟩
        refine
          { out := hInv.out, err := hInv.err, merge := ?_
            running := ?_
            gone := by simp [finish, hNotExited]
            waiting := by simp [finish] }
        · simpa [finish, hEvents] using hInv.merge
        · intro _
          simp [finish, hInv.running hNotExited]
      · rename_i hEvents
        refine ⟨obtained, ?_⟩
        split
        · rename_i hGone
          split
          · rename_i hExited
            rcases (hInv.gone hExited).2.2 with
              ⟨status, n, hStatus, hReturned⟩
            refine
              { out := hInv.out, err := hInv.err
                merge := hInv.merge
                running := by simp [finish, hExited]
                gone := ?_, waiting := by simp [finish] }
            intro _
            refine ⟨hGone, hEvents, status, n + 1, hStatus,
              ?_⟩
            simp [finish, hReturned, List.replicate_succ']
          · rename_i hExited
            rw [Bool.not_eq_true] at hExited
            exact
              { out := hInv.out, err := hInv.err
                merge := hInv.merge
                running := hInv.running, gone := hInv.gone
                waiting :=
                  fun _ => ⟨hGone, hEvents, hExited⟩ }
        · exact hInv
  | waiting =>
      rcases hInv.waiting hCall with
        ⟨hGone, hEvents, hExited⟩
      refine ⟨obtained, ?_⟩
      simp only [poll]
      split
      · rename_i status hStatus
        refine
          { out := hInv.out, err := hInv.err
            merge := hInv.merge, running := by simp [finish]
            gone := ?_, waiting := by simp [finish] }
        intro _
        refine ⟨hGone, hEvents, status, 0, hStatus, ?_⟩
        simp [finish, hInv.running hExited]
      · exact hInv

/- Every step keeps the invariant. -/
theorem step_inv
    {out err : List UInt8}
    {sentOut sentErr : List Text}
    {obtained : List ProcessEvent}
    {p q : OwnedProcess}
    {e : Event}
    (hInv : Inv out err sentOut sentErr obtained p)
    (hStep : p.step e = some q) :
    ∃ sentOut' sentErr' obtained',
      Inv out err sentOut' sentErr' obtained' q := by
  cases e with
  | drain stream step =>
      rcases drain_inv hInv hStep with ⟨o, r, hNext⟩
      exact ⟨o, r, obtained, hNext⟩
  | exits status =>
      simp only [step] at hStep
      split at hStep <;> [cases hStep; rename_i hRuns]
      cases hStep
      refine ⟨sentOut, sentErr, obtained, ?_⟩
      refine
        { out := hInv.out, err := hInv.err
          merge := hInv.merge, running := hInv.running
          gone := ?_, waiting := hInv.waiting }
      intro hExited
      rcases (hInv.gone hExited).2.2 with ⟨_, _, hStatus, _⟩
      rw [hRuns] at hStatus
      cases hStatus
  | nextEvent =>
      simp only [step] at hStep
      split at hStep <;> [cases hStep; skip]
      cases hStep
      exact ⟨sentOut, sentErr, obtained,
        { out := hInv.out, err := hInv.err
          merge := hInv.merge, running := hInv.running
          gone := hInv.gone, waiting := by simp }⟩
  | poll =>
      simp only [step] at hStep
      split at hStep <;> [cases hStep; rename_i call hCall]
      cases hStep
      rcases poll_inv hInv hCall with ⟨obtained', hNext⟩
      exact ⟨sentOut, sentErr, obtained', hNext⟩
  | cancel =>
      simp only [step] at hStep
      split at hStep <;> [cases hStep; skip]
      cases hStep
      exact ⟨sentOut, sentErr, obtained,
        { out := hInv.out, err := hInv.err
          merge := hInv.merge, running := hInv.running
          gone := hInv.gone, waiting := by simp }⟩

/- The invariant holds in every state of every run. -/
theorem exec_inv
    {out err : List UInt8}
    {es : List Event}
    {p : OwnedProcess}
    (hRun :
      (machine out err).exec (machine out err).init es =
        some p) :
    ∃ sentOut sentErr obtained,
      Inv out err sentOut sentErr obtained p := by
  apply @Machine.exec_history _ _ (machine out err)
    (fun _ p =>
      ∃ sentOut sentErr obtained,
        Inv out err sentOut sentErr obtained p) es p hRun
  · exact ⟨[], [], [], init_inv out err⟩
  · rintro es q e r _ ⟨sentOut, sentErr, obtained, hInv⟩ hStep
    exact step_inv hInv hStep

/- What the invariant says about the calls so far. -/
theorem Inv.complete
    {out err : List UInt8}
    {sentOut sentErr : List Text}
    {obtained : List ProcessEvent}
    {p : OwnedProcess}
    (hInv : Inv out err sentOut sentErr obtained p) :
    ∃ outGot outRest errGot errRest obtained,
      drain out = outGot ++ outRest ∧
        drain err = errGot ++ errRest ∧
        Interleaves (linesOf .stdout outGot)
          (linesOf .stderr errGot) obtained ∧
        (p.returned = obtained.map some ∨
          ∃ status n, p.status = some status ∧
            p.returned =
              obtained.map some ++
                some status.event ::
                  List.replicate n none ∧
            outRest = [] ∧ errRest = []) := by
  cases hExited : p.exited with
  | false =>
      rcases hInv.merge.of_append with
        ⟨l₁, l₂, r₁, r₂, hOut, hErr, hFirst, _⟩
      rcases List.map_eq_append_iff.mp hOut with
        ⟨outGot, outLeft, rfl, rfl, _⟩
      rcases List.map_eq_append_iff.mp hErr with
        ⟨errGot, errLeft, rfl, rfl, _⟩
      refine ⟨outGot, outLeft ++ p.stdout.remaining, errGot,
        errLeft ++ p.stderr.remaining, obtained, ?_, ?_,
        hFirst, Or.inl (hInv.running hExited)⟩
      · rw [← hInv.out, List.append_assoc]
      · rw [← hInv.err, List.append_assoc]
  | true =>
      rcases hInv.gone hExited with
        ⟨hGone, hEvents, status, n, hStatus, hReturned⟩
      have hMerge := hInv.merge
      rw [hEvents, List.append_nil] at hMerge
      rw [sendersGone, decide_eq_true_eq] at hGone
      refine ⟨sentOut, [], sentErr, [], obtained, ?_, ?_,
        hMerge,
        Or.inr ⟨status, n, hStatus, hReturned, rfl, rfl⟩⟩
      · rw [← hInv.out, DrainTask.remaining, hGone.1]
      · rw [← hInv.err, DrainTask.remaining, hGone.2]

/- A poll is pending only while there is nothing to give. -/
theorem poll_pending
    {out err : List UInt8}
    {sentOut sentErr : List Text}
    {obtained : List ProcessEvent}
    {p : OwnedProcess}
    {call : NextEvent}
    (hInv : Inv out err sentOut sentErr obtained p)
    (hCall : p.call = some call)
    (hPending : p.poll call = p) :
    p.events = [] ∧
      (p.sendersGone = false ∨ p.status = none) ∧
      p.exited = false := by
  have hReturns :
      ∀ (q : OwnedProcess) (result : Option ProcessEvent),
        q.returned = p.returned → q.finish result ≠ p := by
    intro q result hSame hEq
    have hReturned := congrArg OwnedProcess.returned hEq
    simp [finish, hSame] at hReturned
  cases call with
  | receiving =>
      simp only [poll] at hPending
      split at hPending
      · exact absurd hPending (hReturns _ _ rfl)
      · rename_i hEvents
        split at hPending
        · split at hPending
          · exact absurd hPending (hReturns _ _ rfl)
          · have hSame := congrArg OwnedProcess.call hPending
            rw [hCall] at hSame
            simp at hSame
        · rename_i hRuns
          rw [Bool.not_eq_true] at hRuns
          refine ⟨hEvents, Or.inl hRuns, ?_⟩
          by_contra hExited
          rw [Bool.not_eq_false] at hExited
          rw [(hInv.gone hExited).1] at hRuns
          cases hRuns
  | waiting =>
      simp only [poll] at hPending
      split at hPending
      · exact absurd hPending (hReturns _ _ rfl)
      · rename_i hStatus
        rcases hInv.waiting hCall with
          ⟨_, hEvents, hExited⟩
        exact ⟨hEvents, Or.inr hStatus, hExited⟩

/- A task that has not ended goes on while there is room. -/
theorem drainStep_enabled
    {p : OwnedProcess}
    {stream : Stream}
    (hRuns : (p.task stream).phase ≠ .ended)
    (hRoom : p.events.length < channelCapacity) :
    ∃ step, (p.drainStep stream step).isSome = true := by
  rcases DrainTask.step_enabled hRuns with ⟨step, hSome⟩
  refine ⟨step, ?_⟩
  rcases Option.isSome_iff_exists.mp hSome with
    ⟨⟨task, sent⟩, hStep⟩
  unfold drainStep
  rw [hStep]
  cases sent with
  | none => rfl
  | some line => simp [hRoom]

/-
  The events of a process are complete, in order, and
  survive cancelled calls.

  Whatever the calls have returned so far, the lines among
  it merge first parts of what `drain` produces for the two
  streams. They are followed by nothing yet, or by the one
  exit event and `None` for every call after it, and then
  the lines are all there. A poll is pending only while
  there is nothing to give, after the exit event it is not
  pending at all, and a drain task stands still only when
  the channel is full.
-/
theorem events_complete
    {out err : List UInt8}
    {es : List Event}
    {p : OwnedProcess}
    (hRun :
      (machine out err).exec (machine out err).init es =
        some p) :
    (∃ outGot outRest errGot errRest obtained,
      drain out = outGot ++ outRest ∧
        drain err = errGot ++ errRest ∧
        Interleaves (linesOf .stdout outGot)
          (linesOf .stderr errGot) obtained ∧
        (p.returned = obtained.map some ∨
          ∃ status n, p.status = some status ∧
            p.returned =
              obtained.map some ++
                some status.event ::
                  List.replicate n none ∧
            outRest = [] ∧ errRest = [])) ∧
    (∀ call, p.call = some call → p.poll call = p →
      p.events = [] ∧
        (p.sendersGone = false ∨ p.status = none) ∧
        p.exited = false) ∧
    (∀ call, p.call = some call → p.exited = true →
      p.poll call = p.finish none) ∧
    (∀ stream, (p.task stream).phase ≠ .ended →
      (∃ step, (p.drainStep stream step).isSome = true) ∨
        channelCapacity ≤ p.events.length) := by
  rcases exec_inv hRun with
    ⟨sentOut, sentErr, obtained, hInv⟩
  refine ⟨hInv.complete, ?_, ?_, ?_⟩
  · intro call hCall hPending
    exact poll_pending hInv hCall hPending
  · intro call hCall hExited
    rcases hInv.gone hExited with ⟨hGone, hEvents, _⟩
    cases call with
    | receiving => simp [poll, hEvents, hGone, hExited]
    | waiting =>
        rw [(hInv.waiting hCall).2.2] at hExited
        cases hExited
  · intro stream hRuns
    by_cases hRoom : p.events.length < channelCapacity
    · exact Or.inl (drainStep_enabled hRuns hRoom)
    · exact Or.inr (Nat.not_lt.mp hRoom)

/-
  One line on each stream. One call is cancelled before any
  output, another while it waits for the child.
-/
def cancelledCalls : List Event :=
  [.nextEvent, .poll, .cancel,
    .drain .stdout (.read 2), .drain .stdout .look,
    .drain .stdout .look, .drain .stderr (.read 1),
    .drain .stderr .look, .drain .stderr .eof,
    .drain .stderr .send, .drain .stdout .send,
    .drain .stdout .eof,
    .nextEvent, .poll, .nextEvent, .poll,
    .nextEvent, .poll, .poll, .cancel,
    .exits (.exited true (some 0)),
    .nextEvent, .poll, .poll, .nextEvent, .poll]

/- What the calls of that run give. -/
def cancelledGiven : List (Option ProcessEvent) :=
  [some (.line .stderr ['b']), some (.line .stdout ['a']),
    some (.exited true (some 0)), none]

theorem cancelledCalls_complete :
    ∃ p,
      (machine [0x61, 0x0a] [0x62]).exec
          (machine [0x61, 0x0a] [0x62]).init cancelledCalls =
        some p ∧
      p.returned = cancelledGiven ∧
      ∃ outGot outRest errGot errRest obtained,
        drain [0x61, 0x0a] = outGot ++ outRest ∧
          drain [0x62] = errGot ++ errRest ∧
          Interleaves (linesOf .stdout outGot)
            (linesOf .stderr errGot) obtained ∧
          (p.returned = obtained.map some ∨
            ∃ status n, p.status = some status ∧
              p.returned =
                obtained.map some ++
                  some status.event ::
                    List.replicate n none ∧
              outRest = [] ∧ errRest = []) := by
  have hGiven :
      ((machine [0x61, 0x0a] [0x62]).exec
          (machine [0x61, 0x0a] [0x62]).init
          cancelledCalls).map OwnedProcess.returned =
        some cancelledGiven := by
    decide
  rcases Option.map_eq_some_iff.mp hGiven with
    ⟨p, hRun, hReturned⟩
  exact ⟨p, hRun, hReturned, (events_complete hRun).1⟩

end OwnedProcess

end DevTunnel

end Sshdt
