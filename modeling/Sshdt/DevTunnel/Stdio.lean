import Sshdt.Lib.ChunkRelay
import Sshdt.Lib.Machine
import Sshdt.Lib.Pump

/-
  The streams of a proxy (`stdio` in
  `src/devtunnel/client.rs`).

  A thread reads standard input into a queue, the upload
  writes what it takes out of the queue to the stream and
  shuts the stream down at the end, and the download copies
  the stream to standard output. `select!` takes the first
  of the two that ends: an upload that succeeded is followed
  by the rest of the download, while the end of the download
  is the end of the proxy.

  Key definitions include:
    * `Stdio`
    * `Stdio.step`
    * `Stdio.Inv`
    * `Stdio.Faithful`

  Key theorems include:
    * `Stdio.step_inv`
    * `Stdio.proxy_streams_faithful`
    * `Stdio.remote_end_returns`
-/

------------------------------------------------------------
-- The Two Directions
------------------------------------------------------------

namespace Sshdt

namespace DevTunnel

/- The bytes of one read of standard input. -/
def inputChunk : Nat :=
  16384

/- The chunks that wait for the upload. -/
def inputQueue : Option Nat :=
  some 4

/- The buffer of `tokio::io::copy`. -/
def downloadBuffer : Nat :=
  8192

/- What `stdio` fails with. -/
inductive StdioError where
  | input
  | write
  | shutdown
  | copy
  | flush
  deriving DecidableEq, Repr

/- Where `stdio` is. -/
inductive StdioPhase where
  | relaying
  | downloading
  | returned (result : Except StdioError Unit)
  deriving DecidableEq, Repr

/-
  The two directions of a proxy. `shut` says that the upload
  has shut down its half of the stream.
-/
structure Stdio where
  upload : ChunkRelay UInt8
  download : Pump UInt8
  shut : Bool
  phase : StdioPhase
  deriving DecidableEq, Repr

namespace Stdio

/-
  What happens at a proxy. `uploadEnds` and `downloadEnds`
  say whether the shutdown and the flush succeed.
-/
inductive Event where
  | upload (step : RelayStep UInt8)
  | uploadEnds (shutdown : Bool)
  | download (step : PumpStep UInt8)
  | downloadEnds (flushed : Bool)

/- A proxy whose stream has just been opened. -/
def initial : Stdio where
  upload := .start
  download := .start
  shut := false
  phase := .relaying

/- `stdio` has returned. -/
def hasReturned : StdioPhase → Bool
| .returned _ => true
| _ => false

/-
  A step on the way from standard input to the stream. The
  thread may go on reading after the return, but nothing
  takes its chunks any more.
-/
def uploadStep
    (p : Stdio)
    (e : RelayStep UInt8) : Option Stdio :=
  if (e.side = .writer → p.phase = .relaying) ∧
      (e = .send → hasReturned p.phase = false) then
    (p.upload.step inputChunk inputQueue e).map fun upload =>
      { p with
        upload
        phase :=
          if e = .writeFails then
            .returned (.error .write)
          else
            p.phase }
  else
    none

/- A step on the way from the stream to standard output. -/
def downloadStep
    (p : Stdio)
    (e : PumpStep UInt8) : Option Stdio :=
  if e.own = true ∧ hasReturned p.phase = true then
    none
  else
    (p.download.step downloadBuffer e).map fun download =>
      { p with download }

/-
  The upload has taken the last item out of the queue: the
  end of standard input, or the error that ended it.
-/
def endUpload
    (p : Stdio)
    (shutdown : Bool) : Stdio :=
  if p.upload.cut then
    { p with phase := .returned (.error .input) }
  else if shutdown then
    { p with shut := true, phase := .downloading }
  else
    { p with phase := .returned (.error .shutdown) }

/- One step of `stdio` or of what surrounds it. -/
def step
    (p : Stdio) : Event → Option Stdio
| .upload e => p.uploadStep e
| .uploadEnds shutdown =>
    if p.phase = .relaying ∧ p.upload.ended = true ∧
        p.upload.current = none then
      some (p.endUpload shutdown)
    else
      none
| .download e => p.downloadStep e
| .downloadEnds flushed =>
    if hasReturned p.phase then
      none
    else
      match p.download.state with
      | .finished =>
          some
            { p with
              phase := .returned
                (if flushed then .ok () else .error .flush) }
      | .failed =>
          some { p with phase := .returned (.error .copy) }
      | _ => none

/- The runs of a proxy. -/
def machine : Machine Stdio Event where
  init := initial
  step := step

end Stdio

end DevTunnel

end Sshdt

------------------------------------------------------------
-- Invariant
------------------------------------------------------------

namespace Sshdt

namespace DevTunnel

namespace Stdio

variable {p q : Stdio}

/- What an error of `stdio` says about its streams. -/
def Shown
    (p : Stdio) : StdioError → Prop
| .input => p.upload.cut = true
| .write => p.upload.broken = true
| .shutdown => p.upload.Arrived
| .copy => p.download.state = .failed
| .flush => p.download.state = .finished

/- What is known about the streams in a phase. -/
def PhaseFits
    (p : Stdio) : Prop :=
  match p.phase with
  | .relaying => p.shut = false ∧ p.upload.broken = false
  | .downloading => p.shut = true
  | .returned (.ok _) => p.download.state = .finished
  | .returned (.error error) => p.Shown error

structure Inv
    (p : Stdio) : Prop where
  upload : p.upload.Inv
  download : p.download.Inv
  undropped : p.download.state ≠ .dropped
  shut : p.shut = true → p.upload.Arrived
  phase : p.PhaseFits

theorem initial_inv : initial.Inv where
  upload := ChunkRelay.start_inv
  download := Pump.start_inv
  undropped := by simp [initial, Pump.start]
  shut := by simp [initial]
  phase := ⟨rfl, rfl⟩

/- What is known does not depend on who still reads. -/
theorem Shown.setUpload
    {upload : ChunkRelay UInt8}
    {error : StdioError}
    {e : RelayStep UInt8}
    (hShown : p.Shown error)
    (hStep :
      p.upload.step inputChunk inputQueue e = some upload)
    (hSide : e.side ≠ .writer) :
    Shown { p with upload } error := by
  cases error with
  | input => exact ChunkRelay.step_cut hShown hStep
  | write => exact ChunkRelay.step_broken hShown hStep
  | shutdown =>
      exact ChunkRelay.step_arrived hShown hStep hSide
  | copy => exact hShown
  | flush => exact hShown

/- Reading and sending leave the phase as it is. -/
theorem PhaseFits.setUpload
    {upload : ChunkRelay UInt8}
    {e : RelayStep UInt8}
    (hFits : p.PhaseFits)
    (hStep :
      p.upload.step inputChunk inputQueue e = some upload)
    (hWriter : e.side = .writer → p.phase = .relaying)
    (hFailed : e ≠ .writeFails) :
    PhaseFits { p with upload } := by
  unfold PhaseFits at hFits ⊢
  cases hPhase : p.phase with
  | relaying =>
      rw [hPhase] at hFits
      refine ⟨hFits.1, ?_⟩
      rw [ChunkRelay.step_unbroken hStep hFailed]
      exact hFits.2
  | downloading =>
      rw [hPhase] at hFits
      exact hFits
  | returned result =>
      rw [hPhase] at hFits
      cases result with
      | ok _ => exact hFits
      | error error =>
          refine Shown.setUpload hFits hStep ?_
          intro hSide
          rw [hWriter hSide] at hPhase
          cases hPhase

theorem uploadStep_inv
    {e : RelayStep UInt8}
    (hInv : p.Inv)
    (hStep : p.uploadStep e = some q) :
    q.Inv := by
  unfold uploadStep at hStep
  split at hStep <;> [rename_i hMay; cases hStep]
  rcases Option.map_eq_some_iff.mp hStep with
    ⟨upload, hRelay, rfl⟩
  have hUpload := ChunkRelay.step_inv hInv.upload hRelay
  have hFits := hInv.phase
  by_cases hFailed : e = .writeFails
  · rw [if_pos hFailed]
    have hPhase := hMay.1 (by rw [hFailed]; rfl)
    rw [PhaseFits, hPhase] at hFits
    refine
      { upload := hUpload, download := hInv.download
        undropped := hInv.undropped
        shut := fun hShut => ?_
        phase := ChunkRelay.step_writeFails
          (hFailed ▸ hRelay) }
    rw [hFits.1] at hShut
    cases hShut
  · rw [if_neg hFailed]
    refine
      { upload := hUpload, download := hInv.download
        undropped := hInv.undropped
        shut := fun hShut => ?_
        phase := PhaseFits.setUpload hFits hRelay hMay.1
          hFailed }
    refine ChunkRelay.step_arrived (hInv.shut hShut)
      hRelay ?_
    intro hSide
    rw [PhaseFits, hMay.1 hSide] at hFits
    rw [hFits.1] at hShut
    cases hShut

/- A download that has ended stays as it ended. -/
theorem downloadStep_inv
    {e : PumpStep UInt8}
    (hInv : p.Inv)
    (hStep : p.downloadStep e = some q) :
    q.Inv := by
  unfold downloadStep at hStep
  split at hStep <;> [cases hStep; skip]
  rcases Option.map_eq_some_iff.mp hStep with
    ⟨download, hPump, rfl⟩
  have hEnded :
      ∀ state, state ≠ .running →
        p.download.state = state → download.state = state := by
    rintro state hNot rfl
    exact Pump.step_ended hPump hNot
  refine
    { upload := hInv.upload
      download := Pump.step_inv hInv.download hPump
      undropped := Pump.step_undropped hPump hInv.undropped
      shut := hInv.shut, phase := ?_ }
  have hFits := hInv.phase
  unfold PhaseFits at hFits ⊢
  cases hPhase : p.phase with
  | relaying =>
      rw [hPhase] at hFits
      exact hFits
  | downloading =>
      rw [hPhase] at hFits
      exact hFits
  | returned result =>
      rw [hPhase] at hFits
      cases result with
      | ok _ => exact hEnded _ (by simp) hFits
      | error error =>
          cases error with
          | copy => exact hEnded _ (by simp) hFits
          | flush => exact hEnded _ (by simp) hFits
          | _ => exact hFits

/- A pump in the same state takes the place of another. -/
theorem Inv.setDownload
    {download : Pump UInt8}
    (hInv : p.Inv)
    (hDownload : download.Inv)
    (hState : download.state = p.download.state) :
    Inv { p with download } := by
  refine
    { upload := hInv.upload, download := hDownload
      undropped := hState ▸ hInv.undropped
      shut := hInv.shut, phase := ?_ }
  have hFits := hInv.phase
  unfold PhaseFits at hFits ⊢
  cases hPhase : p.phase with
  | relaying =>
      rw [hPhase] at hFits
      exact hFits
  | downloading =>
      rw [hPhase] at hFits
      exact hFits
  | returned result =>
      rw [hPhase] at hFits
      cases result with
      | ok _ => exact hState.trans hFits
      | error error =>
          cases error with
          | copy => exact hState.trans hFits
          | flush => exact hState.trans hFits
          | _ => exact hFits

/- The upload ends, and the download may go on. -/
theorem endUpload_inv
    {shutdown : Bool}
    (hInv : p.Inv)
    (hPhase : p.phase = .relaying)
    (hEnded : p.upload.ended = true)
    (hIdle : p.upload.current = none) :
    (p.endUpload shutdown).Inv := by
  have hFits := hInv.phase
  rw [PhaseFits, hPhase] at hFits
  unfold endUpload
  split
  · rename_i hCut
    exact
      { upload := hInv.upload, download := hInv.download
        undropped := hInv.undropped, shut := hInv.shut
        phase := hCut }
  · rename_i hCut
    rw [Bool.not_eq_true] at hCut
    have hArrived := hInv.upload.arrived hEnded hIdle hCut
      hFits.2
    split
    · exact
        { upload := hInv.upload, download := hInv.download
          undropped := hInv.undropped
          shut := fun _ => hArrived, phase := rfl }
    · exact
        { upload := hInv.upload, download := hInv.download
          undropped := hInv.undropped, shut := hInv.shut
          phase := hArrived }

/- Every step keeps the invariant. -/
theorem step_inv
    {e : Event}
    (hInv : p.Inv)
    (hStep : p.step e = some q) :
    q.Inv := by
  cases e with
  | upload e => exact uploadStep_inv hInv hStep
  | uploadEnds shutdown =>
      simp only [step] at hStep
      split at hStep <;> [rename_i hEnds; cases hStep]
      cases hStep
      exact endUpload_inv hInv hEnds.1 hEnds.2.1 hEnds.2.2
  | download e => exact downloadStep_inv hInv hStep
  | downloadEnds flushed =>
      simp only [step] at hStep
      split at hStep <;> [cases hStep; skip]
      split at hStep
      · rename_i hFinished
        cases hStep
        refine
          { upload := hInv.upload, download := hInv.download
            undropped := hInv.undropped, shut := hInv.shut
            phase := ?_ }
        cases flushed <;> exact hFinished
      · rename_i hFailed
        cases hStep
        exact
          { upload := hInv.upload, download := hInv.download
            undropped := hInv.undropped, shut := hInv.shut
            phase := hFailed }
      · cases hStep

theorem reachable_inv
    (hReachable : machine.Reachable p) :
    p.Inv :=
  hReachable.invariant initial_inv
    (fun _ _ _ hInv _ hStep => step_inv hInv hStep)

end Stdio

end DevTunnel

end Sshdt

------------------------------------------------------------
-- What Both Sides Get
------------------------------------------------------------

namespace Sshdt

namespace DevTunnel

namespace Stdio

variable {p q : Stdio}

/-
  What a proxy does to its streams.

  Each side gets a first part of what the other has sent.
  The stream is shut down only after all of standard input
  was written to it. A proxy that returned without an error
  has copied all that the stream held, up to its end; one
  that returned with an error met it at the stream that the
  error names.
-/
structure Faithful
    (p : Stdio) : Prop where
  output : p.download.delivered <+: p.download.written
  input : p.upload.delivered <+: p.upload.written
  shut :
    p.shut = true →
      p.upload.delivered = p.upload.written ∧
        p.upload.sourceOpen = false
  downloading : p.phase = .downloading → p.shut = true
  success :
    p.phase = .returned (.ok ()) →
      p.download.delivered = p.download.written ∧
        p.download.sourceOpen = false
  failure :
    ∀ error, p.phase = .returned (.error error) →
      p.Shown error

theorem Inv.faithful
    (hInv : p.Inv) :
    p.Faithful := by
  have hFits := hInv.phase
  unfold PhaseFits at hFits
  refine
    { output := hInv.download.prefix_written
      input := hInv.upload.prefix_written
      shut := hInv.shut, downloading := ?_, success := ?_
      failure := ?_ }
  · intro hPhase
    rw [hPhase] at hFits
    exact hFits
  · intro hPhase
    rw [hPhase] at hFits
    exact hInv.download.complete hFits
  · intro error hPhase
    rw [hPhase] at hFits
    exact hFits

/-
  In every state of every run, however the thread and the
  two directions are interleaved.
-/
theorem proxy_streams_faithful
    (hReachable : machine.Reachable p) :
    p.Faithful :=
  (reachable_inv hReachable).faithful

/- The remote end sends two bytes and closes the stream. -/
def remoteEvents : List Event :=
  [.upload (.put [1]), .upload (.read 1), .upload .send,
    .upload .take, .download (.put [7, 8]),
    .download (.read 2), .download (.deliver 1),
    .download .close]

/- The proxy ends while standard input is still open. -/
def endingEvents : List Event :=
  [.upload (.deliver 1), .download (.deliver 1),
    .upload (.put [2]), .download .eof, .download .finish,
    .upload (.read 1), .downloadEnds true, .upload (.put [3])]

theorem endingEvents_faithful :
    ∃ p,
      machine.exec initial (remoteEvents ++ endingEvents) =
          some p ∧
        p.phase = .returned (.ok ()) ∧
        p.upload.sourceOpen = true ∧ p.Faithful := by
  have hState :
      (machine.exec initial
          (remoteEvents ++ endingEvents)).map
        (fun p => (p.phase, p.upload.sourceOpen)) =
          some (.returned (.ok ()), true) := by
    decide
  rcases Option.map_eq_some_iff.mp hState with
    ⟨p, hRun, hEq⟩
  refine ⟨p, hRun, (Prod.mk.inj hEq).1,
    (Prod.mk.inj hEq).2, proxy_streams_faithful ?_⟩
  exact .exec .init (Machine.meetsAll_true _ _) hRun

end Stdio

end DevTunnel

end Sshdt

------------------------------------------------------------
-- The End Of The Stream
------------------------------------------------------------

namespace Sshdt

namespace DevTunnel

namespace Stdio

variable {p q : Stdio}

/- The event is a step of the download. -/
def Event.downloads : Event → Bool
| .download e => e.own
| .downloadEnds _ => true
| _ => false

/- The event is an error. -/
def Event.fails : Event → Bool
| .upload e => e = .readFails ∨ e = .writeFails
| .uploadEnds shutdown => !shutdown
| .download e => e.fails
| .downloadEnds flushed => !flushed

/- The returns that are left in a phase. -/
def left : StdioPhase → Nat
| .returned _ => 0
| _ => 1

theorem left_of_open
    {phase : StdioPhase}
    (hOpen : ¬ hasReturned phase = true) :
    left phase = 1 := by
  cases phase with
  | returned result => exact absurd rfl hOpen
  | _ => rfl

/- The steps that the download has left at most. -/
def downloadWork
    (p : Stdio) : Nat :=
  p.download.work + left p.phase

/-
  Once the remote end has closed the stream, nothing makes
  the work of the download larger.
-/
theorem step_downloadWork
    {e : Event}
    (hClosed : p.download.sourceOpen = false)
    (hStep : p.step e = some q) :
    q.download.sourceOpen = false ∧
      (if e.downloads then 1 else 0) + q.downloadWork ≤
        p.downloadWork := by
  cases e with
  | upload e =>
      simp only [step, uploadStep] at hStep
      split at hStep <;> [skip; cases hStep]
      rcases Option.map_eq_some_iff.mp hStep with
        ⟨upload, _, rfl⟩
      refine ⟨hClosed, ?_⟩
      by_cases hFailed : e = .writeFails
      · simp [Event.downloads, downloadWork, hFailed, left]
      · simp [Event.downloads, downloadWork, hFailed]
  | uploadEnds shutdown =>
      simp only [step] at hStep
      split at hStep <;> [rename_i hEnds; cases hStep]
      cases hStep
      simp only [Event.downloads, downloadWork, hEnds.1,
        endUpload]
      split <;> [exact ⟨hClosed, by simp [left]⟩; skip]
      split <;> exact ⟨hClosed, by simp [left]⟩
  | download e =>
      simp only [step, downloadStep] at hStep
      split at hStep <;> [cases hStep; skip]
      rcases Option.map_eq_some_iff.mp hStep with
        ⟨download, hPump, rfl⟩
      refine ⟨Pump.step_sourceClosed hPump hClosed, ?_⟩
      cases hOwn : e.own with
      | true =>
          have hLess := Pump.step_work hPump hOwn
          simp only [Event.downloads, downloadWork, hOwn,
            if_true]
          omega
      | false =>
          rw [Pump.step_foreign_none hClosed hOwn] at hPump
          cases hPump
  | downloadEnds flushed =>
      simp only [step] at hStep
      split at hStep <;> [cases hStep; rename_i hOpen]
      have hLeft := left_of_open hOpen
      split at hStep
      · cases hStep
        refine ⟨hClosed, ?_⟩
        simp only [Event.downloads, downloadWork, hLeft]
        simp [left, Nat.add_comm]
      · cases hStep
        refine ⟨hClosed, ?_⟩
        simp only [Event.downloads, downloadWork, hLeft]
        simp [left, Nat.add_comm]
      · cases hStep

/-
  Until `stdio` returns, its download can go on without an
  error.
-/
theorem Inv.download_enabled
    (hInv : p.Inv)
    (hClosed : p.download.sourceOpen = false)
    (hOpen : hasReturned p.phase = false) :
    ∃ e : Event, e.downloads = true ∧ e.fails = false ∧
      (p.step e).isSome = true := by
  cases hState : p.download.state with
  | running =>
      have hCapacity : 1 ≤ downloadBuffer := by decide
      rcases Pump.enabled hCapacity hState hClosed with
        ⟨e, hOwn, hFails, hSome⟩
      refine ⟨.download e, hOwn,
        Pump.fails_eq_false hFails, ?_⟩
      simpa [step, downloadStep, hOpen] using hSome
  | finished =>
      exact ⟨.downloadEnds true, rfl, rfl,
        by simp [step, hOpen, hState]⟩
  | failed =>
      exact ⟨.downloadEnds true, rfl, rfl,
        by simp [step, hOpen, hState]⟩
  | dropped => exact absurd hState hInv.undropped

/-
  A proxy ends with its stream, even where standard input
  stays open and the upload is stuck.

  Once the remote end has closed the stream, the download
  takes no more steps than it has work left, whatever happens
  in between, and it can always take one that is no error
  until `stdio` has returned.
-/
theorem remote_end_returns
    {es : List Event}
    (hReachable : machine.Reachable p)
    (hClosed : p.download.sourceOpen = false)
    (hExec : machine.exec p es = some q) :
    es.countP Event.downloads + q.downloadWork ≤
        p.downloadWork ∧
      (hasReturned q.phase = true ∨
        ∃ e : Event, e.downloads = true ∧ e.fails = false ∧
          (q.step e).isSome = true) := by
  induction es generalizing p with
  | nil =>
      simp only [Machine.exec, Option.some.injEq] at hExec
      subst hExec
      refine ⟨by simp, ?_⟩
      cases hOpen : hasReturned p.phase with
      | true => exact Or.inl rfl
      | false =>
          exact Or.inr ((reachable_inv
            hReachable).download_enabled hClosed hOpen)
  | cons e es ih =>
      rcases Machine.exec_cons.mp hExec with
        ⟨t, hStep, hRest⟩
      rcases step_downloadWork hClosed hStep with
        ⟨hStill, hLess⟩
      rcases ih (.step hReachable trivial hStep) hStill
          hRest with
        ⟨hBound, hEnd⟩
      refine ⟨?_, hEnd⟩
      rw [List.countP_cons]
      omega

theorem endingEvents_return :
    ∃ p q,
      machine.exec initial remoteEvents = some p ∧
        machine.exec p endingEvents = some q ∧
        endingEvents.countP Event.downloads +
            q.downloadWork ≤ p.downloadWork ∧
        (hasReturned q.phase = true ∨
          ∃ e : Event,
            e.downloads = true ∧ e.fails = false ∧
              (q.step e).isSome = true) := by
  have hClosed :
      (machine.exec initial remoteEvents).map
        (fun p => p.download.sourceOpen) = some false := by
    decide
  rcases Option.map_eq_some_iff.mp hClosed with
    ⟨p, hBefore, hSource⟩
  have hBoth :
      (machine.exec initial
        (remoteEvents ++ endingEvents)).isSome = true := by
    decide
  rcases Option.isSome_iff_exists.mp hBoth with ⟨q, hAll⟩
  rcases Machine.exec_append.mp hAll with ⟨r, hFirst, hRest⟩
  rw [hBefore] at hFirst
  cases hFirst
  refine ⟨p, q, hBefore, hRest,
    remote_end_returns ?_ hSource hRest⟩
  exact .exec .init (Machine.meetsAll_true _ _) hBefore

end Stdio

end DevTunnel

end Sshdt
