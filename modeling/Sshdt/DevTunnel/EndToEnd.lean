import Sshdt.DevTunnel.Banner
import Sshdt.DevTunnel.Stdio
import Sshdt.Lib.Duplex

/-
  A proxied connection from end to end (`serve` and `stdio`
  in `src/devtunnel/client.rs`).

  The proxy copies between its standard streams and its
  stream to the tunnel manager, and the session of the
  manager copies between that stream and the destination.
  The manager has read a banner from the destination, which
  it writes to the proxy before it starts to copy. It ends a
  session when the copy ends, fails, or is dropped because
  the connector has changed; then both of its streams are
  closed.

  A stream between the two is a queue of bytes without loss.

  Key definitions include:
    * `TunnelStream`
    * `TunnelStream.step`
    * `TunnelStream.Inv`
    * `TunnelStream.EndToEnd`

  Key theorems include:
    * `TunnelStream.step_inv`
    * `TunnelStream.tunnel_end_to_end`
-/

------------------------------------------------------------
-- Both Processes And Their Steps
------------------------------------------------------------

namespace Sshdt

namespace DevTunnel

/- The buffers of `tokio::io::copy_bidirectional`. -/
def duplexBuffer : Nat :=
  8192

/-
  The session of the manager, whose way there leads from the
  proxy to the destination, and the proxy. `banner` is what
  is left to write of the banner.
-/
structure TunnelStream where
  banner : List UInt8
  session : Duplex UInt8
  proxy : Stdio

namespace TunnelStream

/-
  What happens on the way. The destination sends and closes;
  the manager writes its banner and copies, or drops the
  session; the proxy and its standard streams go on.
-/
inductive Event where
  | destination (items : List UInt8)
  | destinationCloses
  | writeBanner (n : Nat)
  | session (step : DuplexStep UInt8)
  | proxy (event : Stdio.Event)

/-
  The session after its banner was read: the bytes behind it
  wait in the stream of the destination.
-/
def opened
    (banner unread : List UInt8) : TunnelStream where
  banner
  session :=
    { (Duplex.start : Duplex UInt8) with
      pump := Function.update (fun _ => Pump.start) .back
        { (Pump.start : Pump UInt8) with
          written := unread, waiting := unread } }
  proxy := .initial

/- The stream to the proxy gets bytes. -/
def feedProxy
    (p : Stdio)
    (items : List UInt8) : Stdio :=
  { p with download := p.download.feed items }

/- The stream to the proxy is closed. -/
def closeProxy
    (p : Stdio) : Stdio :=
  { p with download := p.download.endSource }

/- The stream to the session gets bytes, if it is there. -/
def feedSession
    (d : Duplex UInt8)
    (items : List UInt8) : Duplex UInt8 :=
  if d.state = .running then
    { d with
      pump := Function.update d.pump .there
        ((d.pump .there).feed items) }
  else
    d

/- The stream to the session is closed. -/
def closeSession
    (d : Duplex UInt8) : Duplex UInt8 :=
  { d with
    pump := Function.update d.pump .there
      (d.pump .there).endSource }

/- What a step of the session writes to the proxy. -/
def toProxy
    (d : Duplex UInt8) : DuplexStep UInt8 → List UInt8
| .pump .back e => (d.pump .back).output e
| _ => []

/- What a step of the proxy writes to the session. -/
def toSession
    (p : Stdio) : Stdio.Event → List UInt8
| .upload e => p.upload.output e
| _ => []

/- The session has closed its stream to the proxy. -/
def sessionClosed
    (d : Duplex UInt8) : Bool :=
  d.shut .back || d.state ≠ .running

/- The proxy has closed its stream to the session. -/
def proxyClosed
    (p : Stdio) : Bool :=
  p.shut || Stdio.hasReturned p.phase

/- The steps of the session that are not its streams' ends. -/
def isSessionStep : DuplexStep UInt8 → Bool
| .pump _ e => e.own
| _ => true

/- The events of the proxy that are not its stream's end. -/
def isProxyEvent : Stdio.Event → Bool
| .download e => e.own
| _ => true

/- One step on the way. -/
def step
    (t : TunnelStream) : Event → Option TunnelStream
| .destination items =>
    (t.session.step duplexBuffer
        (.pump .back (.put items))).map fun session =>
      { t with session }
| .destinationCloses =>
    (t.session.step duplexBuffer
        (.pump .back .close)).map fun session =>
      { t with session }
| .writeBanner n =>
    if t.session.state = .running ∧ 1 ≤ n ∧
        n ≤ t.banner.length then
      some
        { t with
          banner := t.banner.drop n
          proxy := feedProxy t.proxy (t.banner.take n) }
    else
      none
| .session e =>
    if isSessionStep e = true ∧
        (e.own = true → t.banner = []) then
      (t.session.step duplexBuffer e).map fun session =>
        let proxy := feedProxy t.proxy (toProxy t.session e)
        { t with
          session
          proxy :=
            if sessionClosed session then closeProxy proxy
            else proxy }
    else
      none
| .proxy e =>
    if isProxyEvent e = true then
      (t.proxy.step e).map fun proxy =>
        let session :=
          feedSession t.session (toSession t.proxy e)
        { t with
          proxy
          session :=
            if proxyClosed proxy then closeSession session
            else session }
    else
      none

/- The runs after a banner was read. -/
def machine
    (banner unread : List UInt8) :
    Machine TunnelStream Event where
  init := opened banner unread
  step := step

end TunnelStream

end DevTunnel

end Sshdt

------------------------------------------------------------
-- What A Step Of Either Side Does
------------------------------------------------------------

namespace Sshdt

namespace DevTunnel

namespace TunnelStream

variable {p q : Stdio}
variable {d f : Duplex UInt8}

/- The proxy writes what its upload delivers. -/
theorem step_upload
    {e : Stdio.Event}
    (hStep : p.step e = some q) :
    q.upload.delivered =
      p.upload.delivered ++ toSession p e := by
  cases e with
  | upload e =>
      simp only [Stdio.step, Stdio.uploadStep] at hStep
      split at hStep <;> [skip; cases hStep]
      rcases Option.map_eq_some_iff.mp hStep with
        ⟨upload, hRelay, rfl⟩
      exact ChunkRelay.step_delivered hRelay
  | uploadEnds shutdown =>
      simp only [Stdio.step] at hStep
      split at hStep <;> cases hStep
      simp only [toSession, List.append_nil, Stdio.endUpload]
      split <;> [rfl; split <;> rfl]
  | download e =>
      simp only [Stdio.step, Stdio.downloadStep] at hStep
      split at hStep <;> [cases hStep; skip]
      rcases Option.map_eq_some_iff.mp hStep with
        ⟨download, _, rfl⟩
      simp [toSession]
  | downloadEnds flushed =>
      simp only [Stdio.step] at hStep
      split at hStep <;> [cases hStep; skip]
      split at hStep <;> cases hStep <;> simp [toSession]

/- It writes only before it has closed its side. -/
theorem open_of_toSession
    {e : Stdio.Event}
    (hInv : p.Inv)
    (hStep : p.step e = some q)
    (hSome : toSession p e ≠ []) :
    proxyClosed p = false := by
  cases e with
  | upload e =>
      have hSide : e.side = .writer := by
        by_contra hNot
        exact hSome (ChunkRelay.output_not_writer hNot)
      simp only [Stdio.step, Stdio.uploadStep] at hStep
      split at hStep <;> [rename_i hMay; cases hStep]
      have hPhase := hMay.1 hSide
      have hFits := hInv.phase
      rw [Stdio.PhaseFits, hPhase] at hFits
      simp [proxyClosed, hFits.1, hPhase, Stdio.hasReturned]
  | _ => exact absurd rfl hSome

/- The proxy does not write into its own stream's end. -/
theorem step_download
    {e : Stdio.Event}
    (hEvent : isProxyEvent e = true)
    (hStep : p.step e = some q) :
    q.download.written = p.download.written ∧
      q.download.sourceOpen = p.download.sourceOpen := by
  cases e with
  | upload e =>
      simp only [Stdio.step, Stdio.uploadStep] at hStep
      split at hStep <;> [skip; cases hStep]
      rcases Option.map_eq_some_iff.mp hStep with
        ⟨upload, _, rfl⟩
      exact ⟨rfl, rfl⟩
  | uploadEnds shutdown =>
      simp only [Stdio.step] at hStep
      split at hStep <;> cases hStep
      simp only [Stdio.endUpload]
      split <;> [exact ⟨rfl, rfl⟩; skip]
      split <;> exact ⟨rfl, rfl⟩
  | download e =>
      simp only [Stdio.step, Stdio.downloadStep] at hStep
      split at hStep <;> [cases hStep; skip]
      rcases Option.map_eq_some_iff.mp hStep with
        ⟨download, hPump, rfl⟩
      exact Pump.step_own_source hPump hEvent
  | downloadEnds flushed =>
      simp only [Stdio.step] at hStep
      split at hStep <;> [cases hStep; skip]
      split at hStep <;> cases hStep <;> exact ⟨rfl, rfl⟩

/- A proxy that has closed its side does not open it. -/
theorem proxyClosed_step
    {e : Stdio.Event}
    (hClosed : proxyClosed p = true)
    (hInv : p.Inv)
    (hStep : p.step e = some q) :
    proxyClosed q = true := by
  -- Only `uploadEnds` may change what the upload has shut.
  have hFits := hInv.phase
  have hNotRelaying : p.phase ≠ .relaying := by
    intro hPhase
    rw [Stdio.PhaseFits, hPhase] at hFits
    simp [proxyClosed, hFits.1, hPhase,
      Stdio.hasReturned] at hClosed
  cases e with
  | upload e =>
      simp only [Stdio.step, Stdio.uploadStep] at hStep
      split at hStep <;> [rename_i hMay; cases hStep]
      rcases Option.map_eq_some_iff.mp hStep with
        ⟨upload, _, rfl⟩
      have hFailed : e ≠ .writeFails := by
        rintro rfl
        exact hNotRelaying (hMay.1 rfl)
      simpa only [proxyClosed, if_neg hFailed] using hClosed
  | uploadEnds shutdown =>
      simp only [Stdio.step] at hStep
      split at hStep <;> [rename_i hEnds; cases hStep]
      exact absurd hEnds.1 hNotRelaying
  | download e =>
      simp only [Stdio.step, Stdio.downloadStep] at hStep
      split at hStep <;> [cases hStep; skip]
      rcases Option.map_eq_some_iff.mp hStep with
        ⟨download, _, rfl⟩
      exact hClosed
  | downloadEnds flushed =>
      simp only [Stdio.step] at hStep
      split at hStep <;> [cases hStep; skip]
      split at hStep <;> cases hStep <;>
        simp [proxyClosed, Stdio.hasReturned]

/- The session writes what its way back delivers. -/
theorem toProxy_eq
    (d : Duplex UInt8)
    (e : DuplexStep UInt8) :
    toProxy d e = d.output .back e := by
  cases e with
  | pump way e => cases way <;> rfl
  | _ => rfl

/- A session that has closed its side does not open it. -/
theorem sessionClosed_step
    {e : DuplexStep UInt8}
    (hClosed : sessionClosed d = true)
    (hStep : d.step duplexBuffer e = some f) :
    sessionClosed f = true := by
  rcases Duplex.step_ended hStep with ⟨hShut, hRunning⟩
  simp only [sessionClosed, Bool.or_eq_true,
    decide_eq_true_eq] at hClosed ⊢
  exact hClosed.imp (hShut .back) (fun h h' => h (hRunning h'))

@[simp]
theorem feedSession_state
    (d : Duplex UInt8)
    (items : List UInt8) :
    (feedSession d items).state = d.state := by
  unfold feedSession
  split <;> rfl

@[simp]
theorem feedSession_shut
    (d : Duplex UInt8)
    (items : List UInt8) :
    (feedSession d items).shut = d.shut := by
  unfold feedSession
  split <;> rfl

@[simp]
theorem feedSession_back
    (d : Duplex UInt8)
    (items : List UInt8) :
    (feedSession d items).pump .back = d.pump .back := by
  unfold feedSession
  split <;> simp

@[simp]
theorem feedSession_sourceOpen
    (d : Duplex UInt8)
    (items : List UInt8) :
    ((feedSession d items).pump .there).sourceOpen =
      (d.pump .there).sourceOpen := by
  unfold feedSession
  split
  · change (Function.update d.pump .there
      ((d.pump .there).feed items) .there).sourceOpen = _
    rw [Function.update_self, Pump.feed_sourceOpen]
  · rfl

theorem feedSession_inv
    (hInv : d.Inv)
    (items : List UInt8) :
    (feedSession d items).Inv := by
  unfold feedSession
  split
  · exact hInv.setPump
      (Pump.feed_inv (hInv.pump .there) items)
      (Pump.feed_state _ _)
  · exact hInv

/- A session that is there gets what is written to it. -/
theorem feedSession_written
    {items : List UInt8}
    (hRunning : d.state = .running)
    (hOpen :
      items ≠ [] → (d.pump .there).sourceOpen = true) :
    ((feedSession d items).pump .there).written =
      (d.pump .there).written ++ items := by
  rw [feedSession, if_pos hRunning]
  change (Function.update d.pump .there
    ((d.pump .there).feed items) .there).written = _
  rw [Function.update_self]
  by_cases hNone : items = []
  · simp [hNone]
  · exact Pump.feed_written (hOpen hNone) items

@[simp]
theorem closeSession_back
    (d : Duplex UInt8) :
    (closeSession d).pump .back = d.pump .back := by
  simp [closeSession]

@[simp]
theorem closeSession_there
    (d : Duplex UInt8) :
    (closeSession d).pump .there =
      (d.pump .there).endSource := by
  simp [closeSession]

theorem closeSession_inv
    (hInv : d.Inv) :
    (closeSession d).Inv :=
  hInv.setPump (Pump.endSource_inv (hInv.pump .there)) rfl

end TunnelStream

end DevTunnel

end Sshdt

------------------------------------------------------------
-- Invariant
------------------------------------------------------------

namespace Sshdt

namespace DevTunnel

namespace TunnelStream

variable {banner unread : List UInt8}
variable {t u : TunnelStream}

/-
  Each stream between the two holds what its writer has
  written, and is closed by its writer only. Nothing is
  copied before the whole banner was written.
-/
structure Inv
    (banner unread : List UInt8)
    (t : TunnelStream) : Prop where
  session : t.session.Inv
  proxy : t.proxy.Inv
  given :
    ∃ given,
      given ++ t.banner = banner ∧
        t.proxy.download.written =
          given ++ (t.session.pump .back).delivered
  untouched :
    t.banner ≠ [] →
      (t.session.pump .back).delivered = [] ∧
        t.session.shut .back = false
  down :
    t.proxy.download.sourceOpen = false →
      sessionClosed t.session = true
  up :
    (t.session.pump .there).sourceOpen = false →
      proxyClosed t.proxy = true
  sent :
    (t.session.pump .there).written <+:
      t.proxy.upload.delivered
  sentAll :
    t.session.state = .running ∨
        t.session.shut .there = true →
      (t.session.pump .there).written =
        t.proxy.upload.delivered
  unread : unread <+: (t.session.pump .back).written

theorem opened_inv
    (banner unread : List UInt8) :
    (opened banner unread).Inv banner unread := by
  have hBack :
      Pump.Inv
        { (Pump.start : Pump UInt8) with
          written := unread, waiting := unread } :=
    ⟨rfl, by simp [Pump.start], by simp [Pump.start]⟩
  exact
    { session := Duplex.start_inv.setPump hBack rfl
      proxy := Stdio.initial_inv
      given := ⟨[], rfl, rfl⟩
      untouched := fun _ => ⟨rfl, rfl⟩
      down := fun h => by cases h
      up := fun h => by cases h
      sent := List.prefix_refl _
      sentAll := fun _ => rfl
      unread := List.prefix_refl _ }

/- The destination sends, or closes its side. -/
theorem destination_inv
    {e : PumpStep UInt8}
    {session : Duplex UInt8}
    (hInv : t.Inv banner unread)
    (hForeign : e.own = false)
    (hStep :
      t.session.step duplexBuffer (.pump .back e) =
        some session) :
    Inv banner unread { t with session } := by
  have hSession := Duplex.step_inv hInv.session hStep
  rcases Duplex.step_foreign hForeign hStep with
    ⟨pump, hPump, rfl⟩
  have hDelivered := Pump.step_delivered hPump
  rw [Pump.output_foreign _ hForeign,
    List.append_nil] at hDelivered
  have hThere :
      Function.update t.session.pump .back pump .there =
        t.session.pump .there :=
    Function.update_of_ne (by simp) _ _
  refine
    { session := hSession, proxy := hInv.proxy
      given := ?_, untouched := ?_, down := hInv.down
      up := ?_, sent := ?_, sentAll := ?_, unread := ?_ }
  · rcases hInv.given with ⟨given, hBanner, hWritten⟩
    exact ⟨given, hBanner, by
      simpa [hDelivered] using hWritten⟩
  · simpa [hDelivered] using hInv.untouched
  · simpa [hThere] using hInv.up
  · simpa [hThere] using hInv.sent
  · simpa [hThere] using hInv.sentAll
  · change unread <+: (Function.update t.session.pump .back
      pump .back).written
    rw [Function.update_self, Pump.step_written hPump]
    exact hInv.unread.trans (List.prefix_append _ _)

/- A piece of the banner is written to the proxy. -/
theorem writeBanner_inv
    {n : Nat}
    (hInv : t.Inv banner unread)
    (hStep : t.step (.writeBanner n) = some u) :
    u.Inv banner unread := by
  simp only [step] at hStep
  split at hStep <;> [rename_i hMay; cases hStep]
  cases hStep
  have hLeft : t.banner ≠ [] := by
    intro hNil
    have hLength := hMay.2.2
    rw [hNil, List.length_nil] at hLength
    omega
  rcases hInv.untouched hLeft with ⟨hNone, hOpen⟩
  have hSource : t.proxy.download.sourceOpen = true := by
    by_contra hNot
    have hClosed := hInv.down ((Bool.not_eq_true _).mp hNot)
    simp [sessionClosed, hOpen, hMay.1] at hClosed
  rcases hInv.given with ⟨given, hBanner, hWritten⟩
  exact
    { session := hInv.session
      proxy := hInv.proxy.setDownload
        (Pump.feed_inv hInv.proxy.download _)
        (Pump.feed_state _ _)
      given := by
        refine ⟨given ++ t.banner.take n, ?_, ?_⟩
        · rw [List.append_assoc, List.take_append_drop]
          exact hBanner
        · change (t.proxy.download.feed _).written = _
          rw [Pump.feed_written hSource, hWritten, hNone]
          simp
      untouched := fun _ => ⟨hNone, hOpen⟩
      down := by
        simpa [feedProxy] using hInv.down
      up := hInv.up, sent := hInv.sent
      sentAll := hInv.sentAll, unread := hInv.unread }

/- The session copies, or is dropped. -/
theorem session_inv
    {e : DuplexStep UInt8}
    (hInv : t.Inv banner unread)
    (hStep : t.step (.session e) = some u) :
    u.Inv banner unread := by
  simp only [step] at hStep
  split at hStep <;> [rename_i hMay; cases hStep]
  rcases Option.map_eq_some_iff.mp hStep with
    ⟨session, hSession, rfl⟩
  have hSource := Duplex.step_source hSession (fun way e' h => by
    have hOwn := hMay.1
    rw [h] at hOwn
    exact hOwn)
  have hEnded := Duplex.step_ended hSession
  have hDelivered :=
    Duplex.step_delivered hSession .back
  -- The stream to the proxy has got what was delivered.
  have hFed :
      (feedProxy t.proxy
          (toProxy t.session e)).download.written =
        t.proxy.download.written ++
          t.session.output .back e := by
    rw [toProxy_eq]
    by_cases hNone : t.session.output .back e = []
    · simp [feedProxy, hNone]
    · rcases hInv.session.running_of_output hSession hNone
        with ⟨_, hRunning, hOpen⟩
      refine Pump.feed_written ?_ _
      by_contra hNot
      have hClosed :=
        hInv.down ((Bool.not_eq_true _).mp hNot)
      simp [sessionClosed, hOpen, hRunning] at hClosed
  have hProxy :
      (feedProxy t.proxy (toProxy t.session e)).Inv :=
    hInv.proxy.setDownload
      (Pump.feed_inv hInv.proxy.download _)
      (Pump.feed_state _ _)
  rcases hInv.given with ⟨given, hBanner, hWritten⟩
  refine
    { session := Duplex.step_inv hInv.session hSession
      proxy := ?_, given := ⟨given, hBanner, ?_⟩
      untouched := fun hLeft => ?_, down := fun hDown => ?_
      up := ?_, sent := ?_, sentAll := ?_, unread := ?_ }
  · change Stdio.Inv (if _ then _ else _)
    split
    · exact hProxy.setDownload
        (Pump.endSource_inv hProxy.download) rfl
    · exact hProxy
  · change Pump.written
      (Stdio.download (if _ then _ else _)) = _
    rw [hDelivered, ← List.append_assoc, ← hWritten, ← hFed]
    split <;> rfl
  · have hForeign : e.own = false := by
      by_contra hNot
      exact hLeft (hMay.2 (by simpa using hNot))
    rcases hInv.untouched hLeft with ⟨hNone, hOpen⟩
    cases e with
    | drop =>
        simp only [Duplex.step] at hSession
        split at hSession <;> cases hSession
        exact ⟨hNone, hOpen⟩
    | pump way e =>
        have hOwn := hMay.1
        rw [DuplexStep.own] at hForeign
        rw [isSessionStep, hForeign] at hOwn
        cases hOwn
    | _ => cases hForeign
  · by_contra hNot
    simp only [hNot] at hDown
    exact hNot (sessionClosed_step
      (hInv.down (by simpa [feedProxy] using hDown)) hSession)
  · rw [(hSource .there).2]
    intro hUp
    have hClosed := hInv.up hUp
    change proxyClosed (if _ then _ else _) = true
    split <;> exact hClosed
  · rw [(hSource .there).1]
    change _ <+: ChunkRelay.delivered
      (Stdio.upload (if _ then _ else _))
    split <;> exact hInv.sent
  · rw [(hSource .there).1]
    intro hGoing
    have hBefore :
        t.session.state = .running ∨
          t.session.shut .there = true :=
      hGoing.elim (fun hRunning => Or.inl (hEnded.2 hRunning))
        fun hShut => (Duplex.step_shut hSession hShut).symm
    change _ = ChunkRelay.delivered
      (Stdio.upload (if _ then _ else _))
    split <;> exact hInv.sentAll hBefore
  · rw [(hSource .back).1]
    exact hInv.unread

/- The session has the bytes that the proxy delivered. -/
theorem sent_step
    {e : Stdio.Event}
    {proxy : Stdio}
    (hInv : t.Inv banner unread)
    (hProxy : t.proxy.step e = some proxy)
    (hGoing :
      t.session.state = .running ∨
        t.session.shut .there = true) :
    ((feedSession t.session
        (toSession t.proxy e)).pump .there).written =
      proxy.upload.delivered := by
  have hOpen :
      toSession t.proxy e ≠ [] →
        (t.session.pump .there).sourceOpen = true := by
    intro hSome
    have hOpen := open_of_toSession hInv.proxy hProxy hSome
    by_contra hNot
    rw [hInv.up ((Bool.not_eq_true _).mp hNot)] at hOpen
    cases hOpen
  by_cases hRunning : t.session.state = .running
  · rw [feedSession_written hRunning hOpen,
      hInv.sentAll hGoing, step_upload hProxy]
  · -- The session is over, and has met the end before.
    have hShut := hGoing.resolve_left hRunning
    have hNone : toSession t.proxy e = [] := by
      by_contra hSome
      have hEnd := (hInv.session.halfClosed hShut).2
      rw [hOpen hSome] at hEnd
      cases hEnd
    rw [feedSession, if_neg hRunning, hInv.sentAll hGoing,
      step_upload hProxy, hNone, List.append_nil]

/- The proxy or what surrounds it goes on. -/
theorem proxy_inv
    {e : Stdio.Event}
    (hInv : t.Inv banner unread)
    (hStep : t.step (.proxy e) = some u) :
    u.Inv banner unread := by
  simp only [step] at hStep
  split at hStep <;> [rename_i hMay; cases hStep]
  rcases Option.map_eq_some_iff.mp hStep with
    ⟨proxy, hProxy, rfl⟩
  have hSource := step_download hMay hProxy
  have hSession :=
    feedSession_inv hInv.session (toSession t.proxy e)
  have hSent :
      ((feedSession t.session
          (toSession t.proxy e)).pump .there).written <+:
        proxy.upload.delivered := by
    by_cases hRunning : t.session.state = .running
    · rw [sent_step hInv hProxy (Or.inl hRunning)]
    · rw [feedSession, if_neg hRunning, step_upload hProxy]
      exact hInv.sent.trans (List.prefix_append _ _)
  rcases hInv.given with ⟨given, hBanner, hWritten⟩
  -- Whether the proxy has closed its side changes one field.
  split
  · rename_i hClosed
    exact
      { session := closeSession_inv hSession
        proxy := Stdio.step_inv hInv.proxy hProxy
        given := ⟨given, hBanner, by
          simpa [hSource.1] using hWritten⟩
        untouched := by
          simpa [closeSession] using hInv.untouched
        down := by
          simpa [hSource.2, sessionClosed,
            closeSession] using hInv.down
        up := fun _ => hClosed
        sent := by simpa [Pump.endSource] using hSent
        sentAll := fun hGoing => by
          have hSame := sent_step hInv hProxy
            (by simpa [closeSession] using hGoing)
          simpa [Pump.endSource] using hSame
        unread := by simpa using hInv.unread }
  · exact
      { session := hSession
        proxy := Stdio.step_inv hInv.proxy hProxy
        given := ⟨given, hBanner, by
          simpa [hSource.1] using hWritten⟩
        untouched := by simpa using hInv.untouched
        down := by
          simpa [hSource.2, sessionClosed] using hInv.down
        up := fun hUp => proxyClosed_step
          (hInv.up (by simpa using hUp)) hInv.proxy hProxy
        sent := hSent
        sentAll := fun hGoing =>
          sent_step hInv hProxy (by simpa using hGoing)
        unread := by simpa using hInv.unread }

/- Every step keeps the invariant. -/
theorem step_inv
    {e : Event}
    (hInv : t.Inv banner unread)
    (hStep : t.step e = some u) :
    u.Inv banner unread := by
  cases e with
  | destination items =>
      rcases Option.map_eq_some_iff.mp hStep with
        ⟨session, hSession, rfl⟩
      exact destination_inv hInv rfl hSession
  | destinationCloses =>
      rcases Option.map_eq_some_iff.mp hStep with
        ⟨session, hSession, rfl⟩
      exact destination_inv hInv rfl hSession
  | writeBanner n => exact writeBanner_inv hInv hStep
  | session e => exact session_inv hInv hStep
  | proxy e => exact proxy_inv hInv hStep

theorem reachable_inv
    (hReachable : (machine banner unread).Reachable t) :
    t.Inv banner unread :=
  hReachable.invariant (opened_inv banner unread)
    (fun _ _ _ hInv _ hStep => step_inv hInv hStep)

end TunnelStream

end DevTunnel

end Sshdt

------------------------------------------------------------
-- From End To End
------------------------------------------------------------

namespace Sshdt

namespace DevTunnel

namespace TunnelStream

variable {banner unread : List UInt8}
variable {t : TunnelStream}

/- All that the destination has sent. -/
def sent
    (banner : List UInt8)
    (t : TunnelStream) : List UInt8 :=
  banner ++ (t.session.pump .back).written

/-
  The destination sees the end of its input. A session that
  is over has dropped both of its streams.
-/
def DestinationEnds
    (t : TunnelStream) : Prop :=
  t.session.EndSeen (t.session.state ≠ .running) .there

/-
  The destination got all that the proxy has sent, which is
  all of standard input unless the proxy has returned.
-/
def DestinationComplete
    (t : TunnelStream) : Prop :=
  (t.session.pump .there).delivered =
      t.proxy.upload.delivered ∧
    (Stdio.hasReturned t.proxy.phase = false →
      t.proxy.upload.delivered = t.proxy.upload.written ∧
        t.proxy.upload.sourceOpen = false)

/-
  What the two ends get of each other. `source` is what the
  destination had sent when its banner was read.

  Standard output gets a first part of all that the
  destination sends, its first lines included, and the
  destination a first part of standard input. The
  destination sees the end of its input, by a shutdown or
  because the session dropped its stream, after it got all
  that the proxy has sent: all of standard input, unless the
  proxy has returned. A proxy that returned without an error
  has put out all that the destination sent until it closed
  its side. Both hold unless the copy of the session was cut
  short, and a shutdown comes from one that was not.
-/
structure EndToEnd
    (source banner : List UInt8)
    (t : TunnelStream) : Prop where
  source : source <+: t.sent banner
  output : t.proxy.download.delivered <+: t.sent banner
  input :
    (t.session.pump .there).delivered <+:
      t.proxy.upload.written
  halfClosed :
    t.session.shut .there = true → t.DestinationComplete
  destinationEnd :
    t.DestinationEnds →
      t.session.CutShort ∨ t.DestinationComplete
  complete :
    t.proxy.phase = .returned (.ok ()) →
      t.session.CutShort ∨
        t.proxy.download.delivered = t.sent banner ∧
          (t.session.pump .back).sourceOpen = false

/- The stream to the proxy holds a part of what was sent. -/
theorem Inv.written_prefix
    (hInv : t.Inv banner unread) :
    t.proxy.download.written <+: t.sent banner := by
  rcases hInv.given with ⟨given, hBanner, hWritten⟩
  rw [hWritten, TunnelStream.sent]
  by_cases hLeft : t.banner = []
  · rw [hLeft, List.append_nil] at hBanner
    rw [hBanner, List.prefix_append_right_inj]
    exact hInv.session.prefix_written .back
  · rw [(hInv.untouched hLeft).1, List.append_nil, ← hBanner,
      List.append_assoc]
    exact List.prefix_append _ _

/- A session that ended its way back has sent all of it. -/
theorem Inv.written_eq
    (hInv : t.Inv banner unread)
    (hShut : t.session.shut .back = true) :
    t.proxy.download.written = t.sent banner ∧
      (t.session.pump .back).sourceOpen = false := by
  have hAll := hInv.session.halfClosed hShut
  rcases hInv.given with ⟨given, hBanner, hWritten⟩
  have hNone : t.banner = [] := by
    by_contra hLeft
    rw [(hInv.untouched hLeft).2] at hShut
    cases hShut
  rw [hNone, List.append_nil] at hBanner
  exact ⟨by
    rw [hWritten, TunnelStream.sent, hBanner, hAll.1], hAll.2⟩

theorem Inv.complete
    (hInv : t.Inv banner unread)
    (hPhase : t.proxy.phase = .returned (.ok ())) :
    t.session.CutShort ∨
      t.proxy.download.delivered = t.sent banner ∧
        (t.session.pump .back).sourceOpen = false := by
  rcases hInv.proxy.faithful.success hPhase with
    ⟨hDelivered, hClosed⟩
  have hDown := hInv.down hClosed
  simp only [sessionClosed, Bool.or_eq_true,
    decide_eq_true_eq] at hDown
  have hShut :
      t.session.shut .back = true →
        t.proxy.download.delivered = t.sent banner ∧
          (t.session.pump .back).sourceOpen = false := by
    intro hShut
    rw [hDelivered]
    exact hInv.written_eq hShut
  cases hState : t.session.state with
  | running =>
      exact Or.inr (hShut (hDown.resolve_right
        (not_not_intro hState)))
  | finished =>
      exact Or.inr (hShut
        (hInv.session.finished hState .back))
  | failed => exact Or.inl (Or.inl hState)
  | dropped => exact Or.inl (Or.inr hState)

theorem Inv.halfClosed
    (hInv : t.Inv banner unread)
    (hShut : t.session.shut .there = true) :
    t.DestinationComplete := by
  rcases hInv.session.halfClosed hShut with ⟨hAll, hClosed⟩
  refine ⟨?_, fun hOpen => ?_⟩
  · rw [hAll, hInv.sentAll (Or.inr hShut)]
  · have hProxy := hInv.up hClosed
    rw [proxyClosed, hOpen, Bool.or_false] at hProxy
    exact hInv.proxy.faithful.shut hProxy

theorem Inv.destinationEnd
    (hInv : t.Inv banner unread)
    (hEnds : t.DestinationEnds) :
    t.session.CutShort ∨ t.DestinationComplete := by
  rcases hEnds with hShut | hOver
  · exact Or.inr (hInv.halfClosed hShut)
  · cases hState : t.session.state with
    | running => exact absurd hState hOver
    | finished =>
        exact Or.inr (hInv.halfClosed
          (hInv.session.finished hState .there))
    | failed => exact Or.inl (Or.inl hState)
    | dropped => exact Or.inl (Or.inr hState)

/-
  In every state of every run in which the session had read
  a banner, however both processes, their streams and the
  changes of the connector are interleaved.
-/
theorem tunnel_end_to_end
    {source : List UInt8}
    (hBanner :
      readSshBanner source =
        { result := .ok banner, unread })
    (hReachable : (machine banner unread).Reachable t) :
    t.EndToEnd source banner := by
  have hInv := reachable_inv hReachable
  have hSource : source = banner ++ unread := by
    have hRight := readSshBanner_right source
    rw [hBanner] at hRight
    exact hRight.2
  refine
    { source := ?_, output := ?_, input := ?_
      halfClosed := hInv.halfClosed
      destinationEnd := hInv.destinationEnd
      complete := hInv.complete }
  · rw [hSource, sent, List.prefix_append_right_inj]
    exact hInv.unread
  · exact hInv.proxy.faithful.output.trans
      hInv.written_prefix
  · exact ((hInv.session.prefix_written .there).trans hInv.sent).trans
      hInv.proxy.faithful.input

/- A line, an identification and one byte behind it. -/
def greetingSource : List UInt8 :=
  [0x68, 0x0a] ++ ssh2 ++ [0x78, 0x0a, 0x61]

/- The banner in two pieces, and a byte of standard input. -/
def greetingEvents : List Event :=
  [.writeBanner 5, .proxy (.upload (.put [1])),
    .proxy (.upload (.read 1)), .proxy (.upload .send),
    .writeBanner 7, .proxy (.download (.read 12)),
    .proxy (.download (.deliver 12)),
    .proxy (.upload .take), .proxy (.upload (.deliver 1)),
    .session (.pump .there (.read 1)),
    .session (.pump .there (.deliver 1))]

/- The destination sends a byte more and closes its side. -/
def farewellEvents : List Event :=
  [.session (.pump .back (.read 1)), .destination [0x62],
    .session (.pump .back (.deliver 1)),
    .session (.pump .back (.read 1)), .destinationCloses,
    .session (.pump .back (.deliver 1)),
    .session (.pump .back .eof),
    .session (.pump .back .finish),
    .session (.shutdown .back true),
    .proxy (.download (.read 2)),
    .proxy (.download (.deliver 2)),
    .proxy (.download .eof), .proxy (.download .finish),
    .proxy (.downloadEnds true)]

theorem greetingSource_banner :
    readSshBanner greetingSource =
      { result := .ok (greetingSource.take 12)
        unread := [0x61] } := by
  rfl

theorem farewellEvents_complete :
    ∃ t,
      (machine (greetingSource.take 12) [0x61]).exec
          (opened (greetingSource.take 12) [0x61])
          (greetingEvents ++ farewellEvents) = some t ∧
        t.proxy.phase = .returned (.ok ()) ∧
        t.proxy.download.delivered =
          greetingSource ++ [0x62] ∧
        t.EndToEnd greetingSource
          (greetingSource.take 12) := by
  have hState :
      ((machine (greetingSource.take 12) [0x61]).exec
          (opened (greetingSource.take 12) [0x61])
          (greetingEvents ++ farewellEvents)).map
        (fun t =>
          (t.proxy.phase, t.proxy.download.delivered)) =
          some (.returned (.ok ()),
            greetingSource ++ [0x62]) := by
    decide +kernel
  rcases Option.map_eq_some_iff.mp hState with
    ⟨t, hRun, hEq⟩
  refine ⟨t, hRun, (Prod.mk.inj hEq).1,
    (Prod.mk.inj hEq).2,
    tunnel_end_to_end greetingSource_banner ?_⟩
  exact .exec .init (Machine.meetsAll_true _ _) hRun

end TunnelStream

end DevTunnel

end Sshdt
