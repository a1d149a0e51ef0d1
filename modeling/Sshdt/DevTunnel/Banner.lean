import Sshdt.DevTunnel.Process

/-
  The identification line of the destination
  (`read_ssh_banner` and the end of `serve` in
  `src/devtunnel/client.rs`).

  Before a session answers its client, it reads the
  destination byte by byte up to the line that an SSH server
  identifies itself with. A server may send other lines
  first. The bytes that were read are kept and go to the
  client before anything else of the destination does, so
  the client gets the stream as the destination sent it.

  A stream is the list of bytes that reads deliver before it
  ends or fails.

  Key definitions include:
    * `isIdentification`
    * `readSshBanner`
    * `EndsInBanner`
    * `Delivery.step`
    * `Delivery.Inv`

  Key theorems include:
    * `endsInBanner_snoc`
    * `bannerLoop_spec`
    * `Delivery.step_inv`
    * `readSshBanner_lossless`
-/

------------------------------------------------------------
-- Reading The Banner
------------------------------------------------------------

namespace Sshdt

namespace DevTunnel

/- The bytes that are read at most. -/
def bannerLimit : Nat :=
  8192

/- The length of an identification line at most. -/
def identificationLimit : Nat :=
  255

/- `SSH-2.0-`. -/
def ssh2 : List UInt8 :=
  [0x53, 0x53, 0x48, 0x2d, 0x32, 0x2e, 0x30, 0x2d]

/- `SSH-1.99-`. -/
def ssh199 : List UInt8 :=
  [0x53, 0x53, 0x48, 0x2d, 0x31, 0x2e, 0x39, 0x39, 0x2d]

/- The check of a line, its newline included. -/
def isIdentification
    (line : List UInt8) : Bool :=
  (ssh2.isPrefixOf line || ssh199.isPrefixOf line) &&
    line.length ≤ identificationLimit

/- Why there is no banner. -/
inductive BannerError where
  | unexpectedEof
  | invalidData
  deriving DecidableEq, Repr

/- What `read_ssh_banner` gives, and what it leaves. -/
structure BannerRead where
  result : Except BannerError (List UInt8)
  unread : List UInt8

/-
  The loop of `read_ssh_banner`: how often it may still
  read, what it has read, where the current line starts in
  that, and what the stream will deliver.
-/
def bannerLoop :
    Nat → List UInt8 → Nat → List UInt8 → BannerRead
| 0, _, _, rest =>
    { result := .error .invalidData, unread := rest }
| _ + 1, _, _, [] =>
    { result := .error .unexpectedEof, unread := [] }
| n + 1, read, start, byte :: rest =>
    let read := read ++ [byte]
    if byte = newline then
      if isIdentification (read.drop start) then
        { result := .ok read, unread := rest }
      else
        bannerLoop n read read.length rest
    else
      bannerLoop n read start rest

/- `read_ssh_banner`. -/
def readSshBanner
    (stream : List UInt8) : BannerRead :=
  bannerLoop bannerLimit [] 0 stream

end DevTunnel

end Sshdt

------------------------------------------------------------
-- The Shortest Such Prefix
------------------------------------------------------------

namespace Sshdt

namespace DevTunnel

/- Bytes after which a line starts. -/
def StartsLine
    (before : List UInt8) : Prop :=
  before = [] ∨ ∃ earlier, before = earlier ++ [newline]

/-
  Bytes within the limit that end in a newline, with an
  identification as their last line.
-/
def EndsInBanner
    (bytes : List UInt8) : Prop :=
  bytes.length ≤ bannerLimit ∧
    ∃ before line,
      bytes = before ++ (line ++ [newline]) ∧
        StartsLine before ∧ newline ∉ line ∧
        isIdentification (line ++ [newline]) = true

/- The line after the last newline is determined. -/
theorem lastLine_unique
    {before before' line line' : List UInt8}
    (hSame : before ++ line = before' ++ line')
    (hStart : StartsLine before)
    (hStart' : StartsLine before')
    (hLine : newline ∉ line)
    (hLine' : newline ∉ line') :
    line = line' := by
  have hShorter :
      ∀ {before between line : List UInt8},
        StartsLine (before ++ between) →
        newline ∉ between ++ line →
        between = [] := by
    intro before between line hStart hLine
    rcases List.eq_nil_or_concat between with
      hNil | ⟨between, last, rfl⟩
    · exact hNil
    · rcases hStart with hNil | ⟨earlier, hEarlier⟩
      · simp at hNil
      · rw [List.concat_eq_append, ← List.append_assoc]
          at hEarlier
        have hLast := (List.append_inj' hEarlier rfl).2
        simp only [List.cons.injEq, and_true] at hLast
        subst hLast
        simp at hLine
  rcases List.append_eq_append_iff.mp hSame with
    ⟨between, rfl, rfl⟩ | ⟨between, rfl, rfl⟩
  · rw [hShorter hStart' hLine, List.nil_append]
  · rw [hShorter hStart hLine', List.nil_append]

/- One more byte completes a banner or does not. -/
theorem endsInBanner_snoc
    {before line : List UInt8}
    (hStart : StartsLine before)
    (hLine : newline ∉ line)
    (byte : UInt8) :
    EndsInBanner (before ++ line ++ [byte]) ↔
      (before ++ line).length < bannerLimit ∧
        byte = newline ∧
        isIdentification (line ++ [newline]) = true := by
  constructor
  · rintro ⟨hLength, before', line', hBytes, hStart', hLine',
      hBanner⟩
    rw [← List.append_assoc] at hBytes
    rcases List.append_inj' hBytes rfl with ⟨hSame, hByte⟩
    simp only [List.cons.injEq, and_true] at hByte
    have hLines :=
      lastLine_unique hSame hStart hStart' hLine hLine'
    subst hLines
    rw [List.length_append] at hLength
    exact ⟨Nat.lt_of_succ_le hLength, hByte, hBanner⟩
  · rintro ⟨hLength, rfl, hBanner⟩
    refine ⟨?_, before, line, List.append_assoc .., hStart,
      hLine, hBanner⟩
    rw [List.length_append]
    exact Nat.succ_le_of_lt hLength

/- No prefix of these bytes ends in a banner. -/
def NoBannerIn
    (bytes : List UInt8) : Prop :=
  ∀ q, q <+: bytes → ¬ EndsInBanner q

theorem noBannerIn_snoc
    {bytes : List UInt8}
    {byte : UInt8}
    (hNone : NoBannerIn bytes)
    (hLast : ¬ EndsInBanner (bytes ++ [byte])) :
    NoBannerIn (bytes ++ [byte]) := by
  intro q hPrefix
  rcases List.prefix_concat_iff.mp hPrefix with rfl | hShorter
  · exact hLast
  · exact hNone q hShorter

/- Then a banner within more bytes is longer. -/
theorem lt_length_of_noBannerIn
    {bytes rest q : List UInt8}
    (hNone : NoBannerIn bytes)
    (hPrefix : q <+: bytes ++ rest)
    (hBanner : EndsInBanner q) :
    bytes.length < q.length := by
  by_contra hShort
  have hWithin : q <+: bytes :=
    List.prefix_of_prefix_length_le hPrefix
      (List.prefix_append bytes rest) (Nat.not_lt.mp hShort)
  exact hNone q hWithin hBanner

/- The shortest prefix of a stream that ends in a banner. -/
def ShortestBanner
    (stream banner : List UInt8) : Prop :=
  banner <+: stream ∧ EndsInBanner banner ∧
    ∀ q, q <+: stream → EndsInBanner q →
      banner.length ≤ q.length

theorem ShortestBanner.unique
    {stream banner banner' : List UInt8}
    (hShortest : ShortestBanner stream banner)
    (hShortest' : ShortestBanner stream banner') :
    banner = banner' := by
  rcases hShortest with ⟨hPrefix, hBanner, hLeast⟩
  rcases hShortest' with ⟨hPrefix', hBanner', hLeast'⟩
  have hLength : banner.length = banner'.length :=
    Nat.le_antisymm (hLeast banner' hPrefix' hBanner')
      (hLeast' banner hPrefix hBanner)
  exact (List.prefix_of_prefix_length_le hPrefix hPrefix'
    (Nat.le_of_eq hLength)).eq_of_length hLength

/- What the loop has to find out. -/
def BannerRead.Right
    (stream : List UInt8)
    (read : BannerRead) : Prop :=
  match read.result with
  | .ok banner =>
      ShortestBanner stream banner ∧
        stream = banner ++ read.unread
  | .error _ => NoBannerIn stream

/-
  The loop, with `before` the lines that are over and `line`
  what was read of the current one. No prefix of what was
  read ends in a banner.
-/
theorem bannerLoop_spec
    {n : Nat}
    {before line : List UInt8}
    (hStart : StartsLine before)
    (hLine : newline ∉ line)
    (hNone : NoBannerIn (before ++ line))
    (hCount : (before ++ line).length + n = bannerLimit)
    (rest : List UInt8) :
    (bannerLoop n (before ++ line) before.length rest).Right
      (before ++ line ++ rest) := by
  induction n generalizing before line rest with
  | zero =>
      intro q hPrefix hBanner
      have hLonger :=
        lt_length_of_noBannerIn hNone hPrefix hBanner
      have hWithin := hBanner.1
      omega
  | succ n ih =>
      cases rest with
      | nil =>
          rw [List.append_nil]
          exact hNone
      | cons byte rest =>
          have hStream :
              before ++ line ++ byte :: rest =
                before ++ line ++ [byte] ++ rest := by
            simp
          have hSnoc := endsInBanner_snoc hStart hLine byte
          rw [bannerLoop]
          by_cases hByte : byte = newline
          · subst hByte
            have hDrop :
                (before ++ line ++ [newline]).drop
                    before.length =
                  line ++ [newline] := by
              rw [List.append_assoc, List.drop_left]
            rw [if_pos rfl, hDrop]
            by_cases hId :
                isIdentification (line ++ [newline]) = true
            · rw [if_pos hId]
              have hBanner := hSnoc.mpr
                ⟨by omega, rfl, hId⟩
              refine ⟨⟨⟨rest, hStream.symm⟩, hBanner, ?_⟩,
                hStream⟩
              intro q hPrefix hOther
              have hLonger :=
                lt_length_of_noBannerIn hNone hPrefix hOther
              rw [List.length_append]
              exact hLonger
            · -- Another line: it is over, the next is empty.
              rw [if_neg hId]
              have hNext := noBannerIn_snoc hNone
                (fun hBanner => hId (hSnoc.mp hBanner).2.2)
              have hRest := @ih
                (before ++ line ++ [newline]) []
                (Or.inr ⟨before ++ line, rfl⟩) (by simp)
                (by rwa [List.append_nil])
                (by simp at hCount ⊢; omega) rest
              rw [List.append_nil] at hRest
              rw [hStream]
              exact hRest
          · rw [if_neg hByte]
            have hNext := noBannerIn_snoc hNone
              (fun hBanner => hByte (hSnoc.mp hBanner).2.1)
            have hRest := @ih before (line ++ [byte]) hStart
              (by simp [hLine, Ne.symm hByte])
              (by rwa [← List.append_assoc])
              (by simp at hCount ⊢; omega) rest
            rw [← List.append_assoc] at hRest
            rw [hStream]
            exact hRest

theorem readSshBanner_right
    (stream : List UInt8) :
    (readSshBanner stream).Right stream := by
  refine @bannerLoop_spec bannerLimit [] [] (Or.inl rfl)
    (by simp) ?_ (by simp) stream
  intro q hPrefix
  rw [List.append_nil, List.prefix_nil] at hPrefix
  subst hPrefix
  rintro ⟨_, before, line, hBytes, _⟩
  simp at hBytes

end DevTunnel

end Sshdt

------------------------------------------------------------
-- Delivering The Stream
------------------------------------------------------------

namespace Sshdt

namespace DevTunnel

/-
  How far `serve` is with the destination: it opens
  connections until one has a banner, writes what it read to
  the client, and copies the rest.
-/
inductive DeliveryPhase where
  | opening
  | writing
  | copying
  | ended
  deriving DecidableEq, Repr

/-
  One session of `serve`, towards its client. `source` is all
  that the connection in use will deliver, `unread` what is
  left of it, `pending` what was read and not written, and
  `sent` what the client got after the answer.
-/
structure Delivery where
  phase : DeliveryPhase
  source : List UInt8
  unread : List UInt8
  pending : List UInt8
  sent : List UInt8
  deriving DecidableEq, Repr

/- The awaits of `serve` and of the copying. -/
inductive DeliveryStep where
  | attempt (source : List UInt8) (current : Bool)
  | write (n : Nat)
  | copy
  | read (n : Nat)
  | stop
  deriving DecidableEq, Repr

namespace Delivery

/- Before the first connection. -/
def opened : Delivery where
  phase := .opening
  source := []
  unread := []
  pending := []
  sent := []

/-
  A connection to the destination. Without a banner, or when
  the forwarding is of another generation by then, the
  connection is dropped and a new one is opened.
-/
def attempt
    (s : Delivery)
    (source : List UInt8)
    (current : Bool) : Delivery :=
  match (readSshBanner source).result with
  | .error _ => s
  | .ok banner =>
      if current then
        { phase := .writing
          source
          unread := (readSshBanner source).unread
          pending := banner
          sent := [] }
      else
        s

/- Some of the pending bytes are written. -/
def write
    (s : Delivery)
    (n : Nat) : Option Delivery :=
  if 1 ≤ n ∧ n ≤ s.pending.length then
    some { s with
      pending := s.pending.drop n
      sent := s.sent ++ s.pending.take n }
  else
    none

/- The copying takes more bytes of the destination. -/
def read
    (s : Delivery)
    (n : Nat) : Option Delivery :=
  if 1 ≤ n ∧ n ≤ s.unread.length then
    some { s with
      unread := s.unread.drop n
      pending := s.pending ++ s.unread.take n }
  else
    none

/-
  The steps of a session. `stop` is any end of it: a failed
  write, the end of either stream or a change of the
  forwarding.
-/
def step
    (s : Delivery) : DeliveryStep → Option Delivery
| .attempt source current =>
    if s.phase = .opening then
      some (s.attempt source current)
    else
      none
| .write n =>
    if s.phase = .writing ∨ s.phase = .copying then
      s.write n
    else
      none
| .copy =>
    if s.phase = .writing ∧ s.pending = [] then
      some { s with phase := .copying }
    else
      none
| .read n =>
    if s.phase = .copying then
      s.read n
    else
      none
| .stop =>
    if s.phase = .ended then
      none
    else
      some { s with phase := .ended }

/- The sessions of `serve`. -/
def machine : Machine Delivery DeliveryStep where
  init := opened
  step := step

/- Every byte of the source is in one place, in order. -/
structure Inv
    (s : Delivery) : Prop where
  order : s.sent ++ s.pending ++ s.unread = s.source
  banner :
    s.phase = .writing ∨ s.phase = .copying →
      ∃ banner unread,
        readSshBanner s.source =
            { result := .ok banner, unread } ∧
          (s.phase = .writing →
            s.sent ++ s.pending = banner) ∧
          (s.phase = .copying →
            banner <+: s.sent)

theorem attempt_inv
    {s : Delivery}
    (hInv : s.Inv)
    (source : List UInt8)
    (current : Bool) :
    (s.attempt source current).Inv := by
  have hRight := readSshBanner_right source
  unfold attempt
  cases hResult : (readSshBanner source).result with
  | error e => exact hInv
  | ok banner =>
      rw [BannerRead.Right, hResult] at hRight
      cases current with
      | false => exact hInv
      | true =>
          have hRead :
              readSshBanner source =
                { result := .ok banner
                  unread := (readSshBanner source).unread } := by
            rw [← hResult]
          refine ⟨hRight.2.symm, fun _ => ⟨banner, _, hRead,
            fun _ => rfl, fun hPhase => ?_⟩⟩
          cases hPhase

theorem write_inv
    {s t : Delivery}
    {n : Nat}
    (hInv : s.Inv)
    (hWrite : s.write n = some t) :
    t.Inv := by
  unfold write at hWrite
  split at hWrite <;> [skip; cases hWrite]
  cases hWrite
  have hMoved :
      s.sent ++ s.pending.take n ++ s.pending.drop n =
        s.sent ++ s.pending := by
    rw [List.append_assoc, List.take_append_drop]
  refine ⟨?_, ?_⟩
  · rw [← hInv.order]
    simp only
    rw [hMoved]
  · intro hPhase
    rcases hInv.banner hPhase with
      ⟨banner, unread, hRead, hWriting, hCopying⟩
    refine ⟨banner, unread, hRead, ?_, ?_⟩
    · intro hPhase
      simp only
      rw [hMoved]
      exact hWriting hPhase
    · intro hPhase
      exact (hCopying hPhase).trans (List.prefix_append ..)

theorem read_inv
    {s t : Delivery}
    {n : Nat}
    (hInv : s.Inv)
    (hPhase : s.phase = .copying)
    (hRead : s.read n = some t) :
    t.Inv := by
  unfold read at hRead
  split at hRead <;> [skip; cases hRead]
  cases hRead
  rcases hInv.banner (Or.inr hPhase) with
    ⟨banner, unread, hBanner, _, hCopying⟩
  refine ⟨?_, fun _ => ⟨banner, unread, hBanner, ?_, ?_⟩⟩
  · rw [← hInv.order]
    simp
  · intro hWriting
    rw [hPhase] at hWriting
    cases hWriting
  · exact hCopying

/- A step keeps the bytes in order. -/
theorem step_inv
    {s t : Delivery}
    {e : DeliveryStep}
    (hInv : s.Inv)
    (hStep : s.step e = some t) :
    t.Inv := by
  cases e with
  | attempt source current =>
      simp only [step] at hStep
      split at hStep <;> [skip; cases hStep]
      cases hStep
      exact attempt_inv hInv source current
  | write n =>
      simp only [step] at hStep
      split at hStep <;> [skip; cases hStep]
      exact write_inv hInv hStep
  | copy =>
      simp only [step] at hStep
      split at hStep <;> [rename_i hPhase; cases hStep]
      cases hStep
      -- The banner is written when nothing is pending.
      rcases hInv.banner (Or.inl hPhase.1) with
        ⟨banner, unread, hBanner, hWriting, _⟩
      refine ⟨hInv.order, fun _ => ⟨banner, unread, hBanner,
        ?_, ?_⟩⟩
      · intro hOther
        cases hOther
      · intro _
        have hAll := hWriting hPhase.1
        rw [hPhase.2, List.append_nil] at hAll
        rw [hAll]
  | read n =>
      simp only [step] at hStep
      split at hStep <;> [rename_i hPhase; cases hStep]
      exact read_inv hInv hPhase hStep
  | stop =>
      simp only [step] at hStep
      split at hStep <;> [cases hStep; skip]
      cases hStep
      refine ⟨hInv.order, ?_⟩
      rintro (hPhase | hPhase) <;> cases hPhase

theorem reachable_inv
    {s : Delivery}
    (hReachable : machine.Reachable s) :
    s.Inv := by
  refine hReachable.invariant ?_
    (fun _ _ _ hInv _ hStep => step_inv hInv hStep)
  refine ⟨rfl, ?_⟩
  rintro (hPhase | hPhase) <;> cases hPhase

/- What the client got is the banner, then what follows it. -/
theorem Inv.relayed
    {s : Delivery}
    (hInv : s.Inv)
    (hPhase : s.phase = .copying) :
    ∃ banner unread relayed,
      readSshBanner s.source =
          { result := .ok banner, unread } ∧
        s.sent = banner ++ relayed ∧ relayed <+: unread := by
  rcases hInv.banner (Or.inr hPhase) with
    ⟨banner, unread, hBanner, _, hCopying⟩
  rcases hCopying hPhase with ⟨relayed, hSent⟩
  refine ⟨banner, unread, relayed, hBanner, hSent.symm, ?_⟩
  have hRight := readSshBanner_right s.source
  rw [hBanner] at hRight
  have hAll := hInv.order
  rw [← hSent, hRight.2] at hAll
  simp only [List.append_assoc, List.append_cancel_left_eq]
    at hAll
  exact ⟨s.pending ++ s.unread, hAll⟩

end Delivery

end DevTunnel

end Sshdt

------------------------------------------------------------
-- Nothing Lost
------------------------------------------------------------

namespace Sshdt

namespace DevTunnel

/-
  `read_ssh_banner` returns the shortest prefix of the stream
  that ends in a banner and leaves the rest, and fails on a
  stream that has none. In every state of a session, what
  the client got is a prefix of what its destination sent:
  while the bytes are copied, the banner and then the first
  of the bytes after it.
-/
theorem readSshBanner_lossless :
    (∀ stream banner unread,
      readSshBanner stream =
          { result := .ok banner, unread } ↔
        ShortestBanner stream banner ∧
          stream = banner ++ unread) ∧
    (∀ stream,
      (∃ e, (readSshBanner stream).result = .error e) ↔
        ∀ q, q <+: stream → ¬ EndsInBanner q) ∧
    ∀ s : Delivery, Delivery.machine.Reachable s →
      s.sent <+: s.source ∧
        (s.phase = .copying →
          ∃ banner unread relayed,
            readSshBanner s.source =
                { result := .ok banner, unread } ∧
              s.sent = banner ++ relayed ∧
              relayed <+: unread) := by
  refine ⟨?_, ?_, ?_⟩
  · intro stream banner unread
    have hRight := readSshBanner_right stream
    constructor
    · intro hRead
      rw [hRead] at hRight
      exact hRight
    · rintro ⟨hShortest, hStream⟩
      rcases hRead : readSshBanner stream with
        ⟨result, unread'⟩
      rw [hRead] at hRight
      cases result with
      | error e =>
          exact absurd hShortest.2.1
            (hRight banner hShortest.1)
      | ok banner' =>
          have hBanner := hShortest.unique hRight.1
          subst hBanner
          have hUnread : unread = unread' := by
            have hBoth := hRight.2
            rw [hStream] at hBoth
            simpa using hBoth
          rw [hUnread]
  · intro stream
    have hRight := readSshBanner_right stream
    unfold BannerRead.Right at hRight
    cases hResult : (readSshBanner stream).result with
    | error e =>
        rw [hResult] at hRight
        exact ⟨fun _ => hRight, fun _ => ⟨e, rfl⟩⟩
    | ok banner =>
        rw [hResult] at hRight
        constructor
        · rintro ⟨e, hError⟩
          cases hError
        · intro hNone
          exact absurd hRight.1.2.1 (hNone banner hRight.1.1)
  · intro s hReachable
    have hInv := Delivery.reachable_inv hReachable
    refine ⟨?_, hInv.relayed⟩
    rw [← hInv.order, List.append_assoc]
    exact List.prefix_append ..

/- A line, an identification and a byte after it. -/
def noticedStream : List UInt8 :=
  [0x68, 0x69, 0x0a] ++ ssh2 ++ [0x78, 0x0a, 0x61]

/-
  A connection without a banner, then one whose bytes are
  delivered in three writes.
-/
def noticedSteps : List DeliveryStep :=
  [.attempt [0x68, 0x0a] true, .attempt noticedStream true,
    .write 5, .write 8, .copy, .read 1, .write 1]

theorem noticedSteps_run :
    (Delivery.machine.exec Delivery.machine.init
      noticedSteps).isSome = true := by
  decide +kernel

theorem noticedStream_lossless :
    (Delivery.machine.final noticedSteps
        noticedSteps_run).sent = noticedStream ∧
      (Delivery.machine.final noticedSteps
          noticedSteps_run).sent <+:
        (Delivery.machine.final noticedSteps
          noticedSteps_run).source :=
  ⟨by decide +kernel,
    (readSshBanner_lossless.2.2 _
      (Machine.reachable_final noticedSteps
        noticedSteps_run)).1⟩

end DevTunnel

end Sshdt
