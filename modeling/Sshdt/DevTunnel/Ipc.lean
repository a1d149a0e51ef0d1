import Sshdt.Lib.Segments
import Sshdt.DevTunnel.Gate

/-
  The frames between a client and its broker (`send` and
  `receive` in `src/devtunnel/ipc.rs`).

  A message is serialized, checked against the limit and
  written behind its length. Raw bytes of the SSH connection
  follow on the same socket, so the reader must stop where
  the frame ends, in whatever pieces the bytes arrive.
  Serialization is `serde_json`, which stands here as two
  functions.

  Key definitions include:
    * `Ipc.send`
    * `Ipc.receive`

  Key theorems include:
    * `Ipc.receive_eq_frame`
    * `Ipc.receive_tooLarge`
    * `Ipc.send_receive`
-/

------------------------------------------------------------
-- Sending And Receiving
------------------------------------------------------------

namespace Sshdt

namespace DevTunnel

namespace Ipc

/- The errors of the two functions. -/
inductive Error where
  | notSerialized
  | tooLarge
  | unexpectedEof
  | invalidMessage
  deriving DecidableEq, Repr

/- How `send` ends, and what it has written. -/
structure Sent where
  result : Except Error Unit
  written : List UInt8

/- How `receive` ends, and what it has not read. -/
structure Received (α : Type) where
  result : Except Error α
  unread : List (Segment UInt8)

variable {α : Type}

/- `send`, on a socket whose writes succeed. -/
def send
    (toVec : α → Option (List UInt8))
    (message : α) : Sent :=
  match toVec message with
  | none =>
      { result := .error .notSerialized, written := [] }
  | some bytes =>
      if bytes.length ≤ ipcLimit then
        { result := .ok ()
          written := Frame.header bytes.length ++ bytes }
      else
        { result := .error .tooLarge, written := [] }

/- `AsyncReadExt::read_u32`, on four bytes. -/
def lengthOf : List UInt8 → Nat
| [a, b, c, d] => Frame.readU32 a b c d
| _ => 0

/- `receive`. A read that fails has used up the stream. -/
def receive
    (fromSlice : List UInt8 → Option α)
    (segments : List (Segment UInt8)) : Received α :=
  match Segment.readExact 4 segments with
  | none =>
      { result := .error .unexpectedEof, unread := [] }
  | some (header, segments) =>
      if ipcLimit < lengthOf header then
        { result := .error .tooLarge, unread := segments }
      else
        match Segment.readExact (lengthOf header) segments with
        | none =>
            { result := .error .unexpectedEof, unread := [] }
        | some (body, segments) =>
            match fromSlice body with
            | none =>
                { result := .error .invalidMessage
                  unread := segments }
            | some message =>
                { result := .ok message, unread := segments }

end Ipc

end DevTunnel

end Sshdt

------------------------------------------------------------
-- The Same Frame On Both Sides
------------------------------------------------------------

namespace Sshdt

namespace DevTunnel

namespace Ipc

variable {α : Type}

/- The four bytes of the length come first. -/
theorem readExact_header
    {segments : List (Segment UInt8)}
    {a b c d : UInt8}
    {rest : List UInt8}
    (hStream :
      Segment.stream segments = a :: b :: c :: d :: rest) :
    ∃ unread,
      Segment.readExact 4 segments =
          some ([a, b, c, d], unread) ∧
        Segment.stream unread = rest := by
  have hEnough : 4 ≤ (Segment.stream segments).length := by
    rw [hStream]
    simp
  rcases Segment.readExact_eq_take hEnough with
    ⟨unread, hRead, hUnread⟩
  rw [hStream] at hRead hUnread
  exact ⟨unread, hRead, hUnread⟩

/- A length above the limit: the body is not looked at. -/
theorem receive_tooLarge
    (fromSlice : List UInt8 → Option α)
    {segments : List (Segment UInt8)}
    {a b c d : UInt8}
    {rest : List UInt8}
    (hStream :
      Segment.stream segments = a :: b :: c :: d :: rest)
    (hLarge : ipcLimit < Frame.readU32 a b c d) :
    (receive fromSlice segments).result =
        .error .tooLarge ∧
      Segment.stream (receive fromSlice segments).unread =
        rest := by
  rcases readExact_header hStream with
    ⟨unread, hRead, hUnread⟩
  have hReceive :
      receive fromSlice segments =
        { result := .error .tooLarge, unread } := by
    have hLength : ipcLimit < lengthOf [a, b, c, d] := hLarge
    simp only [receive, hRead]
    rw [if_pos hLength]
  rw [hReceive]
  exact ⟨rfl, hUnread⟩

/-
  `receive` reads from the pieces what a reader of the whole
  stream would, and leaves as much.
-/
theorem receive_eq_frame
    (fromSlice : List UInt8 → Option α)
    (segments : List (Segment UInt8))
    (message : α)
    (rest : List UInt8)
    (hFrame :
      Frame.receive ipcLimit fromSlice
          (Segment.stream segments) =
        .message message rest) :
    (receive fromSlice segments).result = .ok message ∧
      Segment.stream (receive fromSlice segments).unread =
        rest := by
  unfold Frame.receive at hFrame
  split at hFrame <;> [rename_i a b c d tail hStream;
    cases hFrame]
  dsimp only at hFrame
  split at hFrame <;> [cases hFrame; rename_i hWithin]
  split at hFrame <;> [cases hFrame; rename_i hComplete]
  split at hFrame <;> [rename_i value hDecode; cases hFrame]
  cases hFrame
  rcases readExact_header hStream with
    ⟨unread, hHeader, hUnread⟩
  have hEnough :
      Frame.readU32 a b c d ≤
        (Segment.stream unread).length := by
    rw [hUnread]
    exact Nat.not_lt.mp hComplete
  rcases Segment.readExact_eq_take hEnough with
    ⟨left, hBody, hLeft⟩
  rw [hUnread] at hBody hLeft
  have hReceive :
      receive fromSlice segments =
        { result := .ok message, unread := left } := by
    have hLength : ¬ ipcLimit < lengthOf [a, b, c, d] :=
      hWithin
    have hLengthBody :
        Segment.readExact (lengthOf [a, b, c, d]) unread =
          some (tail.take (Frame.readU32 a b c d), left) :=
      hBody
    simp only [receive, hHeader]
    rw [if_neg hLength, hLengthBody]
    simp only [hDecode]
  rw [hReceive]
  exact ⟨rfl, hLeft⟩

/- `send` of a message within the limit. -/
theorem send_within
    {toVec : α → Option (List UInt8)}
    {message : α}
    {bytes : List UInt8}
    (hBytes : toVec message = some bytes)
    (hLength : bytes.length ≤ ipcLimit) :
    send toVec message =
      { result := .ok (), written := Frame.encode bytes } := by
  unfold send
  rw [hBytes]
  simp only
  rw [if_pos hLength, Frame.encode]

/-
  A message within the limit is sent, and received from the
  bytes in any pieces with what follows left on the socket.
  Any other message is not sent at all. A length above the
  limit ends `receive` before the body.
-/
theorem send_receive
    (toVec : α → Option (List UInt8))
    (fromSlice : List UInt8 → Option α)
    (message : α)
    (hSerde :
      ∀ bytes, toVec message = some bytes →
        fromSlice bytes = some message)
    (following : List UInt8) :
    (∀ bytes, toVec message = some bytes →
      bytes.length ≤ ipcLimit →
      (send toVec message).result = .ok () ∧
        ∀ segments,
          Segment.stream segments =
              (send toVec message).written ++ following →
          (receive fromSlice segments).result = .ok message ∧
            Segment.stream
                (receive fromSlice segments).unread =
              following) ∧
    ((¬ ∃ bytes, toVec message = some bytes ∧
        bytes.length ≤ ipcLimit) →
      (∃ e, (send toVec message).result = .error e) ∧
        (send toVec message).written = []) ∧
    ∀ segments a b c d body,
      Segment.stream segments = a :: b :: c :: d :: body →
      ipcLimit < Frame.readU32 a b c d →
      (∃ e, (receive fromSlice segments).result = .error e) ∧
        Segment.stream (receive fromSlice segments).unread =
          body := by
  refine ⟨?_, ?_, ?_⟩
  · intro bytes hBytes hLength
    rw [send_within hBytes hLength]
    refine ⟨rfl, ?_⟩
    intro segments hStream
    apply receive_eq_frame
    rw [Frame.receive_message_iff (by decide)]
    exact ⟨bytes, hStream, hLength, hSerde bytes hBytes⟩
  · intro hNone
    unfold send
    cases hBytes : toVec message with
    | none => exact ⟨⟨_, rfl⟩, rfl⟩
    | some bytes =>
        have hLong : ¬ bytes.length ≤ ipcLimit :=
          fun hLength => hNone ⟨bytes, hBytes, hLength⟩
        simp only
        rw [if_neg hLong]
        exact ⟨⟨_, rfl⟩, rfl⟩
  · intro segments a b c d body hStream hLarge
    rcases receive_tooLarge fromSlice hStream hLarge with
      ⟨hResult, hUnread⟩
    exact ⟨⟨_, hResult⟩, hUnread⟩

/- A writer of the one request that `sampleReader` knows. -/
def sampleWriter
    (request : Request) : Option (List UInt8) :=
  if request = Gate.sampleRequest then
    some Gate.sampleBody
  else
    none

/- The frame of the request and two bytes, in three pieces. -/
def samplePieces : List (Segment UInt8) :=
  [⟨[0], by decide⟩,
    ⟨[0, 0, UInt8.ofNat Gate.sampleBody.length], by decide⟩,
    ⟨Gate.sampleBody ++ [0x53, 0x53], by simp⟩]

theorem sampleRequest_received :
    (receive Gate.sampleReader samplePieces).result =
        .ok Gate.sampleRequest ∧
      Segment.stream
          (receive Gate.sampleReader samplePieces).unread =
        [0x53, 0x53] := by
  have hWritten :
      sampleWriter Gate.sampleRequest =
        some Gate.sampleBody :=
    if_pos rfl
  have hSerde :
      ∀ bytes,
        sampleWriter Gate.sampleRequest = some bytes →
          Gate.sampleReader bytes =
            some Gate.sampleRequest := by
    intro bytes hBytes
    rw [hWritten] at hBytes
    cases hBytes
    exact if_pos rfl
  refine ((send_receive sampleWriter Gate.sampleReader
    Gate.sampleRequest hSerde [0x53, 0x53]).1
    Gate.sampleBody hWritten (by decide +kernel)).2
    samplePieces ?_
  rw [send_within hWritten (by decide +kernel)]
  decide +kernel

end Ipc

end DevTunnel

end Sshdt
