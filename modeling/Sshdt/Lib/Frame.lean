import Mathlib.Data.List.Basic

/-
  Length-prefixed frames on a byte stream: four bytes with
  the length of the body, most significant first, and the
  body.

  The reader sees the bytes that have arrived so far. It
  refuses a length above its limit before it looks at the
  body, and leaves what follows the frame on the stream.

  Key definitions include:
    * `Frame.encode`
    * `Frame.receive`

  Key theorems include:
    * `Frame.receive_message_iff`
-/

namespace Frame

------------------------------------------------------------
-- Headers
------------------------------------------------------------

/- `AsyncReadExt::read_u32` on its four bytes. -/
def readU32
    (a b c d : UInt8) : Nat :=
  ((a.toNat * 256 + b.toNat) * 256 + c.toNat) * 256 + d.toNat

/- `AsyncWriteExt::write_u32`. -/
def header
    (length : Nat) : List UInt8 :=
  [UInt8.ofNat (length / 16777216),
    UInt8.ofNat (length / 65536),
    UInt8.ofNat (length / 256), UInt8.ofNat length]

/- A frame with the given body. -/
def encode
    (body : List UInt8) : List UInt8 :=
  header body.length ++ body

/- The four bytes of a length read back as that length. -/
theorem readU32_header
    {length : Nat}
    (hLength : length < 4294967296) :
    readU32 (UInt8.ofNat (length / 16777216))
        (UInt8.ofNat (length / 65536))
        (UInt8.ofNat (length / 256)) (UInt8.ofNat length) =
      length := by
  simp only [readU32, UInt8.toNat_ofNat']
  omega

/- A length is spelled in one way. -/
theorem header_readU32
    (a b c d : UInt8) :
    header (readU32 a b c d) = [a, b, c, d] := by
  have hA := a.toNat_lt
  have hB := b.toNat_lt
  have hC := c.toNat_lt
  have hD := d.toNat_lt
  simp only [header, List.cons.injEq, and_true,
    ← UInt8.toNat_inj, UInt8.toNat_ofNat', readU32]
  omega

------------------------------------------------------------
-- Reading A Frame
------------------------------------------------------------

/- What reading a frame gives on the bytes so far. -/
inductive Received (α : Type) where
  | incomplete
  | tooLarge
  | malformed
  | message (value : α) (rest : List UInt8)
  deriving DecidableEq, Repr

variable {α : Type}

/- Read one frame and decode its body. -/
def receive
    (limit : Nat)
    (fromSlice : List UInt8 → Option α) :
    List UInt8 → Received α
| a :: b :: c :: d :: rest =>
    let length := readU32 a b c d
    if limit < length then
      .tooLarge
    else if rest.length < length then
      .incomplete
    else
      match fromSlice (rest.take length) with
      | some value => .message value (rest.drop length)
      | none => .malformed
| _ => .incomplete

/-
  A message is read exactly from the frames whose body is
  within the limit and decodes to it.
-/
theorem receive_message_iff
    {limit : Nat}
    (hLimit : limit < 4294967296)
    {fromSlice : List UInt8 → Option α}
    {bytes rest : List UInt8}
    {value : α} :
    receive limit fromSlice bytes = .message value rest ↔
      ∃ body,
        bytes = encode body ++ rest ∧
          body.length ≤ limit ∧
          fromSlice body = some value := by
  constructor
  · intro hReceive
    unfold receive at hReceive
    split at hReceive <;> [skip; cases hReceive]
    rename_i a b c d tail
    dsimp only at hReceive
    split at hReceive
    · cases hReceive
    · rename_i hWithin
      split at hReceive
      · cases hReceive
      · rename_i hComplete
        split at hReceive <;> cases hReceive
        rename_i hDecode
        have hBody :
            (tail.take (readU32 a b c d)).length =
              readU32 a b c d := by
          rw [List.length_take]
          omega
        refine ⟨tail.take (readU32 a b c d), ?_, ?_, hDecode⟩
        · simp [encode, hBody, header_readU32]
        · omega
  · rintro ⟨body, rfl, hLength, hDecode⟩
    have hRead :=
      readU32_header (by omega : body.length < 4294967296)
    simp only [encode, header, List.cons_append,
      List.nil_append, receive, hRead]
    rw [if_neg (by omega),
      if_neg (by rw [List.length_append]; omega)]
    simp [hDecode]

end Frame
