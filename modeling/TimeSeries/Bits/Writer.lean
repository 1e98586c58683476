import TimeSeries.Bits.Basic

/-!
# Writing bits

A `BitWriter` takes bits and fields of bits, the most significant bit of a field first, and holds
them as bytes: the complete bytes, and the bits since the last complete byte as a number of fewer
than eight bits.  A field is written byte by byte, each time as many of its bits as there is room for
in the byte.  At any moment the bytes written so far can be taken (`BitWriter.toBytes`), the
last one filled up with zeros, and writing goes on from where it was.

Main statement: `bits_write` says that a writer stands for a list of bits to which each write adds
at the end.
-/

set_option autoImplicit false

namespace TimeSeries

/-- Bits being written. -/
structure BitWriter where
  /-- The complete bytes, the latest first. -/
  complete : List UInt8
  /-- The bits since then, as a number. -/
  pending : Nat
  /-- How many bits are pending. -/
  used : Nat
  used_lt : used < 8
  pending_lt : pending < 2 ^ used

namespace BitWriter

/-- Nothing written yet. -/
def empty : BitWriter := ⟨[], 0, 0, by decide, by decide⟩

instance : Inhabited BitWriter := ⟨empty⟩

/-- Puts as many bits as said, those of a number, behind the pending ones.  Bits that complete the
byte end there; there is no room for more. -/
def fill (writer : BitWriter) (count : Nat) (chunk : Nat) (fits : chunk < 2 ^ count) : BitWriter :=
  if more : writer.used + count < 8 then
    ⟨writer.complete, join writer.pending count chunk, writer.used + count, more,
      join_lt writer.pending_lt fits⟩
  else
    ⟨UInt8.ofNat (join writer.pending count chunk) :: writer.complete, 0, 0, by decide, by decide⟩

/-- Writes the `width` low bits of a number, the most significant first. -/
def write (writer : BitWriter) (width number : Nat) : BitWriter :=
  if _nothing : width = 0 then writer
  else
    let count := min (8 - writer.used) width
    (writer.fill count (slice number (width - count) count) (slice_lt _ _ _)).write
      (width - count) number
termination_by width
decreasing_by
  have := writer.used_lt
  omega

/-- Writes one bit. -/
def push (writer : BitWriter) (bit : Bool) : BitWriter := writer.write 1 bit.toNat

/-- The last byte, filled up with zeros, if it is not complete. -/
def lastByte (writer : BitWriter) : Bytes :=
  if writer.used = 0 then [] else [UInt8.ofNat (writer.pending * 2 ^ (8 - writer.used))]

/-- The bytes written so far. -/
def toBytes (writer : BitWriter) : Bytes :=
  writer.complete.reverse ++ writer.lastByte

/-- The number of bits written. -/
def bitLength (writer : BitWriter) : Nat := 8 * writer.complete.length + writer.used

/-- The number of bytes written, an incomplete one included. -/
def size (writer : BitWriter) : Nat :=
  writer.complete.length + if writer.used = 0 then 0 else 1

/-! ## The bits of a writer -/

/-- The bits written so far. -/
def bits (writer : BitWriter) : List Bool :=
  writer.complete.reverse.flatMap (fun byte => bitsOf 8 byte.toNat)
    ++ bitsOf writer.used writer.pending

/-- Bits for which there is room in the byte are added at the end. -/
theorem bits_fill {writer : BitWriter} {count chunk : Nat} (fits : chunk < 2 ^ count)
    (room : writer.used + count ≤ 8) :
    (writer.fill count chunk fits).bits = writer.bits ++ bitsOf count chunk := by
  have joined := bitsOf_join writer.used writer.pending fits
  unfold fill
  split
  case isTrue more => simp only [bits, joined, List.append_assoc]
  case isFalse full =>
      have whole : writer.used + count = 8 := by omega
      have byte : join writer.pending count chunk < 256 := by
        have below := join_lt writer.pending_lt fits
        rwa [whole] at below
      rw [whole] at joined
      simp only [bits, List.reverse_cons, List.flatMap_append, List.flatMap_cons,
        List.flatMap_nil, List.append_nil, UInt8.toNat_ofNat', Nat.mod_eq_of_lt byte, joined,
        bitsOf_zero, List.append_assoc]

/-- Writing a field adds its bits at the end. -/
theorem bits_write (writer : BitWriter) (width number : Nat) :
    (writer.write width number).bits = writer.bits ++ bitsOf width number := by
  fun_induction write writer width number with
  | case1 writer => rw [bitsOf_zero, List.append_nil]
  | case2 writer width some_bits count ih =>
      have room : writer.used + count ≤ 8 := by
        have := writer.used_lt
        omega
      have within : count + (width - count) = width := by omega
      have cut := bitsOf_add count (width - count) number
      rw [within] at cut
      rw [ih, bits_fill _ room, bitsOf_slice, List.append_assoc, ← cut]

/-- One more bit is one more bit at the end. -/
theorem bits_push (writer : BitWriter) (bit : Bool) :
    (writer.push bit).bits = writer.bits ++ [bit] := by
  rw [push, bits_write, bitsOf_toNat]

end BitWriter

end TimeSeries
