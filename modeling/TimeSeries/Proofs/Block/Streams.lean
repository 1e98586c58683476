import Mathlib.Algebra.GroupWithZero.Nat
import TimeSeries.Proofs.Block.Fields

/-!
# Streams of fields

Fields of any widths are written one after another, and a reader asks a byte string for fields of
any widths.  A writer stands for the bits of its fields, all other numbers it tells are counts of
them, and a later writer only has more.  A reader stands at its position in the data
(`BitReader.StandsIn`).  That is kept by every read, one that finds nothing included, so it holds
behind reads of any widths, and a read is told by the position alone.

Main statement: `BitReader.takeAll_faithful`.
-/

set_option autoImplicit false

namespace TimeSeries

/-- The number that the bits are the digits of, the most significant first. -/
def numberOf (bits : List Bool) : Nat := bits.foldl withBit 0

theorem numberOf_bitsOf (width number : Nat) :
    numberOf (bitsOf width number) = number % 2 ^ width := by
  rw [numberOf, foldl_withBit_bitsOf, Nat.zero_mul, Nat.zero_add]

/-! ## What a writer tells of its fields -/

theorem length_fieldBits (fields : List BitField) :
    (fieldBits fields).length = (fields.map BitField.width).sum := by
  induction fields with
  | nil => rfl
  | cons field fields ih =>
      rw [fieldBits_cons, List.length_append, length_bitsOf, ih, List.map_cons, List.sum_cons]

namespace BitWriter

variable (writer : BitWriter)

theorem length_bits : writer.bits.length = writer.bitLength := by
  have complete := length_bitsOfBytes writer.complete.reverse
  rw [bitsOfBytes, List.length_reverse] at complete
  rw [bits, List.length_append, complete, length_bitsOf, bitLength]

theorem length_toBytes : writer.toBytes.length = writer.size := by
  rw [toBytes, List.length_append, List.length_reverse, lastByte, size]
  split <;> rfl

/-- The bytes are as few as have room for the bits. -/
theorem size_eq : writer.size = (writer.bitLength + 7) / 8 := by
  have used_lt := writer.used_lt
  unfold size bitLength
  split <;> omega

/-- The zeros fill up the last byte. -/
theorem padding_eq :
    writer.padding = List.replicate (8 * writer.size - writer.bitLength) false := by
  have used_lt := writer.used_lt
  unfold padding size bitLength
  split
  case isTrue whole => rw [whole, Nat.add_zero, Nat.add_zero, Nat.sub_self, List.replicate_zero]
  case isFalse => congr 1; omega

theorem take_bitsOfBytes : (bitsOfBytes writer.toBytes).take writer.bitLength = writer.bits := by
  rw [bitsOfBytes_toBytes, List.take_left' writer.length_bits]

theorem drop_bitsOfBytes : (bitsOfBytes writer.toBytes).drop writer.bitLength = writer.padding := by
  rw [bitsOfBytes_toBytes, List.drop_left' writer.length_bits]

end BitWriter

/-! ## Reads one after another -/

namespace BitReader

/-- A read, and where the reader is then.  A read that finds nothing leaves it as it was. -/
def take (reader : BitReader) (width : Nat) : Option Nat × BitReader :=
  match reader.read width with
  | some (number, next) => (some number, next)
  | none => (none, reader)

/-- What is found by reads of these widths, one after another, and where the reader is then. -/
def takeAll (reader : BitReader) : List Nat → List (Option Nat) × BitReader
  | [] => ([], reader)
  | width :: widths =>
      let first := reader.take width
      let others := first.2.takeAll widths
      (first.1 :: others.1, others.2)

/-- The fields in front of the reader are found, whatever follows them. -/
theorem Shows.takeAll {reader : BitReader} (fields : List BitField) {bits : List Bool}
    (shown : reader.Shows (fieldBits fields ++ bits)) :
    (reader.takeAll (fields.map BitField.width)).1
      = fields.map fun field => some (field.value % 2 ^ field.width) := by
  induction fields generalizing reader with
  | nil => rfl
  | cons field fields ih =>
      rw [fieldBits_cons, List.append_assoc] at shown
      obtain ⟨next, read, -, onward⟩ := shown.read_append
      rw [length_bitsOf] at read
      have first : reader.take field.width = (some (field.value % 2 ^ field.width), next) := by
        rw [← numberOf_bitsOf]
        simp only [take, read, numberOf]
      simp only [List.map_cons, BitReader.takeAll, first, ih onward]

variable {reader : BitReader} {data : Bytes}

theorem StandsIn.remaining_eq (stands : reader.StandsIn data) :
    reader.remaining = 8 * data.length - reader.position := by
  have length := stands.shows.length_eq
  rw [List.length_drop, length_bitsOfBytes] at length
  exact length.symm

/-- A read is told by the position in the data alone. -/
theorem StandsIn.take_eq (stands : reader.StandsIn data) (width : Nat) :
    reader.take width
      = if width ≤ reader.remaining then
          (some (numberOf (((bitsOfBytes data).drop reader.position).take width)),
            reader.advance width)
        else (none, reader) := by
  have length : ((bitsOfBytes data).drop reader.position).length = reader.remaining := by
    rw [List.length_drop, length_bitsOfBytes, stands.remaining_eq]
  have read := stands.shows.read_eq width
  rw [length] at read
  unfold BitReader.take
  by_cases room : width ≤ reader.remaining
  · rw [if_pos room] at read
    simp only [read, if_pos room, numberOf]
  · rw [if_neg room] at read
    simp only [read, if_neg room]

/-- A read leaves the reader at a position in the data, whether or not it finds anything. -/
theorem StandsIn.take (stands : reader.StandsIn data) (width : Nat) :
    (reader.take width).2.StandsIn data := by
  rw [stands.take_eq]
  split
  case isFalse => exact stands
  case isTrue room =>
      have bound := stands.position_le
      rw [stands.remaining_eq] at room
      refine ⟨?_, ?_⟩
      · show reader.position + width ≤ 8 * data.length
        omega
      · show (reader.advance width).Shows ((bitsOfBytes data).drop (reader.position + width))
        rw [← List.drop_drop]
        exact stands.shows.advance width

theorem StandsIn.takeAll (stands : reader.StandsIn data) (widths : List Nat) :
    (reader.takeAll widths).2.StandsIn data := by
  induction widths generalizing reader with
  | nil => exact stands
  | cons width widths ih => exact ih (stands.take width)

/-- **Fields are read back as they were written.**  Whatever fields are written, and whatever fields
are written `later`:

* reads of the same widths from the bytes so far find the low bits of each value, in order;
* the bits are as many as the widths say, the bytes as many as have room for them, and the bits
  behind those that were written are zeros;
* the bits written so far are the first ones of those written in the end.

And whatever bytes are read, behind reads of any widths `earlier`, a read finds the number of the
next bits and moves behind them if so many remain, and otherwise finds nothing and moves nothing. -/
theorem takeAll_faithful (fields later : List BitField) (bytes : Bytes) (earlier : List Nat)
    (width : Nat) :
    let writer := BlockEncoder.writeFields .empty fields
    let longer := BlockEncoder.writeFields writer later
    let reader := ((ofBytes bytes).takeAll earlier).2
    let found := reader.take width
    ((ofBytes writer.toBytes).takeAll (fields.map BitField.width)).1
        = fields.map (fun field => some (field.value % 2 ^ field.width))
      ∧ writer.bitLength = (fields.map BitField.width).sum
      ∧ writer.size = (writer.bitLength + 7) / 8
      ∧ writer.toBytes.length = writer.size
      ∧ (bitsOfBytes writer.toBytes).drop writer.bitLength
          = List.replicate (8 * writer.size - writer.bitLength) false
      ∧ (bitsOfBytes writer.toBytes).take writer.bitLength
          <+: (bitsOfBytes longer.toBytes).take longer.bitLength
      ∧ reader.position ≤ 8 * bytes.length
      ∧ reader.remaining = 8 * bytes.length - reader.position
      ∧ found.1 = (if width ≤ reader.remaining then
          some (numberOf (((bitsOfBytes bytes).drop reader.position).take width)) else none)
      ∧ found.2 = (if width ≤ reader.remaining then reader.advance width else reader)
      ∧ found.2.position
          = (if width ≤ reader.remaining then reader.position + width else reader.position) := by
  intro writer longer reader found
  have written : writer.bits = fieldBits fields := bits_writeFields _ _
  have stands : reader.StandsIn bytes := (standsIn_ofBytes bytes).takeAll earlier
  have read : found = _ := stands.take_eq width
  refine ⟨?_, ?_, writer.size_eq, writer.length_toBytes, ?_, ?_, stands.position_le,
    stands.remaining_eq, ?_, ?_, ?_⟩
  · have shown := writer.shows_toBytes
    rw [written] at shown
    exact shown.takeAll fields
  · rw [← writer.length_bits, written, length_fieldBits]
  · rw [writer.drop_bitsOfBytes, writer.padding_eq]
  · rw [writer.take_bitsOfBytes, longer.take_bitsOfBytes]
    exact ⟨fieldBits later, (bits_writeFields writer later).symm⟩
  all_goals
    rw [read]
    split <;> rfl

example : ((ofBytes [0b11000000]).takeAll [9, 2]).1 = [none, some 3] := by decide

end BitReader

end TimeSeries
