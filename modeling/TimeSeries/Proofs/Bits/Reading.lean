import Mathlib.Data.List.Induction
import TimeSeries.Bits.Reader
import TimeSeries.Bits.Writer

/-!
# Reading back what was written

A reader stands in front of a list of bits, its remaining bits, as a writer stands behind one.  A
read takes bits off the front of that list, and the bytes of a writer show the bits that were
written, followed by the zeros that fill the last byte.  A reader of any bytes stands at its position
in them (`BitReader.StandsIn`).

Main statements: `BitReader.Shows.read` says that a field of bits is read back as its number,
whatever bits follow it, and `BitWriter.shows_toBytes` that the bytes of a writer show its bits.
-/

set_option autoImplicit false

namespace TimeSeries

/-! ## Numbers as bits -/

@[simp] theorem length_bitsOf (width number : Nat) : (bitsOf width number).length = width := by
  induction width with
  | zero => rfl
  | succ width ih => rw [bitsOf, List.length_cons, ih]

/-- Taking the bits of a number for digits gives its low part. -/
theorem foldl_withBit_bitsOf (high width number : Nat) :
    (bitsOf width number).foldl withBit high = high * 2 ^ width + number % 2 ^ width := by
  induction width generalizing high with
  | zero => simp [bitsOf, Nat.mod_one]
  | succ width ih =>
      have top : number % 2 ^ (width + 1)
          = 2 ^ width * (number.testBit width).toNat + number % 2 ^ width := by
        rw [Nat.toNat_testBit, Nat.mod_pow_succ, Nat.add_comm]
      have shifted : 2 * high * 2 ^ width = high * 2 ^ (width + 1) := by
        rw [Nat.pow_succ, Nat.mul_comm 2 high, Nat.mul_assoc, Nat.mul_comm 2]
      rw [bitsOf, List.foldl_cons, ih, top, withBit, Nat.add_mul, shifted, Nat.add_assoc,
        Nat.mul_comm (number.testBit width).toNat]

/-- Taking the bits of a slice for further digits joins the slice to the number. -/
theorem foldl_withBit_slice (high number low width : Nat) :
    (bitsOf width (slice number low width)).foldl withBit high
      = join high width (slice number low width) := by
  have fits := slice_lt number low width
  rw [foldl_withBit_bitsOf, Nat.mod_eq_of_lt fits, join_eq high fits]

/-- The first bits of a number are its higher ones. -/
theorem take_bitsOf {width taken : Nat} (number : Nat) (within : taken ≤ width) :
    (bitsOf width number).take taken = bitsOf taken (number >>> (width - taken)) := by
  have cut := bitsOf_add taken (width - taken) number
  rw [Nat.add_sub_cancel' within] at cut
  rw [cut, List.take_left' (length_bitsOf taken _)]

/-- The bits of a number behind its first ones are its lower bits. -/
theorem drop_bitsOf {width skipped : Nat} (number : Nat) (within : skipped ≤ width) :
    (bitsOf width number).drop skipped = bitsOf (width - skipped) number := by
  have cut := bitsOf_add skipped (width - skipped) number
  rw [Nat.add_sub_cancel' within] at cut
  rw [cut, List.drop_left' (length_bitsOf skipped _)]

theorem bitsOf_of_zero (width : Nat) : bitsOf width 0 = List.replicate width false := by
  induction width with
  | zero => rfl
  | succ width ih => rw [bitsOf, ih, Nat.zero_testBit, List.replicate_succ]

/-- A number moved up by some places ends in as many zeros. -/
theorem bitsOf_mul_two_pow (width places number : Nat) :
    bitsOf (width + places) (number * 2 ^ places)
      = bitsOf width number ++ List.replicate places false := by
  have joined := bitsOf_join width number (Nat.two_pow_pos places)
  rwa [join_eq number (Nat.two_pow_pos places), Nat.add_zero, bitsOf_of_zero] at joined

/-- Bits taken for digits are the digits of their number. -/
theorem bitsOf_foldl_withBit (bits : List Bool) :
    bitsOf bits.length (bits.foldl withBit 0) = bits := by
  induction bits using List.reverseRecOn with
  | nil => rfl
  | append_singleton bits bit ih =>
      rw [List.foldl_append, List.length_append, List.foldl_cons, List.foldl_nil,
        List.length_singleton, bitsOf_withBit, ih]

theorem foldl_withBit_lt (bits : List Bool) : bits.foldl withBit 0 < 2 ^ bits.length := by
  induction bits using List.reverseRecOn with
  | nil => decide
  | append_singleton bits bit ih =>
      rw [List.foldl_append, List.length_append, List.foldl_cons, List.foldl_nil,
        List.length_singleton, withBit, Nat.pow_succ]
      have one := Bool.toNat_le bit
      omega

/-! ## Readers -/

/-- The bits of a byte string, byte by byte. -/
def bitsOfBytes (bytes : Bytes) : List Bool := bytes.flatMap fun byte => bitsOf 8 byte.toNat

theorem bitsOfBytes_cons (byte : UInt8) (rest : Bytes) :
    bitsOfBytes (byte :: rest) = bitsOf 8 byte.toNat ++ bitsOfBytes rest :=
  List.flatMap_cons

theorem length_bitsOfBytes (bytes : Bytes) : (bitsOfBytes bytes).length = 8 * bytes.length := by
  induction bytes with
  | nil => rfl
  | cons byte rest ih =>
      rw [bitsOfBytes_cons, List.length_append, length_bitsOf, ih, List.length_cons, Nat.mul_succ,
        Nat.add_comm]

namespace BitReader

/-- The remaining bits of a reader are the given ones. -/
structure Shows (reader : BitReader) (bits : List Bool) : Prop where
  drop_bits : (bitsOfBytes reader.rest).drop reader.used = bits

theorem shows_ofBytes (bytes : Bytes) : (ofBytes bytes).Shows (bitsOfBytes bytes) := ⟨rfl⟩

/-- Behind so many bits a reader shows the others. -/
theorem Shows.advance {reader : BitReader} {bits : List Bool} (shown : reader.Shows bits)
    (width : Nat) : (reader.advance width).Shows (bits.drop width) := by
  have whole : ∀ (count : Nat) (bytes : Bytes),
      bitsOfBytes (bytes.drop count) = (bitsOfBytes bytes).drop (8 * count) := by
    intro count
    induction count with
    | zero => exact fun _ => rfl
    | succ count ih =>
        intro bytes
        cases bytes with
        | nil => exact List.drop_nil.symm
        | cons byte rest =>
            rw [List.drop_succ_cons, ih, bitsOfBytes_cons, Nat.mul_succ, Nat.add_comm,
              ← List.drop_drop, List.drop_left' (length_bitsOf 8 _)]
  refine ⟨?_⟩
  rw [BitReader.advance, whole, List.drop_drop, Nat.div_add_mod, ← List.drop_drop, shown.drop_bits]

/-- The bits that are taken of the first byte, as further digits of a number. -/
theorem foldl_withBit_take {byte : UInt8} {used count : Nat} (rest : Bytes) (number : Nat)
    (within : used + count ≤ 8) :
    (((bitsOfBytes (byte :: rest)).drop used).take count).foldl withBit number
      = join number count (slice byte.toNat (8 - used - count) count) := by
  rw [bitsOfBytes_cons, List.drop_append_of_le_length (by rw [length_bitsOf]; omega),
    List.take_append_of_le_length (by rw [List.length_drop, length_bitsOf]; omega),
    drop_bitsOf _ (by omega), take_bitsOf _ (by omega), ← bitsOf_slice, foldl_withBit_slice]

/-- Reading takes the next bits for further digits, if there are enough. -/
theorem readFrom_eq (bytes : Bytes) {used : Nat} (used_lt : used < 8) (number width : Nat) :
    readFrom used number width bytes
      = if width ≤ 8 * bytes.length - used then
          some ((((bitsOfBytes bytes).drop used).take width).foldl withBit number)
        else none := by
  induction bytes generalizing used number width with
  | nil =>
      by_cases nothing : width = 0
      · rw [readFrom, if_pos nothing, nothing, if_pos (Nat.zero_le _), List.take_zero,
          List.foldl_nil]
      · rw [readFrom, if_neg nothing, List.length_nil, if_neg (by omega)]
  | cons byte rest ih =>
      by_cases nothing : width = 0
      · rw [readFrom, if_pos nothing, nothing, if_pos (Nat.zero_le _), List.take_zero,
          List.foldl_nil]
      rw [readFrom, if_neg nothing]
      simp only
      generalize count_eq : min (8 - used) width = count
      -- the bits behind those of the first byte are bits of the others, or none are read
      have onward : (((bitsOfBytes (byte :: rest)).drop used).drop count).take (width - count)
          = ((bitsOfBytes rest).drop 0).take (width - count) := by
        by_cases beyond : width ≤ 8 - used
        · rw [show width - count = 0 by omega, List.take_zero, List.take_zero]
        · rw [List.drop_drop, show used + count = 8 by omega, bitsOfBytes_cons,
            List.drop_left' (length_bitsOf 8 _), List.drop_zero]
      have cut : width = count + (width - count) := by omega
      rw [ih (by decide), ← foldl_withBit_take rest number (by omega), ← onward, ← List.foldl_append,
        ← List.take_add, ← cut, List.length_cons]
      have room : width - count ≤ 8 * rest.length - 0 ↔ width ≤ 8 * (rest.length + 1) - used := by
        omega
      simp only [room]

theorem Shows.length_eq {reader : BitReader} {bits : List Bool} (shown : reader.Shows bits) :
    bits.length = 8 * reader.rest.length - reader.used := by
  rw [← shown.drop_bits, List.length_drop, length_bitsOfBytes]

/-- A read takes the next bits for the digits of a number, if there are enough. -/
theorem Shows.read_eq {reader : BitReader} {bits : List Bool} (shown : reader.Shows bits)
    (width : Nat) :
    reader.read width
      = if width ≤ bits.length then some ((bits.take width).foldl withBit 0, reader.advance width)
        else none := by
  rw [BitReader.read, readFrom_eq _ reader.used_lt, shown.drop_bits, ← shown.length_eq]
  split <;> rfl

/-- Reading as many bits as are given reads just these. -/
theorem Shows.read_append {reader : BitReader} {taken bits : List Bool}
    (shown : reader.Shows (taken ++ bits)) :
    ∃ next, reader.read taken.length = some (taken.foldl withBit 0, next)
      ∧ next.position = reader.position + taken.length ∧ next.Shows bits := by
  have onward := shown.advance taken.length
  have room : taken.length ≤ (taken ++ bits).length := by
    rw [List.length_append]
    exact Nat.le_add_right _ _
  rw [List.drop_left' rfl] at onward
  refine ⟨reader.advance taken.length, ?_, rfl, onward⟩
  rw [shown.read_eq, if_pos room, List.take_left' rfl]

/-- A reader with fewer bits than are asked for has no result. -/
theorem Shows.read_short {reader : BitReader} {bits : List Bool} {width : Nat}
    (shown : reader.Shows bits) (short : bits.length < width) : reader.read width = none := by
  rw [shown.read_eq, if_neg (Nat.not_le_of_lt short)]

/-- A field of bits is read back as its number, whatever follows it. -/
theorem Shows.read {reader : BitReader} {width number : Nat} {bits : List Bool}
    (fits : number < 2 ^ width) (shown : reader.Shows (bitsOf width number ++ bits)) :
    ∃ next, reader.read width = some (number, next) ∧ next.Shows bits := by
  obtain ⟨next, read, -, onward⟩ := shown.read_append
  rw [length_bitsOf, foldl_withBit_bitsOf, Nat.zero_mul, Nat.zero_add,
    Nat.mod_eq_of_lt fits] at read
  exact ⟨next, read, onward⟩

/-- The bits before the reader are those of the data behind its position. -/
structure StandsIn (reader : BitReader) (data : Bytes) : Prop where
  position_le : reader.position ≤ 8 * data.length
  shows : reader.Shows ((bitsOfBytes data).drop reader.position)

variable {reader : BitReader} {data : Bytes}

theorem standsIn_ofBytes (data : Bytes) : (ofBytes data).StandsIn data where
  position_le := Nat.zero_le _
  shows := shows_ofBytes data

/-- A field within the data is read as the number that its bits are the digits of. -/
theorem StandsIn.read {width : Nat} (stands : reader.StandsIn data)
    (room : reader.position + width ≤ 8 * data.length) :
    ∃ number next, reader.read width = some (number, next) ∧ number < 2 ^ width
      ∧ bitsOf width number = ((bitsOfBytes data).drop reader.position).take width
      ∧ next.position = reader.position + width ∧ next.StandsIn data := by
  let bits := (bitsOfBytes data).drop reader.position
  have length : (bits.take width).length = width := by
    rw [List.length_take_of_le]
    rw [List.length_drop, length_bitsOfBytes]
    omega
  have shown : reader.Shows (bits.take width ++ bits.drop width) := by
    rw [List.take_append_drop]
    exact stands.shows
  obtain ⟨next, read, position, onward⟩ := shown.read_append
  rw [length] at read position
  have digits := bitsOf_foldl_withBit (bits.take width)
  have fits := foldl_withBit_lt (bits.take width)
  rw [length] at digits fits
  refine ⟨_, next, read, fits, digits, position, ?_, ?_⟩
  · rw [position]
    exact room
  · rw [position, ← List.drop_drop]
    exact onward

/-- A field that reaches beyond the data is not read. -/
theorem StandsIn.read_beyond {width : Nat} (stands : reader.StandsIn data)
    (beyond : 8 * data.length < reader.position + width) : reader.read width = none := by
  refine stands.shows.read_short ?_
  rw [List.length_drop, length_bitsOfBytes]
  have := stands.position_le
  omega

end BitReader

/-! ## Writers -/

namespace BitWriter

/-- The zeros behind the bits of a writer, up to the end of a byte. -/
def padding (writer : BitWriter) : List Bool :=
  if writer.used = 0 then [] else List.replicate (8 - writer.used) false

/-- The bytes of a writer hold its bits and the zeros behind them. -/
theorem bitsOfBytes_toBytes (writer : BitWriter) :
    bitsOfBytes writer.toBytes = writer.bits ++ writer.padding := by
  rw [toBytes, bitsOfBytes, List.flatMap_append, bits, List.append_assoc]
  congr 1
  unfold lastByte padding
  split
  case isTrue none_pending => rw [none_pending]; rfl
  case isFalse some_pending =>
      have used_lt := writer.used_lt
      have fits : writer.pending * 2 ^ (8 - writer.used) < 256 :=
        calc writer.pending * 2 ^ (8 - writer.used)
            < 2 ^ writer.used * 2 ^ (8 - writer.used) :=
              Nat.mul_lt_mul_of_pos_right writer.pending_lt (Nat.pow_pos (by decide))
          _ = 2 ^ 8 := by rw [← Nat.pow_add, Nat.add_sub_cancel' (by omega)]
          _ = 256 := by decide
      have whole := bitsOf_mul_two_pow writer.used (8 - writer.used) writer.pending
      rw [Nat.add_sub_cancel' (by omega)] at whole
      rw [List.flatMap_cons, List.flatMap_nil, List.append_nil, UInt8.toNat_ofNat',
        Nat.mod_eq_of_lt fits, whole]

/-- A reader of the bytes of a writer shows what was written. -/
theorem shows_toBytes (writer : BitWriter) :
    (BitReader.ofBytes writer.toBytes).Shows (writer.bits ++ writer.padding) := by
  rw [← bitsOfBytes_toBytes]
  exact BitReader.shows_ofBytes writer.toBytes

end BitWriter

end TimeSeries
