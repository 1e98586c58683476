import TimeSeries.Bits.Basic

/-!
# Reading bits

A `BitReader` hands out the bits of a byte string, the most significant bit of each byte first, one
by one or as numbers of several bits.  A number is read byte by byte, each time as many of its bits
as the byte still has.  A read that the remaining bits cannot fill has no result, and the reader
stays where it was.
-/

set_option autoImplicit false

namespace TimeSeries

/-- A byte string being read bit by bit. -/
structure BitReader where
  /-- The bytes that are not read to the end. -/
  rest : Bytes
  /-- How many bits of the first of them are read. -/
  used : Nat
  /-- How many bits are read in all. -/
  position : Nat
  used_lt : used < 8
  deriving DecidableEq, Repr

namespace BitReader

/-- A reader in front of the first bit. -/
def ofBytes (bytes : Bytes) : BitReader := ⟨bytes, 0, 0, Nat.succ_pos 7⟩

instance : Inhabited BitReader := ⟨ofBytes []⟩

/-- The number of bits not yet read. -/
def remaining (reader : BitReader) : Nat := 8 * reader.rest.length - reader.used

/-- The reader behind so many further bits. -/
def advance (reader : BitReader) (width : Nat) : BitReader where
  rest := reader.rest.drop ((reader.used + width) / 8)
  used := (reader.used + width) % 8
  position := reader.position + width
  used_lt := Nat.mod_lt _ (by decide)

/-- A number with so many bits of a byte string behind it, unless there are fewer.  Some bits of the
first byte are left out. -/
def readFrom (used number width : Nat) : Bytes → Option Nat
  | [] => if width = 0 then some number else none
  | byte :: rest =>
      if width = 0 then some number
      else
        let count := min (8 - used) width
        readFrom 0 (join number count (slice byte.toNat (8 - used - count) count)) (width - count)
          rest

/-- Reads a number of so many bits, the most significant first. -/
def read (reader : BitReader) (width : Nat) : Option (Nat × BitReader) :=
  (readFrom reader.used 0 width reader.rest).map fun number => (number, reader.advance width)

/-- Reads one bit. -/
def pop? (reader : BitReader) : Option (Bool × BitReader) :=
  (reader.read 1).map fun found => (found.1 == 1, found.2)

end BitReader

end TimeSeries
