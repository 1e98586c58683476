import TimeSeries.Bytes

/-!
# Checksums

The checksum of a byte string is its cyclic redundancy check of 32 bits over the polynomial
`0x04c11db7`, bits taken from the low end of each byte, with all bits of the register set at the
start and flipped at the end.
-/

set_option autoImplicit false

namespace TimeSeries.Checksum

/-- The polynomial, lowest power at the high end. -/
def polynomial : UInt32 := 0xedb88320

/-- The register after one bit. -/
def shift (register : UInt32) : UInt32 :=
  if register &&& 1 = 1 then (register >>> 1) ^^^ polynomial else register >>> 1

/-- The register after so many bits. -/
def shiftBy : Nat → UInt32 → UInt32
  | 0, register => register
  | bits + 1, register => shiftBy bits (shift register)

/-- The register after one byte. -/
def absorb (register : UInt32) (byte : UInt8) : UInt32 :=
  shiftBy 8 (register ^^^ byte.toUInt32)

/-- The checksum of a byte string. -/
def ofBytes (bytes : Bytes) : UInt32 :=
  ~~~bytes.foldl absorb 0xffffffff

end TimeSeries.Checksum
