import TimeSeries.Block.Basic
import TimeSeries.Block.Checksum
import TimeSeries.Failure

/-!
# Blocks as bytes

The image of a block is its count, its first and its last timestamp and the length of its data,
eight bytes each with the least significant byte first, then the data, and at the end the checksum
of all that in four bytes, again least significant first.  When an image is read, bytes between the
data and the checksum are passed over, but they count for the checksum.
-/

set_option autoImplicit false

namespace TimeSeries.Block

/-- The image of a block without its checksum. -/
def body (block : Block) : Bytes :=
  Bytes.ofNatLE 8 block.count ++ Bytes.ofWordLE block.first.toUInt64
    ++ Bytes.ofWordLE block.last.toUInt64 ++ Bytes.ofNatLE 8 block.data.length ++ block.data

/-- The image of a block. -/
def toImage (block : Block) : Bytes :=
  block.body ++ Bytes.ofNatLE 4 (Checksum.ofBytes block.body).toNat

/-- The block at the front of some bytes. -/
def ofBody? (bytes : Bytes) : Option Block := do
  let (count, rest) ← Bytes.takeWordLE? bytes
  let (first, rest) ← Bytes.takeWordLE? rest
  let (last, rest) ← Bytes.takeWordLE? rest
  let (length, rest) ← Bytes.takeWordLE? rest
  if length.toNat ≤ rest.length then
    return ⟨rest.take length.toNat, count.toNat, first.toInt64, last.toInt64⟩
  else
    none

/-- The block of an image. -/
def ofImage (image : Bytes) : Except Failure Block :=
  if image.length < 4 then
    .error (.malformed .imageTooShort)
  else
    let body := image.take (image.length - 4)
    let stored := UInt32.ofNat (Bytes.toNatLE (image.drop (image.length - 4)))
    let computed := Checksum.ofBytes body
    if stored ≠ computed then
      .error (.malformed (.checksumMismatch stored computed))
    else
      match ofBody? body with
      | some block => .ok block
      | none => .error (.malformed .blockImage)

end TimeSeries.Block
