import TimeSeries.Bits.Writer
import TimeSeries.Series

/-!
# Compressed blocks

A block holds points in time order as a string of bits.  The first point is written in full: its
timestamp and its value, 64 bits each.  Every further point is written relative to the one before
it, first its timestamp and then its value.

The timestamp is given by how much its distance from the previous one (its delta) differs from the
delta before.  No difference takes a single bit; a difference in one of three ranges around zero
takes seven, nine or twelve bits behind a mark, and any other all 64.

The value is given by the bits in which it differs from the previous value.  No difference takes a
single bit.  Otherwise the differing bits lie in a window that leaves out zeros at both ends.  If
they lie within the window used last, that window is used again; if not, the new window is written,
with at most 31 zeros left out in front.

`Link` is what a point is written relative to.  `Link.fields` gives the bits of a point as fields,
and `Link.follow` the link for the point after it.
-/

set_option autoImplicit false

namespace TimeSeries

/-- Points as a string of bits. -/
structure Block where
  data : Bytes
  /-- The number of points. -/
  count : Nat
  first : Timestamp
  last : Timestamp
  deriving DecidableEq, Repr, Inhabited

namespace Block

def isEmpty (block : Block) : Bool := block.count == 0

/-- Some point between the first and the last timestamp may lie in the given span. -/
def overlaps (block : Block) (start stop : Timestamp) : Bool :=
  0 < block.count && block.first ≤ stop && start ≤ block.last

/-- The size per point in bytes. -/
def bytesPerPoint (block : Block) : Binary64 :=
  Binary64.ofNat block.data.length / Binary64.ofNat block.count

end Block

/-! ## Points as fields of bits -/

/-- A number in so many bits. -/
structure BitField where
  width : Nat
  value : Nat
  deriving DecidableEq, Repr

/-- The zeros left out at both ends of the differing bits of a value. -/
structure ValueWindow where
  leading : Nat
  trailing : Nat
  deriving DecidableEq, Repr, Inhabited

namespace ValueWindow

/-- The window before any was written. -/
def initial : ValueWindow := ⟨0, 0⟩

/-- The number of bits within the window. -/
def width (window : ValueWindow) : Nat := 64 - window.leading - window.trailing

/-- The greatest number of leading zeros that is written. -/
def greatestLeading : Nat := 31

/-- The number of zeros at the low end of a number other than zero, up to a bound. -/
def trailingZeros : Nat → Nat → Nat
  | 0, _ => 0
  | bound + 1, number => if number % 2 = 0 then trailingZeros bound (number / 2) + 1 else 0

/-- The smallest window that holds differing bits. -/
def around (difference : UInt64) : ValueWindow where
  leading := min (63 - difference.toNat.log2) greatestLeading
  trailing := trailingZeros 64 difference.toNat

/-- A window that was written before and leaves out no more than another. -/
def covers (held wanted : ValueWindow) : Bool :=
  0 < held.leading + held.trailing && held.leading ≤ wanted.leading
    && held.trailing ≤ wanted.trailing

/-- The bits of a window. -/
def cut (window : ValueWindow) (difference : UInt64) : BitField :=
  ⟨window.width, difference.toNat >>> window.trailing⟩

end ValueWindow

/-- The fields of a change of the delta. -/
def deltaFields (change : Int64) : List BitField :=
  let number := change.toInt
  if number = 0 then [⟨1, 0⟩]
  else if -63 ≤ number ∧ number ≤ 64 then [⟨2, 0b10⟩, ⟨7, (number + 63).toNat⟩]
  else if -255 ≤ number ∧ number ≤ 256 then [⟨3, 0b110⟩, ⟨9, (number + 255).toNat⟩]
  else if -2047 ≤ number ∧ number ≤ 2048 then [⟨4, 0b1110⟩, ⟨12, (number + 2047).toNat⟩]
  else [⟨4, 0b1111⟩, ⟨64, change.toUInt64.toNat⟩]

/-- The fields of the differing bits of a value, and the window after them. -/
def differenceFields (window : ValueWindow) (difference : UInt64) :
    List BitField × ValueWindow :=
  if difference = 0 then
    ([⟨1, 0⟩], window)
  else
    let wanted := ValueWindow.around difference
    if window.covers wanted then
      ([⟨2, 0b10⟩, window.cut difference], window)
    else
      ([⟨2, 0b11⟩, ⟨5, wanted.leading⟩, ⟨6, wanted.width - 1⟩, wanted.cut difference], wanted)

/-- What a point is written relative to. -/
structure Link where
  timestamp : Timestamp
  delta : Int64
  bits : UInt64
  window : ValueWindow
  deriving DecidableEq, Repr, Inhabited

namespace Link

/-- The fields of the first point. -/
def firstFields (point : Point) : List BitField :=
  [⟨64, point.timestamp.toUInt64.toNat⟩, ⟨64, point.value.bits.toNat⟩]

/-- The link behind the first point. -/
def ofFirst (point : Point) : Link := ⟨point.timestamp, 0, point.value.bits, .initial⟩

/-- The delta of a point. -/
def deltaTo (link : Link) (point : Point) : Int64 := point.timestamp - link.timestamp

/-- The bits in which the value of a point differs. -/
def differenceTo (link : Link) (point : Point) : UInt64 := point.value.bits ^^^ link.bits

/-- The fields of a point. -/
def fields (link : Link) (point : Point) : List BitField :=
  deltaFields (link.deltaTo point - link.delta)
    ++ (differenceFields link.window (link.differenceTo point)).1

/-- The link behind a point. -/
def follow (link : Link) (point : Point) : Link where
  timestamp := point.timestamp
  delta := link.deltaTo point
  bits := point.value.bits
  window := (differenceFields link.window (link.differenceTo point)).2

end Link

end TimeSeries
