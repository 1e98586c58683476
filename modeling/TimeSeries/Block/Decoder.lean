import TimeSeries.Bits.Reader
import TimeSeries.Block.Basic
import TimeSeries.Failure

/-!
# Reading blocks

A `BlockDecoder` reads the points of a block one at a time, and as many as the block says it holds.
The bits need not come from an encoder: bits that end within a point and a value window wider than a
value are reported once, and nothing is read after that.
-/

set_option autoImplicit false

namespace TimeSeries

/-- A block being read. -/
structure BlockDecoder where
  reader : BitReader
  /-- The number of points the block says it holds. -/
  count : Nat
  /-- The number of points read. -/
  decoded : Nat
  failed : Bool
  link : Link
  deriving DecidableEq, Repr, Inhabited

namespace BlockDecoder

/-- A decoder in front of the first point. -/
def ofBlock (block : Block) : BlockDecoder :=
  ⟨.ofBytes block.data, block.count, 0, false, ⟨0, 0, 0, .initial⟩⟩

/-- The number of points not yet read. -/
def remaining (decoder : BlockDecoder) : Nat := decoder.count - decoder.decoded

/-- What reading something off the bits yields. -/
abbrev Reading := StateT BitReader (Except Malformation)

/-- Reads a number of so many bits. -/
def readField (width : Nat) : Reading Nat := fun reader =>
  match reader.read width with
  | some (value, next) => .ok (value, next)
  | none => .error .truncatedBlock

/-- Reads one bit. -/
def readBit : Reading Bool := do
  return (← readField 1) == 1

/-- Reads the first point in full. -/
def readFirst : Reading Point := do
  let timestamp ← readField 64
  let bits ← readField 64
  return ⟨(UInt64.ofNat timestamp).toInt64, ⟨UInt64.ofNat bits⟩⟩

/-- Reads a change of the delta. -/
def readDeltaChange : Reading Int64 := do
  if !(← readBit) then
    return 0
  if !(← readBit) then
    return Int64.ofInt ((← readField 7) - 63)
  if !(← readBit) then
    return Int64.ofInt ((← readField 9) - 255)
  if !(← readBit) then
    return Int64.ofInt ((← readField 12) - 2047)
  return (UInt64.ofNat (← readField 64)).toInt64

/-- Reads a window. -/
def readWindow : Reading ValueWindow := do
  let leading ← readField 5
  let meaningful := (← readField 6) + 1
  if 64 < leading + meaningful then
    throw (.valueWindow leading meaningful)
  return ⟨leading, 64 - (leading + meaningful)⟩

/-- Reads the bits in which a value differs, and the window after them. -/
def readDifference (window : ValueWindow) : Reading (UInt64 × ValueWindow) := do
  if !(← readBit) then
    return (0, window)
  let window ← if ← readBit then readWindow else pure window
  let meaningful ← readField window.width
  return (UInt64.ofNat (meaningful <<< window.trailing), window)

/-- Reads a point relative to the one before it, and the link behind it. -/
def readNext (link : Link) : Reading (Point × Link) := do
  let change ← readDeltaChange
  let delta := link.delta + change
  let timestamp := link.timestamp + delta
  let (difference, window) ← readDifference link.window
  let bits := link.bits ^^^ difference
  return (⟨timestamp, ⟨bits⟩⟩, ⟨timestamp, delta, bits, window⟩)

/-- Reads the point in turn, and the link behind it. -/
def readPoint (decoder : BlockDecoder) : Reading (Point × Link) :=
  if decoder.decoded = 0 then do
    let point ← readFirst
    return (point, .ofFirst point)
  else
    readNext decoder.link

/-- What one step of a decoder yields. -/
inductive Step where
  /-- There is nothing more to read. -/
  | finished
  /-- A point was read. -/
  | read (point : Point) (next : BlockDecoder)
  /-- The bits are no point. -/
  | broken (cause : Malformation) (next : BlockDecoder)
  deriving Inhabited

/-- Reads one point. -/
def step (decoder : BlockDecoder) : Step :=
  if decoder.failed || decoder.count ≤ decoder.decoded then
    .finished
  else
    match decoder.readPoint decoder.reader with
    | .ok ((point, link), reader) =>
        .read point { decoder with reader := reader, decoded := decoder.decoded + 1, link := link }
    | .error cause => .broken cause { decoder with failed := true }

/-- A point that was read is one point less to read. -/
theorem remaining_of_step_read {decoder next : BlockDecoder} {point : Point}
    (stepped : decoder.step = .read point next) : next.remaining < decoder.remaining := by
  unfold step at stepped
  split at stepped
  · cases stepped
  case _ more =>
    simp only [Bool.or_eq_true, decide_eq_true_eq, not_or, Nat.not_le] at more
    split at stepped
    · cases stepped
      simp only [remaining]
      omega
    · cases stepped

/-- The points not yet read, unless the bits are broken. -/
def toPoints (decoder : BlockDecoder) : Except Failure (List Point) :=
  match _stepped : decoder.step with
  | .finished => .ok []
  | .broken cause _ => .error (.malformed cause)
  | .read point next => next.toPoints.map (point :: ·)
termination_by decoder.remaining
decreasing_by exact remaining_of_step_read ‹_›

end BlockDecoder

/-- The points of a block, unless its bits are broken. -/
def Block.toPoints (block : Block) : Except Failure (List Point) :=
  (BlockDecoder.ofBlock block).toPoints

end TimeSeries
