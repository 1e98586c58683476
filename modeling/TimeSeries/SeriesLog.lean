import TimeSeries.Block.Decoder
import TimeSeries.Block.Encoder

/-!
# The log of a series

The points of one series, in time order, as compressed blocks: archived ones, oldest first, and at
most one that is open and takes points.  The open block is archived when it is full or when asked to.

No point may be older than the newest the log has ever taken, whether it still holds that one or
not; equal timestamps are in order.  Old points are dropped by whole archived blocks.
-/

set_option autoImplicit false

namespace TimeSeries

/-- The sum of some counts. -/
def total (counts : List Nat) : Nat := counts.foldr (· + ·) 0

/-- The points of a series. -/
structure SeriesLog where
  /-- The oldest block comes first. -/
  archived : List Block
  current : Option BlockEncoder
  /-- The newest timestamp ever taken. -/
  newest : Option Timestamp
  /-- The number of points with which a block is full; zero means that none is. -/
  blockLimit : Nat
  deriving Inhabited

namespace SeriesLog

/-- A log without points. -/
def empty (blockLimit : Nat) : SeriesLog := ⟨[], none, none, blockLimit⟩

/-- The open block, if it holds points. -/
def openBlock? (log : SeriesLog) : Option Block :=
  match log.current with
  | some encoder => if encoder.isEmpty then none else some encoder.toBlock
  | none => none

/-- Archives the open block. -/
def archive (log : SeriesLog) : SeriesLog :=
  { log with archived := log.archived ++ log.openBlock?.toList, current := none }

/-- There is something to be archived. -/
def hasOpenPoints (log : SeriesLog) : Bool := log.openBlock?.isSome

/-- The open block is full. -/
def isFull (log : SeriesLog) : Bool :=
  match log.current with
  | some encoder => 0 < log.blockLimit && log.blockLimit ≤ encoder.count
  | none => false

/-- Takes a point that is not older than the newest one. -/
def append (log : SeriesLog) (point : Point) : Except Failure SeriesLog := do
  let log := if log.isFull then log.archive else log
  let encoder ← (log.current.getD .empty).add point
  return { log with current := some encoder, newest := some point.timestamp }

/-- Takes a point, unless it is out of order. -/
def add (log : SeriesLog) (point : Point) : Except Failure SeriesLog :=
  match log.newest with
  | some newest =>
      if point.timestamp < newest then .error (.outOfOrder point.timestamp newest)
      else log.append point
  | none => log.append point

/-- Every block with points, oldest first. -/
def blocks (log : SeriesLog) : List Block := log.archived ++ log.openBlock?.toList

/-- The blocks that may hold points of a span of time. -/
def blocksWithin (log : SeriesLog) (start stop : Timestamp) : List Block :=
  log.blocks.filter fun block => block.overlaps start stop

/-- Drops every archived block whose newest point is older than a length of time before now. -/
def ageOff (log : SeriesLog) (now retention : Timestamp) : SeriesLog :=
  let cutoff := now.saturatingSub retention
  { log with archived := log.archived.filter fun block => cutoff ≤ block.last }

/-- The oldest timestamp held. -/
def oldest? (log : SeriesLog) : Option Timestamp :=
  ((log.blocks.filter fun block => !block.isEmpty).map Block.first).min?

/-- The number of points held. -/
def size (log : SeriesLog) : Nat := total (log.blocks.map Block.count)

def isEmpty (log : SeriesLog) : Bool := log.size == 0

/-- The number of bytes of all blocks. -/
def byteSize (log : SeriesLog) : Nat := total (log.blocks.map fun block => block.data.length)

end SeriesLog

end TimeSeries
