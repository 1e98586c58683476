import TimeSeries.Block.Basic
import TimeSeries.Failure

/-!
# Writing blocks

A `BlockEncoder` takes points in time order; equal timestamps are in order.  What it has taken can
be had as a block at any moment, and it goes on taking points until it is closed.
-/

set_option autoImplicit false

namespace TimeSeries

/-- A block being written. -/
structure BlockEncoder where
  writer : BitWriter
  count : Nat
  closed : Bool
  first : Timestamp
  link : Link
  deriving Inhabited

namespace BlockEncoder

/-- An open block without points. -/
def empty : BlockEncoder := ⟨.empty, 0, false, 0, ⟨0, 0, 0, .initial⟩⟩

def isEmpty (encoder : BlockEncoder) : Bool := encoder.count == 0

/-- The timestamp of the first point. -/
def first? (encoder : BlockEncoder) : Option Timestamp :=
  if encoder.isEmpty then none else some encoder.first

/-- The timestamp of the last point. -/
def last? (encoder : BlockEncoder) : Option Timestamp :=
  if encoder.isEmpty then none else some encoder.link.timestamp

/-- The number of bytes written. -/
def size (encoder : BlockEncoder) : Nat := encoder.writer.size

/-- Writes fields one after the other. -/
def writeFields (writer : BitWriter) (fields : List BitField) : BitWriter :=
  fields.foldl (fun writer field => writer.write field.width field.value) writer

/-- Takes a point, unless the block is closed or the point lies before the last one. -/
def add (encoder : BlockEncoder) (point : Point) : Except Failure BlockEncoder :=
  if encoder.closed then
    .error .closed
  else if encoder.isEmpty then
    .ok { encoder with
      writer := writeFields encoder.writer (Link.firstFields point)
      count := 1
      first := point.timestamp
      link := .ofFirst point }
  else if point.timestamp < encoder.link.timestamp then
    .error (.outOfOrder point.timestamp encoder.link.timestamp)
  else
    .ok { encoder with
      writer := writeFields encoder.writer (encoder.link.fields point)
      count := encoder.count + 1
      link := encoder.link.follow point }

/-- No more points are taken. -/
def close (encoder : BlockEncoder) : BlockEncoder := { encoder with closed := true }

/-- The points taken so far. -/
def toBlock (encoder : BlockEncoder) : Block :=
  ⟨encoder.writer.toBytes, encoder.count, encoder.first, encoder.link.timestamp⟩

end BlockEncoder

end TimeSeries
