import TimeSeries.Failure
import TimeSeries.Series

/-!
# Values as bytes

The value of an entry is either one number in eight bytes or a packed run of points, sixteen bytes
each: the timestamp and the number, both most significant byte first.  The timestamps of a packed
run strictly increase.

A packed run is read one point at a time by a `PackedReader`.  A length that is no multiple of
sixteen is noticed before the first point; a timestamp that does not increase is noticed when it is
reached, and nothing is read after it.
-/

set_option autoImplicit false

namespace TimeSeries

/-! ## Single values -/

/-- A number in eight bytes. -/
def Binary64.toBytes (value : Binary64) : Bytes :=
  Bytes.ofWord value.bits

/-- The number in eight bytes. -/
def Binary64.ofBytes (bytes : Bytes) : Except Failure Binary64 :=
  if bytes.length = 8 then
    .ok ⟨UInt64.ofNat (Bytes.toNatBE bytes)⟩
  else
    .error (.malformed (.valueLength bytes.length))

/-- A value that is not one number is a packed run. -/
def isPacked (value : Bytes) : Bool :=
  value.length != 8

/-! ## Packed runs -/

/-- A point in sixteen bytes. -/
def Point.toBytes (point : Point) : Bytes :=
  Bytes.ofWord point.timestamp.toUInt64 ++ point.value.toBytes

/-- Points in a packed run. -/
def packPoints (points : List Point) : Bytes :=
  points.flatMap Point.toBytes

/-- The first point of some bytes and the bytes after it. -/
def takePoint? (bytes : Bytes) : Option (Point × Bytes) := do
  let (time, rest) ← Bytes.takeWord? bytes
  let (value, rest) ← Bytes.takeWord? rest
  return (⟨time.toInt64, ⟨value⟩⟩, rest)

/-- A packed run that is being read. -/
structure PackedReader where
  rest : Bytes
  previous : Option Timestamp
  failed : Bool
  deriving DecidableEq, Repr

namespace PackedReader

/-- A reader at the start of a packed run. -/
def ofBytes (bytes : Bytes) : Except Failure PackedReader :=
  if bytes.length % 16 = 0 then
    .ok ⟨bytes, none, false⟩
  else
    .error (.malformed (.packedLength bytes.length))

/-- The number of points not yet read. -/
def remaining (reader : PackedReader) : Nat := reader.rest.length / 16

/-- What reading one point yields. -/
inductive Step where
  /-- There is nothing more to read. -/
  | finished
  /-- A point was read. -/
  | read (point : Point) (next : PackedReader)
  /-- The point in turn is not behind its predecessor. -/
  | broken (cause : Malformation) (next : PackedReader)

/-- Reads one point. -/
def step (reader : PackedReader) : Step :=
  if reader.failed then
    .finished
  else
    match takePoint? reader.rest with
    | none => .finished
    | some (point, rest) =>
        match reader.previous with
        | none => .read point ⟨rest, some point.timestamp, false⟩
        | some previous =>
            if point.timestamp ≤ previous then
              .broken (.packedOrder point.timestamp previous) ⟨rest, some previous, true⟩
            else
              .read point ⟨rest, some point.timestamp, false⟩

theorem length_of_takePoint? {bytes rest : Bytes} {point : Point}
    (taken : takePoint? bytes = some (point, rest)) : bytes.length = rest.length + 16 := by
  simp only [takePoint?, Bytes.takeWord?, Option.bind_eq_bind] at taken
  split at taken <;> simp only [Option.bind_some, Option.bind_none] at taken
  · split at taken <;> simp only [Option.bind_some, Option.bind_none] at taken
    · cases taken
      simp only [List.length_drop] at *
      omega
    · cases taken
  · cases taken

theorem length_of_step_read {reader next : PackedReader} {point : Point}
    (stepped : reader.step = .read point next) : next.rest.length < reader.rest.length := by
  unfold step at stepped
  split at stepped
  · cases stepped
  · split at stepped
    · cases stepped
    case _ taken =>
      have := length_of_takePoint? taken
      split at stepped
      · cases stepped
        simp only
        omega
      · split at stepped
        · cases stepped
        · cases stepped
          simp only
          omega

/-- The points not yet read, unless one of them is out of order. -/
def toPoints (reader : PackedReader) : Except Failure (List Point) :=
  match _stepped : reader.step with
  | .finished => .ok []
  | .broken cause _ => .error (.malformed cause)
  | .read point next => next.toPoints.map (point :: ·)
termination_by reader.rest.length
decreasing_by exact length_of_step_read ‹_›

end PackedReader

/-- The points of a packed run. -/
def unpackPoints (bytes : Bytes) : Except Failure (List Point) := do
  let reader ← PackedReader.ofBytes bytes
  reader.toPoints

end TimeSeries
