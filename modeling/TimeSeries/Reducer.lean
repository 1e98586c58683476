import TimeSeries.Aggregator.Accumulator
import TimeSeries.Entry

/-!
# Reducing the entries of a window

A reducer makes one value of the entries that one series has in one window; the value is stored
under the first of their keys.  `Reducer.pack` keeps every point in a packed run, and
`Reducer.aggregate` leaves only the value of an aggregator.

Entries that cannot share a packed run, because they cannot be read or their points do not follow
each other in time, are incompatible: they are to be left as they are.
-/

set_option autoImplicit false

namespace TimeSeries

/-- The points of an entry: those of its packed run, or the single one at the time of its key. -/
def Entry.toPoints (entry : Entry) : Except Failure (List Point) :=
  if isPacked entry.value then
    unpackPoints entry.value
  else
    (Binary64.ofBytes entry.value).map fun value => [⟨entry.key.timestamp, value⟩]

/-- What makes one value of the entries of a series in a window. -/
abbrev Reducer := Key → List Entry → Except Failure Bytes

namespace Reducer

/-! ## Packing -/

/-- The points of entries that have the visibility of a key. -/
def pointsUnder (key : Key) : List Entry → Except Failure (List Point)
  | [] => .ok []
  | entry :: rest => do
      if entry.key.visibility ≠ key.visibility then
        throw (.incompatible (.visibility entry.key.visibility key.visibility))
      let points ← entry.toPoints
      let others ← pointsUnder key rest
      return points ++ others

/-- A malformed entry is one that cannot be merged. -/
def unmergeable : Failure → Failure
  | .malformed cause => .incompatible (.malformed cause)
  | failure => failure

/-- The first timestamp that does not follow its predecessor, and that predecessor. -/
def disorder? : List Point → Option (Timestamp × Timestamp)
  | first :: second :: rest =>
      if second.timestamp ≤ first.timestamp then
        some (second.timestamp, first.timestamp)
      else
        disorder? (second :: rest)
  | _ => none

/-- The points of several entries in a packed run; a single entry is kept as it is. -/
def pack : Reducer := fun key entries =>
  match entries with
  | [only] => .ok only.value
  | entries =>
      match pointsUnder key entries with
      | .error failure => .error (unmergeable failure)
      | .ok points =>
          match disorder? points with
          | some (timestamp, previous) => .error (.incompatible (.order timestamp previous))
          | none => .ok (packPoints points)

/-! ## Aggregating -/

/-- The points of some entries in turn. -/
def allPoints : List Entry → Except Failure (List Point)
  | [] => .ok []
  | entry :: rest => do
      let points ← entry.toPoints
      let others ← allPoints rest
      return points ++ others

/-- The value of an aggregator for the points of all entries; it needs one point at least. -/
def aggregate (aggregator : Aggregator) : Reducer := fun key entries => do
  let points ← allPoints entries
  match aggregator.aggregate points with
  | some value => return value.toBytes
  | none => throw (.query (.emptyBucket key.label))

end Reducer

end TimeSeries
