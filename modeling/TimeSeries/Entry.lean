import TimeSeries.Column
import TimeSeries.Packed
import TimeSeries.Row

/-!
# Entries

A store holds entries: a key with the bytes of a value.  The key names a row (a metric at a time),
a column family and a column qualifier that hold tags, a visibility and a timestamp, and keys are
ordered by these five in turn.

A sample is stored under one entry for each of its tags, with that tag as the family and the other
tags as the qualifier, or under a single entry without columns if it has no tags
(`Sample.toEntries`).  Each of these entries names the whole sample (`Entry.toSample`).
-/

set_option autoImplicit false

namespace TimeSeries

/-- What an entry is stored under. -/
structure Key where
  row : Bytes
  family : String
  qualifier : String
  /-- Empty if the entry is for everyone. -/
  visibility : String
  timestamp : Timestamp
  deriving DecidableEq, Repr, Inhabited

/-- A key and the bytes stored under it. -/
structure Entry where
  key : Key
  value : Bytes
  deriving DecidableEq, Repr, Inhabited

namespace Key

/-! ## The order of keys -/

/-- What the order of keys compares, in this order. -/
def rank (key : Key) : Bytes × String × String × String × Timestamp :=
  (key.row, key.family, key.qualifier, key.visibility, key.timestamp)

theorem rank_injective {left right : Key} (same : left.rank = right.rank) : left = right := by
  cases left; cases right
  simpa [rank] using same

instance : Ord Key := ⟨compareOn rank⟩

instance : Std.TransOrd Key := transOrd_on rank

instance : Std.LawfulEqOrd Key := lawfulEqOrd_on rank rank_injective

/-! ## Series and times -/

/-- The least key of a row. -/
def ofRow (row : Bytes) : Key := ⟨row, "", "", "", Timestamp.earliest⟩

/-- The metric that the row names. -/
def metric (key : Key) : Except Failure String := Row.metric key.row

/-- Both rows name a metric, and the same one. -/
def sameMetric (left right : Key) : Bool :=
  match left.metric, right.metric with
  | .ok leftMetric, .ok rightMetric => leftMetric = rightMetric
  | _, _ => false

/-- The columns and the visibility agree. -/
def sameColumns (left right : Key) : Bool :=
  left.family = right.family && left.qualifier = right.qualifier
    && left.visibility = right.visibility

/-- Both keys belong to one series. -/
def sameSeries (left right : Key) : Bool :=
  left.sameColumns right && left.sameMetric right

/-- The key of the same series at another time, with the row to match. -/
def atTime (key : Key) (timestamp : Timestamp) : Except Failure Key := do
  let metric ← key.metric
  return { key with row := Row.ofPoint metric timestamp, timestamp := timestamp }

/-- The series that the key names. -/
def series (key : Key) : Except Failure Series := do
  let metric ← key.metric
  let family ← Column.split key.family
  let qualifier ← Column.split key.qualifier
  let visibility := if key.visibility.isEmpty then none else some key.visibility
  return ⟨metric, SortedMap.ofList (family ++ qualifier), visibility⟩

/-! ## Keys in messages -/

/-- A byte in a quoted byte string: printable ASCII as it is, the rest escaped. -/
def quotedByte (byte : UInt8) : List Char :=
  if byte = 0 then ['\\', '0']
  else if byte = 9 then ['\\', 't']
  else if byte = 10 then ['\\', 'n']
  else if byte = 13 then ['\\', 'r']
  else if byte = 34 then ['\\', '"']
  else if byte = 92 then ['\\', '\\']
  else if 0x20 ≤ byte ∧ byte ≤ 0x7e then [Char.ofNat byte.toNat]
  else '\\' :: 'x' :: Bytes.hexByte byte

/-- The row as metric and timestamp if it names them, and otherwise its bytes in quotes. -/
def rowLabel (row : Bytes) : String :=
  match Row.decode row with
  | .ok (metric, timestamp) => metric ++ "@" ++ timestamp.text
  | .error _ => "b\"" ++ String.ofList (row.flatMap quotedByte) ++ "\""

/-- The key in one line. -/
def label (key : Key) : String :=
  rowLabel key.row ++ " " ++ key.family ++ ":" ++ key.qualifier ++ " [" ++ key.visibility ++ "] "
    ++ key.timestamp.text

end Key

/-! ## Samples as entries -/

namespace Sample

/-- The key of a sample in a given column. -/
def keyAt (sample : Sample) (family qualifier : String) : Key where
  row := Row.ofPoint sample.series.metric sample.point.timestamp
  family := family
  qualifier := qualifier
  visibility := sample.series.visibility.getD ""
  timestamp := sample.point.timestamp

/-- The entries that hold a sample: one for each tag, or one if there is none. -/
def toEntries (sample : Sample) : List Entry :=
  let value := sample.point.value.toBytes
  let tags := sample.series.tags.toList
  if tags.isEmpty then
    [⟨sample.keyAt "" "", value⟩]
  else
    tags.map fun tag =>
      let others := tags.filter fun other => other.1 != tag.1
      ⟨sample.keyAt (Column.ofTag tag.1 tag.2) (Column.join others), value⟩

end Sample

/-- The sample that an entry with a single value holds. -/
def Entry.toSample (entry : Entry) : Except Failure Sample := do
  let series ← entry.key.series
  let timestamp ← Row.timestamp entry.key.row
  let value ← Binary64.ofBytes entry.value
  return ⟨series, ⟨timestamp, value⟩⟩

end TimeSeries
