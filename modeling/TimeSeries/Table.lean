import TimeSeries.Cursor.Combined
import TimeSeries.Cursor.Expanded
import TimeSeries.Cursor.Retained
import TimeSeries.Cursor.Sorted

/-!
# Tables

A table is a map from keys to values.  A sample is put under each of its entries, and what is read
are samples again: packed runs are taken apart first and expired points left out then, so retention
is judged point by point.

Compaction reads a table through the same layers and packs what is retained, window by window.
It happens as a whole or not at all: a failure on the way leaves the table as it was.
-/

set_option autoImplicit false

namespace TimeSeries

/-- A table of entries. -/
structure Table where
  entries : SortedMap Key Bytes
  /-- The number of bytes ever put into the table. -/
  written : Nat
  deriving DecidableEq, Repr, Inhabited

/-- What a compaction did. -/
structure CompactionReport where
  /-- The number of entries before. -/
  read : Nat
  /-- The number of entries that came of them. -/
  written : Nat
  /-- The number of keys that are no longer there. -/
  removed : Nat
  deriving DecidableEq, Repr, Inhabited

/-- The size of an entry in bytes. -/
def Entry.size (entry : Entry) : Nat :=
  entry.key.row.length + entry.key.family.utf8ByteSize + entry.key.qualifier.utf8ByteSize
    + entry.key.visibility.utf8ByteSize + 8 + entry.value.length

namespace Table

/-- A table without entries. -/
def empty : Table := ⟨.empty, 0⟩

/-- The number of entries. -/
def size (table : Table) : Nat := table.entries.size

/-- Puts an entry, in place of one under the same key. -/
def insert (table : Table) (entry : Entry) : Table :=
  ⟨table.entries.insert entry.key entry.value, table.written + entry.size⟩

/-- Puts every entry of a sample. -/
def put (table : Table) (sample : Sample) : Table :=
  sample.toEntries.foldl insert table

/-- The entries in the order of their keys. -/
def snapshot (table : Table) : SortedEntries := .ofMap table.entries

/-- The points that are retained, each as an entry with a single value. -/
def scanner (table : Table) (filter : RetentionFilter) : Retained (Expanded SortedEntries) :=
  ⟨.above table.snapshot, filter⟩

/-- The samples of a metric within a span of time, both ends included: one for each series and
timestamp, ordered by these. -/
def read (table : Table) (metric : String) (start stop : Timestamp) (filter : RetentionFilter) :
    Except Failure (List Sample) := do
  let points ← Cursor.gatherWithin (.between metric start stop)
    (fun (points : SortedMap (Series × Timestamp) Binary64) entry => do
      let sample ← entry.toSample
      return points.insert (sample.series, sample.point.timestamp) sample.point.value)
    .empty (table.scanner filter)
  return points.toList.map fun ((series, timestamp), value) => ⟨series, ⟨timestamp, value⟩⟩

/-- What the retained points of a table are packed to. -/
def packed (table : Table) (filter : RetentionFilter) (window : Window) :
    Except Failure (SortedMap Key Bytes) :=
  Cursor.gatherWithin .all
    (fun output entry => .ok (output.insert entry.key entry.value))
    .empty (Combined.above .pack window (table.scanner filter))

/-- Drops what is no longer retained and packs the rest. -/
def compact (table : Table) (filter : RetentionFilter) (window : Window) :
    Except Failure (Table × CompactionReport) := do
  let output ← table.packed filter window
  let kept := table.entries.filter fun key _ => output.contains key
  let entries := output.toList.foldl (fun entries pair => entries.insert pair.1 pair.2) kept
  return ({ table with entries := entries },
    ⟨table.size, output.size, table.size - kept.size⟩)

end Table

end TimeSeries
