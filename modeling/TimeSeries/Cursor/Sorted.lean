import TimeSeries.Cursor.Basic

/-!
# Sorted entries

The bottom of every stack of cursors is a list of entries in the order of their keys; entries of one
key stay in the order in which they were given.  The cursor stands on the first entry that is not
before the sought range, and its top is hidden once it lies behind the range.
-/

set_option autoImplicit false

namespace TimeSeries

/-- A cursor over sorted entries. -/
structure SortedEntries where
  /-- All entries, in the order of their keys. -/
  entries : List Entry
  /-- The entries from where the cursor stands. -/
  rest : List Entry
  range : KeyRange
  deriving DecidableEq, Repr, Inhabited

namespace SortedEntries

/-- The order by keys. -/
def precedes (first second : Entry) : Bool :=
  (compare first.key second.key).isLE

/-- Entries in any order. -/
def ofList (entries : List Entry) : SortedEntries :=
  let sorted := entries.mergeSort precedes
  ⟨sorted, sorted, .all⟩

/-- The entries of a map. -/
def ofMap (map : SortedMap Key Bytes) : SortedEntries :=
  let entries := map.toList.map fun pair => ⟨pair.1, pair.2⟩
  ⟨entries, entries, .all⟩

/-- The number of all entries. -/
def size (cursor : SortedEntries) : Nat := cursor.entries.length

/-- The entry the cursor stands on, unless it lies behind the range. -/
def top (cursor : SortedEntries) : Option Entry :=
  cursor.rest.head?.filter fun entry => !cursor.range.stopsBefore entry.key

instance : Cursor SortedEntries where
  top := top
  next cursor := ({ cursor with rest := cursor.rest.tail }, none)
  seek range cursor :=
    ({ cursor with
        rest := cursor.entries.dropWhile fun entry => range.startsAfter entry.key
        range := range }, none)
  progress := .ofSize fun cursor => cursor.rest.length
  next_beyond cursor here := by
    obtain ⟨entries, rest, range⟩ := cursor
    cases rest with
    | nil => cases here
    | cons entry rest => exact Nat.lt_succ_self _

end SortedEntries

end TimeSeries
