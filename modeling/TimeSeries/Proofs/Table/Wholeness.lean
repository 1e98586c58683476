import Mathlib.Data.Set.List
import TimeSeries.Proofs.Cursor.Surfacing
import TimeSeries.Proofs.Table.History

/-!
# Compaction is all or nothing

A table may hold anything: rows that name no metric, and values that are neither a number nor a run
of points.  A compaction reads all of it before it writes, and of the entries that cannot be taken
apart to their ends (`Entry.Garbled`) none goes unnoticed.  If there is one, the compaction fails and
the table stays as it was.  Otherwise it succeeds, whatever the filter retains and however the rest is
packed, and its report counts what the table held, what it holds and the keys that are gone.

Main statement: `Table.compact_whole`.
-/

set_option autoImplicit false

namespace TimeSeries

/-! ## Entries that cannot be taken apart -/

/-- The value is not a single number, and it is no run of points: its length is not that of some
points, or their timestamps do not increase, or there are points in a row that names no metric. -/
def Entry.Garbled (entry : Entry) : Prop :=
  entry.value.length ≠ 8
    ∧ (entry.value.length % 16 ≠ 0
      ∨ ¬ StrictlyAscending (pointsIn entry.value)
      ∨ entry.value ≠ [] ∧ ∃ failure, Row.decode entry.key.row = .error failure)

/-- An entry is read to its end exactly if it is not garbled. -/
theorem Entry.readout_iff (entry : Entry) :
    (∀ outcome ∈ entry.readout, ∃ part, outcome = .ok part) ↔ ¬ entry.Garbled := by
  by_cases single : entry.value.length = 8
  · have unpacked : isPacked entry.value = false := by rw [isPacked, single]; rfl
    simp [readout, unpacked, Garbled, single]
  have packed : isPacked entry.value = true := bne_iff_ne.mpr single
  by_cases whole : entry.value.length % 16 = 0
  · rw [readout, if_pos packed, if_pos whole, Garbled]
    cases decoded : Row.decode entry.key.row with
    | ok named =>
        have metric : entry.key.metric = .ok named.1 := by
          rw [Key.metric, Row.metric, decoded]
          rfl
        have moved : ∀ (outcome : Except Failure Point) (move : Point → Entry),
            (∃ part, outcome.map move = .ok part) ↔ ∃ point, outcome = .ok point := by
          intro outcome move
          cases outcome <;> simp [Except.map]
        simp only [metric, List.forall_mem_map, moved, inOrder_iff]
        simp [single, whole]
    | error failure =>
        have metric : entry.key.metric = .error failure := by
          rw [Key.metric, Row.metric, decoded]
          rfl
        simp only [metric, pointsIn_eq_nil_iff whole]
        by_cases empty : entry.value = []
        · simp [empty, pointsIn_of_spent, takePoint?, Bytes.takeWord?, StrictlyAscending]
        · simp [empty, single]
  · rw [readout, if_pos packed, if_neg whole, Garbled]
    simp [single, whole]

/-! ## Compacting -/

namespace Table

/-- What can be packed of a table can be packed to its end exactly if no entry is garbled. -/
theorem packed_eq_ok_iff (table : Table) (filter : RetentionFilter) (window : Window) :
    (∃ output, table.packed filter window = .ok output)
      ↔ ∀ entry ∈ table.stored, ¬ entry.Garbled := by
  have under : Cursor.Finds table.snapshot KeyRange.all.widened table.stored :=
    SortedEntries.finds_all table.snapshot
  have outcomes : (∃ parts : List Entry, table.stored.flatMap (Entry.outcomes .all) = parts.map .ok)
      ↔ ∀ entry ∈ table.stored, ¬ entry.Garbled := by
    simp only [← Entry.readout_iff, ← Entry.outcomes_all]
    rw [← List.forall_mem_flatMap]
    have range := Set.ext_iff.mp (Set.range_list_map (Except.ok : Entry → Except Failure Entry))
      (table.stored.flatMap (Entry.outcomes .all))
    simpa only [Set.mem_range, Set.mem_ofPred_eq, eq_comm] using range
  rw [← outcomes, ← Combined.exists_finds_packed_iff under filter window]
  constructor
  · rintro ⟨output, packed⟩
    exact Cursor.exists_finds_of_gatherWithin packed
  · rintro ⟨_, found⟩
    obtain ⟨entries, scanned⟩ := Combined.exists_finds_below found
    exact ⟨_, packed_of_finds scanned (Combined.smooth_pack window entries)⟩

/-- What a compaction reports, told by the tables before and after it. -/
structure Reported (before after : Table) (report : CompactionReport) : Prop where
  read : report.read = before.size
  written : report.written = after.size
  removed : report.removed
    = (before.entries.keys.filter fun key => !after.entries.contains key).length

theorem reported_of_packed {table : Table} {filter : RetentionFilter} {window : Window}
    {output : SortedMap Key Bytes} (packed : table.packed filter window = .ok output) :
    ∃ compacted report, table.compact filter window = .ok (compacted, report)
      ∧ Reported table compacted report := by
  refine ⟨_, _, compact_eq_of_packed packed, rfl, rfl, ?_⟩
  have all := SortedMap.size_filter_add (fun key => output.contains key) table.entries
  rw [size, ← all, Nat.add_sub_cancel_left]

/-- **A compaction is all or nothing.**  It fails exactly if some entry is garbled, and leaves the
table as it was then.  Otherwise its report tells what became of the table. -/
theorem compact_whole (table : Table) (filter : RetentionFilter) (window : Window) :
    ((∃ failure, table.compact filter window = .error failure)
        ↔ ∃ entry ∈ table.stored, entry.Garbled)
      ∧ match table.compact filter window with
        | .error _ => (table.next (.compact filter window)).entries = table.entries
        | .ok (compacted, report) =>
            table.next (.compact filter window) = compacted ∧ Reported table compacted report := by
  have readable := packed_eq_ok_iff table filter window
  rw [Table.next]
  cases packed : table.packed filter window with
  | error failure =>
      have failed : table.compact filter window = .error failure := by
        rw [compact, packed]
        rfl
      rw [failed]
      refine ⟨iff_of_true ⟨failure, rfl⟩ ?_, rfl⟩
      rw [packed] at readable
      by_contra fine
      obtain ⟨output, same⟩ := readable.mpr fun entry stored garbled =>
        fine ⟨entry, stored, garbled⟩
      cases same
  | ok output =>
      obtain ⟨compacted, report, done, reported⟩ := reported_of_packed packed
      rw [done]
      refine ⟨iff_of_false ?_ ?_, rfl, reported⟩
      · rintro ⟨_, same⟩
        cases same
      · rintro ⟨entry, stored, garbled⟩
        exact readable.mp ⟨output, packed⟩ entry stored garbled

end Table

end TimeSeries
