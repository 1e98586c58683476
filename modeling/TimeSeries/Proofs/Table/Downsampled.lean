import TimeSeries.Proofs.Buckets.Packed
import TimeSeries.Proofs.Buckets.Pieces
import TimeSeries.Proofs.Table.History

/-!
# Scans with buckets, before and after a compaction

A table that samples are put into holds entries with dates, so a scan of it in buckets presents the
exact partition.  After a compaction the scan goes through the packed entries in turn.  Where a
bucket of a series goes on in the next window, points of other series and earlier windows come in
between, and each part of the bucket is presented by itself: what is presented is still made of the
pieces of the partition, but it is the partition only if the unpacked entries are undivided.  It
always is where the windows of the compaction are parts of buckets or the buckets parts of them.

Main statement: `Table.downsampled_after_compaction`.
-/

set_option autoImplicit false

namespace TimeSeries

/-- Unpacked entries are downsampled to pieces of what their classes were before. -/
theorem Downsampling.cutsUp_unpacked (downsampling : Downsampling) (window : Window)
    {entries : List Entry} (dated : ∀ entry ∈ entries, entry.Dated)
    (ascending : entries.Pairwise fun first second => compare first.key second.key = .lt) :
    downsampling.CutsUp entries
      (Combined.combine (.aggregate downsampling.aggregator) downsampling.window
        ((Combined.combine .pack window entries).flatMap Entry.parts)) := by
  have perm := window.perm_unpacked dated
  obtain ⟨occurs, pieces⟩ := Combined.cutsUp_combine downsampling fun entry member =>
    (dated entry (perm.subset member)).plain
  refine ⟨fun entry member => ?_, fun key => ?_⟩
  · obtain ⟨source, among, same⟩ := occurs entry member
    exact ⟨source, perm.subset among, same⟩
  · rw [← Window.classOf_unpacked dated ascending]
    exact pieces key

namespace Table

open Cursor (Finds)

/-! ## Tables of entries with dates -/

/-- Every entry holds a single value under the time of its row. -/
def Dated (table : Table) : Prop := ∀ entry ∈ table.stored, entry.Dated

/-- The entry of a point of a strand has a date. -/
theorem dated_entryAt {strand : Strand} (free : Row.ZeroFree strand.metric) (point : Point) :
    (strand.entryAt point).Dated :=
  ⟨point.value.length_toBytes, strand.metric, free, Row.decode_ofPoint _ _⟩

theorem Dated.put {table : Table} (dated : table.Dated) {sample : Sample}
    (free : Row.ZeroFree sample.series.metric) : (table.put sample).Dated := by
  intro entry member
  rcases (mem_stored_put table sample entry).mp member with ⟨strand, among, rfl⟩ | ⟨old, _⟩
  · exact dated_entryAt (Series.metric_of_mem_strands among ▸ free) sample.point
  · exact dated entry old

theorem dated_foldl {table : Table} (dated : table.Dated) {samples : List Sample}
    (free : ∀ sample ∈ samples, Row.ZeroFree sample.series.metric) :
    (samples.foldl Table.put table).Dated := by
  induction samples generalizing table with
  | nil => exact dated
  | cons sample samples ih =>
      obtain ⟨here, others⟩ := List.forall_mem_cons.mp free
      exact ih (dated.put here) others

/-- Whatever is put, if no metric has zeros, the table holds entries with dates. -/
theorem dated_of_puts {samples : List Sample}
    (free : ∀ sample ∈ samples, Row.ZeroFree sample.series.metric) :
    (samples.foldl Table.put empty).Dated :=
  dated_foldl (fun entry member => by cases member) free

/-! ## Scans -/

/-- Scanning a table of valid entries presents its stream, as long as everything is retained. -/
theorem finds_stream {table : Table} (valid : ∀ entry ∈ table.stored, entry.Valid)
    {filter : RetentionFilter} (keepsAll : filter.KeepsAll) :
    Finds (table.scanner filter) .all table.stream := by
  have expanded := expands_parts valid (SortedEntries.finds_all table.snapshot)
  have retained := Retained.finds
    (show Finds (table.scanner filter).below .all table.stream from expanded)
  rwa [List.filter_eq_self.mpr fun entry _ => keepsAll.accepts entry.key] at retained

/-- A scan in buckets presents what the stream is combined to. -/
theorem finds_downsampled {table : Table} (valid : ∀ entry ∈ table.stored, entry.Valid)
    (plain : ∀ entry ∈ table.stream, entry.Plain) {filter : RetentionFilter}
    (keepsAll : filter.KeepsAll) (downsampling : Downsampling) :
    Finds (Combined.downsampled downsampling (table.scanner filter)) .all
      (Combined.combine (.aggregate downsampling.aggregator) downsampling.window table.stream) :=
  Combined.finds (finds_stream valid keepsAll) (Combined.smooth_of_plain _ _ plain)

theorem Dated.stream_eq {table : Table} (dated : table.Dated) : table.stream = table.stored :=
  flatMap_parts_of_alone fun entry member => (dated entry member).parts

theorem Dated.valid_pack {table : Table} (dated : table.Dated) (window : Window) :
    ∀ entry ∈ Combined.combine .pack window table.stored, entry.Valid :=
  (Combined.repacks_combine window fun entry member => (dated entry member).valid).2.valid

/-- A compaction stores what the entries are packed to. -/
theorem Dated.exists_compact {table : Table} (dated : table.Dated) {filter : RetentionFilter}
    (keepsAll : filter.KeepsAll) (window : Window) :
    ∃ compacted report, table.compact filter window = .ok (compacted, report)
      ∧ compacted.stored = Combined.combine .pack window table.stored := by
  have valid : ∀ entry ∈ table.stored, entry.Valid := fun entry member =>
    (dated entry member).valid
  have packed := packed_of_finds (dated.stream_eq ▸ finds_stream valid keepsAll)
    (Combined.repacks_combine window valid).1
  have ascending : Ascending ((Combined.combine .pack window table.stored).map
      fun entry => (entry.key, entry.value)) :=
    List.pairwise_map.mpr (Combined.ascending_pack dated (sorted_stored table))
  rw [SortedMap.ofList_toList ⟨_, ascending⟩] at packed
  obtain ⟨report, done⟩ := compact_of_packed packed
  refine ⟨_, report, done, ?_⟩
  rw [stored, List.map_map]
  exact List.map_id _

/-- **A compaction that drops nothing, seen in buckets**, after any puts and with any windows.
Before it, a scan in buckets presents the partition of the stored entries.  After it, the scan
presents the values of consecutive pieces of the buckets.  These are the entries of before exactly
if no bucket of a series has two, which is to say that the unpacked entries are undivided; and they
are where the windows of one grid are parts of those of the other. -/
theorem downsampled_after_compaction {samples : List Sample}
    (free : ∀ sample ∈ samples, Row.ZeroFree sample.series.metric)
    {filter : RetentionFilter} (keepsAll : filter.KeepsAll) (window : Window)
    (downsampling : Downsampling) :
    let table := samples.foldl Table.put empty
    ∃ before compacted report later,
      Finds (Combined.downsampled downsampling (table.scanner filter)) .all before
      ∧ downsampling.Partitions table.stored before
      ∧ table.compact filter window = .ok (compacted, report)
      ∧ Finds (Combined.downsampled downsampling (compacted.scanner filter)) .all later
      ∧ downsampling.CutsUp table.stored later
      ∧ ((∀ entry, entry ∈ later ↔ entry ∈ before)
        ↔ ∀ key, (downsampling.window.classOf key later).length ≤ 1)
      ∧ ((∀ key, (downsampling.window.classOf key later).length ≤ 1)
        ↔ downsampling.window.Undivided compacted.stream)
      ∧ (window.Refines downsampling.window ∨ downsampling.window.Refines window →
        ∀ entry, entry ∈ later ↔ entry ∈ before) := by
  intro table
  have dated : table.Dated := dated_of_puts free
  have ascending := sorted_stored table
  have named : ∀ entry ∈ table.stored, ∃ metric, entry.key.metric = .ok metric :=
    fun entry member => (dated entry member).plain.named
  obtain ⟨compacted, report, done, stored⟩ := dated.exists_compact keepsAll window
  have stream : compacted.stream
      = (Combined.combine .pack window table.stored).flatMap Entry.parts := by
    rw [Table.stream, stored]
  have plain : ∀ entry ∈ compacted.stream, entry.Plain := fun entry member =>
    (dated entry ((window.perm_unpacked dated).subset (stream ▸ member))).plain
  have scanned := finds_downsampled (fun entry member => (dated entry member).valid)
    (dated.stream_eq ▸ fun entry member => (dated entry member).plain) keepsAll downsampling
  have rescanned := finds_downsampled (stored ▸ dated.valid_pack window) plain keepsAll downsampling
  rw [dated.stream_eq] at scanned
  have partitions := Combined.partitions_combine downsampling
    (ascending.imp Ordering.isLE_of_eq_lt) dated
  have cutsUp := stream ▸ downsampling.cutsUp_unpacked window dated ascending
  have same := cutsUp.same_iff_once partitions named ascending
  have once := Combined.once_iff_undivided downsampling plain
  refine ⟨_, compacted, report, _, scanned, partitions, done, rescanned, cutsUp, same, once,
    fun nested => same.mpr (once.mpr ?_)⟩
  rw [stream]
  exact Window.undivided_unpacked dated ascending nested

/-- Packed two by two and scanned three by three, a series has two entries in the bucket from three,
since a point of another series at two comes in between. -/
theorem downsampled_after_compaction_of_turns :
    let series (host : String) : Series := ⟨"m", .ofList [("h", host)], none⟩
    let samples : List Sample := [⟨series "a", ⟨2, ⟨1⟩⟩⟩, ⟨series "a", ⟨3, ⟨2⟩⟩⟩,
      ⟨series "a", ⟨4, ⟨3⟩⟩⟩, ⟨series "b", ⟨2, ⟨4⟩⟩⟩]
    let table := samples.foldl Table.put empty
    let filter : RetentionFilter := ⟨.ofDefault Timestamp.latest, 0⟩
    let downsampling : Downsampling := ⟨3, .sum, by decide⟩
    ∃ before compacted report later,
      Finds (Combined.downsampled downsampling (table.scanner filter)) .all before
      ∧ table.compact filter (.aligned 2 (by decide)) = .ok (compacted, report)
      ∧ Finds (Combined.downsampled downsampling (compacted.scanner filter)) .all later
      ∧ ¬ ∀ entry, entry ∈ later ↔ entry ∈ before := by
  intro series samples table filter downsampling
  have free : ∀ sample ∈ samples, Row.ZeroFree sample.series.metric := by
    have each : Row.ZeroFree "m" := by rw [Row.ZeroFree]; decide
    simp [samples, series, each]
  have keepsAll := RetentionFilter.keepsAll_latest 0
  obtain ⟨before, compacted, report, later, scanned, _, done, rescanned, _, same, once, _⟩ :=
    downsampled_after_compaction free keepsAll (.aligned 2 (by decide)) downsampling
  refine ⟨before, compacted, report, later, scanned, done, rescanned, fun equal => ?_⟩
  obtain ⟨_, _, again, stored⟩ :=
    (dated_of_puts free).exists_compact keepsAll (.aligned 2 (by decide))
  cases done.symm.trans again
  let strand (host : String) : Strand := ⟨"m", host, "", ""⟩
  have held : table.stored = [(strand "h=a").entryAt ⟨2, ⟨1⟩⟩, (strand "h=b").entryAt ⟨2, ⟨4⟩⟩,
      (strand "h=a").entryAt ⟨3, ⟨2⟩⟩, (strand "h=a").entryAt ⟨4, ⟨3⟩⟩] := by
    decide +kernel
  have runs : (Window.aligned 2 (by decide)).cut table.stored
      = [[(strand "h=a").entryAt ⟨2, ⟨1⟩⟩, (strand "h=b").entryAt ⟨2, ⟨4⟩⟩,
          (strand "h=a").entryAt ⟨3, ⟨2⟩⟩], [(strand "h=a").entryAt ⟨4, ⟨3⟩⟩]] := by
    simp only [held, Window.cut]
    decide +kernel
  have stream : compacted.stream
      = [(strand "h=a").entryAt ⟨2, ⟨1⟩⟩, (strand "h=a").entryAt ⟨3, ⟨2⟩⟩,
        (strand "h=b").entryAt ⟨2, ⟨4⟩⟩, (strand "h=a").entryAt ⟨4, ⟨3⟩⟩] := by
    have ordered : ∀ run ∈ (Window.aligned 2 (by decide)).cut table.stored, (reduceRun .pack run).1
        = ((splitBySeries run).values.map (reducePart .pack)).flatMap Prod.fst := by
      simp only [runs, List.forall_mem_cons]
      exact ⟨List.mergeSort_of_pairwise (by decide +kernel),
        List.mergeSort_of_pairwise (by decide +kernel), by simp⟩
    rw [Table.stream, stored, Combined.combine, List.flatMap_congr ordered, runs]
    decide +kernel
  have joined := once.mp (same.mp equal) _ _ _ (stream ▸ List.sublist_cons_self _ _)
    (by decide +kernel)
  have apart : downsampling.window.joins ((strand "h=a").key 3) ((strand "h=b").key 2) = false := by
    decide +kernel
  exact Bool.false_ne_true (apart.symm.trans joined)

end Table

end TimeSeries
