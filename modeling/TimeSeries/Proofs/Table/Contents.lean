import TimeSeries.Table
import TimeSeries.Proofs.Cursor.Expansion

/-!
# What a table holds

A table is sound if each of its entries stores a stretch of points of some storable series.  Taken
apart in the order of keys, its entries make the stream of the table: one entry for each point.  The
samples of a table are those of its stream, and of several samples of one series and timestamp the
last one counts.

A read finds these last samples, cut to its metric and span and to what its filter retains.  A
packed run is found although it starts in front of the span, since every row of the metric up to the
end of the span is looked at; and what starts behind the end has no points before it.

Main statements: `Table.finds_within` says what a scan of a sound table presents, and
`Table.read_eq` what a read of it returns.
-/

set_option autoImplicit false

namespace TimeSeries

/-! ## The series of a strand -/

namespace Strand

/-- The series that the keys of a strand name. -/
def series (strand : Strand) : Series :=
  ((strand.key 0).series.toOption).getD (.ofMetric strand.metric)

/-- The strand belongs to a storable series. -/
def Sound (strand : Strand) : Prop :=
  ∃ series : Series, series.Storable ∧ strand ∈ series.strands

theorem series_of_mem {strand : Strand} {series : Series} (storable : series.Storable)
    (member : strand ∈ series.strands) : strand.series = series := by
  rw [Strand.series, Series.series_key storable member]
  rfl

variable {strand : Strand}

theorem Sound.series_key (sound : strand.Sound) (timestamp : Timestamp) :
    (strand.key timestamp).series = .ok strand.series := by
  obtain ⟨series, storable, member⟩ := sound
  rw [series_of_mem storable member]
  exact Series.series_key storable member timestamp

theorem Sound.metric_series (sound : strand.Sound) : strand.series.metric = strand.metric := by
  obtain ⟨series, storable, member⟩ := sound
  rw [series_of_mem storable member]
  exact (Series.metric_of_mem_strands member).symm

theorem Sound.zeroFree (sound : strand.Sound) : Row.ZeroFree strand.metric := by
  obtain ⟨series, storable, member⟩ := sound
  rw [Series.metric_of_mem_strands member]
  exact storable.metric

/-- The entry of a point of a strand holds a sample of its series. -/
theorem Sound.toSample_entryAt (sound : strand.Sound) (point : Point) :
    (strand.entryAt point).toSample = .ok ⟨strand.series, point⟩ := by
  show ((strand.key point.timestamp).series >>= _) = _
  rw [sound.series_key]
  show (Row.timestamp (strand.key point.timestamp).row >>= _) = _
  rw [strand.rowTimestamp_key, strand.value_entryAt, Binary64.ofBytes_toBytes]
  rfl

end Strand

/-! ## Entries taken apart -/

namespace Entry

theorem toOption_toSample {entry : Entry} {sample : Sample} :
    entry.toSample.toOption = some sample ↔ entry.toSample = .ok sample := by
  cases entry.toSample <;> simp [Except.toOption]

/-- The samples that an entry holds. -/
def samples (entry : Entry) : List Sample :=
  entry.parts.filterMap fun part => part.toSample.toOption

/-- The entry stores a stretch of a sound strand. -/
def Sound (entry : Entry) : Prop :=
  ∃ stretch : Stretch, stretch.strand.Sound ∧ entry = stretch.entry

/-- The entry stores one point of a sound strand. -/
def Single (entry : Entry) : Prop :=
  ∃ strand : Strand, strand.Sound ∧ ∃ point, entry = strand.entryAt point

end Entry

namespace Stretch

theorem samples_entry (stretch : Stretch) (sound : stretch.strand.Sound) :
    stretch.entry.samples = stretch.points.map fun point => ⟨stretch.strand.series, point⟩ := by
  rw [Entry.samples, parts_entry, Stretch.parts, List.filterMap_map]
  have sample : ((fun part : Entry => part.toSample.toOption) ∘ stretch.strand.entryAt)
      = fun point => some (Sample.mk stretch.strand.series point) := by
    funext point
    rw [Function.comp_apply, sound.toSample_entryAt]
    rfl
  rw [sample]
  exact congrFun List.filterMap_eq_map stretch.points

end Stretch

/-- Sound entries are those of stretches of sound strands. -/
theorem Entry.exists_stretches {entries : List Entry} (sound : ∀ entry ∈ entries, entry.Sound) :
    ∃ stretches : List Stretch, entries = stretches.map Stretch.entry
      ∧ ∀ stretch ∈ stretches, stretch.strand.Sound := by
  induction entries with
  | nil => exact ⟨[], rfl, by simp⟩
  | cons entry entries ih =>
      obtain ⟨⟨stretch, here, stored⟩, others⟩ := List.forall_mem_cons.mp sound
      obtain ⟨stretches, same, there⟩ := ih others
      exact ⟨stretch :: stretches, by rw [stored, same, List.map_cons],
        List.forall_mem_cons.mpr ⟨here, there⟩⟩

/-! ## Tables -/

namespace Table

/-- The entries of a table in the order of their keys. -/
def stored (table : Table) : List Entry :=
  table.entries.toList.map fun pair => ⟨pair.1, pair.2⟩

/-- The entries of a table taken apart, in the order of the entries. -/
def stream (table : Table) : List Entry := table.stored.flatMap Entry.parts

/-- Every sample of a table, in the order in which a scan meets them. -/
def samples (table : Table) : List Sample := table.stored.flatMap Entry.samples

/-- Every entry stores a stretch of a storable series. -/
def Sound (table : Table) : Prop := ∀ entry ∈ table.stored, entry.Sound

theorem sorted_stored (table : Table) :
    table.stored.Pairwise fun first second => compare first.key second.key = .lt := by
  rw [stored, List.pairwise_map]
  exact table.entries.ascending

theorem sorted_snapshot (table : Table) :
    table.snapshot.entries.Pairwise fun first second =>
      (compare first.key second.key).isLE = true := by
  refine (sorted_stored table).imp fun before => ?_
  rw [before]
  rfl

theorem flatMap_parts {stretches : List Stretch} :
    (stretches.map Stretch.entry).flatMap Entry.parts = stretches.flatMap Stretch.parts := by
  rw [List.flatMap_map]
  simp only [Stretch.parts_entry]

/-- Whatever a range leaves out in front of it or behind it has no part in it, if the range is one
of a metric and a span. -/
theorem within_widened {range : KeyRange} {stretches : List Stretch}
    (reached : ∀ stretch ∈ stretches, ∀ part ∈ stretch.parts, range.contains part.key = true →
      range.widened.contains stretch.key = true) :
    Expanded.within range
        ((stretches.filter fun stretch => range.widened.contains stretch.key).flatMap
          Stretch.parts)
      = Expanded.within range (stretches.flatMap Stretch.parts) := by
  induction stretches with
  | nil => rfl
  | cons stretch stretches ih =>
      obtain ⟨here, there⟩ := List.forall_mem_cons.mp reached
      rw [List.flatMap_cons, Expanded.within_append, ← ih there, List.filter_cons]
      split
      case isTrue => rw [List.flatMap_cons, Expanded.within_append]
      case isFalse outside =>
          have nothing : Expanded.within range stretch.parts = [] := by
            rw [Expanded.within, List.filter_eq_nil_iff]
            intro part member inside
            exact outside (here part member inside)
          rw [nothing, List.nil_append]

/-- Scanning a range, a sound table presents the parts of its entries within the range that the
filter accepts, provided that widening the range reaches the entries of all these parts. -/
theorem finds_within {table : Table} (sound : table.Sound) (filter : RetentionFilter)
    (range : KeyRange)
    (reached : ∀ stretch : Stretch, stretch.strand.Sound → stretch.entry ∈ table.stored →
      ∀ part ∈ stretch.parts, range.contains part.key = true →
        range.widened.contains stretch.key = true) :
    Cursor.Finds (table.scanner filter) range
      ((table.stream.filter fun entry => range.contains entry.key).filter
        fun entry => filter.accepts entry.key) := by
  obtain ⟨stretches, same, strands⟩ := Entry.exists_stretches sound
  have below := SortedEntries.finds_of_sorted table.snapshot range.widened (sorted_snapshot table)
  have entries : table.snapshot.entries = stretches.map Stretch.entry := same
  rw [entries, List.filter_map] at below
  have expanded := Expanded.finds below
  rw [show ((fun entry : Entry => range.widened.contains entry.key) ∘ Stretch.entry)
      = fun stretch => range.widened.contains stretch.key from rfl,
    within_widened fun stretch member =>
      reached stretch (strands stretch member) (same ▸ List.mem_map_of_mem member),
    ← flatMap_parts, ← same] at expanded
  exact Retained.finds (show Cursor.Finds (table.scanner filter).below range _ from expanded)

/-- The whole of a sound table is presented point by point, as far as the filter accepts it. -/
theorem finds_all {table : Table} (sound : table.Sound) (filter : RetentionFilter) :
    Cursor.Finds (table.scanner filter) .all
      (table.stream.filter fun entry => filter.accepts entry.key) := by
  have found := finds_within sound filter .all fun _ _ _ _ _ _ => rfl
  have all : (table.stream.filter fun entry => KeyRange.all.contains entry.key) = table.stream :=
    List.filter_eq_self.mpr fun _ _ => rfl
  rwa [all] at found

/-! ## Reading -/

/-- Each entry of the stream of a sound table is that of a point of a sound strand. -/
theorem single_of_mem_stream {table : Table} (sound : table.Sound) {entry : Entry}
    (member : entry ∈ table.stream) : entry.Single := by
  obtain ⟨whole, stored, part⟩ := List.mem_flatMap.mp member
  obtain ⟨stretch, strand, rfl⟩ := sound whole stored
  rw [Stretch.parts_entry, Stretch.parts, List.mem_map] at part
  obtain ⟨point, _, rfl⟩ := part
  exact ⟨stretch.strand, strand, point, rfl⟩

theorem samples_eq (table : Table) :
    table.samples = table.stream.filterMap fun part => part.toSample.toOption := by
  rw [samples, stream, List.filterMap_flatMap]
  rfl

/-- The range of a metric and a span, widened, reaches every entry with a part in it. -/
theorem reaches_between {metric : String} (free : Row.ZeroFree metric) (start stop : Timestamp)
    {stretch : Stretch} (sound : stretch.strand.Sound) {part : Entry}
    (member : part ∈ stretch.parts)
    (inside : (KeyRange.between metric start stop).contains part.key = true) :
    (KeyRange.between metric start stop).widened.contains stretch.key = true := by
  obtain ⟨point, among, rfl⟩ := List.mem_map.mp member
  have notAfter := stretch.strand.isLE_compare_key (stretch.first_le among)
  have same := ((KeyRange.contains_between free sound.zeroFree rfl start stop).mp inside).1
  have front : (KeyRange.between metric start stop).widened.startsAfter stretch.key = false := by
    have widened : (KeyRange.between metric start stop).widened.start
        = .included (.ofRow (Row.first metric)) := by
      have named : (Key.ofRow (Row.ofPoint metric start)).metric = .ok metric :=
        Row.metric_ofPoint metric start
      show KeyRange.widenedStart (.included (.ofRow (Row.ofPoint metric start))) = _
      rw [KeyRange.widenedStart, named]
    rw [KeyRange.startsAfter, widened]
    simp only [beq_eq_false_iff_ne]
    rw [Ne, Key.compare_ofRow_eq_lt,
      show stretch.key.row = Row.ofPoint metric stretch.first.timestamp by rw [← same]; rfl,
      Row.first, Row.compare_ofPoint_self, Std.compare_eq_lt, Int64.not_lt]
    exact Int64.minValue_le _
  have back : (KeyRange.between metric start stop).stopsBefore stretch.key = false := by
    rw [Bool.eq_false_iff]
    intro behind
    rw [KeyRange.contains, Bool.and_eq_true, Bool.not_eq_true'] at inside
    have beyond := KeyRange.stopsBefore_of_le notAfter behind
    rw [Strand.key_entryAt, beyond] at inside
    exact absurd inside.2 (by simp)
  rw [KeyRange.contains, front,
    show (KeyRange.between metric start stop).widened.stopsBefore stretch.key = false from back]
  rfl

end Table

/-- The last value for each series and timestamp among some samples. -/
def latest (samples : List Sample) : SortedMap (Series × Timestamp) Binary64 :=
  .ofList (samples.map fun sample => ((sample.series, sample.point.timestamp), sample.point.value))

theorem latest_filter (samples : List Sample) (keep : Series × Timestamp → Bool) :
    latest (samples.filter fun sample => keep (sample.series, sample.point.timestamp))
      = (latest samples).filter fun key _ => keep key := by
  apply SortedMap.ext_get?
  intro key
  have mapped : (samples.filter fun sample => keep (sample.series, sample.point.timestamp)).map
        (fun sample => ((sample.series, sample.point.timestamp), sample.point.value))
      = (samples.map fun sample =>
          ((sample.series, sample.point.timestamp), sample.point.value)).filter
        fun pair => keep pair.1 := by
    rw [List.filter_map]
    rfl
  rw [SortedMap.get?_filter, latest, latest, mapped, SortedMap.get?_ofList, SortedMap.get?_ofList,
    ← List.filter_reverse, SortedMap.lookup_filter]
  cases keep key with
  | true => rw [if_pos rfl]; cases SortedMap.lookup key _ <;> rfl
  | false => rw [if_neg Bool.false_ne_true]; cases SortedMap.lookup key _ <;> rfl

namespace Table

/-- What a read takes from the entries that it meets. -/
theorem foldlM_insert {entries : List Entry}
    (singles : ∀ entry ∈ entries, ∃ sample, entry.toSample = .ok sample)
    (points : SortedMap (Series × Timestamp) Binary64) :
    entries.foldlM (fun (points : SortedMap (Series × Timestamp) Binary64) entry => do
        let sample ← entry.toSample
        return points.insert (sample.series, sample.point.timestamp) sample.point.value) points
      = (.ok (((entries.filterMap fun entry => entry.toSample.toOption).map fun sample =>
          ((sample.series, sample.point.timestamp), sample.point.value)).foldl
            (fun map pair => map.insert pair.1 pair.2) points) : Except Failure _) := by
  induction entries generalizing points with
  | nil => rfl
  | cons entry entries ih =>
      obtain ⟨⟨sample, read⟩, others⟩ := List.forall_mem_cons.mp singles
      rw [List.foldlM_cons, read, List.filterMap_cons, read]
      exact ih others _

/-- Leaving entries out leaves their samples out. -/
theorem filterMap_toSample {entries : List Entry}
    (singles : ∀ entry ∈ entries, entry.Single) {keepEntry : Entry → Bool}
    {keepSample : Sample → Bool}
    (same : ∀ strand point, Strand.Sound strand →
      keepEntry (strand.entryAt point) = keepSample ⟨strand.series, point⟩) :
    (entries.filter keepEntry).filterMap (fun part => part.toSample.toOption)
      = (entries.filterMap fun part => part.toSample.toOption).filter keepSample := by
  induction entries with
  | nil => rfl
  | cons entry entries ih =>
      obtain ⟨⟨strand, sound, point, rfl⟩, others⟩ := List.forall_mem_cons.mp singles
      have sample : (strand.entryAt point).toSample.toOption
          = some (Sample.mk strand.series point) := by
        rw [sound.toSample_entryAt]
        rfl
      have kept := same strand point sound
      by_cases keep : keepSample ⟨strand.series, point⟩ = true
      · rw [keep] at kept
        simp only [List.filter_cons, List.filterMap_cons, kept, sample, keep, if_true, ih others]
      · rw [Bool.not_eq_true] at keep
        rw [keep] at kept
        simp only [List.filter_cons, List.filterMap_cons, kept, sample, keep, Bool.false_eq_true,
          if_false, ih others]

/-- The last value of each series and timestamp. -/
def values (table : Table) : SortedMap (Series × Timestamp) Binary64 := latest table.samples

/-- What a read asks for. -/
def isAsked (metric : String) (start stop : Timestamp) (filter : RetentionFilter)
    (key : Series × Timestamp) : Bool :=
  key.1.metric = metric && start ≤ key.2 && key.2 ≤ stop
    && filter.retention.retains key.1.metric key.2 filter.now

/-- **What a read returns**: the last value of each series and timestamp that it asks for, in the
order of series and timestamps. -/
theorem read_eq {table : Table} (sound : table.Sound) {metric : String}
    (free : Row.ZeroFree metric) (start stop : Timestamp) (filter : RetentionFilter) :
    table.read metric start stop filter
      = .ok ((table.values.filter fun key _ => isAsked metric start stop filter key).toList.map
          fun pair => ⟨pair.1.1, ⟨pair.1.2, pair.2⟩⟩) := by
  have found := finds_within sound filter (.between metric start stop)
    fun stretch strand _ part member => reaches_between free start stop strand member
  have asked : ((table.stream.filter fun entry =>
        (KeyRange.between metric start stop).contains entry.key).filter
          fun entry => filter.accepts entry.key).filterMap (fun part => part.toSample.toOption)
      = table.samples.filter fun sample =>
        isAsked metric start stop filter (sample.series, sample.point.timestamp) := by
    rw [List.filter_filter, samples_eq]
    refine filterMap_toSample (fun entry member => single_of_mem_stream sound member)
      fun strand point strandSound => ?_
    have inRange := KeyRange.contains_between free strandSound.zeroFree
      (show (strand.entryAt point).key.row = Row.ofPoint strand.metric point.timestamp from rfl)
      start stop
    have accepted : filter.accepts (strand.entryAt point).key
        = filter.retention.retains strand.metric point.timestamp filter.now := by
      simp only [RetentionFilter.accepts, Strand.key_entryAt, Strand.metric_key,
        Strand.timestamp_key]
    rw [Bool.eq_iff_iff, Bool.and_eq_true, inRange, accepted, isAsked, strandSound.metric_series]
    simp only [Bool.and_eq_true, decide_eq_true_eq]
    exact ⟨fun ⟨retained, named, after, before⟩ => ⟨⟨⟨named, after⟩, before⟩, retained⟩,
      fun ⟨⟨⟨named, after⟩, before⟩, retained⟩ => ⟨retained, named, after, before⟩⟩
  have singles : ∀ entry ∈ (table.stream.filter fun entry =>
        (KeyRange.between metric start stop).contains entry.key).filter
          (fun entry => filter.accepts entry.key), ∃ sample, entry.toSample = .ok sample := by
    intro entry member
    obtain ⟨strand, strandSound, point, rfl⟩ :=
      single_of_mem_stream sound (List.mem_filter.mp (List.mem_filter.mp member).1).1
    exact ⟨_, strandSound.toSample_entryAt point⟩
  rw [read, found.gatherWithin, foldlM_insert singles, asked]
  rw [values, ← latest_filter]
  rfl

end Table

end TimeSeries
