import TimeSeries.Proofs.Table.History

/-!
# What a compaction does to reads

What is packed holds everything that the table held, if the filter accepts everything.  But packed
entries are stored under the keys of their first points, and of several with one key only the last
survives; and a packed entry holds points that are behind its key, so an entry that is stored behind
another one need not be the later to be put.  A compaction leaves all reads as they were exactly if
neither makes a difference: whatever the table shows still prevails among the entries that survive
(`Table.Settles`).

This holds of every table in which no two entries share a point of one strand and the strands of a
series agree (`Table.Orderly`), and a table is orderly if no sample was ever put in the place of
another.  Otherwise a sample can be lost.  Let points at 0, 1000 and 1001 be packed in one window,
and put others at 500 and again at 1000.  The stream then comes to the window from 1000 on twice,
with the points at 1000 and 1001 first and with the new point at 1000 later, and both are packed
under the same key.

Main statement: `Table.compact_after`.
-/

set_option autoImplicit false

namespace TimeSeries

namespace Table

/-- Whatever the table shows prevails among the packed entries that survive. -/
def Settles (table : Table) (filter : RetentionFilter) (window : Window) : Prop :=
  ∀ sample, table.Shows sample → Prevails (Survives (table.reduced filter window)) sample

/-- Some sample is shown in the place of each sample that is held. -/
theorem exists_shown {table : Table} {sample : Sample} (member : sample ∈ table.samples) :
    ∃ shown, table.Shows shown ∧ shown.place = sample.place := by
  cases found : table.values.get? sample.place with
  | some value => exact ⟨⟨sample.series, ⟨sample.point.timestamp, value⟩⟩, found, rfl⟩
  | none =>
      rw [values, latest, SortedMap.get?_ofList, SortedMap.lookup_eq_none_iff] at found
      exact absurd rfl (found _ (List.mem_reverse.mpr (List.mem_map.mpr ⟨sample, member, rfl⟩)))

theorem Shows.mem_samples {table : Table} {sample : Sample} (shown : table.Shows sample) :
    sample ∈ table.samples := by
  rw [Shows, values, latest, SortedMap.get?_ofList] at shown
  obtain ⟨held, member, same⟩ := List.mem_map.mp
    (List.mem_reverse.mp (SortedMap.mem_of_lookup shown))
  obtain ⟨place, value⟩ := Prod.mk.inj same
  rwa [← Sample.eq_of_place place value]

/-- A table that shows all that another one shows, and nothing but what that one holds, shows the
same; here in some places only. -/
theorem shows_iff_of_shows {table other : Table} (places : Series × Timestamp → Prop)
    (held : ∀ sample, places sample.place → other.Shows sample → sample ∈ table.samples)
    (kept : ∀ sample, places sample.place → table.Shows sample → other.Shows sample)
    (sample : Sample) (named : places sample.place) : other.Shows sample ↔ table.Shows sample := by
  refine ⟨fun shown => ?_, kept sample named⟩
  obtain ⟨before, was, place⟩ := exists_shown (held sample named shown)
  rwa [← (kept before (place ▸ named) was).unique shown place]

/-- **The condition** under which a compaction that drops nothing leaves every read as it was. -/
theorem sameReads_compact_iff {table compacted : Table} (sound : table.Sound)
    {filter : RetentionFilter} {window : Window} {report : CompactionReport}
    (done : table.compact filter window = .ok (compacted, report)) :
    SameReads compacted table ↔ table.Settles filter window := by
  have shown : ∀ sample, compacted.Shows sample
      ↔ Prevails (Survives (table.reduced filter window)) sample := by
    intro sample
    obtain ⟨result, _, fine, stored⟩ := exists_compact sound filter window
    cases done.symm.trans fine
    rw [shows_iff_prevails (sound.compact done), Prevails, Prevails]
    simp only [stored]
  rw [sameReads_iff (sound.compact done) sound]
  constructor
  · exact fun same sample was => (shown sample).mp ((same sample).mpr was)
  · intro settles sample
    exact shows_iff_of_shows (fun _ => True)
      (fun _ _ after => mem_samples_compact sound done after.mem_samples)
      (fun sample _ was => (shown sample).mpr (settles sample was)) sample trivial

/-! ## Orderly tables -/

/-- No two entries share a point of a strand, and the strands of a series agree. -/
structure Orderly (table : Table) : Prop where
  apart : ∀ first ∈ table.stored, ∀ second ∈ table.stored, ∀ key ∈ first.parts.map Entry.key,
    key ∈ second.parts.map Entry.key → first = second
  agree : ∀ first ∈ table.samples, ∀ second ∈ table.samples, first.place = second.place →
    first = second

end Table

namespace Entry

/-- The key of an entry is that of its first part. -/
theorem Sound.key_mem_parts {entry : Entry} (sound : entry.Sound) :
    entry.key ∈ entry.parts.map Entry.key := by
  obtain ⟨stretch, _, rfl⟩ := sound
  rw [stretch.parts_entry]
  exact List.mem_cons_self

theorem Sound.nodup_parts {entry : Entry} (sound : entry.Sound) :
    (entry.parts.map Entry.key).Nodup := by
  obtain ⟨stretch, _, rfl⟩ := sound
  rw [stretch.parts_entry, Stretch.parts, List.map_map]
  refine List.pairwise_map.mpr (stretch.ascending.imp fun {first second} before same => ?_)
  exact Int64.ne_of_lt before (Strand.key_injective same).2

end Entry

/-- Entries with a part in common are the same if no key occurs twice among the parts. -/
theorem eq_of_common_part {entries : List Entry}
    (nodup : ((entries.flatMap Entry.parts).map Entry.key).Nodup) {first second : Entry}
    (here : first ∈ entries) (there : second ∈ entries) {key : Key}
    (inFirst : key ∈ first.parts.map Entry.key) (inSecond : key ∈ second.parts.map Entry.key) :
    first = second := by
  induction entries with
  | nil => cases here
  | cons entry entries ih =>
      rw [List.flatMap_cons, List.map_append] at nodup
      obtain ⟨_, rest, disjoint⟩ := List.nodup_append.mp nodup
      have behind : ∀ other ∈ entries, key ∈ other.parts.map Entry.key →
          key ∈ (entries.flatMap Entry.parts).map Entry.key := by
        intro other member found
        obtain ⟨part, among, named⟩ := List.mem_map.mp found
        exact List.mem_map.mpr ⟨part, List.mem_flatMap.mpr ⟨other, member, among⟩, named⟩
      rcases List.mem_cons.mp here with rfl | later
      · rcases List.mem_cons.mp there with rfl | other
        · rfl
        · exact absurd rfl (disjoint key inFirst key (behind second other inSecond))
      · rcases List.mem_cons.mp there with rfl | other
        · exact absurd rfl (disjoint key inSecond key (behind first later inFirst))
        · exact ih rest later other

/-- Every entry survives if no key occurs twice among the parts. -/
theorem survives_of_nodup {entries : List Entry} (sound : ∀ entry ∈ entries, entry.Sound)
    (nodup : ((entries.flatMap Entry.parts).map Entry.key).Nodup) {entry : Entry}
    (member : entry ∈ entries) : Survives entries entry := by
  obtain ⟨before, after, rfl⟩ := List.append_of_mem member
  refine ⟨before, after, rfl, fun other behind same => ?_⟩
  rw [List.flatMap_append, List.flatMap_cons, List.map_append, List.map_append] at nodup
  have disjoint := (List.nodup_append.mp (List.nodup_append.mp nodup).2.1).2.2
  obtain ⟨part, among, named⟩ := List.mem_map.mp
    (sound other (List.mem_append_right before (List.mem_cons_of_mem entry behind))).key_mem_parts
  refine disjoint entry.key (sound entry member).key_mem_parts part.key
    (List.mem_map.mpr ⟨part, List.mem_flatMap.mpr ⟨other, behind, among⟩, rfl⟩) ?_
  rw [named, same]

namespace Table

variable {table : Table}

/-- No key occurs twice in the stream of an orderly table. -/
theorem Orderly.nodup (sound : table.Sound) (orderly : table.Orderly) :
    (table.stream.map Entry.key).Nodup := by
  rw [stream, List.map_flatMap, List.nodup_flatMap]
  refine ⟨fun entry member => (sound entry member).nodup_parts, ?_⟩
  refine (sorted_stored table).imp_of_mem fun {first second} here there before => ?_
  intro key inFirst inSecond
  rw [orderly.apart first here second there key inFirst inSecond,
    show compare second.key second.key = .eq from Std.ReflOrd.compare_self] at before
  cases before

theorem Orderly.nodup_reduced (sound : table.Sound) (orderly : table.Orderly)
    (filter : RetentionFilter) (window : Window) :
    (((table.reduced filter window).flatMap Entry.parts).map Entry.key).Nodup := by
  refine ((sound_reduced sound filter window).2.map Entry.key).nodup_iff.mpr ?_
  exact (orderly.nodup sound).sublist (List.filter_sublist.map Entry.key)

/-- Orderly tables settle. -/
theorem Orderly.settles (sound : table.Sound) (orderly : table.Orderly) {filter : RetentionFilter}
    (keepsAll : filter.KeepsAll) (window : Window) : table.Settles filter window := by
  intro sample shown
  have entries := (sound_reduced sound filter window).1
  obtain ⟨part, streamed, read⟩ := mem_samples_iff_stream.mp shown.mem_samples
  obtain ⟨entry, among, held⟩ := (mem_samples_reduced sound filter window sample).mpr
    ⟨part, streamed, keepsAll.accepts part.key, read⟩
  refine ⟨entry, survives_of_nodup entries (orderly.nodup_reduced sound filter window) among, held,
    fun other survives _ rival found place => ?_⟩
  obtain ⟨source, streamed, _, told⟩ := (mem_samples_reduced sound filter window rival).mp
    ⟨other, mem_of_survives survives, found⟩
  exact orderly.agree rival (mem_samples_iff_stream.mpr ⟨source, streamed, told⟩) sample
    shown.mem_samples place

/-! ## Runs in which nothing is put twice -/

/-- The entries under which a sample is put have no part in common with those of other places. -/
theorem eq_of_put_part (sound : table.Sound) {sample : Sample}
    (storable : sample.series.Storable) (fresh : ∀ held ∈ table.samples, held.place ≠ sample.place)
    {strand : Strand} (among : strand ∈ sample.series.strands) {entry : Entry}
    (member : entry ∈ (table.put sample).stored) {key : Key}
    (here : key ∈ (strand.entryAt sample.point).parts.map Entry.key)
    (there : key ∈ entry.parts.map Entry.key) : strand.entryAt sample.point = entry := by
  rw [← Stretch.entry_single, Stretch.parts_entry, Stretch.parts_single, List.map_singleton,
    List.mem_singleton] at here
  rcases (mem_stored_put table sample entry).mp member with ⟨other, _, rfl⟩ | ⟨old, _⟩
  · rw [← Stretch.entry_single, Stretch.parts_entry, Stretch.parts_single, List.map_singleton,
      List.mem_singleton, here] at there
    rw [(Strand.key_injective there).1]
  · obtain ⟨stretch, ofSeries, rfl⟩ := sound entry old
    rw [stretch.parts_entry, Stretch.parts, List.map_map] at there
    obtain ⟨point, inStretch, same⟩ := List.mem_map.mp there
    obtain ⟨sameStrand, sameTime⟩ := Strand.key_injective (same.trans here)
    have held : ⟨stretch.strand.series, point⟩ ∈ table.samples := by
      refine mem_samples.mpr ⟨_, old, ?_⟩
      rw [stretch.samples_entry ofSeries]
      exact List.mem_map.mpr ⟨point, inStretch, rfl⟩
    refine absurd ?_ (fresh _ held)
    rw [Sample.place, sameStrand, Strand.series_of_mem storable among]
    exact congrArg (Prod.mk sample.series) sameTime

theorem Orderly.put (sound : table.Sound) (orderly : table.Orderly) {sample : Sample}
    (storable : sample.series.Storable)
    (fresh : ∀ held ∈ table.samples, held.place ≠ sample.place) : (table.put sample).Orderly := by
  constructor
  · intro first here second there key inFirst inSecond
    rcases (mem_stored_put table sample first).mp here with ⟨strand, among, rfl⟩ | ⟨old, _⟩
    · exact eq_of_put_part sound storable fresh among there inFirst inSecond
    · rcases (mem_stored_put table sample second).mp there with ⟨strand, among, rfl⟩ | ⟨other, _⟩
      · exact (eq_of_put_part sound storable fresh among here inSecond inFirst).symm
      · exact orderly.apart first old second other key inFirst inSecond
  · intro first here second there place
    rcases mem_samples_put storable here with rfl | old
    · rcases mem_samples_put storable there with rfl | other
      · rfl
      · exact absurd place.symm (fresh second other)
    · rcases mem_samples_put storable there with rfl | other
      · exact absurd place (fresh first old)
      · exact orderly.agree first old second other place

theorem Orderly.compact (sound : table.Sound) (orderly : table.Orderly) {compacted : Table}
    {filter : RetentionFilter} {window : Window} {report : CompactionReport}
    (done : table.compact filter window = .ok (compacted, report)) : compacted.Orderly := by
  constructor
  · obtain ⟨result, _, fine, stored⟩ := exists_compact sound filter window
    cases done.symm.trans fine
    intro first here second there key inFirst inSecond
    exact eq_of_common_part (orderly.nodup_reduced sound filter window)
      (mem_of_survives ((stored first).mp here)) (mem_of_survives ((stored second).mp there))
      inFirst inSecond
  · intro first here second there
    exact orderly.agree first (mem_samples_compact sound done here) second
      (mem_samples_compact sound done there)

theorem Orderly.next (sound : table.Sound) (orderly : table.Orderly) {event : TableEvent}
    (storable : event.Storable)
    (fresh : ∀ held ∈ table.samples, event.place? ≠ some held.place) :
    (table.next event).Orderly := by
  cases event with
  | put sample =>
      exact orderly.put sound storable fun held member same =>
        fresh held member (congrArg some same.symm)
  | compact filter window =>
      obtain ⟨compacted, report, done, _⟩ := exists_compact sound filter window
      rw [Table.next, done]
      exact orderly.compact sound done

theorem orderly_foldl {events : List TableEvent} (sound : table.Sound) (orderly : table.Orderly)
    (storable : ∀ event ∈ events, event.Storable)
    (distinct : (events.filterMap TableEvent.place?).Nodup)
    (fresh : ∀ held ∈ table.samples, held.place ∉ events.filterMap TableEvent.place?) :
    (events.foldl Table.next table).Orderly := by
  induction events generalizing table with
  | nil => exact orderly
  | cons event events ih =>
      obtain ⟨here, there⟩ := List.forall_mem_cons.mp storable
      have unknown : ∀ held ∈ table.samples, event.place? ≠ some held.place := by
        intro held member put
        exact fresh held member (List.mem_filterMap.mpr ⟨event, List.mem_cons_self, put⟩)
      have later : ∀ {place}, place ∈ events.filterMap TableEvent.place? →
          place ∈ (event :: events).filterMap TableEvent.place? := by
        intro place member
        obtain ⟨other, among, put⟩ := List.mem_filterMap.mp member
        exact List.mem_filterMap.mpr ⟨other, List.mem_cons_of_mem event among, put⟩
      refine ih (sound.next here) (orderly.next sound here unknown) there ?_
        fun held member again => ?_
      · exact distinct.sublist ((List.sublist_cons_self event events).filterMap TableEvent.place?)
      · rcases mem_samples_next sound here member with put | old
        · rw [List.filterMap_cons, put] at distinct
          exact (List.nodup_cons.mp distinct).1 again
        · exact fresh held old (later again)

theorem orderly_empty : empty.Orderly := by
  constructor
  · intro first member
    cases member
  · intro first member
    cases member

/-- If no sample was put in the place of another, the table is orderly. -/
theorem orderly_after {events : List TableEvent} (storable : ∀ event ∈ events, event.Storable)
    (distinct : (events.filterMap TableEvent.place?).Nodup) : (after events).Orderly :=
  orderly_foldl sound_empty orderly_empty storable distinct fun _ member => by cases member

/-- **A compaction that drops nothing**, after any puts of storable samples and any compactions: it
does not fail, and it invents nothing.  Reads are as they were before exactly if the table settles,
and they always are if no sample was put in the place of another. -/
theorem compact_after {events : List TableEvent} (storable : ∀ event ∈ events, event.Storable)
    {filter : RetentionFilter} (keepsAll : filter.KeepsAll) (window : Window) :
    ∃ compacted report, (after events).compact filter window = .ok (compacted, report)
      ∧ (∀ sample, compacted.Shows sample → sample ∈ (after events).samples)
      ∧ (SameReads compacted (after events) ↔ (after events).Settles filter window)
      ∧ ((events.filterMap TableEvent.place?).Nodup → SameReads compacted (after events)) := by
  have sound := sound_after storable
  obtain ⟨compacted, report, done, _⟩ := exists_compact sound filter window
  have unchanged := sameReads_compact_iff sound done
  refine ⟨compacted, report, done, fun sample shown => ?_, unchanged, fun distinct => ?_⟩
  · exact mem_samples_compact sound done shown.mem_samples
  · exact unchanged.mpr ((orderly_after storable distinct).settles sound keepsAll window)

/-- Points that were packed are packed again with a point between them. -/
theorem compact_after_repacking :
    let series : Series := ⟨"m", .ofList [("h", "a")], none⟩
    let events : List TableEvent := [.put ⟨series, ⟨0, ⟨1⟩⟩⟩, .put ⟨series, ⟨1000, ⟨2⟩⟩⟩,
      .compact ⟨.ofDefault Timestamp.latest, 0⟩ .whole, .put ⟨series, ⟨500, ⟨3⟩⟩⟩]
    ∃ compacted report,
      (after events).compact ⟨.ofDefault Timestamp.latest, 0⟩ .whole = .ok (compacted, report)
        ∧ SameReads compacted (after events) := by
  intro series events
  have storable : series.Storable := ⟨by rw [Row.ZeroFree]; decide, by decide, by decide⟩
  have distinct : (events.filterMap TableEvent.place?).Nodup := by
    show [(series, (0 : Timestamp)), (series, 1000), (series, 500)].Nodup
    simp
  obtain ⟨compacted, report, done, _, _, same⟩ := compact_after
    (show ∀ event ∈ events, event.Storable by simp [events, TableEvent.Storable, storable])
    (RetentionFilter.keepsAll_latest 0) .whole
  exact ⟨compacted, report, done, same distinct⟩

end Table

end TimeSeries
