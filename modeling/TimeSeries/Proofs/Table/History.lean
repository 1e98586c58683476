import TimeSeries.Proofs.Table.Packing
import TimeSeries.Proofs.Table.Shown

/-!
# The history of a table

A table goes through events: samples are put, and the table is compacted.  Both are described by the
entries that are stored afterwards.  A put stores the sample under the keys of its strands and
leaves the other entries alone (`mem_stored_put`).  A compaction packs the stream of the table, and
of several packed entries with one key the last one survives (`exists_compact`).

Neither stores anything but stretches of storable series, as long as the samples that are put belong
to such; so every table that comes of these events is sound, and no compaction on the way fails.

Main statements: `Table.sound_after` and `Table.exists_compact`.
-/

set_option autoImplicit false

namespace TimeSeries

/-! ## Events -/

/-- What can happen to a table. -/
inductive TableEvent where
  | put (sample : Sample)
  | compact (filter : RetentionFilter) (window : Window)
  deriving DecidableEq, Repr

namespace TableEvent

/-- What is put can be told again from the keys it is put under. -/
def Storable : TableEvent → Prop
  | put sample => sample.series.Storable
  | compact _ _ => True

/-- The series and timestamp that are put. -/
def place? : TableEvent → Option (Series × Timestamp)
  | put sample => some sample.place
  | compact _ _ => none

end TableEvent

namespace Table

/-- The table after an event.  A compaction that fails leaves it as it was. -/
def next (table : Table) : TableEvent → Table
  | .put sample => table.put sample
  | .compact filter window =>
      match table.compact filter window with
      | .ok (compacted, _) => compacted
      | .error _ => table

/-- The table after some events, of which the first finds it empty. -/
def after (events : List TableEvent) : Table := events.foldl next empty

theorem mem_stored {table : Table} {entry : Entry} :
    entry ∈ table.stored ↔ table.entries.get? entry.key = some entry.value := by
  rw [← SortedMap.mem_toList_iff, stored, List.mem_map]
  constructor
  · rintro ⟨pair, member, rfl⟩
    exact member
  · exact fun member => ⟨_, member, rfl⟩

/-! ## Putting -/

/-- The key is one under which a sample is put. -/
def IsUnder (key : Key) (sample : Sample) : Prop :=
  ∃ strand ∈ sample.series.strands, key = strand.key sample.point.timestamp

theorem get?_foldl_insert_entries (entries : List Entry) (table : Table) (key : Key) :
    (entries.foldl insert table).entries.get? key
      = (SortedMap.lookup key (entries.map fun entry => (entry.key, entry.value)).reverse).or
        (table.entries.get? key) := by
  have inserted : (entries.foldl insert table).entries
      = (entries.map fun entry => (entry.key, entry.value)).foldl
        (fun map pair => map.insert pair.1 pair.2) table.entries := by
    induction entries generalizing table with
    | nil => rfl
    | cons entry entries ih => exact ih (table.insert entry)
  rw [inserted, SortedMap.get?_foldl_insert]

/-- After a put, what is stored is the sample under each of its keys, and whatever else was
stored. -/
theorem mem_stored_put (table : Table) (sample : Sample) (entry : Entry) :
    entry ∈ (table.put sample).stored
      ↔ (∃ strand ∈ sample.series.strands, entry = strand.entryAt sample.point)
        ∨ entry ∈ table.stored ∧ ¬ IsUnder entry.key sample := by
  have put : ∀ pair, pair ∈ (sample.toEntries.map fun entry => (entry.key, entry.value))
      ↔ ∃ strand ∈ sample.series.strands,
        pair = (strand.key sample.point.timestamp, sample.point.value.toBytes) := by
    intro pair
    rw [Sample.toEntries_eq, List.map_map, List.mem_map]
    exact exists_congr fun strand => and_congr Iff.rfl eq_comm
  rw [mem_stored, Table.put, get?_foldl_insert_entries, mem_stored]
  by_cases under : IsUnder entry.key sample
  · obtain ⟨strand, among, named⟩ := under
    have found : SortedMap.lookup entry.key
        (sample.toEntries.map fun entry => (entry.key, entry.value)).reverse
          = some sample.point.value.toBytes := by
      refine SortedMap.lookup_of_agreeing
        (List.mem_reverse.mpr ((put _).mpr ⟨strand, among, by rw [named]⟩)) fun other member => ?_
      obtain ⟨_, _, same⟩ := (put _).mp (List.mem_reverse.mp member)
      exact (Prod.mk.inj same).2
    rw [found, Option.some_or]
    constructor
    · intro value
      refine Or.inl ⟨strand, among, ?_⟩
      obtain ⟨key, bytes⟩ := entry
      cases value
      cases named
      rfl
    · rintro (⟨_, _, rfl⟩ | ⟨_, apart⟩)
      · rfl
      · exact absurd ⟨strand, among, named⟩ apart
  · have absent : SortedMap.lookup entry.key
        (sample.toEntries.map fun entry => (entry.key, entry.value)).reverse = none := by
      refine SortedMap.lookup_eq_none_iff.mpr fun pair member same => under ?_
      obtain ⟨strand, among, rfl⟩ := (put pair).mp (List.mem_reverse.mp member)
      exact ⟨strand, among, same.symm⟩
    rw [absent, Option.none_or]
    constructor
    · exact fun held => Or.inr ⟨held, under⟩
    · rintro (⟨strand, among, rfl⟩ | ⟨held, _⟩)
      · exact absurd ⟨strand, among, rfl⟩ under
      · exact held

theorem Sound.put {table : Table} (sound : table.Sound) {sample : Sample}
    (storable : sample.series.Storable) : (table.put sample).Sound := by
  intro entry member
  rcases (mem_stored_put table sample entry).mp member with ⟨strand, among, rfl⟩ | ⟨old, _⟩
  · exact ⟨.single strand sample.point, ⟨sample.series, storable, among⟩, rfl⟩
  · exact sound entry old

/-! ## Compacting -/

/-- What the retained points of a table are packed to, in the order in which it is stored. -/
def reduced (table : Table) (filter : RetentionFilter) (window : Window) : List Entry :=
  Combined.combine .pack window (table.stream.filter fun entry => filter.accepts entry.key)

end Table

/-- No later one of the entries has the key of the entry. -/
def Survives (entries : List Entry) (entry : Entry) : Prop :=
  ∃ before after, entries = before ++ entry :: after ∧ ∀ other ∈ after, other.key ≠ entry.key

namespace Table

theorem get?_ofList_eq_some_iff (entries : List Entry) (entry : Entry) :
    (SortedMap.ofList (entries.map fun entry => (entry.key, entry.value))).get? entry.key
        = some entry.value ↔ Survives entries entry := by
  rw [SortedMap.get?_ofList, SortedMap.lookup_reverse_eq_some_iff]
  constructor
  · rintro ⟨before, after, split, others⟩
    obtain ⟨front, back, rfl, rfl, tail⟩ := List.map_eq_append_iff.mp split
    obtain ⟨middle, behind, rfl, same, rfl⟩ := List.map_eq_cons_iff.mp tail
    have held : middle = entry := by
      obtain ⟨key, value⟩ := Prod.mk.inj same
      cases middle
      cases entry
      cases key
      cases value
      rfl
    subst held
    exact ⟨front, behind, rfl, fun other member => others _ (List.mem_map.mpr ⟨other, member, rfl⟩)⟩
  · rintro ⟨before, after, rfl, others⟩
    refine ⟨_, _, List.map_append, fun pair member => ?_⟩
    obtain ⟨other, among, rfl⟩ := List.mem_map.mp member
    exact others other among

/-- Packing makes a map of what is packed, where nothing fails. -/
theorem packed_of_finds {table : Table} {filter : RetentionFilter} {window : Window}
    {entries : List Entry} (found : Cursor.Finds (table.scanner filter) .all entries)
    (smooth : Combined.Smooth .pack window entries) :
    table.packed filter window = .ok (SortedMap.ofList
      ((Combined.combine .pack window entries).map fun entry => (entry.key, entry.value))) := by
  have inserted : ∀ (entries : List Entry) (output : SortedMap Key Bytes),
      entries.foldlM (fun output entry => .ok (output.insert entry.key entry.value)) output
        = (.ok ((entries.map fun entry => (entry.key, entry.value)).foldl
          (fun map pair => map.insert pair.1 pair.2) output) : Except Failure _) := by
    intro entries
    induction entries with
    | nil => exact fun _ => rfl
    | cons entry entries ih => exact fun output => ih _
  rw [packed, (Combined.finds found smooth).gatherWithin, inserted]
  rfl

theorem packed_eq {table : Table} (sound : table.Sound) (filter : RetentionFilter)
    (window : Window) :
    table.packed filter window = .ok (SortedMap.ofList
      ((table.reduced filter window).map fun entry => (entry.key, entry.value))) := by
  have singles : ∀ entry ∈ table.stream.filter fun entry => filter.accepts entry.key,
      entry.Single := fun entry member =>
    single_of_mem_stream sound (List.mem_filter.mp member).1
  exact packed_of_finds (finds_all sound filter) (Combined.pack_singles window singles).1

/-- What is packed takes the place of all the entries. -/
theorem compact_eq_of_packed {table : Table} {filter : RetentionFilter} {window : Window}
    {output : SortedMap Key Bytes} (packed : table.packed filter window = .ok output) :
    table.compact filter window = .ok (⟨output, table.written⟩, ⟨table.size, output.size,
      table.size - (table.entries.filter fun key _ => output.contains key).size⟩) := by
  have entries : output.toList.foldl (fun entries pair => entries.insert pair.1 pair.2)
      (table.entries.filter fun key _ => output.contains key) = output := by
    apply SortedMap.ext_get?
    intro key
    rw [SortedMap.get?_foldl_insert, ← SortedMap.get?_ofList, SortedMap.ofList_toList]
    cases found : output.get? key with
    | some value => rfl
    | none =>
        rw [Option.none_or, SortedMap.get?_filter, SortedMap.contains, found]
        exact Option.filter_eq_none_iff.mpr fun _ _ => Bool.false_ne_true
  rw [compact, packed]
  exact congrArg (fun entries => Except.ok (Table.mk entries table.written, _)) entries

theorem compact_of_packed {table : Table} {filter : RetentionFilter} {window : Window}
    {output : SortedMap Key Bytes} (packed : table.packed filter window = .ok output) :
    ∃ report, table.compact filter window = .ok (⟨output, table.written⟩, report) :=
  ⟨_, compact_eq_of_packed packed⟩

/-- **A compaction** of a sound table does not fail, and what survives of the packed entries is
stored afterwards. -/
theorem exists_compact {table : Table} (sound : table.Sound) (filter : RetentionFilter)
    (window : Window) :
    ∃ compacted report, table.compact filter window = .ok (compacted, report)
      ∧ ∀ entry, entry ∈ compacted.stored ↔ Survives (table.reduced filter window) entry := by
  obtain ⟨report, compacted⟩ := compact_of_packed (packed_eq sound filter window)
  refine ⟨_, report, compacted, fun entry => ?_⟩
  rw [mem_stored, ← get?_ofList_eq_some_iff]

/-- What is packed is sound and made of what the filter accepts. -/
theorem sound_reduced {table : Table} (sound : table.Sound) (filter : RetentionFilter)
    (window : Window) :
    (∀ entry ∈ table.reduced filter window, entry.Sound)
      ∧ ((table.reduced filter window).flatMap Entry.parts).Perm
        (table.stream.filter fun entry => filter.accepts entry.key) :=
  (Combined.pack_singles window fun _ member =>
    single_of_mem_stream sound (List.mem_filter.mp member).1).2

theorem mem_of_survives {entries : List Entry} {entry : Entry} (survives : Survives entries entry) :
    entry ∈ entries := by
  obtain ⟨before, after, rfl, _⟩ := survives
  exact List.mem_append_right before List.mem_cons_self

theorem Sound.compact {table compacted : Table} (sound : table.Sound) {filter : RetentionFilter}
    {window : Window} {report : CompactionReport}
    (done : table.compact filter window = .ok (compacted, report)) : compacted.Sound := by
  obtain ⟨result, _, fine, stored⟩ := exists_compact sound filter window
  cases done.symm.trans fine
  intro entry member
  exact (sound_reduced sound filter window).1 entry (mem_of_survives ((stored entry).mp member))

/-! ## Runs -/

theorem sound_empty : empty.Sound := by
  intro entry member
  cases member

theorem Sound.next {table : Table} (sound : table.Sound) {event : TableEvent}
    (storable : event.Storable) : (table.next event).Sound := by
  cases event with
  | put sample => exact sound.put storable
  | compact filter window =>
      obtain ⟨compacted, report, done, _⟩ := exists_compact sound filter window
      rw [Table.next, done]
      exact sound.compact done

theorem sound_foldl {table : Table} (sound : table.Sound) {events : List TableEvent}
    (storable : ∀ event ∈ events, event.Storable) : (events.foldl Table.next table).Sound := by
  induction events generalizing table with
  | nil => exact sound
  | cons event events ih =>
      obtain ⟨here, there⟩ := List.forall_mem_cons.mp storable
      exact ih (sound.next here) there

/-- Every table that comes of storable samples is sound. -/
theorem sound_after {events : List TableEvent} (storable : ∀ event ∈ events, event.Storable) :
    (after events).Sound :=
  sound_foldl sound_empty storable

/-! ## What the samples of a table come from -/

theorem mem_samples {table : Table} {sample : Sample} :
    sample ∈ table.samples ↔ ∃ entry ∈ table.stored, sample ∈ entry.samples :=
  List.mem_flatMap

/-- The entries under which a sample is put hold this sample alone. -/
theorem samples_entryAt {sample : Sample} (storable : sample.series.Storable) {strand : Strand}
    (among : strand ∈ sample.series.strands) :
    (strand.entryAt sample.point).samples = [sample] := by
  have sound : strand.Sound := ⟨sample.series, storable, among⟩
  rw [← Stretch.entry_single, Stretch.samples_entry _ sound]
  show [Sample.mk strand.series sample.point] = _
  rw [Strand.series_of_mem storable among]

theorem mem_samples_put {table : Table} {sample : Sample} (storable : sample.series.Storable)
    {held : Sample} (member : held ∈ (table.put sample).samples) :
    held = sample ∨ held ∈ table.samples := by
  obtain ⟨entry, stored, found⟩ := mem_samples.mp member
  rcases (mem_stored_put table sample entry).mp stored with ⟨strand, among, rfl⟩ | ⟨old, _⟩
  · rw [samples_entryAt storable among] at found
    exact Or.inl (List.mem_singleton.mp found)
  · exact Or.inr (mem_samples.mpr ⟨entry, old, found⟩)

/-- What is packed holds the samples of the entries that the filter accepts. -/
theorem mem_samples_reduced {table : Table} (sound : table.Sound) (filter : RetentionFilter)
    (window : Window) (sample : Sample) :
    (∃ entry ∈ table.reduced filter window, sample ∈ entry.samples)
      ↔ ∃ part ∈ table.stream, filter.accepts part.key = true ∧ part.toSample = .ok sample := by
  have parts := (sound_reduced sound filter window).2
  constructor
  · rintro ⟨entry, among, held⟩
    obtain ⟨part, found, read⟩ := List.mem_filterMap.mp held
    have member := parts.mem_iff.mp (List.mem_flatMap.mpr ⟨entry, among, found⟩)
    obtain ⟨streamed, accepted⟩ := List.mem_filter.mp member
    exact ⟨part, streamed, accepted, Entry.toOption_toSample.mp read⟩
  · rintro ⟨part, streamed, accepted, read⟩
    have member := parts.mem_iff.mpr (List.mem_filter.mpr ⟨streamed, accepted⟩)
    obtain ⟨entry, among, found⟩ := List.mem_flatMap.mp member
    exact ⟨entry, among, List.mem_filterMap.mpr ⟨part, found, Entry.toOption_toSample.mpr read⟩⟩

theorem mem_samples_iff_stream {table : Table} {sample : Sample} :
    sample ∈ table.samples ↔ ∃ part ∈ table.stream, part.toSample = .ok sample := by
  rw [samples_eq, List.mem_filterMap]
  exact exists_congr fun part => and_congr Iff.rfl Entry.toOption_toSample

/-- A compaction invents nothing. -/
theorem mem_samples_compact {table compacted : Table} (sound : table.Sound)
    {filter : RetentionFilter} {window : Window} {report : CompactionReport}
    (done : table.compact filter window = .ok (compacted, report)) {sample : Sample}
    (member : sample ∈ compacted.samples) : sample ∈ table.samples := by
  obtain ⟨result, _, fine, stored⟩ := exists_compact sound filter window
  cases done.symm.trans fine
  obtain ⟨entry, survives, held⟩ := mem_samples.mp member
  obtain ⟨part, streamed, _, read⟩ := (mem_samples_reduced sound filter window sample).mp
    ⟨entry, mem_of_survives ((stored entry).mp survives), held⟩
  exact mem_samples_iff_stream.mpr ⟨part, streamed, read⟩

/-- What a table holds after an event was put by it or held before. -/
theorem mem_samples_next {table : Table} (sound : table.Sound) {event : TableEvent}
    (storable : event.Storable) {sample : Sample} (member : sample ∈ (table.next event).samples) :
    event.place? = some sample.place ∨ sample ∈ table.samples := by
  cases event with
  | put put =>
      rcases mem_samples_put storable member with rfl | old
      · exact Or.inl rfl
      · exact Or.inr old
  | compact filter window =>
      obtain ⟨compacted, report, done, _⟩ := exists_compact sound filter window
      rw [Table.next, done] at member
      exact Or.inr (mem_samples_compact sound done member)

theorem mem_samples_foldl {table : Table} (sound : table.Sound) {events : List TableEvent}
    (storable : ∀ event ∈ events, event.Storable) {sample : Sample}
    (member : sample ∈ (events.foldl Table.next table).samples) :
    sample.place ∈ events.filterMap TableEvent.place? ∨ sample ∈ table.samples := by
  induction events generalizing table with
  | nil => exact Or.inr member
  | cons event events ih =>
      obtain ⟨here, there⟩ := List.forall_mem_cons.mp storable
      rcases ih (sound.next here) there member with later | held
      · obtain ⟨other, among, put⟩ := List.mem_filterMap.mp later
        exact Or.inl (List.mem_filterMap.mpr ⟨other, List.mem_cons_of_mem event among, put⟩)
      · rcases mem_samples_next sound here held with put | old
        · exact Or.inl (List.mem_filterMap.mpr ⟨event, List.mem_cons_self, put⟩)
        · exact Or.inr old

/-- Whatever a table holds was put. -/
theorem place_of_mem_after {events : List TableEvent} (storable : ∀ event ∈ events, event.Storable)
    {sample : Sample} (member : sample ∈ (after events).samples) :
    sample.place ∈ events.filterMap TableEvent.place? := by
  rcases mem_samples_foldl sound_empty storable member with put | held
  · exact put
  · cases held

end Table

end TimeSeries
