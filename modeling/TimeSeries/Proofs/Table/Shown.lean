import Mathlib.Data.List.Nodup
import TimeSeries.Proofs.Table.Contents

/-!
# What a table shows

A table shows a sample if a read that asks for its series and timestamp, and leaves nothing out for
its age, returns it.  In terms of entries: one of them holds the sample, and none that is behind it
in the order of keys holds another value for the same series and timestamp (`Prevails`).

Main statements: `Table.shows_iff_prevails`, `Table.exists_read`, and `Table.sameReads_iff`, by
which two tables that show the same samples are read alike.
-/

set_option autoImplicit false

namespace TimeSeries

/-! ## Keeping everything -/

/-- Whatever its metric and time, a point is retained. -/
def RetentionFilter.KeepsAll (filter : RetentionFilter) : Prop :=
  ∀ metric timestamp, filter.retention.retains metric timestamp filter.now = true

namespace RetentionFilter

theorem KeepsAll.accepts {filter : RetentionFilter} (keepsAll : filter.KeepsAll) (key : Key) :
    filter.accepts key = true := by
  rw [RetentionFilter.accepts]
  cases key.metric with
  | error failure => rfl
  | ok metric => exact keepsAll metric key.timestamp

/-- Nothing is older than the greatest time for which points can be kept. -/
theorem keepsAll_latest (now : Timestamp) :
    KeepsAll ⟨Retention.ofDefault Timestamp.latest, now⟩ := by
  intro metric timestamp
  exact decide_eq_true (Int64.le_maxValue _)

end RetentionFilter

/-! ## Entries that prevail -/

/-- What a sample is the sample of. -/
def Sample.place (sample : Sample) : Series × Timestamp := (sample.series, sample.point.timestamp)

/-- Among some entries, one holds the sample, and none behind it holds another one in its place. -/
def Prevails (among : Entry → Prop) (sample : Sample) : Prop :=
  ∃ entry, among entry ∧ sample ∈ entry.samples
    ∧ ∀ other, among other → compare entry.key other.key = .lt →
      ∀ rival ∈ other.samples, rival.place = sample.place → rival = sample

theorem Sample.eq_of_place {sample other : Sample} (place : sample.place = other.place)
    (value : sample.point.value = other.point.value) : sample = other := by
  obtain ⟨series, timestamp, _⟩ := sample
  obtain ⟨another, time, _⟩ := other
  obtain ⟨rfl, rfl⟩ := Prod.mk.inj place
  cases value
  rfl

namespace Entry

/-- An entry holds one sample at most for a series and timestamp. -/
theorem Sound.eq_of_place {entry : Entry} (sound : entry.Sound) {first second : Sample}
    (here : first ∈ entry.samples) (there : second ∈ entry.samples)
    (place : first.place = second.place) : first = second := by
  obtain ⟨stretch, strand, rfl⟩ := sound
  rw [stretch.samples_entry strand, List.mem_map] at here there
  obtain ⟨point, among, rfl⟩ := here
  obtain ⟨other, member, rfl⟩ := there
  have distinct : (stretch.points.map Point.timestamp).Nodup :=
    List.pairwise_map.mpr (stretch.ascending.imp fun before => Int64.ne_of_lt before)
  rw [List.inj_on_of_nodup_map distinct among member (Prod.mk.inj place).2]

/-- The value that an entry holds for a series and timestamp. -/
theorem Sound.lookup_eq_some_iff {entry : Entry} (sound : entry.Sound) (sample : Sample) :
    SortedMap.lookup sample.place
        (entry.samples.map fun held => (held.place, held.point.value)).reverse
        = some sample.point.value
      ↔ sample ∈ entry.samples := by
  constructor
  · intro found
    obtain ⟨held, member, same⟩ := List.mem_map.mp
      (List.mem_reverse.mp (SortedMap.mem_of_lookup found))
    obtain ⟨place, value⟩ := Prod.mk.inj same
    rwa [← Sample.eq_of_place place value]
  · intro member
    refine SortedMap.lookup_of_agreeing
      (List.mem_reverse.mpr (List.mem_map.mpr ⟨sample, member, rfl⟩)) fun value found => ?_
    obtain ⟨held, other, same⟩ := List.mem_map.mp (List.mem_reverse.mp found)
    obtain ⟨place, value⟩ := Prod.mk.inj same
    rw [← value, sound.eq_of_place other member place]

end Entry

/-- The last value for a series and timestamp among the samples of entries in the order of their
keys is that of the sample that prevails. -/
theorem lookup_samples_iff_prevails {entries : List Entry}
    (sorted : entries.Pairwise fun first second => compare first.key second.key = .lt)
    (sound : ∀ entry ∈ entries, entry.Sound) (sample : Sample) :
    SortedMap.lookup sample.place
        ((entries.flatMap Entry.samples).map fun held => (held.place, held.point.value)).reverse
        = some sample.point.value
      ↔ Prevails (· ∈ entries) sample := by
  induction entries with
  | nil =>
      constructor
      · intro found
        cases found
      · rintro ⟨entry, member, _⟩
        cases member
  | cons entry entries ih =>
      obtain ⟨before, sorted⟩ := List.pairwise_cons.mp sorted
      obtain ⟨here, there⟩ := List.forall_mem_cons.mp sound
      have ih := ih sorted there
      rw [List.flatMap_cons, List.map_append, List.reverse_append, SortedMap.lookup_append]
      cases later : SortedMap.lookup sample.place ((entries.flatMap Entry.samples).map fun held =>
          (held.place, held.point.value)).reverse with
      | none =>
          -- no entry behind the first holds anything in the place of the sample
          have absent : ∀ other ∈ entries, ∀ rival ∈ other.samples, rival.place ≠ sample.place := by
            intro other member rival held
            exact SortedMap.lookup_eq_none_iff.mp later _ (List.mem_reverse.mpr
              (List.mem_map.mpr ⟨rival, List.mem_flatMap.mpr ⟨other, member, held⟩, rfl⟩))
          rw [Option.none_or, here.lookup_eq_some_iff]
          constructor
          · intro held
            refine ⟨entry, List.mem_cons_self, held, fun other among after rival found same => ?_⟩
            rcases List.mem_cons.mp among with rfl | behind
            · exact here.eq_of_place found held same
            · exact absurd same (absent other behind rival found)
          · rintro ⟨holder, among, held, _⟩
            rcases List.mem_cons.mp among with rfl | behind
            · exact held
            · exact absurd rfl (absent holder behind sample held)
      | some value =>
          -- what is held behind the first entry counts, whatever the first entry holds
          rw [Option.some_or, ← later, ih]
          constructor
          · rintro ⟨holder, behind, held, last⟩
            refine ⟨holder, List.mem_cons_of_mem entry behind, held, fun other among after => ?_⟩
            rcases List.mem_cons.mp among with rfl | others
            · exact absurd after (by rw [Std.OrientedCmp.gt_of_lt (before holder behind)]; simp)
            · exact last other others after
          · rintro ⟨holder, among, held, last⟩
            have inRest : ∀ other, other ∈ entries → compare holder.key other.key = .lt →
                ∀ rival ∈ other.samples, rival.place = sample.place → rival = sample :=
              fun other member => last other (List.mem_cons_of_mem entry member)
            rcases List.mem_cons.mp among with rfl | behind
            · obtain ⟨pair, member, same⟩ := List.mem_map.mp
                (List.mem_reverse.mp (SortedMap.mem_of_lookup later))
              obtain ⟨other, another, found⟩ := List.mem_flatMap.mp member
              have agrees := inRest other another (before other another) pair found
                (Prod.mk.inj same).1
              rw [agrees] at found
              refine ⟨other, another, found, fun third thirdAmong after => ?_⟩
              exact inRest third thirdAmong
                (Std.TransCmp.lt_trans (before other another) after)
            · exact ⟨holder, behind, held, inRest⟩

/-! ## Tables -/

namespace Table

/-- The last value of the series and timestamp of a sample is its value. -/
def Shows (table : Table) (sample : Sample) : Prop :=
  table.values.get? sample.place = some sample.point.value

/-- **What a table shows** is what prevails among its entries. -/
theorem shows_iff_prevails {table : Table} (sound : table.Sound) (sample : Sample) :
    table.Shows sample ↔ Prevails (· ∈ table.stored) sample := by
  rw [← lookup_samples_iff_prevails (sorted_stored table) sound, Shows, values, latest,
    SortedMap.get?_ofList]
  rfl

theorem zeroFree_of_mem_samples {entry : Entry} (sound : entry.Sound) {sample : Sample}
    (held : sample ∈ entry.samples) : Row.ZeroFree sample.series.metric := by
  obtain ⟨stretch, strand, rfl⟩ := sound
  rw [stretch.samples_entry strand, List.mem_map] at held
  obtain ⟨point, _, rfl⟩ := held
  exact strand.metric_series ▸ strand.zeroFree

theorem Shows.zeroFree {table : Table} (sound : table.Sound) {sample : Sample}
    (shown : table.Shows sample) : Row.ZeroFree sample.series.metric := by
  obtain ⟨entry, stored, held, _⟩ := (shows_iff_prevails sound sample).mp shown
  exact zeroFree_of_mem_samples (sound entry stored) held

theorem Shows.unique {table : Table} {first second : Sample} (here : table.Shows first)
    (there : table.Shows second) (place : first.place = second.place) : first = second := by
  rw [Shows, place, show table.values.get? second.place = _ from there] at here
  exact Sample.eq_of_place place (Option.some.inj here).symm

theorem isAsked_of_keepsAll {filter : RetentionFilter} (keepsAll : filter.KeepsAll)
    (metric : String) (start stop : Timestamp) (key : Series × Timestamp) :
    isAsked metric start stop filter key = true
      ↔ key.1.metric = metric ∧ start ≤ key.2 ∧ key.2 ≤ stop := by
  rw [isAsked, keepsAll, Bool.and_true]
  simp only [Bool.and_eq_true, decide_eq_true_eq, and_assoc]

/-- A read that leaves nothing out for its age returns the samples that the table shows for its
metric and span. -/
theorem exists_read {table : Table} (sound : table.Sound) {metric : String}
    (free : Row.ZeroFree metric) (start stop : Timestamp) {filter : RetentionFilter}
    (keepsAll : filter.KeepsAll) :
    ∃ samples, table.read metric start stop filter = .ok samples
      ∧ ∀ sample, sample ∈ samples ↔ (sample.series.metric = metric
        ∧ start ≤ sample.point.timestamp ∧ sample.point.timestamp ≤ stop) ∧ table.Shows sample := by
  refine ⟨_, read_eq sound free start stop filter, fun sample => ?_⟩
  have asked := isAsked_of_keepsAll keepsAll metric start stop sample.place
  rw [show sample.series = sample.place.1 from rfl,
    show sample.point.timestamp = sample.place.2 from rfl, ← asked, Shows, List.mem_map]
  constructor
  · rintro ⟨⟨place, value⟩, member, rfl⟩
    have found := (SortedMap.mem_toList_iff _ _ _).mp member
    rw [SortedMap.get?_filter, Option.filter_eq_some_iff] at found
    exact ⟨found.2, found.1⟩
  · rintro ⟨asked, shown⟩
    refine ⟨(sample.place, sample.point.value), (SortedMap.mem_toList_iff _ _ _).mpr ?_, rfl⟩
    rw [SortedMap.get?_filter, Option.filter_eq_some_iff]
    exact ⟨shown, asked⟩

/-! ## Tables that are read alike -/

/-- Every read that leaves nothing out for its age returns the same from both tables. -/
def SameReads (table other : Table) : Prop :=
  ∀ metric, Row.ZeroFree metric → ∀ start stop (filter : RetentionFilter), filter.KeepsAll →
    ∃ samples, table.read metric start stop filter = .ok samples
      ∧ other.read metric start stop filter = .ok samples

/-- Every read that leaves nothing out for its age returns from both tables the same samples of
the given series and timestamps. -/
def ReadsAlike (places : Series × Timestamp → Prop) (table other : Table) : Prop :=
  ∀ metric, Row.ZeroFree metric → ∀ start stop (filter : RetentionFilter), filter.KeepsAll →
    ∃ samples others, table.read metric start stop filter = .ok samples
      ∧ other.read metric start stop filter = .ok others
      ∧ ∀ sample, places sample.place → (sample ∈ samples ↔ sample ∈ others)

variable {table other : Table}

theorem readsAlike_iff (sound : table.Sound) (otherSound : other.Sound)
    (places : Series × Timestamp → Prop) :
    ReadsAlike places table other
      ↔ ∀ sample, places sample.place → (table.Shows sample ↔ other.Shows sample) := by
  constructor
  · intro alike sample named
    by_cases free : Row.ZeroFree sample.series.metric
    · have keepsAll := RetentionFilter.keepsAll_latest 0
      obtain ⟨samples, others, here, there, same⟩ := alike _ free sample.point.timestamp
        sample.point.timestamp _ keepsAll
      obtain ⟨_, read, shown⟩ := exists_read sound free sample.point.timestamp
        sample.point.timestamp keepsAll
      obtain ⟨_, otherRead, otherShown⟩ := exists_read otherSound free sample.point.timestamp
        sample.point.timestamp keepsAll
      cases here.symm.trans read
      cases there.symm.trans otherRead
      have inside : sample.series.metric = sample.series.metric
          ∧ sample.point.timestamp ≤ sample.point.timestamp
          ∧ sample.point.timestamp ≤ sample.point.timestamp :=
        ⟨rfl, Int64.le_refl _, Int64.le_refl _⟩
      have agree := same sample named
      rw [shown, otherShown] at agree
      exact ⟨fun held => (agree.mp ⟨inside, held⟩).2, fun held => (agree.mpr ⟨inside, held⟩).2⟩
    · exact ⟨fun held => absurd (Shows.zeroFree sound held) free,
        fun held => absurd (Shows.zeroFree otherSound held) free⟩
  · intro same metric free start stop filter keepsAll
    obtain ⟨samples, read, shown⟩ := exists_read sound free start stop keepsAll
    obtain ⟨others, otherRead, otherShown⟩ := exists_read otherSound free start stop keepsAll
    refine ⟨samples, others, read, otherRead, fun sample named => ?_⟩
    rw [shown, otherShown, same sample named]

/-- **Tables that show the same samples** are read alike, and only these. -/
theorem sameReads_iff (sound : table.Sound) (otherSound : other.Sound) :
    SameReads table other ↔ ∀ sample, table.Shows sample ↔ other.Shows sample := by
  constructor
  · intro alike
    have everywhere : ReadsAlike (fun _ => True) table other := by
      intro metric free start stop filter keepsAll
      obtain ⟨samples, here, there⟩ := alike metric free start stop filter keepsAll
      exact ⟨samples, samples, here, there, fun _ _ => Iff.rfl⟩
    intro sample
    exact (readsAlike_iff sound otherSound _).mp everywhere sample trivial
  · intro same metric free start stop filter _
    have values : table.values = other.values := by
      apply SortedMap.ext_get?
      rintro ⟨series, timestamp⟩
      apply Option.ext
      intro value
      exact same ⟨series, ⟨timestamp, value⟩⟩
    refine ⟨_, read_eq sound free start stop filter, ?_⟩
    rw [read_eq otherSound free start stop filter, values]

end Table

end TimeSeries
