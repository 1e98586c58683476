import TimeSeries.Proofs.Table.Compaction

/-!
# What a put does to reads

After a put the sample is shown: none of the entries behind those of the sample holds anything in
its place, since the points of an entry are not before its key.

Every other sample is as it was before, unless it was held by an entry that the put replaced.  Such
an entry is a packed run that starts at the timestamp of the sample, and with it the other points of
the run are lost.  A put leaves the rest alone exactly if whatever the table shows of these runs
prevails among the entries that remain (`Table.Spares`), in particular if nothing was put in the
place of the sample before.

Main statement: `Table.put_after`.
-/

set_option autoImplicit false

namespace TimeSeries

/-- Among the keys of one metric, a later one is not behind an earlier one. -/
theorem Strand.le_of_compare_key {strand other : Strand} (metric : strand.metric = other.metric)
    {left right : Timestamp} (before : compare (strand.key left) (other.key right) = .lt) :
    left ≤ right := by
  rw [Key.compare_eq] at before
  have rows : compare (strand.key left).row (other.key right).row = compare left right := by
    rw [Strand.key, Strand.key, metric, Row.compare_ofPoint_self]
  rw [rows] at before
  refine Int64.not_lt.mp fun after => ?_
  rw [Std.compare_eq_gt.mpr after] at before
  cases before

namespace Table

/-- The entry is stored, and a put of the sample leaves it there. -/
def Remains (table : Table) (sample : Sample) (entry : Entry) : Prop :=
  entry ∈ table.stored ∧ ¬ IsUnder entry.key sample

/-- What the table shows of the entries that a put replaces, other than the sample itself, prevails
among those that remain. -/
def Spares (table : Table) (sample : Sample) : Prop :=
  ∀ entry ∈ table.stored, IsUnder entry.key sample → ∀ other ∈ entry.samples,
    other.place ≠ sample.place → table.Shows other → Prevails (table.Remains sample) other

variable {table : Table} {sample : Sample}

/-- An entry behind one of those of a sample, and not under the keys of the sample, has no point at
its time. -/
theorem place_ne_of_behind {entry : Entry} (sound : entry.Sound) {strand : Strand}
    (among : strand ∈ sample.series.strands)
    (behind : compare (strand.key sample.point.timestamp) entry.key = .lt)
    (apart : ¬ IsUnder entry.key sample) {rival : Sample} (held : rival ∈ entry.samples) :
    rival.place ≠ sample.place := by
  intro place
  obtain ⟨stretch, ofSeries, rfl⟩ := sound
  rw [stretch.samples_entry ofSeries] at held
  obtain ⟨point, inStretch, rfl⟩ := List.mem_map.mp held
  obtain ⟨series, time⟩ := Prod.mk.inj place
  have series : stretch.strand.series = sample.series := series
  have time : point.timestamp = sample.point.timestamp := time
  obtain ⟨owner, ownerStorable, ownerStrand⟩ := ofSeries
  have owns : owner = sample.series :=
    (Strand.series_of_mem ownerStorable ownerStrand).symm.trans series
  have metric : strand.metric = stretch.strand.metric := by
    rw [Series.metric_of_mem_strands among, Series.metric_of_mem_strands ownerStrand, owns]
  have notAfter := stretch.first_le inStretch
  have notBefore : sample.point.timestamp ≤ stretch.first.timestamp :=
    Strand.le_of_compare_key metric behind
  refine apart ⟨stretch.strand, owns ▸ ownerStrand, ?_⟩
  have same : stretch.first.timestamp = sample.point.timestamp :=
    Int64.le_antisymm (time ▸ notAfter) notBefore
  rw [← same]
  rfl

/-- **What was put is shown.** -/
theorem shows_put (sound : table.Sound) (storable : sample.series.Storable) :
    (table.put sample).Shows sample := by
  obtain ⟨strand, among⟩ := List.exists_mem_of_ne_nil _ sample.series.strands_ne_nil
  refine (shows_iff_prevails (sound.put storable) sample).mpr
    ⟨strand.entryAt sample.point, ?_, ?_, ?_⟩
  · exact (mem_stored_put table sample _).mpr (Or.inl ⟨strand, among, rfl⟩)
  · rw [samples_entryAt storable among]
    exact List.mem_singleton_self sample
  · intro entry stored behind rival held place
    rcases (mem_stored_put table sample entry).mp stored with ⟨other, here, rfl⟩ | ⟨old, apart⟩
    · rw [samples_entryAt storable here] at held
      exact List.mem_singleton.mp held
    · exact absurd place (place_ne_of_behind (sound entry old) among behind apart held)

/-- What is shown of other places prevails among the entries that remain. -/
theorem shows_put_iff (sound : table.Sound) (storable : sample.series.Storable) {other : Sample}
    (place : other.place ≠ sample.place) :
    (table.put sample).Shows other ↔ Prevails (table.Remains sample) other := by
  have alone : ∀ strand ∈ sample.series.strands, ∀ held ∈ (strand.entryAt sample.point).samples,
      held.place = sample.place := by
    intro strand among held member
    rw [samples_entryAt storable among, List.mem_singleton] at member
    rw [member]
  rw [shows_iff_prevails (sound.put storable)]
  constructor
  · rintro ⟨entry, stored, held, last⟩
    rcases (mem_stored_put table sample entry).mp stored with ⟨strand, among, rfl⟩ | remains
    · exact absurd (alone strand among other held) place
    · exact ⟨entry, remains, held, fun another stays =>
        last another ((mem_stored_put table sample another).mpr (Or.inr stays))⟩
  · rintro ⟨entry, remains, held, last⟩
    refine ⟨entry, (mem_stored_put table sample entry).mpr (Or.inr remains), held, ?_⟩
    intro another stored behind rival found same
    rcases (mem_stored_put table sample another).mp stored with ⟨strand, among, rfl⟩ | stays
    · exact absurd (same.symm.trans (alone strand among rival found)) place
    · exact last another stays behind rival found same

/-- What the table shows and no replaced entry holds prevails among those that remain. -/
theorem Shows.prevails_remains (sound : table.Sound) {other : Sample} (shown : table.Shows other)
    (kept : ∀ entry ∈ table.stored, IsUnder entry.key sample → other ∈ entry.samples →
      Prevails (table.Remains sample) other) : Prevails (table.Remains sample) other := by
  obtain ⟨entry, stored, held, last⟩ := (shows_iff_prevails sound other).mp shown
  by_cases under : IsUnder entry.key sample
  · exact kept entry stored under held
  · exact ⟨entry, ⟨stored, under⟩, held, fun another stays => last another stays.1⟩

/-- Of some places other than that of the sample, whatever is shown stays as it was if the entries
that remain tell the same of what is replaced. -/
theorem readsAlike_put_iff (sound : table.Sound) (storable : sample.series.Storable)
    {places : Series × Timestamp → Prop} (others : ∀ place, places place → place ≠ sample.place) :
    ReadsAlike places (table.put sample) table
      ↔ ∀ entry ∈ table.stored, IsUnder entry.key sample → ∀ other ∈ entry.samples,
        places other.place → table.Shows other → Prevails (table.Remains sample) other := by
  rw [readsAlike_iff (sound.put storable) sound]
  constructor
  · intro same entry _ _ other _ named shown
    exact (shows_put_iff sound storable (others _ named)).mp ((same other named).mpr shown)
  · intro spared
    refine shows_iff_of_shows places (fun other named shown => ?_) fun other named shown => ?_
    · obtain ⟨entry, remains, held, _⟩ := (shows_put_iff sound storable (others _ named)).mp shown
      exact mem_samples.mpr ⟨entry, remains.1, held⟩
    · exact (shows_put_iff sound storable (others _ named)).mpr
        (shown.prevails_remains sound fun entry stored under held =>
          spared entry stored under other held named shown)

/-- An entry under a key of a sample holds samples of its series, one of them in its place. -/
theorem samples_of_isUnder {entry : Entry} (sound : entry.Sound)
    (storable : sample.series.Storable) (under : IsUnder entry.key sample) :
    (∀ held ∈ entry.samples, held.series = sample.series)
      ∧ ∃ held ∈ entry.samples, held.place = sample.place := by
  obtain ⟨stretch, ofSeries, rfl⟩ := sound
  obtain ⟨strand, among, named⟩ := under
  obtain ⟨same, time⟩ := Strand.key_injective (stretch.key_entry.symm.trans named)
  have series : stretch.strand.series = sample.series := by
    rw [same]
    exact Strand.series_of_mem storable among
  rw [stretch.samples_entry ofSeries]
  constructor
  · intro held member
    obtain ⟨point, _, rfl⟩ := List.mem_map.mp member
    exact series
  · refine ⟨_, List.mem_map.mpr ⟨stretch.first, List.mem_cons_self, rfl⟩, ?_⟩
    exact Prod.ext series time

/-- **A put of a storable sample**, after any puts of such samples and any compactions.  A read of
the series at the timestamp returns what was put; other series are read as before; and so are the
other timestamps of the series exactly if the table spares them, which it does if nothing was put in
the place of the sample before. -/
theorem put_after {events : List TableEvent} (storable : ∀ event ∈ events, event.Storable)
    {sample : Sample} (fits : sample.series.Storable) :
    (∀ start stop (filter : RetentionFilter), filter.KeepsAll →
      start ≤ sample.point.timestamp → sample.point.timestamp ≤ stop →
      ∃ samples, ((after events).put sample).read sample.series.metric start stop filter
          = .ok samples
        ∧ ∀ held, held.place = sample.place → (held ∈ samples ↔ held = sample))
    ∧ ReadsAlike (fun place => place.1 ≠ sample.series) ((after events).put sample) (after events)
    ∧ (ReadsAlike (· ≠ sample.place) ((after events).put sample) (after events)
      ↔ (after events).Spares sample)
    ∧ (sample.place ∉ events.filterMap TableEvent.place? →
      ReadsAlike (· ≠ sample.place) ((after events).put sample) (after events)) := by
  have sound := sound_after storable
  have spares : ReadsAlike (· ≠ sample.place) ((after events).put sample) (after events)
      ↔ (after events).Spares sample := readsAlike_put_iff sound fits fun _ apart => apart
  refine ⟨fun start stop filter keepsAll notBefore notAfter => ?_, ?_, spares, fun fresh => ?_⟩
  · obtain ⟨samples, read, shown⟩ :=
      exists_read (sound.put fits) fits.metric start stop keepsAll
    refine ⟨samples, read, fun held place => ?_⟩
    rw [shown]
    constructor
    · exact fun returned => returned.2.unique (shows_put sound fits) place
    · rintro rfl
      exact ⟨⟨rfl, notBefore, notAfter⟩, shows_put sound fits⟩
  · have others : ∀ place : Series × Timestamp, place.1 ≠ sample.series → place ≠ sample.place :=
      fun _ apart same => apart (congrArg Prod.fst same)
    refine (readsAlike_put_iff sound fits others).mpr fun entry stored under other held apart => ?_
    exact absurd ((samples_of_isUnder (sound entry stored) fits under).1 other held) apart
  · refine spares.mpr fun entry stored under => ?_
    obtain ⟨held, member, place⟩ := (samples_of_isUnder (sound entry stored) fits under).2
    have put := place_of_mem_after storable (mem_samples.mpr ⟨entry, stored, member⟩)
    exact absurd (place ▸ put) fresh

/-- A point is put behind the first point of a packed run and in front of the second. -/
theorem put_after_packing :
    let series : Series := ⟨"m", .ofList [("h", "a")], none⟩
    let events : List TableEvent := [.put ⟨series, ⟨0, ⟨1⟩⟩⟩, .put ⟨series, ⟨1000, ⟨2⟩⟩⟩,
      .compact ⟨.ofDefault Timestamp.latest, 0⟩ .whole]
    let sample : Sample := ⟨series, ⟨500, ⟨3⟩⟩⟩
    (∃ samples, ((after events).put sample).read "m" 0 1000 ⟨.ofDefault Timestamp.latest, 0⟩
        = .ok samples ∧ sample ∈ samples)
      ∧ ReadsAlike (· ≠ sample.place) ((after events).put sample) (after events) := by
  intro series events sample
  have storable : series.Storable := ⟨by rw [Row.ZeroFree]; decide, by decide, by decide⟩
  have fresh : sample.place ∉ events.filterMap TableEvent.place? := by
    show (series, (500 : Timestamp)) ∉ [(series, (0 : Timestamp)), (series, 1000)]
    simp
  obtain ⟨returned, _, _, alike⟩ := put_after
    (show ∀ event ∈ events, event.Storable by simp [events, TableEvent.Storable, storable])
    (show sample.series.Storable from storable)
  obtain ⟨samples, read, found⟩ := returned 0 1000 _ (RetentionFilter.keepsAll_latest 0)
    (by decide) (by decide)
  exact ⟨⟨samples, read, (found sample rfl).mpr rfl⟩, alike fresh⟩

end Table

end TimeSeries
