import TimeSeries.Proofs.Table.Compaction
import TimeSeries.Proofs.Table.Isolation

/-!
# Retention at compaction and at read

Samples are put into an empty table in any order, one perhaps in the place of another, and then the
table is compacted several times, with any windows and any filters.  What a read returns of it is
the sample that was put last in each place, if the filter of the read and the filters of all
compactions retain it.  It makes no difference whether a sample expires at a compaction or at the
read, and neither does the run in which it was packed, though the key of the run may have expired
long before.

After the puts every entry holds a single sample, the last one of its place, so no two entries share
a point and the strands of a series agree (`holds_puts`).  A compaction keeps it so and leaves out
the samples that its filter does not retain (`Holds.compact`); and of such a table a read returns
what is held, no more and no less (`Holds.read`).

The metrics that are put have names without zeros.  Still some of their rows lie within the range of
a name that continues theirs by a zero, and a read of such a name returns samples of another metric.
A read promises the samples of its metric, and nothing refuses the name: this is the defect that
`read_isolated` states, met in the name that is asked for.  Of all other names a read returns what
it promises.

Main statement: `Table.read_after_age_off`.
-/

set_option autoImplicit false

namespace TimeSeries

/-- The filter retains what is put in a place. -/
def RetentionFilter.Keeps (filter : RetentionFilter) (place : Series × Timestamp) : Prop :=
  filter.retention.retains place.1.metric place.2 filter.now = true

/-- The sample was put, and none behind it in the same place. -/
def LastPut (samples : List Sample) (sample : Sample) : Prop :=
  ∃ before behind, samples = before ++ sample :: behind
    ∧ ∀ other ∈ behind, other.place ≠ sample.place

theorem LastPut.mem {samples : List Sample} {sample : Sample} (last : LastPut samples sample) :
    sample ∈ samples := by
  obtain ⟨before, behind, rfl, _⟩ := last
  exact List.mem_append_right before List.mem_cons_self

/-- One more sample is put last in its place; the other places are as they were. -/
theorem lastPut_concat {samples : List Sample} {put sample : Sample} :
    LastPut (samples ++ [put]) sample
      ↔ sample = put ∨ LastPut samples sample ∧ sample.place ≠ put.place := by
  constructor
  · rintro ⟨before, behind, split, others⟩
    rcases List.eq_nil_or_concat behind with rfl | ⟨rest, final, rfl⟩
    · rw [List.append_inj_right' split rfl |> List.singleton_inj.mp]
      exact Or.inl rfl
    · rw [List.concat_eq_append] at split others
      rw [← List.cons_append, ← List.append_assoc] at split
      obtain ⟨front, same⟩ := List.append_inj' split rfl
      rw [List.singleton_inj] at same
      subst same
      refine Or.inr ⟨⟨before, rest, front, fun other member => ?_⟩, ?_⟩
      · exact others other (List.mem_append_left _ member)
      · exact Ne.symm (others put (List.mem_append_right _ List.mem_cons_self))
  · rintro (rfl | ⟨⟨before, behind, rfl, others⟩, apart⟩)
    · exact ⟨samples, [], rfl, by simp⟩
    · refine ⟨before, behind ++ [put], by simp, fun other member => ?_⟩
      rcases List.mem_append.mp member with earlier | here
      · exact others other earlier
      · rw [List.mem_singleton.mp here]
        exact Ne.symm apart

/-- One sample is put last in a place. -/
theorem LastPut.unique {samples : List Sample} {first second : Sample}
    (here : LastPut samples first) (there : LastPut samples second)
    (place : first.place = second.place) : first = second := by
  induction samples using List.reverseRecOn with
  | nil => cases here.mem
  | append_singleton samples put ih =>
      rcases lastPut_concat.mp here with rfl | ⟨early, apart⟩
      · rcases lastPut_concat.mp there with rfl | ⟨_, other⟩
        · rfl
        · exact absurd place.symm other
      · rcases lastPut_concat.mp there with rfl | ⟨earlier, _⟩
        · exact absurd place apart
        · exact ih early earlier

namespace Table

/-! ## Tables of single samples -/

/-- Every entry holds one sample, the last one put in its place, and each of these is held under all
its keys. -/
def HoldsSingly (table : Table) (samples : List Sample) : Prop :=
  ∀ entry, entry ∈ table.stored ↔ ∃ sample, LastPut samples sample
    ∧ ∃ strand ∈ sample.series.strands, entry = strand.entryAt sample.point

theorem holdsSingly_empty : empty.HoldsSingly [] := by
  intro entry
  constructor
  · intro member
    cases member
  · rintro ⟨sample, last, _⟩
    cases last.mem

/-- The keys of a sample are those of its place. -/
theorem isUnder_iff_place {sample other : Sample} (storable : sample.series.Storable)
    (otherStorable : other.series.Storable) {strand : Strand}
    (among : strand ∈ other.series.strands) :
    IsUnder (strand.key other.point.timestamp) sample ↔ other.place = sample.place := by
  constructor
  · rintro ⟨another, here, same⟩
    obtain ⟨rfl, time⟩ := Strand.key_injective same
    refine Prod.ext ?_ time
    exact (Strand.series_of_mem otherStorable among).symm.trans (Strand.series_of_mem storable here)
  · intro place
    obtain ⟨series, time⟩ := Prod.mk.inj place
    exact ⟨strand, series ▸ among, by rw [time]⟩

theorem HoldsSingly.put {table : Table} {samples : List Sample} (holds : table.HoldsSingly samples)
    (storable : ∀ sample ∈ samples, sample.series.Storable) {sample : Sample}
    (fits : sample.series.Storable) : (table.put sample).HoldsSingly (samples ++ [sample]) := by
  intro entry
  rw [mem_stored_put, holds]
  constructor
  · rintro (⟨strand, among, rfl⟩ | ⟨⟨other, last, strand, among, rfl⟩, apart⟩)
    · exact ⟨sample, lastPut_concat.mpr (Or.inl rfl), strand, among, rfl⟩
    · refine ⟨other, lastPut_concat.mpr (Or.inr ⟨last, ?_⟩), strand, among, rfl⟩
      exact mt (isUnder_iff_place fits (storable other last.mem) among).mpr apart
  · rintro ⟨other, last, strand, among, rfl⟩
    rcases lastPut_concat.mp last with rfl | ⟨early, apart⟩
    · exact Or.inl ⟨strand, among, rfl⟩
    · refine Or.inr ⟨⟨other, early, strand, among, rfl⟩, ?_⟩
      exact mt (isUnder_iff_place fits (storable other early.mem) among).mp apart

theorem holdsSingly_puts {samples : List Sample}
    (storable : ∀ sample ∈ samples, sample.series.Storable) :
    (after (samples.map .put)).HoldsSingly samples := by
  induction samples using List.reverseRecOn with
  | nil => exact holdsSingly_empty
  | append_singleton samples sample ih =>
      have earlier : ∀ other ∈ samples, other.series.Storable := fun other member =>
        storable other (List.mem_append_left _ member)
      have fits := storable sample (List.mem_append_right _ List.mem_cons_self)
      rw [after, List.map_append, List.foldl_append]
      exact (ih earlier).put earlier fits

/-! ## What a table holds -/

/-- The table holds exactly the samples of a predicate, each of them once in each of its strands. -/
structure Holds (table : Table) (held : Sample → Prop) : Prop where
  sound : table.Sound
  orderly : table.Orderly
  samples : ∀ sample, sample ∈ table.samples ↔ held sample

/-- After puts, a table holds the last sample of each place. -/
theorem holds_puts {samples : List Sample}
    (storable : ∀ sample ∈ samples, sample.series.Storable) :
    (after (samples.map .put)).Holds (LastPut samples) := by
  have singly := holdsSingly_puts storable
  have held : ∀ sample, sample ∈ (after (samples.map .put)).samples ↔ LastPut samples sample := by
    intro sample
    rw [mem_samples]
    constructor
    · rintro ⟨entry, stored, found⟩
      obtain ⟨other, last, strand, among, rfl⟩ := (singly entry).mp stored
      rw [samples_entryAt (storable other last.mem) among, List.mem_singleton] at found
      rwa [found]
    · intro last
      obtain ⟨strand, among⟩ := List.exists_mem_of_ne_nil _ sample.series.strands_ne_nil
      refine ⟨strand.entryAt sample.point, (singly _).mpr ⟨sample, last, strand, among, rfl⟩, ?_⟩
      rw [samples_entryAt (storable sample last.mem) among]
      exact List.mem_singleton_self sample
  refine ⟨?_, ⟨?_, ?_⟩, held⟩
  · refine sound_after fun event member => ?_
    obtain ⟨sample, among, rfl⟩ := List.mem_map.mp member
    exact storable sample among
  · intro first here second there key inFirst inSecond
    -- both entries have one part, whose key is their own
    obtain ⟨_, _, strand, _, rfl⟩ := (singly first).mp here
    obtain ⟨_, _, other, _, rfl⟩ := (singly second).mp there
    rw [← Stretch.entry_single, Stretch.parts_entry, Stretch.parts_single, List.map_singleton,
      List.mem_singleton, Strand.key_entryAt] at inFirst inSecond
    have value := mem_stored.mp here
    rw [Strand.key_entryAt, inFirst.symm.trans inSecond, ← Strand.key_entryAt,
      mem_stored.mp there, Option.some.injEq] at value
    have key : (strand.entryAt _).key = (other.entryAt _).key := inFirst.symm.trans inSecond
    exact (congrArg₂ Entry.mk key value.symm :)
  · intro first here second there place
    exact ((held first).mp here).unique ((held second).mp there) place

/-- What an entry of one point holds is retained exactly if its key is accepted. -/
theorem accepts_iff_keeps {filter : RetentionFilter} {part : Entry} (single : part.Single)
    {sample : Sample} (read : part.toSample = .ok sample) :
    filter.accepts part.key = true ↔ filter.Keeps sample.place := by
  obtain ⟨strand, sound, point, rfl⟩ := single
  rw [sound.toSample_entryAt, Except.ok.injEq] at read
  subst read
  rw [RetentionFilter.accepts, Strand.key_entryAt, Strand.metric_key, RetentionFilter.Keeps,
    Sample.place, sound.metric_series, Strand.timestamp_key]

/-- **A compaction** leaves out the samples that its filter does not retain, and nothing else. -/
theorem Holds.compact {table : Table} {held : Sample → Prop} (holds : table.Holds held)
    (filter : RetentionFilter) (window : Window) :
    ∃ compacted report, table.compact filter window = .ok (compacted, report)
      ∧ compacted.Holds fun sample => held sample ∧ filter.Keeps sample.place := by
  obtain ⟨compacted, report, done, stored⟩ := exists_compact holds.sound filter window
  refine ⟨compacted, report, done, holds.sound.compact done, holds.orderly.compact holds.sound done,
    fun sample => ?_⟩
  have packed := (sound_reduced holds.sound filter window).1
  have distinct := holds.orderly.nodup_reduced holds.sound filter window
  have survivors : sample ∈ compacted.samples
      ↔ ∃ entry ∈ table.reduced filter window, sample ∈ entry.samples := by
    rw [mem_samples]
    refine exists_congr fun entry => and_congr_left fun _ => ?_
    rw [stored]
    exact ⟨mem_of_survives, survives_of_nodup packed distinct⟩
  rw [survivors, mem_samples_reduced holds.sound, ← holds.samples, mem_samples_iff_stream]
  constructor
  · rintro ⟨part, streamed, accepted, read⟩
    have single := single_of_mem_stream holds.sound streamed
    exact ⟨⟨part, streamed, read⟩, (accepts_iff_keeps single read).mp accepted⟩
  · rintro ⟨⟨part, streamed, read⟩, kept⟩
    have single := single_of_mem_stream holds.sound streamed
    exact ⟨part, streamed, (accepts_iff_keeps single read).mpr kept, read⟩

/-- Several compactions leave out what any of their filters does not retain. -/
theorem Holds.passes {table : Table} {held : Sample → Prop} (holds : table.Holds held)
    (passes : List (RetentionFilter × Window)) :
    ((passes.map fun pass => TableEvent.compact pass.1 pass.2).foldl next table).Holds
      fun sample => held sample ∧ ∀ pass ∈ passes, pass.1.Keeps sample.place := by
  induction passes generalizing table held with
  | nil => exact ⟨holds.sound, holds.orderly, by simpa using holds.samples⟩
  | cons pass passes ih =>
      obtain ⟨compacted, report, done, kept⟩ := holds.compact pass.1 pass.2
      have step : table.next (.compact pass.1 pass.2) = compacted := by rw [Table.next, done]
      rw [List.map_cons, List.foldl_cons, step]
      have rest := ih kept
      refine ⟨rest.sound, rest.orderly, fun sample => ?_⟩
      rw [rest.samples, List.forall_mem_cons, and_assoc]

/-- Of a table in which the strands of each series agree, a read returns what is held, if the name
asked for continues no name of what is held. -/
theorem Holds.read {table : Table} {held : Sample → Prop} (holds : table.Holds held)
    {metric : String}
    (apart : ∀ sample, held sample → ¬ Row.Continues metric sample.series.metric)
    (start stop : Timestamp) (filter : RetentionFilter) :
    ∃ found, table.read metric start stop filter = .ok found
      ∧ (found.Pairwise fun first second => compare first.place second.place = .lt)
      ∧ ∀ sample, sample ∈ found ↔ held sample ∧ sample.series.metric = metric
        ∧ start ≤ sample.point.timestamp ∧ sample.point.timestamp ≤ stop
        ∧ filter.Keeps sample.place := by
  have shown : ∀ sample, table.Shows sample ↔ held sample := by
    intro sample
    rw [← holds.samples]
    refine ⟨Shows.mem_samples, fun member => ?_⟩
    obtain ⟨other, shows, place⟩ := exists_shown member
    rwa [← holds.orderly.agree other shows.mem_samples sample member place]
  have asked : ∀ sample : Sample, isAsked metric start stop filter sample.place = true
      ↔ sample.series.metric = metric ∧ start ≤ sample.point.timestamp
        ∧ sample.point.timestamp ≤ stop ∧ filter.Keeps sample.place := by
    intro sample
    rw [isAsked, Bool.and_eq_true, Bool.and_eq_true, Bool.and_eq_true, decide_eq_true_iff,
      decide_eq_true_iff, decide_eq_true_iff, and_assoc, and_assoc]
    exact Iff.rfl
  have returned := read_eq_of_apart holds.sound
    (fun sample member => apart sample ((holds.samples sample).mp member)) start stop filter
  refine ⟨_, returned, ?_, fun sample => ?_⟩
  · rw [List.pairwise_map]
    exact (table.values.filter fun key _ => isAsked metric start stop filter key).ascending
  · rw [← shown, ← asked, Shows, List.mem_map]
    constructor
    · rintro ⟨⟨place, value⟩, member, rfl⟩
      have found := (SortedMap.mem_toList_iff _ _ _).mp member
      rw [SortedMap.get?_filter, Option.filter_eq_some_iff] at found
      exact found
    · intro found
      refine ⟨(sample.place, sample.point.value), (SortedMap.mem_toList_iff _ _ _).mpr ?_, rfl⟩
      rw [SortedMap.get?_filter, Option.filter_eq_some_iff]
      exact found

/-! ## Puts, then compactions, then a read -/

/-- The table after some puts and then some compactions. -/
def afterPasses (samples : List Sample) (passes : List (RetentionFilter × Window)) : Table :=
  after (samples.map .put ++ passes.map fun pass => .compact pass.1 pass.2)

/-- A read returns, in the order of series and timestamps, the last sample put in each place of the
metric and the span, as far as the filters of the read and of all compactions retain it. -/
def ReadsKept (samples : List Sample) (passes : List (RetentionFilter × Window)) (metric : String)
    (start stop : Timestamp) (filter : RetentionFilter) : Prop :=
  ∃ found, (afterPasses samples passes).read metric start stop filter = .ok found
    ∧ (found.Pairwise fun first second => compare first.place second.place = .lt)
    ∧ ∀ sample, sample ∈ found
      ↔ (LastPut samples sample ∧ ∀ pass ∈ passes, pass.1.Keeps sample.place)
        ∧ sample.series.metric = metric ∧ start ≤ sample.point.timestamp
        ∧ sample.point.timestamp ≤ stop ∧ filter.Keeps sample.place

theorem holds_afterPasses {samples : List Sample}
    (storable : ∀ sample ∈ samples, sample.series.Storable)
    (passes : List (RetentionFilter × Window)) :
    (afterPasses samples passes).Holds fun sample =>
      LastPut samples sample ∧ ∀ pass ∈ passes, pass.1.Keeps sample.place := by
  rw [afterPasses, after, List.foldl_append]
  exact (holds_puts storable).passes passes

/-- **Retention at compaction and at read agree.**  After any puts of storable samples and any
compactions, a further compaction does not fail, and a read returns the samples that were put last
in their places and are retained by all filters, unless the name of the metric asked for continues
that of a metric put by a zero. -/
theorem read_after_age_off {samples : List Sample}
    (storable : ∀ sample ∈ samples, sample.series.Storable)
    (passes : List (RetentionFilter × Window)) :
    (∀ filter window, ∃ compacted report,
      (afterPasses samples passes).compact filter window = .ok (compacted, report))
    ∧ ∀ metric, (∀ sample ∈ samples, ¬ Row.Continues metric sample.series.metric) →
      ∀ start stop filter, ReadsKept samples passes metric start stop filter := by
  have holds := holds_afterPasses storable passes
  refine ⟨fun filter window => ?_, fun metric apart start stop filter => ?_⟩
  · obtain ⟨compacted, report, done, _⟩ := holds.compact filter window
    exact ⟨compacted, report, done⟩
  · exact holds.read (fun sample held => apart sample held.1.mem) start stop filter

/-- A compaction packs a point and a later one, the next one lets the first expire, and a read still
finds the second, under a key of its own. -/
theorem read_after_age_off_of_packed :
    let series : Series := ⟨"m", .ofList [("h", "a")], none⟩
    let samples : List Sample :=
      [⟨series, ⟨0, ⟨1⟩⟩⟩, ⟨series, ⟨1500, ⟨2⟩⟩⟩, ⟨series, ⟨1500, ⟨3⟩⟩⟩]
    let passes : List (RetentionFilter × Window) :=
      [(⟨.ofDefault Timestamp.latest, 0⟩, .whole), (⟨.ofDefault 1000, 2000⟩, .whole)]
    ∃ found, (afterPasses samples passes).read "m" 0 Timestamp.latest
        ⟨.ofDefault Timestamp.latest, 0⟩ = .ok found
      ∧ ∀ sample, sample ∈ found ↔ sample = ⟨series, ⟨1500, ⟨3⟩⟩⟩ := by
  intro series samples passes
  have storable : series.Storable := ⟨by rw [Row.ZeroFree]; decide, by decide, by decide⟩
  have last : LastPut samples ⟨series, ⟨1500, ⟨3⟩⟩⟩ :=
    ⟨[⟨series, ⟨0, ⟨1⟩⟩⟩, ⟨series, ⟨1500, ⟨2⟩⟩⟩], [], rfl, by simp⟩
  obtain ⟨found, read, _, held⟩ := (read_after_age_off
    (show ∀ sample ∈ samples, sample.series.Storable by simp [samples, storable]) passes).2
    "m" (fun _ _ => Row.not_continues_of_zeroFree (by rw [Row.ZeroFree]; decide))
    0 Timestamp.latest ⟨.ofDefault Timestamp.latest, 0⟩
  refine ⟨found, read, fun sample => (held sample).trans ⟨?_, ?_⟩⟩
  · rintro ⟨⟨put, kept⟩, _⟩
    have among : sample = ⟨series, ⟨0, ⟨1⟩⟩⟩ ∨ sample.place = (series, 1500) := by
      have member := put.mem
      simp only [samples, List.mem_cons, List.not_mem_nil, or_false] at member
      rcases member with rfl | rfl | rfl
      · exact Or.inl rfl
      · exact Or.inr rfl
      · exact Or.inr rfl
    rcases among with rfl | place
    · exact absurd (kept (⟨.ofDefault 1000, 2000⟩, .whole) (by simp [passes]))
        (by rw [RetentionFilter.Keeps]; decide)
    · exact put.unique last place
  · rintro rfl
    refine ⟨⟨last, fun pass member => ?_⟩, rfl, by decide, by decide, ?_⟩
    · simp only [passes, List.mem_cons, List.not_mem_nil, or_false] at member
      rcases member with rfl | rfl
      · exact RetentionFilter.keepsAll_latest 0 _ _
      · rw [RetentionFilter.Keeps]
        decide
    · exact RetentionFilter.keepsAll_latest 0 _ _

/-- A row of `m` lies in the range of the metric whose name is `m` and a zero. -/
example : (KeyRange.between "m\x00" Timestamp.earliest Timestamp.latest).contains
    (.ofRow (Row.ofPoint "m" (Timestamp.earliest + 1))) = true := by decide +kernel

end Table

end TimeSeries
