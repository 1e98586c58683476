import TimeSeries.Proofs.Entries.Strands
import TimeSeries.Proofs.Entries.Values
import TimeSeries.Proofs.Text.PutGrammar

/-!
# Entries tell their sample

A sample whose series is tellable is held by one entry for each of its tags, or by a single one if
it has no tags, under different keys, and each of these entries holds the whole sample
(`Sample.ToldBy`).  So a key that two samples share names the series and the time of both.  Nothing
is asked of the characters in tags, in the metric or in the visibility.

Every sample of a put line is of this kind (`PutLine.storable_of_parse`).

Main statement: `Sample.told_by_entries`.
-/

set_option autoImplicit false

namespace TimeSeries

/-! ## Samples of put lines -/

/-- The series of a put line can be stored: each tag that names it has a key and a value. -/
theorem PutLine.storable_of_parse {line : String} {precision : Precision} {sample : Sample}
    (read : parse line precision = .ok sample) : sample.series.Storable := by
  obtain ⟨words, makes, _⟩ := parse_eq_ok_iff.mp read
  cases makes with
  | words zeroFree metric_eq _ _ _ tagged _ named =>
      refine ⟨metric_eq ▸ zeroFree, fun ⟨key, value⟩ member => ?_, fun empty => ?_⟩
      · have held := (SortedMap.mem_toList_iff _ _ _).mp member
        obtain ⟨word, isTag⟩ := exists_isTag tagged ((named.tag_iff key value).mp held).2.mem
        exact isTag.key
      · obtain ⟨word, isTag⟩ := exists_isTag tagged ((named.visibility_iff "").mp empty).mem
        exact isTag.value rfl

/-! ## Entries of samples -/

namespace Sample

/-- The entries hold the sample, one for each of its tags, which stands in front of the others, or
one if it has none. -/
structure ToldBy (sample : Sample) (entries : List Entry) : Prop where
  families : entries.map (fun entry => Column.split entry.key.family)
    = if sample.series.tags.isEmpty then [.ok []]
      else sample.series.tags.toList.map fun tag => .ok [tag]
  distinct : (entries.map Entry.key).Nodup
  whole : ∀ entry ∈ entries, entry.toSample = .ok sample

variable {sample other : Sample}

theorem mem_toEntries {entry : Entry} (member : entry ∈ sample.toEntries) :
    ∃ strand ∈ sample.series.strands,
      entry = ⟨strand.key sample.point.timestamp, sample.point.value.toBytes⟩ := by
  rw [toEntries_eq, List.mem_map] at member
  obtain ⟨strand, among, rfl⟩ := member
  exact ⟨strand, among, rfl⟩

/-- Every entry of a sample holds the whole sample. -/
theorem toSample_of_mem (tellable : sample.series.Tellable) {entry : Entry}
    (member : entry ∈ sample.toEntries) : entry.toSample = .ok sample := by
  obtain ⟨strand, among, rfl⟩ := mem_toEntries member
  rw [Entry.toSample, tellable.series_key among, strand.rowTimestamp_key,
    Binary64.ofBytes_toBytes]
  rfl

/-- The families of the entries are the tags of the sample. -/
theorem families_toEntries (tellable : sample.series.Tellable) :
    sample.toEntries.map (fun entry => Column.split entry.key.family)
      = if sample.series.tags.isEmpty then [.ok []]
        else sample.series.tags.toList.map fun tag => .ok [tag] := by
  rw [toEntries, SortedMap.isEmpty]
  split
  case isTrue => rfl
  case isFalse =>
      rw [List.map_map]
      refine List.map_congr_left fun tag member => ?_
      rw [Function.comp_apply]
      exact Column.split_ofTag (tellable.tags tag member)

/-- The tags of a sample have different keys, so the families of its entries, and with them the
keys, are different. -/
theorem nodup_keys_toEntries (tellable : sample.series.Tellable) :
    (sample.toEntries.map Entry.key).Nodup := by
  apply List.Nodup.of_map fun key => Column.split key.family
  have families : (sample.toEntries.map Entry.key).map (fun key => Column.split key.family) = _ :=
    List.map_map.trans (families_toEntries tellable)
  rw [families]
  split
  case isTrue => exact List.nodup_singleton _
  case isFalse =>
      have tags : sample.series.tags.toList.Nodup :=
        List.Nodup.of_map Prod.fst sample.series.tags.nodup_keys
      refine tags.map fun left right same => ?_
      exact List.singleton_injective (Except.ok.inj same)

/-- A key under which two samples are held names the series and the time of both. -/
theorem same_of_shared_key (tellable : sample.series.Tellable)
    (otherTellable : other.series.Tellable) {entry another : Entry}
    (member : entry ∈ sample.toEntries) (among : another ∈ other.toEntries)
    (shared : entry.key = another.key) :
    sample.series = other.series ∧ sample.point.timestamp = other.point.timestamp := by
  obtain ⟨strand, here, rfl⟩ := mem_toEntries member
  obtain ⟨twin, there, rfl⟩ := mem_toEntries among
  obtain ⟨rfl, timestamps⟩ := Strand.key_injective shared
  have named := tellable.series_key here 0
  rw [otherTellable.series_key there 0] at named
  exact ⟨(Except.ok.inj named).symm, timestamps⟩

/-- **Entries tell their sample.**  The entries of a sample whose series is tellable, one for each
tag, have different keys and hold the whole sample each.  They share no key with the entries of a
sample of another series or time, and every sample of a put line is of this kind. -/
theorem told_by_entries (tellable : sample.series.Tellable)
    (otherTellable : other.series.Tellable) :
    sample.ToldBy sample.toEntries
      ∧ (∀ entry ∈ sample.toEntries, ∀ another ∈ other.toEntries, entry.key = another.key →
          sample.series = other.series ∧ sample.point.timestamp = other.point.timestamp)
      ∧ ∀ line precision read, PutLine.parse line precision = .ok read → read.series.Tellable :=
  ⟨⟨families_toEntries tellable, nodup_keys_toEntries tellable,
      fun _ member => toSample_of_mem tellable member⟩,
    fun _ member _ among shared =>
      same_of_shared_key tellable otherTellable member among shared,
    fun _ _ _ read => (PutLine.storable_of_parse read).tellable⟩

/-- A tag whose value has a comma and an equals sign is told from two tags, also if it ends in a
backslash. -/
theorem told_by_entries_of_comma :
    let sample : Sample := ⟨⟨"load", .ofList [("a", "b,c=d\\")], none⟩, ⟨7, ⟨0x4000000000000000⟩⟩⟩
    let other : Sample := ⟨⟨"load", .ofList [("a", "b"), ("c", "d\\")], none⟩, ⟨7, ⟨0⟩⟩⟩
    PutLine.parse "put load 7 2 a=b,c=d\\" .milliseconds = .ok sample
      ∧ sample.series.Tellable ∧ other.series.Tellable
      ∧ sample.ToldBy sample.toEntries ∧ other.ToldBy other.toEntries
      ∧ ∀ entry ∈ sample.toEntries, ∀ another ∈ other.toEntries, entry.key ≠ another.key := by
  intro sample other
  have otherTellable : other.series.Tellable := ⟨by decide, by decide⟩
  obtain ⟨otherTold, -, lines⟩ := told_by_entries otherTellable otherTellable
  have read : PutLine.parse "put load 7 2 a=b,c=d\\" .milliseconds = .ok sample := by
    decide +kernel
  have tellable : sample.series.Tellable := lines _ _ sample read
  obtain ⟨told, apart, -⟩ := told_by_entries tellable otherTellable
  refine ⟨read, tellable, otherTellable, told, otherTold, ?_⟩
  intro entry member another among shared
  exact absurd (apart entry member another among shared).1 (by decide)

end Sample

end TimeSeries
