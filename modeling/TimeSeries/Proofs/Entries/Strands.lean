import TimeSeries.Proofs.Maps.Lists
import TimeSeries.Proofs.Row.Order

/-!
# The strands of a series

A sample is stored once for each tag of its series.  The entries of one series under one choice of
columns are a `Strand`: they differ in time and value only.  A series has one strand for each tag,
or a single one if it has no tags (`Series.strands`), and a sample is put under the keys of the
strands of its series at its time (`toEntries_eq`).

A series is tellable if every key of its strands names it again: no tag key is empty, and neither is
a visibility.  It is storable if, besides, the metric has no zero character, so that the rows of the
metric are in a range of their own.

Main statements: `Column.split_join` says that the tags of a column are read back, `series_key` that
every key of a strand names the series, and `Strand.compare_key` that the keys of a strand are
ordered by time.
-/

set_option autoImplicit false

namespace TimeSeries

/-! ## Columns are read back -/

namespace Column

/-- A tag is read up to its end. -/
theorem splitChars_tagChars (tag : String × String) (rest : List Char) :
    splitChars none [] (tagChars tag ++ rest)
      = splitChars (some tag.1.toList) tag.2.toList rest := by
  have equals : splitChars none tag.1.toList ('=' :: (escape tag.2.toList ++ rest))
      = splitChars (some tag.1.toList) [] (escape tag.2.toList ++ rest) := by
    rw [splitChars]
    · rw [if_pos ⟨rfl, rfl⟩]
    all_goals simp
  rw [tagChars, List.append_assoc, splitChars_escape_append, List.nil_append, List.cons_append,
    equals, splitChars_escape_append, List.nil_append]

theorem close_of_named {tag : String × String} (named : tag.1 ≠ "") :
    close (some tag.1.toList) tag.2.toList = .ok tag := by
  cases chars : tag.1.toList with
  | nil => exact absurd (String.toList_eq_nil_iff.mp chars) named
  | cons char rest =>
      rw [close, ← chars, String.ofList_toList, String.ofList_toList]

theorem splitChars_joinChars {tags : List (String × String)} (some_tags : tags ≠ [])
    (named : ∀ tag ∈ tags, tag.1 ≠ "") : splitChars none [] (joinChars tags) = .ok tags := by
  induction tags with
  | nil => exact absurd rfl some_tags
  | cons tag tags ih =>
      obtain ⟨here, others⟩ := List.forall_mem_cons.mp named
      cases tags with
      | nil =>
          rw [joinChars, ← List.append_nil (tagChars tag), splitChars_tagChars, splitChars,
            close_of_named here]
          rfl
      | cons next rest =>
          rw [joinChars, splitChars_tagChars, splitChars, close_of_named here,
            ih (List.cons_ne_nil _ _) others]
          rfl

/-- The tags of a column are read back. -/
theorem split_join {tags : List (String × String)} (named : ∀ tag ∈ tags, tag.1 ≠ "") :
    split (join tags) = .ok tags := by
  cases tags with
  | nil => rfl
  | cons tag rest =>
      have read := splitChars_joinChars (List.cons_ne_nil tag rest) named
      have filled : ¬ (join (tag :: rest)).isEmpty = true := by
        intro empty
        have chars : joinChars (tag :: rest) = [] := by
          rw [← String.toList_ofList (l := joinChars (tag :: rest)), ← join,
            String.isEmpty_iff.mp empty]
          rfl
        rw [chars] at read
        cases read
      rw [split, if_neg filled, join, String.toList_ofList, read]

theorem ofTag_eq_join (tag : String × String) : ofTag tag.1 tag.2 = join [tag] := rfl

/-- The tag of a column of one tag is read back. -/
theorem split_ofTag {tag : String × String} (named : tag.1 ≠ "") :
    split (ofTag tag.1 tag.2) = .ok [tag] := by
  rw [ofTag_eq_join]
  exact split_join (List.forall_mem_singleton.mpr named)

end Column

/-- A key names the series of the metric in its row and the tags in its columns. -/
theorem Key.series_of_columns {key : Key} {metric : String}
    {family qualifier : List (String × String)}
    (named : key.metric = .ok metric) (familyRead : Column.split key.family = .ok family)
    (qualifierRead : Column.split key.qualifier = .ok qualifier) :
    key.series = .ok ⟨metric, SortedMap.ofList (family ++ qualifier),
      if key.visibility.isEmpty then none else some key.visibility⟩ := by
  rw [Key.series, named, familyRead, qualifierRead]
  rfl

/-! ## Strands -/

/-- The entries of one series under one choice of columns. -/
structure Strand where
  metric : String
  family : String
  qualifier : String
  visibility : String
  deriving DecidableEq, Repr

namespace Strand

/-- The key of the strand at a time. -/
def key (strand : Strand) (timestamp : Timestamp) : Key :=
  ⟨Row.ofPoint strand.metric timestamp, strand.family, strand.qualifier, strand.visibility,
    timestamp⟩

@[simp] theorem timestamp_key (strand : Strand) (timestamp : Timestamp) :
    (strand.key timestamp).timestamp = timestamp := rfl

@[simp] theorem metric_key (strand : Strand) (timestamp : Timestamp) :
    (strand.key timestamp).metric = .ok strand.metric :=
  Row.metric_ofPoint strand.metric timestamp

theorem rowTimestamp_key (strand : Strand) (timestamp : Timestamp) :
    Row.timestamp (strand.key timestamp).row = .ok timestamp :=
  Row.timestamp_ofPoint strand.metric timestamp

/-- A key of a strand is moved in time within the strand. -/
theorem atTime_key (strand : Strand) (timestamp other : Timestamp) :
    (strand.key timestamp).atTime other = .ok (strand.key other) := by
  rw [Key.atTime, metric_key]
  rfl

/-- A key tells its strand and its time. -/
theorem key_injective {strand other : Strand} {timestamp another : Timestamp}
    (same : strand.key timestamp = other.key another) : strand = other ∧ timestamp = another := by
  have metric : strand.metric = other.metric := by
    have named := strand.metric_key timestamp
    rw [same, metric_key] at named
    exact (Except.ok.inj named).symm
  obtain ⟨_, family, qualifier, visibility, time⟩ := Key.mk.inj same
  obtain ⟨_, _, _, _⟩ := strand
  obtain ⟨_, _, _, _⟩ := other
  simp only at metric family qualifier visibility
  subst metric family qualifier visibility
  exact ⟨rfl, time⟩

/-- The keys of a strand are ordered by time. -/
theorem compare_key (strand : Strand) (left right : Timestamp) :
    compare (strand.key left) (strand.key right) = compare left right := by
  have same : ∀ text : String, compare text text = .eq := fun _ => Std.ReflCmp.compare_self
  rw [Key.compare_eq]
  simp only [key, Row.compare_ofPoint_self, same]
  cases compare left right <;> rfl

end Strand

/-! ## The strands of a series -/

namespace Series

/-- The strand of a series without tags. -/
def bareStrand (series : Series) : Strand :=
  ⟨series.metric, "", "", series.visibility.getD ""⟩

/-- The strand of a series that has one of its tags in front of the others. -/
def strandOf (series : Series) (tag : String × String) : Strand :=
  ⟨series.metric, Column.ofTag tag.1 tag.2,
    Column.join (series.tags.toList.filter fun other => other.1 != tag.1),
    series.visibility.getD ""⟩

/-- The strands under which a series is stored: one for each tag, or one if there is none. -/
def strands (series : Series) : List Strand :=
  if series.tags.toList.isEmpty then [series.bareStrand]
  else series.tags.toList.map series.strandOf

/-- The series can be told again from the keys of its strands. -/
structure Storable (series : Series) : Prop where
  metric : Row.ZeroFree series.metric
  tags : ∀ tag ∈ series.tags.toList, tag.1 ≠ ""
  visibility : series.visibility ≠ some ""

/-- What a series needs for a key of one of its strands to name it. -/
structure Tellable (series : Series) : Prop where
  tags : ∀ tag ∈ series.tags.toList, tag.1 ≠ ""
  visibility : series.visibility ≠ some ""

variable {series : Series} {strand : Strand}

theorem Storable.tellable (storable : series.Storable) : series.Tellable :=
  ⟨storable.tags, storable.visibility⟩

theorem mem_strands (member : strand ∈ series.strands) :
    (series.tags = .empty ∧ strand = series.bareStrand)
      ∨ ∃ tag ∈ series.tags.toList, strand = series.strandOf tag := by
  unfold strands at member
  split at member
  case isTrue noTags =>
      exact Or.inl ⟨SortedMap.ext_toList (List.isEmpty_iff.mp noTags),
        List.mem_singleton.mp member⟩
  case isFalse =>
      obtain ⟨tag, among, same⟩ := List.mem_map.mp member
      exact Or.inr ⟨tag, among, same.symm⟩

theorem metric_of_mem_strands (member : strand ∈ series.strands) :
    strand.metric = series.metric := by
  rcases mem_strands member with ⟨_, rfl⟩ | ⟨tag, _, rfl⟩
  · rfl
  · rfl

theorem strands_ne_nil (series : Series) : series.strands ≠ [] := by
  unfold strands
  split
  case isTrue => exact List.cons_ne_nil _ _
  case isFalse someTags =>
      intro empty
      exact someTags (List.isEmpty_iff.mpr (List.map_eq_nil_iff.mp empty))

theorem Tellable.getD_visibility (tellable : series.Tellable) :
    (if (series.visibility.getD "").isEmpty then none else some (series.visibility.getD ""))
      = series.visibility := by
  cases visible : series.visibility with
  | none => rfl
  | some visibility =>
      have filled : ¬ visibility.isEmpty = true := by
        intro empty
        rw [String.isEmpty_iff.mp empty] at visible
        exact tellable.visibility visible
      rw [Option.getD_some, if_neg filled]

/-- A tag and the others are all tags. -/
theorem ofList_tag_others {tag : String × String} (member : tag ∈ series.tags.toList) :
    SortedMap.ofList ([tag] ++ series.tags.toList.filter fun other => other.1 != tag.1)
      = series.tags := by
  apply SortedMap.ofList_eq_of_mem_iff
  intro other
  rw [List.singleton_append, List.mem_cons, List.mem_filter, bne_iff_ne]
  constructor
  · rintro (rfl | ⟨among, _⟩)
    · exact member
    · exact among
  · intro among
    by_cases same : other.1 = tag.1
    · have here := (SortedMap.mem_toList_iff series.tags tag.1 tag.2).mp member
      have there := (SortedMap.mem_toList_iff series.tags other.1 other.2).mp among
      rw [same, here] at there
      exact Or.inl (Prod.ext same (Option.some.inj there).symm)
    · exact Or.inr ⟨among, same⟩

/-- Every key of a strand names the series. -/
theorem Tellable.series_key (tellable : series.Tellable) (member : strand ∈ series.strands)
    (timestamp : Timestamp) : (strand.key timestamp).series = .ok series := by
  have named := strand.metric_key timestamp
  have visibility : strand.visibility = series.visibility.getD "" := by
    rcases mem_strands member with ⟨_, rfl⟩ | ⟨tag, _, rfl⟩ <;> rfl
  have told : ∀ {tags : Tags}, tags = series.tags →
      Except.ok ⟨strand.metric, tags,
        if strand.visibility.isEmpty then none else some strand.visibility⟩
          = (.ok series : Except Failure Series) := by
    rintro _ rfl
    rw [metric_of_mem_strands member, visibility, tellable.getD_visibility]
  rcases mem_strands member with ⟨noTags, rfl⟩ | ⟨tag, among, rfl⟩
  · exact (Key.series_of_columns named rfl rfl).trans (told noTags.symm)
  · have family : Column.split (series.strandOf tag).family = .ok [tag] :=
      Column.split_ofTag (tellable.tags tag among)
    have qualifier : Column.split (series.strandOf tag).qualifier = .ok
        (series.tags.toList.filter fun other => other.1 != tag.1) :=
      Column.split_join fun other here => tellable.tags other (List.mem_filter.mp here).1
    exact (Key.series_of_columns named family qualifier).trans (told (ofList_tag_others among))

theorem series_key (storable : series.Storable) (member : strand ∈ series.strands)
    (timestamp : Timestamp) : (strand.key timestamp).series = .ok series :=
  storable.tellable.series_key member timestamp

end Series

/-- A sample is put under the keys of the strands of its series at its time. -/
theorem Sample.toEntries_eq (sample : Sample) :
    sample.toEntries = sample.series.strands.map fun strand =>
      ⟨strand.key sample.point.timestamp, sample.point.value.toBytes⟩ := by
  unfold Series.strands
  rw [apply_ite (List.map _), List.map_map]
  rfl

end TimeSeries
