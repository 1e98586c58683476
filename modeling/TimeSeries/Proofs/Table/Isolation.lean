import Mathlib.Data.List.Induction
import TimeSeries.Proofs.Table.History

/-!
# How far the metrics of a table are apart

A read of a metric scans the rows between two byte strings, each of which begins with the name and a
zero or ends just behind these.  Whatever lies between them begins with the name and a zero too
(`isPrefix_of_between`).  The row of another metric does so only if one of the two names continues
the other one by a zero: then the zero inside the longer name stands where the shorter name ends.

Nothing keeps such a name out of a table, so what a read returns is of its metric and its span, or
of a metric whose name continues the name asked for by a zero or is continued by it
(`Table.read_isolated`).  The tags and the visibility may be any text.

Nothing keeps such a name from being asked for either.  Where the metrics of a table have names
without zeros, a read still returns what it promises of every name that continues none of theirs
(`Table.read_eq_of_apart`).
-/

set_option autoImplicit false

namespace TimeSeries

/-! ## Names that begin with names -/

namespace Text

/-- What follows the bytes of a text within a text is a text. -/
theorem isValidUTF8_of_append {chars : List Char} {rest : ByteArray}
    (valid : (chars.utf8Encode ++ rest).IsValidUTF8) : rest.IsValidUTF8 := by
  induction chars with
  | nil => simpa using valid
  | cons char chars ih =>
      rw [← List.singleton_append, List.utf8Encode_append, ByteArray.append_assoc,
        ByteArray.isValidUTF8_utf8Encode_singleton_append_iff] at valid
      exact ih valid

/-- A text whose bytes begin with those of another text begins with that text. -/
theorem exists_of_isPrefix_encode {text front : String} (begins : encode front <+: encode text) :
    ∃ rest, text = front ++ rest := by
  obtain ⟨tail, bytes⟩ := begins
  have split : text.toByteArray = front.toByteArray ++ ⟨tail.toArray⟩ := by
    refine ByteArray.ext (Array.toList_inj.mp ?_)
    simpa [encode] using bytes.symm
  have valid : (⟨tail.toArray⟩ : ByteArray).IsValidUTF8 := by
    have whole := text.isValidUTF8
    rw [split, ← String.ofList_toList (s := front), String.toByteArray_ofList] at whole
    exact isValidUTF8_of_append whole
  exact ⟨⟨_, valid⟩, String.toByteArray_inj.mp (by rw [split, String.toByteArray_append])⟩

end Text

namespace Row

/-- The longer name is the shorter one, a zero and whatever else. -/
def Continues (longer shorter : String) : Prop :=
  ∃ rest, longer = shorter ++ "\x00" ++ rest

theorem encode_zero (name : String) :
    Text.encode (name ++ "\x00") = Text.encode name ++ [separator] := by
  simp [Text.encode]
  rfl

theorem not_continues_of_zeroFree {longer shorter : String} (free : ZeroFree longer) :
    ¬ Continues longer shorter := by
  rintro ⟨rest, rfl⟩
  exact free (by simp)

/-- What lies between two byte strings with a common beginning begins in the same way. -/
theorem isPrefix_of_between {front low high row : Bytes} (behind : compare row (front ++ low) ≠ .lt)
    (before : compare row (front ++ high) = .lt) : front <+: row := by
  induction front generalizing row with
  | nil => exact List.nil_prefix
  | cons byte front ih =>
      cases row with
      | nil => exact absurd rfl behind
      | cons first row =>
          rw [List.cons_append, compare_cons, Ne, Ordering.then_eq_lt, not_or, not_and] at behind
          rw [List.cons_append, compare_cons, Ordering.then_eq_lt] at before
          rcases before with less | ⟨same, before⟩
          · exact absurd less behind.1
          · rw [Std.LawfulEqCmp.eq_of_compare same]
            exact List.cons_prefix_cons.mpr ⟨rfl, ih (behind.2 same) before⟩

/-- The row of another metric begins with a name and a zero only where one of the names continues
the other one. -/
theorem eq_or_continues {metric other : String} {timestamp : Timestamp}
    (begins : Text.encode metric ++ [separator] <+: ofPoint other timestamp) :
    other = metric ∨ Continues other metric ∨ Continues metric other := by
  have own : Text.encode other ++ [separator] <+: ofPoint other timestamp :=
    ⟨Bytes.ofWord (timeWord timestamp), by rw [ofPoint, List.append_assoc, List.singleton_append]⟩
  have continues : ∀ {longer shorter : String}, Text.encode shorter ++ [separator]
      <+: Text.encode longer ++ [separator] → longer = shorter ∨ Continues longer shorter := by
    intro longer shorter within
    rcases List.prefix_concat_iff.mp within with same | within
    · exact Or.inl (encode_injective (List.append_cancel_right same).symm)
    · rw [← encode_zero] at within
      exact Or.inr (Text.exists_of_isPrefix_encode within)
  rcases List.prefix_or_prefix_of_prefix begins own with within | within
  · exact (continues within).imp_right Or.inl
  · exact (continues within).imp Eq.symm Or.inr

/-- Rows from those of a metric up to the row behind it begin with the metric and a zero. -/
theorem isPrefix_of_behind {metric : String} {row : Bytes} {timestamp : Timestamp}
    (after : compare row (ofPoint metric timestamp) ≠ .lt)
    (before : compare row (behind metric) = .lt) :
    Text.encode metric ++ [separator] <+: row := by
  obtain ⟨rest, rfl⟩ := isPrefix_of_between after before
  rw [ofPoint, compare_append] at after
  rw [behind, compare_append] at before
  refine (List.prefix_append_right_inj _).mpr ?_
  cases rest with
  | nil => exact absurd rfl after
  | cons byte rest =>
      rw [compare_cons, Ordering.then_eq_lt] at before
      rcases before with less | ⟨_, less⟩
      · have zero : byte = separator := by
          rw [compare_uint8, Nat.compare_eq_lt] at less
          exact UInt8.toNat_inj.mp (Nat.lt_one_iff.mp less)
        rw [zero]
        exact ⟨rest, rfl⟩
      · cases rest <;> cases less

end Row

/-! ## Ranges of metrics whose names are any text -/

namespace KeyRange

theorem stop_between (metric : String) (first last : Timestamp) :
    (between metric first last).stop
      = .excluded (.ofRow (last.succ?.elim (Row.behind metric) (Row.ofPoint metric))) := by
  rw [between]
  cases last.succ? <;> rfl

/-- The range of a metric and a span holds only keys of that metric within that span, and keys of
metrics that are told apart from it by a zero within a name. -/
theorem of_contains_between {metric other : String} {key : Key} {timestamp : Timestamp}
    (named : key.row = Row.ofPoint other timestamp) {first last : Timestamp}
    (inside : (between metric first last).contains key = true) :
    other = metric ∧ first ≤ timestamp ∧ timestamp ≤ last
      ∨ Row.Continues other metric ∨ Row.Continues metric other := by
  rw [contains, Bool.and_eq_true, Bool.not_eq_true', Bool.not_eq_true'] at inside
  have starts : compare key.row (Row.ofPoint metric first) ≠ .lt := by
    rw [Ne, ← Key.compare_ofRow_eq_lt]
    exact beq_eq_false_iff_ne.mp inside.1
  have stops :
      compare key.row (last.succ?.elim (Row.behind metric) (Row.ofPoint metric)) = .lt := by
    have upper := inside.2
    rw [stopsBefore, stop_between] at upper
    exact Key.compare_ofRow_eq_lt.mp (bne_eq_false_iff_eq.mp upper)
  have begins : Text.encode metric ++ [Row.separator] <+: key.row := by
    cases following : last.succ? with
    | some next =>
        rw [following] at stops
        refine @Row.isPrefix_of_between _ (Bytes.ofWord (Row.timeWord first))
          (Bytes.ofWord (Row.timeWord next)) _ ?_ ?_
        · rwa [List.append_assoc, List.singleton_append]
        · rwa [List.append_assoc, List.singleton_append]
    | none =>
        rw [following] at stops
        exact Row.isPrefix_of_behind starts stops
  rw [named] at begins
  rcases Row.eq_or_continues begins with rfl | continued
  · refine Or.inl ⟨rfl, ?_, (last.compare_succ? timestamp).mp ?_⟩
    · rw [named, Row.compare_ofPoint_self, Ne, Std.compare_eq_lt, Int64.not_lt] at starts
      exact starts
    · cases following : last.succ? with
      | some next =>
          rwa [following, Option.elim_some, named, Row.compare_ofPoint_self] at stops
      | none => rfl
  · exact Or.inr continued

end KeyRange

namespace Table

/-! ## Tables of samples whose metrics have no zeros -/

/-- A read of a name with a zero returns nothing if it continues the name of no metric of the table,
since then no row lies in its range. -/
theorem read_of_apart {table : Table} (sound : table.Sound) {metric : String}
    (zero : ¬ Row.ZeroFree metric)
    (apart : ∀ sample ∈ table.samples, ¬ Row.Continues metric sample.series.metric)
    (start stop : Timestamp) (filter : RetentionFilter) :
    table.read metric start stop filter = .ok [] := by
  have outside : ∀ part ∈ table.stream,
      ¬ (KeyRange.between metric start stop).contains part.key = true := by
    intro part streamed inside
    obtain ⟨strand, strandSound, point, rfl⟩ := single_of_mem_stream sound streamed
    rcases @KeyRange.of_contains_between _ strand.metric _ _ rfl _ _ inside with
      ⟨same, _⟩ | continues | continued
    · exact zero (same ▸ strandSound.zeroFree)
    · exact Row.not_continues_of_zeroFree strandSound.zeroFree continues
    · have held : ⟨strand.series, point⟩ ∈ table.samples :=
        mem_samples_iff_stream.mpr ⟨_, streamed, strandSound.toSample_entryAt point⟩
      rw [← strandSound.metric_series] at continued
      exact apart _ held continued
  have found := finds_within sound filter (.between metric start stop)
    fun stretch _ stored part member inside =>
      absurd inside (outside part (List.mem_flatMap.mpr
        ⟨stretch.entry, stored, by rwa [Stretch.parts_entry]⟩))
  rw [List.filter_eq_nil_iff.mpr outside] at found
  rw [read, found.gatherWithin]
  rfl

/-- What a read returns (`read_eq`) is the same for every name that continues the name of no metric of
the table. -/
theorem read_eq_of_apart {table : Table} (sound : table.Sound) {metric : String}
    (apart : ∀ sample ∈ table.samples, ¬ Row.Continues metric sample.series.metric)
    (start stop : Timestamp) (filter : RetentionFilter) :
    table.read metric start stop filter
      = .ok ((table.values.filter fun key _ => isAsked metric start stop filter key).toList.map
          fun pair => ⟨pair.1.1, ⟨pair.1.2, pair.2⟩⟩) := by
  by_cases free : Row.ZeroFree metric
  · exact read_eq sound free start stop filter
  · have nothing :
        (table.values.filter fun key _ => isAsked metric start stop filter key) = .empty := by
      refine SortedMap.ext_get? fun key => ?_
      rw [SortedMap.get?_filter, SortedMap.get?_empty, Option.filter_eq_none_iff]
      intro value held asked
      have shown : table.Shows ⟨key.1, ⟨key.2, value⟩⟩ := held
      simp only [isAsked, Bool.and_eq_true, decide_eq_true_eq] at asked
      obtain ⟨⟨⟨named, _⟩, _⟩, _⟩ := asked
      exact free (named ▸ shown.zeroFree sound)
    rw [read_of_apart sound free apart, nothing]
    rfl

/-! ## Tables of any samples -/

/-- Whatever a table holds after puts is one of the samples under one of its keys. -/
theorem exists_of_mem_stored_puts {samples : List Sample} {entry : Entry}
    (member : entry ∈ (after (samples.map .put)).stored) :
    ∃ sample ∈ samples, ∃ strand ∈ sample.series.strands, entry = strand.entryAt sample.point := by
  induction samples using List.reverseRecOn with
  | nil => cases member
  | append_singleton samples sample ih =>
      rw [after, List.map_append, List.foldl_append] at member
      rcases (mem_stored_put _ sample entry).mp member with ⟨strand, among, rfl⟩ | ⟨held, _⟩
      · exact ⟨sample, List.mem_append_right _ List.mem_cons_self, strand, among, rfl⟩
      · obtain ⟨other, put, rest⟩ := ih held
        exact ⟨other, List.mem_append_left _ put, rest⟩

theorem singles_puts (samples : List Sample) :
    ∀ entry ∈ (after (samples.map .put)).stored,
      ∃ strand : Strand, ∃ point, entry = strand.entryAt point := by
  intro entry stored
  obtain ⟨sample, _, strand, _, rfl⟩ := exists_of_mem_stored_puts stored
  exact ⟨strand, sample.point, rfl⟩

/-- A table of single points is read entry by entry. -/
theorem finds_of_singles {table : Table}
    (singles : ∀ entry ∈ table.stored, ∃ strand : Strand, ∃ point, entry = strand.entryAt point)
    (filter : RetentionFilter) (range : KeyRange) :
    Cursor.Finds (table.scanner filter) range
      ((Expanded.within range
          (table.stored.filter fun entry => range.widened.contains entry.key)).filter
        fun entry => filter.accepts entry.key) := by
  have below := SortedEntries.finds_of_sorted table.snapshot range.widened (sorted_snapshot table)
  have hold : ∀ entry ∈ table.stored.filter fun entry => range.widened.contains entry.key,
      (∃ stretch : Stretch, stretch.HeldBy entry) ∧ entry.parts = [entry] := by
    intro entry member
    obtain ⟨strand, point, rfl⟩ := singles entry (List.mem_filter.mp member).1
    rw [← Stretch.entry_single]
    exact ⟨⟨_, Stretch.heldBy_entry _⟩, Stretch.parts_entry _⟩
  have found := Expanded.finds_parts below fun entry member => (hold entry member).1
  rw [show table.snapshot.entries = table.stored from rfl,
    List.flatMap_congr fun entry member => (hold entry member).2, List.flatMap_singleton'] at found
  exact Retained.finds (show Cursor.Finds (table.scanner filter).below range _ from found)

/-- Whatever a read takes is the sample of an entry. -/
theorem exists_of_mem_foldlM {entries : List Entry}
    {points result : SortedMap (Series × Timestamp) Binary64}
    (taken : entries.foldlM (fun (points : SortedMap (Series × Timestamp) Binary64) entry => do
        let sample ← entry.toSample
        return points.insert (sample.series, sample.point.timestamp) sample.point.value) points
      = .ok result) {place : Series × Timestamp} {value : Binary64}
    (held : result.get? place = some value) :
    points.get? place = some value
      ∨ ∃ entry ∈ entries, entry.toSample = .ok ⟨place.1, ⟨place.2, value⟩⟩ := by
  induction entries generalizing points with
  | nil =>
      cases taken
      exact Or.inl held
  | cons entry entries ih =>
      rw [List.foldlM_cons] at taken
      cases read : entry.toSample with
      | error failure =>
          rw [read] at taken
          cases taken
      | ok sample =>
          rw [read] at taken
          rcases ih taken with before | ⟨other, among, sampled⟩
          · rw [SortedMap.get?_insert] at before
            split at before
            case isTrue same =>
              cases same
              cases before
              exact Or.inr ⟨entry, List.mem_cons_self, read⟩
            case isFalse => exact Or.inl before
          · exact Or.inr ⟨other, List.mem_cons_of_mem entry among, sampled⟩

/-- What a read returns was taken from an entry that it met. -/
theorem exists_of_mem_read {table : Table} {metric : String} {start stop : Timestamp}
    {filter : RetentionFilter} {entries : List Entry}
    (finds : Cursor.Finds (table.scanner filter) (.between metric start stop) entries)
    {found : List Sample} (read : table.read metric start stop filter = .ok found)
    {sample : Sample} (member : sample ∈ found) :
    ∃ entry ∈ entries, entry.toSample = .ok sample := by
  rw [Table.read, finds.gatherWithin] at read
  simp only [bind, Except.bind] at read
  split at read
  case h_1 => cases read
  case h_2 points taken =>
    cases read
    obtain ⟨⟨place, value⟩, among, rfl⟩ := List.mem_map.mp member
    exact (exists_of_mem_foldlM taken ((SortedMap.mem_toList_iff _ _ _).mp among)).resolve_left
      fun nothing => by cases nothing

/-- If the entry of a point holds a sample, it is that point under the metric of the row. -/
theorem of_toSample_entryAt {strand : Strand} {point : Point} {sample : Sample}
    (read : (strand.entryAt point).toSample = .ok sample) :
    sample.series.metric = strand.metric ∧ sample.point = point := by
  rw [Entry.toSample, Strand.key_entryAt, strand.rowTimestamp_key, strand.value_entryAt,
    Binary64.ofBytes_toBytes, Key.series, strand.metric_key] at read
  cases family : Column.split (strand.key point.timestamp).family with
  | error failure => rw [family] at read; cases read
  | ok tags =>
      cases qualifier : Column.split (strand.key point.timestamp).qualifier with
      | error failure => rw [family, qualifier] at read; cases read
      | ok others =>
          rw [family, qualifier] at read
          cases read
          exact ⟨rfl, rfl⟩

/-- **Metrics in a table.**  Whatever samples were put, a sample that a read returns was put under
its metric, and it is of the metric and the span asked for unless one of the two names continues the
other by a zero. -/
theorem read_isolated {samples : List Sample} {metric : String} {start stop : Timestamp}
    {filter : RetentionFilter} {found : List Sample}
    (read : (after (samples.map .put)).read metric start stop filter = .ok found) :
    ∀ sample ∈ found,
      (∃ put ∈ samples, put.series.metric = sample.series.metric ∧ put.point = sample.point)
      ∧ (sample.series.metric = metric ∧ start ≤ sample.point.timestamp
          ∧ sample.point.timestamp ≤ stop
        ∨ Row.Continues sample.series.metric metric
        ∨ Row.Continues metric sample.series.metric) := by
  intro sample member
  have finds := finds_of_singles (singles_puts samples) filter (.between metric start stop)
  obtain ⟨entry, met, sampled⟩ := exists_of_mem_read finds read member
  obtain ⟨reached, inside⟩ := List.mem_filter.mp (List.mem_filter.mp met).1
  have stored := (List.mem_filter.mp reached).1
  obtain ⟨put, given, strand, strands, rfl⟩ := exists_of_mem_stored_puts stored
  obtain ⟨named, point⟩ := of_toSample_entryAt sampled
  refine ⟨⟨put, given, ?_, point.symm⟩, ?_⟩
  · rw [named, Series.metric_of_mem_strands strands]
  · rw [named, point]
    exact @KeyRange.of_contains_between _ strand.metric _ _ rfl _ _ inside

/-- A read of `m` over all time returns a sample of the metric whose name is `m`, a zero and `x`. -/
theorem read_isolated_of_zero :
    let sample : Sample := ⟨⟨"m\x00x", .ofList [("h", "a")], none⟩, ⟨1000, ⟨1⟩⟩⟩
    ∃ found, (after [.put sample]).read "m" Timestamp.earliest Timestamp.latest
        ⟨.ofDefault Timestamp.latest, 0⟩ = .ok found
      ∧ sample ∈ found ∧ Row.Continues sample.series.metric "m" := by
  intro sample
  have finds : Cursor.Finds ((after [.put sample]).scanner ⟨.ofDefault Timestamp.latest, 0⟩)
      (.between "m" Timestamp.earliest Timestamp.latest) _ :=
    finds_of_singles (singles_puts [sample]) _ _
  have returned : ((after [.put sample]).read "m" Timestamp.earliest Timestamp.latest
      ⟨.ofDefault Timestamp.latest, 0⟩).toOption = some [sample] := by
    rw [Table.read, finds.gatherWithin]
    decide +kernel
  cases read : (after [.put sample]).read "m" Timestamp.earliest Timestamp.latest
      ⟨.ofDefault Timestamp.latest, 0⟩ with
  | error failure => rw [read] at returned; cases returned
  | ok found =>
      rw [read, Except.toOption, Option.some.injEq] at returned
      have member : sample ∈ found := returned ▸ List.mem_cons_self
      refine ⟨found, rfl, member, ?_⟩
      rcases (@read_isolated [sample] _ _ _ _ _ read sample member).2 with
        ⟨same, _⟩ | continued | continued
      · exact absurd same (by decide)
      · exact continued
      · exact absurd continued (Row.not_continues_of_zeroFree (by rw [Row.ZeroFree]; decide))

end Table

end TimeSeries
