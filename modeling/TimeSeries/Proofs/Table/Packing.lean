import TimeSeries.Proofs.Cursor.Repacking
import TimeSeries.Proofs.Table.Contents

/-!
# What comes of packing

Single points of storable series are packed to entries that store stretches of these series, whether
the points of a part become one stretch or stay as they are.  Nothing fails, and taken apart again
the result has the entries that there were, in another order perhaps.

Main statement: `Combined.pack_singles`.
-/

set_option autoImplicit false

namespace TimeSeries

/-! ## Single points -/

theorem Entry.Single.parts {entry : Entry} (single : entry.Single) : entry.parts = [entry] := by
  obtain ⟨strand, _, point, rfl⟩ := single
  exact strand.parts_entryAt point

theorem Entry.Single.valid {entry : Entry} (single : entry.Single) : entry.Valid := by
  obtain ⟨strand, _, point, rfl⟩ := single
  exact strand.valid_entryAt point

/-! ## Packing -/

/-- Single points of one metric and the same columns belong to one strand. -/
theorem exists_strand_of_part {run part : List Entry} (singles : ∀ entry ∈ run, entry.Single)
    {metric : String} (named : ∀ entry ∈ run, entry.key.metric = .ok metric)
    (member : part ∈ (splitBySeries run).values) :
    ∃ strand : Strand, strand.Sound ∧ ∀ entry ∈ part, ∃ point, entry = strand.entryAt point := by
  obtain ⟨strand, hold⟩ := exists_strand_of_valid (fun entry found => (singles entry found).valid)
    named member
  have ofStrand : ∀ entry ∈ part, strand.Sound ∧ ∃ point, entry = strand.entryAt point := by
    intro entry found
    obtain ⟨columns, rfl, _⟩ := mem_values_splitBySeries.mp member
    obtain ⟨other, sound, point, same⟩ := singles entry (List.mem_filter.mp found).1
    obtain ⟨stretch, rfl, held⟩ := hold entry found
    have keys : other.key point.timestamp = stretch.strand.key stretch.first.timestamp := by
      rw [← Strand.key_entryAt, ← same, held.key]
      rfl
    obtain ⟨rfl, _⟩ := Strand.key_injective keys
    exact ⟨sound, point, same⟩
  obtain ⟨_, _, filled⟩ := mem_values_splitBySeries.mp member
  obtain ⟨leading, found⟩ := List.exists_mem_of_ne_nil part filled
  exact ⟨strand, (ofStrand leading found).1, fun entry other => (ofStrand entry other).2⟩

/-- What comes of single points of a strand stores stretches of the strand. -/
theorem sound_reducePart {strand : Strand} (sound : strand.Sound) {part : List Entry}
    (singles : ∀ entry ∈ part, ∃ point, entry = strand.entryAt point) :
    ∀ entry ∈ (reducePart .pack part).1, entry.Sound := by
  cases part with
  | nil => exact fun entry member => absurd member List.not_mem_nil
  | cons first rest =>
      have hold : ∀ entry ∈ first :: rest, Reducer.HoldsOf strand entry := by
        intro entry member
        obtain ⟨point, rfl⟩ := singles entry member
        exact Reducer.holdsOf_entryAt strand point
      rcases Reducer.reducePart_of_holds hold with
        ⟨kept, _⟩ | ⟨several, stretch, rfl, packed, held, parts⟩
      · rw [kept]
        intro entry member
        obtain ⟨point, rfl⟩ := singles entry member
        exact ⟨.single strand point, sound, rfl⟩
      · have alone := flatMap_parts_of_alone fun entry member => by
          obtain ⟨point, rfl⟩ := singles entry member
          exact stretch.strand.parts_entryAt point
        have long : stretch.rest ≠ [] := by
          intro short
          have count := congrArg List.length (alone.symm.trans parts)
          rw [Stretch.parts, List.length_map, Stretch.points, short] at count
          exact several (List.length_eq_zero_iff.mp (Nat.succ.inj count))
        rw [packed]
        intro entry member
        refine ⟨stretch, sound, ?_⟩
        rw [List.mem_singleton.mp member, Stretch.entry, Stretch.value, if_neg long, ← held.key]

theorem sound_reduceRun {run : List Entry} (singles : ∀ entry ∈ run, entry.Single)
    {metric : String} (named : ∀ entry ∈ run, entry.key.metric = .ok metric) :
    ∀ entry ∈ (reduceRun .pack run).1, entry.Sound := by
  intro entry member
  obtain ⟨output, reduced, found⟩ := List.mem_flatMap.mp (List.mem_mergeSort.mp member)
  obtain ⟨part, among, rfl⟩ := List.mem_map.mp reduced
  obtain ⟨strand, sound, ofStrand⟩ := exists_strand_of_part singles named among
  exact sound_reducePart sound ofStrand entry found

namespace Combined

/-- Single points are packed without a failure; taken apart again, the result is what it was. -/
theorem pack_singles (window : Window) {entries : List Entry}
    (singles : ∀ entry ∈ entries, entry.Single) :
    Smooth .pack window entries
      ∧ (∀ entry ∈ combine .pack window entries, entry.Sound)
      ∧ ((combine .pack window entries).flatMap Entry.parts).Perm entries := by
  obtain ⟨smooth, repacks⟩ := repacks_combine window fun entry member =>
    (singles entry member).valid
  refine ⟨smooth, fun entry member => ?_, ?_⟩
  · obtain ⟨run, among, found⟩ := List.mem_flatMap.mp member
    have inRun : ∀ entry ∈ run, entry.Single := fun entry found =>
      singles entry (Window.mem_of_mem_cut among found)
    obtain ⟨metric, named⟩ := Window.exists_metric_of_mem_cut
      (fun entry member => (singles entry member).valid) among
    exact sound_reduceRun inRun named entry found
  · have parts := repacks.parts
    rwa [flatMap_parts_of_alone fun entry member => (singles entry member).parts] at parts

end Combined

end TimeSeries
