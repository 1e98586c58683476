import TimeSeries.Proofs.Cursor.Plain
import TimeSeries.Proofs.Cursor.Repacking

/-!
# Corrupt entries among valid ones

An entry is corrupt if it is a packed run of a length that no points have: nothing can be read of it.
Where the other entries are valid, the readable points of a range fall into strips, one in front of
the first corrupt entry that is visited, one behind each (`Expanded.strips`).  These are the strips of
what the expanding layer meets.

Without the corrupt entries, all the points are a single strip (`Expanded.strips_mended`).

Main statement: `Expanded.course_strips`.
-/

set_option autoImplicit false

namespace TimeSeries

/-- A packed run of a length that no points have. -/
def Entry.isCorrupt (entry : Entry) : Bool :=
  isPacked entry.value && entry.value.length % 16 != 0

/-- A corrupt entry is met as a failure. -/
theorem Entry.outcomes_of_corrupt {entry : Entry} (corrupt : entry.isCorrupt = true)
    (range : KeyRange) :
    entry.outcomes range = [.error (.malformed (.packedLength entry.value.length))] := by
  rw [isCorrupt, Bool.and_eq_true, bne_iff_ne] at corrupt
  rw [outcomes, if_pos corrupt.1, PackedReader.ofBytes, if_neg corrupt.2]

/-! ## Sorting and leaving out -/

namespace SortedEntries

/-- Where an entry is put among sorted ones: behind those that it does not precede. -/
theorem eq_of_append_cons {entry : Entry} {front back front' back' : List Entry}
    (same : front ++ back = front' ++ back')
    (before : ∀ other ∈ front, precedes entry other = false)
    (before' : ∀ other ∈ front', precedes entry other = false)
    (behind : ∀ other ∈ back, precedes entry other = true)
    (behind' : ∀ other ∈ back', precedes entry other = true) : front = front' ∧ back = back' := by
  have taken : ∀ {front back : List Entry}, (∀ other ∈ front, precedes entry other = false) →
      (∀ other ∈ back, precedes entry other = true) →
      (front ++ back).takeWhile (fun other => !precedes entry other) = front := by
    intro front back before behind
    rw [List.takeWhile_append_of_pos (fun other member => by simp [before other member])]
    cases back with
    | nil => rw [List.takeWhile_nil, List.append_nil]
    | cons other back =>
        rw [List.takeWhile_cons_of_neg (by simp [behind other List.mem_cons_self]),
          List.append_nil]
  have fronts : front = front' := by rw [← taken before behind, same, taken before' behind']
  exact ⟨fronts, List.append_cancel_left (fronts ▸ same)⟩

/-- To sort and to leave entries out commute. -/
theorem filter_mergeSort (entries : List Entry) (keep : Entry → Bool) :
    (entries.mergeSort precedes).filter keep = (entries.filter keep).mergeSort precedes := by
  induction entries with
  | nil => simp
  | cons entry entries ih =>
      obtain ⟨front, back, sorted, rest, before⟩ :=
        List.mergeSort_cons precedes_trans precedes_total entry entries
      have ordered := sorted ▸ List.pairwise_mergeSort precedes_trans precedes_total
        (entry :: entries)
      have behind := (List.pairwise_cons.mp (List.pairwise_append.mp ordered).2.1).1
      rw [rest, List.filter_append] at ih
      rw [sorted, List.filter_append]
      by_cases kept : keep entry = true
      · obtain ⟨front', back', sorted', rest', before'⟩ :=
          List.mergeSort_cons precedes_trans precedes_total entry (entries.filter keep)
        have ordered' := sorted' ▸ List.pairwise_mergeSort precedes_trans precedes_total
          (entry :: entries.filter keep)
        have behind' := (List.pairwise_cons.mp (List.pairwise_append.mp ordered').2.1).1
        rw [List.filter_cons_of_pos kept, List.filter_cons_of_pos kept, sorted']
        obtain ⟨rfl, rfl⟩ := eq_of_append_cons (ih.trans rest')
          (fun other member => by simpa using before other (List.mem_filter.mp member).1)
          (fun other member => by simpa using before' other member)
          (fun other member => behind other (List.mem_filter.mp member).1) behind'
        rfl
      · rw [List.filter_cons_of_neg kept, List.filter_cons_of_neg kept, ih]

end SortedEntries

/-! ## Strips of points -/

namespace Expanded

open Cursor (Finds course)

/-- The readable points in a range, between the corrupt entries. -/
def strips (range : KeyRange) (entries : List Entry) : List (List Entry) :=
  (entries.splitOnP Entry.isCorrupt).map fun strip => within range (strip.flatMap Entry.parts)

theorem strips_nil (range : KeyRange) : strips range [] = [[]] := rfl

theorem strips_cons_of_corrupt {entry : Entry} (corrupt : entry.isCorrupt = true)
    (range : KeyRange) (entries : List Entry) :
    strips range (entry :: entries) = [] :: strips range entries := by
  rw [strips, List.splitOnP_cons_eq_if_modifyHead, if_pos corrupt]
  rfl

theorem strips_cons_of_readable {entry : Entry} (readable : ¬ entry.isCorrupt = true)
    (range : KeyRange) (entries : List Entry) :
    strips range (entry :: entries)
      = (strips range entries).modifyHead (within range entry.parts ++ ·) := by
  rw [strips, strips, List.splitOnP_cons_eq_if_modifyHead, if_neg readable]
  cases entries.splitOnP Entry.isCorrupt with
  | nil => rfl
  | cons strip behind =>
      rw [List.modifyHead_cons, List.map_cons, List.map_cons, List.modifyHead_cons,
        List.flatMap_cons, within_append]

theorem exists_strips (range : KeyRange) (entries : List Entry) :
    ∃ strip behind, strips range entries = strip :: behind :=
  List.exists_cons_of_ne_nil (mt List.map_eq_nil_iff.mp (List.splitOnP_ne_nil _ entries))

/-- The strips are what is met in turn, between failures. -/
theorem stripsOf_outcomes {range : KeyRange} {entries : List Entry}
    (sound : ∀ entry ∈ entries, entry.isCorrupt = true ∨ entry.Valid) :
    Course.stripsOf (entries.flatMap (Entry.outcomes range)) = strips range entries := by
  induction entries with
  | nil => rfl
  | cons entry entries ih =>
      obtain ⟨here, others⟩ := List.forall_mem_cons.mp sound
      rw [List.flatMap_cons]
      by_cases corrupt : entry.isCorrupt = true
      · rw [Entry.outcomes_of_corrupt corrupt, strips_cons_of_corrupt corrupt, ← ih others]
        rfl
      · obtain ⟨stretch, held⟩ := Entry.valid_iff.mp (here.resolve_left corrupt)
        rw [held.outcomes, Course.stripsOf_append, ih others, strips_cons_of_readable corrupt]

/-- All the points of the strips are those of the entries that are not corrupt. -/
theorem flatten_strips (range : KeyRange) (entries : List Entry) :
    (strips range entries).flatten
      = within range ((entries.filter fun entry => !entry.isCorrupt).flatMap Entry.parts) := by
  induction entries with
  | nil => rfl
  | cons entry entries ih =>
      by_cases corrupt : entry.isCorrupt = true
      · rw [strips_cons_of_corrupt corrupt, List.filter_cons_of_neg (by simp [corrupt]),
          List.flatten_cons, List.nil_append, ih]
      · rw [strips_cons_of_readable corrupt, List.filter_cons_of_pos (by simp [corrupt]),
          List.flatMap_cons, within_append, ← ih]
        obtain ⟨strip, behind, split⟩ := exists_strips range entries
        rw [split, List.modifyHead_cons, List.flatten_cons, List.flatten_cons, List.append_assoc]

/-- There is one strip exactly if there is no corrupt entry. -/
theorem strips_eq_singleton_iff (range : KeyRange) (entries : List Entry) :
    (∃ strip, strips range entries = [strip]) ↔ ∀ entry ∈ entries, entry.isCorrupt = false := by
  induction entries with
  | nil => simp [strips_nil]
  | cons entry entries ih =>
      obtain ⟨strip, behind, split⟩ := exists_strips range entries
      by_cases corrupt : entry.isCorrupt = true
      · rw [strips_cons_of_corrupt corrupt, split]
        simp [corrupt]
      · rw [strips_cons_of_readable corrupt, List.forall_mem_cons, ← ih, split]
        simp [corrupt]

/-! ## Over stored entries -/

/-- The entries that are visited for a range. -/
def visited (range : KeyRange) (entries : List Entry) : List Entry :=
  (SortedEntries.ofList entries).entries.filter fun entry => range.widened.contains entry.key

theorem mem_visited {range : KeyRange} {entries : List Entry} {entry : Entry} :
    entry ∈ visited range entries ↔ entry ∈ entries ∧ range.widened.contains entry.key = true := by
  rw [visited, List.mem_filter]
  exact and_congr_left' List.mem_mergeSort

theorem finds_visited (range : KeyRange) (entries : List Entry) :
    Finds (SortedEntries.ofList entries) range.widened (visited range entries) :=
  SortedEntries.finds_of_sorted _ _ (SortedEntries.sorted_mergeSort entries)

/-- Without the corrupt entries, the others are visited. -/
theorem visited_mended (range : KeyRange) (entries : List Entry) :
    visited range (entries.filter fun entry => !entry.isCorrupt)
      = (visited range entries).filter fun entry => !entry.isCorrupt := by
  show ((entries.filter _).mergeSort SortedEntries.precedes).filter _ = _
  rw [← SortedEntries.filter_mergeSort, List.filter_comm]
  rfl

/-- Without the corrupt entries, all readable points are one strip. -/
theorem strips_mended (range : KeyRange) (entries : List Entry) :
    strips range (visited range (entries.filter fun entry => !entry.isCorrupt))
      = [(strips range (visited range entries)).flatten] := by
  rw [flatten_strips, ← visited_mended, strips, List.splitOnP_eq_singleton]
  · rfl
  · intro entry member
    simpa using (List.mem_filter.mp (mem_visited.mp member).1).2

variable {entries : List Entry}

/-- Readable points are plain entries. -/
theorem plain_of_mem_strips (sound : ∀ entry ∈ entries, entry.isCorrupt = true ∨ entry.Valid)
    {range : KeyRange} {entry : Entry}
    (member : entry ∈ (strips range (visited range entries)).flatten) : entry.Plain := by
  rw [flatten_strips] at member
  obtain ⟨source, among, part⟩ := List.mem_flatMap.mp (List.mem_filter.mp member).1
  obtain ⟨found, readable⟩ := List.mem_filter.mp among
  obtain ⟨stretch, held⟩ := Entry.valid_iff.mp
    ((sound source (mem_visited.mp found).1).resolve_left (by simpa using readable))
  rw [held.parts] at part
  obtain ⟨point, _, rfl⟩ := List.mem_map.mp part
  exact ⟨point.value.length_toBytes, _, Row.metric_ofPoint _ _⟩

/-- The layer meets the readable points of a range in strips, and fails to be sought exactly if a
corrupt entry is visited in front of all of them. -/
theorem course_strips (sound : ∀ entry ∈ entries, entry.isCorrupt = true ∨ entry.Valid)
    (range : KeyRange) :
    let met := course (Cursor.seek range (above (SortedEntries.ofList entries)))
    Course.strips met.readings = Course.tidy (strips range (visited range entries))
      ∧ (met.failure = none
        ↔ ¬ ∃ strip behind, strips range (visited range entries) = [] :: strip :: behind) := by
  intro met
  have outcomes : met = Course.ofOutcomes ((visited range entries).flatMap (Entry.outcomes range)) :=
    @course_seek _ _ (above (SortedEntries.ofList entries)) _ _ (finds_visited range entries)
  have split : Course.stripsOf ((visited range entries).flatMap (Entry.outcomes range))
      = strips range (visited range entries) :=
    stripsOf_outcomes fun entry member => sound entry (mem_visited.mp member).1
  rw [outcomes, ← split]
  exact ⟨Course.strips_ofOutcomes _, Course.failure_ofOutcomes_eq_none_iff _⟩

end Expanded

end TimeSeries
