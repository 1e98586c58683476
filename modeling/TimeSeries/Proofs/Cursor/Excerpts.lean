import TimeSeries.Proofs.Cursor.Exposed

/-!
# Expansion within a range

In a range the expanding layer seeks the entries below from the start of the metric on, passes over
the points in front of the range, and leaves a run at the first point behind it.  What it presents is
nevertheless told without any of that: take every entry apart, up to the point that cannot be read,
and keep what lies in the range.

This rests on the keys.  The points of a run ascend, so all that is left behind the range lies there;
a run is stored under its first point, so one stored behind the range has no point in it; and rows of
other metrics are apart from those of the metric of the start, whatever their times are, so one
stored in front of the first row of that metric has none, either.

Main statement: `Expanded.scan_of_keyed`.
-/

set_option autoImplicit false

namespace TimeSeries

/-! ## What can be read of an entry -/

/-- The points that are read in turn, up to the first that is not behind its predecessor. -/
def legiblePoints (previous : Option Timestamp) (points : List Point) : List Point :=
  (inOrder previous points).filterMap Except.toOption

/-- What can be read of an entry: its single value, or an entry for each point of its packed run up to
the first that is out of order, and nothing of a run of a length that no points have. -/
def Entry.legible (entry : Entry) : List Entry := entry.readout.filterMap Except.toOption

/-- The entry is stored under a row of its time, whose metric has no zero character, and a packed run
is stored at the time of its first point. -/
structure Entry.Keyed (entry : Entry) : Prop where
  row : ∃ metric, Row.ZeroFree metric ∧ entry.key.row = Row.ofPoint metric entry.key.timestamp
  first : isPacked entry.value = true → entry.value.length % 16 = 0 →
    ∀ point ∈ (pointsIn entry.value).head?, point.timestamp = entry.key.timestamp

section

variable {previous : Option Timestamp} {point : Point} {points : List Point}

/-- A point that is not behind its predecessor ends what is read. -/
theorem legiblePoints_of_behind {last : Timestamp} (known : previous = some last)
    (behind : point.timestamp ≤ last) : legiblePoints previous (point :: points) = [] := by
  subst known
  rw [legiblePoints, inOrder]
  simp only [if_pos behind]
  rfl

/-- A point behind its predecessor is read. -/
theorem legiblePoints_of_ahead (ahead : ∀ last ∈ previous, last < point.timestamp) :
    legiblePoints previous (point :: points)
      = point :: legiblePoints (some point.timestamp) points := by
  cases previous with
  | none => rfl
  | some last =>
      rw [legiblePoints, inOrder]
      simp only [if_neg (Int64.not_le.mpr (ahead last rfl))]
      rfl

/-- What is read ascends, behind the predecessor of all. -/
theorem ascending_legiblePoints (previous : Option Timestamp) (points : List Point) :
    (∀ last ∈ previous, ∀ point ∈ legiblePoints previous points, last < point.timestamp)
      ∧ StrictlyAscending (legiblePoints previous points) := by
  induction points generalizing previous with
  | nil => exact ⟨fun _ _ _ member => absurd member List.not_mem_nil, List.Pairwise.nil⟩
  | cons point points ih =>
      obtain ⟨later, ascending⟩ := ih (some point.timestamp)
      by_cases ahead : ∀ last ∈ previous, last < point.timestamp
      · rw [legiblePoints_of_ahead ahead]
        refine ⟨fun last known => List.forall_mem_cons.mpr ⟨ahead last known, ?_⟩,
          List.pairwise_cons.mpr ⟨later _ rfl, ascending⟩⟩
        exact fun other member => Int64.lt_trans (ahead last known) (later _ rfl other member)
      · simp only [not_forall, Int64.not_lt] at ahead
        obtain ⟨last, known, behind⟩ := ahead
        rw [legiblePoints_of_behind known behind]
        exact ⟨fun _ _ _ member => absurd member List.not_mem_nil, List.Pairwise.nil⟩

end

namespace Entry

variable {entry : Entry}

/-- A single value is read as it is. -/
theorem legible_of_single (single : isPacked entry.value = false) : entry.legible = [entry] := by
  rw [legible, readout, single, if_neg Bool.false_ne_true]
  rfl

/-- Nothing is read of a run of a length that no points have. -/
theorem legible_of_torn (packed : isPacked entry.value = true)
    (torn : ¬ entry.value.length % 16 = 0) : entry.legible = [] := by
  rw [legible, readout, if_pos packed, if_neg torn]
  rfl

/-- A run of points is read point by point. -/
theorem legible_of_packed {strand : Strand} {timestamp : Timestamp}
    (named : entry.key = strand.key timestamp) (packed : isPacked entry.value = true)
    (whole : entry.value.length % 16 = 0) :
    entry.legible = (legiblePoints none (pointsIn entry.value)).map strand.entryAt := by
  have metric : entry.key.metric = .ok strand.metric := by rw [named, strand.metric_key]
  rw [legible, readout, if_pos packed, if_pos whole, metric, named, legiblePoints]
  simp only [List.filterMap_map, List.map_filterMap]
  refine List.filterMap_congr fun found _ => ?_
  cases found <;> rfl

namespace Keyed

/-- The key is one of a strand. -/
theorem exists_strand (keyed : entry.Keyed) :
    ∃ strand : Strand, Row.ZeroFree strand.metric
      ∧ entry.key = strand.key entry.key.timestamp := by
  obtain ⟨metric, free, row⟩ := keyed.row
  refine ⟨⟨metric, entry.key.family, entry.key.qualifier, entry.key.visibility⟩, free, ?_⟩
  rw [Strand.key, ← row]

/-- Whatever can be read of the entry belongs to the strand of its key, at that time or later. -/
theorem key_of_mem_legible {strand : Strand} {timestamp : Timestamp} (keyed : entry.Keyed)
    (named : entry.key = strand.key timestamp) {part : Entry} (member : part ∈ entry.legible) :
    ∃ later, timestamp ≤ later ∧ part.key = strand.key later := by
  cases packed : isPacked entry.value with
  | false =>
      rw [legible_of_single packed, List.mem_singleton] at member
      exact ⟨timestamp, Int64.le_refl _, by rw [member, named]⟩
  | true =>
      by_cases whole : entry.value.length % 16 = 0
      · rw [legible_of_packed named packed whole] at member
        obtain ⟨point, among, rfl⟩ := List.mem_map.mp member
        refine ⟨point.timestamp, ?_, rfl⟩
        have first := keyed.first packed whole
        cases points : pointsIn entry.value with
        | nil => rw [points] at among; cases among
        | cons head rest =>
            rw [points] at among first
            rw [legiblePoints_of_ahead (by rintro _ ⟨⟩), List.mem_cons] at among
            have start : head.timestamp = timestamp := by
              rw [first head rfl, named, Strand.timestamp_key]
            rcases among with rfl | behind
            · exact start ▸ Int64.le_refl _
            · exact Int64.le_of_lt
                (start ▸ (ascending_legiblePoints (some head.timestamp) rest).1 _ rfl _ behind)
      · rw [legible_of_torn packed whole] at member
        cases member

end Keyed

end Entry

/-! ## Open runs -/

namespace OpenRun

open Expanded (within within_cons_of_pos within_cons_of_neg within_of_behind)

variable {strand : Strand} {previous : Option Timestamp} {point : Point} {rest later : Bytes}

/-- A point behind its predecessor is read; what comes of it depends on where its key lies. -/
theorem step_of_ahead (taken : takePoint? rest = some (point, later))
    (ahead : ∀ last ∈ previous, last < point.timestamp) (range : KeyRange) (timestamp : Timestamp) :
    OpenRun.step range ⟨strand.key timestamp, rest, previous, false⟩
      = if range.startsAfter (strand.key point.timestamp) then
          .pass ⟨strand.key timestamp, later, some point.timestamp, false⟩
        else if range.stopsBefore (strand.key point.timestamp) then .finished
        else .present (strand.entryAt point)
          ⟨strand.key timestamp, later, some point.timestamp, false⟩ := by
  have read : PackedReader.step ⟨rest, previous, false⟩
      = .read point ⟨later, some point.timestamp, false⟩ := by
    rw [PackedReader.step, if_neg Bool.false_ne_true]
    cases previous with
    | none => simp only [taken]
    | some last => simp only [taken, if_neg (Int64.not_le.mpr (ahead last rfl))]
  rw [step, read]
  simp only [Strand.atTime_key]
  rfl

/-- A point that is not behind its predecessor breaks the run. -/
theorem step_of_behind {last : Timestamp} (taken : takePoint? rest = some (point, later))
    (behind : point.timestamp ≤ last) (range : KeyRange) (key : Key) :
    OpenRun.step range ⟨key, rest, some last, false⟩
      = .broken (.malformed (.packedOrder point.timestamp last)) := by
  rw [step, PackedReader.step, if_neg Bool.false_ne_true]
  simp only [taken, if_pos behind]

/-- What is read of an open run within a range lies among the points that can be read: points in front
of the range are passed over, and behind the first one behind the range there is none within it. -/
theorem legible_outcomes (range : KeyRange) (strand : Strand) (timestamp : Timestamp)
    (rest : Bytes) (previous : Option Timestamp) :
    (OpenRun.outcomes range ⟨strand.key timestamp, rest, previous, false⟩).filterMap
        Except.toOption
      = within range ((legiblePoints previous (pointsIn rest)).map strand.entryAt) := by
  fun_induction pointsIn rest generalizing previous with
  | case1 rest point later taken ih =>
      rw [outcomes_eq]
      by_cases ahead : ∀ last ∈ previous, last < point.timestamp
      · rw [step_of_ahead taken ahead, legiblePoints_of_ahead ahead, List.map_cons]
        by_cases front : range.startsAfter (strand.key point.timestamp) = true
        · have outside : ¬ range.contains (strand.entryAt point).key = true := by
            simp [KeyRange.contains, front]
          rw [if_pos front, within_cons_of_neg outside]
          exact ih _
        by_cases back : range.stopsBefore (strand.key point.timestamp) = true
        · have others := (ascending_legiblePoints (some point.timestamp) (pointsIn later)).1
          rw [if_neg front, if_pos back, within_of_behind (others _ rfl) back]
          rfl
        · have inside : range.contains (strand.entryAt point).key = true := by
            simp [KeyRange.contains, front, back]
          rw [if_neg front, if_neg back, within_cons_of_pos inside]
          exact congrArg (strand.entryAt point :: ·) (ih _)
      · simp only [not_forall, Int64.not_lt] at ahead
        obtain ⟨last, known, behind⟩ := ahead
        rw [legiblePoints_of_behind known behind]
        cases known
        rw [step_of_behind taken behind]
        rfl
  | case2 rest nothing =>
      rw [outcomes_eq, step, PackedReader.step, if_neg Bool.false_ne_true, nothing]
      rfl

end OpenRun

/-- What is read of an entry within a range is what can be read of it and lies there. -/
theorem Entry.Keyed.legible_outcomes {entry : Entry} (keyed : entry.Keyed) (range : KeyRange) :
    (entry.outcomes range).filterMap Except.toOption = Expanded.within range entry.legible := by
  obtain ⟨strand, _, named⟩ := keyed.exists_strand
  cases packed : isPacked entry.value with
  | false =>
      rw [legible_of_single packed, Entry.outcomes, packed, if_neg Bool.false_ne_true]
      by_cases inside : range.contains entry.key = true
      · rw [if_pos inside, Expanded.within_cons_of_pos inside]
        rfl
      · rw [if_neg inside, Expanded.within_cons_of_neg inside]
        rfl
  | true =>
      by_cases whole : entry.value.length % 16 = 0
      · rw [legible_of_packed named packed whole, Entry.outcomes, if_pos packed,
          PackedReader.ofBytes, if_pos whole, named]
        exact OpenRun.legible_outcomes range strand _ entry.value none
      · rw [legible_of_torn packed whole, Entry.outcomes, if_pos packed, PackedReader.ofBytes,
          if_neg whole]
        rfl

/-! ## Where the cursor below is sought -/

/-- The key of a bound, if there is one. -/
def Bound.key? : Bound → Option Key
  | .unbounded => none
  | .included key | .excluded key => some key

namespace KeyRange

/-- The range starts within a metric without a zero character, if it has a start. -/
def StartsInMetric (range : KeyRange) : Prop :=
  ∀ key ∈ range.start.key?, ∃ metric, Row.ZeroFree metric ∧ key.metric = .ok metric

variable {range : KeyRange} {strand : Strand}

/-- Whatever lies in front of the widened range belongs to a strand that lies all in front of the
range. -/
theorem startsAfter_of_widened (starts : range.StartsInMetric) (free : Row.ZeroFree strand.metric)
    {timestamp : Timestamp} (front : range.widened.startsAfter (strand.key timestamp) = true)
    (other : Timestamp) : range.startsAfter (strand.key other) = true := by
  -- a metric in front of the first row of another one has all its rows in front of those of the other
  have before : ∀ {key : Key} {metric : String}, Row.ZeroFree metric → key.metric = .ok metric →
      compare (strand.key timestamp) (Key.ofRow (Row.first metric)) = .lt →
      compare (strand.key other) key = .lt := by
    intro key metric metricFree read front
    obtain ⟨time, row⟩ := Row.exists_ofPoint_of_metric read
    rw [Key.compare_ofRow_eq_lt, Strand.key, Row.first, Row.compare_ofPoint free metricFree,
      Ordering.then_eq_lt] at front
    rw [Key.compare_eq, Strand.key, row,
      Row.compare_ofPoint free metricFree]
    rcases front with less | ⟨_, earlier⟩
    · simp only [less, Ordering.lt_then]
    · exact absurd (Std.compare_eq_lt.mp earlier) (Int64.not_lt.mpr timestamp.minValue_le)
  obtain ⟨start, stop⟩ := range
  cases start with
  | unbounded => exact front
  | included key =>
      obtain ⟨metric, metricFree, read⟩ := starts key rfl
      simp only [widened, widenedStart, read, startsAfter, beq_iff_eq] at front ⊢
      exact before metricFree read front
  | excluded key =>
      obtain ⟨metric, metricFree, read⟩ := starts key rfl
      simp only [widened, widenedStart, read, startsAfter, beq_iff_eq, bne_iff_ne] at front ⊢
      rw [before metricFree read front]
      exact Ordering.noConfusion

end KeyRange

namespace Expanded

open Cursor (course)

/-- Nothing can be read in a range of an entry that is not found in the widened range. -/
theorem within_legible_of_outside {entry : Entry} {range : KeyRange} (keyed : entry.Keyed)
    (starts : range.StartsInMetric) (outside : ¬ range.widened.contains entry.key = true) :
    within range entry.legible = [] := by
  obtain ⟨strand, free, named⟩ := keyed.exists_strand
  rw [within, List.filter_eq_nil_iff]
  intro part member
  obtain ⟨later, notBefore, key⟩ := keyed.key_of_mem_legible named member
  rw [KeyRange.contains, Bool.and_eq_true, Bool.not_eq_true', Bool.not_eq_true', not_and_or,
    Bool.not_eq_false, Bool.not_eq_false, named] at outside
  rw [key]
  rcases outside with front | behind
  · simp [KeyRange.contains, KeyRange.startsAfter_of_widened starts free front later]
  · have beyond : range.stopsBefore (strand.key later) = true :=
      KeyRange.stopsBefore_of_le (strand.isLE_compare_key notBefore) behind
    simp [KeyRange.contains, beyond]

/-- Over entries stored under their first points, what is read in a range is what can be read of all
entries and lies there, whichever of them are found below. -/
theorem flatMap_within {range : KeyRange} {entries : List Entry}
    (keyed : ∀ entry ∈ entries, entry.Keyed) (starts : range.StartsInMetric) :
    ((entries.filter fun entry => range.widened.contains entry.key).flatMap
        (Entry.outcomes range)).filterMap Except.toOption
      = within range (entries.flatMap Entry.legible) := by
  induction entries with
  | nil => rfl
  | cons entry entries ih =>
      obtain ⟨here, others⟩ := List.forall_mem_cons.mp keyed
      rw [List.flatMap_cons, within_append, ← ih others, List.filter_cons]
      split
      case isTrue =>
          rw [List.flatMap_cons, List.filterMap_append, here.legible_outcomes]
      case isFalse outside =>
          rw [within_legible_of_outside here starts (by simpa using outside), List.nil_append]

end Expanded

/-! ## Reading on -/

namespace Cursor

variable {σ : Type} [Cursor σ] (cursor : σ) {count : Nat}

/-- After some moves, as long as there was a top, the others are still to be read. -/
theorem readings_nexts (few : count ≤ (readings cursor).length) :
    readings (nexts count cursor) = (readings cursor).drop count := by
  induction count generalizing cursor with
  | zero => rfl
  | succ count ih =>
      cases here : top cursor with
      | none =>
          rw [readings_of_finished here] at few
          exact absurd few (Nat.not_succ_le_zero count)
      | some entry =>
          rw [readings_of_top here, List.length_cons] at few
          rw [nexts_succ, readings_of_top here, List.drop_succ_cons]
          exact ih _ (Nat.le_of_succ_le_succ few)

/-- The cursor then stands on what is read next, or on nothing if all has been read. -/
theorem top_after_next (few : count ≤ (readings cursor).length) :
    top (after (List.replicate count .next) cursor)
      = ((readings cursor).map Prod.fst)[count]? := by
  rw [← nexts, ← head?_readings, readings_nexts cursor few, List.head?_drop, List.getElem?_map]

end Cursor

namespace Expanded

/-- **Expansion within a range.**  Over entries in the order of their keys, each packed run under its
first point, and whatever calls were made before, a reading of the range that goes on past failures
meets what can be read of the entries and lies in the range, once and in order: every single value as
it is, and an entry for each point of a run up to the first that is out of order.  There is nothing
more to read after so many moves. -/
theorem scan_of_keyed {entries : List Entry} {range : KeyRange}
    (sorted : entries.Pairwise fun first second => (compare first.key second.key).isLE = true)
    (keyed : ∀ entry ∈ entries, entry.Keyed) (starts : range.StartsInMetric)
    (calls : List Cursor.Call) :
    let cursor := Cursor.after calls (above (SortedEntries.ofList entries))
    let expected := within range (entries.flatMap Entry.legible)
    Cursor.scan range cursor = expected
      ∧ ∀ count ≤ expected.length,
        Cursor.top (Cursor.after (List.replicate count .next) (Cursor.seek range cursor).1)
          = expected[count]? := by
  intro cursor expected
  -- no call changes the entries below, which are in order already
  have below : cursor.below.entries = entries := by
    have same := SortedEntries.entries_ofList sorted
    exact (Expanded.kept (SortedEntries.kept entries)).after same calls
  have found := SortedEntries.finds_of_sorted cursor.below range.widened (by rwa [below])
  rw [below] at found
  have scanned : Cursor.scan range cursor = expected := by
    rw [Cursor.scan, course_seek found, Course.entries_ofOutcomes, flatMap_within keyed starts]
  have read : (Cursor.readings (Cursor.seek range cursor).1).map Prod.fst = expected := scanned
  refine ⟨scanned, fun count few => ?_⟩
  rw [Cursor.top_after_next _ (by rwa [← read, List.length_map] at few), read]

/-- Of three runs, a broken one, one of a length that no points have and one that straddles the end of
the range, only the points within the range that can be read are presented. -/
theorem scan_of_three_runs :
    let strand : Strand := ⟨"m", "h=a", "", ""⟩
    let first : Entry := ⟨strand.key 1, packPoints [⟨1, ⟨1⟩⟩, ⟨3, ⟨3⟩⟩, ⟨2, ⟨2⟩⟩]⟩
    let second : Entry := ⟨strand.key 2, List.replicate 20 0⟩
    let third : Entry := ⟨strand.key 4, packPoints [⟨4, ⟨4⟩⟩, ⟨5, ⟨5⟩⟩, ⟨7, ⟨7⟩⟩]⟩
    let fourth := strand.entryAt ⟨6, ⟨6⟩⟩
    let range : KeyRange := ⟨.excluded (strand.key 1), .included (strand.key 5)⟩
    Cursor.scan range (above (SortedEntries.ofList [first, second, third, fourth]))
      = [strand.entryAt ⟨3, ⟨3⟩⟩, strand.entryAt ⟨4, ⟨4⟩⟩, strand.entryAt ⟨5, ⟨5⟩⟩] := by
  intro strand first second third fourth range
  have free : Row.ZeroFree strand.metric := by rw [Row.ZeroFree]; decide
  have sorted : [first, second, third, fourth].Pairwise fun first second =>
      (compare first.key second.key).isLE = true := by
    simp only [List.pairwise_cons, List.forall_mem_cons, first, second, third, fourth,
      Strand.key_entryAt, strand.compare_key]
    decide
  have keyed : ∀ entry ∈ [first, second, third, fourth], entry.Keyed := by
    have row : ∀ timestamp, ∃ metric, Row.ZeroFree metric
        ∧ (strand.key timestamp).row = Row.ofPoint metric timestamp := fun _ => ⟨_, free, rfl⟩
    have firstPoints : (pointsIn first.value).head? = some ⟨1, ⟨1⟩⟩ := by decide +kernel
    have thirdPoints : (pointsIn third.value).head? = some ⟨4, ⟨4⟩⟩ := by decide +kernel
    simp only [List.forall_mem_cons, List.not_mem_nil, false_implies, implies_true, and_true]
    refine ⟨⟨row 1, fun _ _ => ?_⟩, ⟨row 2, fun _ torn => ?_⟩, ⟨row 4, fun _ _ => ?_⟩,
      ⟨row 6, fun packed => ?_⟩⟩
    · rw [firstPoints]
      rintro _ ⟨⟩
      rfl
    · exact absurd torn (by decide)
    · rw [thirdPoints]
      rintro _ ⟨⟩
      rfl
    · exact absurd packed (by decide)
  have starts : range.StartsInMetric := by
    rintro _ ⟨⟩
    exact ⟨_, free, strand.metric_key 1⟩
  have read := (scan_of_keyed sorted keyed starts []).1
  refine read.trans ?_
  decide +kernel

end Expanded

end TimeSeries
