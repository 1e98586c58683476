import Mathlib.Data.List.Basic
import TimeSeries.Cursor.Expanded
import TimeSeries.Reducer
import TimeSeries.Proofs.Cursor.Readings
import TimeSeries.Proofs.Entries.Canonical
import TimeSeries.Proofs.Entries.Strands

/-!
# What is presented expanded

A `Stretch` is what an entry stores: points of one strand in strict time order, at least one of
them, under the key of the first.  A single point is stored as a value and several as a packed run.

An entry holds a stretch if it is stored under the key of the stretch and has its points, whichever
way they are written: the packed run of a single point holds what its value does.

Reading an entry, the expanding layer meets the entries of its points that lie in the range, and the
failure for which it leaves the rest, if there is one: these are the `Entry.outcomes`.  What the layer
meets over some entries are the outcomes of the entries in turn.

Taken apart, a stretch is one entry for each of its points.  Over entries that hold stretches nothing
fails, and the layer presents those of all points whose keys lie in the range; that it stops reading a
run behind the range makes no difference, since the keys of a stretch ascend.

Main statements: `Expanded.course_seek`, and `Expanded.finds_parts` for entries that hold stretches.
-/

set_option autoImplicit false

namespace TimeSeries

/-! ## Stretches -/

/-- The entry of a single point of a strand. -/
def Strand.entryAt (strand : Strand) (point : Point) : Entry :=
  ⟨strand.key point.timestamp, point.value.toBytes⟩

@[simp] theorem Strand.key_entryAt (strand : Strand) (point : Point) :
    (strand.entryAt point).key = strand.key point.timestamp := rfl

@[simp] theorem Strand.value_entryAt (strand : Strand) (point : Point) :
    (strand.entryAt point).value = point.value.toBytes := rfl

/-- An entry tells its strand and its point. -/
theorem Strand.entryAt_injective {strand other : Strand} {point another : Point}
    (same : strand.entryAt point = other.entryAt another) : strand = other ∧ point = another := by
  obtain ⟨key, value⟩ := Entry.mk.inj same
  obtain ⟨rfl, time⟩ := Strand.key_injective key
  have read := Binary64.ofBytes_toBytes point.value
  rw [value, Binary64.ofBytes_toBytes] at read
  obtain ⟨timestamp, number⟩ := point
  obtain ⟨anotherTimestamp, anotherNumber⟩ := another
  cases time
  cases read
  exact ⟨rfl, rfl⟩

/-- Points of a strand that share an entry. -/
structure Stretch where
  strand : Strand
  first : Point
  rest : List Point
  ascending : StrictlyAscending (first :: rest)

namespace Stretch

def points (stretch : Stretch) : List Point := stretch.first :: stretch.rest

/-- The key under which a stretch is stored. -/
def key (stretch : Stretch) : Key := stretch.strand.key stretch.first.timestamp

/-- A single point is stored as its value, and several as a packed run. -/
def value (stretch : Stretch) : Bytes :=
  if stretch.rest = [] then stretch.first.value.toBytes else packPoints stretch.points

def entry (stretch : Stretch) : Entry := ⟨stretch.key, stretch.value⟩

/-- The entries of its points. -/
def parts (stretch : Stretch) : List Entry := stretch.points.map stretch.strand.entryAt

/-- A stretch of one point. -/
def single (strand : Strand) (point : Point) : Stretch :=
  ⟨strand, point, [], List.pairwise_singleton _ _⟩

@[simp] theorem key_entry (stretch : Stretch) :
    stretch.entry.key = stretch.strand.key stretch.first.timestamp := rfl

@[simp] theorem entry_single (strand : Strand) (point : Point) :
    (single strand point).entry = strand.entryAt point := rfl

@[simp] theorem parts_single (strand : Strand) (point : Point) :
    (single strand point).parts = [strand.entryAt point] := rfl

theorem toPoints_entry (stretch : Stretch) : stretch.entry.toPoints = .ok stretch.points := by
  unfold Entry.toPoints
  by_cases alone : stretch.rest = []
  · have value : stretch.entry.value = stretch.first.value.toBytes := if_pos alone
    rw [value, isPacked_toBytes, if_neg Bool.false_ne_true, Binary64.ofBytes_toBytes,
      Stretch.points, alone]
    rfl
  · have value : stretch.entry.value = packPoints stretch.points := if_neg alone
    rw [value, isPacked_packPoints, if_pos rfl]
    exact unpackPoints_packPoints stretch.ascending

/-- The parts tell the stretch. -/
theorem eq_of_parts {stretch other : Stretch} (same : stretch.parts = other.parts) :
    stretch = other := by
  obtain ⟨strand, first, rest, ascending⟩ := stretch
  obtain ⟨otherStrand, otherFirst, otherRest, otherAscending⟩ := other
  obtain ⟨rfl, _⟩ := Strand.entryAt_injective (List.cons.inj same).1
  have points : first :: rest = otherFirst :: otherRest :=
    (List.map_inj_right fun _ _ equal => (Strand.entryAt_injective equal).2).mp same
  cases points
  rfl

/-- No point of a stretch is before its first. -/
theorem first_le (stretch : Stretch) {point : Point} (member : point ∈ stretch.points) :
    stretch.first.timestamp ≤ point.timestamp := by
  rcases List.mem_cons.mp member with rfl | later
  · exact Int64.le_refl _
  · exact Int64.le_of_lt ((List.pairwise_cons.mp stretch.ascending).1 point later)

end Stretch

namespace Strand

/-- Keys of a strand ascend with time. -/
theorem isLE_compare_key (strand : Strand) {left right : Timestamp} (notAfter : left ≤ right) :
    (compare (strand.key left) (strand.key right)).isLE = true := by
  rw [strand.compare_key]
  exact Std.isLE_compare.mpr notAfter

end Strand

/-! ## Entries taken apart -/

/-- An entry taken apart: one entry for each of its points. -/
def Entry.parts (entry : Entry) : List Entry :=
  (entry.toPoints.toOption.getD []).filterMap fun point =>
    (entry.key.atTime point.timestamp).toOption.map fun key => ⟨key, point.value.toBytes⟩

namespace Stretch

/-- The entry has the points of the stretch, under the key of the first. -/
structure HeldBy (stretch : Stretch) (entry : Entry) : Prop where
  key : entry.key = stretch.key
  points : entry.toPoints = .ok stretch.points

theorem heldBy_entry (stretch : Stretch) : stretch.HeldBy stretch.entry :=
  ⟨rfl, stretch.toPoints_entry⟩

variable {stretch : Stretch} {entry : Entry}

/-- The parts of an entry are those of the stretch that it holds. -/
theorem HeldBy.parts (held : stretch.HeldBy entry) : entry.parts = stretch.parts := by
  have key : ∀ point : Point, (entry.key.atTime point.timestamp).toOption.map
      (fun key => Entry.mk key point.value.toBytes) = some (stretch.strand.entryAt point) := by
    intro point
    rw [held.key, Stretch.key, Strand.atTime_key]
    rfl
  rw [Entry.parts, held.points]
  simp only [key]
  exact congrFun List.filterMap_eq_map stretch.points

/-- The parts of an entry are those of the stretch that it stores. -/
theorem parts_entry (stretch : Stretch) : stretch.entry.parts = stretch.parts :=
  stretch.heldBy_entry.parts

/-- A single value is the only part of its entry. -/
theorem HeldBy.parts_of_single (held : stretch.HeldBy entry) (single : isPacked entry.value = false) :
    stretch.parts = [entry] := by
  have points := held.points
  rw [Entry.toPoints, if_neg (by simp [single])] at points
  cases read : Binary64.ofBytes entry.value with
  | error failure => rw [read] at points; cases points
  | ok value =>
      rw [read] at points
      obtain ⟨first, alone⟩ := List.cons.inj (Except.ok.inj points).symm
      have bytes : stretch.first.value.toBytes = entry.value := by
        rw [first]
        exact Binary64.toBytes_of_ofBytes read
      rw [Stretch.parts, Stretch.points, alone, List.map_singleton, Strand.entryAt, bytes]
      show [Entry.mk stretch.key entry.value] = [entry]
      rw [← held.key]

/-- A packed run is read as the points of the stretch. -/
theorem HeldBy.reader_of_packed (held : stretch.HeldBy entry) (packed : isPacked entry.value = true) :
    ∃ reader, PackedReader.ofBytes entry.value = .ok reader
      ∧ reader.toPoints = .ok stretch.points := by
  have points := held.points
  rw [Entry.toPoints, if_pos packed, unpackPoints] at points
  cases opened : PackedReader.ofBytes entry.value with
  | error failure => rw [opened] at points; cases points
  | ok reader =>
      rw [opened] at points
      exact ⟨reader, rfl, points⟩

end Stretch

/-! ## Open runs -/

namespace OpenRun

/-- The open run stands in front of the given points of a strand. -/
structure Faces (run : OpenRun) (strand : Strand) (points : List Point) : Prop where
  key : ∃ timestamp, run.key = strand.key timestamp
  points : run.points.toPoints = .ok points

variable {run : OpenRun} {strand : Strand} {point : Point} {points : List Point}

theorem step_of_faces_nil (faces : run.Faces strand []) (range : KeyRange) :
    run.step range = .finished := by
  rw [step, PackedReader.step_of_toPoints_nil faces.points]

/-- One point is read; what comes of it depends on where its key lies. -/
theorem step_of_faces_cons (faces : run.Faces strand (point :: points)) (range : KeyRange) :
    ∃ rest : OpenRun, rest.Faces strand points
      ∧ run.step range = if range.startsAfter (strand.key point.timestamp) then .pass rest
          else if range.stopsBefore (strand.key point.timestamp) then .finished
          else .present (strand.entryAt point) rest := by
  obtain ⟨timestamp, named⟩ := faces.key
  obtain ⟨next, read, onward⟩ := PackedReader.step_of_toPoints_cons faces.points
  refine ⟨⟨run.key, next⟩, ⟨⟨timestamp, named⟩, onward⟩, ?_⟩
  simp only [step, read, named, strand.atTime_key]
  rfl

/-- What is met in reading an open run: the entries of its points within a range, and the failure for
which the rest of it is left. -/
def outcomes (range : KeyRange) (run : OpenRun) : List (Except Failure Entry) :=
  match _stepped : run.step range with
  | .present entry rest => .ok entry :: rest.outcomes range
  | .pass rest => rest.outcomes range
  | .finished => []
  | .broken failure => [.error failure]
termination_by run.points.rest.length
decreasing_by
  · exact length_of_step_present ‹_›
  · exact length_of_step_pass ‹_›

theorem outcomes_eq (range : KeyRange) (run : OpenRun) :
    run.outcomes range = match run.step range with
      | .present entry rest => .ok entry :: rest.outcomes range
      | .pass rest => rest.outcomes range
      | .finished => []
      | .broken failure => [.error failure] := by
  rw [outcomes.eq_def]
  split <;> rename_i stepped <;> rw [stepped]

end OpenRun

namespace Expanded

open Cursor (Presents Finds)

/-- The entries whose keys lie in a range. -/
def within (range : KeyRange) (entries : List Entry) : List Entry :=
  entries.filter fun entry => range.contains entry.key

theorem within_cons_of_pos {range : KeyRange} {entry : Entry}
    (inside : range.contains entry.key = true) (entries : List Entry) :
    within range (entry :: entries) = entry :: within range entries :=
  List.filter_cons_of_pos (by simpa using inside)

theorem within_cons_of_neg {range : KeyRange} {entry : Entry}
    (outside : ¬ range.contains entry.key = true) (entries : List Entry) :
    within range (entry :: entries) = within range entries :=
  List.filter_cons_of_neg (by simpa using outside)

theorem within_append (range : KeyRange) (first second : List Entry) :
    within range (first ++ second) = within range first ++ within range second :=
  List.filter_append first second

/-- If a point lies behind the range, so do all later points of its strand. -/
theorem within_of_behind {range : KeyRange} {strand : Strand} {point : Point} {points : List Point}
    (later : ∀ other ∈ points, point.timestamp < other.timestamp)
    (behind : range.stopsBefore (strand.key point.timestamp) = true) :
    within range (strand.entryAt point :: points.map strand.entryAt) = [] := by
  rw [within, ← List.map_cons, List.filter_eq_nil_iff]
  intro entry member
  obtain ⟨other, among, rfl⟩ := List.mem_map.mp member
  have notAfter : point.timestamp ≤ other.timestamp := by
    rcases List.mem_cons.mp among with rfl | follows
    · exact Int64.le_refl _
    · exact Int64.le_of_lt (later other follows)
  have beyond := KeyRange.stopsBefore_of_le (strand.isLE_compare_key notAfter) behind
  simp [KeyRange.contains, Strand.entryAt, beyond]

variable {σ : Type} [Cursor σ]

/-- Looking for an entry starts in the open run. -/
theorem fill_some (range : KeyRange) (below : σ) (run : OpenRun) (failure : Option Failure) :
    fill range below (some run) failure
      = match run.step range with
        | .present entry rest => (⟨below, range, some rest, some entry⟩, failure)
        | .pass rest => fill range below (some rest) failure
        | .finished => fill range below none failure
        | .broken cause => fill range below none (Failure.first failure (some cause)) := by
  rw [fill.eq_def]
  simp only
  split <;> rename_i stepped <;> rw [stepped]

theorem fill_none_of_finished (range : KeyRange) {below : σ} (nothing : Cursor.top below = none)
    (failure : Option Failure) :
    fill range below none failure = (⟨below, range, none, none⟩, failure) := by
  rw [fill.eq_def]
  simp only
  split
  · rfl
  case _ found => rw [nothing] at found; cases found

/-- Without an open run, looking for an entry moves the cursor below. -/
theorem fill_none_of_top (range : KeyRange) {below later : σ} {entry : Entry}
    (here : Cursor.top below = some entry) (moved : Cursor.next below = (later, none))
    (failure : Option Failure) :
    fill range below none failure
      = if isPacked entry.value then
          match PackedReader.ofBytes entry.value with
          | .ok points => fill range later (some ⟨entry.key, points⟩) failure
          | .error cause => fill range later none (Failure.first failure (some cause))
        else if range.contains entry.key then (⟨later, range, none, some entry⟩, failure)
        else fill range later none failure := by
  rw [fill.eq_def]
  simp only
  split
  case _ nothing => rw [here] at nothing; cases nothing
  case _ found =>
    rw [here] at found
    cases found
    split
    case _ failed => rw [moved] at failed; cases failed
    case _ fine =>
      rw [moved] at fine
      cases fine
      rfl

/-- Of an open run that stands in front of points of a strand, those within the range are met. -/
theorem outcomes_of_faces (range : KeyRange) {strand : Strand} {points : List Point}
    (ascending : StrictlyAscending points) {run : OpenRun} (faces : run.Faces strand points) :
    run.outcomes range = (within range (points.map strand.entryAt)).map .ok := by
  induction points generalizing run with
  | nil => rw [OpenRun.outcomes_eq, OpenRun.step_of_faces_nil faces]; rfl
  | cons point points ih =>
      obtain ⟨before, later⟩ := List.pairwise_cons.mp ascending
      obtain ⟨rest, onward, stepped⟩ := OpenRun.step_of_faces_cons faces range
      rw [OpenRun.outcomes_eq, stepped, List.map_cons]
      by_cases front : range.startsAfter (strand.key point.timestamp) = true
      · -- the point lies in front of the range and is passed over
        have outside : ¬ range.contains (strand.entryAt point).key = true := by
          simp [KeyRange.contains, Strand.entryAt, front]
        rw [if_pos front, within_cons_of_neg outside]
        exact ih later onward
      by_cases back : range.stopsBefore (strand.key point.timestamp) = true
      · rw [if_neg front, if_pos back, within_of_behind before back]
        rfl
      · have inside : range.contains (strand.entryAt point).key = true := by
          simp [KeyRange.contains, Strand.entryAt, front, back]
        rw [if_neg front, if_neg back, within_cons_of_pos inside]
        exact congrArg (.ok (strand.entryAt point) :: ·) (ih later onward)

end Expanded

/-- What is met in reading an entry: the entries of its points within a range, and the failure for
which the rest of it is left. -/
def Entry.outcomes (range : KeyRange) (entry : Entry) : List (Except Failure Entry) :=
  if isPacked entry.value then
    match PackedReader.ofBytes entry.value with
    | .ok points => OpenRun.outcomes range ⟨entry.key, points⟩
    | .error failure => [.error failure]
  else if range.contains entry.key then [.ok entry] else []

/-- An entry that holds a stretch is read to its end. -/
theorem Stretch.HeldBy.outcomes {stretch : Stretch} {entry : Entry} (held : stretch.HeldBy entry)
    (range : KeyRange) :
    entry.outcomes range = (Expanded.within range entry.parts).map .ok := by
  rw [held.parts, Entry.outcomes]
  cases packed : isPacked entry.value with
  | false =>
      rw [if_neg Bool.false_ne_true, held.parts_of_single packed]
      by_cases inside : range.contains entry.key = true
      · rw [if_pos inside, Expanded.within_cons_of_pos inside]
        rfl
      · rw [if_neg inside, Expanded.within_cons_of_neg inside]
        rfl
  | true =>
      obtain ⟨reader, opened, read⟩ := held.reader_of_packed packed
      rw [if_pos rfl, opened]
      exact Expanded.outcomes_of_faces range stretch.ascending ⟨⟨_, held.key⟩, read⟩

namespace Expanded

open Cursor (Presents Finds course)

variable {σ : Type} [Cursor σ]

/-! ## The layer -/

/-- Whatever is met behind an open run, the outcomes of the run come first. -/
theorem course_fill_run {range : KeyRange} {below : σ} {behind : List (Except Failure Entry)}
    (closed : ∀ failure, course (fill range below none failure)
      = (Course.ofOutcomes behind).after failure) (run : OpenRun) (failure : Option Failure) :
    course (fill range below (some run) failure)
      = (Course.ofOutcomes (run.outcomes range ++ behind)).after failure := by
  fun_induction OpenRun.outcomes range run generalizing failure with
  | case1 run entry rest stepped ih =>
      rw [fill_some, stepped]
      show course (Expanded.mk below range (some rest) (some entry), failure) = _
      rw [Cursor.course_of_top rfl]
      exact congrArg (fun onward => (Course.behind entry onward).after failure) (ih none)
  | case2 run rest stepped ih =>
      rw [fill_some, stepped]
      exact ih failure
  | case3 run stepped =>
      rw [fill_some, stepped]
      exact closed failure
  | case4 run cause stepped =>
      rw [fill_some, stepped]
      show course (fill range below none (Failure.first failure (some cause))) = _
      rw [closed, ← Course.after_after]
      rfl

/-- The layer meets the outcomes of the entries below, in turn. -/
theorem course_fill (range : KeyRange) {below : σ} {entries : List Entry}
    (presents : Presents below entries) (failure : Option Failure) :
    course (fill range below none failure)
      = (Course.ofOutcomes (entries.flatMap (Entry.outcomes range))).after failure := by
  induction presents generalizing failure with
  | finished nothing =>
      rw [fill_none_of_finished range nothing]
      exact Cursor.course_of_finished rfl failure
  | @entry below later first rest here moved onward ih =>
      rw [fill_none_of_top range here moved, List.flatMap_cons, Entry.outcomes]
      split
      · split
        · exact course_fill_run ih _ failure
        case _ cause _ =>
          rw [ih, ← Course.after_after]
          rfl
      · split
        · rw [Cursor.course_of_top rfl]
          exact congrArg (fun onward => (Course.behind first onward).after failure) (ih none)
        · exact ih failure

/-- What the layer meets in a range are the outcomes of the entries found below. -/
theorem course_seek {cursor : Expanded σ} {range : KeyRange} {entries : List Entry}
    (found : Finds cursor.below range.widened entries) :
    course (Cursor.seek range cursor)
      = Course.ofOutcomes (entries.flatMap (Entry.outcomes range)) := by
  obtain ⟨sought, moved, presents⟩ := found
  show course (Expanded.seek range cursor) = _
  unfold Expanded.seek
  rw [moved]
  exact course_fill range presents none

/-- Over entries that are read to their ends, the layer finds what is read. -/
theorem finds_outcomes {below : σ} {range : KeyRange} {entries parts : List Entry}
    (found : Finds below range.widened entries)
    (read : entries.flatMap (Entry.outcomes range) = parts.map .ok) :
    Finds (above below) range parts := by
  have course := @course_seek σ _ (above below) range entries found
  rw [read, Course.ofOutcomes_map_ok] at course
  exact ⟨_, Prod.ext rfl (congrArg Course.failure course),
    Cursor.presents_iff.mpr (congrArg Course.readings course)⟩

/-- Entries that hold stretches are read to their ends. -/
theorem flatMap_outcomes {range : KeyRange} {entries : List Entry}
    (hold : ∀ entry ∈ entries, ∃ stretch : Stretch, stretch.HeldBy entry) :
    entries.flatMap (Entry.outcomes range)
      = (within range (entries.flatMap Entry.parts)).map .ok := by
  rw [within, List.filter_flatMap, List.map_flatMap]
  refine List.flatMap_congr fun entry member => ?_
  obtain ⟨stretch, held⟩ := hold entry member
  exact held.outcomes range

/-- Over entries that hold stretches, the layer finds the parts of the entries within a range. -/
theorem finds_parts {below : σ} {range : KeyRange} {entries : List Entry}
    (found : Finds below range.widened entries)
    (hold : ∀ entry ∈ entries, ∃ stretch : Stretch, stretch.HeldBy entry) :
    Finds (above below) range (within range (entries.flatMap Entry.parts)) :=
  finds_outcomes found (flatMap_outcomes hold)

/-- Over entries that store stretches, the layer finds the parts of these within a range. -/
theorem finds {below : σ} {range : KeyRange} {stretches : List Stretch}
    (found : Finds below range.widened (stretches.map Stretch.entry)) :
    Finds (above below) range (within range (stretches.flatMap Stretch.parts)) := by
  have parts := finds_parts found fun entry member => by
    obtain ⟨stretch, _, rfl⟩ := List.mem_map.mp member
    exact ⟨stretch, stretch.heldBy_entry⟩
  rw [List.flatMap_map] at parts
  simpa only [Stretch.parts_entry] using parts

end Expanded

end TimeSeries
