import TimeSeries.Proofs.Cursor.Exposed
import TimeSeries.Proofs.Cursor.LostRuns

/-!
# Failures come to the surface

Layers put failures off: the expanding layer reports one once it stands on the next entry, the
retaining layer reports one of two, and the combining layer loses a run to it.  None of them keeps a
failure to itself.  If a layer is sought and read to its end and no move fails, then no move failed
below: each lemma here leads from a reading of a layer to one of the cursor below it.

Packing never fails on its own account, since parts that cannot be merged are presented as they are
(`Combined.smooth_pack`).  So a reading of packed entries fails exactly if some stored entry cannot
be read to its end.

Main statement: `Combined.exists_finds_packed_iff`.
-/

set_option autoImplicit false

namespace TimeSeries

open Cursor (Presents Finds readings course)

/-! ## Readings without failure -/

namespace Cursor

variable {σ : Type} [Cursor σ]

/-- Where an entry is presented, moving on from it does not fail. -/
theorem Presents.of_top {cursor : σ} {entries : List Entry} {first : Entry}
    (presents : Presents cursor entries) (here : top cursor = some first) :
    (next cursor).2 = none ∧ ∃ rest, Presents (next cursor).1 rest := by
  cases presents with
  | finished nothing => rw [nothing] at here; cases here
  | entry there moved onward => rw [moved]; exact ⟨rfl, _, onward⟩

/-- If entries can be taken to the end, no move failed on the way. -/
theorem exists_presents_of_gather {α : Type} {take : α → Entry → Except Failure α}
    {state result : α} {cursor : σ} (taken : gather take state cursor = .ok result) :
    ∃ entries, Presents cursor entries := by
  fun_induction gather take state cursor with
  | case1 state cursor nothing => exact ⟨[], .finished nothing⟩
  | case2 => cases taken
  | case3 => cases taken
  | case4 state cursor entry here next stepped fine ih =>
      obtain ⟨entries, presents⟩ := ih taken
      exact ⟨entry :: entries, .entry here (Prod.ext rfl fine) presents⟩

theorem exists_finds_of_gatherWithin {α : Type} {range : KeyRange}
    {take : α → Entry → Except Failure α} {state result : α} {cursor : σ}
    (taken : gatherWithin range take state cursor = .ok result) :
    ∃ entries, Finds cursor range entries := by
  rw [gatherWithin] at taken
  split at taken
  · cases taken
  case h_2 sought moved =>
    obtain ⟨entries, presents⟩ := exists_presents_of_gather taken
    exact ⟨entries, sought, moved, presents⟩

end Cursor

namespace Course

/-- Only a course without failures is a single strip. -/
theorem eq_map_of_strips {readings : List (Entry × Option Failure)} {entries : List Entry}
    (whole : strips readings = [entries]) : readings = entries.map fun entry => (entry, none) := by
  induction readings generalizing entries with
  | nil =>
      cases whole
      rfl
  | cons reading onward ih =>
      obtain ⟨strip, behind, split⟩ := exists_strips onward
      obtain ⟨entry, failure⟩ := reading
      cases failure with
      | none =>
          rw [strips, split] at whole
          cases whole
          rw [List.map_cons, ← ih split]
      | some cause =>
          rw [strips, split] at whole
          cases whole

/-- Only outcomes without failures make a course without failures. -/
theorem eq_map_of_ofOutcomes {outcomes : List (Except Failure Entry)} {entries : List Entry}
    (course : ofOutcomes outcomes = ⟨none, entries.map fun entry => (entry, none)⟩) :
    outcomes = entries.map .ok := by
  induction outcomes generalizing entries with
  | nil =>
      cases entries with
      | nil => rfl
      | cons first rest => cases congrArg Course.readings course
  | cons outcome outcomes ih =>
      cases outcome with
      | error failure => cases congrArg Course.failure course
      | ok entry =>
          cases entries with
          | nil => cases congrArg Course.readings course
          | cons first rest =>
              obtain ⟨read, onward⟩ := List.cons.inj (congrArg Course.readings course)
              obtain ⟨rfl, fine⟩ := Prod.mk.inj read
              rw [List.map_cons, ih (Course.ext fine onward)]

end Course

/-! ## The layers -/

theorem Expanded.flatMap_outcomes_of_finds {σ : Type} [Cursor σ] {below : σ} {range : KeyRange}
    {stored entries : List Entry} (under : Finds below range.widened stored)
    (found : Finds (above below) range entries) :
    stored.flatMap (Entry.outcomes range) = entries.map .ok := by
  refine Course.eq_map_of_ofOutcomes ?_
  rw [← @Expanded.course_seek σ _ (above below) range stored under]
  obtain ⟨sought, moved, presents⟩ := found
  rw [moved, course, Cursor.presents_iff.mp presents]

namespace Retained

variable {σ : Type} [Cursor σ]

theorem exists_presents_of_settle (filter : RetentionFilter) {below : σ} {failure : Option Failure}
    {settled : Retained σ} {entries : List Entry}
    (moved : settle filter (below, failure) = (settled, none))
    (presents : Presents settled entries) :
    failure = none ∧ ∃ entries, Presents below entries := by
  fun_induction readings below generalizing failure settled entries with
  | case1 below nothing =>
      rw [settle, skip_of_finished nothing] at moved
      exact ⟨(Prod.mk.inj moved).2, [], .finished nothing⟩
  | case2 below entry here ih =>
      rw [settle] at moved
      by_cases accepted : filter.accepts entry.key = true
      · rw [skip_of_accepted here accepted] at moved
        obtain ⟨rfl, fine⟩ := Prod.mk.inj moved
        obtain ⟨onward, rest, presented⟩ :=
          presents.of_top (show Cursor.top _ = some entry from here)
        obtain ⟨passed, others, below⟩ := ih (Prod.ext rfl onward) presented
        exact ⟨fine, entry :: others, .entry here (Prod.ext rfl passed) below⟩
      · rw [skip_of_expired here accepted] at moved
        rcases stepped : Cursor.next below with ⟨later, _ | cause⟩
        · rw [stepped] at moved ih
          obtain ⟨fine, others, below⟩ := ih moved presents
          exact ⟨fine, entry :: others, .entry here stepped below⟩
        · rw [stepped] at moved
          cases (Prod.mk.inj moved).2

theorem exists_finds_below {cursor : Retained σ} {range : KeyRange} {entries : List Entry}
    (found : Finds cursor range entries) : ∃ entries, Finds cursor.below range entries := by
  obtain ⟨sought, moved, presents⟩ := found
  obtain ⟨fine, others, below⟩ := exists_presents_of_settle cursor.filter moved presents
  exact ⟨others, _, Prod.ext rfl fine, below⟩

end Retained

namespace Combined

variable {σ : Type} [Cursor σ] {reducer : Reducer} {window : Window}

/-- A failure that was met before is reported in any case. -/
theorem eq_none_of_fill {below : Lookahead σ} {output : List Entry} {failure : Option Failure}
    (fine : (fill reducer window below output failure).2 = none) : failure = none := by
  fun_induction fill reducer window below output failure with
  | case1 => exact fine
  | case2 below output failure empty entry here later cause collected ih =>
      exact (Option.or_eq_none_iff.mp (ih fine)).1
  | case3 below output failure empty entry here later run collected output' cause reduced ih =>
      exact (Option.or_eq_none_iff.mp (ih fine)).1
  | case4 => exact fine

/-- Behind what is left of the last run, nothing fails either. -/
theorem exists_fill_of_fill {below : Lookahead σ} {output entries : List Entry}
    {failure : Option Failure} {filled : Combined σ}
    (moved : fill reducer window below output failure = (filled, none))
    (presents : Presents filled entries) :
    ∃ filled entries, fill reducer window below [] none = (filled, none)
      ∧ Presents filled entries := by
  induction output generalizing failure filled entries with
  | nil =>
      cases eq_none_of_fill (congrArg Prod.snd moved)
      exact ⟨filled, entries, moved, presents⟩
  | cons entry output ih =>
      rw [fill_cons] at moved
      obtain ⟨rfl, rfl⟩ := Prod.mk.inj moved
      obtain ⟨onward, rest, presented⟩ := presents.of_top (show Cursor.top _ = some entry from rfl)
      exact ih (Prod.ext rfl onward) presented

/-- If no move of the layer fails, all entries below are one strip. -/
theorem eq_nil_of_fill {below : Lookahead σ} {strip entries : List Entry}
    {behind : List (List Entry)} (split : Course.strips (readings below) = strip :: behind)
    {filled : Combined σ} (moved : fill reducer window below [] none = (filled, none))
    (presents : Presents filled entries) : behind = [] := by
  fun_induction Window.cut window strip generalizing below filled entries with
  | case1 => exact (Course.eq_nil_of_strips split).2
  | case2 first rest ih =>
      have here : below.top = some first :=
        (Cursor.head?_readings below).symm.trans (Course.head?_of_strips split)
      by_cases kept : behind = [] ∨ ∃ entry ∈ rest, ¬ window.joins first.key entry.key = true
      · obtain ⟨later, collected, onward⟩ := collect_of_kept window first.key [first] split kept
        rw [fill_of_run reducer window none here collected] at moved
        obtain ⟨filled, entries, moved, presents⟩ := exists_fill_of_fill moved presents
        exact ih onward moved presents
      · obtain ⟨some_strips, joins⟩ := not_or.mp kept
        obtain ⟨next, others, rfl⟩ := List.exists_cons_of_ne_nil some_strips
        obtain ⟨later, cause, collected, onward⟩ :=
          collect_of_lost window first.key [first] split (by simpa using joins)
        -- the failure for which the run is lost would have been reported
        rw [fill_of_lost reducer window none here collected] at moved
        cases eq_none_of_fill (congrArg Prod.snd moved)

theorem exists_finds_below {below : σ} {range : KeyRange} {entries : List Entry}
    (found : Finds (above reducer window below) range entries) :
    ∃ entries, Finds below range entries := by
  obtain ⟨filled, moved, presents⟩ := found
  have sought : Combined.seek range (above reducer window below) = (filled, none) := moved
  unfold Combined.seek at sought
  rw [show Cursor.seek range (above reducer window below).below
    = (⟨(Cursor.seek range below).1, none⟩, (Cursor.seek range below).2) from rfl] at sought
  rcases under : Cursor.seek range below with ⟨later, _ | cause⟩
  · rw [under] at sought
    obtain ⟨strip, behind, split⟩ := Course.exists_strips (readings (Lookahead.mk later none))
    cases eq_nil_of_fill split sought presents
    have read := Course.eq_map_of_strips split
    rw [Lookahead.readings_eq] at read
    exact ⟨strip, later, under, Cursor.presents_iff.mpr read⟩
  · rw [under] at sought
    cases (Prod.mk.inj sought).2

end Combined

/-! ## Packing -/

/-- What keeps points from being read of bytes is that these are malformed. -/
theorem PackedReader.exists_of_toPoints_error {reader : PackedReader} {failure : Failure}
    (refused : reader.toPoints = .error failure) : ∃ cause, failure = .malformed cause := by
  fun_induction toPoints reader with
  | case1 => cases refused
  | case2 reader cause next stepped =>
      cases refused
      exact ⟨cause, rfl⟩
  | case3 reader point next stepped ih =>
      cases read : next.toPoints with
      | ok points => rw [read] at refused; cases refused
      | error other =>
          rw [read] at refused
          cases refused
          exact ih read

theorem Entry.exists_of_toPoints_error {entry : Entry} {failure : Failure}
    (refused : entry.toPoints = .error failure) : ∃ cause, failure = .malformed cause := by
  rw [toPoints] at refused
  split at refused
  · rw [unpackPoints, PackedReader.ofBytes] at refused
    split at refused
    · exact PackedReader.exists_of_toPoints_error refused
    · cases refused
      exact ⟨_, rfl⟩
  · rw [Binary64.ofBytes] at refused
    split at refused
    · cases refused
    · cases refused
      exact ⟨_, rfl⟩

namespace Reducer

theorem exists_of_pointsUnder_error {key : Key} {entries : List Entry} {failure : Failure}
    (refused : pointsUnder key entries = .error failure) :
    ∃ cause, unmergeable failure = .incompatible cause := by
  induction entries generalizing failure with
  | nil => cases refused
  | cons entry rest ih =>
      rw [pointsUnder] at refused
      split at refused
      · cases refused
        exact ⟨_, rfl⟩
      cases read : entry.toPoints with
      | error cause =>
          rw [read] at refused
          cases refused
          obtain ⟨cause, rfl⟩ := Entry.exists_of_toPoints_error read
          exact ⟨.malformed cause, rfl⟩
      | ok points =>
          rw [read] at refused
          cases others : pointsUnder key rest with
          | error cause =>
              rw [others] at refused
              cases refused
              exact ih others
          | ok more =>
              rw [others] at refused
              cases refused

/-- Entries that cannot be packed are incompatible, whatever it is that keeps them apart. -/
theorem exists_of_pack_error {key : Key} {entries : List Entry} {failure : Failure}
    (refused : pack key entries = .error failure) : ∃ cause, failure = .incompatible cause := by
  rw [pack.eq_def] at refused
  split at refused
  · cases refused
  split at refused
  case h_1 cause read =>
    cases refused
    exact exists_of_pointsUnder_error read
  case h_2 =>
    split at refused
    · cases refused
      exact ⟨_, rfl⟩
    · cases refused

end Reducer

namespace Combined

/-- To pack a run never fails: parts that cannot be merged stay as they are. -/
theorem smooth_pack (window : Window) (entries : List Entry) : Smooth .pack window entries := by
  intro run _
  refine List.findSome?_eq_none_iff.mpr fun reduced member => ?_
  obtain ⟨part, _, rfl⟩ := List.mem_map.mp member
  rw [reducePart.eq_def]
  split
  · rfl
  case h_2 first rest =>
    split
    · rfl
    · rfl
    case h_3 failure other refused =>
      obtain ⟨cause, rfl⟩ := Reducer.exists_of_pack_error refused
      exact absurd rfl (other cause)

/-- **Packing reads to the end exactly if all that is stored can be read**, whatever the filter
passes over; so it fails however many entries cannot be read and wherever they lie. -/
theorem exists_finds_packed_iff {σ : Type} [Cursor σ] {below : σ} {range : KeyRange}
    {stored : List Entry} (under : Finds below range.widened stored) (filter : RetentionFilter)
    (window : Window) :
    (∃ entries, Finds (above .pack window (Retained.mk (Expanded.above below) filter)) range
        entries)
      ↔ ∃ parts : List Entry, stored.flatMap (Entry.outcomes range) = parts.map .ok := by
  constructor
  · rintro ⟨entries, packed⟩
    obtain ⟨retained, found⟩ := exists_finds_below packed
    obtain ⟨parts, expanded⟩ := Retained.exists_finds_below found
    exact ⟨parts, Expanded.flatMap_outcomes_of_finds under expanded⟩
  · rintro ⟨parts, read⟩
    have expanded := Expanded.finds_outcomes under read
    have retained := Retained.finds (show Finds
      (Retained.mk (Expanded.above below) filter).below range parts from expanded)
    exact ⟨_, finds retained (smooth_pack window _)⟩

end Combined

end TimeSeries
