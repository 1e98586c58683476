import TimeSeries.Proofs.Cursor.Readings
import TimeSeries.Proofs.Maps.Lists

/-!
# What is presented combined

The entries below a combining layer are cut into runs of one metric and one window each, and what is
presented is what comes of the runs in turn (`Window.cut` and `reduceRun`), as long as no part of a
run fails.

Within a run the parts are those of its columns: a part holds, in their order, the entries of the
run with these columns (`get?_splitBySeries`), and no part is empty.

Main statement: `Combined.finds`.
-/

set_option autoImplicit false

namespace TimeSeries

/-! ## Runs -/

/-- The runs of entries that follow each other in one metric and one window. -/
def Window.cut (window : Window) : List Entry → List (List Entry)
  | [] => []
  | first :: rest =>
      (first :: rest.takeWhile fun entry => window.joins first.key entry.key)
        :: window.cut (rest.dropWhile fun entry => window.joins first.key entry.key)
termination_by entries => entries.length
decreasing_by exact Nat.lt_succ_of_le (List.length_dropWhile_le _ _)

theorem Window.flatten_cut (window : Window) (entries : List Entry) :
    (window.cut entries).flatten = entries := by
  fun_induction Window.cut window entries with
  | case1 => rfl
  | case2 first rest ih =>
      rw [List.flatten_cons, ih, List.cons_append, List.takeWhile_append_dropWhile]

theorem Window.mem_of_mem_cut {window : Window} {entries run : List Entry} {entry : Entry}
    (member : run ∈ window.cut entries) (found : entry ∈ run) : entry ∈ entries := by
  rw [← window.flatten_cut entries]
  exact List.mem_flatten_of_mem member found

/-- A run belongs to one window and one metric, those of its first entry. -/
theorem Window.joins_of_mem_cut {window : Window} {entries run : List Entry}
    (member : run ∈ window.cut entries) :
    ∃ first rest, run = first :: rest
      ∧ ∀ entry ∈ rest, window.joins first.key entry.key = true := by
  fun_induction Window.cut window entries with
  | case1 => cases member
  | case2 first rest ih =>
      rcases List.mem_cons.mp member with rfl | later
      · exact ⟨first, _, rfl, fun entry found => (List.mem_takeWhile_imp found :)⟩
      · exact ih later

/-! ## Parts of runs -/

/-- The entries of a run with given columns. -/
def partOf (columns : String × String × String) (run : List Entry) : List Entry :=
  run.filter fun entry => entry.key.columns = columns

/-- A part holds the entries of its columns, in their order. -/
theorem get?_splitBySeries (run : List Entry) (columns : String × String × String) :
    (splitBySeries run).get? columns
      = if partOf columns run = [] then none else some (partOf columns run) := by
  have split := SortedMap.get?_foldl_alter_empty (fun entry : Entry => entry.key.columns) id run
    columns
  rw [List.map_id] at split
  exact split

/-- The parts of a run are those of the columns that occur in it. -/
theorem mem_values_splitBySeries {run part : List Entry} :
    part ∈ (splitBySeries run).values
      ↔ ∃ columns, part = partOf columns run ∧ part ≠ [] := by
  rw [SortedMap.values, List.mem_map]
  constructor
  · rintro ⟨⟨columns, held⟩, member, rfl⟩
    have found := (SortedMap.mem_toList_iff _ _ _).mp member
    rw [get?_splitBySeries] at found
    split at found
    · cases found
    case isFalse some_entries =>
        cases found
        exact ⟨columns, rfl, some_entries⟩
  · rintro ⟨columns, rfl, some_entries⟩
    refine ⟨(columns, partOf columns run), ?_, rfl⟩
    rw [SortedMap.mem_toList_iff, get?_splitBySeries, if_neg some_entries]

/-- What comes of several things in turn: nothing fails if nothing fails for any of them, and
whatever holds of all that comes of each holds of all that comes of them together. -/
theorem forall_mem_reduced {α : Type} {reduce : α → List Entry × Option Failure} {items : List α}
    {holds : Entry → Prop}
    (each : ∀ item ∈ items, (reduce item).2 = none ∧ ∀ entry ∈ (reduce item).1, holds entry) :
    (items.map reduce).findSome? Prod.snd = none
      ∧ ∀ entry ∈ (items.map reduce).flatMap Prod.fst, holds entry := by
  constructor
  · rw [List.findSome?_eq_none_iff]
    intro output member
    obtain ⟨item, among, rfl⟩ := List.mem_map.mp member
    exact (each item among).1
  · intro entry member
    obtain ⟨output, reduced, found⟩ := List.mem_flatMap.mp member
    obtain ⟨item, among, rfl⟩ := List.mem_map.mp reduced
    exact (each item among).2 entry found

/-! ## Keys of what comes of runs -/

/-- What comes of a part is stored under keys of the part. -/
theorem exists_key_of_mem_reducePart {reducer : Reducer} {part : List Entry} {entry : Entry}
    (member : entry ∈ (reducePart reducer part).1) : ∃ source ∈ part, source.key = entry.key := by
  unfold reducePart at member
  split at member
  · cases member
  case h_2 first rest =>
    split at member
    · rw [List.mem_singleton.mp member]
      exact ⟨first, List.mem_cons_self, rfl⟩
    · exact ⟨entry, member, rfl⟩
    · cases member

/-- What comes of a run is stored under keys of the run. -/
theorem exists_key_of_mem_reduceRun {reducer : Reducer} {run : List Entry} {entry : Entry}
    (member : entry ∈ (reduceRun reducer run).1) : ∃ source ∈ run, source.key = entry.key := by
  obtain ⟨output, reduced, found⟩ := List.mem_flatMap.mp (List.mem_mergeSort.mp member)
  obtain ⟨part, among, rfl⟩ := List.mem_map.mp reduced
  obtain ⟨source, held, same⟩ := exists_key_of_mem_reducePart found
  obtain ⟨columns, rfl, _⟩ := mem_values_splitBySeries.mp among
  exact ⟨source, (List.mem_filter.mp held).1, same⟩

theorem sorted_reduceRun (reducer : Reducer) (run : List Entry) :
    (reduceRun reducer run).1.Pairwise fun first second =>
      (compare first.key second.key).isLE = true :=
  SortedEntries.sorted_mergeSort _

/-! ## The layer -/

namespace Combined

variable {σ : Type} [Cursor σ]

open Cursor (Presents Finds readings)

/-- What comes of the runs of some entries, in turn. -/
def combine (reducer : Reducer) (window : Window) (entries : List Entry) : List Entry :=
  (window.cut entries).flatMap fun run => (reduceRun reducer run).1

/-- No part of a run of the entries fails to be reduced. -/
def Smooth (reducer : Reducer) (window : Window) (entries : List Entry) : Prop :=
  ∀ run ∈ window.cut entries, (reduceRun reducer run).2 = none

theorem exists_key_of_mem_combine {reducer : Reducer} {window : Window} {entries : List Entry}
    {entry : Entry} (member : entry ∈ combine reducer window entries) :
    ∃ source ∈ entries, source.key = entry.key := by
  obtain ⟨run, among, found⟩ := List.mem_flatMap.mp member
  obtain ⟨source, held, same⟩ := exists_key_of_mem_reduceRun found
  exact ⟨source, Window.mem_of_mem_cut among held, same⟩

/-- Of sorted entries, what comes of the runs is sorted. -/
theorem sorted_combine (reducer : Reducer) (window : Window) {entries : List Entry}
    (sorted : entries.Pairwise fun first second =>
      (compare first.key second.key).isLE = true) :
    (combine reducer window entries).Pairwise fun first second =>
      (compare first.key second.key).isLE = true := by
  rw [← window.flatten_cut entries, List.pairwise_flatten] at sorted
  refine List.pairwise_flatMap.mpr ⟨fun run _ => sorted_reduceRun reducer run,
    sorted.2.imp fun apart first inFirst second inSecond => ?_⟩
  obtain ⟨earlier, before, firstKey⟩ := exists_key_of_mem_reduceRun inFirst
  obtain ⟨later, behind, secondKey⟩ := exists_key_of_mem_reduceRun inSecond
  rw [← firstKey, ← secondKey]
  exact apart earlier before later behind

section

variable {window : Window} {first : Key} {below ahead : Lookahead σ}

/-- A failure ahead ends the collecting of a run. -/
theorem collect_of_failed (run : List Entry) {cause : Failure}
    (peeked : below.peek = (ahead, .error cause)) :
    collect window first run below = (ahead, .error cause) := by
  unfold collect
  split
  case _ failed => rw [peeked] at failed; cases failed; rfl
  case _ found => rw [peeked] at found; cases found
  case _ found => rw [peeked] at found; cases found

/-- Without an entry ahead that joins it, a run ends with the top. -/
theorem collect_of_last (run : List Entry) {seen : Option Entry} (peeked : below.peek = (ahead, .ok seen))
    (apart : ∀ entry ∈ seen, ¬ window.joins first entry.key = true) :
    collect window first run below = collect.leave run ahead := by
  unfold collect
  split
  case _ failed => rw [peeked] at failed; cases failed
  case _ found =>
    rw [peeked] at found
    cases found
    rw [if_neg (apart _ rfl)]
  case _ found => rw [peeked] at found; cases found; rfl

/-- An entry ahead that joins a run is taken into it. -/
theorem collect_of_joining (run : List Entry) {later : Lookahead σ} {entry : Entry}
    (peeked : below.peek = (ahead, .ok (some entry)))
    (joins : window.joins first entry.key = true) (moved : ahead.next = (later, none)) :
    collect window first run below = collect window first (entry :: run) later := by
  rw [collect.eq_def window first run below]
  split
  case _ failed => rw [peeked] at failed; cases failed
  case _ found =>
    rw [peeked] at found
    cases found
    rw [if_pos joins]
    split
    case _ failed => rw [moved] at failed; cases failed
    case _ fine =>
      rw [moved] at fine
      cases fine
      rfl
  case _ found => rw [peeked] at found; cases found

end

/-- A run that ends within its strip is collected. -/
theorem collect_of_kept (window : Window) {below : Lookahead σ} (first : Key) (run : List Entry) {top : Entry} {rest : List Entry}
    {behind : List (List Entry)}
    (split : Course.strips (readings below) = (top :: rest) :: behind)
    (kept : behind = [] ∨ ∃ entry ∈ rest, ¬ window.joins first entry.key = true) :
    ∃ later, collect window first run below
        = (later, .ok (run.reverse ++ rest.takeWhile fun entry => window.joins first entry.key))
      ∧ Course.strips (readings later)
        = (rest.dropWhile fun entry => window.joins first entry.key) :: behind := by
  induction rest generalizing run below top with
  | nil =>
      obtain ⟨ahead, later, peeked, moved, onward⟩ :=
        Lookahead.exists_next_of_strips split (Or.inr (by simpa using kept))
      refine ⟨later, ?_, onward⟩
      rw [collect_of_last run peeked (fun _ seen => by cases seen), collect.leave, moved,
        List.takeWhile_nil, List.append_nil]
  | cons second rest ih =>
      obtain ⟨ahead, later, peeked, moved, onward⟩ :=
        Lookahead.exists_next_of_strips split (Or.inl (List.cons_ne_nil second rest))
      by_cases joins : window.joins first second.key = true
      · obtain ⟨last, collected, lastSplit⟩ :=
          ih (second :: run) onward (by simpa [joins] using kept)
        rw [List.takeWhile_cons_of_pos (by simpa using joins),
          List.dropWhile_cons_of_pos (by simpa using joins)]
        refine ⟨last, ?_, lastSplit⟩
        rw [collect_of_joining run peeked joins moved, collected, List.reverse_cons,
          List.append_assoc, List.singleton_append]
      · rw [List.takeWhile_cons_of_neg (by simpa using joins),
          List.dropWhile_cons_of_neg (by simpa using joins)]
        refine ⟨later, ?_, onward⟩
        rw [collect_of_last run peeked (fun _ seen => by cases seen; exact joins), collect.leave,
          moved, List.append_nil]

/-- As long as something is left of the last run, the layer stands on it. -/
theorem fill_cons (reducer : Reducer) (window : Window) (below : Lookahead σ) (entry : Entry)
    (output : List Entry) (failure : Option Failure) :
    fill reducer window below (entry :: output) failure
      = (⟨below, reducer, window, entry :: output⟩, failure) := by
  rw [fill.eq_def]
  rfl

section

variable (reducer : Reducer) (window : Window) {below later : Lookahead σ}
  (failure : Option Failure)

theorem fill_of_finished (nothing : below.top = none) :
    fill reducer window below [] failure = (⟨below, reducer, window, []⟩, failure) := by
  rw [fill.eq_def, if_pos List.isEmpty_nil]
  split
  · rfl
  case _ found => rw [nothing] at found; cases found

/-- A run that cannot be collected is passed over. -/
theorem fill_of_lost {first : Entry} (here : below.top = some first) {cause : Failure}
    (collected : collect window first.key [first] below = (later, .error cause)) :
    fill reducer window below [] failure
      = fill reducer window later [] (Failure.first failure (some cause)) := by
  rw [fill.eq_def reducer window below, if_pos List.isEmpty_nil]
  split
  case _ nothing => rw [here] at nothing; cases nothing
  case _ found =>
    rw [here] at found
    cases found
    split
    case _ failed =>
      rw [collected] at failed
      cases failed
      rfl
    case _ fine => rw [collected] at fine; cases fine

/-- Otherwise the next run is collected and reduced. -/
theorem fill_of_run {first : Entry} (here : below.top = some first) {run : List Entry}
    (collected : collect window first.key [first] below = (later, .ok run)) :
    fill reducer window below [] failure
      = fill reducer window later (reduceRun reducer run).1
        (Failure.first failure (reduceRun reducer run).2) := by
  rw [fill.eq_def reducer window below, if_pos List.isEmpty_nil]
  split
  case _ nothing => rw [here] at nothing; cases nothing
  case _ found =>
    rw [here] at found
    cases found
    split
    case _ failed => rw [collected] at failed; cases failed
    case _ fine =>
      rw [collected] at fine
      cases fine
      rfl

end

/-- What is left of the last run is presented first. -/
theorem presents_fill_output {reducer : Reducer} {window : Window} {below : Lookahead σ}
    {entries : List Entry}
    (behind : ∀ failure, ∃ filled, fill reducer window below [] failure = (filled, failure)
      ∧ Presents filled entries) (output : List Entry) (failure : Option Failure) :
    ∃ filled, fill reducer window below output failure = (filled, failure)
      ∧ Presents filled (output ++ entries) := by
  induction output generalizing failure with
  | nil => exact behind failure
  | cons entry output ih =>
      obtain ⟨filled, moved, presents⟩ := ih none
      exact ⟨_, fill_cons _ _ _ _ _ _, .entry rfl moved presents⟩

/-- What is left of the last run is presented, and then what comes of the others. -/
theorem presents_fill (reducer : Reducer) (window : Window) (entries : List Entry) :
    ∀ (_ : Smooth reducer window entries) (output : List Entry) (failure : Option Failure)
      {below : Lookahead σ} (_ : Course.strips (readings below) = [entries]),
      ∃ filled, fill reducer window below output failure = (filled, failure)
        ∧ Presents filled (output ++ combine reducer window entries) := by
  fun_induction Window.cut window entries with
  | case1 =>
      intro _ output failure below whole
      refine presents_fill_output (fun failure => ?_) output failure
      refine ⟨_, fill_of_finished reducer window failure
        (Cursor.top_of_readings_nil (Course.eq_nil_of_strips whole).1), ?_⟩
      rw [combine, Window.cut]
      exact .finished rfl
  | case2 first rest ih =>
      intro smooth output failure below whole
      rw [Smooth, Window.cut, List.forall_mem_cons] at smooth
      have here : below.top = some first :=
        (Cursor.head?_readings below).symm.trans (Course.head?_of_strips whole)
      obtain ⟨later, collected, onward⟩ :=
        collect_of_kept window first.key [first] whole (Or.inl rfl)
      rw [List.reverse_singleton, List.singleton_append] at collected
      refine presents_fill_output (fun failure => ?_) output failure
      rw [fill_of_run reducer window failure here collected, smooth.1, Failure.first,
        Option.or_none, combine, Window.cut, List.flatMap_cons]
      exact ih smooth.2 _ failure onward

/-- A combining layer presents what comes of the runs below it. -/
theorem finds {reducer : Reducer} {window : Window} {below : σ} {range : KeyRange}
    {entries : List Entry} (found : Finds below range entries)
    (smooth : Smooth reducer window entries) :
    Finds (above reducer window below) range (combine reducer window entries) := by
  obtain ⟨sought, moved, shows⟩ := Lookahead.finds found none
  obtain ⟨filled, stepped, presents⟩ := presents_fill reducer window entries smooth [] none shows.strips
  refine ⟨filled, ?_, presents⟩
  show Combined.seek range (above reducer window below) = _
  unfold Combined.seek
  rw [show Cursor.seek range (above reducer window below).below = (sought, none) from moved]
  exact stepped

end Combined

end TimeSeries
