import Mathlib.Data.List.TakeWhile
import TimeSeries.Cursor.Combined
import TimeSeries.Cursor.Retained
import TimeSeries.Cursor.Sorted
import TimeSeries.Proofs.Row.Order

/-!
# What a cursor presents

`Cursor.Presents` says that a cursor presents the entries of a list, one after the other, and that
no move fails on the way.  Reading such a cursor to its end is then a matter of the list alone.
`Cursor.Finds` says the same of a cursor that seeks a range first.

Each layer is described by what it makes of the list below it: sorted entries leave those of the
range, the retained entries leave those that the filter accepts, and looking ahead changes nothing.

Main statements: `Presents.gather` and `Presents.drain` turn reading into a walk over the list, and
`SortedEntries.finds_of_sorted`, `Retained.finds` and `Lookahead.finds` describe the layers.
-/

set_option autoImplicit false

namespace TimeSeries

namespace Cursor

variable {σ : Type} [Cursor σ]

/-- The cursor presents the given entries and no others, and no move fails on the way. -/
inductive Presents : σ → List Entry → Prop
  | finished {cursor : σ} (nothing : top cursor = none) : Presents cursor []
  | entry {cursor later : σ} {first : Entry} {rest : List Entry} (here : top cursor = some first)
      (moved : next cursor = (later, none)) (onward : Presents later rest) :
      Presents cursor (first :: rest)

/-- Once it has sought a range, the cursor presents the given entries. -/
def Finds (cursor : σ) (range : KeyRange) (entries : List Entry) : Prop :=
  ∃ sought, seek range cursor = (sought, none) ∧ Presents sought entries

/-- Taking the entries of a cursor into a state is taking those of a list. -/
theorem Presents.gather {cursor : σ} {entries : List Entry} (presents : Presents cursor entries)
    {α : Type} (take : α → Entry → Except Failure α) (state : α) :
    Cursor.gather take state cursor = entries.foldlM take state := by
  induction presents generalizing state with
  | finished nothing =>
      unfold Cursor.gather
      split
      · rfl
      case _ found => rw [nothing] at found; cases found
  | entry here moved onward ih =>
      unfold Cursor.gather
      split
      case _ found => rw [here] at found; cases found
      case _ found =>
        rw [here] at found
        cases found
        rw [List.foldlM_cons, moved]
        split
        case _ failed => rw [failed]; rfl
        case _ taken =>
          rw [taken]
          exact ih _

/-- A cursor is read to its end. -/
theorem Presents.drain {cursor : σ} {entries : List Entry} (presents : Presents cursor entries) :
    (Cursor.drain cursor).2 = .ok entries := by
  induction presents with
  | finished nothing =>
      unfold Cursor.drain
      split
      · rfl
      case _ found => rw [nothing] at found; cases found
  | entry here moved onward ih =>
      unfold Cursor.drain
      split
      case _ found => rw [here] at found; cases found
      case _ found =>
        rw [here] at found
        cases found
        rw [moved]
        simp only [ih]
        rfl

theorem Finds.gatherWithin {cursor : σ} {range : KeyRange} {entries : List Entry}
    (finds : Finds cursor range entries) {α : Type} (take : α → Entry → Except Failure α)
    (state : α) : Cursor.gatherWithin range take state cursor = entries.foldlM take state := by
  obtain ⟨sought, found, presents⟩ := finds
  simp only [Cursor.gatherWithin, found]
  exact presents.gather take state

end Cursor

open Cursor (Presents Finds)

/-! ## Sorted entries -/

namespace SortedEntries

theorem precedes_trans (first second third : Entry) :
    precedes first second → precedes second third → precedes first third :=
  Std.TransCmp.isLE_trans

theorem precedes_total (first second : Entry) :
    precedes first second || precedes second first := by
  have swapped : compare second.key first.key = (compare first.key second.key).swap :=
    Std.OrientedCmp.eq_swap
  rw [precedes, precedes, swapped]
  cases compare first.key second.key <;> rfl

theorem sorted_mergeSort (entries : List Entry) :
    (entries.mergeSort precedes).Pairwise fun first second =>
      (compare first.key second.key).isLE = true :=
  List.pairwise_mergeSort precedes_trans precedes_total entries

/-- Entries that are in order already are taken as they come. -/
theorem entries_ofList {entries : List Entry}
    (sorted : entries.Pairwise fun first second => (compare first.key second.key).isLE = true) :
    (ofList entries).entries = entries :=
  List.mergeSort_of_pairwise sorted

/-- From where it stands, the cursor presents the entries up to the first behind the range. -/
theorem presents (entries rest : List Entry) (range : KeyRange) :
    Presents (SortedEntries.mk entries rest range)
      (rest.takeWhile fun entry => !range.stopsBefore entry.key) := by
  induction rest with
  | nil => exact .finished rfl
  | cons first rest ih =>
      by_cases behind : range.stopsBefore first.key = true
      · rw [List.takeWhile_cons_of_neg (by simpa using behind)]
        refine .finished ?_
        simp [Cursor.top, SortedEntries.top, Option.filter, behind]
      · rw [List.takeWhile_cons_of_pos (by simpa using behind)]
        refine .entry ?_ rfl ih
        simp [Cursor.top, SortedEntries.top, Option.filter, behind]

theorem finds (cursor : SortedEntries) (range : KeyRange) :
    Finds cursor range
      ((cursor.entries.dropWhile fun entry => range.startsAfter entry.key).takeWhile
        fun entry => !range.stopsBefore entry.key) :=
  ⟨_, rfl, presents _ _ range⟩

/-- Of a list that satisfies a predicate from some place on, dropping leaves what satisfies it. -/
theorem dropWhile_eq_filter {α : Type} {skip : α → Bool} {items : List α}
    (ordered : items.Pairwise fun first second => skip second = true → skip first = true) :
    items.dropWhile skip = items.filter fun item => !skip item := by
  induction items with
  | nil => rfl
  | cons item items ih =>
      obtain ⟨here, later⟩ := List.pairwise_cons.mp ordered
      by_cases skipped : skip item = true
      · rw [List.dropWhile_cons_of_pos skipped, List.filter_cons_of_neg (by simp [skipped]),
          ih later]
      · rw [List.dropWhile_cons_of_neg skipped, eq_comm, List.filter_eq_self]
        intro other member
        rw [Bool.not_eq_true', Bool.eq_false_iff]
        rcases List.mem_cons.mp member with rfl | behind
        · exact skipped
        · exact mt (here other behind) skipped

/-- Of a list that satisfies a predicate up to some place, taking leaves what satisfies it. -/
theorem takeWhile_eq_filter {α : Type} {keep : α → Bool} {items : List α}
    (ordered : items.Pairwise fun first second => keep second = true → keep first = true) :
    items.takeWhile keep = items.filter keep := by
  induction items with
  | nil => rfl
  | cons item items ih =>
      obtain ⟨here, later⟩ := List.pairwise_cons.mp ordered
      by_cases kept : keep item = true
      · rw [List.takeWhile_cons_of_pos kept, List.filter_cons_of_pos kept, ih later]
      · rw [List.takeWhile_cons_of_neg kept, eq_comm, List.filter_eq_nil_iff]
        intro other member
        rcases List.mem_cons.mp member with rfl | behind
        · exact kept
        · exact mt (here other behind) kept

/-- Of entries in the order of their keys, those from the start of a range to its end are those within
it. -/
theorem takeWhile_dropWhile_eq_filter {entries : List Entry} (range : KeyRange)
    (sorted : entries.Pairwise fun first second => (compare first.key second.key).isLE = true) :
    ((entries.dropWhile fun entry => range.startsAfter entry.key).takeWhile
        fun entry => !range.stopsBefore entry.key)
      = entries.filter fun entry => range.contains entry.key := by
  have front : (entries.dropWhile fun entry => range.startsAfter entry.key)
      = entries.filter fun entry => !range.startsAfter entry.key :=
    dropWhile_eq_filter (sorted.imp fun notAfter => KeyRange.startsAfter_of_le notAfter)
  have back : ((entries.filter fun entry => !range.startsAfter entry.key).takeWhile
        fun entry => !range.stopsBefore entry.key)
      = (entries.filter fun entry => !range.startsAfter entry.key).filter
        fun entry => !range.stopsBefore entry.key := by
    refine takeWhile_eq_filter ((sorted.filter _).imp fun notAfter => ?_)
    rw [Bool.not_eq_true', Bool.not_eq_true', Bool.eq_false_iff, Bool.eq_false_iff]
    exact mt (KeyRange.stopsBefore_of_le notAfter)
  rw [front, back, List.filter_filter]
  simp only [KeyRange.contains, Bool.and_comm]

/-- Of entries in the order of their keys the cursor presents those within the range. -/
theorem finds_of_sorted (cursor : SortedEntries) (range : KeyRange)
    (sorted : cursor.entries.Pairwise fun first second =>
      (compare first.key second.key).isLE = true) :
    Finds cursor range (cursor.entries.filter fun entry => range.contains entry.key) := by
  have found := finds cursor range
  rwa [takeWhile_dropWhile_eq_filter range sorted] at found

/-- Over the range of all keys the cursor presents all its entries. -/
theorem finds_all (cursor : SortedEntries) : Finds cursor .all cursor.entries := by
  have found := finds cursor .all
  have whole : (cursor.entries.dropWhile fun entry => KeyRange.all.startsAfter entry.key)
      = cursor.entries := by
    cases cursor.entries <;> rfl
  have all : (cursor.entries.takeWhile fun entry => !KeyRange.all.stopsBefore entry.key)
      = cursor.entries :=
    List.takeWhile_eq_self_iff.mpr fun _ _ => rfl
  rwa [whole, all] at found

end SortedEntries

/-! ## Retained entries -/

namespace Retained

variable {σ : Type} [Cursor σ]

section

variable {filter : RetentionFilter} {below : σ} {entry : Entry}

theorem skip_of_finished (nothing : Cursor.top below = none) : skip filter below = (below, none) := by
  rw [skip.eq_def]
  split
  · rfl
  case _ found => rw [nothing] at found; cases found

/-- The layer stops in front of an accepted entry. -/
theorem skip_of_accepted (here : Cursor.top below = some entry)
    (accepted : filter.accepts entry.key = true) : skip filter below = (below, none) := by
  rw [skip.eq_def]
  split
  · rfl
  case _ found =>
    rw [here] at found
    cases found
    rw [if_pos accepted]

/-- The layer moves on from an expired entry, and goes on unless that failed. -/
theorem skip_of_expired (here : Cursor.top below = some entry)
    (expired : ¬ filter.accepts entry.key = true) :
    skip filter below = match Cursor.next below with
      | (later, some failure) => (later, some failure)
      | (later, none) => skip filter later := by
  rw [skip.eq_def]
  split
  case _ nothing => rw [here] at nothing; cases nothing
  case _ found =>
    rw [here] at found
    cases found
    rw [if_neg expired]
    split <;> rename_i stepped <;> rw [stepped]

end

/-- Passing over entries leaves those that the filter accepts. -/
theorem presents_settle (filter : RetentionFilter) {below : σ} {entries : List Entry}
    (presents : Presents below entries) :
    ∃ settled, settle filter (below, none) = (settled, none)
      ∧ Presents settled (entries.filter fun entry => filter.accepts entry.key) := by
  induction presents with
  | @finished cursor nothing =>
      refine ⟨⟨cursor, filter⟩, ?_, .finished nothing⟩
      rw [settle, skip_of_finished nothing]
      rfl
  | @entry cursor later first rest here moved onward ih =>
      obtain ⟨settled, stepped, presents⟩ := ih
      by_cases accepted : filter.accepts first.key = true
      · rw [List.filter_cons_of_pos (by simpa using accepted)]
        refine ⟨⟨cursor, filter⟩, ?_, .entry here ?_ presents⟩
        · rw [settle, skip_of_accepted here accepted]
          rfl
        · show settle filter (Cursor.next cursor) = _
          rw [moved]
          exact stepped
      · rw [List.filter_cons_of_neg (by simpa using accepted)]
        refine ⟨settled, ?_, presents⟩
        rw [settle] at stepped ⊢
        rw [skip_of_expired here accepted, moved]
        exact stepped

theorem finds {cursor : Retained σ} {range : KeyRange} {entries : List Entry}
    (found : Finds cursor.below range entries) :
    Finds cursor range (entries.filter fun entry => cursor.filter.accepts entry.key) := by
  obtain ⟨sought, moved, presents⟩ := found
  obtain ⟨settled, stepped, presented⟩ := presents_settle cursor.filter presents
  refine ⟨settled, ?_, presented⟩
  show settle cursor.filter (Cursor.seek range cursor.below) = _
  rw [moved]
  exact stepped

end Retained

/-! ## Looking ahead -/

namespace Lookahead

variable {σ : Type} [Cursor σ]

/-- What is held and what the cursor below presents are the given entries together. -/
def Shows (cursor : Lookahead σ) (entries : List Entry) : Prop :=
  ∃ rest, Presents cursor.below rest ∧ entries = cursor.held.toList ++ rest

theorem shows_mk {below : σ} {entries : List Entry} (presents : Presents below entries) :
    Shows ⟨below, none⟩ entries :=
  ⟨entries, presents, rfl⟩

theorem finds {below : σ} {range : KeyRange} {entries : List Entry}
    (found : Finds below range entries) (held : Option Entry) :
    ∃ sought, Cursor.seek range (Lookahead.mk below held) = (sought, none)
      ∧ sought.Shows entries := by
  obtain ⟨sought, moved, presents⟩ := found
  refine ⟨⟨sought, none⟩, ?_, shows_mk presents⟩
  simp only [Cursor.seek, moved]

end Lookahead

end TimeSeries
