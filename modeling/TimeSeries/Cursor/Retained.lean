import TimeSeries.Cursor.Basic
import TimeSeries.Retention

/-!
# Retained entries

A layer that passes over the entries that are no longer retained.  A cursor below that fails has
moved nonetheless, so entries are passed over after a failure as well.  Of a failure met in moving
and one met in passing over entries, the latter is reported.

Main statement: `isRetained_of_skip` says that the layer never stands on an expired entry after a
move, unless passing over entries failed.
-/

set_option autoImplicit false

namespace TimeSeries

/-- The retained entries of a cursor. -/
structure Retained (σ : Type) where
  below : σ
  filter : RetentionFilter
  deriving DecidableEq, Repr

namespace Retained

variable {σ : Type} [Cursor σ]

/-- Moves on as long as the filter does not accept the top; a failure ends that. -/
def skip (filter : RetentionFilter) (below : σ) : Moved σ :=
  match _here : Cursor.top below with
  | none => (below, none)
  | some entry =>
      if filter.accepts entry.key then
        (below, none)
      else
        match _stepped : Cursor.next below with
        | (later, some failure) => (later, some failure)
        | (later, none) => skip filter later
termination_by Cursor.place below
decreasing_by
  have further := Cursor.next_beyond_of_top ‹_›
  rw [_stepped] at further
  exact further

/-- The layer after a move of the cursor below. -/
def settle (filter : RetentionFilter) (moved : Moved σ) : Moved (Retained σ) :=
  let (below, failure) := skip filter moved.1
  (⟨below, filter⟩, Failure.first failure moved.2)

/-- Passing over entries does not move backwards. -/
theorem skip_reaches (filter : RetentionFilter) (below : σ) :
    Cursor.Reaches (skip filter below).1 below := by
  fun_induction skip filter below with
  | case1 => exact .refl _ _
  | case2 => exact .refl _ _
  | case3 below entry here _ later failure stepped =>
      have further := Cursor.next_beyond_of_top here
      rw [stepped] at further
      exact .of_beyond further
  | case4 below entry here _ later stepped ih =>
      have further := Cursor.next_beyond_of_top here
      rw [stepped] at further
      exact .of_beyond (Progress.Reaches.beyond_trans ih further)

/-- What the cursor stands on after passing over entries without failure is accepted. -/
theorem isRetained_of_skip {filter : RetentionFilter} {below : σ} {entry : Entry}
    (fine : (skip filter below).2 = none)
    (here : Cursor.top (skip filter below).1 = some entry) : filter.accepts entry.key := by
  fun_induction skip filter below with
  | case1 below nothing => rw [nothing] at here; cases here
  | case2 below found there accepted =>
      rw [there] at here
      cases here
      exact accepted
  | case3 => cases fine
  | case4 below found there _ later stepped ih => exact ih fine here

instance : Cursor (Retained σ) where
  top cursor := Cursor.top cursor.below
  next cursor := settle cursor.filter (Cursor.next cursor.below)
  seek range cursor := settle cursor.filter (Cursor.seek range cursor.below)
  progress := Cursor.progress.ofLayer below fun _ => 0
  next_beyond cursor here :=
    Progress.beyond_ofLayer_of_below
      ((skip_reaches cursor.filter _).beyond_trans (Cursor.next_beyond cursor.below here))

end Retained

end TimeSeries
