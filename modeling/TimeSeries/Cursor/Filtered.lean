import TimeSeries.Cursor.Basic
import TimeSeries.MovingFilter

/-!
# Filtered entries

A layer that applies a moving filter to entries with single values.  It keeps a window of the latest
points for each series, or one window for the whole stream, and presents the value of the filter
under the key of the newest point.  While a window is filling it presents nothing, or the value of
the filter for the points there are.  A window starts anew with a point that is older than the
newest in it.

An entry whose value or whose series cannot be read is passed over, and the failure is reported once
the layer stands on the next entry that it can present.  Only a failure of the cursor below ends the
search for an entry; the layer then has no top.
-/

set_option autoImplicit false

namespace TimeSeries

/-! ## Windows of points -/

/-- What is presented while a window is filling. -/
inductive WarmUp where
  /-- Nothing. -/
  | silent
  /-- The value of the filter for the points there are. -/
  | early
  deriving DecidableEq, Repr, Inhabited

/-- The points that share a window. -/
inductive Scope where
  /-- Those of one series. -/
  | series
  /-- All of them. -/
  | stream
  deriving DecidableEq, Repr, Inhabited

/-- The name of the window to which an entry belongs. -/
def Scope.windowOf (scope : Scope) (key : Key) : Except Failure (List String) :=
  match scope with
  | .stream => .ok []
  | .series => key.metric.map fun metric =>
      [metric, key.family, key.qualifier, key.visibility]

/-- The latest points, as many as the given size says, after one more. -/
def pushPoint (size : Nat) (points : List Point) (point : Point) : List Point :=
  let held := match points.getLast? with
    | some newest => if point.timestamp < newest.timestamp then [] else points
    | none => []
  let longer := held ++ [point]
  longer.drop (longer.length - size)

/-- The value that is due for a window. -/
def MovingFilter.due? (filter : MovingFilter) (warmUp : WarmUp) (points : List Point) :
    Option Binary64 :=
  if points.length ≠ filter.size ∧ warmUp = .silent then none else some (filter.compute points)

/-! ## The layer -/

/-- The entries of a cursor, filtered. -/
structure Filtered (σ : Type) where
  below : σ
  filter : MovingFilter
  warmUp : WarmUp
  scope : Scope
  windows : SortedMap (List String) (List Point)
  top : Option Entry

namespace Filtered

variable {σ : Type}

/-- A new layer stands on nothing until it is moved. -/
def above (filter : MovingFilter) (warmUp : WarmUp) (scope : Scope) (below : σ) : Filtered σ :=
  ⟨below, filter, warmUp, scope, .empty, none⟩

/-- Rates of each series, one for each two points that follow each other. -/
def rates (options : RateOptions) (below : σ) : Filtered σ :=
  above (.rate options) .silent .series below

/-- Takes the point of an entry into its window; if a value is due, it is presented under the key of
the entry. -/
def take (cursor : Filtered σ) (entry : Entry) :
    Except Failure (SortedMap (List String) (List Point) × Option Entry) := do
  let value ← Binary64.ofBytes entry.value
  let name ← cursor.scope.windowOf entry.key
  let held := (cursor.windows.get? name).getD []
  let points := pushPoint cursor.filter.size held ⟨entry.key.timestamp, value⟩
  let due := cursor.filter.due? cursor.warmUp points
  return (cursor.windows.insert name points, due.map fun value => ⟨entry.key, value.toBytes⟩)

variable [Cursor σ]

/-- Takes entries until one is to be presented.  `failure` is the first failure met so far. -/
def fill (cursor : Filtered σ) (failure : Option Failure) : Moved (Filtered σ) :=
  match _here : Cursor.top cursor.below with
  | none => ({ cursor with top := none }, failure)
  | some entry =>
      match _stepped : Cursor.next cursor.below with
      | (later, some cause) => ({ cursor with below := later, top := none }, some cause)
      | (later, none) =>
          match cursor.take entry with
          | .error cause => fill { cursor with below := later } (Failure.first failure (some cause))
          | .ok (windows, none) => fill { cursor with below := later, windows := windows } failure
          | .ok (windows, some output) =>
              ({ cursor with below := later, windows := windows, top := some output }, failure)
termination_by Cursor.place cursor.below
decreasing_by
  all_goals
    have further := Cursor.next_beyond_of_top ‹_›
    rw [_stepped] at further
    exact further

/-- The order of progress of the layer. -/
def progress : Progress (Filtered σ) :=
  Cursor.progress.ofLayer below fun cursor => cursor.top.toList.length

/-- Either an entry below was used up, or there is none and nothing is presented. -/
theorem fill_beyond_or (cursor : Filtered σ) (failure : Option Failure) :
    let filled := (fill cursor failure).1
    Cursor.Beyond filled.below cursor.below ∨ filled.below = cursor.below ∧ filled.top = none := by
  have onward : ∀ {below later : σ} {entry : Entry} {cause : Option Failure} {last : σ} {rest : Prop},
      Cursor.top below = some entry → Cursor.next below = (later, cause) →
      (Cursor.Beyond last later ∨ last = later ∧ rest) → Cursor.Beyond last below := by
    intro below later entry cause last rest here stepped reached
    have further := Cursor.next_beyond_of_top here
    rw [stepped] at further
    rcases reached with beyond | ⟨same, _⟩
    · exact Progress.trans _ beyond further
    · exact same ▸ further
  fun_induction fill cursor failure with
  | case1 => exact Or.inr ⟨rfl, rfl⟩
  | case2 cursor failure entry here later cause stepped =>
      exact Or.inl (onward here stepped (Or.inr ⟨rfl, trivial⟩))
  | case3 cursor failure entry here later stepped cause _ ih =>
      exact Or.inl (onward here stepped ih)
  | case4 cursor failure entry here later stepped windows _ ih =>
      exact Or.inl (onward here stepped ih)
  | case5 cursor failure entry here later stepped windows output _ =>
      exact Or.inl (onward here stepped (Or.inr ⟨rfl, trivial⟩))

/-- Every window is forgotten.  After a failure below, the layer still shows what it stood on. -/
def seek (range : KeyRange) (cursor : Filtered σ) : Moved (Filtered σ) :=
  match Cursor.seek range cursor.below with
  | (below, some failure) => ({ cursor with below := below, windows := .empty }, some failure)
  | (below, none) => fill { cursor with below := below, windows := .empty } none

instance : Cursor (Filtered σ) where
  top := top
  next cursor := fill cursor none
  seek := seek
  progress := progress
  next_beyond cursor here := by
    rcases fill_beyond_or cursor none with beyond | ⟨same, nothing⟩
    · exact Progress.beyond_ofLayer_of_below beyond
    · refine Progress.beyond_ofLayer_of_held (Or.inl same) ?_
      obtain ⟨entry, here⟩ := Option.isSome_iff_exists.mp here
      simp only [nothing, here]
      exact Nat.succ_pos 0

end Filtered

end TimeSeries
