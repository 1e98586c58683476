import TimeSeries.Cursor.Lookahead
import TimeSeries.Downsampling
import TimeSeries.Reducer
import TimeSeries.Window

/-!
# Combined entries

A layer that combines the entries of each series window by window.  Keys are ordered by metric and
time, so the entries of one metric in one window follow each other, whatever series they belong to:
such a run is collected first, then split by series, and each part is reduced to one entry under its
first key.  What comes of a run is presented in the order of keys.

Parts that cannot be merged are presented unmerged.  A part that fails otherwise is dropped, and so
is a run in which the cursor below fails; the failure is reported once the layer stands on the next
entry that it can present.
-/

set_option autoImplicit false

namespace TimeSeries

/-! ## Runs -/

/-- Both keys belong to one metric and one window. -/
def Window.joins (window : Window) (first other : Key) : Bool :=
  window.start first.timestamp == window.start other.timestamp && first.sameMetric other

/-- The columns and the visibility of a key. -/
def Key.columns (key : Key) : String × String × String :=
  (key.family, key.qualifier, key.visibility)

/-- The entries of each series, in the order of columns and visibility. -/
def splitBySeries (run : List Entry) : SortedMap (String × String × String) (List Entry) :=
  run.foldl (fun parts entry =>
    parts.alter entry.key.columns fun part => part.getD [] ++ [entry]) .empty

/-- What a part of a run is presented as, and the failure for which it was dropped. -/
def reducePart (reducer : Reducer) : List Entry → List Entry × Option Failure
  | [] => ([], none)
  | first :: rest =>
      match reducer first.key (first :: rest) with
      | .ok value => ([⟨first.key, value⟩], none)
      | .error (.incompatible _) => (first :: rest, none)
      | .error failure => ([], some failure)

/-- What a run is presented as, and the first failure for which a part of it was dropped. -/
def reduceRun (reducer : Reducer) (run : List Entry) : List Entry × Option Failure :=
  let parts := (splitBySeries run).values.map (reducePart reducer)
  ((parts.flatMap Prod.fst).mergeSort fun first second => (compare first.key second.key).isLE,
    parts.findSome? Prod.snd)

/-! ## The layer -/

/-- The entries of a cursor, combined. -/
structure Combined (σ : Type) where
  below : Lookahead σ
  reducer : Reducer
  window : Window
  /-- What is left to present of the last run. -/
  output : List Entry

namespace Combined

variable {σ : Type}

/-- A new layer stands on nothing until it is moved. -/
def above (reducer : Reducer) (window : Window) (below : σ) : Combined σ :=
  ⟨.above below, reducer, window, []⟩

/-- One value for each series and bucket of time. -/
def downsampled (downsampling : Downsampling) (below : σ) : Combined σ :=
  above (.aggregate downsampling.aggregator)
    (.aligned downsampling.period downsampling.period_pos) below

variable [Cursor σ]

/-- Collects the entries behind the top that join a run.  `run` holds the entries of the run up to
the top, the latest first. -/
def collect (window : Window) (first : Key) (run : List Entry) (below : Lookahead σ) :
    Lookahead σ × Except Failure (List Entry) :=
  match _peeked : below.peek with
  | (ahead, .error failure) => (ahead, .error failure)
  | (ahead, .ok (some entry)) =>
      if window.joins first entry.key then
        match _stepped : ahead.next with
        | (later, some failure) => (later, .error failure)
        | (later, none) => collect window first (entry :: run) later
      else
        leave ahead
  | (ahead, .ok none) => leave ahead
termination_by Cursor.place below
decreasing_by
  have reached := Lookahead.peek_reaches below
  have here := @Lookahead.isSome_top_of_peek σ _ below entry
  rw [_peeked] at reached here
  have further := Lookahead.next_beyond ahead (here rfl)
  rw [_stepped] at further
  exact Progress.Reaches.trans_beyond further reached
where
  /-- Moves on from the last entry of the run. -/
  leave (below : Lookahead σ) : Lookahead σ × Except Failure (List Entry) :=
    match below.next with
    | (later, some failure) => (later, .error failure)
    | (later, none) => (later, .ok run.reverse)

/-- Collecting a run uses up its first entry at least. -/
theorem collect_beyond (window : Window) (first : Key) (run : List Entry) (below : Lookahead σ)
    (here : below.top.isSome) : Cursor.Beyond (collect window first run below).1 below := by
  have moved_on : ∀ {below ahead : Lookahead σ} {seen : Option Entry},
      below.peek = (ahead, .ok seen) → below.top.isSome → Cursor.Beyond ahead.next.1 below := by
    intro below ahead seen peeked here
    have reached := Lookahead.peek_reaches below
    have kept := @Lookahead.top_peek σ _ below seen
    rw [peeked] at reached kept
    have further := Lookahead.next_beyond ahead (by rw [kept rfl]; exact here)
    exact Progress.Reaches.trans_beyond further reached
  have left : ∀ (run : List Entry) (ahead : Lookahead σ),
      (collect.leave run ahead).1 = ahead.next.1 := by
    intro run ahead
    unfold collect.leave
    split <;> rename_i stepped <;> rw [stepped]
  fun_induction collect window first run below with
  | case1 run below ahead failure peeked =>
      have moved := @Lookahead.peek_beyond σ _ below failure
      rw [peeked] at moved
      exact moved rfl
  | case2 run below ahead entry peeked _ later failure stepped =>
      have further := moved_on peeked here
      rw [stepped] at further
      exact further
  | case3 run below ahead entry peeked _ later stepped ih =>
      have further := moved_on peeked here
      have shown := @Lookahead.top_next_peek σ _ below entry
      rw [stepped] at further
      rw [peeked] at shown
      simp only [stepped] at shown
      exact Progress.trans _ (ih (by rw [shown trivial]; rfl)) further
  | case4 run below ahead entry peeked _ =>
      rw [left]
      exact moved_on peeked here
  | case5 run below ahead peeked =>
      rw [left]
      exact moved_on peeked here

/-- Presents what is left of the last run, or what comes of the next run of which anything does.
`failure` is the first failure met so far. -/
def fill (reducer : Reducer) (window : Window) (below : Lookahead σ) (output : List Entry)
    (failure : Option Failure) : Moved (Combined σ) :=
  if output.isEmpty then
    match _here : below.top with
    | none => (⟨below, reducer, window, []⟩, failure)
    | some entry =>
        match _collected : collect window entry.key [entry] below with
        | (later, .error cause) =>
            fill reducer window later [] (Failure.first failure (some cause))
        | (later, .ok run) =>
            let (output, cause) := reduceRun reducer run
            fill reducer window later output (Failure.first failure cause)
  else
    (⟨below, reducer, window, output⟩, failure)
termination_by Cursor.place below
decreasing_by
  all_goals
    have further := collect_beyond window entry.key [entry] below (by rw [_here]; rfl)
    rw [_collected] at further
    exact further

/-- The order of progress of the layer. -/
def progress : Progress (Combined σ) :=
  Cursor.progress.ofLayer below fun cursor => cursor.output.length

/-- Either a run below was used up, or what is left is presented as it is. -/
theorem fill_beyond_or (reducer : Reducer) (window : Window) (below : Lookahead σ)
    (output : List Entry) (failure : Option Failure) :
    let filled := (fill reducer window below output failure).1
    Cursor.Beyond filled.below below ∨ filled.below = below ∧ filled.output = output := by
  have onward : ∀ {below later : Lookahead σ} {entry : Entry} {result}
      {filled : Combined σ}, below.top = some entry →
      collect window entry.key [entry] below = (later, result) →
      (Cursor.Beyond filled.below later ∨ filled.below = later ∧ filled.output = filled.output) →
      Cursor.Beyond filled.below below := by
    intro below later entry result filled here collected reached
    have further := collect_beyond window entry.key [entry] below (by rw [here]; rfl)
    rw [collected] at further
    rcases reached with beyond | ⟨same, _⟩
    · exact Progress.trans _ beyond further
    · exact same ▸ further
  fun_induction fill reducer window below output failure with
  | case1 below output failure empty nothing =>
      rw [List.isEmpty_iff.mp empty]
      exact Or.inr ⟨rfl, rfl⟩
  | case2 below output failure _ entry here later cause collected ih =>
      exact Or.inl (onward here collected (ih.imp_right fun kept => ⟨kept.1, rfl⟩))
  | case3 below output failure _ entry here later run collected output cause reduced ih =>
      exact Or.inl (onward here collected (ih.imp_right fun kept => ⟨kept.1, rfl⟩))
  | case4 => exact Or.inr ⟨rfl, rfl⟩

def next (cursor : Combined σ) : Moved (Combined σ) :=
  fill cursor.reducer cursor.window cursor.below cursor.output.tail none

/-- After a failure below, the layer stands on nothing. -/
def seek (range : KeyRange) (cursor : Combined σ) : Moved (Combined σ) :=
  match Cursor.seek range cursor.below with
  | (below, some failure) => (⟨below, cursor.reducer, cursor.window, []⟩, some failure)
  | (below, none) => fill cursor.reducer cursor.window below [] none

instance : Cursor (Combined σ) where
  top cursor := cursor.output.head?
  next := next
  seek := seek
  progress := progress
  next_beyond cursor here := by
    rcases fill_beyond_or cursor.reducer cursor.window cursor.below cursor.output.tail none with
      beyond | ⟨same, kept⟩
    · exact Progress.beyond_ofLayer_of_below beyond
    · refine Progress.beyond_ofLayer_of_held (Or.inl same) ?_
      have presented : cursor.output ≠ [] := by
        rintro empty
        rw [empty] at here
        cases here
      rw [next, kept, List.length_tail]
      exact Nat.sub_one_lt (mt List.length_eq_zero_iff.mp presented)

end Combined

end TimeSeries
