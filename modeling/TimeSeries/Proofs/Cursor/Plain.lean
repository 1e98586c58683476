import TimeSeries.Cache.Answer
import TimeSeries.Proofs.Cursor.Combination
import TimeSeries.Proofs.Entries.Values

/-!
# Plain entries never fail

An entry is plain if it holds a single value and its row names a metric.  Rates of plain entries are
plain entries, and so is one value for each bucket: a value of eight bytes can be read, a row that
names a metric has a window, and a bucket is never without points.  What a subquery makes of plain
entries is therefore always something.

Main statements: `Filtered.finds` and `Combined.finds_downsampled` for the two layers, and
`Subquery.process_of_plain`.
-/

set_option autoImplicit false

namespace TimeSeries

/-- The entry holds a single value, and its row names a metric. -/
structure Entry.Plain (entry : Entry) : Prop where
  single : entry.value.length = 8
  named : ∃ metric, entry.key.metric = .ok metric

theorem Entry.Plain.withValue {entry : Entry} (plain : entry.Plain) (value : Binary64) :
    Entry.Plain ⟨entry.key, value.toBytes⟩ :=
  ⟨value.length_toBytes, plain.named⟩

/-- The point that an entry with a single value holds. -/
def Entry.point (entry : Entry) : Point :=
  ⟨entry.key.timestamp, (Binary64.ofBytes entry.value).toOption.getD .zero⟩

theorem Entry.Plain.ofBytes_value {entry : Entry} (plain : entry.Plain) :
    Binary64.ofBytes entry.value = .ok entry.point.value := by
  obtain ⟨value, read⟩ := Binary64.ofBytes_of_length plain.single
  rw [Entry.point, read]
  rfl

theorem Entry.Plain.toPoints {entry : Entry} (plain : entry.Plain) :
    entry.toPoints = .ok [entry.point] := by
  rw [Entry.toPoints, if_neg (by simp [isPacked_of_length plain.single]), plain.ofBytes_value]
  rfl

open Cursor (Presents Finds)

/-! ## Filtered entries -/

namespace Filtered

variable {σ : Type}

/-- What one window makes of the entries that belong to it, one after the other; `held` are the
points in it so far. -/
def slide (filter : MovingFilter) (warmUp : WarmUp) (held : List Point) : List Entry → List Entry
  | [] => []
  | entry :: rest =>
      let points := pushPoint filter.size held entry.point
      ((filter.due? warmUp points).map fun value => Entry.mk entry.key value.toBytes).toList
        ++ slide filter warmUp points rest

/-- The entries that belong to the window of a name. -/
def inWindow (scope : Scope) (name : List String) (entries : List Entry) : List Entry :=
  entries.filter fun entry => (scope.windowOf entry.key).toOption = some name

theorem inWindow_append (scope : Scope) (name : List String) (first second : List Entry) :
    inWindow scope name (first ++ second) = inWindow scope name first ++ inWindow scope name second :=
  List.filter_append first second

theorem inWindow_cons {scope : Scope} {window : List String} {entry : Entry}
    (belongs : scope.windowOf entry.key = .ok window) (name : List String) (entries : List Entry) :
    inWindow scope name (entry :: entries)
      = if window = name then entry :: inWindow scope name entries
        else inWindow scope name entries := by
  have named : (scope.windowOf entry.key).toOption = some window := by rw [belongs]; rfl
  simp only [inWindow, List.filter_cons, named, Option.some.injEq, decide_eq_true_eq]

/-- A plain entry is taken into its window, and what is due is presented under its key. -/
theorem take_of_plain (cursor : Filtered σ) {entry : Entry} (plain : entry.Plain) :
    ∃ name points, cursor.scope.windowOf entry.key = .ok name
      ∧ points = pushPoint cursor.filter.size ((cursor.windows.get? name).getD []) entry.point
      ∧ cursor.take entry = .ok (cursor.windows.insert name points,
        (cursor.filter.due? cursor.warmUp points).map fun value => ⟨entry.key, value.toBytes⟩) := by
  obtain ⟨metric, named⟩ := plain.named
  have name : ∃ name, cursor.scope.windowOf entry.key = .ok name := by
    cases cursor.scope with
    | stream => exact ⟨[], rfl⟩
    | series => exact ⟨_, by rw [Scope.windowOf, named]; rfl⟩
  obtain ⟨name, belongs⟩ := name
  refine ⟨name, _, belongs, rfl, ?_⟩
  rw [take, plain.ofBytes_value]
  show (cursor.scope.windowOf entry.key >>= _) = _
  rw [belongs]
  rfl

/-- Taking an entry moves one window on and presents what is due; the other windows stay. -/
theorem inWindow_output {scope : Scope} {filter : MovingFilter} {warmUp : WarmUp} {entry : Entry}
    {windows : SortedMap (List String) (List Point)} {window : List String} {points : List Point}
    (belongs : scope.windowOf entry.key = .ok window)
    (pushed : points = pushPoint filter.size ((windows.get? window).getD []) entry.point)
    {entries output : List Entry}
    (onward : ∀ name, inWindow scope name output = slide filter warmUp
      (((windows.insert window points).get? name).getD []) (inWindow scope name entries))
    (name : List String) :
    inWindow scope name (((filter.due? warmUp points).map fun value =>
          Entry.mk entry.key value.toBytes).toList ++ output)
        = slide filter warmUp ((windows.get? name).getD [])
          (inWindow scope name (entry :: entries)) := by
  rw [inWindow_append, onward, SortedMap.get?_insert, inWindow_cons belongs]
  have presented : ∀ due : Option Binary64,
      inWindow scope name (due.map fun value => Entry.mk entry.key value.toBytes).toList
        = if window = name then (due.map fun value => Entry.mk entry.key value.toBytes).toList
          else [] := by
    intro due
    cases due with
    | none => exact (ite_self []).symm
    | some value => exact @inWindow_cons scope window ⟨entry.key, value.toBytes⟩ belongs name []
  rw [presented]
  by_cases here : window = name
  · subst here
    rw [if_pos rfl, if_pos rfl, if_pos rfl, Option.getD_some, slide, ← pushed]
  · rw [if_neg here, if_neg (Ne.symm here), if_neg here, List.nil_append]

variable [Cursor σ]

theorem fill_of_finished {cursor : Filtered σ} (nothing : Cursor.top cursor.below = none)
    (failure : Option Failure) : fill cursor failure = ({ cursor with top := none }, failure) := by
  rw [fill.eq_def]
  split
  · rfl
  case _ found => rw [nothing] at found; cases found

/-- A failure below ends the search for an entry. -/
theorem fill_of_failing {cursor : Filtered σ} {later : σ} {entry : Entry} {cause : Failure}
    (here : Cursor.top cursor.below = some entry)
    (moved : Cursor.next cursor.below = (later, some cause)) (failure : Option Failure) :
    fill cursor failure = ({ cursor with below := later, top := none }, some cause) := by
  rw [fill.eq_def cursor]
  split
  case _ found => rw [here] at found; cases found
  case _ found =>
    rw [here] at found
    cases found
    split
    case _ failed =>
      rw [moved] at failed
      cases failed
      rfl
    case _ fine => rw [moved] at fine; cases fine

/-- An entry that can be passed is taken, and the layer looks on or stands on what is due. -/
theorem fill_of_entry {cursor : Filtered σ} {later : σ} {entry : Entry}
    (here : Cursor.top cursor.below = some entry) (moved : Cursor.next cursor.below = (later, none))
    (failure : Option Failure) :
    fill cursor failure = match cursor.take entry with
      | .error cause => fill { cursor with below := later } (Failure.first failure (some cause))
      | .ok (windows, none) => fill { cursor with below := later, windows := windows } failure
      | .ok (windows, some output) =>
          ({ cursor with below := later, windows := windows, top := some output }, failure) := by
  rw [fill.eq_def cursor]
  split
  case _ found => rw [here] at found; cases found
  case _ found =>
    rw [here] at found
    cases found
    split
    case _ failed => rw [moved] at failed; cases failed
    case _ fine =>
      rw [moved] at fine
      cases fine
      rfl

/-- Over plain entries the layer presents plain entries, and each window makes its part of them. -/
theorem presents_fill {below : σ} {entries : List Entry} (presents : Presents below entries)
    (plain : ∀ entry ∈ entries, entry.Plain) (cursor : Filtered σ) (stands : cursor.below = below)
    (failure : Option Failure) :
    ∃ filled output, fill cursor failure = (filled, failure) ∧ Presents filled output
      ∧ (∀ entry ∈ output, entry.Plain)
      ∧ ∀ name, inWindow cursor.scope name output = slide cursor.filter cursor.warmUp
        ((cursor.windows.get? name).getD []) (inWindow cursor.scope name entries) := by
  induction presents generalizing cursor failure with
  | finished nothing =>
      exact ⟨_, [], fill_of_finished (stands ▸ nothing) failure, .finished rfl, by simp,
        fun _ => rfl⟩
  | @entry below later first rest here moved onward ih =>
      obtain ⟨firstPlain, restPlain⟩ := List.forall_mem_cons.mp plain
      obtain ⟨name, points, belongs, pushed, taken⟩ := take_of_plain cursor firstPlain
      have stepped := fill_of_entry (stands ▸ here) (stands ▸ moved) failure
      have windowed := @inWindow_output _ _ cursor.warmUp _ _ _ _ belongs pushed rest
      rw [stepped, taken]
      cases due : cursor.filter.due? cursor.warmUp points with
      | none =>
          obtain ⟨filled, output, filling, presented, outputPlain, split⟩ := ih restPlain
            { cursor with below := later, windows := cursor.windows.insert name points } rfl failure
          have all := windowed split
          rw [due] at all
          exact ⟨filled, output, filling, presented, outputPlain, all⟩
      | some value =>
          obtain ⟨filled, output, filling, presented, outputPlain, split⟩ := ih restPlain
            { cursor with
              below := later, windows := cursor.windows.insert name points
              top := some ⟨first.key, value.toBytes⟩ } rfl none
          have all := windowed split
          rw [due] at all
          exact ⟨_, ⟨first.key, value.toBytes⟩ :: output, rfl, .entry rfl filling presented,
            List.forall_mem_cons.mpr ⟨firstPlain.withValue value, outputPlain⟩, all⟩

/-- What the layer finds of plain entries: each window makes its part of them. -/
theorem finds_inWindow {cursor : Filtered σ} {range : KeyRange} {entries : List Entry}
    (found : Finds cursor.below range entries) (plain : ∀ entry ∈ entries, entry.Plain) :
    ∃ output, Finds cursor range output ∧ (∀ entry ∈ output, entry.Plain)
      ∧ ∀ name, inWindow cursor.scope name output
        = slide cursor.filter cursor.warmUp [] (inWindow cursor.scope name entries) := by
  obtain ⟨sought, moved, presents⟩ := found
  obtain ⟨filled, output, stepped, presented, outputPlain, split⟩ :=
    presents_fill presents plain { cursor with below := sought, windows := .empty } rfl none
  refine ⟨output, ⟨filled, ?_, presented⟩, outputPlain, split⟩
  show Filtered.seek range cursor = _
  unfold Filtered.seek
  rw [moved]
  exact stepped

theorem finds {cursor : Filtered σ} {range : KeyRange} {entries : List Entry}
    (found : Finds cursor.below range entries) (plain : ∀ entry ∈ entries, entry.Plain) :
    ∃ output, Finds cursor range output ∧ ∀ entry ∈ output, entry.Plain := by
  obtain ⟨output, presented, outputPlain, _⟩ := finds_inWindow found plain
  exact ⟨output, presented, outputPlain⟩

end Filtered

/-! ## Aggregators -/

namespace Accumulator

/-- The accumulator has taken a point. -/
def HasTaken : Accumulator → Prop
  | mean _ taken => 0 < taken
  | sum _ taken => 0 < taken
  | least held => held.isSome
  | greatest held => held.isSome
  | count taken => 0 < taken
  | deviation taken _ _ => 0 < taken
  | first held => held.isSome
  | last held => held.isSome
  | percentile _ values => values ≠ []

theorem hasTaken_add (accumulator : Accumulator) (point : Point) :
    (accumulator.add point).HasTaken := by
  cases accumulator with
  | mean total taken => exact Nat.succ_pos taken
  | sum total taken => exact Nat.succ_pos taken
  | least held => cases held <;> rfl
  | greatest held => cases held <;> rfl
  | count taken => exact Nat.succ_pos taken
  | deviation taken middle squares => exact Nat.succ_pos taken
  | first held => cases held <;> rfl
  | last held => cases held <;> rfl
  | percentile percent values => exact List.cons_ne_nil _ _

/-- The nearest rank is the rank of a value. -/
theorem isSome_nearestRank (percent : Percent) {values : List Binary64}
    (some_values : values ≠ []) : (nearestRank percent values).isSome := by
  have positive : 0 < values.length := List.length_pos_iff.mpr some_values
  have rank_lt : ∀ share, Nat.max 1 (Nat.min values.length share) - 1 < values.length := by
    intro share
    show max 1 (min values.length share) - 1 < values.length
    omega
  simp only [nearestRank, List.length_mergeSort]
  rw [List.getElem?_eq_getElem (by rw [List.length_mergeSort]; exact rank_lt _)]
  rfl

theorem isSome_of_pos {taken : Nat} {value : Binary64} (positive : 0 < taken) :
    (if 0 < taken then some value else none).isSome := by
  rw [if_pos positive]
  rfl

theorem isSome_result {accumulator : Accumulator} (taken : accumulator.HasTaken) :
    accumulator.result.isSome := by
  cases accumulator with
  | mean total count => exact isSome_of_pos taken
  | sum total count => exact isSome_of_pos taken
  | least held => exact taken
  | greatest held => exact taken
  | count count => exact isSome_of_pos taken
  | deviation count middle squares => exact isSome_of_pos taken
  | first held => rw [result, Option.isSome_map]; exact taken
  | last held => rw [result, Option.isSome_map]; exact taken
  | percentile percent values =>
      rw [result, if_neg (mt List.isEmpty_iff.mp taken)]
      exact isSome_nearestRank percent taken

end Accumulator

/-- Some points have a value under every aggregator. -/
theorem Aggregator.isSome_aggregate (aggregator : Aggregator) {points : List Point}
    (some_points : points ≠ []) : (aggregator.aggregate points).isSome := by
  obtain ⟨front, last, rfl⟩ := (List.eq_nil_or_concat points).resolve_left some_points
  rw [Aggregator.aggregate, List.concat_eq_append, List.foldl_append]
  exact Accumulator.isSome_result (Accumulator.hasTaken_add _ last)

/-! ## Buckets -/

namespace Reducer

theorem allPoints_of_plain {entries : List Entry} (plain : ∀ entry ∈ entries, entry.Plain) :
    allPoints entries = .ok (entries.map Entry.point) := by
  induction entries with
  | nil => rfl
  | cons entry entries ih =>
      obtain ⟨entryPlain, restPlain⟩ := List.forall_mem_cons.mp plain
      rw [allPoints, entryPlain.toPoints, ih restPlain]
      rfl

/-- Plain entries have a value under every aggregator, that of their points. -/
theorem aggregate_of_plain (aggregator : Aggregator) (key : Key) {entries : List Entry}
    (some_entries : entries ≠ []) (plain : ∀ entry ∈ entries, entry.Plain) :
    ∃ value, aggregator.aggregate (entries.map Entry.point) = some value
      ∧ aggregate aggregator key entries = .ok value.toBytes := by
  obtain ⟨value, computed⟩ := Option.isSome_iff_exists.mp
    (aggregator.isSome_aggregate (mt List.map_eq_nil_iff.mp some_entries))
  refine ⟨value, computed, ?_⟩
  simp only [aggregate, allPoints_of_plain plain, bind, Except.bind, computed]
  rfl

/-- A part of plain entries is reduced to the value of their points. -/
theorem reducePart_of_plain (aggregator : Aggregator) {first : Entry} {rest : List Entry}
    (plain : ∀ entry ∈ first :: rest, entry.Plain) :
    ∃ value, aggregator.aggregate ((first :: rest).map Entry.point) = some value
      ∧ reducePart (.aggregate aggregator) (first :: rest)
        = ([⟨first.key, value.toBytes⟩], none) := by
  obtain ⟨value, computed, written⟩ :=
    aggregate_of_plain aggregator first.key (List.cons_ne_nil first rest) plain
  exact ⟨value, computed, by rw [reducePart, written]⟩

end Reducer

/-- Each part of a run of plain entries is reduced to one plain entry. -/
theorem reduceRun_of_plain (aggregator : Aggregator) {run : List Entry}
    (plain : ∀ entry ∈ run, entry.Plain) :
    (reduceRun (.aggregate aggregator) run).2 = none
      ∧ ∀ entry ∈ (reduceRun (.aggregate aggregator) run).1, entry.Plain := by
  have part_of_plain : ∀ part ∈ (splitBySeries run).values,
      (reducePart (.aggregate aggregator) part).2 = none
        ∧ ∀ entry ∈ (reducePart (.aggregate aggregator) part).1, entry.Plain := by
    intro part member
    obtain ⟨columns, held, some_entries⟩ := mem_values_splitBySeries.mp member
    have partPlain : ∀ entry ∈ part, entry.Plain := by
      intro entry found
      rw [held] at found
      exact plain entry (List.mem_filter.mp found).1
    cases part with
    | nil => exact absurd rfl some_entries
    | cons first rest =>
        obtain ⟨value, _, reduced⟩ := Reducer.reducePart_of_plain aggregator partPlain
        rw [reduced]
        refine ⟨rfl, ?_⟩
        intro entry found
        rw [List.mem_singleton.mp found]
        exact (partPlain first List.mem_cons_self).withValue value
  obtain ⟨smooth, all⟩ := forall_mem_reduced part_of_plain
  exact ⟨smooth, fun entry member => all entry (List.mem_mergeSort.mp member)⟩

/-- Nothing fails to be reduced of plain entries. -/
theorem Combined.smooth_of_plain (aggregator : Aggregator) (window : Window) {entries : List Entry}
    (plain : ∀ entry ∈ entries, entry.Plain) : Smooth (.aggregate aggregator) window entries :=
  fun _ member => (reduceRun_of_plain aggregator fun entry found =>
    plain entry (Window.mem_of_mem_cut member found)).1

/-- One value for each bucket of plain entries is plain entries. -/
theorem Combined.finds_downsampled {σ : Type} [Cursor σ] {below : σ} {range : KeyRange}
    {entries : List Entry} (found : Finds below range entries)
    (plain : ∀ entry ∈ entries, entry.Plain) (downsampling : Downsampling) :
    ∃ output, Finds (downsampled downsampling below) range output
      ∧ ∀ entry ∈ output, entry.Plain := by
  refine ⟨_, finds found (smooth_of_plain _ _ plain), ?_⟩
  intro entry member
  obtain ⟨run, cut, found⟩ := List.mem_flatMap.mp member
  exact (reduceRun_of_plain downsampling.aggregator fun entry found =>
    plain entry (Window.mem_of_mem_cut cut found)).2 entry found

/-! ## Subqueries -/

theorem Cursor.readAll_of_finds {σ : Type} [Cursor σ] {cursor : σ} {entries : List Entry}
    (found : Finds cursor .all entries) : Cursor.readAll cursor = .ok entries := by
  obtain ⟨sought, moved, presents⟩ := found
  rw [Cursor.readAll, moved]
  exact presents.drain

theorem Cursor.readDownsampled_of_finds {σ : Type} [Cursor σ] {cursor : σ} {entries : List Entry}
    (found : Finds cursor .all entries) (plain : ∀ entry ∈ entries, entry.Plain)
    (downsampling : Option Downsampling) :
    ∃ output, Cursor.readDownsampled downsampling cursor = .ok output
      ∧ ∀ entry ∈ output, entry.Plain := by
  cases downsampling with
  | none => exact ⟨entries, Cursor.readAll_of_finds found, plain⟩
  | some spec =>
      obtain ⟨output, downsampled, outputPlain⟩ := Combined.finds_downsampled found plain spec
      exact ⟨output, Cursor.readAll_of_finds downsampled, outputPlain⟩

theorem SortedEntries.finds_ofList (entries : List Entry) :
    Finds (SortedEntries.ofList entries) .all (entries.mergeSort precedes) :=
  finds_all (ofList entries)

/-- A subquery makes plain entries of plain entries, whatever it asks for. -/
theorem Subquery.process_of_plain (subquery : Subquery) (downsampling : Option Downsampling)
    {entries : List Entry} (plain : ∀ entry ∈ entries, entry.Plain) :
    ∃ output, subquery.process downsampling entries = .ok output
      ∧ ∀ entry ∈ output, entry.Plain := by
  have found := SortedEntries.finds_ofList entries
  have sortedPlain : ∀ entry ∈ entries.mergeSort SortedEntries.precedes, entry.Plain :=
    fun entry member => plain entry (List.mem_mergeSort.mp member)
  unfold Subquery.process
  split
  · obtain ⟨rates, foundRates, ratesPlain⟩ := Filtered.finds
      (show Finds (Filtered.rates subquery.rateOptions (SortedEntries.ofList entries)).below .all _
        from found) sortedPlain
    exact Cursor.readDownsampled_of_finds foundRates ratesPlain downsampling
  · exact Cursor.readDownsampled_of_finds found sortedPlain downsampling

/-- A subquery that asks for neither rates nor buckets leaves entries as they are, in key order. -/
theorem Subquery.process_raw {subquery : Subquery} (raw : subquery.rate = false)
    (entries : List Entry) :
    subquery.process none entries = .ok (entries.mergeSort SortedEntries.precedes) := by
  rw [Subquery.process, if_neg (by simp [raw])]
  exact Cursor.readAll_of_finds (SortedEntries.finds_ofList entries)

end TimeSeries
