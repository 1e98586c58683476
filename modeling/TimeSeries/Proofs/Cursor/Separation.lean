import TimeSeries.Proofs.Cursor.Plain

/-!
# One window for each series

A layer that filters by series keeps the series apart: what it presents of one series is what a layer
with a single window presents of the entries of that series alone, however they are mixed with the
entries of others.

While the times of a series do not step back, the value under a key is the value of the filter for
the latest points up to that key, at most as many as the filter asks for; a layer that is silent
while a window fills leaves out the first values.  A step back in time starts the window of that
series anew, and what follows is presented as if nothing had been there before.

Main statement: `Filtered.finds_oneWindow`.
-/

set_option autoImplicit false

namespace TimeSeries

open Cursor (Finds)

namespace Filtered

/-! ## The latest points -/

/-- The latest of some points, as many as the given size says. -/
def latest (size : Nat) (points : List Point) : List Point :=
  points.drop (points.length - size)

theorem latest_nil (size : Nat) : latest size [] = [] := List.drop_nil

theorem length_latest (size : Nat) (points : List Point) :
    (latest size points).length = min size points.length := by
  rw [latest, List.length_drop]
  omega

theorem getLast?_latest {size : Nat} {points : List Point} {newest : Point}
    (last : (latest size points).getLast? = some newest) : points.getLast? = some newest := by
  rw [latest, List.getLast?_drop] at last
  split at last
  · cases last
  · exact last

/-- A point that is not older than the newest joins the points of a window. -/
theorem pushPoint_of_steady {size : Nat} {held : List Point} {point : Point}
    (steady : ∀ newest, held.getLast? = some newest → newest.timestamp ≤ point.timestamp) :
    pushPoint size held point = latest size (held ++ [point]) := by
  simp only [pushPoint]
  cases last : held.getLast? with
  | none => rw [List.getLast?_eq_none_iff.mp last]; rfl
  | some newest =>
      simp only [if_neg (Int64.not_lt.mpr (steady newest last))]
      rfl

/-- A window that holds the latest points holds them after one more. -/
theorem pushPoint_latest {size : Nat} {seen : List Point} {point : Point}
    (steady : ∀ earlier ∈ seen, earlier.timestamp ≤ point.timestamp) :
    pushPoint size (latest size seen) point = latest size (seen ++ [point]) := by
  have joined : latest size seen ++ [point] = (seen ++ [point]).drop (seen.length - size) :=
    (List.drop_append_of_le_length (by omega)).symm
  rw [pushPoint_of_steady fun newest last =>
    steady newest (List.mem_of_getLast? (getLast?_latest last)), joined]
  simp only [latest, List.drop_drop, List.length_drop, List.length_append, List.length_singleton]
  congr 1
  omega

/-- Whatever was in a window that has taken a point, an older one starts it anew. -/
theorem pushPoint_of_earlier {size : Nat} (positive : 0 < size) (held : List Point)
    {last point : Point} (earlier : point.timestamp < last.timestamp) :
    pushPoint size (pushPoint size held last) point = pushPoint size [] point := by
  have newest : (pushPoint size held last).getLast? = some last := by
    simp only [pushPoint]
    rw [List.getLast?_drop, if_neg (by simp only [List.length_append, List.length_singleton]; omega),
      List.getLast?_concat]
  rw [pushPoint, newest]
  simp only [if_pos earlier]
  rfl

/-! ## A single window -/

/-- Under the key of each entry, the value of the filter for the latest points up to that entry;
`seen` are the points before the first. -/
def valuesAlong (filter : MovingFilter) (seen : List Point) (entries : List Entry) : List Entry :=
  entries.mapIdx fun index entry =>
    let points := seen ++ (entries.take (index + 1)).map Entry.point
    ⟨entry.key, (filter.compute (latest filter.size points)).toBytes⟩

/-- How many of the values along the entries are not presented. -/
def skipped (filter : MovingFilter) : WarmUp → Nat
  | .silent => filter.size - 1
  | .early => 0

theorem valuesAlong_cons (filter : MovingFilter) (seen : List Point) (entry : Entry)
    (rest : List Entry) :
    valuesAlong filter seen (entry :: rest)
      = ⟨entry.key, (filter.compute (latest filter.size (seen ++ [entry.point]))).toBytes⟩
        :: valuesAlong filter (seen ++ [entry.point]) rest := by
  simp only [valuesAlong, List.mapIdx_cons, List.take_succ_cons, List.take_zero, List.map_cons,
    List.map_nil, List.append_assoc, List.singleton_append]

/-- A value is due once there are more points than are skipped. -/
theorem due?_latest (filter : MovingFilter) (warmUp : WarmUp) {points : List Point}
    (some_points : points ≠ []) :
    filter.due? warmUp (latest filter.size points)
      = if skipped filter warmUp < points.length
        then some (filter.compute (latest filter.size points)) else none := by
  have positive : 0 < points.length := List.length_pos_iff.mpr some_points
  cases warmUp with
  | early =>
      rw [MovingFilter.due?, if_neg (by rintro ⟨_, silent⟩; cases silent), skipped, if_pos positive]
  | silent =>
      rw [MovingFilter.due?, length_latest, skipped]
      by_cases enough : filter.size - 1 < points.length
      · rw [if_neg (by rintro ⟨short, _⟩; omega), if_pos enough]
      · rw [if_pos ⟨by omega, rfl⟩, if_neg enough]

/-- While times do not step back, a window holds the latest of the points it was given. -/
theorem slide_latest (filter : MovingFilter) (warmUp : WarmUp) (seen : List Point)
    (entries : List Entry)
    (steady : (seen ++ entries.map Entry.point).Pairwise
      fun first second => first.timestamp ≤ second.timestamp) :
    slide filter warmUp (latest filter.size seen) entries
      = (valuesAlong filter seen entries).drop (skipped filter warmUp - seen.length) := by
  induction entries generalizing seen with
  | nil => exact (List.drop_nil ..).symm
  | cons entry rest ih =>
      have onward : ((seen ++ [entry.point]) ++ rest.map Entry.point).Pairwise
          fun first second => first.timestamp ≤ second.timestamp := by
        rw [List.append_assoc]
        exact steady
      have pushed : pushPoint filter.size (latest filter.size seen) entry.point
          = latest filter.size (seen ++ [entry.point]) :=
        pushPoint_latest fun earlier member =>
          (List.pairwise_append.mp steady).2.2 earlier member _ List.mem_cons_self
      have longer : (seen ++ [entry.point]).length = seen.length + 1 := List.length_append
      rw [slide, pushed, ih _ onward, due?_latest filter warmUp (by simp), valuesAlong_cons, longer]
      by_cases enough : skipped filter warmUp < seen.length + 1
      · rw [if_pos enough, show skipped filter warmUp - seen.length = 0 by omega,
          show skipped filter warmUp - (seen.length + 1) = 0 by omega]
        rfl
      · rw [if_neg enough, show skipped filter warmUp - seen.length
          = skipped filter warmUp - (seen.length + 1) + 1 by omega]
        rfl

/-- What a window holds once it has taken some entries. -/
def windowAfter (size : Nat) (held : List Point) (entries : List Entry) : List Point :=
  entries.foldl (fun held entry => pushPoint size held entry.point) held

theorem slide_append (filter : MovingFilter) (warmUp : WarmUp) (held : List Point)
    (first second : List Entry) :
    slide filter warmUp held (first ++ second) = slide filter warmUp held first
      ++ slide filter warmUp (windowAfter filter.size held first) second := by
  induction first generalizing held with
  | nil => rfl
  | cons entry first ih =>
      rw [List.cons_append, slide, ih, slide, List.append_assoc]
      rfl

/-- Behind a step back in time, a window goes on as an empty one. -/
theorem slide_of_earlier {filter : MovingFilter} (positive : 0 < filter.size) (warmUp : WarmUp)
    (before behind : List Entry) {last first : Entry}
    (earlier : first.key.timestamp < last.key.timestamp) :
    slide filter warmUp (windowAfter filter.size [] (before ++ [last])) (first :: behind)
      = slide filter warmUp [] (first :: behind) := by
  have anew : ∀ held, pushPoint filter.size (pushPoint filter.size held last.point) first.point
      = pushPoint filter.size [] first.point := fun held => pushPoint_of_earlier positive held earlier
  rw [windowAfter, List.foldl_append, List.foldl_cons, List.foldl_nil, slide, slide, anew]

/-! ## Alone and among others -/

/-- Above a cursor that presents the first entries and no others, a layer with a single window
presents the second. -/
def Alone (filter : MovingFilter) (warmUp : WarmUp) (entries output : List Entry) : Prop :=
  ∀ {σ : Type} [Cursor σ] {below : σ} {range : KeyRange}, Finds below range entries →
    Finds (above filter warmUp .stream below) range output

/-- Every entry belongs to the only window there is. -/
theorem inWindow_stream (entries : List Entry) : inWindow .stream [] entries = entries :=
  List.filter_eq_self.mpr fun _ _ => decide_eq_true rfl

/-- The entries of one series are those that belong to its window. -/
theorem inWindow_series {key : Key} {metric : String} (named : key.metric = .ok metric)
    (entries : List Entry) :
    inWindow .series [metric, key.family, key.qualifier, key.visibility] entries
      = entries.filter fun entry => key.sameSeries entry.key := by
  refine List.filter_congr fun entry _ => ?_
  rw [Scope.windowOf, Key.sameSeries, Key.sameColumns, Key.sameMetric, named]
  cases entry.key.metric with
  | error cause => simp [Except.map, Except.toOption]
  | ok other =>
      simp only [Except.map, Except.toOption]
      grind

/-- Where all entries belong to one window, the layer presents what this window makes of them. -/
theorem finds_slide {σ : Type} [Cursor σ] {cursor : Filtered σ} {range : KeyRange}
    {entries : List Entry} (found : Finds cursor.below range entries)
    (plain : ∀ entry ∈ entries, entry.Plain) {name : List String}
    (together : inWindow cursor.scope name entries = entries) :
    Finds cursor range (slide cursor.filter cursor.warmUp [] entries) := by
  obtain ⟨output, presented, outputPlain, split⟩ := finds_inWindow found plain
  have belongs := List.filter_eq_self.mp together
  have mine : inWindow cursor.scope name output = output := by
    refine List.filter_eq_self.mpr fun entry member => ?_
    -- another window has taken no entry, and so it presents none
    obtain ⟨other, _, belongsTo, _⟩ := take_of_plain cursor (outputPlain entry member)
    have named : (cursor.scope.windowOf entry.key).toOption = some other := by rw [belongsTo]; rfl
    rw [named, decide_eq_true_iff, Option.some.injEq]
    by_contra apart
    have nothing : inWindow cursor.scope other entries = [] := by
      refine List.filter_eq_nil_iff.mpr fun entry member same => apart ?_
      have here := of_decide_eq_true (belongs entry member)
      rw [of_decide_eq_true same] at here
      exact Option.some.inj here
    have taken : entry ∈ inWindow cursor.scope other output :=
      List.mem_filter.mpr ⟨member, decide_eq_true named⟩
    rw [split, nothing] at taken
    cases taken
  have all := split name
  rw [mine, together] at all
  exact all ▸ presented

theorem alone_slide (filter : MovingFilter) (warmUp : WarmUp) {entries : List Entry}
    (plain : ∀ entry ∈ entries, entry.Plain) :
    Alone filter warmUp entries (slide filter warmUp [] entries) := by
  intro σ _ below range found
  exact finds_slide (show Finds (above filter warmUp .stream below).below range entries from found)
    plain (inWindow_stream entries)

/-- What one window makes of the entries of a series. -/
structure OneWindow (filter : MovingFilter) (warmUp : WarmUp) (entries output : List Entry) :
    Prop where
  /-- Nothing else has been in the window. -/
  alone : Alone filter warmUp entries output
  /-- While times do not step back, each value is that of the latest points. -/
  steady : (entries.Pairwise fun first second => first.key.timestamp ≤ second.key.timestamp) →
    output = (valuesAlong filter [] entries).drop (skipped filter warmUp)
  count : (entries.Pairwise fun first second => first.key.timestamp ≤ second.key.timestamp) →
    output.length = match warmUp with
      | .silent => entries.length + 1 - filter.size
      | .early => entries.length
  /-- A step back in time starts the window anew. -/
  restarts : ∀ (before behind : List Entry) (last first : Entry),
    entries = (before ++ [last]) ++ first :: behind →
    first.key.timestamp < last.key.timestamp →
    ∃ early late, output = early ++ late ∧ Alone filter warmUp (before ++ [last]) early
      ∧ Alone filter warmUp (first :: behind) late

theorem oneWindow_slide {filter : MovingFilter} (positive : 0 < filter.size) (warmUp : WarmUp)
    {entries : List Entry} (plain : ∀ entry ∈ entries, entry.Plain) :
    OneWindow filter warmUp entries (slide filter warmUp [] entries) := by
  have values : (entries.Pairwise fun first second => first.key.timestamp ≤ second.key.timestamp) →
      slide filter warmUp [] entries
        = (valuesAlong filter [] entries).drop (skipped filter warmUp) := fun steady => by
    simpa only [latest_nil, List.length_nil, Nat.sub_zero] using
      slide_latest filter warmUp [] entries (List.pairwise_map.mpr steady)
  refine ⟨alone_slide filter warmUp plain, values, fun steady => ?_, ?_⟩
  case refine_1 =>
    rw [values steady, List.length_drop, valuesAlong, List.length_mapIdx]
    cases warmUp with
    | silent =>
        show entries.length - (filter.size - 1) = entries.length + 1 - filter.size
        omega
    | early => rfl
  case refine_2 =>
    intro before behind last first parts earlier
    rw [parts] at plain ⊢
    rw [slide_append, slide_of_earlier positive warmUp before behind earlier]
    exact ⟨_, _, rfl,
      alone_slide filter warmUp fun entry member => plain entry (List.mem_append_left _ member),
      alone_slide filter warmUp fun entry member => plain entry (List.mem_append_right _ member)⟩

/-- Each series has a window of its own: what is presented of a series is what one window makes of
its entries, in whatever order the entries of all series come. -/
theorem finds_oneWindow {filter : MovingFilter} (positive : 0 < filter.size) (warmUp : WarmUp)
    {σ : Type} [Cursor σ] {below : σ} {range : KeyRange} {entries : List Entry}
    (found : Finds below range entries) (plain : ∀ entry ∈ entries, entry.Plain) :
    ∃ output, Finds (above filter warmUp .series below) range output ∧ ∀ key : Key,
      OneWindow filter warmUp (entries.filter fun entry => key.sameSeries entry.key)
        (output.filter fun entry => key.sameSeries entry.key) := by
  obtain ⟨output, presented, _, split⟩ := finds_inWindow
    (show Finds (above filter warmUp .series below).below range entries from found) plain
  refine ⟨output, presented, fun key => ?_⟩
  have minePlain : ∀ entry ∈ entries.filter fun entry => key.sameSeries entry.key, entry.Plain :=
    fun entry member => plain entry ((List.mem_filter.mp member).1)
  cases named : key.metric with
  | error cause =>
      have nobody : ∀ entries : List Entry,
          (entries.filter fun entry => key.sameSeries entry.key) = [] := by
        intro entries
        refine List.filter_eq_nil_iff.mpr fun entry _ => ?_
        simp [Key.sameSeries, Key.sameMetric, named]
      have window := oneWindow_slide positive warmUp minePlain
      rw [nobody] at window ⊢
      rw [nobody]
      exact window
  | ok metric =>
      have mine := split [metric, key.family, key.qualifier, key.visibility]
      rw [show (above filter warmUp .series below).scope = .series from rfl, inWindow_series named,
        inWindow_series named] at mine
      rw [mine]
      exact oneWindow_slide positive warmUp minePlain

/-- Two series in turns, the first of which steps back between its second and its third point. -/
theorem finds_oneWindow_of_turns :
    let entry (host : String) (timestamp : Timestamp) (value : Binary64) : Entry :=
      ⟨⟨Row.ofPoint "load" timestamp, host, "", "", timestamp⟩, value.toBytes⟩
    let entries := [entry "host=a" 5 ⟨1⟩, entry "host=b" 1 ⟨2⟩, entry "host=a" 6 ⟨3⟩,
      entry "host=b" 1 ⟨4⟩, entry "host=a" 2 ⟨5⟩]
    ∃ output, Finds (above (.rate .standard) .early .series (SortedEntries.mk entries entries .all))
        .all output
      ∧ ∀ key : Key, OneWindow (.rate .standard) .early
        (entries.filter fun entry => key.sameSeries entry.key)
        (output.filter fun entry => key.sameSeries entry.key) := by
  intro entry entries
  have plain : ∀ found ∈ entries, found.Plain := by
    have each : ∀ host timestamp value, (entry host timestamp value).Plain := fun _ _ value =>
      ⟨value.length_toBytes, "load", Row.metric_ofPoint _ _⟩
    simp only [entries, List.forall_mem_cons, each, true_and, List.not_mem_nil, false_implies,
      implies_true]
  exact finds_oneWindow (by decide) .early (SortedEntries.finds_all _) plain

end Filtered

end TimeSeries
