import TimeSeries.Proofs.Buckets.Grid
import TimeSeries.Proofs.Cache.RawAnswers

/-!
# Values of buckets

Points in time order lie bucket by bucket, so the runs into which their entries are cut are the
buckets, and of each run one value is left, under the timestamp of its first point.  The points that
are left (`Downsampling.condense`) therefore have a value at a timestamp exactly if some bucket has
its first point there, and it is the value of all points of the bucket (`Downsampling.valueAt?`).

It follows that a bucket with points has a value at one timestamp, and that this is the timestamp of
one of its points.

Main statements: `Downsampling.lastValue?_condense` and `Scan.pointsOf_buckets`.
-/

set_option autoImplicit false

namespace TimeSeries

namespace Downsampling

/-! ## Points bucket by bucket -/

/-- The points of a bucket. -/
def pointsIn (spec : Downsampling) (bucket : Int) (points : List Point) : List Point :=
  points.filter fun point => spec.bucketOf point.timestamp = bucket

/-- The value of the points of a bucket, at the timestamp of the first of them. -/
def valueAt? (spec : Downsampling) (points : List Point) (timestamp : Timestamp) :
    Option Binary64 :=
  if (spec.pointsIn (spec.bucketOf timestamp) points).head?.map Point.timestamp = some timestamp then
    spec.aggregator.aggregate (spec.pointsIn (spec.bucketOf timestamp) points)
  else
    none

/-- The point lies in the bucket of the other one. -/
def joins (spec : Downsampling) (first point : Point) : Bool :=
  spec.bucketOf point.timestamp = spec.bucketOf first.timestamp

/-- One point for each bucket: the value of its points, at the timestamp of the first of them. -/
def condense (spec : Downsampling) : List Point → List Point
  | [] => []
  | first :: rest =>
      ((spec.aggregator.aggregate (first :: rest.takeWhile (spec.joins first))).map
        fun value => ⟨first.timestamp, value⟩).toList
        ++ spec.condense (rest.dropWhile (spec.joins first))
termination_by points => points.length
decreasing_by exact Nat.lt_succ_of_le (List.length_dropWhile_le _ _)

variable {spec : Downsampling} {points : List Point} {timestamp other : Timestamp}

section Ordered

variable {first : Point} {rest : List Point}

/-- Behind the first point, those of its bucket come before the others. -/
theorem joins_of_joins (ordered : (first :: rest).Pairwise Point.NotAfter) :
    rest.Pairwise fun earlier later =>
      spec.joins first later = true → spec.joins first earlier = true := by
  obtain ⟨behind, ordered⟩ := List.pairwise_cons.mp ordered
  refine ordered.imp_of_mem fun {earlier later} member _ notAfter joined => ?_
  rw [joins, decide_eq_true_iff] at joined ⊢
  have low := spec.bucketOf_le (behind earlier member)
  have high := spec.bucketOf_le notAfter
  omega

theorem pointsIn_first (ordered : (first :: rest).Pairwise Point.NotAfter) :
    spec.pointsIn (spec.bucketOf first.timestamp) (first :: rest)
      = first :: rest.takeWhile (spec.joins first) := by
  rw [pointsIn, List.filter_cons_of_pos (by simp),
    SortedEntries.takeWhile_eq_filter (joins_of_joins ordered)]
  rfl

/-- No other point lies in the bucket of the first. -/
theorem pointsIn_spent (ordered : (first :: rest).Pairwise Point.NotAfter) :
    spec.pointsIn (spec.bucketOf first.timestamp) (rest.dropWhile (spec.joins first)) = [] := by
  rw [pointsIn, SortedEntries.dropWhile_eq_filter (joins_of_joins ordered), List.filter_filter,
    List.filter_eq_nil_iff]
  intro point _
  rw [joins, Bool.and_not_self]
  exact Bool.false_ne_true

/-- All points of another bucket lie behind it. -/
theorem pointsIn_others (ordered : (first :: rest).Pairwise Point.NotAfter) {bucket : Int}
    (apart : spec.bucketOf first.timestamp ≠ bucket) :
    spec.pointsIn bucket (first :: rest)
      = spec.pointsIn bucket (rest.dropWhile (spec.joins first)) := by
  rw [pointsIn, pointsIn, List.filter_cons_of_neg (by simpa using apart),
    SortedEntries.dropWhile_eq_filter (joins_of_joins ordered), List.filter_filter]
  refine List.filter_congr fun point _ => ?_
  by_cases here : spec.bucketOf point.timestamp = bucket
  · simp [joins, here, Ne.symm apart]
  · simp [here]

end Ordered

/-- **What is left of points in time order** has the values of their buckets. -/
theorem lastValue?_condense (ordered : points.Pairwise Point.NotAfter) (timestamp : Timestamp) :
    lastValue? (spec.condense points) timestamp = spec.valueAt? points timestamp := by
  fun_induction condense spec points with
  | case1 => rfl
  | case2 first rest ih =>
      have later := ih (ordered.tail.sublist (List.dropWhile_sublist _))
      obtain ⟨value, computed⟩ := Option.isSome_iff_exists.mp
        (spec.aggregator.isSome_aggregate (List.cons_ne_nil first
          (rest.takeWhile (spec.joins first))))
      rw [computed, Option.map_some, Option.toList_some, List.singleton_append, lastValue?_cons,
        later]
      by_cases bucket : spec.bucketOf first.timestamp = spec.bucketOf timestamp
      · have spent : spec.valueAt? (rest.dropWhile (spec.joins first)) timestamp = none := by
          rw [valueAt?, ← bucket, pointsIn_spent ordered]
          exact if_neg (by simp)
        rw [spent, Option.none_or, valueAt?, ← bucket, pointsIn_first ordered, computed]
        simp only [List.head?_cons, Option.map_some, Option.some.injEq]
      · have elsewhere : first.timestamp ≠ timestamp := fun same => bucket (by rw [same])
        rw [if_neg elsewhere, Option.or_none, valueAt?, valueAt?, pointsIn_others ordered bucket]

/-- Something is left of some points. -/
theorem isEmpty_condense (spec : Downsampling) (points : List Point) :
    (spec.condense points).isEmpty = points.isEmpty := by
  cases points with
  | nil => rw [condense]
  | cons first rest =>
      obtain ⟨value, computed⟩ := Option.isSome_iff_exists.mp
        (spec.aggregator.isSome_aggregate (List.cons_ne_nil first
          (rest.takeWhile (spec.joins first))))
      rw [condense, computed]
      rfl

/-! ## Timestamps with values -/

theorem isSome_valueAt?_iff :
    (spec.valueAt? points timestamp).isSome
      ↔ (spec.pointsIn (spec.bucketOf timestamp) points).head?.map Point.timestamp
        = some timestamp := by
  unfold valueAt?
  split
  case isTrue here =>
      refine ⟨fun _ => here, fun _ => spec.aggregator.isSome_aggregate ?_⟩
      rintro nothing
      rw [nothing] at here
      cases here
  case isFalse apart =>
      exact ⟨fun found => absurd found Bool.false_ne_true, fun here => absurd here apart⟩

/-- A value stands at the timestamp of a point. -/
theorem exists_mem_of_valueAt? (found : (spec.valueAt? points timestamp).isSome) :
    ∃ point ∈ points, point.timestamp = timestamp := by
  rw [isSome_valueAt?_iff, Option.map_eq_some_iff] at found
  obtain ⟨point, first, here⟩ := found
  exact ⟨point, (List.mem_filter.mp (List.mem_of_mem_head? first)).1, here⟩

/-- Every point has a value in its bucket. -/
theorem exists_valueAt?_of_mem (spec : Downsampling) {point : Point} (member : point ∈ points) :
    ∃ timestamp, (spec.valueAt? points timestamp).isSome
      ∧ spec.bucketOf timestamp = spec.bucketOf point.timestamp := by
  have within : point ∈ spec.pointsIn (spec.bucketOf point.timestamp) points :=
    List.mem_filter.mpr ⟨member, decide_eq_true rfl⟩
  obtain ⟨first, here⟩ :=
    Option.isSome_iff_exists.mp (List.isSome_head?.mpr (List.ne_nil_of_mem within))
  have bucket : spec.bucketOf first.timestamp = spec.bucketOf point.timestamp :=
    of_decide_eq_true (List.mem_filter.mp (List.mem_of_mem_head? here)).2
  refine ⟨first.timestamp, isSome_valueAt?_iff.mpr ?_, bucket⟩
  rw [bucket, here]
  rfl

/-- A bucket has one value. -/
theorem eq_of_valueAt? (found : (spec.valueAt? points timestamp).isSome)
    (another : (spec.valueAt? points other).isSome)
    (bucket : spec.bucketOf timestamp = spec.bucketOf other) : timestamp = other := by
  rw [isSome_valueAt?_iff] at found another
  rw [bucket, another] at found
  exact (Option.some.inj found).symm

end Downsampling

/-! ## The layer over the entries of a series -/

section Entries

variable (series : Series) {spec : Downsampling}

theorem Downsampling.joins_entryOf (first point : Point) :
    (Window.aligned spec.period spec.period_pos).joins (HeldSeries.entryOf series first).key
        (HeldSeries.entryOf series point).key
      = spec.joins first point := by
  have metric : (HeldSeries.entryOf series first).key.sameMetric
      (HeldSeries.entryOf series point).key = true := by
    rw [Key.sameMetric, (show (HeldSeries.entryOf series first).key.metric = .ok series.metric from
      Row.metric_ofPoint _ _), (show (HeldSeries.entryOf series point).key.metric
        = .ok series.metric from Row.metric_ofPoint _ _)]
    exact decide_eq_true rfl
  rw [Window.joins, metric, Bool.and_true, Bool.eq_iff_iff, beq_iff_eq, joins, decide_eq_true_iff]
  exact window_start_eq_iff.trans eq_comm

/-- The entries of a series are one part of their run. -/
theorem values_splitBySeries_entries {points : List Point} (some_points : points ≠ []) :
    (splitBySeries (points.map (HeldSeries.entryOf series))).values
      = [points.map (HeldSeries.entryOf series)] := by
  let columns := (Column.join series.tags.toList, "", series.visibility.getD "")
  have parts : ∀ wanted, partOf wanted (points.map (HeldSeries.entryOf series))
      = if wanted = columns then points.map (HeldSeries.entryOf series) else [] := by
    intro wanted
    rw [partOf]
    split
    case isTrue here =>
        rw [List.filter_eq_self]
        intro entry member
        obtain ⟨point, _, rfl⟩ := List.mem_map.mp member
        rw [here]
        exact decide_eq_true rfl
    case isFalse apart =>
        rw [List.filter_eq_nil_iff]
        intro entry member same
        obtain ⟨point, _, rfl⟩ := List.mem_map.mp member
        exact apart (of_decide_eq_true same).symm
  have split : splitBySeries (points.map (HeldSeries.entryOf series))
      = SortedMap.empty.insert columns (points.map (HeldSeries.entryOf series)) := by
    apply SortedMap.ext_get?
    intro wanted
    rw [get?_splitBySeries, SortedMap.get?_insert, parts]
    by_cases here : wanted = columns
    · rw [if_pos here, if_pos here, if_neg (by simpa using some_points)]
    · rw [if_neg here, if_neg here, if_pos rfl]
      rfl
  rw [split]
  rfl

theorem Reducer.allPoints_entries (points : List Point) :
    Reducer.allPoints (points.map (HeldSeries.entryOf series)) = .ok points := by
  induction points with
  | nil => rfl
  | cons point points ih =>
      have read : (HeldSeries.entryOf series point).toPoints = .ok [point] := by
        rw [Entry.toPoints, HeldSeries.entryOf, isPacked_toBytes, if_neg Bool.false_ne_true,
          Binary64.ofBytes_toBytes]
        rfl
      rw [List.map_cons, allPoints, read, ih]
      rfl

/-- A run of entries of a series is reduced to the value of its points, under its first key. -/
theorem reduceRun_entries (aggregator : Aggregator) (first : Point) (rest : List Point) :
    (reduceRun (.aggregate aggregator) ((first :: rest).map (HeldSeries.entryOf series))).1
      = ((aggregator.aggregate (first :: rest)).map fun value =>
          HeldSeries.entryOf series ⟨first.timestamp, value⟩).toList := by
  obtain ⟨value, computed⟩ := Option.isSome_iff_exists.mp
    (aggregator.isSome_aggregate (List.cons_ne_nil first rest))
  have reduced : Reducer.aggregate aggregator (HeldSeries.entryOf series first).key
      ((first :: rest).map (HeldSeries.entryOf series)) = .ok value.toBytes := by
    rw [Reducer.aggregate, Reducer.allPoints_entries]
    simp only [bind, Except.bind, computed]
    rfl
  have part : reducePart (.aggregate aggregator) ((first :: rest).map (HeldSeries.entryOf series))
      = ([HeldSeries.entryOf series ⟨first.timestamp, value⟩], none) := by
    rw [List.map_cons] at reduced ⊢
    simp only [reducePart, reduced]
    rfl
  rw [reduceRun, values_splitBySeries_entries series (List.cons_ne_nil first rest), List.map_cons,
    part, computed]
  exact List.mergeSort_singleton _

/-- What comes of the entries of points in turn are the entries of what is left of the points. -/
theorem Downsampling.combine_entries (points : List Point) :
    Combined.combine (.aggregate spec.aggregator) (.aligned spec.period spec.period_pos)
        (points.map (HeldSeries.entryOf series))
      = (spec.condense points).map (HeldSeries.entryOf series) := by
  fun_induction condense spec points with
  | case1 => rw [List.map_nil, Combined.combine, Window.cut]; rfl
  | case2 first rest ih =>
      have joined : (fun point => (Window.aligned spec.period spec.period_pos).joins
          (HeldSeries.entryOf series first).key (HeldSeries.entryOf series point).key)
          = spec.joins first := funext fun point => joins_entryOf series first point
      rw [List.map_cons, Combined.combine, Window.cut, List.flatMap_cons, List.takeWhile_map,
        List.dropWhile_map]
      simp only [Function.comp_def, joined]
      rw [← Combined.combine, ih, ← List.map_cons, reduceRun_entries, List.map_append]
      congr 1
      cases spec.aggregator.aggregate (first :: rest.takeWhile (spec.joins first)) <;> rfl

end Entries

/-! ## Subqueries and scans -/

/-- A subquery with buckets and without rates leaves the values of the buckets. -/
theorem Subquery.process_buckets {subquery : Subquery} (raw : subquery.rate = false)
    (spec : Downsampling) (series : Series) {points : List Point}
    (ordered : points.Pairwise Point.NotAfter) :
    subquery.process (some spec) (points.map (HeldSeries.entryOf series))
      = .ok ((spec.condense points).map (HeldSeries.entryOf series)) := by
  have smooth : Combined.Smooth (.aggregate spec.aggregator) (.aligned spec.period spec.period_pos)
      (points.map (HeldSeries.entryOf series)) :=
    Combined.smooth_of_plain _ _ fun _ => HeldSeries.plain_of_mem_entries
  rw [process, if_neg (by simp [raw]), ← Downsampling.combine_entries]
  exact Cursor.readAll_of_finds (Combined.finds (HeldSeries.finds_entries series ordered) smooth)

/-- A scan with buckets and without rates makes of a log the values of the buckets. -/
theorem Scan.pointsOf_buckets {scan : Scan} {spec : Downsampling}
    (raw : scan.subquery.rate = false) (bucketed : scan.downsampling = some spec)
    {held : HeldSeries} {contents : LogContents} (holds : held.log.Holds contents)
    (series : Series) :
    scan.pointsOf series held
      = .ok (.ofPoints (spec.condense
          (contents.kept.filter (Point.isWithin scan.start scan.stop)))) := by
  refine pointsOf_of_process holds series fun ordered => ?_
  rw [bucketed, Subquery.process_buckets raw spec series ordered]

end TimeSeries
