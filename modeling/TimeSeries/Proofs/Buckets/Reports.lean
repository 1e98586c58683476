import TimeSeries.Proofs.Buckets.Values
import TimeSeries.Proofs.Cache.Contributors

/-!
# Which buckets are reported

A subquery with buckets looks up the points of whole buckets, from the start of the bucket of the
first timestamp it is asked about to the end of the bucket of the last one.  Both ends are included,
so besides the buckets that its span touches a subquery can report one bucket more: the next one, if
a series has a point at its very start.  And where the first bucket would begin before the earliest
timestamp, its start wraps around, so the look-up begins behind the points of this bucket.

Whatever is looked up of a series is reported bucket by bucket, each bucket under the timestamp of
its first point that was looked up.

Main statement: `Cache.reportsBuckets_afterAll`.
-/

set_option autoImplicit false

namespace TimeSeries

variable {spec : Downsampling}

/-! ## One series -/

/-- What is reported of the points that a series holds belongs to the buckets that a span touches:
no bucket is reported twice, every bucket of a point in the span is reported, and apart from them at
most the one that begins where the last bucket ends. -/
structure Downsampling.Reports (spec : Downsampling) (start stop : Timestamp) (held : List Point)
    (reported : TimedValues) : Prop where
  touched : ∀ timestamp, reported.contains timestamp = true →
    spec.Touches start stop (spec.bucketOf timestamp)
      ∨ (stop < timestamp ∧ timestamp = spec.bucketEnd stop
        ∧ ∃ point ∈ held, point.timestamp = timestamp)
  complete : spec.BeginsInRange start → ∀ point ∈ held, start ≤ point.timestamp →
    point.timestamp ≤ spec.bucketEnd stop →
      ∃ timestamp, reported.contains timestamp = true
        ∧ spec.bucketOf timestamp = spec.bucketOf point.timestamp
  once : ∀ timestamp other, reported.contains timestamp = true → reported.contains other = true →
    spec.bucketOf timestamp = spec.bucketOf other → timestamp = other

theorem Downsampling.contains_ofPoints_condense {points : List Point}
    (ordered : points.Pairwise Point.NotAfter) (timestamp : Timestamp) :
    (TimedValues.ofPoints (spec.condense points)).contains timestamp
      = (spec.valueAt? points timestamp).isSome := by
  rw [SortedMap.contains, TimedValues.get?_ofPoints, lastValue?_condense ordered]

/-- The values of the buckets between the ends of a look-up are such a report. -/
theorem Downsampling.reports_of_within {start stop : Timestamp} (spans : start ≤ stop)
    {held : List Point} (ordered : held.Pairwise Point.NotAfter) :
    spec.Reports start stop held (.ofPoints (spec.condense
      (held.filter (Point.isWithin (spec.bucketStart start) (spec.bucketEnd stop))))) := by
  have inOrder := ordered.filter (Point.isWithin (spec.bucketStart start) (spec.bucketEnd stop))
  refine ⟨fun timestamp reported => ?_, fun inRange point member low high => ?_,
    fun timestamp other first second bucket => ?_⟩
  · rw [contains_ofPoints_condense inOrder] at reported
    obtain ⟨point, found, rfl⟩ := exists_mem_of_valueAt? reported
    obtain ⟨member, within⟩ := List.mem_filter.mp found
    rw [Point.isWithin, Bool.and_eq_true, decide_eq_true_iff, decide_eq_true_iff] at within
    refine (touches_of_within spans within.1 within.2).imp_right fun past => ?_
    exact ⟨past.1, past.2, point, member, rfl⟩
  · have within : Point.isWithin (spec.bucketStart start) (spec.bucketEnd stop) point = true := by
      rw [Point.isWithin, Bool.and_eq_true, decide_eq_true_iff, decide_eq_true_iff]
      exact ⟨Int64.le_trans (bucketStart_le inRange) low, high⟩
    obtain ⟨timestamp, found, bucket⟩ :=
      spec.exists_valueAt?_of_mem (List.mem_filter.mpr ⟨member, within⟩)
    exact ⟨timestamp, by rw [contains_ofPoints_condense inOrder, found], bucket⟩
  · rw [contains_ofPoints_condense inOrder] at first second
    exact eq_of_valueAt? first second bucket

/-! ## Groups of series -/

/-- With buckets and without rates a scan makes the values of the buckets. -/
theorem Scan.makes_buckets {scan : Scan} (raw : scan.subquery.rate = false)
    (bucketed : scan.downsampling = some spec) : scan.Makes spec.condense where
  nothing := by rw [Downsampling.condense]
  made holds series := Scan.pointsOf_buckets raw bucketed holds series

namespace Cache

variable {cache : Cache} {query : Query} {subquery : Subquery} {filter : TagFilter}
  {now : Timestamp}

/-- What a subquery with buckets looks up. -/
def bucketScan (cache : Cache) (query : Query) (subquery : Subquery) (filter : TagFilter)
    (spec : Downsampling) (now : Timestamp) : Scan :=
  ⟨subquery, filter, some spec, spec.bucketStart (cache.firstAsked query subquery now),
    spec.bucketEnd query.stop⟩

/-- The values of the buckets of a series. -/
def bucketValues (cache : Cache) (scan : Scan) (spec : Downsampling) (series : Series) :
    TimedValues :=
  .ofPoints (spec.condense (cache.lookedUp scan series))

/-- A subquery with buckets looks up nothing if the first timestamp it is asked about lies behind the
last one. -/
theorem scan?_buckets (compiled : subquery.tagFilter = .ok filter)
    (parsed : subquery.parsedDownsampling = .ok (some spec)) :
    cache.scan? query subquery now
      = if query.stop < cache.firstAsked query subquery now then .ok none
        else .ok (some (cache.bucketScan query subquery filter spec now)) :=
  scan?_eq compiled parsed

/-- The groups of an answer in milliseconds are those with contributors, and their points are the
values of the buckets merged. -/
theorem Legible.mem_groups_iff (legible : cache.Legible) (exact : query.inMilliseconds = true)
    (raw : subquery.rate = false) (compiled : subquery.tagFilter = .ok filter)
    (parsed : subquery.parsedDownsampling = .ok (some spec)) {group : GroupAnswer} :
    group ∈ (cache.answerSubquery query subquery now).groups
      ↔ cache.firstAsked query subquery now ≤ query.stop
        ∧ cache.contributors (cache.bucketScan query subquery filter spec now) group.tags ≠ []
        ∧ group.metric = subquery.metric
        ∧ group.points = mergeMembers subquery.aggregator
            ((cache.contributors (cache.bucketScan query subquery filter spec now) group.tags).map
              (cache.bucketValues (cache.bucketScan query subquery filter spec now) spec)) := by
  have makes : (cache.bucketScan query subquery filter spec now).Makes spec.condense :=
    Scan.makes_buckets raw rfl
  rw [legible.mem_groups_iff_of_makes exact (scan?_buckets compiled parsed) makes,
    remaining_eq_contributors cache _ spec.isEmpty_condense]
  rfl

/-- All tags that have contributors have a group. -/
theorem Legible.exists_group (legible : cache.Legible) (exact : query.inMilliseconds = true)
    (raw : subquery.rate = false) (compiled : subquery.tagFilter = .ok filter)
    (parsed : subquery.parsedDownsampling = .ok (some spec))
    (asked : cache.firstAsked query subquery now ≤ query.stop) {tags : Tags}
    (contributed : cache.contributors (cache.bucketScan query subquery filter spec now) tags ≠ []) :
    ∃ group ∈ (cache.answerSubquery query subquery now).groups, group.tags = tags := by
  refine legible.exists_group_of_makes exact (scan?_buckets compiled parsed)
    (Scan.makes_buckets raw rfl) asked ?_
  rwa [remaining_eq_contributors cache _ spec.isEmpty_condense]

/-! ## Answers -/

/-- The query is answered subquery by subquery, and subqueries with buckets and without rates report
the buckets that their spans touch: there is a group for all tags that have contributors, and a
group with a single one reports the points that this series holds. -/
structure ReportsBuckets (cache : Cache) (query : Query) (now : Timestamp) : Prop where
  answered : (cache.ask query now).2
    = .ok (.concat (query.subqueries.map fun subquery => cache.answerSubquery query subquery now))
  complete : ∀ subquery ∈ query.subqueries, subquery.rate = false →
    ∀ filter spec, subquery.tagFilter = .ok filter →
      subquery.parsedDownsampling = .ok (some spec) →
        cache.firstAsked query subquery now ≤ query.stop → ∀ tags,
          cache.contributors (cache.bucketScan query subquery filter spec now) tags ≠ [] →
            ∃ group ∈ (cache.answerSubquery query subquery now).groups, group.tags = tags
  single : ∀ subquery ∈ query.subqueries, subquery.rate = false →
    ∀ filter spec, subquery.tagFilter = .ok filter →
      subquery.parsedDownsampling = .ok (some spec) →
        ∀ group ∈ (cache.answerSubquery query subquery now).groups, ∀ series,
          cache.contributors (cache.bucketScan query subquery filter spec now) group.tags = [series]
            → spec.Reports (cache.firstAsked query subquery now) query.stop
              (cache.pointsHeld series) group.points

/-- **Which buckets are reported**, in whatever state a cache is: of a group to which one series
contributes, those of the points that the series holds from the first timestamp asked about to the
end of the last bucket, each of them once. -/
theorem reportsBuckets_afterAll {settings : CacheSettings}
    (created : Cache.ofSettings settings = .ok cache) (events : List CacheEvent)
    (exact : query.inMilliseconds = true) (spans : query.start ≤ query.stop) :
    (cache.afterAll events).ReportsBuckets query now := by
  have legible := legible_afterAll created events
  refine ⟨ask_eq _ spans, ?_, ?_⟩
  · intro subquery _ raw filter spec compiled parsed asked tags contributed
    exact legible.exists_group exact raw compiled parsed asked contributed
  · intro subquery _ raw filter spec compiled parsed group member series single
    obtain ⟨asked, _, _, points⟩ := (legible.mem_groups_iff exact raw compiled parsed).mp member
    rw [points, single]
    exact Downsampling.reports_of_within asked (legible.ordered series)

/-- Of three points, the first is past retention and not looked up, and the last lies at the end of
the last bucket. -/
theorem reportsBuckets_afterAll_at_ends :
    let buckets : Subquery := { Subquery.ofMetric "load" with downsampling := some "1s-sum" }
    ∃ cache, Cache.ofSettings { CacheSettings.standard with retention := .ofDefault 1000 }
        = .ok cache
      ∧ (cache.afterAll [.store (.ofMetric "load") ⟨-1, ⟨1⟩⟩, .store (.ofMetric "load") ⟨500, ⟨2⟩⟩,
          .store (.ofMetric "load") ⟨1000, ⟨3⟩⟩]).ReportsBuckets ⟨-100, 700, true, [buckets]⟩
            1200 := by
  have created : Cache.ofSettings { CacheSettings.standard with retention := .ofDefault 1000 }
      = .ok ⟨{ CacheSettings.standard with retention := .ofDefault 1000 }, [], .empty, .empty, 0,
        ⟨0, 0, 0, 0, 0, 0⟩⟩ := rfl
  exact ⟨_, created, reportsBuckets_afterAll created _ rfl (by decide)⟩

end Cache

end TimeSeries
