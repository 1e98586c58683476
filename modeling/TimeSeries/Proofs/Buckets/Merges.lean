import TimeSeries.Proofs.Buckets.Reports

/-!
# How buckets merge

Each series reports a bucket under the timestamp of its own first point there, and series merge
timestamp by timestamp.  A bucket is therefore one entry of a group exactly if the series with
points in it have their first points at the same time; it is then the aggregate of the values that
the bucket has in each of them.  Otherwise each timestamp at which some of the series start is an
entry of its own, made of these series alone.

Main statements: `Cache.mergesBuckets_afterAll`, and `Cache.not_once_of_offsets` for two series that
start at different times.
-/

set_option autoImplicit false

namespace TimeSeries

variable {spec : Downsampling} {bucket : Int} {timestamp : Timestamp}

namespace Downsampling

/-! ## Members of a group -/

/-- The timestamp of the first point of a bucket. -/
def firstIn? (spec : Downsampling) (bucket : Int) (points : List Point) : Option Timestamp :=
  (spec.pointsIn bucket points).head?.map Point.timestamp

/-- The value of the points of a bucket. -/
def valueOf? (spec : Downsampling) (bucket : Int) (points : List Point) : Option Binary64 :=
  spec.aggregator.aggregate (spec.pointsIn bucket points)

/-- All members with points in a bucket have their first ones at the same time. -/
def Aligned (spec : Downsampling) (bucket : Int) (members : List (List Point)) : Prop :=
  ∀ member ∈ members, ∀ other ∈ members,
    ∀ timestamp ∈ spec.firstIn? bucket member, ∀ another ∈ spec.firstIn? bucket other,
      timestamp = another

/-- A bucket has one entry at most. -/
def OnceIn (spec : Downsampling) (bucket : Int) (reported : TimedValues) : Prop :=
  ∀ timestamp other, reported.contains timestamp = true → reported.contains other = true →
    spec.bucketOf timestamp = bucket → spec.bucketOf other = bucket → timestamp = other

theorem bucketOf_of_firstIn? {points : List Point} (first : timestamp ∈ spec.firstIn? bucket points) :
    spec.bucketOf timestamp = bucket := by
  obtain ⟨point, here, rfl⟩ := Option.map_eq_some_iff.mp first
  exact of_decide_eq_true (List.mem_filter.mp (List.mem_of_mem_head? here)).2

/-- Where a bucket has its first point, the value is that of the bucket. -/
theorem valueAt?_of_firstIn? {points : List Point} (first : timestamp ∈ spec.firstIn? bucket points) :
    spec.valueAt? points timestamp = spec.valueOf? bucket points := by
  rw [valueAt?, bucketOf_of_firstIn? first]
  exact if_pos first

theorem isSome_valueAt?_iff_firstIn? {points : List Point} :
    (spec.valueAt? points timestamp).isSome
      ↔ timestamp ∈ spec.firstIn? (spec.bucketOf timestamp) points :=
  isSome_valueAt?_iff

/-- A bucket without a first point has no value. -/
theorem valueOf?_of_firstIn?_none {points : List Point} (nothing : spec.firstIn? bucket points = none) :
    spec.valueOf? bucket points = none := by
  rw [firstIn?, Option.map_eq_none_iff, List.head?_eq_none_iff] at nothing
  rw [valueOf?, nothing, Aggregator.aggregate_nil]

section Merged

variable {members : List (List Point)} {reported : TimedValues}

/-- The entries are those of the members. -/
def Gathers (spec : Downsampling) (members : List (List Point)) (reported : TimedValues) : Prop :=
  ∀ timestamp, reported.contains timestamp = true
    ↔ ∃ member ∈ members, (spec.valueAt? member timestamp).isSome

/-- A bucket has one entry exactly if the members that have points in it are aligned. -/
theorem Gathers.onceIn_iff (gathers : spec.Gathers members reported) (bucket : Int) :
    spec.OnceIn bucket reported ↔ spec.Aligned bucket members := by
  constructor
  · intro once member among other alsoAmong timestamp first another second
    have bucketFirst := bucketOf_of_firstIn? first
    have bucketSecond := bucketOf_of_firstIn? second
    refine once timestamp another ((gathers _).mpr ⟨member, among, ?_⟩)
      ((gathers _).mpr ⟨other, alsoAmong, ?_⟩) bucketFirst bucketSecond
    · rw [isSome_valueAt?_iff_firstIn?, bucketFirst]
      exact first
    · rw [isSome_valueAt?_iff_firstIn?, bucketSecond]
      exact second
  · intro aligned timestamp other found another here there
    obtain ⟨member, among, first⟩ := (gathers timestamp).mp found
    obtain ⟨rival, alsoAmong, second⟩ := (gathers other).mp another
    rw [isSome_valueAt?_iff_firstIn?, here] at first
    rw [isSome_valueAt?_iff_firstIn?, there] at second
    exact aligned member among rival alsoAmong timestamp first other second

/-- Where the members are aligned, each has the value of the bucket at the timestamp of its entry. -/
theorem Gathers.valueAt?_eq (gathers : spec.Gathers members reported)
    (aligned : spec.Aligned (spec.bucketOf timestamp) members)
    (found : reported.contains timestamp = true) {member : List Point} (among : member ∈ members) :
    spec.valueAt? member timestamp = spec.valueOf? (spec.bucketOf timestamp) member := by
  obtain ⟨rival, alsoAmong, first⟩ := (gathers timestamp).mp found
  rw [isSome_valueAt?_iff_firstIn?] at first
  cases own : spec.firstIn? (spec.bucketOf timestamp) member with
  | none =>
      have absent : ¬ (spec.valueAt? member timestamp).isSome := by
        rw [isSome_valueAt?_iff_firstIn?, own]
        exact fun here => by cases here
      rw [valueOf?_of_firstIn?_none own]
      exact Option.not_isSome_iff_eq_none.mp absent
  | some start =>
      have same : timestamp = start := aligned rival alsoAmong member among timestamp first start own
      exact valueAt?_of_firstIn? (by rw [own, same]; rfl)

end Merged

/-- The entries of a group of several members are made of what these report at the same timestamp,
and a bucket has one entry at most exactly if the members with points in it have their first ones at
the same time.  Then its entry is the aggregate of the values of the bucket in all of them. -/
structure Merges (spec : Downsampling) (aggregator : Aggregator) (members : List (List Point))
    (reported : TimedValues) : Prop where
  entry : 2 ≤ members.length → ∀ timestamp, reported.get? timestamp
    = aggregator.aggregate (inPlaces (members.map fun member => spec.valueAt? member timestamp))
  onceIn_iff : ∀ bucket, spec.OnceIn bucket reported ↔ spec.Aligned bucket members
  whole : 2 ≤ members.length → ∀ timestamp, reported.contains timestamp = true →
    spec.Aligned (spec.bucketOf timestamp) members → reported.get? timestamp
      = aggregator.aggregate (inPlaces (members.map fun member =>
          spec.valueOf? (spec.bucketOf timestamp) member))

end Downsampling

namespace Cache

variable {cache : Cache} {query : Query} {subquery : Subquery} {filter : TagFilter}
  {now : Timestamp} {scan : Scan}

/-- The value that the bucket of a series has at a timestamp. -/
theorem Legible.get?_bucketValues (legible : cache.Legible) (scan : Scan) (series : Series)
    (timestamp : Timestamp) :
    (cache.bucketValues scan spec series).get? timestamp
      = spec.valueAt? (cache.lookedUp scan series) timestamp := by
  have ordered : (cache.lookedUp scan series).Pairwise Point.NotAfter :=
    (legible.ordered series).filter _
  rw [bucketValues, TimedValues.get?_ofPoints, Downsampling.lastValue?_condense ordered]

/-- A group has an entry wherever one of its contributors has one. -/
theorem Legible.gathers (legible : cache.Legible) (scan : Scan) (aggregator : Aggregator)
    (series : List Series) :
    spec.Gathers (series.map (cache.lookedUp scan))
      (mergeMembers aggregator (series.map (cache.bucketValues scan spec))) := by
  intro timestamp
  by_cases several : series.length = 1
  · obtain ⟨only, rfl⟩ := List.length_eq_one_iff.mp several
    simp only [List.map_cons, List.map_nil, mergeMembers, List.mem_singleton, exists_eq_left]
    rw [SortedMap.contains, legible.get?_bucketValues]
  · rw [SortedMap.contains, get?_mergeMembers aggregator (by rwa [List.length_map]),
      isSome_aggregate_inPlaces]
    simp only [List.map_map, List.mem_map, exists_exists_and_eq_and, Function.comp_apply,
      legible.get?_bucketValues]

/-- Contributors merge bucket by bucket. -/
theorem Legible.merges (legible : cache.Legible) (scan : Scan) (aggregator : Aggregator)
    (series : List Series) :
    spec.Merges aggregator (series.map (cache.lookedUp scan))
      (mergeMembers aggregator (series.map (cache.bucketValues scan spec))) := by
  have gathers := (legible.gathers scan aggregator series : spec.Gathers _ _)
  have entry : 2 ≤ series.length → ∀ timestamp,
      (mergeMembers aggregator (series.map (cache.bucketValues scan spec))).get? timestamp
        = aggregator.aggregate (inPlaces ((series.map (cache.lookedUp scan)).map fun member =>
            spec.valueAt? member timestamp)) := by
    intro several timestamp
    rw [get?_mergeMembers aggregator (by rw [List.length_map]; omega), List.map_map, List.map_map]
    simp only [Function.comp_def, legible.get?_bucketValues]
  refine ⟨fun several => entry (by rwa [List.length_map] at several), gathers.onceIn_iff, ?_⟩
  intro several timestamp found aligned
  rw [List.length_map] at several
  rw [entry several timestamp, List.map_congr_left fun member among =>
    gathers.valueAt?_eq aligned found among]

/-- So do the contributors to each group of an answer in milliseconds. -/
theorem Legible.merges_of_mem (legible : cache.Legible) (exact : query.inMilliseconds = true)
    (raw : subquery.rate = false) (compiled : subquery.tagFilter = .ok filter)
    (parsed : subquery.parsedDownsampling = .ok (some spec)) {group : GroupAnswer}
    (member : group ∈ (cache.answerSubquery query subquery now).groups) :
    spec.Merges subquery.aggregator
      ((cache.contributors (cache.bucketScan query subquery filter spec now) group.tags).map
        (cache.lookedUp (cache.bucketScan query subquery filter spec now))) group.points := by
  obtain ⟨_, _, _, points⟩ := (legible.mem_groups_iff exact raw compiled parsed).mp member
  rw [points]
  exact legible.merges _ _ _

/-- The query is answered subquery by subquery, and the groups of subqueries with buckets and
without rates merge what is looked up of their contributors, in the order of series. -/
structure MergesBuckets (cache : Cache) (query : Query) (now : Timestamp) : Prop where
  answered : (cache.ask query now).2
    = .ok (.concat (query.subqueries.map fun subquery => cache.answerSubquery query subquery now))
  merged : ∀ subquery ∈ query.subqueries, subquery.rate = false →
    ∀ filter spec, subquery.tagFilter = .ok filter →
      subquery.parsedDownsampling = .ok (some spec) →
        ∀ group ∈ (cache.answerSubquery query subquery now).groups,
          spec.Merges subquery.aggregator
            ((cache.contributors (cache.bucketScan query subquery filter spec now) group.tags).map
              (cache.lookedUp (cache.bucketScan query subquery filter spec now))) group.points

/-- **How buckets merge**, in whatever state a cache is: entry by entry at equal timestamps, and so
a bucket is one entry exactly if its contributors start it at the same time. -/
theorem mergesBuckets_afterAll {settings : CacheSettings}
    (created : Cache.ofSettings settings = .ok cache) (events : List CacheEvent)
    (exact : query.inMilliseconds = true) (spans : query.start ≤ query.stop) :
    (cache.afterAll events).MergesBuckets query now := by
  have legible := legible_afterAll created events
  exact ⟨ask_eq _ spans, fun subquery _ raw filter spec compiled parsed group member =>
    legible.merges_of_mem exact raw compiled parsed member⟩

/-- Two series that start the first bucket together and the second one apart. -/
theorem mergesBuckets_afterAll_of_two :
    let buckets : Subquery :=
      { Subquery.ofMetric "load" with downsampling := some "1s-max", aggregator := .sum }
    ∃ cache, Cache.ofSettings .standard = .ok cache
      ∧ (cache.afterAll [.store (.ofTags "load" [("host", "a")]) ⟨0, ⟨1⟩⟩,
          .store (.ofTags "load" [("host", "b")]) ⟨0, ⟨2⟩⟩,
          .store (.ofTags "load" [("host", "a")]) ⟨1000, ⟨3⟩⟩,
          .store (.ofTags "load" [("host", "b")]) ⟨1100, ⟨4⟩⟩]).MergesBuckets
            ⟨0, 1999, true, [buckets]⟩ 2000 := by
  have created : Cache.ofSettings .standard
      = .ok ⟨.standard, [], .empty, .empty, 0, ⟨0, 0, 0, 0, 0, 0⟩⟩ := rfl
  exact ⟨_, created, mergesBuckets_afterAll created _ rfl (by decide)⟩

/-- Two series that start a bucket at different times: their group has more than one entry in the
bucket. -/
theorem not_once_of_offsets :
    let buckets : Subquery :=
      { Subquery.ofMetric "load" with downsampling := some "1s-sum", aggregator := .sum }
    ∃ cache spec, Cache.ofSettings .standard = .ok cache
      ∧ buckets.parsedDownsampling = .ok (some spec)
      ∧ ¬ ∀ group ∈ ((cache.afterAll [.store (.ofTags "load" [("host", "a")]) ⟨0, ⟨1⟩⟩,
            .store (.ofTags "load" [("host", "b")]) ⟨100, ⟨2⟩⟩]).answerSubquery
              ⟨0, 999, true, [buckets]⟩ buckets 2000).groups,
          ∀ bucket, spec.OnceIn bucket group.points := by
  intro buckets
  let cache : Cache := ⟨.standard, [], .empty, .empty, 0, ⟨0, 0, 0, 0, 0, 0⟩⟩
  let spec : Downsampling := ⟨1000, .sum, by decide⟩
  let first : Series := .ofTags "load" [("host", "a")]
  let second : Series := .ofTags "load" [("host", "b")]
  let later := cache.afterAll [.store first ⟨0, ⟨1⟩⟩, .store second ⟨100, ⟨2⟩⟩]
  let query : Query := ⟨0, 999, true, [buckets]⟩
  let scan := later.bucketScan query buckets ⟨[]⟩ spec 2000
  have created : Cache.ofSettings .standard = .ok cache := rfl
  have legible : later.Legible := legible_afterAll created _
  have compiled : buckets.tagFilter = .ok ⟨[]⟩ := rfl
  have parsed : buckets.parsedDownsampling = .ok (some spec) := by decide +kernel
  have contributors : later.contributors scan .empty = [first, second] := by decide +kernel
  refine ⟨cache, spec, created, parsed, fun once => ?_⟩
  have asked : later.firstAsked query buckets 2000 ≤ query.stop := by decide +kernel
  obtain ⟨group, member, tags⟩ := legible.exists_group rfl rfl compiled parsed asked
    (contributors ▸ List.cons_ne_nil first [second])
  have aligned := ((legible.merges_of_mem rfl rfl compiled parsed member).onceIn_iff 0).mp
    (once group member 0)
  rw [tags, contributors] at aligned
  have starts : spec.firstIn? 0 (later.lookedUp scan first) = some 0
      ∧ spec.firstIn? 0 (later.lookedUp scan second) = some 100 := by decide +kernel
  have same := aligned _ List.mem_cons_self _ (List.mem_cons_of_mem _ List.mem_cons_self)
    0 starts.1 100 starts.2
  exact absurd same (by decide)

end Cache

end TimeSeries
