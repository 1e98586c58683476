import TimeSeries.Proofs.Cache.Eviction
import TimeSeries.Proofs.Cache.Upkeep

/-!
# What a cache holds

Whatever a cache has been through, the log of each of its series can be read, and the points that it
holds are in time order.  A scan makes of a log what it makes of these points, so its answer can be
told from the points held alone: caches that differ in the blocks, the moments and even in the
series that they hold, but in no point that a scan makes something of, answer the scan alike.

Main statements: `legible_afterAll`, `Legible.answer_scan_eq`, and `eq_of_scan?` for the span that a
scan looks up.
-/

set_option autoImplicit false

namespace TimeSeries.Cache

/-- The points that the log of a series holds; a series that is not held has none. -/
def pointsHeld (cache : Cache) (series : Series) : List Point :=
  (SeriesLog.pointsOf
    ((cache.logOf series).blocksWithin Timestamp.earliest Timestamp.latest)).toOption.getD []

/-- The log of each series can be read. -/
def Legible (cache : Cache) : Prop :=
  ∀ series, ∃ contents, (cache.logOf series).Holds contents

variable {cache other : Cache} {settings : CacheSettings} {series : Series} {query : Query}
  {subquery : Subquery} {now : Timestamp}

theorem settings_afterAll (created : Cache.ofSettings settings = .ok cache)
    (events : List CacheEvent) : (cache.afterAll events).settings = settings := by
  rw [← show ((CacheRun.start cache).after events).cache = cache.afterAll events from
    CacheRun.cache_after _ _]
  exact (CacheRun.sound_after created events).under

/-- Whatever happens to a new cache, its logs can be read. -/
theorem legible_afterAll (created : Cache.ofSettings settings = .ok cache)
    (events : List CacheEvent) : (cache.afterAll events).Legible := by
  intro series
  have sound := CacheRun.sound_after created events
  cases found : (cache.afterAll events).held.get? series with
  | none =>
      refine ⟨⟨[], [], []⟩, ?_⟩
      rw [logOf, found]
      exact SeriesLog.holds_empty _
  | some held =>
      rw [← show ((CacheRun.start cache).after events).cache = cache.afterAll events from
        CacheRun.cache_after _ _] at found ⊢
      obtain ⟨contents, holds, _⟩ := sound.logs series held found
      rw [logOf_of_get? found]
      exact ⟨contents, holds⟩

/-- The points held are those that a log has taken and not dropped. -/
theorem kept_eq_pointsHeld {contents : LogContents}
    (holds : (cache.logOf series).Holds contents) : contents.kept = cache.pointsHeld series := by
  obtain ⟨points, read, same⟩ := holds.pointsOf Timestamp.earliest Timestamp.latest
  rw [SeriesLog.filter_isWithin_all, SeriesLog.filter_isWithin_all] at same
  rw [pointsHeld, read, ← same]
  rfl

theorem Legible.ordered (legible : cache.Legible) (series : Series) :
    (cache.pointsHeld series).Pairwise Point.NotAfter := by
  obtain ⟨contents, holds⟩ := legible series
  rw [← kept_eq_pointsHeld holds]
  exact holds.ordered_kept

theorem pointsHeld_of_absent (absent : cache.held.get? series = none) :
    cache.pointsHeld series = [] := by
  rw [pointsHeld, logOf, absent]
  rfl

theorem pointsHeld_of_notMem (absent : series ∉ cache.held.keys) :
    cache.pointsHeld series = [] := by
  refine pointsHeld_of_absent (SortedMap.lookup_eq_none_iff.mpr fun pair member same => ?_)
  exact absent (List.mem_map.mpr ⟨pair, member, same⟩)

/-- Of a log a scan makes what it makes of the points held. -/
theorem Legible.pointsOf (legible : cache.Legible) {scan : Scan} {pair : Series × HeldSeries}
    (member : pair ∈ cache.selected scan) :
    scan.pointsOf pair.1 pair.2 = .ok (pointsBy scan cache.pointsHeld pair.1) := by
  obtain ⟨contents, holds⟩ := legible pair.1
  have kept := kept_eq_pointsHeld holds
  rw [logOf_of_get? (CacheRun.get?_of_mem_selected member).1] at holds
  obtain ⟨values, made⟩ := scan.pointsOf_of_holds holds pair.1
  have same : scan.pointsOf pair.1 pair.2 = scan.madeOf pair.1 (cache.pointsHeld pair.1) := by
    rw [Scan.pointsOf, HeldSeries.entriesWithin_of_holds holds, kept]
    rfl
  rw [pointsBy, ← same, made]
  rfl

/-- Caches answer a scan alike if it makes the same of the points that they hold of each series that
it selects. -/
theorem Legible.answer_scan_eq (legible : cache.Legible) (others : other.Legible) {scan : Scan}
    (same : ∀ series, scan.selects series = true →
      pointsBy scan cache.pointsHeld series = pointsBy scan other.pointsHeld series)
    (divisor : Timestamp) :
    scan.answer divisor (cache.selected scan) = scan.answer divisor (other.selected scan) := by
  have found : cache.foundBy scan (pointsBy scan cache.pointsHeld)
      = other.foundBy scan (pointsBy scan other.pointsHeld) := by
    apply SortedMap.ext_get?
    intro series
    rw [get?_foundBy scan fun series absent => pointsBy_of_nil scan (pointsHeld_of_absent absent),
      get?_foundBy scan fun series absent => pointsBy_of_nil scan (pointsHeld_of_absent absent)]
    cases selects : scan.selects series with
    | true => rw [same series selects]
    | false => simp only [Option.filter_some, Bool.false_and, Bool.false_eq_true, if_false]
  rw [answer_of_foundBy cache scan divisor _ fun _ => legible.pointsOf,
    answer_of_foundBy other scan divisor _ fun _ => others.pointsOf, found]

/-! ## The span of a scan -/

/-- The first timestamp that a subquery is asked about and that is not past retention. -/
def firstAsked (cache : Cache) (query : Query) (subquery : Subquery) (now : Timestamp) :
    Timestamp :=
  max query.start (cache.settings.retention.oldestRetained subquery.metric now)

/-- A scan looks up the span from the first timestamp asked about to the last one, and with buckets
from the start of the first bucket to the end of the last one. -/
theorem scan?_eq {filter : TagFilter} {downsampling : Option Downsampling}
    (compiled : subquery.tagFilter = .ok filter)
    (parsed : subquery.parsedDownsampling = .ok downsampling) :
    cache.scan? query subquery now
      = if query.stop < cache.firstAsked query subquery now then .ok none
        else .ok (some ⟨subquery, filter, downsampling,
          downsampling.elim (cache.firstAsked query subquery now) fun spec =>
            spec.bucketStart (cache.firstAsked query subquery now),
          downsampling.elim query.stop fun spec => spec.bucketEnd query.stop⟩) := by
  rw [scan?, compiled, parsed]
  cases downsampling <;> rfl

/-- There is a scan only if the filter and the buckets can be read and some of the span is left. -/
theorem eq_of_scan? {scan : Scan}
    (scanned : cache.scan? query subquery now = .ok (some scan)) :
    ∃ filter downsampling, subquery.tagFilter = .ok filter
      ∧ subquery.parsedDownsampling = .ok downsampling
      ∧ cache.firstAsked query subquery now ≤ query.stop
      ∧ scan = ⟨subquery, filter, downsampling,
          downsampling.elim (cache.firstAsked query subquery now) fun spec =>
            spec.bucketStart (cache.firstAsked query subquery now),
          downsampling.elim query.stop fun spec => spec.bucketEnd query.stop⟩ := by
  cases compiled : subquery.tagFilter with
  | error failure =>
      rw [scan?, compiled] at scanned
      cases scanned
  | ok filter =>
      cases parsed : subquery.parsedDownsampling with
      | error failure =>
          rw [scan?, compiled, parsed] at scanned
          cases scanned
      | ok downsampling =>
          refine ⟨filter, downsampling, rfl, rfl, ?_⟩
          rw [scan?_eq compiled parsed] at scanned
          split at scanned
          · cases scanned
          case isFalse spans =>
              exact ⟨Int64.not_lt.mp spans, (Option.some.inj (Except.ok.inj scanned)).symm⟩

end TimeSeries.Cache
