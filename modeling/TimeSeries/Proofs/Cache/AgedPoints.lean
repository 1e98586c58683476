import TimeSeries.Proofs.Buckets.Grid
import TimeSeries.Proofs.Cache.Holdings

/-!
# Aged points in answers

A query is asked about no timestamp that is past retention, but with buckets it looks up whole ones.
The bucket that holds the cutoff may begin before it, and then the aged points in this part of the
bucket are looked up as well, as long as no maintenance has dropped them.  No other aged point has
any influence on the answer, whatever is asked for.

Stated for two caches: if both hold the same points that are retained, and the same aged points of
the buckets that are cut (`Subquery.overreaches`), both give the same answer.  Without buckets
nothing is overreached, nor where the bucket of the first timestamp asked about begins at the cutoff
or behind it (`Cache.sameOverreached_of_uncut`).

Main statement: `Cache.ask_of_sameRetained`.
-/

set_option autoImplicit false

namespace TimeSeries

/-! ## Points around the cutoff -/

/-- Nothing lies between a timestamp and an earlier one. -/
theorem Timestamp.not_between {start stop : Timestamp} (empty : stop ≤ start)
    (timestamp : Timestamp) :
    (decide (start ≤ timestamp) && decide (timestamp < stop)) = false := by
  rw [Bool.and_eq_false_iff, decide_eq_false_iff_not, decide_eq_false_iff_not, Int64.not_lt,
    ← imp_iff_not_or]
  exact fun behind => Int64.le_trans empty behind

/-- Points in time order are those before a cutoff, and then the others. -/
theorem Point.filter_isSince_append {points : List Point} (ordered : points.Pairwise Point.NotAfter)
    (cutoff : Timestamp) :
    (points.filter fun point => !point.isSince cutoff) ++ points.filter (Point.isSince cutoff)
      = points := by
  have inOrder : points.Pairwise fun first second =>
      (!second.isSince cutoff) = true → (!first.isSince cutoff) = true := by
    refine ordered.imp fun {first second} notAfter before => ?_
    simp only [isSince, Bool.not_eq_true', decide_eq_false_iff_not, Int64.not_le] at before ⊢
    exact Int64.lt_of_le_of_lt notAfter before
  calc (points.filter fun point => !point.isSince cutoff) ++ points.filter (isSince cutoff)
      = (points.takeWhile fun point => !point.isSince cutoff)
          ++ points.dropWhile fun point => !point.isSince cutoff := by
        rw [SortedEntries.takeWhile_eq_filter inOrder, SortedEntries.dropWhile_eq_filter inOrder]
        simp only [Bool.not_not]
    _ = points := List.takeWhile_append_dropWhile

/-- The points of a span are those of its part before a cutoff, and then the others. -/
theorem Point.filter_isWithin {points : List Point} (ordered : points.Pairwise Point.NotAfter)
    (cutoff start stop : Timestamp) :
    points.filter (Point.isWithin start stop)
      = (points.filter fun point => start ≤ point.timestamp && point.timestamp < cutoff).filter
          (Point.isWithin start stop)
        ++ (points.filter (Point.isSince cutoff)).filter (Point.isWithin start stop) := by
  conv_lhs => rw [← filter_isSince_append ordered cutoff, List.filter_append]
  congr 1
  rw [List.filter_filter, List.filter_filter]
  refine List.filter_congr fun point _ => ?_
  rw [Bool.eq_iff_iff]
  simp only [Point.isWithin, Point.isSince, Bool.and_eq_true, decide_eq_true_eq, Bool.not_eq_true',
    decide_eq_false_iff_not, Int64.not_le]
  constructor
  · rintro ⟨within, before⟩
    exact ⟨within, within.1, before⟩
  · rintro ⟨within, _, before⟩
    exact ⟨within, before⟩

/-! ## What a subquery overreaches -/

/-- The point is past retention, but lies in the bucket of the first timestamp that the subquery is
asked about, so it is looked up with the rest of the bucket. -/
def Subquery.overreaches (subquery : Subquery) (asked oldest : Timestamp) (point : Point) : Bool :=
  match subquery.parsedDownsampling with
  | .ok (some spec) => spec.bucketStart asked ≤ point.timestamp && point.timestamp < oldest
  | _ => false

/-- Where a bucket begins at the cutoff or behind it, nothing before the cutoff is looked up. -/
theorem Subquery.overreaches_of_le {subquery : Subquery} {asked oldest : Timestamp}
    (uncut : ∀ spec, subquery.parsedDownsampling = .ok (some spec) →
      oldest ≤ spec.bucketStart asked) (point : Point) :
    subquery.overreaches asked oldest point = false := by
  unfold overreaches
  split
  case _ spec parsed => exact Timestamp.not_between (uncut spec parsed) point.timestamp
  · rfl

namespace Cache

/-- Both caches hold the same points of each series that are retained at a given time. -/
def SameRetained (cache other : Cache) (now : Timestamp) : Prop :=
  ∀ series,
    (cache.pointsHeld series).filter
        (Point.isSince (cache.settings.retention.oldestRetained series.metric now))
      = (other.pointsHeld series).filter
        (Point.isSince (cache.settings.retention.oldestRetained series.metric now))

/-- Both caches hold the same aged points in the buckets that the subqueries look up. -/
def SameOverreached (cache other : Cache) (query : Query) (now : Timestamp) : Prop :=
  ∀ subquery ∈ query.subqueries, ∀ series, series.metric = subquery.metric →
    (cache.pointsHeld series).filter (subquery.overreaches (cache.firstAsked query subquery now)
        (cache.settings.retention.oldestRetained subquery.metric now))
      = (other.pointsHeld series).filter (subquery.overreaches (cache.firstAsked query subquery now)
        (cache.settings.retention.oldestRetained subquery.metric now))

variable {cache other : Cache} {settings : CacheSettings} {query : Query} {subquery : Subquery}
  {now : Timestamp}

/-- Nothing is overreached without buckets, nor where the first bucket does not begin before the
cutoff. -/
theorem sameOverreached_of_uncut (cache other : Cache)
    (uncut : ∀ subquery ∈ query.subqueries, ∀ spec,
      subquery.parsedDownsampling = .ok (some spec) →
        cache.settings.retention.oldestRetained subquery.metric now
          ≤ spec.bucketStart (cache.firstAsked query subquery now)) :
    cache.SameOverreached other query now := by
  intro subquery among series _
  rw [List.filter_eq_nil_iff.mpr, List.filter_eq_nil_iff.mpr]
  all_goals
    intro point _
    rw [Subquery.overreaches_of_le (uncut subquery among)]
    exact Bool.false_ne_true

/-- The aged points that a scan looks up of a series are those that the subquery overreaches. -/
theorem filter_aged_scan (overreached : cache.SameOverreached other query now)
    (among : subquery ∈ query.subqueries) {scan : Scan}
    (scanned : cache.scan? query subquery now = .ok (some scan)) {series : Series}
    (metric : series.metric = subquery.metric) {oldest : Timestamp}
    (cutoff : cache.settings.retention.oldestRetained subquery.metric now = oldest) :
    ((cache.pointsHeld series).filter fun point =>
        scan.start ≤ point.timestamp && point.timestamp < oldest)
      = (other.pointsHeld series).filter fun point =>
        scan.start ≤ point.timestamp && point.timestamp < oldest := by
  obtain ⟨filter, downsampling, _, parsed, _, same⟩ := eq_of_scan? scanned
  cases downsampling with
  | none =>
      -- the scan starts at the first timestamp asked about, which is not before the cutoff
      have start : oldest ≤ scan.start := by
        rw [same, ← cutoff]
        exact (Timestamp.max_le_iff.mp (Int64.le_refl _)).2
      simp only [Timestamp.not_between start, List.filter_false]
  | some spec =>
      have overreaches : subquery.overreaches (cache.firstAsked query subquery now) oldest
          = fun point => scan.start ≤ point.timestamp && point.timestamp < oldest := by
        funext point
        rw [Subquery.overreaches, parsed, same]
        rfl
      have agreed := overreached subquery among series metric
      rw [cutoff, overreaches] at agreed
      exact agreed

/-- What a scan looks up of a series is told by the points that are retained and those that the
subquery overreaches. -/
theorem filter_isWithin_scan (legible : cache.Legible) (others : other.Legible)
    (retained : cache.SameRetained other now) (overreached : cache.SameOverreached other query now)
    (among : subquery ∈ query.subqueries) {scan : Scan}
    (scanned : cache.scan? query subquery now = .ok (some scan)) {series : Series}
    (metric : series.metric = subquery.metric) :
    (cache.pointsHeld series).filter (Point.isWithin scan.start scan.stop)
      = (other.pointsHeld series).filter (Point.isWithin scan.start scan.stop) := by
  have since := retained series
  rw [metric] at since
  rw [Point.filter_isWithin (legible.ordered series)
      (cache.settings.retention.oldestRetained subquery.metric now),
    Point.filter_isWithin (others.ordered series)
      (cache.settings.retention.oldestRetained subquery.metric now),
    filter_aged_scan overreached among scanned metric rfl, since]

/-- **Aged points in answers.**  Two caches under the same settings that hold the same points that
are retained, and the same aged points in the buckets that a query cuts, give the same answer,
whatever else they hold that is past retention. -/
theorem ask_of_sameRetained (created : Cache.ofSettings settings = .ok cache)
    {events others : List CacheEvent}
    (retained : (cache.afterAll events).SameRetained (cache.afterAll others) now)
    (overreached : (cache.afterAll events).SameOverreached (cache.afterAll others) query now) :
    ((cache.afterAll events).ask query now).2 = ((cache.afterAll others).ask query now).2 := by
  have legible := legible_afterAll created events
  have othersLegible := legible_afterAll created others
  have under : (cache.afterAll others).settings = (cache.afterAll events).settings := by
    rw [settings_afterAll created, settings_afterAll created]
  refine answer_eq_of_scans under fun subquery among scan scanned => ?_
  refine legible.answer_scan_eq othersLegible (fun series selects => ?_) query.divisor
  rw [Scan.selects, Bool.and_eq_true, beq_iff_eq] at selects
  have metric : scan.subquery.metric = subquery.metric := by
    obtain ⟨_, _, _, _, _, same⟩ := eq_of_scan? scanned
    rw [same]
  rw [pointsBy, pointsBy, Scan.madeOf, Scan.madeOf,
    filter_isWithin_scan legible othersLegible retained overreached among scanned
      (selects.1.trans metric)]

/-- Two aged points outside the bucket of the cutoff make no difference to rates and sums; the one
inside is the same in both caches. -/
theorem ask_of_sameRetained_of_aged :
    let settings : CacheSettings := { CacheSettings.standard with retention := .ofDefault 1000 }
    let series : Series := .ofMetric "load"
    let buckets : Subquery := { Subquery.ofMetric "load" with downsampling := some "1s-sum" }
    let query : Query := ⟨0, 2500, true, [(Subquery.ofMetric "load").withRate .standard, buckets]⟩
    ∃ cache, Cache.ofSettings settings = .ok cache
      ∧ ((cache.afterAll [.store series ⟨100, ⟨1⟩⟩, .store series ⟨1200, ⟨2⟩⟩,
          .store series ⟨1600, ⟨3⟩⟩]).ask query 2500).2
        = ((cache.afterAll [.store series ⟨300, ⟨4⟩⟩, .store series ⟨1200, ⟨2⟩⟩,
          .store series ⟨1600, ⟨3⟩⟩]).ask query 2500).2 := by
  intro settings series buckets query
  have created : Cache.ofSettings settings
      = .ok ⟨settings, [], .empty, .empty, 0, ⟨0, 0, 0, 0, 0, 0⟩⟩ := rfl
  let cache : Cache := ⟨settings, [], .empty, .empty, 0, ⟨0, 0, 0, 0, 0, 0⟩⟩
  let events : List CacheEvent :=
    [.store series ⟨100, ⟨1⟩⟩, .store series ⟨1200, ⟨2⟩⟩, .store series ⟨1600, ⟨3⟩⟩]
  let others : List CacheEvent :=
    [.store series ⟨300, ⟨4⟩⟩, .store series ⟨1200, ⟨2⟩⟩, .store series ⟨1600, ⟨3⟩⟩]
  have only : ∀ wanted, wanted ≠ series → (cache.afterAll events).pointsHeld wanted = []
      ∧ (cache.afterAll others).pointsHeld wanted = [] := by
    have held : (cache.afterAll events).held.keys = [series]
        ∧ (cache.afterAll others).held.keys = [series] := by decide +kernel
    intro wanted apart
    exact ⟨pointsHeld_of_notMem (by rw [held.1]; simpa using apart),
      pointsHeld_of_notMem (by rw [held.2]; simpa using apart)⟩
  have retained : (cache.afterAll events).SameRetained (cache.afterAll others) 2500 := by
    intro wanted
    by_cases here : wanted = series
    · subst here
      decide +kernel
    · rw [(only wanted here).1, (only wanted here).2]
  have overreached : (cache.afterAll events).SameOverreached (cache.afterAll others) query 2500 := by
    intro subquery among wanted _
    by_cases here : wanted = series
    · subst here
      revert subquery
      decide +kernel
    · rw [(only wanted here).1, (only wanted here).2]
  exact ⟨cache, created, ask_of_sameRetained created retained overreached⟩

end Cache

end TimeSeries
