import TimeSeries.Proofs.Cache.Holdings

/-!
# Metrics that are not cached

Nothing is held of a metric that is not cached.  Whether a metric is cached is asked before a point
of it is written, and the answer changes at maintenance only: a metric with too many series is
remembered as one that is not cached, and all its series are dropped with it.  So no series of such a
metric is ever held, which each event keeps (`KeepsOut.after`), and a metric once remembered stays so.

Too many are counted among the series that have not expired.  In the course of a maintenance every
open block is archived, blocks past retention are dropped, and then the series that are stale or have
no points left (`Cache.unexpired`); of those that remain maintenance drops the ones whose metric has
more of them than the settings allow, and no others.

Main statement: `Cache.keepsOut_afterAll`.
-/

set_option autoImplicit false

namespace TimeSeries

/-! ## Wide metrics -/

/-- The number of series of a metric. -/
def widthOf (held : SortedMap Series HeldSeries) (metric : String) : Nat :=
  held.keys.countP fun series => series.metric = metric

/-- With a limit, the wide metrics are those with more series than that. -/
theorem contains_wideMetrics {limit : Nat} (limited : 0 < limit)
    (held : SortedMap Series HeldSeries) (metric : String) :
    (wideMetrics limit held).contains metric = true ↔ limit < widthOf held metric := by
  rw [wideMetrics, if_neg (Nat.ne_of_gt limited), SortedMap.contains, SortedMap.get?_mapValues,
    Option.isSome_map, SortedMap.get?_filter, seriesByMetric, SortedMap.get?_foldl_count, widthOf]
  split
  case isTrue nothing => simp [nothing]
  case isFalse => simp [Option.filter]

namespace Cache

/-- The series that a maintenance leaves once those that have expired are dropped. -/
def unexpired (cache : Cache) (now : Timestamp) : SortedMap Series HeldSeries :=
  (cache.archive.held.mapValues fun series held =>
    held.ageOff now (cache.settings.retention.forMetric series.metric)).filter
      fun _ held => !cache.isExpired held now

/-- The metrics that a maintenance stops caching. -/
def discontinued (cache : Cache) (now : Timestamp) : SortedSet String :=
  wideMetrics cache.settings.tagSetLimit (cache.unexpired now)

variable {cache : Cache} {settings : CacheSettings} {series : Series} {now : Timestamp}

theorem held_maintain (cache : Cache) (now : Timestamp) :
    (cache.maintain now).1.held
      = (cache.unexpired now).filter fun series _ =>
        !(cache.discontinued now).contains series.metric := rfl

/-- Maintenance drops the series of the metrics that it stops caching, and no others. -/
theorem get?_held_maintain (cache : Cache) (now : Timestamp) (series : Series) :
    (cache.maintain now).1.held.get? series
      = if (cache.discontinued now).contains series.metric then none
        else (cache.unexpired now).get? series := by
  rw [held_maintain, SortedMap.get?_filter]
  cases (cache.discontinued now).contains series.metric <;>
    cases (cache.unexpired now).get? series <;> rfl

/-- Maintenance remembers the metrics that it stops caching. -/
theorem contains_uncached_maintain (cache : Cache) (now : Timestamp) (metric : String) :
    (cache.maintain now).1.uncached.contains metric = true
      ↔ cache.uncached.contains metric = true
        ∨ (cache.discontinued now).contains metric = true := by
  show ((cache.discontinued now).keys.foldl (fun uncached metric => uncached.insert metric ())
    cache.uncached).contains metric = true ↔ _
  rw [SortedMap.contains_foldl_insert, SortedMap.mem_keys_iff]

/-! ## Nothing is held of them -/

/-- No series of a metric that is not cached is held. -/
def KeepsOut (cache : Cache) : Prop :=
  ∀ series, cache.contains series = true → cache.isUncached series.metric = false

theorem SameScope.isUncached {other : Cache} (same : cache.SameScope other) (metric : String) :
    other.isUncached metric = cache.isUncached metric := by
  rw [Cache.isUncached, Cache.isUncached, same.uncached, same.exclusions]

/-- To remember a metric that is not cached changes nothing about which metrics are. -/
theorem isUncached_ignorePoint {metric : String} (uncached : cache.isUncached metric = true)
    (other : String) :
    (cache.ignorePoint metric).isUncached other = cache.isUncached other := by
  by_cases same : other = metric
  · rw [same, uncached, isUncached, ignorePoint, SortedMap.contains, SortedMap.get?_insert,
      if_pos rfl]
    rfl
  · rw [isUncached, isUncached, ignorePoint, SortedMap.contains, SortedMap.get?_insert,
      if_neg same]
    rfl

/-- Maintenance adds the metrics that it stops caching to those that are not cached. -/
theorem isUncached_maintain (cache : Cache) (now : Timestamp) (metric : String) :
    (cache.maintain now).1.isUncached metric = true
      ↔ cache.isUncached metric = true ∨ (cache.discontinued now).contains metric = true := by
  rw [isUncached, Bool.or_eq_true, contains_uncached_maintain, isUncached, Bool.or_eq_true,
    or_right_comm]
  rfl

/-- A store holds its series besides those that were held, if it is of a metric that is cached. -/
theorem contains_of_contains_store (cached : cache.isUncached series.metric = false)
    {point : Point} {wanted : Series}
    (contained : (cache.store series point).1.contains wanted = true) :
    wanted = series ∨ cache.contains wanted = true := by
  cases found : cache.held.get? series with
  | some held =>
      rw [store_of_held cached found, contains_written, Bool.or_eq_true, decide_eq_true_iff]
        at contained
      exact contained
  | none =>
      rw [store_of_absent cached found, contains_written, Bool.or_eq_true, decide_eq_true_iff]
        at contained
      refine contained.imp_right fun before => ?_
      obtain ⟨held, there⟩ := Option.isSome_iff_exists.mp before
      exact contains_of_get? (get?_makeRoom there)

/-- Every event keeps metrics out that are not cached. -/
theorem KeepsOut.after (keepsOut : cache.KeepsOut) (event : CacheEvent) :
    (cache.after event).KeepsOut := by
  intro wanted contained
  cases event with
  | store series point =>
      rw [Cache.after] at contained ⊢
      cases cached : cache.isUncached series.metric with
      | true =>
          rw [store_of_uncached cached] at contained ⊢
          rw [isUncached_ignorePoint cached]
          exact keepsOut wanted contained
      | false =>
          rw [(sameScope_store cached point).isUncached]
          rcases contains_of_contains_store cached contained with rfl | before
          · exact cached
          · exact keepsOut wanted before
  | ask query now =>
      rw [Cache.after] at contained ⊢
      rw [(cache.sameScope_ask query now).isUncached]
      rw [ask_eq_foldl_touch, (cache.sameKeys_foldl_touch _).contains] at contained
      exact keepsOut wanted contained
  | maintain now =>
      obtain ⟨held, found⟩ := Option.isSome_iff_exists.mp contained
      obtain ⟨kept, before, _⟩ := CacheRun.get?_maintain found
      have found : (cache.maintain now).1.held.get? wanted = some held := found
      rw [get?_held_maintain] at found
      rw [← Bool.not_eq_true, Cache.after, isUncached_maintain, not_or, Bool.not_eq_true]
      refine ⟨keepsOut wanted (contains_of_get? before), fun wide => ?_⟩
      rw [if_pos wide] at found
      cases found
  | shutdown =>
      have found : (cache.archive.held.get? wanted).isSome := contained
      rw [archive, SortedMap.get?_mapValues, Option.isSome_map] at found
      exact keepsOut wanted found

/-- A metric once remembered stays so. -/
theorem contains_uncached_after {metric : String} (known : cache.uncached.contains metric = true)
    (event : CacheEvent) : (cache.after event).uncached.contains metric = true := by
  cases event with
  | store series point =>
      rw [after]
      cases cached : cache.isUncached series.metric with
      | true =>
          rw [store_of_uncached cached, ignorePoint, SortedMap.contains, SortedMap.get?_insert]
          split
          · rfl
          · exact known
      | false => rwa [(sameScope_store cached point).uncached]
  | ask query now => rwa [after, (cache.sameScope_ask query now).uncached]
  | maintain now => exact (contains_uncached_maintain cache now metric).mpr (Or.inl known)
  | shutdown => exact known

theorem contains_uncached_afterAll {metric : String}
    (known : cache.uncached.contains metric = true) (events : List CacheEvent) :
    (cache.afterAll events).uncached.contains metric = true := by
  induction events generalizing cache with
  | nil => exact known
  | cons event events ih => exact ih (contains_uncached_after known event)

/-- No event changes which names are never cached. -/
theorem exclusions_after (cache : Cache) (event : CacheEvent) :
    (cache.after event).exclusions = cache.exclusions := by
  cases event with
  | store series point =>
      cases cached : cache.isUncached series.metric with
      | true => rw [after, store_of_uncached cached]; rfl
      | false => exact (sameScope_store cached point).exclusions
  | ask query now => exact (cache.sameScope_ask query now).exclusions
  | maintain now => rfl
  | shutdown => rfl

/-- The patterns of the settings are never changed, and nothing is held of a metric that is not
cached. -/
theorem keepsOut_of_run (created : Cache.ofSettings settings = .ok cache)
    (events : List CacheEvent) :
    settings.exclusions = .ok (cache.afterAll events).exclusions
      ∧ (cache.afterAll events).KeepsOut := by
  induction events using List.reverseRecOn with
  | nil =>
      obtain ⟨_, patterns, read, rfl⟩ := CacheRun.eq_of_ofSettings created
      refine ⟨read, fun series contained => ?_⟩
      cases contained
  | append_singleton events event ih =>
      rw [afterAll_concat, exclusions_after]
      exact ⟨ih.1, ih.2.after event⟩

/-! ## What is done about them -/

/-- The store of a point of a metric that is not cached: it is no failure, and counts. -/
structure Ignores (cache : Cache) (series : Series) (point : Point) : Prop where
  fine : (cache.store series point).2 = .ok ()
  held : (cache.store series point).1.held = cache.held
  counted : (cache.store series point).1.counters
    = { cache.counters with pointsUncached := cache.counters.pointsUncached + 1 }

theorem ignores_of_uncached (uncached : cache.isUncached series.metric = true) (point : Point) :
    cache.Ignores series point := by
  have ignored := store_of_uncached uncached point
  exact ⟨by rw [ignored], by rw [ignored]; rfl, by rw [ignored]; rfl⟩

/-- A maintenance that stops caching some metrics. -/
structure Discontinues (cache : Cache) (now : Timestamp) (metrics : List String) : Prop where
  distinct : metrics.Nodup
  /-- They are those with too many series that have not expired. -/
  wide : ∀ metric, metric ∈ metrics
    ↔ cache.settings.tagSetLimit < widthOf (cache.unexpired now) metric
  reported : (cache.maintain now).2.discontinued = metrics.length
  remembered : ∀ metric, (cache.maintain now).1.uncached.contains metric = true
    ↔ cache.uncached.contains metric = true ∨ metric ∈ metrics
  dropped : ∀ series, series.metric ∈ metrics → (cache.maintain now).1.contains series = false
  others : ∀ series, series.metric ∉ metrics →
    (cache.maintain now).1.held.get? series = (cache.unexpired now).get? series
  narrow : ∀ metric, widthOf (cache.maintain now).1.held metric ≤ cache.settings.tagSetLimit

/-- With a limit, maintenance stops caching the wide metrics. -/
theorem discontinues (limited : 0 < cache.settings.tagSetLimit) (now : Timestamp) :
    cache.Discontinues now (cache.discontinued now).keys := by
  have wide : ∀ metric, (cache.discontinued now).contains metric = true
      ↔ cache.settings.tagSetLimit < widthOf (cache.unexpired now) metric :=
    contains_wideMetrics limited (cache.unexpired now)
  refine ⟨SortedMap.nodup_keys _, fun metric => ?_, SortedMap.size_eq_length_keys _,
    fun metric => ?_, fun series among => ?_, fun series apart => ?_, fun metric => ?_⟩
  · rw [SortedMap.mem_keys_iff, wide]
  · rw [contains_uncached_maintain, SortedMap.mem_keys_iff]
  · rw [contains_eq_false_iff, get?_held_maintain, if_pos (SortedMap.mem_keys_iff.mp among)]
  · rw [get?_held_maintain, if_neg (mt SortedMap.mem_keys_iff.mpr apart)]
  · rw [widthOf, held_maintain, SortedMap.keys_filter, List.countP_filter]
    by_cases among : (cache.discontinued now).contains metric = true
    · refine (List.countP_eq_zero.mpr fun series _ both => ?_).trans_le (Nat.zero_le _)
      rw [Bool.and_eq_true, decide_eq_true_iff, Bool.not_eq_true'] at both
      rw [both.1, among] at both
      cases both.2
    · refine (List.countP_mono_left fun series _ both => ?_).trans
        (Nat.not_lt.mp (mt (wide metric).mpr among))
      exact (Bool.and_eq_true _ _ ▸ both).1

/-- **Metrics that are not cached** stay out of a cache, whatever happens to it.  No series of a
metric is held whose name the patterns of the settings find or that is remembered as not cached; a
metric once remembered stays so; and a point of such a metric is counted and changes nothing that is
held.  With a limit on the series of a metric, every maintenance stops caching just the metrics that
exceed it. -/
theorem keepsOut_afterAll (created : Cache.ofSettings settings = .ok cache)
    (events : List CacheEvent) :
    let reached := cache.afterAll events
    settings.exclusions = .ok reached.exclusions
      ∧ reached.KeepsOut
      ∧ (∀ metric later, reached.uncached.contains metric = true →
        (reached.afterAll later).uncached.contains metric = true)
      ∧ (∀ series point, reached.isUncached series.metric = true → reached.Ignores series point)
      ∧ (0 < settings.tagSetLimit →
        ∀ now, reached.Discontinues now (reached.discontinued now).keys) := by
  intro reached
  obtain ⟨exclusions, keepsOut⟩ := keepsOut_of_run created events
  refine ⟨exclusions, keepsOut, fun _ later known => contains_uncached_afterAll known later,
    fun series point uncached => ignores_of_uncached uncached point, fun limited now => ?_⟩
  rw [← settings_afterAll created events] at limited
  exact discontinues limited now

/-- Of two metrics with a limit of one series, a maintenance stops caching the one that has two. -/
theorem keepsOut_afterAll_of_wide :
    let settings : CacheSettings :=
      { CacheSettings.standard with excludedMetrics := ["sys.*"], tagSetLimit := 1 }
    let events : List CacheEvent := [.store (.ofMetric "sys.cpu") ⟨5, ⟨1⟩⟩,
      .store (.ofTags "load" [("host", "a")]) ⟨5, ⟨2⟩⟩,
      .store (.ofTags "load" [("host", "b")]) ⟨5, ⟨3⟩⟩, .store (.ofMetric "heat") ⟨5, ⟨4⟩⟩]
    ∃ cache, Cache.ofSettings settings = .ok cache
      ∧ (cache.afterAll events).KeepsOut
      ∧ (cache.afterAll events).Ignores (.ofMetric "sys.cpu") ⟨6, ⟨1⟩⟩
      ∧ (cache.afterAll events).Discontinues 10 ["load"] := by
  intro settings events
  obtain ⟨cache, created⟩ : ∃ cache, Cache.ofSettings settings = .ok cache := ⟨_, rfl⟩
  obtain ⟨_, keepsOut, _, ignores, discontinues⟩ := keepsOut_afterAll created events
  refine ⟨cache, created, keepsOut, ignores _ _ ?_, ?_⟩
  · cases created
    decide +kernel
  · have wide : ((cache.afterAll events).discontinued 10).keys = ["load"] := by
      cases created
      decide +kernel
    rw [← wide]
    exact discontinues (by decide) 10

end Cache

end TimeSeries
