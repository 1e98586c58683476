import TimeSeries.Proofs.Cache.Listings

/-!
# Interleaved series

Stores of different series have nothing to do with each other in a cache that holds as many series
as there are: each changes the log of its own series, and the counters only count.  The moments of
admissions and writes do depend on the order of stores, but only eviction looks at them.  So what
else a cache holds and has counted (`CacheContents`) is the same after two stores of different
series in either order, and by moving stores past each other, after any two histories in which each
series has the same stores in the same order.

Answers and the status can be told from these contents.

Main statement: `Cache.interchangeable_of_interleaved`.
-/

set_option autoImplicit false

namespace TimeSeries

/-! ## Steps in either order -/

section Steps

variable {σ α κ : Type} {step : σ → α → σ} {name : α → κ}

/-- A step commutes with the steps of other names. -/
def Commutes (step : σ → α → σ) (name : α → κ) : Prop :=
  ∀ state first second, name first ≠ name second →
    step (step state first) second = step (step state second) first

/-- A step moves to the front of steps of other names. -/
theorem Commutes.foldl_step (commutes : Commutes step name) {item : α} (before : List α)
    (others : ∀ other ∈ before, name other ≠ name item) (state : σ) :
    step (before.foldl step state) item = before.foldl step (step state item) := by
  induction before generalizing state with
  | nil => rfl
  | cons other before ih =>
      obtain ⟨apart, others⟩ := List.forall_mem_cons.mp others
      rw [List.foldl_cons, ih others, List.foldl_cons, commutes state other item apart]

/-- **Interleaved steps.**  Where the steps of each name are the same, in the same order, the steps
of all names lead to the same state. -/
theorem Commutes.foldl_eq [DecidableEq κ] (commutes : Commutes step name) {first second : List α}
    (same : ∀ key, (first.filter fun item => name item = key)
      = second.filter fun item => name item = key) (state : σ) :
    first.foldl step state = second.foldl step state := by
  induction first generalizing second state with
  | nil =>
      have nothing : second = [] := by
        rw [List.eq_nil_iff_forall_not_mem]
        intro item member
        have own : item ∈ second.filter fun other => name other = name item :=
          List.mem_filter.mpr ⟨member, decide_eq_true rfl⟩
        rw [← same, List.filter_nil] at own
        cases own
      rw [nothing]
  | cons item first ih =>
      -- the first step is the first of its name in the other history, too
      have own := same (name item)
      rw [List.filter_cons_of_pos (by simp), eq_comm, List.filter_eq_cons_iff] at own
      obtain ⟨before, after, rfl, others, _, rest⟩ := own
      have apart : ∀ other ∈ before, name other ≠ name item := by
        intro other member here
        exact others other member (decide_eq_true here)
      rw [List.foldl_cons, List.foldl_append, List.foldl_cons, commutes.foldl_step before apart,
        ← List.foldl_append]
      refine ih (fun key => ?_) (step state item)
      by_cases here : name item = key
      · subst here
        rw [List.filter_append, List.filter_eq_nil_iff.mpr others, List.nil_append, rest]
      · have elsewhere := same key
        rw [List.filter_cons_of_neg (by simpa using here), List.filter_append,
          List.filter_cons_of_neg (by simpa using here), ← List.filter_append] at elsewhere
        exact elsewhere

end Steps

/-! ## Contents -/

/-- Keys are set in either order, unless one key is set to different values. -/
theorem SortedMap.insert_comm {κ ν : Type} [Ord κ] [Std.TransOrd κ] [Std.LawfulEqOrd κ]
    [DecidableEq κ] (map : SortedMap κ ν) {first second : κ} (value another : ν)
    (agree : first = second → value = another) :
    (map.insert first value).insert second another
      = (map.insert second another).insert first value := by
  apply ext_get?
  intro key
  rw [get?_insert, get?_insert, get?_insert, get?_insert]
  by_cases here : key = second
  · by_cases there : key = first
    · rw [if_pos here, if_pos there, agree (there.symm.trans here)]
    · rw [if_pos here, if_neg there, if_pos here]
  · rw [if_neg here, if_neg here]

/-- What becomes of a point that is stored. -/
inductive Reception where
  | ignored
  | taken
  | refused
  deriving DecidableEq, Repr

/-- Counts a point. -/
def CacheCounters.receive (counters : CacheCounters) : Reception → CacheCounters
  | .ignored => { counters with pointsUncached := counters.pointsUncached + 1 }
  | .taken => { counters with pointsStored := counters.pointsStored + 1 }
  | .refused => { counters with pointsRejected := counters.pointsRejected + 1 }

theorem CacheCounters.receive_comm (counters : CacheCounters) (first second : Reception) :
    (counters.receive first).receive second = (counters.receive second).receive first := by
  cases first <;> cases second <;> rfl

/-- What a cache holds and has counted, without the moments of its events. -/
@[ext] structure CacheContents where
  settings : CacheSettings
  exclusions : List Pattern
  logs : SortedMap Series SeriesLog
  uncached : SortedSet String
  counters : CacheCounters

namespace CacheContents

/-- Points of the metric are not kept. -/
def isUncached (contents : CacheContents) (metric : String) : Bool :=
  contents.uncached.contains metric
    || contents.exclusions.any fun pattern => pattern.isFoundIn metric

/-- The log of a series; a series that is not held has one without points. -/
def logOf (contents : CacheContents) (series : Series) : SeriesLog :=
  (contents.logs.get? series).getD (.empty contents.settings.blockLimit)

/-- What becomes of a point. -/
def reception (contents : CacheContents) (series : Series) (point : Point) : Reception :=
  if contents.isUncached series.metric then .ignored
  else if ((contents.logOf series).add point).isOk then .taken
  else .refused

/-- The log of a series after a point was offered to it. -/
def offered (contents : CacheContents) (series : Series) (point : Point) : SeriesLog :=
  ((contents.logOf series).add point).toOption.getD (contents.logOf series)

/-- The contents after a store. -/
def store (contents : CacheContents) (series : Series) (point : Point) : CacheContents :=
  { contents with
    logs := if contents.isUncached series.metric then contents.logs
      else contents.logs.insert series (contents.offered series point)
    uncached := if contents.isUncached series.metric then contents.uncached.insert series.metric ()
      else contents.uncached
    counters := contents.counters.receive (contents.reception series point) }

/-- The status that contents tell. -/
def status (contents : CacheContents) : CacheStatus where
  series := contents.logs.size
  metrics := (SortedSet.ofElements (contents.logs.keys.map Series.metric)).keys
  uncachedMetrics := contents.uncached.keys
  points := total (contents.logs.values.map SeriesLog.size)
  archivedBlocks := total (contents.logs.values.map fun log => log.archived.length)
  byteSize := total (contents.logs.values.map SeriesLog.byteSize)
  oldest := (contents.logs.values.filterMap SeriesLog.oldest?).min?
  newest := (contents.logs.values.filterMap SeriesLog.newest).max?
  counters := contents.counters

variable {contents : CacheContents} {series other : Series}

/-- A store changes nothing about which metrics are cached: it remembers only one that is not. -/
theorem isUncached_store (contents : CacheContents) (series : Series) (point : Point)
    (metric : String) :
    (contents.store series point).isUncached metric = contents.isUncached metric := by
  show ((if contents.isUncached series.metric then contents.uncached.insert series.metric ()
    else contents.uncached).contains metric || _) = _
  split
  case isTrue uncached =>
      rw [SortedMap.contains, SortedMap.get?_insert]
      split
      case isTrue here => rw [here, uncached, Option.isSome_some, Bool.true_or]
      case isFalse => rfl
  case isFalse => rfl

/-- A store leaves the logs of other series alone. -/
theorem logOf_store_of_ne (apart : other ≠ series) (point : Point) :
    (contents.store series point).logOf other = contents.logOf other := by
  show ((if contents.isUncached series.metric then contents.logs
    else contents.logs.insert series (contents.offered series point)).get? other).getD _ = _
  split
  · rfl
  · rw [SortedMap.get?_insert, if_neg apart]
    rfl

theorem offered_store_of_ne (apart : other ≠ series) (point another : Point) :
    (contents.store series point).offered other another = contents.offered other another := by
  rw [offered, logOf_store_of_ne apart, offered]

theorem reception_store_of_ne (apart : other ≠ series) (point another : Point) :
    (contents.store series point).reception other another = contents.reception other another := by
  rw [reception, isUncached_store, logOf_store_of_ne apart, reception]

theorem logs_store_comm (apart : series ≠ other) (point another : Point) :
    ((contents.store series point).store other another).logs
      = ((contents.store other another).store series point).logs := by
  show (if (contents.store series point).isUncached other.metric then _ else
      SortedMap.insert _ other ((contents.store series point).offered other another))
    = if (contents.store other another).isUncached series.metric then _ else
      SortedMap.insert _ series ((contents.store other another).offered series point)
  rw [isUncached_store, isUncached_store, offered_store_of_ne (Ne.symm apart),
    offered_store_of_ne apart]
  simp only [store]
  by_cases one : contents.isUncached series.metric = true
  · simp only [one, if_true]
  · by_cases two : contents.isUncached other.metric = true
    · simp only [two, if_true]
    · simp only [one, two]
      exact SortedMap.insert_comm _ _ _ fun same => absurd same apart

theorem uncached_store_comm (contents : CacheContents) (series other : Series)
    (point another : Point) :
    ((contents.store series point).store other another).uncached
      = ((contents.store other another).store series point).uncached := by
  show (if (contents.store series point).isUncached other.metric then
      SortedMap.insert _ other.metric () else _)
    = if (contents.store other another).isUncached series.metric then
      SortedMap.insert _ series.metric () else _
  rw [isUncached_store, isUncached_store]
  simp only [store]
  by_cases one : contents.isUncached series.metric = true
  · by_cases two : contents.isUncached other.metric = true
    · simp only [one, two, if_true]
      exact SortedMap.insert_comm _ _ _ fun _ => rfl
    · simp only [one, two, if_true, Bool.false_eq_true, if_false]
  · simp only [one, Bool.false_eq_true, if_false]

theorem counters_store_comm (apart : series ≠ other) (point another : Point) :
    ((contents.store series point).store other another).counters
      = ((contents.store other another).store series point).counters := by
  show CacheCounters.receive _ ((contents.store series point).reception other another)
    = CacheCounters.receive _ ((contents.store other another).reception series point)
  rw [reception_store_of_ne (Ne.symm apart), reception_store_of_ne apart]
  exact CacheCounters.receive_comm _ _ _

/-- **Stores of different series commute.** -/
theorem store_comm (apart : series ≠ other) (point another : Point) :
    (contents.store series point).store other another
      = (contents.store other another).store series point :=
  CacheContents.ext rfl rfl (logs_store_comm apart point another)
    (uncached_store_comm contents series other point another)
    (counters_store_comm apart point another)

end CacheContents

namespace Cache

/-- What a cache holds and has counted. -/
def contents (cache : Cache) : CacheContents :=
  ⟨cache.settings, cache.exclusions, cache.held.mapValues fun _ held => held.log, cache.uncached,
    cache.counters⟩

variable {cache other : Cache} {settings : CacheSettings}

theorem logOf_contents (cache : Cache) (series : Series) :
    cache.contents.logOf series = cache.logOf series := by
  rw [CacheContents.logOf, logOf, contents, SortedMap.get?_mapValues]

theorem counters_write (cache : Cache) (series : Series) (held : HeldSeries) (point : Point) :
    (cache.write series held point).1.counters
      = cache.counters.receive (if (held.log.add point).isOk then .taken else .refused) := by
  rw [write]
  cases held.log.add point <;> rfl

/-- Writing offers a point to the log of the series and counts it. -/
theorem contents_write (cache : Cache) (series : Series) (held : HeldSeries) (point : Point) :
    (cache.write series held point).1.contents
      = { cache.contents with
          logs := cache.contents.logs.insert series
            ((held.log.add point).toOption.getD held.log)
          counters := cache.contents.counters.receive
            (if (held.log.add point).isOk then .taken else .refused) } := by
  have scope := cache.sameScope_write series held point
  refine CacheContents.ext scope.settings scope.exclusions ?_ scope.uncached
    (cache.counters_write series held point)
  apply SortedMap.ext_get?
  intro wanted
  show ((cache.write series held point).1.held.mapValues fun _ held => held.log).get? wanted = _
  rw [SortedMap.get?_mapValues, get?_write, SortedMap.get?_insert]
  split
  · rfl
  · exact (SortedMap.get?_mapValues (fun _ held => held.log) cache.held wanted).symm

/-- Where nothing limits the number of series, a store of a cache is one of its contents. -/
theorem contents_store (unlimited : cache.settings.seriesLimit = 0) (series : Series)
    (point : Point) : (cache.store series point).1.contents = cache.contents.store series point := by
  cases uncached : cache.isUncached series.metric with
  | true =>
      have same : cache.contents.isUncached series.metric = true := uncached
      rw [store_of_uncached uncached]
      simp only [CacheContents.store, CacheContents.reception, same, if_true]
      rfl
  | false =>
      have same : cache.contents.isUncached series.metric = false := uncached
      obtain ⟨target, held, stored, sameHeld, scope, counters, log⟩ :=
        exists_write unlimited uncached point
      have before : target.contents = cache.contents :=
        CacheContents.ext scope.settings scope.exclusions (by rw [contents, sameHeld]; rfl)
          scope.uncached counters
      rw [stored, contents_write, before, log, ← logOf_contents]
      simp only [CacheContents.store, CacheContents.reception, CacheContents.offered, same,
        Bool.false_eq_true, if_false]

/-- The contents after some stores. -/
theorem contents_stores (unlimited : cache.settings.seriesLimit = 0)
    (stores : List (Series × Point)) :
    (cache.afterAll (stores.map fun item => .store item.1 item.2)).contents
      = stores.foldl (fun contents item => contents.store item.1 item.2) cache.contents := by
  induction stores generalizing cache with
  | nil => rfl
  | cons item stores ih =>
      have under : (cache.after (.store item.1 item.2)).settings = cache.settings :=
        settings_after cache _
      rw [List.map_cons, afterAll, List.foldl_cons, ← afterAll, ih (by rw [under, unlimited]),
        List.foldl_cons, ← contents_store unlimited]
      rfl

/-! ## What contents tell -/

theorem status_contents (cache : Cache) : cache.contents.status = cache.status := by
  have keys : cache.contents.logs.keys = cache.held.keys := by
    simp only [contents, SortedMap.keys, SortedMap.mapValues, List.map_map, Function.comp_def]
  have values : cache.contents.logs.values = cache.held.values.map HeldSeries.log := by
    simp only [contents, SortedMap.values, SortedMap.mapValues, List.map_map, Function.comp_def]
  have sizes : cache.contents.logs.size = cache.size := List.length_map _
  rw [CacheContents.status, keys, values, sizes, status]
  simp only [TimeSeries.archivedBlocks, List.map_map, Function.comp_def]
  rfl

/-- Caches with the same contents hold the same points. -/
theorem pointsHeld_eq (same : cache.contents = other.contents) (series : Series) :
    cache.pointsHeld series = other.pointsHeld series := by
  rw [pointsHeld, pointsHeld, ← logOf_contents, ← logOf_contents, same]

/-- They answer alike. -/
theorem answer_eq_of_contents (legible : cache.Legible) (others : other.Legible)
    (same : cache.contents = other.contents) (query : Query) (now : Timestamp) :
    cache.answer query now = other.answer query now := by
  have under : other.settings = cache.settings := congrArg CacheContents.settings same.symm
  refine answer_eq_of_scans under fun subquery _ scan _ => ?_
  refine legible.answer_scan_eq others (fun series _ => ?_) query.divisor
  rw [pointsBy, pointsBy, pointsHeld_eq same]

/-! ## Interleaved histories -/

/-- Neither answers nor the status tell the caches apart, nor do they depend on the order in which
the series are listed, and in groups of several series `first` and `last` choose by key. -/
structure Interchangeable (cache other : Cache) : Prop where
  answers : ∀ query now, (cache.ask query now).2 = (other.ask query now).2
  status : cache.status = other.status
  indifferent : cache.Indifferent ∧ other.Indifferent
  byKey : ∀ query now, ∀ subquery ∈ query.subqueries, ∀ scan,
    cache.scan? query subquery now = .ok (some scan) →
      ∀ group ∈ (cache.answerSubquery query subquery now).groups,
        2 ≤ (scan.membersOf (cache.selected scan) group.tags).length →
          (scan.membersOf (cache.selected scan) group.tags).length ≤ 2 ^ 63 →
            cache.ChoosesByKey query subquery scan group

/-- The events of some stores. -/
def storesOf (stores : List (Series × Point)) : List CacheEvent :=
  stores.map fun item => .store item.1 item.2

/-- **Interleaved histories.**  Where the number of series has no limit, two histories of stores that
have the same stores of each series, in the same order, lead to caches that cannot be told
apart. -/
theorem interchangeable_of_interleaved (created : Cache.ofSettings settings = .ok cache)
    (unlimited : settings.seriesLimit = 0) {first second : List (Series × Point)}
    (same : ∀ series, (first.filter fun item => item.1 = series)
      = second.filter fun item => item.1 = series) :
    (cache.afterAll (storesOf first)).Interchangeable (cache.afterAll (storesOf second)) := by
  have under : cache.settings.seriesLimit = 0 := by
    rw [(CacheRun.settings_ofSettings created).2.1, unlimited]
  have commutes : Commutes (fun contents (item : Series × Point) =>
      CacheContents.store contents item.1 item.2) Prod.fst :=
    fun contents one another apart => CacheContents.store_comm apart one.2 another.2
  have contents : (cache.afterAll (storesOf first)).contents
      = (cache.afterAll (storesOf second)).contents := by
    rw [storesOf, storesOf, contents_stores under, contents_stores under, commutes.foldl_eq same]
  refine ⟨fun query now => ?_, ?_, ⟨indifferent _, indifferent _⟩, ?_⟩
  · exact answer_eq_of_contents (legible_afterAll created _) (legible_afterAll created _) contents
      query now
  · rw [← status_contents, contents, status_contents]
  · intro query now subquery _ scan scanned group member several few
    exact choosesByKey _ scanned member several few

/-- Two series whose stores take turns in one history and follow each other in the other one. -/
theorem interchangeable_of_interleaved_of_turns :
    let settings : CacheSettings := { CacheSettings.standard with seriesLimit := 0 }
    let one : Series := .ofTags "load" [("host", "a")]
    let another : Series := .ofTags "load" [("host", "b")]
    ∃ cache, Cache.ofSettings settings = .ok cache
      ∧ (cache.afterAll (storesOf [(another, ⟨5, ⟨1⟩⟩), (one, ⟨5, ⟨2⟩⟩), (another, ⟨3, ⟨3⟩⟩),
          (one, ⟨7, ⟨4⟩⟩)])).Interchangeable
        (cache.afterAll (storesOf [(one, ⟨5, ⟨2⟩⟩), (one, ⟨7, ⟨4⟩⟩), (another, ⟨5, ⟨1⟩⟩),
          (another, ⟨3, ⟨3⟩⟩)])) := by
  intro settings one another
  have created : Cache.ofSettings settings
      = .ok ⟨settings, [], .empty, .empty, 0, ⟨0, 0, 0, 0, 0, 0⟩⟩ := rfl
  have apart : one ≠ another := by decide
  refine ⟨_, created, interchangeable_of_interleaved created rfl fun series => ?_⟩
  by_cases here : one = series
  · subst here
    simp [apart.symm]
  · by_cases there : another = series
    · subst there
      simp [here]
    · simp [here, there]

end Cache

end TimeSeries
