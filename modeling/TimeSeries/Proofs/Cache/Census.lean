import TimeSeries.Proofs.Cache.Interleaving
import TimeSeries.Proofs.Cache.Uncached

/-!
# The census of a cache

The status of a cache is told from counts and bounds that the logs keep, and from the counters of the
cache.  It tells what the logs hold all the same, whatever the cache has been through.

What a log keeps of its newest point outlives that point, so the newest timestamp of the status is
that of a point held only because no series without points is held: maintenance drops those that have
none left, and a series that is admitted takes the point that admits it (`Filled.after`).

The counters account for every store, and for every series that was admitted: it is held, or it was
evicted, or it expired, or its metric was not cached any longer (`census_after`).

Main statement: `Cache.census_afterAll`.
-/

set_option autoImplicit false

namespace TimeSeries

/-! ## Logs with points -/

namespace SeriesLog

variable {log : SeriesLog} {contents : LogContents}

/-- The newest point ever taken is held if any point is. -/
theorem Holds.newest_of_filled (holds : log.Holds contents) (filled : contents.kept ≠ []) :
    log.newest = contents.kept.getLast?.map Point.timestamp := by
  rw [holds.newest, LogContents.taken, List.getLast?_append_of_ne_nil _ filled]

/-- A log is not empty once it has taken a point. -/
theorem Holds.isEmpty_of_added (holds : log.Holds contents) {point : Point} {grown : SeriesLog}
    (added : log.add point = .ok grown) : grown.isEmpty = false := by
  obtain ⟨after, grownHolds, _, kept⟩ := holds.of_added added
  rw [← Bool.not_eq_true, grownHolds.isEmpty_iff, kept]
  exact List.append_ne_nil_of_right_ne_nil _ (List.cons_ne_nil _ _)

/-- A log without points takes any point. -/
theorem exists_add_empty (blockLimit : Nat) (point : Point) :
    ∃ grown, (empty blockLimit).add point = .ok grown := by
  have inOrder : ∀ newest ∈ (empty blockLimit).newest, newest ≤ point.timestamp := by
    rintro _ ⟨⟩
  obtain ⟨grown, _, added, _⟩ := (holds_empty blockLimit).add inOrder
  exact ⟨grown, added⟩

/-- Archiving leaves the points. -/
theorem Holds.isEmpty_archive (holds : log.Holds contents) : log.archive.isEmpty = log.isEmpty := by
  rw [Bool.eq_iff_iff, holds.archive.isEmpty_iff, holds.isEmpty_iff, LogContents.kept,
    flatten_runsOf, List.append_nil]

end SeriesLog

/-! ## Bounds of timestamps -/

/-- Timestamps of which each is reached by a chosen one have their least one among those. -/
theorem min?_of_reached {chosen all : List Timestamp} (among : chosen ⊆ all)
    (reached : ∀ timestamp ∈ all, ∃ first ∈ chosen, first ≤ timestamp) :
    chosen.min? = all.min? := by
  apply Option.ext
  intro least
  rw [List.min?_eq_some_iff, List.min?_eq_some_iff]
  constructor
  · rintro ⟨member, below⟩
    refine ⟨among member, fun timestamp other => ?_⟩
    obtain ⟨first, here, notAfter⟩ := reached timestamp other
    exact Int64.le_trans (below first here) notAfter
  · rintro ⟨member, below⟩
    obtain ⟨first, here, notAfter⟩ := reached least member
    have same := Int64.le_antisymm (below first (among here)) notAfter
    exact ⟨same ▸ here, fun timestamp other => below timestamp (among other)⟩

/-- Timestamps that chosen ones reach have their greatest one among those. -/
theorem max?_of_reached {chosen all : List Timestamp} (among : chosen ⊆ all)
    (reached : ∀ timestamp ∈ all, ∃ last ∈ chosen, timestamp ≤ last) :
    chosen.max? = all.max? := by
  apply Option.ext
  intro greatest
  rw [List.max?_eq_some_iff, List.max?_eq_some_iff]
  constructor
  · rintro ⟨member, above⟩
    refine ⟨among member, fun timestamp other => ?_⟩
    obtain ⟨last, here, notAfter⟩ := reached timestamp other
    exact Int64.le_trans notAfter (above last here)
  · rintro ⟨member, above⟩
    obtain ⟨last, here, notAfter⟩ := reached greatest member
    have same := Int64.le_antisymm notAfter (above last (among here))
    exact ⟨same ▸ here, fun timestamp other => above timestamp (among other)⟩

namespace Cache

variable {cache : Cache} {settings : CacheSettings} {series : Series}

/-! ## Series with points -/

/-- Every series that is held has points. -/
def Filled (cache : Cache) : Prop :=
  ∀ series held, cache.held.get? series = some held → held.log.isEmpty = false

theorem Legible.exists_holds (legible : cache.Legible) {held : HeldSeries}
    (found : cache.held.get? series = some held) :
    ∃ contents, held.log.Holds contents ∧ contents.kept = cache.pointsHeld series := by
  obtain ⟨contents, holds⟩ := legible series
  exact ⟨contents, logOf_of_get? found ▸ holds, kept_eq_pointsHeld holds⟩

theorem Legible.pointsHeld_ne_nil (legible : cache.Legible) (filled : cache.Filled)
    {held : HeldSeries} (found : cache.held.get? series = some held) :
    cache.pointsHeld series ≠ [] := by
  obtain ⟨contents, holds, kept⟩ := legible.exists_holds found
  rw [← kept, Ne, ← holds.isEmpty_iff, Bool.not_eq_true]
  exact filled series held found

/-- A write leaves points in its series if it takes the point or if there were points before. -/
theorem Filled.write {target : Cache} {held : HeldSeries} {point : Point}
    (written : ((held.log.add point).toOption.getD held.log).isEmpty = false)
    (others : ∀ wanted kept, target.held.get? wanted = some kept → kept.log.isEmpty = false) :
    (target.write series held point).1.Filled := by
  intro wanted kept found
  rw [get?_written] at found
  split at found
  · cases found
    exact written
  · exact others wanted kept found

/-- Every event leaves points in the series that are held. -/
theorem Filled.after (filled : cache.Filled) (legible : cache.Legible) (event : CacheEvent) :
    (cache.after event).Filled := by
  cases event with
  | store series point =>
      rw [Cache.after]
      cases cached : cache.isUncached series.metric with
      | true =>
          rw [store_of_uncached cached]
          exact filled
      | false =>
          cases found : cache.held.get? series with
          | some held =>
              rw [store_of_held cached found]
              refine Filled.write ?_ filled
              obtain ⟨contents, holds, _⟩ := legible.exists_holds found
              cases added : held.log.add point with
              | ok grown => exact holds.isEmpty_of_added added
              | error failure => exact filled series held found
          | none =>
              rw [store_of_absent cached found]
              refine Filled.write ?_ fun wanted kept there => filled wanted kept (get?_makeRoom there)
              obtain ⟨grown, added⟩ :=
                SeriesLog.exists_add_empty cache.makeRoom.settings.blockLimit point
              rw [newcomer, added]
              exact (SeriesLog.holds_empty _).isEmpty_of_added added
  | ask query now =>
      intro series held found
      have log := (cache.sameLogs_ask query now).logs series
      rw [show (cache.ask query now).1.held.get? series = some held from found, Option.map_some,
        eq_comm, Option.map_eq_some_iff] at log
      obtain ⟨kept, before, same⟩ := log
      rw [← same]
      exact filled series kept before
  | maintain now =>
      intro series held found
      -- maintenance leaves no series without points
      have found : (cache.maintain now).1.held.get? series = some held := found
      rw [get?_held_maintain] at found
      split at found
      · cases found
      · rw [unexpired, SortedMap.get?_filter, Option.filter_eq_some_iff, isExpired,
          Bool.not_eq_true', Bool.or_eq_false_iff] at found
        exact found.2.2
  | shutdown =>
      intro series held found
      have found : cache.archive.held.get? series = some held := found
      rw [archive, SortedMap.get?_mapValues, Option.map_eq_some_iff] at found
      obtain ⟨kept, before, rfl⟩ := found
      obtain ⟨contents, holds, _⟩ := legible.exists_holds before
      exact holds.isEmpty_archive.trans (filled series kept before)

theorem filled_afterAll (created : Cache.ofSettings settings = .ok cache)
    (events : List CacheEvent) : (cache.afterAll events).Filled := by
  induction events using List.reverseRecOn with
  | nil =>
      obtain ⟨_, patterns, _, rfl⟩ := CacheRun.eq_of_ofSettings created
      intro series held found
      cases found
  | append_singleton events event ih =>
      rw [afterAll_concat]
      exact ih.after (legible_afterAll created events) event

/-! ## The status -/

/-- All points that are held, series by series. -/
def allPoints (cache : Cache) : List Point := cache.held.keys.flatMap cache.pointsHeld

/-- The status tells what is held. -/
structure Truthful (cache : Cache) : Prop where
  /-- A series is held with the points that its blocks are decoded to, and has some. -/
  decoded : ∀ series held, cache.held.get? series = some held →
    SeriesLog.pointsOf (held.log.blocksWithin Timestamp.earliest Timestamp.latest)
        = .ok (cache.pointsHeld series)
      ∧ cache.pointsHeld series ≠ []
  points : cache.status.points = cache.allPoints.length
  oldest : cache.status.oldest = (cache.allPoints.map Point.timestamp).min?
  newest : cache.status.newest = (cache.allPoints.map Point.timestamp).max?
  /-- Without series there is neither an oldest nor a newest point, and only then. -/
  bounded : (cache.status.oldest = none ↔ cache.held.keys = [])
    ∧ (cache.status.newest = none ↔ cache.held.keys = [])
  ordered : cache.status.metrics.Pairwise (· < ·)
  metrics : ∀ metric, metric ∈ cache.status.metrics
    ↔ ∃ series, cache.contains series = true ∧ series.metric = metric

theorem mem_allPoints {point : Point} :
    point ∈ cache.allPoints ↔ ∃ series ∈ cache.held.keys, point ∈ cache.pointsHeld series := by
  rw [allPoints, List.mem_flatMap]

/-- The timestamps of the points at one end of each series. -/
def timestampsAt (cache : Cache) (ends : List Point → Option Point) : List Timestamp :=
  cache.held.keys.filterMap fun series => (ends (cache.pointsHeld series)).map Point.timestamp

/-- What the logs tell of the points at one end. -/
theorem Legible.filterMap_logs (legible : cache.Legible) (ends : List Point → Option Point)
    {tell : SeriesLog → Option Timestamp}
    (told : ∀ series held contents, cache.held.get? series = some held → held.log.Holds contents →
      tell held.log = (ends contents.kept).map Point.timestamp) :
    (cache.held.values.map HeldSeries.log).filterMap tell = cache.timestampsAt ends := by
  rw [timestampsAt, SortedMap.values, SortedMap.keys, List.map_map, List.filterMap_map,
    List.filterMap_map]
  refine List.filterMap_congr fun pair member => ?_
  have found := (SortedMap.mem_toList_iff _ _ _).mp member
  obtain ⟨contents, holds, kept⟩ := legible.exists_holds found
  have same := told pair.1 pair.2 contents found holds
  rw [kept] at same
  exact same

theorem timestampsAt_subset {ends : List Point → Option Point}
    (among : ∀ points point, ends points = some point → point ∈ points) :
    cache.timestampsAt ends ⊆ cache.allPoints.map Point.timestamp := by
  intro timestamp member
  obtain ⟨series, here, ending⟩ := List.mem_filterMap.mp member
  obtain ⟨point, last, rfl⟩ := Option.map_eq_some_iff.mp ending
  exact List.mem_map_of_mem (mem_allPoints.mpr ⟨series, here, among _ point last⟩)

theorem exists_timestampsAt {ends : List Point → Option Point}
    (reaches : Timestamp → Timestamp → Prop)
    (reached : ∀ series, ∀ point ∈ cache.pointsHeld series,
      ∃ last, ends (cache.pointsHeld series) = some last ∧ reaches last.timestamp point.timestamp) :
    ∀ timestamp ∈ cache.allPoints.map Point.timestamp,
      ∃ last ∈ cache.timestampsAt ends, reaches last timestamp := by
  intro timestamp member
  obtain ⟨point, among, rfl⟩ := List.mem_map.mp member
  obtain ⟨series, here, held⟩ := mem_allPoints.mp among
  obtain ⟨last, ending, reaches⟩ := reached series point held
  exact ⟨_, List.mem_filterMap.mpr ⟨series, here, congrArg (Option.map Point.timestamp) ending⟩,
    reaches⟩

theorem Legible.points_status (legible : cache.Legible) :
    cache.status.points = cache.allPoints.length := by
  show total ((cache.held.values.map HeldSeries.log).map SeriesLog.size) = _
  rw [allPoints, List.length_flatMap, SortedMap.keys, SortedMap.values, List.map_map, List.map_map,
    List.map_map]
  refine congrArg total (List.map_congr_left fun pair member => ?_)
  obtain ⟨contents, holds, kept⟩ :=
    legible.exists_holds ((SortedMap.mem_toList_iff _ _ _).mp member)
  show pair.2.log.size = (cache.pointsHeld pair.1).length
  rw [holds.size, kept]

theorem Legible.oldest_status (legible : cache.Legible) :
    cache.status.oldest = (cache.allPoints.map Point.timestamp).min? := by
  show ((cache.held.values.map HeldSeries.log).filterMap SeriesLog.oldest?).min? = _
  rw [legible.filterMap_logs List.head? fun _ _ _ _ holds => holds.oldest?]
  refine min?_of_reached (timestampsAt_subset fun _ _ => List.mem_of_head?)
    (exists_timestampsAt (· ≤ ·) fun series point member => ?_)
  cases points : cache.pointsHeld series with
  | nil => rw [points] at member; cases member
  | cons first rest =>
      refine ⟨first, rfl, ?_⟩
      have ordered := legible.ordered series
      rw [points] at member ordered
      rcases List.mem_cons.mp member with rfl | later
      · exact Int64.le_refl _
      · exact (List.pairwise_cons.mp ordered).1 point later

theorem Legible.newest_status (legible : cache.Legible) (filled : cache.Filled) :
    cache.status.newest = (cache.allPoints.map Point.timestamp).max? := by
  show ((cache.held.values.map HeldSeries.log).filterMap SeriesLog.newest).max? = _
  rw [legible.filterMap_logs List.getLast? fun series held contents found holds =>
    holds.newest_of_filled ?_]
  · refine max?_of_reached (timestampsAt_subset fun _ _ => List.mem_of_getLast?)
      (exists_timestampsAt (· ≥ ·) fun series point member => ?_)
    obtain ⟨last, ending⟩ :=
      Option.isSome_iff_exists.mp (List.getLast?_isSome.mpr (List.ne_nil_of_mem member))
    exact ⟨last, ending, Point.notAfter_getLast? (legible.ordered series) member ending⟩
  · rw [Ne, ← holds.isEmpty_iff, Bool.not_eq_true]
    exact filled series held found

/-- There are points exactly if there are series. -/
theorem Legible.allPoints_eq_nil_iff (legible : cache.Legible) (filled : cache.Filled) :
    cache.allPoints = [] ↔ cache.held.keys = [] := by
  constructor
  · intro nothing
    rw [allPoints, List.flatMap_eq_nil_iff] at nothing
    rw [List.eq_nil_iff_forall_not_mem]
    intro series member
    obtain ⟨held, found⟩ := Option.isSome_iff_exists.mp (SortedMap.mem_keys_iff.mp member)
    exact legible.pointsHeld_ne_nil filled found (nothing series member)
  · intro nothing
    rw [allPoints, nothing, List.flatMap_nil]

theorem Legible.truthful (legible : cache.Legible) (filled : cache.Filled) : cache.Truthful := by
  have none_held := legible.allPoints_eq_nil_iff filled
  refine ⟨fun series held found => ⟨?_, legible.pointsHeld_ne_nil filled found⟩,
    legible.points_status, legible.oldest_status, legible.newest_status filled, ⟨?_, ?_⟩, ?_,
    fun metric => ?_⟩
  · obtain ⟨contents, holds, _⟩ := legible.exists_holds found
    obtain ⟨points, read, _⟩ := holds.pointsOf Timestamp.earliest Timestamp.latest
    rw [pointsHeld, logOf_of_get? found, read]
    rfl
  · rw [legible.oldest_status, List.min?_eq_none_iff, List.map_eq_nil_iff, none_held]
  · rw [legible.newest_status filled, List.max?_eq_none_iff, List.map_eq_nil_iff, none_held]
  · show (SortedSet.ofElements _).keys.Pairwise _
    rw [SortedMap.keys, List.pairwise_map]
    refine List.Pairwise.imp (fun {first second} before => ?_) (SortedSet.ofElements _).ascending
    exact compareOfLessAndEq_eq_lt.mp before
  · show metric ∈ (SortedSet.ofElements _).keys ↔ _
    rw [SortedMap.mem_keys_iff, SortedMap.contains_ofElements, List.mem_map]
    simp only [SortedMap.mem_keys_iff]
    rfl

/-! ## The counters -/

end Cache

namespace CacheCounters

/-- The number of points that were offered. -/
def offered (counters : CacheCounters) : Nat :=
  counters.pointsStored + counters.pointsRejected + counters.pointsUncached

/-- The number of series that have left to make room or because they expired. -/
def departed (counters : CacheCounters) : Nat := counters.seriesEvicted + counters.seriesExpired

theorem offered_receive (counters : CacheCounters) (reception : Reception) :
    (counters.receive reception).offered = counters.offered + 1 := by
  cases reception <;> simp only [receive, offered] <;> omega

theorem departed_receive (counters : CacheCounters) (reception : Reception) :
    (counters.receive reception).departed = counters.departed := by
  cases reception <;> rfl

end CacheCounters

/-- The event is the store of a point. -/
def CacheEvent.isStore : CacheEvent → Bool
  | .store _ _ => true
  | _ => false

namespace Cache

variable {cache : Cache} {settings : CacheSettings} {series : Series}

/-- The series that an event drops because their metric is not cached any longer. -/
def discontinuations (cache : Cache) : CacheEvent → List Series
  | .maintain now => (cache.unexpired now).keys.filter fun series =>
      (cache.discontinued now).contains series.metric
  | _ => []

/-- A series that makes room is counted as evicted. -/
theorem departed_makeRoom (cache : Cache) :
    cache.makeRoom.size + cache.makeRoom.counters.departed = cache.size + cache.counters.departed
      ∧ cache.makeRoom.counters.offered = cache.counters.offered := by
  unfold makeRoom
  split
  case isTrue full =>
      obtain ⟨victim, chosen, contained⟩ := exists_victim_of_isFull full
      have smaller : (cache.held.erase victim).size + 1 = cache.held.size :=
        SortedMap.size_erase_add_one contained
      rw [evict, chosen]
      refine ⟨?_, rfl⟩
      show (cache.held.erase victim).size
          + (cache.counters.seriesEvicted + 1 + cache.counters.seriesExpired)
        = cache.held.size + (cache.counters.seriesEvicted + cache.counters.seriesExpired)
      omega
  case isFalse => exact ⟨rfl, rfl⟩

/-- A store of a metric that is cached counts one point, and one series if it admits it. -/
theorem census_store (cached : cache.isUncached series.metric = false) (point : Point) :
    (cache.store series point).1.size + (cache.store series point).1.counters.departed
        = cache.size + cache.counters.departed + (cache.admissions (.store series point)).length
      ∧ (cache.store series point).1.counters.offered = cache.counters.offered + 1 := by
  rw [admissions, cached, Bool.false_or]
  cases found : cache.held.get? series with
  | some held =>
      rw [store_of_held cached found, counters_write, CacheCounters.departed_receive,
        CacheCounters.offered_receive, size_write, contains_of_get? found]
      exact ⟨rfl, rfl⟩
  | none =>
      have absent : cache.makeRoom.tick.contains series = false := by
        rw [contains_eq_false_iff, Option.eq_none_iff_forall_ne_some]
        intro held there
        rw [get?_makeRoom there] at found
        cases found
      obtain ⟨departed, offered⟩ := cache.departed_makeRoom
      rw [store_of_absent cached found, counters_write, CacheCounters.departed_receive,
        CacheCounters.offered_receive, size_write, absent, contains_eq_false_iff.mpr found]
      refine ⟨?_, congrArg Nat.succ offered⟩
      show cache.makeRoom.size + 1 + cache.makeRoom.counters.departed = _ + 1
      omega

theorem counters_ask (cache : Cache) (query : Query) (now : Timestamp) :
    (cache.ask query now).1.counters = cache.counters := by
  refine @related_ask (fun cache other => other.counters = cache.counters) (fun _ => rfl)
    (fun one two => two.trans one) (fun cache series => ?_) cache query now
  unfold touch
  split <;> rfl

theorem expired_maintain (cache : Cache) (now : Timestamp) :
    (cache.maintain now).2.expired + (cache.unexpired now).size = cache.size := by
  let retained := cache.archive.held.mapValues fun series held =>
    held.ageOff now (cache.settings.retention.forMetric series.metric)
  have fewer : (cache.unexpired now).size ≤ retained.size := List.length_filter_le _ _
  have all : retained.size = cache.size :=
    (List.length_map _).trans (List.length_map _)
  show retained.size - (cache.unexpired now).size + (cache.unexpired now).size = _
  rw [Nat.sub_add_cancel fewer, all]

/-- Every series that maintenance drops has expired, or its metric is not cached any longer. -/
theorem census_maintain (cache : Cache) (now : Timestamp) :
    (cache.maintain now).1.size + (cache.maintain now).1.counters.departed
        + (cache.discontinuations (.maintain now)).length
      = cache.size + cache.counters.departed := by
  have expired := cache.expired_maintain now
  have dropped : (cache.maintain now).1.size + (cache.discontinuations (.maintain now)).length
      = (cache.unexpired now).size := by
    have split := SortedMap.size_filter_add
      (fun series : Series => !(cache.discontinued now).contains series.metric)
      (cache.unexpired now)
    simp only [Bool.not_not] at split
    exact split
  have counted : (cache.maintain now).1.counters.departed
      = cache.counters.departed + (cache.maintain now).2.expired := (Nat.add_assoc _ _ _).symm
  omega

/-- **One event** counts the points that it offers, and each series that it admits is accounted for:
it is held, or it has left to make room or because it expired, or its metric is not cached any
longer. -/
theorem census_after (cache : Cache) (event : CacheEvent) :
    (cache.after event).size + (cache.after event).counters.departed
          + (cache.discontinuations event).length
        = cache.size + cache.counters.departed + (cache.admissions event).length
      ∧ (cache.after event).counters.offered
        = cache.counters.offered + if event.isStore then 1 else 0 := by
  cases event with
  | store series point =>
      cases cached : cache.isUncached series.metric with
      | true =>
          rw [admissions, cached, after, store_of_uncached cached]
          exact ⟨rfl, rfl⟩
      | false => exact census_store cached point
  | ask query now =>
      rw [after, counters_ask, ask_eq_foldl_touch,
        size_of_contains (cache.sameKeys_foldl_touch _).contains]
      exact ⟨rfl, rfl⟩
  | maintain now => exact ⟨census_maintain cache now, rfl⟩
  | shutdown =>
      have same : (cache.after .shutdown).size = cache.size := List.length_map _
      rw [same]
      exact ⟨rfl, rfl⟩

/-- What is counted in the course of some events. -/
theorem census_of_run (created : Cache.ofSettings settings = .ok cache)
    (events : List CacheEvent) :
    (cache.afterAll events).size + (cache.afterAll events).counters.departed
          + (cache.chronicle discontinuations events).length
        = (cache.chronicle admissions events).length
      ∧ (cache.afterAll events).counters.offered = events.countP CacheEvent.isStore := by
  induction events using List.reverseRecOn with
  | nil =>
      obtain ⟨_, patterns, _, rfl⟩ := CacheRun.eq_of_ofSettings created
      exact ⟨rfl, rfl⟩
  | append_singleton events event ih =>
      obtain ⟨series, points⟩ := ih
      obtain ⟨moreSeries, morePoints⟩ := census_after (cache.afterAll events) event
      rw [afterAll_concat, chronicle_concat, chronicle_concat, List.length_append,
        List.length_append, List.countP_append, List.countP_singleton, ← points]
      exact ⟨by omega, morePoints⟩

/-! ## Whole runs -/

/-- **The census of a cache**, whatever it has been through.  Its status tells what is held: the
points that the blocks of all series are decoded to, of which every series has some, with the oldest
and the newest of their timestamps, and the metrics.  Every store is counted in one of three ways, and
every series that was admitted is held, or was evicted, or expired, or left with its metric. -/
theorem census_afterAll (created : Cache.ofSettings settings = .ok cache)
    (events : List CacheEvent) :
    let reached := cache.afterAll events
    let status := reached.status
    reached.Truthful
      ∧ status.counters.pointsStored + status.counters.pointsRejected
          + status.counters.pointsUncached = events.countP CacheEvent.isStore
      ∧ (cache.chronicle admissions events).length
        = status.series + status.counters.seriesEvicted + status.counters.seriesExpired
          + (cache.chronicle discontinuations events).length := by
  intro reached status
  obtain ⟨series, points⟩ := census_of_run created events
  refine ⟨(legible_afterAll created events).truthful (filled_afterAll created events), points, ?_⟩
  rw [← series, CacheCounters.departed, ← Nat.add_assoc]
  rfl

/-- Of five series that are admitted, one is evicted, two leave with their metric, one expires and one
is held. -/
theorem census_afterAll_of_five :
    let settings : CacheSettings := { CacheSettings.standard with
      seriesLimit := 3, retention := .ofDefault 10, excludedMetrics := ["sys.*"], tagSetLimit := 1 }
    let one : Series := .ofTags "load" [("host", "a")]
    let another : Series := .ofTags "load" [("host", "b")]
    let events : List CacheEvent := [.store (.ofMetric "heat") ⟨1, ⟨1⟩⟩, .store one ⟨50, ⟨2⟩⟩,
      .store another ⟨50, ⟨3⟩⟩, .store (.ofMetric "wind") ⟨50, ⟨4⟩⟩, .store one ⟨3, ⟨5⟩⟩,
      .store (.ofMetric "sys.cpu") ⟨50, ⟨6⟩⟩, .maintain 55, .store (.ofMetric "rain") ⟨1, ⟨7⟩⟩,
      .shutdown, .maintain 60]
    ∃ cache, Cache.ofSettings settings = .ok cache
      ∧ (cache.afterAll events).Truthful
      ∧ (cache.afterAll events).status.counters = ⟨5, 1, 1, 1, 1, 1⟩
      ∧ cache.chronicle discontinuations events = [one, another]
      ∧ (cache.chronicle admissions events).length = 1 + 1 + 1 + 2 := by
  intro settings one another events
  obtain ⟨cache, created⟩ : ∃ cache, Cache.ofSettings settings = .ok cache := ⟨_, rfl⟩
  obtain ⟨truthful, _, admitted⟩ := census_afterAll created events
  have counters : (cache.afterAll events).status.counters = ⟨5, 1, 1, 1, 1, 1⟩ := by
    cases created
    decide +kernel
  have held : (cache.afterAll events).status.series = 1 := by
    cases created
    decide +kernel
  have left : cache.chronicle discontinuations events = [one, another] := by
    cases created
    decide +kernel
  refine ⟨cache, created, truthful, counters, left, ?_⟩
  rw [admitted, counters, held, left]
  rfl

end Cache

end TimeSeries
