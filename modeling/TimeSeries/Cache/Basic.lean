import TimeSeries.Cache.Settings.Basic
import TimeSeries.SeriesLog

/-!
# Caches

A cache holds the logs of recent series.  A point of a series that is not held admits the series,
and if there is no room for it, one series is evicted first.  Points of metrics that are not cached
are counted and otherwise ignored; such a metric is remembered by name.

Admissions, writes and queries are the events of a cache, and its clock counts them.  Each event
has a moment of its own, so there is always one series that was admitted first and one that was
touched least recently.

Main statements: `get?_evict` and `get?_hold` say what making room and holding do to the series that
are held: everything else about them stays as it is.
-/

set_option autoImplicit false

namespace TimeSeries

/-- A series in a cache. -/
structure HeldSeries where
  log : SeriesLog
  /-- The moment of its admission. -/
  admitted : Nat
  /-- The moment of the last write to it or query of it. -/
  touched : Nat
  deriving Inhabited

/-- The moment by which a series is judged when one must make room: the one with the earliest moment
goes. -/
def HeldSeries.moment (held : HeldSeries) : Eviction → Nat
  | .oldest => held.admitted
  | .leastRecentlyUsed => held.touched

/-- What has happened to points, series and blocks. -/
structure CacheCounters where
  pointsStored : Nat
  pointsRejected : Nat
  pointsUncached : Nat
  seriesEvicted : Nat
  seriesExpired : Nat
  blocksAgedOff : Nat
  deriving DecidableEq, Repr, Inhabited

/-- The series held under some settings. -/
structure Cache where
  settings : CacheSettings
  /-- The patterns of the names of metrics that are never cached. -/
  exclusions : List Pattern
  held : SortedMap Series HeldSeries
  /-- The metrics that are known not to be cached. -/
  uncached : SortedSet String
  /-- The number of events so far. -/
  clock : Nat
  counters : CacheCounters
  deriving Inhabited

namespace Cache

/-- A cache without series. -/
def ofSettings (settings : CacheSettings) : Except Failure Cache := do
  settings.validate
  return ⟨settings, ← settings.exclusions, .empty, .empty, 0, ⟨0, 0, 0, 0, 0, 0⟩⟩

/-- The number of series held. -/
def size (cache : Cache) : Nat := cache.held.size

/-- The series is held. -/
def contains (cache : Cache) (series : Series) : Bool := cache.held.contains series

/-! ## Metrics that are not cached -/

/-- Points of the metric are not kept. -/
def isUncached (cache : Cache) (metric : String) : Bool :=
  cache.uncached.contains metric
    || cache.exclusions.any fun pattern => pattern.isFoundIn metric

/-- Counts a point of a metric that is not cached, and remembers the metric. -/
def ignorePoint (cache : Cache) (metric : String) : Cache :=
  { cache with
    uncached := cache.uncached.insert metric ()
    counters := { cache.counters with pointsUncached := cache.counters.pointsUncached + 1 } }

/-! ## Admission and eviction -/

/-- The series that makes room for a new one. -/
def victim? (cache : Cache) : Option Series :=
  (cache.held.toList.minOn? fun pair => pair.2.moment cache.settings.eviction).map Prod.fst

/-- The cache without the series that makes room. -/
def evict (cache : Cache) : Cache :=
  match cache.victim? with
  | some victim =>
      { cache with
        held := cache.held.erase victim
        counters := { cache.counters with seriesEvicted := cache.counters.seriesEvicted + 1 } }
  | none => cache

/-- Making room removes one series and keeps the others as they are. -/
theorem get?_evict {cache : Cache} {victim : Series} (chosen : cache.victim? = some victim)
    (wanted : Series) :
    cache.evict.held.get? wanted = if wanted = victim then none else cache.held.get? wanted := by
  have same : cache.evict.held = cache.held.erase victim := by
    unfold evict
    rw [chosen]
  rw [same]
  exact SortedMap.get?_erase cache.held victim wanted

/-- There is no room for a further series. -/
def isFull (cache : Cache) : Bool :=
  0 < cache.settings.seriesLimit && cache.settings.seriesLimit ≤ cache.size

/-- The cache with room for a further series. -/
def makeRoom (cache : Cache) : Cache := if cache.isFull then cache.evict else cache

/-- A series as it is admitted at this moment: without points, and untouched so far. -/
def newcomer (cache : Cache) : HeldSeries :=
  ⟨.empty cache.settings.blockLimit, cache.clock, 0⟩

/-- The cache at the next moment. -/
def tick (cache : Cache) : Cache := { cache with clock := cache.clock + 1 }

/-! ## Writing -/

/-- Holds a series in the given state, touched at this moment. -/
def hold (cache : Cache) (series : Series) (held : HeldSeries) : Cache :=
  { cache.tick with held := cache.held.insert series { held with touched := cache.clock } }

/-- Holding a series changes nothing about the others. -/
theorem get?_hold (cache : Cache) (series wanted : Series) (held : HeldSeries) :
    (cache.hold series held).held.get? wanted
      = if wanted = series then some { held with touched := cache.clock }
        else cache.held.get? wanted :=
  SortedMap.get?_insert cache.held series wanted _

/-- Touches a series, if it is held. -/
def touch (cache : Cache) (series : Series) : Cache :=
  match cache.held.get? series with
  | some held => cache.hold series held
  | none => cache

/-- Counts a point that was stored. -/
def countStored (cache : Cache) : Cache :=
  { cache with
    counters := { cache.counters with pointsStored := cache.counters.pointsStored + 1 } }

/-- Counts a point that was rejected. -/
def countRejected (cache : Cache) : Cache :=
  { cache with
    counters := { cache.counters with pointsRejected := cache.counters.pointsRejected + 1 } }

/-- Adds a point to a series in the given state and holds it, whether it takes the point or not. -/
def write (cache : Cache) (series : Series) (held : HeldSeries) (point : Point) :
    Cache × Except Failure Unit :=
  match held.log.add point with
  | .ok log => ((cache.hold series { held with log := log }).countStored, .ok ())
  | .error failure => ((cache.hold series held).countRejected, .error failure)

/-- Stores a point of a series; a point of a metric that is not cached is no failure. -/
def store (cache : Cache) (series : Series) (point : Point) : Cache × Except Failure Unit :=
  if cache.isUncached series.metric then
    (cache.ignorePoint series.metric, .ok ())
  else
    match cache.held.get? series with
    | some held => cache.write series held point
    | none => cache.makeRoom.tick.write series cache.makeRoom.newcomer point

end Cache

end TimeSeries
