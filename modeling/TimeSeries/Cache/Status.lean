import TimeSeries.Cache.Maintenance

/-!
# The status of a cache

What a cache holds at the moment, in numbers, and what has happened to it so far.
-/

set_option autoImplicit false

namespace TimeSeries

/-- What a cache holds, in numbers. -/
structure CacheStatus where
  /-- The number of series. -/
  series : Nat
  /-- The metrics of the series, in order. -/
  metrics : List String
  /-- The metrics known not to be cached, in order. -/
  uncachedMetrics : List String
  points : Nat
  archivedBlocks : Nat
  /-- The number of bytes of all blocks. -/
  byteSize : Nat
  oldest : Option Timestamp
  newest : Option Timestamp
  counters : CacheCounters
  deriving DecidableEq, Repr, Inhabited

/-- The status of a cache. -/
def Cache.status (cache : Cache) : CacheStatus :=
  let logs := cache.held.values.map HeldSeries.log
  { series := cache.size
    metrics := (SortedSet.ofElements (cache.held.keys.map Series.metric)).keys
    uncachedMetrics := cache.uncached.keys
    points := total (logs.map SeriesLog.size)
    archivedBlocks := TimeSeries.archivedBlocks cache.held
    byteSize := total (logs.map SeriesLog.byteSize)
    oldest := (logs.filterMap SeriesLog.oldest?).min?
    newest := (logs.filterMap SeriesLog.newest).max?
    counters := cache.counters }

namespace CacheCounters

/-- The counters with their names, in order. -/
def named (counters : CacheCounters) : List (String × Nat) :=
  [("points_stored", counters.pointsStored), ("points_rejected", counters.pointsRejected),
    ("points_uncached", counters.pointsUncached), ("series_evicted", counters.seriesEvicted),
    ("series_expired", counters.seriesExpired), ("blocks_aged_off", counters.blocksAgedOff)]

end CacheCounters

end TimeSeries
