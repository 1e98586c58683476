import TimeSeries.Cache.Basic

/-!
# Maintenance of a cache

Maintenance archives the open block of every series and drops the blocks past retention.  It then
drops the series that are stale or have no points left, and stops caching every metric that still
has more series than the settings allow, with all its series.
-/

set_option autoImplicit false

namespace TimeSeries

/-- What a maintenance did. -/
structure MaintenanceReport where
  /-- The number of open blocks that were archived. -/
  archived : Nat
  /-- The number of archived blocks that were dropped. -/
  agedOff : Nat
  /-- The number of series that were dropped because they are stale or empty. -/
  expired : Nat
  /-- The number of metrics that are no longer cached. -/
  discontinued : Nat
  deriving DecidableEq, Repr, Inhabited

namespace HeldSeries

/-- The series with its open block archived. -/
def archive (held : HeldSeries) : HeldSeries := { held with log := held.log.archive }

/-- The series without blocks past retention. -/
def ageOff (held : HeldSeries) (now retention : Timestamp) : HeldSeries :=
  { held with log := held.log.ageOff now retention }

/-- The newest point of the series is older than is allowed. -/
def isStale (held : HeldSeries) (staleness : Option Timestamp) (now : Timestamp) : Bool :=
  match staleness, held.log.newest with
  | some staleness, some newest => staleness < now.saturatingSub newest
  | _, _ => false

end HeldSeries

/-- The number of archived blocks of all series. -/
def archivedBlocks (held : SortedMap Series HeldSeries) : Nat :=
  total (held.values.map fun series => series.log.archived.length)

/-- The number of series that have open points. -/
def openSeries (held : SortedMap Series HeldSeries) : Nat :=
  held.values.countP fun series => series.log.hasOpenPoints

/-- The number of series of each metric. -/
def seriesByMetric (held : SortedMap Series HeldSeries) : SortedMap String Nat :=
  held.keys.foldl (fun tally series => tally.alter series.metric fun count => count.getD 0 + 1)
    .empty

/-- The metrics with more series than are allowed. -/
def wideMetrics (limit : Nat) (held : SortedMap Series HeldSeries) : SortedSet String :=
  if limit = 0 then .empty
  else ((seriesByMetric held).filter fun _ count => limit < count).mapValues fun _ _ => ()

namespace Cache

/-- Archives the open block of every series. -/
def archive (cache : Cache) : Cache :=
  { cache with held := cache.held.mapValues fun _ held => held.archive }

/-- The series is stale or has no points. -/
def isExpired (cache : Cache) (held : HeldSeries) (now : Timestamp) : Bool :=
  held.isStale cache.settings.staleness now || held.log.isEmpty

/-- One maintenance at a given time. -/
def maintain (cache : Cache) (now : Timestamp) : Cache × MaintenanceReport :=
  let retention := cache.settings.retention
  let archived := cache.archive.held
  let retained := archived.mapValues fun series held =>
    held.ageOff now (retention.forMetric series.metric)
  let current := retained.filter fun _ held => !cache.isExpired held now
  let wide := wideMetrics cache.settings.tagSetLimit current
  let report : MaintenanceReport :=
    { archived := openSeries cache.held
      agedOff := archivedBlocks archived - archivedBlocks retained
      expired := retained.size - current.size
      discontinued := wide.size }
  let counters := cache.counters
  ({ cache with
    held := current.filter fun series _ => !wide.contains series.metric
    uncached := wide.keys.foldl (fun uncached metric => uncached.insert metric ()) cache.uncached
    counters :=
      { counters with
        blocksAgedOff := counters.blocksAgedOff + report.agedOff
        seriesExpired := counters.seriesExpired + report.expired } },
    report)

/-- Several maintenances in a row, all at one time. -/
def maintainTimes (now : Timestamp) : Nat → Cache → Cache
  | 0, cache => cache
  | times + 1, cache => maintainTimes now times (cache.maintain now).1

/-- The number of maintenances that are due within a span of milliseconds: one at the end of each
interval that ends before the span does. -/
def dueMaintenances (cache : Cache) (elapsed : Nat) : Nat :=
  (elapsed - 1) / cache.settings.maintenanceInterval

/-- The cache after a span of milliseconds in which nothing but maintenance happens. -/
def idle (cache : Cache) (elapsed : Nat) (now : Timestamp) : Cache :=
  maintainTimes now (cache.dueMaintenances elapsed) cache

end Cache

end TimeSeries
