import TimeSeries.Pattern.Reader
import TimeSeries.Retention

/-!
# The settings of a cache

A cache holds a limited number of series, each for a limited time, and none of some metrics.  The
settings say what the limits are; a limit of zero is none.
-/

set_option autoImplicit false

namespace TimeSeries

/-- Which series makes room for a new one. -/
inductive Eviction where
  /-- The one that was admitted first. -/
  | oldest
  /-- The one that was written to or selected by a query least recently. -/
  | leastRecentlyUsed
  deriving DecidableEq, Repr, Inhabited

/-- The limits of a cache. -/
structure CacheSettings where
  /-- The number of series that are held at most. -/
  seriesLimit : Nat
  eviction : Eviction
  retention : Retention
  /-- A series is dropped once its newest point is older than this. -/
  staleness : Option Timestamp
  /-- The number of points with which a block is full. -/
  blockLimit : Nat
  /-- The milliseconds from one maintenance to the next. -/
  maintenanceInterval : Nat
  /-- The patterns of the names of metrics that are never cached. -/
  excludedMetrics : List String
  /-- The number of series of one metric beyond which the metric is cached no longer. -/
  tagSetLimit : Nat
  deriving DecidableEq, Repr, Inhabited

namespace CacheSettings

/-- The settings where nothing else is said: a day of retention and a maintenance every minute. -/
def standard : CacheSettings where
  seriesLimit := 100000
  eviction := .oldest
  retention := .ofDefault 86400000
  staleness := none
  blockLimit := 4096
  maintenanceInterval := 60000
  excludedMetrics := []
  tagSetLimit := 50000

/-- Reads the patterns of excluded metrics, each of which has to match a name as a whole. -/
def exclusions (settings : CacheSettings) : Except Failure (List Pattern) :=
  settings.excludedMetrics.mapM fun text =>
    match Pattern.ofWhole? text with
    | some pattern => .ok pattern
    | none => .error (.configuration (.metricPattern text))

/-- Fails for the first setting that is out of its range. -/
def validate (settings : CacheSettings) : Except Failure Unit := do
  settings.retention.validate
  match settings.staleness with
  | some staleness =>
      if staleness ≤ 0 then
        throw (.configuration (.stalenessNotPositive staleness))
  | none => pure ()
  if settings.maintenanceInterval = 0 then
    throw (.configuration .maintenanceIntervalZero)
  let _ ← settings.exclusions

end CacheSettings

end TimeSeries
