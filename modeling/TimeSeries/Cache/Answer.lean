import TimeSeries.Cache.Basic
import TimeSeries.Cursor.Combined
import TimeSeries.Cursor.Filtered
import TimeSeries.Cursor.Sorted
import TimeSeries.TagFilter

/-!
# Answers to queries

A query of a cache is answered subquery by subquery.  A subquery selects series of its metric and
looks up their points in its span, without those that are past retention; if it asks for
downsampling, the span is widened to whole buckets first.  The points of each series go through the
layers that the subquery asks for, and the series with equal values of the filtered tags become one
group, in which the points of one timestamp are aggregated in the order of series.

What fails is left out of the answer, which says so: a subquery that cannot be read, or one series.

Selecting a series touches it.  Touching is an event of the cache and has no influence on answers,
so the answer (`Cache.answer`) and the cache behind the query (`Cache.touchedBy`) are apart.
-/

set_option autoImplicit false

namespace TimeSeries

/-- The points of one series or group, by timestamp. -/
abbrev TimedValues := SortedMap Timestamp Binary64

/-- The points of a group of series. -/
structure GroupAnswer where
  metric : String
  /-- The tags that the series of the group have in common because the filter names them. -/
  tags : Tags
  points : TimedValues
  deriving DecidableEq, Repr

/-- What is missing from an answer, and why. -/
inductive Omission where
  | subquery (metric : String) (cause : Failure)
  | series (omitted : Series) (cause : Failure)
  deriving DecidableEq, Repr

def Omission.message : Omission → String
  | .subquery metric cause => metric ++ ": " ++ cause.message
  | .series omitted cause => omitted.text ++ ": " ++ cause.message

/-- The answer to a query. -/
structure Answer where
  groups : List GroupAnswer
  omissions : List Omission
  deriving DecidableEq, Repr, Inhabited

namespace Answer

/-- The number of points of all groups. -/
def size (answer : Answer) : Nat := total (answer.groups.map fun group => group.points.size)

/-- The group of a metric with exactly the given tags. -/
def find? (answer : Answer) (metric : String) (tags : Tags) : Option GroupAnswer :=
  answer.groups.find? fun group => group.metric == metric && group.tags == tags

/-- The answers to several subqueries as one. -/
def concat (answers : List Answer) : Answer :=
  ⟨answers.flatMap groups, answers.flatMap omissions⟩

end Answer

/-! ## Points of one series -/

/-- The points of a series within a span, both ends included, as entries. -/
def HeldSeries.entriesWithin (held : HeldSeries) (series : Series) (start stop : Timestamp) :
    Except Failure (List Entry) := do
  let points ← (held.log.blocksWithin start stop).mapM Block.toPoints
  let within := points.flatten.filter fun point =>
    start ≤ point.timestamp && point.timestamp ≤ stop
  let family := Column.join series.tags.toList
  return within.map fun point =>
    ⟨(Sample.mk series point).keyAt family "", point.value.toBytes⟩

/-- What a cursor presents of all its entries. -/
def Cursor.readAll {σ : Type} [Cursor σ] (cursor : σ) : Except Failure (List Entry) :=
  match Cursor.seek .all cursor with
  | (_, some failure) => .error failure
  | (sought, none) => (Cursor.drain sought).2

/-- What a cursor presents, downsampled if that is asked for. -/
def Cursor.readDownsampled {σ : Type} [Cursor σ] (downsampling : Option Downsampling) (cursor : σ) :
    Except Failure (List Entry) :=
  match downsampling with
  | some downsampling => Cursor.readAll (Combined.downsampled downsampling cursor)
  | none => Cursor.readAll cursor

/-- What a subquery makes of the entries of a series: rates first, and then one value for each
bucket. -/
def Subquery.process (subquery : Subquery) (downsampling : Option Downsampling)
    (entries : List Entry) : Except Failure (List Entry) :=
  let sorted := SortedEntries.ofList entries
  if subquery.rate then
    Cursor.readDownsampled downsampling (Filtered.rates subquery.rateOptions sorted)
  else
    Cursor.readDownsampled downsampling sorted

/-- Entries of one series as points by timestamp; of several with one timestamp the last counts. -/
def timedValues (entries : List Entry) : Except Failure TimedValues := do
  let values ← entries.mapM fun entry => do
    return (entry.key.timestamp, ← Binary64.ofBytes entry.value)
  return .ofList values

/-! ## Points of a group -/

/-- The values of the members at each timestamp, in the order of members.  The place of a member
stands in for time, by which the aggregators `first` and `last` choose. -/
def collectMembers (members : List TimedValues) : SortedMap Timestamp (List Point) :=
  members.zipIdx.foldl (fun collected (member, index) =>
    member.toList.foldl (fun collected (timestamp, value) =>
      collected.alter timestamp fun points =>
        points.getD [] ++ [⟨Int64.ofNat index, value⟩]) collected) .empty

/-- The points of several series as those of one; a single series stays as it is. -/
def mergeMembers (aggregator : Aggregator) : List TimedValues → TimedValues
  | [member] => member
  | members =>
      .ofList ((collectMembers members).toList.filterMap fun (timestamp, points) =>
        (aggregator.aggregate points).map fun value => (timestamp, value))

/-- Points with timestamps in units of the given number of milliseconds; the last point of each
unit counts. -/
def inUnits (divisor : Timestamp) (points : TimedValues) : TimedValues :=
  .ofList (points.toList.map fun (timestamp, value) => (timestamp.quotient divisor, value))

/-! ## Subqueries -/

/-- What a subquery looks up in a cache. -/
structure Scan where
  subquery : Subquery
  filter : TagFilter
  downsampling : Option Downsampling
  start : Timestamp
  stop : Timestamp
  deriving DecidableEq, Repr

namespace Scan

/-- The points of a series that a scan makes something of. -/
def pointsOf (scan : Scan) (series : Series) (held : HeldSeries) : Except Failure TimedValues := do
  let entries ← held.entriesWithin series scan.start scan.stop
  timedValues (← scan.subquery.process scan.downsampling entries)

/-- The scan selects the series. -/
def selects (scan : Scan) (series : Series) : Bool :=
  series.metric == scan.subquery.metric && scan.filter.accepts series.tags

/-- The members of each group, in the order of series; a series without points is none. -/
def groupMembers (scan : Scan) (found : List (Series × TimedValues)) :
    SortedMap Tags (List TimedValues) :=
  (found.filter fun pair => !pair.2.isEmpty).foldl (fun groups (series, points) =>
    groups.alter (scan.filter.groupOf series.tags) fun members => members.getD [] ++ [points])
    .empty

/-- The answer that a scan finds in the selected series. -/
def answer (scan : Scan) (divisor : Timestamp) (selected : List (Series × HeldSeries)) : Answer :=
  let found := selected.map fun (series, held) => (series, scan.pointsOf series held)
  let groups := scan.groupMembers (found.filterMap fun (series, points) =>
    points.toOption.map fun points => (series, points))
  { groups := groups.toList.map fun (tags, members) =>
      ⟨scan.subquery.metric, tags,
        inUnits divisor (mergeMembers scan.subquery.aggregator members)⟩
    omissions := found.filterMap fun (series, points) =>
      match points with
      | .ok _ => none
      | .error cause => some (.series series cause) }

end Scan

namespace Cache

/-- What a subquery looks up at a given time; nothing if its whole span is past retention. -/
def scan? (cache : Cache) (query : Query) (subquery : Subquery) (now : Timestamp) :
    Except Failure (Option Scan) := do
  let filter ← subquery.tagFilter
  let downsampling ← subquery.parsedDownsampling
  let start := max query.start (cache.settings.retention.oldestRetained subquery.metric now)
  if query.stop < start then
    return none
  match downsampling with
  | some spec =>
      return some ⟨subquery, filter, downsampling, spec.bucketStart start,
        spec.bucketEnd query.stop⟩
  | none => return some ⟨subquery, filter, none, start, query.stop⟩

/-- The held series that a scan selects, in order. -/
def selected (cache : Cache) (scan : Scan) : List (Series × HeldSeries) :=
  cache.held.toList.filter fun pair => scan.selects pair.1

/-- The answer to a subquery. -/
def answerSubquery (cache : Cache) (query : Query) (subquery : Subquery) (now : Timestamp) :
    Answer :=
  match cache.scan? query subquery now with
  | .ok (some scan) => scan.answer query.divisor (cache.selected scan)
  | .ok none => ⟨[], []⟩
  | .error cause => ⟨[], [.subquery subquery.metric cause]⟩

/-- The answer to a query at a given time. -/
def answer (cache : Cache) (query : Query) (now : Timestamp) : Except Failure Answer := do
  query.validate
  return .concat (query.subqueries.map fun subquery => cache.answerSubquery query subquery now)

/-- The cache after a subquery, which touches the series that it selects in their order. -/
def touchedBySubquery (cache : Cache) (query : Query) (subquery : Subquery) (now : Timestamp) :
    Cache :=
  match cache.scan? query subquery now with
  | .ok (some scan) => ((cache.selected scan).map Prod.fst).foldl touch cache
  | _ => cache

/-- The cache after a query. -/
def touchedBy (cache : Cache) (query : Query) (now : Timestamp) : Cache :=
  match query.validate with
  | .ok () =>
      query.subqueries.foldl (fun cache subquery => cache.touchedBySubquery query subquery now)
        cache
  | .error _ => cache

/-- Answers a query. -/
def ask (cache : Cache) (query : Query) (now : Timestamp) : Cache × Except Failure Answer :=
  (cache.touchedBy query now, cache.answer query now)

end Cache

end TimeSeries
