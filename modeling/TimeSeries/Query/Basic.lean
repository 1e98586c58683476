import TimeSeries.Downsampling
import TimeSeries.MovingFilter

/-!
# Queries

A query asks for points within a span of time, both ends included, and consists of subqueries that
are answered one by one.  A subquery selects the series of one metric by patterns for their tags.
It may turn points into rates and then into one value for each bucket of time, and it names the
aggregator by which series of one group become one.

Timestamps of an answer are in seconds unless the query asks for milliseconds.
-/

set_option autoImplicit false

namespace TimeSeries

/-- What is asked of the series of one metric. -/
structure Subquery where
  metric : String
  /-- For each tag key that a series must have, the pattern of its value. -/
  patterns : SortedMap String String
  /-- The text of a downsampling. -/
  downsampling : Option String
  /-- Points are turned into rates. -/
  rate : Bool
  rateOptions : RateOptions
  /-- How the series of one group become one. -/
  aggregator : Aggregator
  deriving DecidableEq, Repr

namespace Subquery

/-- Asks for every series of a metric as it is; series of one group become their mean. -/
def ofMetric (metric : String) : Subquery :=
  ⟨metric, .empty, none, false, .standard, .mean⟩

/-- Requires a tag whose value has a pattern. -/
def withPattern (subquery : Subquery) (key pattern : String) : Subquery :=
  { subquery with patterns := subquery.patterns.insert key pattern }

/-- Asks for rates instead of values. -/
def withRate (subquery : Subquery) (options : RateOptions) : Subquery :=
  { subquery with rate := true, rateOptions := options }

/-- The downsampling that is asked for, if any. -/
def parsedDownsampling (subquery : Subquery) : Except Failure (Option Downsampling) :=
  subquery.downsampling.mapM Downsampling.parse

end Subquery

/-- What is asked of a span of time. -/
structure Query where
  start : Timestamp
  stop : Timestamp
  /-- Timestamps of the answer are in milliseconds. -/
  inMilliseconds : Bool
  subqueries : List Subquery
  deriving DecidableEq, Repr

namespace Query

/-- The number of milliseconds in the unit of the answer. -/
def divisor (query : Query) : Timestamp :=
  if query.inMilliseconds then 1 else 1000

/-- The span of a query must not end before it starts. -/
def validate (query : Query) : Except Failure Unit :=
  if query.stop < query.start then
    .error (.query (.window query.start query.stop))
  else
    .ok ()

end Query

end TimeSeries
