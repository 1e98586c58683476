import TimeSeries.Entry

/-!
# Ranges of keys

A range of keys has a bound at each end, which may include its key, exclude it, or be missing.  The
rows of one metric are a range, and so are those within a span of time, both ends included.

`KeyRange.widened` moves the start of a range to the first row of its metric: a packed run is stored
under its first point, so entries from before the start may hold points within the range.
-/

set_option autoImplicit false

namespace TimeSeries

/-- One end of a range. -/
inductive Bound where
  | unbounded
  | included (key : Key)
  | excluded (key : Key)
  deriving DecidableEq, Repr, Inhabited

/-- The keys between two bounds. -/
structure KeyRange where
  start : Bound
  stop : Bound
  deriving DecidableEq, Repr, Inhabited

namespace KeyRange

/-- Every key. -/
def all : KeyRange := ⟨.unbounded, .unbounded⟩

/-- The rows of a metric. -/
def ofMetric (metric : String) : KeyRange :=
  ⟨.included (.ofRow (Row.first metric)), .excluded (.ofRow (Row.behind metric))⟩

/-- The rows of a metric from one timestamp to another, both included. -/
def between (metric : String) (first last : Timestamp) : KeyRange :=
  let stop := match last.succ? with
    | some next => Row.ofPoint metric next
    | none => Row.behind metric
  ⟨.included (.ofRow (Row.ofPoint metric first)), .excluded (.ofRow stop)⟩

/-- The key lies in front of the range. -/
def startsAfter (range : KeyRange) (key : Key) : Bool :=
  match range.start with
  | .unbounded => false
  | .included start => compare key start == .lt
  | .excluded start => compare key start != .gt

/-- The key lies behind the range. -/
def stopsBefore (range : KeyRange) (key : Key) : Bool :=
  match range.stop with
  | .unbounded => false
  | .included stop => compare key stop == .gt
  | .excluded stop => compare key stop != .lt

/-- The key lies within the range. -/
def contains (range : KeyRange) (key : Key) : Bool :=
  !range.startsAfter key && !range.stopsBefore key

/-- A bound moved to the first row of its metric, if its row names one. -/
def widenedStart : Bound → Bound
  | .unbounded => .unbounded
  | .included key =>
      match key.metric with
      | .ok metric => .included (.ofRow (Row.first metric))
      | .error _ => .included key
  | .excluded key =>
      match key.metric with
      | .ok metric => .included (.ofRow (Row.first metric))
      | .error _ => .excluded key

/-- The range from the first row of the metric in which it starts. -/
def widened (range : KeyRange) : KeyRange :=
  { range with start := widenedStart range.start }

end KeyRange

end TimeSeries
