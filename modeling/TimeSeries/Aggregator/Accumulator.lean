import TimeSeries.Aggregator.Basic
import TimeSeries.Series

/-!
# Aggregating

An accumulator takes points one by one and has a result once it has taken one.  Sums start from
zero and add in the order of the points, the deviation follows the running mean, the least and the
greatest value keep the earlier of two equal ones.  The first value is that of the smallest
timestamp, of equal ones the one added first; the last value is that of the greatest timestamp, of
equal ones the one added last.  A percentile is the value at the nearest rank in the total order of
values.
-/

set_option autoImplicit false

namespace TimeSeries

/-- An aggregator at work. -/
inductive Accumulator where
  | mean (total : Binary64) (taken : Nat)
  | sum (total : Binary64) (taken : Nat)
  | least (held : Option Binary64)
  | greatest (held : Option Binary64)
  | count (taken : Nat)
  | deviation (taken : Nat) (middle squares : Binary64)
  | first (held : Option Point)
  | last (held : Option Point)
  /-- The values taken, the latest first. -/
  | percentile (percent : Percent) (values : List Binary64)
  deriving DecidableEq, Repr, Inhabited

/-- An accumulator that has taken nothing. -/
def Aggregator.accumulator : Aggregator → Accumulator
  | mean => .mean .zero 0
  | sum => .sum .zero 0
  | least => .least none
  | greatest => .greatest none
  | count => .count 0
  | deviation => .deviation 0 .zero .zero
  | first => .first none
  | last => .last none
  | percentile percent => .percentile percent []

namespace Accumulator

/-- The value at the nearest rank of a percentage: the rank is computed with doubles, rounded up and
kept within the number of values. -/
def nearestRank (percent : Percent) (values : List Binary64) : Option Binary64 :=
  let sorted := values.mergeSort Binary64.totalOrder
  let share := Binary64.ofNat percent.value / Binary64.ofNat 100 * Binary64.ofNat sorted.length
  let rank := Nat.max 1 (Nat.min sorted.length share.ceilNat)
  sorted[rank - 1]?

/-- Takes a point. -/
def add (point : Point) : Accumulator → Accumulator
  | mean total taken => .mean (total + point.value) (taken + 1)
  | sum total taken => .sum (total + point.value) (taken + 1)
  | least none => .least (some point.value)
  | least (some held) => .least (some (held.min point.value))
  | greatest none => .greatest (some point.value)
  | greatest (some held) => .greatest (some (held.max point.value))
  | count taken => .count (taken + 1)
  | deviation taken middle squares =>
      let distance := point.value - middle
      let nextMiddle := middle + distance / Binary64.ofNat (taken + 1)
      .deviation (taken + 1) nextMiddle (squares + distance * (point.value - nextMiddle))
  | first none => .first (some point)
  | first (some held) => .first (some (if held.timestamp ≤ point.timestamp then held else point))
  | last none => .last (some point)
  | last (some held) => .last (some (if point.timestamp < held.timestamp then held else point))
  | percentile percent values => .percentile percent (point.value :: values)

/-- The value of the points taken, if there are any. -/
def result : Accumulator → Option Binary64
  | mean total taken => if 0 < taken then some (total / Binary64.ofNat taken) else none
  | sum total taken => if 0 < taken then some total else none
  | least held => held
  | greatest held => held
  | count taken => if 0 < taken then some (Binary64.ofNat taken) else none
  | deviation taken _ squares =>
      if 0 < taken then some (squares / Binary64.ofNat taken).sqrt else none
  | first held => held.map Point.value
  | last held => held.map Point.value
  | percentile percent values => if values.isEmpty then none else nearestRank percent values

/-- Forgets the points taken. -/
def reset : Accumulator → Accumulator
  | mean _ _ => .mean .zero 0
  | sum _ _ => .sum .zero 0
  | least _ => .least none
  | greatest _ => .greatest none
  | count _ => .count 0
  | deviation _ _ _ => .deviation 0 .zero .zero
  | first _ => .first none
  | last _ => .last none
  | percentile percent _ => .percentile percent []

end Accumulator

/-- The value of some points, in the order in which they are given. -/
def Aggregator.aggregate (aggregator : Aggregator) (points : List Point) : Option Binary64 :=
  (points.foldl (fun accumulator point => accumulator.add point) aggregator.accumulator).result

end TimeSeries
