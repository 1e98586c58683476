import TimeSeries.Failure
import TimeSeries.Series
import TimeSeries.Text.Blank
import TimeSeries.Text.Numeral

/-!
# Moving filters

A moving filter computes a value from the latest points of a series, oldest first, as many as its
size says.  Two kinds are built in: a weighted sum, and the rate of change between two points.

The rate of a counter takes a decrease for the counter having started anew: a decrease beyond the
reset value yields zero, any other is made up for by the greatest value of the counter, if it is
known, and by the previous value otherwise.
-/

set_option autoImplicit false

namespace TimeSeries

/-- A function of the latest points. -/
structure MovingFilter where
  /-- The number of points in a full window. -/
  size : Nat
  compute : List Point → Binary64

namespace MovingFilter

/-! ## Weighted sums -/

/-- The sum of the values times the newest weights, oldest first.  The empty sum is negative zero,
which adding leaves every value as it is. -/
def weightedSum (weights : List Binary64) (window : List Point) : Binary64 :=
  let newest := weights.drop (weights.length - window.length)
  (List.zipWith (fun point weight => point.value * weight) window newest).foldl (· + ·)
    Binary64.negativeZero

/-- The weighted sum of as many points as there are weights. -/
def weighted (weights : List Binary64) : MovingFilter := ⟨weights.length, weightedSum weights⟩

/-- Weights may be any values, but there must be one. -/
def checkWeights (weights : List Binary64) : Except Failure (List Binary64) :=
  if weights.isEmpty then .error (.configuration .noWeights) else .ok weights

/-- The weights in a text, separated by commas. -/
def parseWeights (text : String) : Except Failure (List Binary64) := do
  let words := (Text.pieces (· == ',') text.toList).map String.ofList
  let weights ← words.mapM fun word =>
    match Text.readValue? (Text.trim word) with
    | some weight => .ok weight
    | none => .error (.format (.weight word text))
  checkWeights weights

end MovingFilter

/-! ## Rates -/

/-- How a rate of change is computed. -/
structure RateOptions where
  /-- Values only grow, until they start anew. -/
  counter : Bool
  /-- The greatest value of the counter; it is unknown unless positive. -/
  counterMax : Binary64
  /-- A decrease beyond this value means a reset; none does unless it is positive. -/
  resetValue : Binary64
  /-- The time to which the rate refers. -/
  interval : Timestamp
  deriving DecidableEq, Repr

namespace RateOptions

/-- The change per second of values that may grow and fall. -/
def standard : RateOptions := ⟨false, .zero, .zero, 1000⟩

instance : Inhabited RateOptions := ⟨standard⟩

/-- The change per second of a counter with a greatest value. -/
def ofCounter (greatest : Binary64) : RateOptions :=
  { standard with counter := true, counterMax := greatest }

/-- The value that a counter would have reached, had it not started anew; none if it was reset. -/
def unwrapped (options : RateOptions) (previous current : Binary64) : Option Binary64 :=
  if options.counter && current.lt previous then
    if Binary64.zero.lt options.resetValue && options.resetValue.lt (previous - current) then
      none
    else if Binary64.zero.lt options.counterMax then
      some (current + options.counterMax)
    else
      some (current + previous)
  else
    some current

/-- The rate of change from one point to the next. -/
def rate (options : RateOptions) (previous current : Point) : Binary64 :=
  let elapsed := current.timestamp - previous.timestamp
  if elapsed = 0 then
    .zero
  else
    match options.unwrapped previous.value current.value with
    | none => .zero
    | some value =>
        let interval := if options.interval < 1 then 1 else options.interval
        (value - previous.value) / Binary64.ofInt elapsed.toInt * Binary64.ofInt interval.toInt

end RateOptions

/-- The rate of change between the two points of a window. -/
def MovingFilter.rateOf (options : RateOptions) : List Point → Binary64
  | [previous, current] => options.rate previous current
  | _ => .zero

/-- The rate of change between two points. -/
def MovingFilter.rate (options : RateOptions) : MovingFilter := ⟨2, rateOf options⟩

end TimeSeries
