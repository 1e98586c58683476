import TimeSeries.Failure
import TimeSeries.Text.Blank
import TimeSeries.Text.Numeral

/-!
# Aggregators

An aggregator names the function that makes one value out of many.  Names are read with blanks
around them and in letters of any case, some functions go by two names, and a percentile is the
letter `p` with a number of percent from 1 to 99.
-/

set_option autoImplicit false

namespace TimeSeries

/-- A number of percent from 1 to 99. -/
structure Percent where
  value : Nat
  one_le : 1 ≤ value
  le_ninetyNine : value ≤ 99
  deriving DecidableEq, Repr

namespace Percent

instance : Inhabited Percent := ⟨⟨50, by decide, by decide⟩⟩

/-- A number, if it is from 1 to 99. -/
def ofNat? (value : Nat) : Option Percent :=
  if fits : 1 ≤ value ∧ value ≤ 99 then some ⟨value, fits.1, fits.2⟩ else none

/-- The nearest number from 1 to 99. -/
def clamp (value : Nat) : Percent :=
  ⟨Nat.max 1 (Nat.min 99 value), Nat.le_max_left _ _,
    Nat.max_le.mpr ⟨by decide, Nat.min_le_left _ _⟩⟩

end Percent

/-- A function from many values to one. -/
inductive Aggregator where
  | mean
  | sum
  | least
  | greatest
  | count
  /-- The standard deviation of the values as a whole population. -/
  | deviation
  /-- The value of the earliest point. -/
  | first
  /-- The value of the latest point. -/
  | last
  /-- The value at a rank in the order of values. -/
  | percentile (percent : Percent)
  deriving DecidableEq, Repr, Inhabited

namespace Aggregator

/-- The name of an aggregator. -/
def name : Aggregator → String
  | mean => "avg"
  | sum => "sum"
  | least => "min"
  | greatest => "max"
  | count => "count"
  | deviation => "dev"
  | first => "first"
  | last => "last"
  | percentile percent => s!"p{percent.value}"

/-- The aggregator of a percentile name in small letters. -/
def percentileOf? : List Char → Option Aggregator
  | 'p' :: digits => (Text.readUnsigned? digits).bind fun number =>
      (Percent.ofNat? number).map percentile
  | _ => none

/-- The aggregator that a name stands for.  Only ASCII letters matter: no other character has a
small form that occurs in a name. -/
def ofName? (text : String) : Option Aggregator :=
  let chars := (Text.trimBlanks text.toList).map Text.lowerLetter
  match String.ofList chars with
  | "avg" => some mean
  | "mean" => some mean
  | "sum" => some sum
  | "min" => some least
  | "max" => some greatest
  | "count" => some count
  | "dev" => some deviation
  | "stddev" => some deviation
  | "first" => some first
  | "last" => some last
  | "median" => some (percentile default)
  | _ => percentileOf? chars

/-- The aggregator that a name stands for, or the news that it stands for none. -/
def parse (text : String) : Except Failure Aggregator :=
  match ofName? text with
  | some aggregator => .ok aggregator
  | none => .error (.query (.aggregator text))

end Aggregator

end TimeSeries
