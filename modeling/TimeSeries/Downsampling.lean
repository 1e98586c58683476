import TimeSeries.Aggregator.Basic

/-!
# Downsampling

Downsampling replaces the points in each bucket of time by one value.  It is written as the length
of the buckets, a number with the unit `ms`, `s`, `m`, `h` or `d`, then a dash and the name of the
aggregator.  Buckets start at the multiples of their length and hold their start but not their end.
-/

set_option autoImplicit false

namespace TimeSeries

/-- Buckets of one length and the function that makes one value of each. -/
structure Downsampling where
  period : Timestamp
  aggregator : Aggregator
  period_pos : 0 < period
  deriving DecidableEq, Repr

namespace Downsampling

/-- The milliseconds of a unit of time. -/
def unitMillis? : String → Option Timestamp
  | "ms" => some 1
  | "s" => some 1000
  | "m" => some 60000
  | "h" => some 3600000
  | "d" => some 86400000
  | _ => none

/-- The length of time that a number and a unit write, in milliseconds. -/
def periodOf? (interval : List Char) : Option Timestamp := do
  let amount ← Text.readNat? (interval.takeWhile Text.isDigit)
  let amount ← Timestamp.ofInt? amount
  let unit ← unitMillis? (String.ofList (interval.dropWhile Text.isDigit))
  amount.mul? unit

/-- The downsampling that a text writes. -/
def parse (text : String) : Except Failure Downsampling :=
  let chars := Text.trimBlanks text.toList
  match chars.dropWhile (· != '-') with
  | [] => .error (.query (.downsampling text))
  | _ :: name =>
      match periodOf? (chars.takeWhile (· != '-')) with
      | none => .error (.query (.downsampling text))
      | some period =>
          if positive : 0 < period then do
            let aggregator ← Aggregator.parse (String.ofList name)
            return ⟨period, aggregator, positive⟩
          else
            .error (.query (.downsampling text))

/-- The start of the bucket that holds a timestamp. -/
def bucketStart (downsampling : Downsampling) (timestamp : Timestamp) : Timestamp :=
  timestamp.floorTo downsampling.period

/-- The first start of a bucket that is not before a timestamp. -/
def bucketEnd (downsampling : Downsampling) (timestamp : Timestamp) : Timestamp :=
  let offset := timestamp.residue downsampling.period
  if offset = 0 then timestamp else timestamp.saturatingAdd (downsampling.period - offset)

end Downsampling

end TimeSeries
