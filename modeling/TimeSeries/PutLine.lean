import TimeSeries.Failure
import TimeSeries.Series
import TimeSeries.Text.Blank
import TimeSeries.Text.Numeral

/-!
# Put lines

Samples arrive as lines of words: optionally the word `put`, then a metric, a timestamp, a value
and one or more tags `key=value`.  The first equals sign of a word separates key and value, and
neither may be empty.  The timestamp counts seconds or milliseconds, whichever the sender says.

Text of several lines is read line by line; blank lines and lines that start with `#` hold no
sample.  A line that cannot be read does not keep the others from being read, and each result comes
with the number of its line, counted from one.
-/

set_option autoImplicit false

namespace TimeSeries

/-- The unit of the timestamps in put lines. -/
inductive Precision where
  | seconds
  | milliseconds
  deriving DecidableEq, Repr, Inhabited

namespace Precision

/-- The unit that a name stands for. -/
def ofName? (name : String) : Option Precision :=
  if name = "s" ∨ name = "sec" ∨ name = "seconds" then some .seconds
  else if name = "ms" ∨ name = "millis" ∨ name = "milliseconds" then some .milliseconds
  else none

/-- The full name of a unit. -/
def name : Precision → String
  | .seconds => "seconds"
  | .milliseconds => "milliseconds"

/-- The unit whose full name is given. -/
def ofFullName? (text : String) : Option Precision :=
  if text = seconds.name then some .seconds
  else if text = milliseconds.name then some .milliseconds
  else none

/-- A time in the given unit as a timestamp, if it is not out of range. -/
def toTimestamp? (precision : Precision) (time : Timestamp) : Option Timestamp :=
  match precision with
  | .seconds => time.mul? 1000
  | .milliseconds => some time

end Precision

namespace PutLine

/-- The key and the value of a word with an equals sign. -/
def tagOf? (word : String) : Option (String × String) :=
  let chars := word.toList
  let key := chars.takeWhile (· != '=')
  match chars.dropWhile (· != '=') with
  | _ :: char :: value =>
      if key.isEmpty then none else some (String.ofList key, String.ofList (char :: value))
  | _ => none

/-- Adds the tags in the given words to a series. -/
def addTags (series : Series) : List String → Except LineDefect Series
  | [] => .ok series
  | word :: rest =>
      match tagOf? word with
      | some (key, value) => addTags (series.withTag key value) rest
      | none => .error (.tagInvalid word)

/-- The words of a line behind the optional word `put`. -/
def fields (line : String) : List String :=
  match Text.words line with
  | word :: rest => if word = "put" then rest else word :: rest
  | [] => []

/-- The sample in the words of a line. -/
def ofFields (precision : Precision) : List String → Except LineDefect Sample
  | [] => .error .metricMissing
  | metric :: rest => do
      if metric.toList.contains '\x00' then
        throw .metricWithNul
      match rest with
      | [] => throw .timestampMissing
      | time :: rest =>
          let some time := Text.readTimestamp? time | throw .timestampInvalid
          let some timestamp := precision.toTimestamp? time | throw .timestampOutOfRange
          match rest with
          | [] => throw .valueMissing
          | value :: tags =>
              let some value := Text.readValue? value | throw .valueInvalid
              let series ← addTags (Series.ofMetric metric) tags
              if series.tags.isEmpty then
                throw .noTag
              return ⟨series, ⟨timestamp, value⟩⟩

/-- The sample that a line puts. -/
def parse (line : String) (precision : Precision) : Except Failure Sample :=
  match ofFields precision (fields line) with
  | .ok sample => .ok sample
  | .error defect => .error (.format (.line defect line))

end PutLine

/-! ## Several lines -/

/-- A line that could not be taken, and why. -/
structure LineError where
  line : Nat
  message : String
  deriving DecidableEq, Repr

/-- Lines with their numbers, from the given one. -/
def numberLines (number : Nat) : List String → List (Nat × String)
  | [] => []
  | line :: rest => (number, line) :: numberLines (number + 1) rest

/-- The line holds neither a sample nor something that should be one. -/
def isIdleLine (line : String) : Bool :=
  line.isEmpty || line.toList.head? == some '#'

/-- Every line of a text that should put a sample, with its number and what came of it. -/
def parseNumbered (text : String) (precision : Precision) :
    List (Nat × Except Failure Sample) :=
  let trimmed := (numberLines 1 (Text.lines text)).map fun line => (line.1, Text.trim line.2)
  (trimmed.filter fun line => !isIdleLine line.2).map fun line =>
    (line.1, PutLine.parse line.2 precision)

/-- The samples of a text, and the lines that could not be read. -/
def parseLines (text : String) (precision : Precision) : List Sample × List LineError :=
  let parsed := parseNumbered text precision
  (parsed.filterMap fun line => line.2.toOption,
    parsed.filterMap fun line =>
      match line.2 with
      | .ok _ => none
      | .error failure => some ⟨line.1, failure.message⟩)

end TimeSeries
