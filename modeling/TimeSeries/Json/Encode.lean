import TimeSeries.Json.Basic
import TimeSeries.SortedMap

/-!
# Writing values as documents

What a value is in a document.  Documents have no number for an infinity or for what is not a
number; such a double is written as `null`.
-/

set_option autoImplicit false

namespace TimeSeries.Json

/-- A natural number. -/
def ofCount (count : Nat) : Json := number (.natural count)

def ofTimestamp (timestamp : Timestamp) : Json :=
  if 0 ≤ timestamp then number (.natural timestamp.toInt.toNat)
  else number (.negative timestamp.toInt)

/-- A double. -/
def ofValue (value : Binary64) : Json :=
  if value.isFinite then number (.real value) else null

/-- A value, or `null` where there is none. -/
def ofOption {α : Type} (encode : α → Json) : Option α → Json
  | some value => encode value
  | none => null

/-- An array. -/
def ofList {α : Type} (encode : α → Json) (values : List α) : Json :=
  array (values.map encode) true

/-- An object with the given members. -/
def record (members : List (String × Json)) : Json := object members true

/-- An object with a member for each key of a map. -/
def ofMap {κ ν : Type} [Ord κ] (name : κ → String) (encode : ν → Json) (map : SortedMap κ ν) :
    Json :=
  record (map.toList.map fun pair => (name pair.1, encode pair.2))

end TimeSeries.Json
