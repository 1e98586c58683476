import TimeSeries.Binary64
import TimeSeries.Text.Numeral

/-!
# JSON documents

A JSON text is read from the left, and what is done with a document must not depend on text behind
the first mistake in it.  The tree of a document therefore also has a shape for text that stops
being JSON: an array or an object holds what was read of it and whether its end was reached, and a
value that could not be read at all is `malformed`.  Reading values off the tree from the left then
meets a mistake in the text exactly when everything before it was as it should be.

Two values have the form of JSON and yet denote nothing: a number beyond the range of doubles and a
string with half a surrogate pair.  They are `unreadable`, which is a mistake for whoever wants the
value and none for whoever skips it.

Numbers keep apart what text keeps apart: integers of 64 bits are exact, and a number with a point
or an exponent is a double even if its value is whole.
-/

set_option autoImplicit false

namespace TimeSeries

namespace Json

/-- A number of a document. -/
inductive Number where
  /-- A natural number below `2 ^ 64`, written without point and exponent. -/
  | natural (value : Nat)
  /-- A negative integer of 64 bits, written without point and exponent. -/
  | negative (value : Int)
  /-- Any other number. -/
  | real (value : Binary64)
  deriving DecidableEq, Repr, Inhabited

/-- The greatest natural number that is kept exact. -/
def greatestNatural : Nat := UInt64.size - 1

/-- Digits collected in a word of 64 bits: the number they write, and whether all of them fit. -/
def collectDigits (number : Nat) : List Char → Nat × List Char
  | [] => (number, [])
  | digit :: rest =>
      let longer := 10 * number + Text.digitValue digit
      if longer ≤ greatestNatural then collectDigits longer rest else (number, digit :: rest)

/-- A number times a power of ten, computed with doubles: one multiplication or division by a power
of ten up to the 308th, and for powers below that one division more.  There is no result beyond the
range of doubles. -/
def scaled? (significand : Nat) (exponent : Int) : Option Binary64 :=
  let start := Binary64.ofNat significand
  if significand = 0 then
    some Binary64.zero
  else if 308 < exponent then
    none
  else if 0 ≤ exponent then
    let product := start * Text.nearest 1 exponent
    if product.isFinite then some product else none
  else if -308 ≤ exponent then
    some (start / Text.nearest 1 (-exponent))
  else if -616 ≤ exponent then
    some (start / Text.nearest 1 308 / Text.nearest 1 (-exponent - 308))
  else
    some Binary64.zero

/-- The parts of a number in text: digits before the point, digits after it if there is one, and
the power of ten if one is given. -/
structure Numeral where
  negative : Bool
  whole : List Char
  fraction : Option (List Char)
  power : Option Int
  deriving DecidableEq, Repr

/-- The number that a numeral writes.  Digits are collected as long as they fit in a word; further
digits before the point count as powers of ten, and those after it are dropped. -/
def Numeral.value? (numeral : Numeral) : Option Number :=
  let (significand, excess) := collectDigits 0 numeral.whole
  match numeral.fraction, numeral.power, excess with
  | none, none, [] =>
      if !numeral.negative then
        some (.natural significand)
      else if 0 < significand ∧ significand ≤ UInt64.size / 2 then
        some (.negative (-(significand : Int)))
      else
        some (.real (-Binary64.ofNat significand))
  | fraction, power, excess =>
      let digits := fraction.getD []
      let (significand, dropped) := collectDigits significand digits
      let exponent :=
        (excess.length : Int) - (digits.length - dropped.length : Nat) + power.getD 0
      (scaled? significand exponent).map fun magnitude =>
        .real (if numeral.negative then -magnitude else magnitude)

end Json

/-- A document, as far as its text is one. -/
inductive Json where
  | null
  | bool (value : Bool)
  | number (value : Json.Number)
  | string (value : String)
  /-- The items read, and whether the array ends behind them. -/
  | array (items : List Json) (ended : Bool)
  /-- The members read, in the order of the text, and whether the object ends behind them. -/
  | object (members : List (String × Json)) (ended : Bool)
  /-- A value that denotes nothing. -/
  | unreadable
  /-- Text that is no value. -/
  | malformed
  deriving Repr, Inhabited

namespace Json

mutual

/-- The text of the whole value has the form of JSON. -/
def isComplete : Json → Bool
  | malformed => false
  | array items ended => itemsComplete items && ended
  | object members ended => membersComplete members && ended
  | _ => true

def itemsComplete : List Json → Bool
  | [] => true
  | item :: rest => isComplete item && itemsComplete rest

def membersComplete : List (String × Json) → Bool
  | [] => true
  | (_, value) :: rest => isComplete value && membersComplete rest

end

end Json

end TimeSeries
