/-!
# Timestamps

A timestamp counts milliseconds from the epoch in a signed 64-bit word, and a length of time is a
word of the same kind.  Words wrap around, so each operation that must not is named for what it
does at the ends of the range: `clamp` and the saturating operations stay at the end they reach,
the checked ones have no result.

`Timestamp.floorTo` and `Timestamp.residue` split a timestamp into the start of its window, in
the grid of multiples of a width, and the offset into that window.  The grid extends below zero:
the residue is never negative.
-/

set_option autoImplicit false

namespace TimeSeries

/-- Milliseconds from the epoch. -/
abbrev Timestamp := Int64

namespace Timestamp

/-- The least timestamp. -/
def earliest : Timestamp := Int64.minValue

/-- The greatest timestamp. -/
def latest : Timestamp := Int64.maxValue

/-- An integer is a timestamp when it fits in 64 bits. -/
def ofInt? (number : Int) : Option Timestamp :=
  if earliest.toInt ≤ number ∧ number ≤ latest.toInt then some (Int64.ofInt number) else none

/-- The timestamp nearest to an integer. -/
def clamp (number : Int) : Timestamp :=
  if number < earliest.toInt then earliest
  else if latest.toInt < number then latest
  else Int64.ofInt number

/-- Subtraction that stays at the end of the range it would leave. -/
def saturatingSub (left right : Timestamp) : Timestamp :=
  clamp (left.toInt - right.toInt)

/-- Addition that stays at the end of the range it would leave. -/
def saturatingAdd (left right : Timestamp) : Timestamp :=
  clamp (left.toInt + right.toInt)

/-- Multiplication that has no result outside the range. -/
def mul? (left right : Timestamp) : Option Timestamp :=
  ofInt? (left.toInt * right.toInt)

/-- The following timestamp, if there is one. -/
def succ? (timestamp : Timestamp) : Option Timestamp :=
  ofInt? (timestamp.toInt + 1)

/-- The offset of a timestamp into its window: the remainder that is not negative. -/
def residue (timestamp width : Timestamp) : Timestamp :=
  Int64.ofInt (timestamp.toInt % width.toInt)

/-- The start of the window of the given width that holds the timestamp. -/
def floorTo (timestamp width : Timestamp) : Timestamp :=
  timestamp - timestamp.residue width

/-- The quotient that belongs to the remainder which is not negative. -/
def quotient (timestamp divisor : Timestamp) : Timestamp :=
  Int64.ofInt (timestamp.toInt / divisor.toInt)

/-- A timestamp in decimal digits. -/
def text (timestamp : Timestamp) : String :=
  toString timestamp.toInt

/-! ## Values -/

theorem ofInt?_eq_some_iff {number : Int} {timestamp : Timestamp} :
    ofInt? number = some timestamp ↔ timestamp.toInt = number := by
  have least : (earliest : Timestamp).toInt = -2 ^ 63 := by decide
  have greatest : (latest : Timestamp).toInt = 2 ^ 63 - 1 := by decide
  unfold ofInt?
  rw [least, greatest]
  constructor
  · intro accepted
    split at accepted
    case isTrue fits =>
      cases accepted
      exact Int64.toInt_ofInt_of_le fits.1 (by omega)
    case isFalse => cases accepted
  · intro same
    subst same
    have below := timestamp.le_toInt
    have above := timestamp.toInt_lt
    rw [if_pos ⟨by omega, by omega⟩, Int64.ofInt_toInt]

theorem toInt_clamp (number : Int) :
    (clamp number).toInt
      = Max.max (earliest : Timestamp).toInt (Min.min (latest : Timestamp).toInt number) := by
  have least : (earliest : Timestamp).toInt = -2 ^ 63 := by decide
  have greatest : (latest : Timestamp).toInt = 2 ^ 63 - 1 := by decide
  unfold clamp
  rw [least, greatest]
  split
  case isTrue low => rw [least]; omega
  case isFalse low =>
    split
    case isTrue high => rw [greatest]; omega
    case isFalse high => rw [Int64.toInt_ofInt_of_le (by omega) (by omega)]; omega

end Timestamp

end TimeSeries
