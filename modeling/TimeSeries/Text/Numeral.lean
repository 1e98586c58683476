import TimeSeries.Binary64
import TimeSeries.Timestamp

/-!
# Numbers in text

An integer is an optional sign and one or more decimal digits.  A decimal number is an optional
sign and either one of the words `inf`, `infinity` and `nan` in letters of any case, or decimal
digits, with a point before, among or after them, and an optional power of ten.  It is read as the
double nearest to it, a tie going to the even neighbour; beyond the largest double is infinity.

Main statement: `natOfDigits_append` says that digits are read from the left, whatever follows.
-/

set_option autoImplicit false

namespace TimeSeries.Text

/-! ## Digits -/

/-- A decimal digit of ASCII. -/
def isDigit (char : Char) : Bool := '0' ≤ char && char ≤ '9'

/-- The number written by a digit. -/
def digitValue (digit : Char) : Nat := digit.toNat - 48

/-- The number written by decimal digits, continuing one already read. -/
def natOfDigits (digits : List Char) (start : Nat) : Nat :=
  digits.foldl (fun number digit => 10 * number + digitValue digit) start

/-- A number in one or more decimal digits. -/
def readNat? (chars : List Char) : Option Nat :=
  if chars.isEmpty || !chars.all isDigit then none else some (natOfDigits chars 0)

/-- Takes a sign off the front: whether it is a minus, and what follows. -/
def takeSign : List Char → Bool × List Char
  | '-' :: rest => (true, rest)
  | '+' :: rest => (false, rest)
  | chars => (false, chars)

/-- An integer with an optional sign. -/
def readInt? (text : String) : Option Int :=
  let (negative, digits) := takeSign text.toList
  (readNat? digits).map fun number => if negative then -(number : Int) else number

/-- A timestamp, or a length of time, in decimal. -/
def readTimestamp? (text : String) : Option Timestamp :=
  (readInt? text).bind Timestamp.ofInt?

/-- A natural number with an optional plus sign. -/
def readUnsigned? : List Char → Option Nat
  | '+' :: digits => readNat? digits
  | digits => readNat? digits

/-! ## Decimal numbers -/

/-- A decimal number: digits times a power of ten. -/
structure Decimal where
  negative : Bool
  digits : Nat
  exponent : Int
  deriving DecidableEq, Repr

/-- The double nearest to a number given by its digits and a power of ten.  Powers beyond the range
of doubles are decided by the size of the number alone. -/
def nearest (digits : Nat) (exponent : Int) : Binary64 :=
  let magnitude := (Nat.toDigits 10 digits).length + exponent
  if digits = 0 ∨ magnitude < -400 then Binary64.zero
  else if 400 < magnitude then Binary64.infinity
  else ⟨(Float.ofScientific digits (exponent < 0) exponent.natAbs).toBits⟩

/-- The double nearest to a decimal number. -/
def Decimal.toBinary64 (decimal : Decimal) : Binary64 :=
  let magnitude := nearest decimal.digits decimal.exponent
  if decimal.negative then -magnitude else magnitude

/-- The power of ten at the end of a decimal number: nothing, or the letter and an integer. -/
def readExponent? : List Char → Option Int
  | [] => some 0
  | letter :: rest =>
      if letter = 'e' ∨ letter = 'E' then
        let (negative, digits) := takeSign rest
        (readNat? digits).map fun number => if negative then -(number : Int) else number
      else
        none

/-- A decimal number without its sign. -/
def readUnsignedDecimal? (negative : Bool) (chars : List Char) : Option Decimal := do
  let whole := chars.takeWhile isDigit
  let (fraction, rest) := match chars.dropWhile isDigit with
    | '.' :: rest => (rest.takeWhile isDigit, rest.dropWhile isDigit)
    | rest => ([], rest)
  if whole.isEmpty && fraction.isEmpty then
    none
  else
    let exponent ← readExponent? rest
    return ⟨negative, natOfDigits (whole ++ fraction) 0, exponent - fraction.length⟩

/-- An ASCII letter in its small form. -/
def lowerLetter (char : Char) : Char :=
  if 'A' ≤ char ∧ char ≤ 'Z' then Char.ofNat (char.toNat + 32) else char

/-- An ASCII letter in its capital form. -/
def upperLetter (char : Char) : Char :=
  if 'a' ≤ char ∧ char ≤ 'z' then Char.ofNat (char.toNat - 32) else char

/-- The value of a word that stands for no finite number. -/
def namedValue? (word : List Char) : Option Binary64 :=
  let name := String.ofList (word.map lowerLetter)
  if name = "inf" ∨ name = "infinity" then some Binary64.infinity
  else if name = "nan" then some Binary64.notANumber
  else none

/-- A sample value in text. -/
def readValue? (text : String) : Option Binary64 :=
  let (negative, chars) := takeSign text.toList
  match namedValue? chars with
  | some value => some (if negative then -value else value)
  | none => (readUnsignedDecimal? negative chars).map Decimal.toBinary64

/-! ## Laws -/

theorem natOfDigits_append (first second : List Char) (start : Nat) :
    natOfDigits (first ++ second) start = natOfDigits second (natOfDigits first start) := by
  simp only [natOfDigits, List.foldl_append]

end TimeSeries.Text
