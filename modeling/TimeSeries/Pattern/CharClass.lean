import TimeSeries.Text.Age
import TimeSeries.Text.CaseFolding
import TimeSeries.Text.Script

/-!
# Character classes

A class of characters is built from ranges and properties by the operations of sets.  A class can
also be widened to the characters that differ only in case from one of its own.

Patterns are read over all characters or over ASCII alone.  In ASCII a property holds of ASCII
characters only, and case is that of the ASCII letters.
-/

set_option autoImplicit false

namespace TimeSeries

/-- The characters over which a pattern is read. -/
inductive Repertoire where
  | unicode
  | ascii
  deriving DecidableEq, Repr, Inhabited

/-- The characters that differ from a character only in case, itself included. -/
def Repertoire.caseVariants (repertoire : Repertoire) (char : Char) : List Char :=
  match repertoire with
  | .unicode => Text.caseVariants char
  | .ascii => [char, Text.lowerLetter char, Text.upperLetter char]

/-- A property of characters. -/
inductive CharProperty where
  | digit
  | blank
  | word
  /-- A general category or a group of them, by the letters with which its name begins. -/
  | category (name : String)
  /-- The script with a code. -/
  | script (code : String)
  /-- Being in use in texts of the script with a code. -/
  | usedIn (code : String)
  /-- Having been assigned in a version of Unicode. -/
  | assignedIn (version : String)
  | alphabetic
  | uppercase
  | lowercase
  /-- Having a code point in one of these ranges. -/
  | within (ranges : List (Nat × Nat))
  | any
  deriving DecidableEq, Repr, Inhabited

/-- The property holds of a character. -/
def CharProperty.holds (property : CharProperty) (char : Char) : Bool :=
  match property with
  | digit => Text.isCategory "Nd" char
  | blank => Text.isBlank char
  | word => Text.isWordChar char
  | category name => Text.isCategory name char
  | script code => Text.script? char == some code
  | usedIn code => Text.isUsedIn code char
  | assignedIn version => Text.isAssignedIn version char
  | alphabetic => Text.isAlphabetic char
  | uppercase => Text.isUppercase char
  | lowercase => Text.isLowercase char
  | within ranges => Text.inRanges ranges char.toNat
  | any => true

/-- A set of characters. -/
inductive CharClass where
  | nothing
  /-- The characters from one to another. -/
  | range (first last : Char)
  /-- The characters that have a property. -/
  | having (property : CharProperty)
  | union (left right : CharClass)
  | intersection (left right : CharClass)
  | difference (left right : CharClass)
  | symmetricDifference (left right : CharClass)
  | complement (inner : CharClass)
  /-- The characters of which some variant in case is in the class. -/
  | caseless (repertoire : Repertoire) (inner : CharClass)
  deriving DecidableEq, Repr, Inhabited

namespace CharClass

/-- A character is in the class. -/
def contains : CharClass → Char → Bool
  | nothing, _ => false
  | range first last, char => first ≤ char && char ≤ last
  | having property, char => property.holds char
  | union left right, char => left.contains char || right.contains char
  | intersection left right, char => left.contains char && right.contains char
  | difference left right, char => left.contains char && !right.contains char
  | symmetricDifference left right, char => left.contains char != right.contains char
  | complement inner, char => !inner.contains char
  | caseless repertoire inner, char => (repertoire.caseVariants char).any inner.contains

/-- The class of one character. -/
def single (char : Char) : CharClass := range char char

/-- The characters of several classes. -/
def unionOf : List CharClass → CharClass
  | [] => nothing
  | [only] => only
  | first :: rest => union first (unionOf rest)

/-- The ASCII characters. -/
def ascii : CharClass := range '\x00' '\x7f'

/-- The class holds no character between the ASCII characters and `U+0100`, and so no byte that is
no ASCII character. -/
def isAscii (characters : CharClass) : Bool :=
  (List.range 128).all fun offset => !characters.contains (Char.ofNat (128 + offset))

end CharClass

end TimeSeries
