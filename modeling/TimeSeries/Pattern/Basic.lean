import TimeSeries.Pattern.CharClass

/-!
# Patterns

A pattern describes texts: single characters of a class, one pattern behind another, a choice of
two, repetitions, and conditions on the place that take no characters.

A place in a text is a `Spot`: the character in front of it and the characters behind it.  A pattern
leads from a spot to every spot at which a text that it describes can end (`Pattern.reach`), and a
text has a pattern if some spot in it leads anywhere (`Pattern.isFoundIn`).  A repetition without an
upper bound is followed until it leads to no further spot; no round of it is needed more often than
there are spots.
-/

set_option autoImplicit false

namespace TimeSeries

/-! ## Places in a text -/

/-- A place in a text. -/
structure Spot where
  /-- The character in front of the place. -/
  before : Option Char
  /-- The characters behind the place. -/
  after : List Char
  deriving DecidableEq, Repr, Inhabited

namespace Spot

/-- The place behind the next character, if that is in a class. -/
def advance? (characters : CharClass) (spot : Spot) : Option Spot :=
  match spot.after with
  | char :: rest => if characters.contains char then some ⟨some char, rest⟩ else none
  | [] => none

/-- The places of a text from a given one on. -/
def onward (before : Option Char) : List Char → List Spot
  | [] => [⟨before, []⟩]
  | char :: rest => ⟨before, char :: rest⟩ :: onward (some char) rest

/-- Every place in a text. -/
def allIn (text : String) : List Spot := onward none text.toList

/-- There is a word character in front of the place. -/
def wordBefore (isWord : Char → Bool) (spot : Spot) : Bool := spot.before.any isWord

/-- There is a word character behind the place. -/
def wordAfter (isWord : Char → Bool) (spot : Spot) : Bool := spot.after.head?.any isWord

end Spot

/-- A condition on a place. -/
inductive Assertion where
  | textStart
  | textEnd
  | lineStart
  | lineEnd
  /-- The start of a line, where a carriage return ends a line as well. -/
  | anyLineStart
  /-- The end of a line, where a carriage return ends a line as well. -/
  | anyLineEnd
  | wordBoundary
  | noWordBoundary
  | wordStart
  | wordEnd
  /-- No word character in front. -/
  | wordStartHalf
  /-- No word character behind. -/
  | wordEndHalf
  deriving DecidableEq, Repr, Inhabited

/-- The condition holds at a place. -/
def Assertion.holds (assertion : Assertion) (isWord : Char → Bool) (spot : Spot) : Bool :=
  let before := spot.wordBefore isWord
  let after := spot.wordAfter isWord
  match assertion with
  | textStart => spot.before.isNone
  | textEnd => spot.after.isEmpty
  | lineStart => spot.before.all (· == '\n')
  | lineEnd => spot.after.head?.all (· == '\n')
  | anyLineStart =>
      spot.before.all fun char =>
        char == '\n' || (char == '\r' && spot.after.head? != some '\n')
  | anyLineEnd =>
      spot.after.head?.all fun char =>
        char == '\r' || (char == '\n' && spot.before != some '\r')
  | wordBoundary => before != after
  | noWordBoundary => before == after
  | wordStart => !before && after
  | wordEnd => before && !after
  | wordStartHalf => !before
  | wordEndHalf => !after

/-! ## Patterns -/

/-- A description of texts. -/
inductive Pattern where
  | empty
  | one (characters : CharClass)
  /-- A condition, with the characters that count as word characters. -/
  | assertion (repertoire : Repertoire) (condition : Assertion)
  | sequence (first second : Pattern)
  | choice (left right : Pattern)
  /-- So many repetitions at least, and so many at most if there is a bound. -/
  | repetition (inner : Pattern) (least : Nat) (greatest : Option Nat)
  deriving DecidableEq, Repr, Inhabited

/-- A word character. -/
def Repertoire.isWord (repertoire : Repertoire) (char : Char) : Bool :=
  match repertoire with
  | .unicode => Text.isWordChar char
  | .ascii => Text.isWordChar char && char.toNat < 128

namespace Pattern

/-- Spots without those that were known. -/
def without (known spots : List Spot) : List Spot :=
  spots.filter fun spot => !known.contains spot

/-- The spots of two lists, each of them once if that holds of the first list. -/
def together (first second : List Spot) : List Spot := first ++ without first second.eraseDups

/-- The spots that are reached in exactly so many rounds; a round without effect is the last. -/
def rounds (step : List Spot → List Spot) : Nat → List Spot → List Spot
  | 0, spots => spots
  | count + 1, spots =>
      let next := step spots
      if next = spots then spots else rounds step count next

/-- The spots that are known, and those that are reached in so many rounds at most from the ones
found last. -/
def closure (step : List Spot → List Spot) : Nat → List Spot → List Spot → List Spot
  | 0, known, _ => known
  | count + 1, known, latest =>
      let found := without known (step latest)
      if found.isEmpty then known else closure step count (known ++ found) found

/-- The length of the longest rest of a text. -/
def longestRest (spots : List Spot) : Nat :=
  spots.foldl (fun longest spot => max longest spot.after.length) 0

/-- The spots to which a pattern leads from some spots. -/
def reach : Pattern → List Spot → List Spot
  | empty, spots => spots
  | one characters, spots => spots.filterMap (Spot.advance? characters)
  | assertion repertoire condition, spots => spots.filter (condition.holds repertoire.isWord)
  | sequence first second, spots => second.reach (first.reach spots)
  | choice left right, spots => together (left.reach spots) (right.reach spots)
  | repetition inner least greatest, spots =>
      let started := rounds inner.reach least spots
      let further := match greatest with
        | some greatest => min (greatest - least) (longestRest started + 1)
        | none => longestRest started + 1
      closure inner.reach further started started

/-- Some part of a text is described by the pattern. -/
def isFoundIn (pattern : Pattern) (text : String) : Bool :=
  !(pattern.reach (Spot.allIn text)).isEmpty

end Pattern

end TimeSeries
