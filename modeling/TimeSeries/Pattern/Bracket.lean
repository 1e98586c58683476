import TimeSeries.Pattern.Escape

/-!
# Classes in brackets

A class in brackets lists characters, ranges, escapes, named classes of ASCII characters and further
classes in brackets.  A caret in front takes the complement.  The marks `&&`, `--` and `~~` between
two lists stand for intersection, difference and symmetric difference and are applied from the left.

A closing bracket in front of anything else stands for itself, and so do dashes in front and a dash
behind which the class ends.
-/

set_option autoImplicit false

namespace TimeSeries.Pattern

/-- A class with the depth to which brackets and operations are nested in it. -/
structure Nested where
  characters : CharClass
  depth : Nat
  deriving DecidableEq, Repr, Inhabited

namespace Nested

/-- A class without any nesting. -/
def flat (characters : CharClass) : Nested := ⟨characters, 0⟩

/-- Several classes side by side. -/
def together : List Nested → Nested
  | [] => flat .nothing
  | [only] => only
  | items => ⟨.unionOf (items.map Nested.characters),
      (items.map Nested.depth).foldl max 0 + 1⟩

end Nested

/-- An operation between two lists of a class. -/
inductive SetOperation where
  | intersection
  | difference
  | symmetricDifference
  deriving DecidableEq, Repr, Inhabited

namespace SetOperation

/-- The class that an operation makes of two classes. -/
def apply (operation : SetOperation) (left right : CharClass) : CharClass :=
  match operation with
  | .intersection => .intersection left right
  | .difference => .difference left right
  | .symmetricDifference => .symmetricDifference left right

/-- The operation whose mark is the given character twice. -/
def ofMark? (mark : Char) : Option SetOperation :=
  match mark with
  | '&' => some .intersection
  | '-' => some .difference
  | '~' => some .symmetricDifference
  | _ => none

end SetOperation

/-- What has been read of a class in brackets. -/
structure OpenBracket where
  negated : Bool
  /-- The lists before the last mark, and the operation of that mark. -/
  earlier : Option (Nested × SetOperation)
  /-- The list behind the last mark, the latest item first. -/
  items : List Nested
  deriving Inhabited

namespace OpenBracket

/-- What has been read, without the complement. -/
def combined (flags : Flags) (bracket : OpenBracket) : Nested :=
  let items := Nested.together bracket.items.reverse
  match bracket.earlier with
  | none => items
  | some (earlier, operation) =>
      ⟨operation.apply (flags.classOf earlier.characters) (flags.classOf items.characters),
        max earlier.depth items.depth + 1⟩

/-- The class as a whole.  Over ASCII it may not go beyond ASCII. -/
def close? (flags : Flags) (bracket : OpenBracket) : Option Nested :=
  let combined := bracket.combined flags
  let held := flags.classOf combined.characters
  let characters := if bracket.negated then .complement held else held
  if flags.repertoire = .ascii ∧ !characters.isAscii then none
  else some ⟨characters, combined.depth + 1⟩

def push (bracket : OpenBracket) (item : Nested) : OpenBracket :=
  { bracket with items := item :: bracket.items }

end OpenBracket

namespace Bracket

/-- The ranges of a named class of ASCII characters. -/
def namedRanges? (name : String) : Option (List (Char × Char)) :=
  match name with
  | "alnum" => some [('0', '9'), ('A', 'Z'), ('a', 'z')]
  | "alpha" => some [('A', 'Z'), ('a', 'z')]
  | "ascii" => some [('\x00', '\x7f')]
  | "blank" => some [('\t', '\t'), (' ', ' ')]
  | "cntrl" => some [('\x00', '\x1f'), ('\x7f', '\x7f')]
  | "digit" => some [('0', '9')]
  | "graph" => some [('!', '~')]
  | "lower" => some [('a', 'z')]
  | "print" => some [(' ', '~')]
  | "punct" => some [('!', '/'), (':', '@'), ('[', '\x60'), ('\x7b', '~')]
  | "space" => some [('\t', '\r'), (' ', ' ')]
  | "upper" => some [('A', 'Z')]
  | "word" => some [('0', '9'), ('A', 'Z'), ('_', '_'), ('a', 'z')]
  | "xdigit" => some [('0', '9'), ('A', 'F'), ('a', 'f')]
  | _ => none

/-- A named class behind its bracket and colon, if there is one, and the rest. -/
def readNamed? (flags : Flags) (chars : List Char) : Option (CharClass × List Char) :=
  let (negated, chars) := match chars with
    | '^' :: rest => (true, rest)
    | chars => (false, chars)
  let name := chars.takeWhile (· != ':')
  match chars.drop name.length with
  | ':' :: ']' :: rest =>
      (namedRanges? (String.ofList name)).map fun ranges =>
        let held := flags.classOf (.unionOf (ranges.map fun range => .range range.1 range.2))
        (if negated then .complement held else held, rest)
  | _ => none

/-- An item that is no bracket: an escape or a character. -/
def readItem (flags : Flags) : List Char → Option (Escaped × List Char)
  | [] => none
  | '\\' :: rest => Escaped.read? flags rest
  | char :: rest => some (.character char, rest)

/-- A character that may stand in a class. -/
def isAllowed (flags : Flags) (char : Char) : Bool :=
  flags.repertoire = .unicode || char.toNat < 128

/-- The characters of an item on its own. -/
def itemClass? (flags : Flags) : Escaped → Option CharClass
  | .character char => if isAllowed flags char then some (.single char) else none
  | .characters found => some found
  | .condition _ => none

/-- The range between two items, which must be characters in their order. -/
def rangeClass? (flags : Flags) (first last : Escaped) : Option CharClass :=
  match first, last with
  | .character first, .character last =>
      if isAllowed flags first && isAllowed flags last && first ≤ last then
        some (.range first last)
      else
        none
  | _, _ => none

/-- An item or a range of characters. -/
def readRange (flags : Flags) (chars : List Char) : Option (CharClass × List Char) := do
  let (first, rest) ← readItem flags chars
  match flags.skip rest with
  | [] => none
  | '-' :: more =>
      let next := (flags.skip more).head?
      if next = some ']' ∨ next = some '-' then
        return (← itemClass? flags first, '-' :: more)
      else
        let (last, rest) ← readItem flags (flags.skip more)
        return (← rangeClass? flags first last, rest)
  | rest => return (← itemClass? flags first, rest)

/-- Dashes at the front of a class. -/
def takeDashes (flags : Flags) : Nat → List Char → List Nested × List Char
  | fuel + 1, '-' :: rest =>
      let (dashes, rest) := takeDashes flags fuel (flags.skip rest)
      (.flat (.single '-') :: dashes, rest)
  | _, chars => ([], chars)

/-- The start of a class behind its bracket. -/
def start (flags : Flags) (chars : List Char) : OpenBracket × List Char :=
  let (negated, chars) := match flags.skip chars with
    | '^' :: rest => (true, flags.skip rest)
    | chars => (false, chars)
  match takeDashes flags chars.length chars with
  | ([], ']' :: rest) => (⟨negated, none, [.flat (.single ']')]⟩, rest)
  | (dashes, rest) => (⟨negated, none, dashes⟩, rest)

/-- Reads a class up to its closing bracket.  Each round takes a character at least. -/
def read? (flags : Flags) : Nat → OpenBracket → List Char → Option (Nested × List Char)
  | 0, _, _ => none
  | fuel + 1, bracket, chars =>
      match flags.skip chars with
      | [] => none
      | ']' :: rest => (bracket.close? flags).map (·, rest)
      | '[' :: rest =>
          let named := match rest with
            | ':' :: name => readNamed? flags name
            | _ => none
          match named with
          | some (characters, rest) => read? flags fuel (bracket.push (.flat characters)) rest
          | none =>
              let (inner, rest) := start flags rest
              match read? flags fuel inner rest with
              | some (nested, rest) => read? flags fuel (bracket.push nested) rest
              | none => none
      | chars =>
          match markOf? chars with
          | some (operation, rest) =>
              read? flags fuel ⟨bracket.negated, some (bracket.combined flags, operation), []⟩ rest
          | none =>
              match readRange flags chars with
              | some (characters, rest) =>
                  read? flags fuel (bracket.push (.flat characters)) rest
              | none => none
where
  /-- The operation of a mark, and the rest. -/
  markOf? : List Char → Option (SetOperation × List Char)
    | first :: second :: rest =>
        if first = second then (SetOperation.ofMark? first).map (·, rest) else none
    | _ => none

end Bracket

end TimeSeries.Pattern
