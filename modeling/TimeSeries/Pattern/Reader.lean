import TimeSeries.Pattern.Bracket

/-!
# Reading patterns

A pattern is a choice of sequences of items, divided by `|`.  An item is a character, a dot, a class
in brackets, an escape, one of the conditions `^` and `$`, or a group in parentheses, and it may be
repeated.  A group can have flags of its own, and flags on their own hold for the rest of the group
they stand in, in later branches too.

A pattern must not nest too deeply (`greatestDepth`) nor be too large once its repetitions are
written out (`greatestSize`).  What counts is the size of its compiled form, which is not modelled
but estimated from the parts of the pattern (`size`).

A text is compared with a pattern as a whole by reading `^(?:`, the pattern and `)$` as one pattern
(`ofWhole?`).
-/

set_option autoImplicit false

namespace TimeSeries.Pattern

/-! ## Parts -/

/-- A pattern with the depth to which it is nested. -/
structure Part where
  pattern : Pattern
  depth : Nat
  deriving DecidableEq, Repr, Inhabited

/-- An item of a sequence. -/
inductive Item where
  | part (part : Part)
  /-- Flags for the rest of the group, which cannot be repeated. -/
  | setting
  deriving DecidableEq, Repr, Inhabited

namespace Item

def toPart : Item → Part
  | part held => held
  | setting => ⟨.empty, 0⟩

/-- Items one behind the other. -/
def inSequence : List Item → Part
  | [] => ⟨.empty, 0⟩
  | [only] => only.toPart
  | items =>
      let parts := items.map toPart
      ⟨(parts.map Part.pattern).foldr .sequence .empty,
        (parts.map Part.depth).foldl max 0 + 1⟩

end Item

/-- The choice between several branches. -/
def chooseOf : List Pattern → Pattern
  | [] => .empty
  | [only] => only
  | first :: rest => .choice first (chooseOf rest)

/-- Branches side by side. -/
def Part.ofBranches : List Part → Part
  | [] => ⟨.empty, 0⟩
  | [only] => only
  | branches =>
      ⟨chooseOf (branches.map Part.pattern), (branches.map Part.depth).foldl max 0 + 1⟩

/-- A part repeated. -/
def Part.repeated (part : Part) (least : Nat) (greatest : Option Nat) : Part :=
  ⟨.repetition part.pattern least greatest, part.depth + 1⟩

/-! ## Repetitions -/

/-- The greatest count of a repetition. -/
def greatestCount : Nat := UInt32.size - 1

/-- Takes decimal digits, between which there may be what is passed over. -/
def takeDecimal (flags : Flags) : Nat → List Char → List Char × List Char
  | 0, chars => ([], chars)
  | fuel + 1, chars =>
      match chars with
      | digit :: rest =>
          if Text.isDigit digit then
            let (digits, rest) := takeDecimal flags fuel (flags.skip rest)
            (digit :: digits, rest)
          else
            ([], chars)
      | [] => ([], [])

/-- A count with blanks around it; it is missing if there are no digits. -/
def readCount (flags : Flags) (chars : List Char) : Option (Option Nat × List Char) :=
  let chars := chars.dropWhile Text.isBlank
  let (digits, rest) := takeDecimal flags chars.length chars
  let rest := flags.skip (rest.dropWhile Text.isBlank)
  if digits.isEmpty then
    some (none, rest)
  else
    let count := Text.natOfDigits digits 0
    if count ≤ greatestCount then some (some count, rest) else none

/-- The bounds of a repetition behind an opening brace. -/
def readBounds (flags : Flags) (chars : List Char) :
    Option ((Nat × Option Nat) × List Char) := do
  let (least?, rest) ← readCount flags (flags.skip chars)
  let least ← least?
  match rest with
  | '\x7d' :: rest => return ((least, some least), flags.skip rest)
  | ',' :: rest =>
      match flags.skip rest with
      | '\x7d' :: rest => return ((least, none), flags.skip rest)
      | rest =>
          let (greatest?, rest) ← readCount flags rest
          let greatest ← greatest?
          match rest with
          | '\x7d' :: rest =>
              if least ≤ greatest then return ((least, some greatest), flags.skip rest) else none
          | _ => none
  | _ => none

/-- The text behind a question mark that asks for fewest repetitions, if it is there. -/
def skipLazy : List Char → List Char
  | '?' :: rest => rest
  | chars => chars

/-- Repeats the last item, which must be one that can be repeated. -/
def repeatLast (least : Nat) (greatest : Option Nat) : List Item → Option (List Item)
  | .part part :: items => some (.part (part.repeated least greatest) :: items)
  | _ => none

/-! ## Groups -/

/-- A character of the name of a group. -/
def isNameChar (first : Bool) (char : Char) : Bool :=
  char == '_' || Text.isAlphabetic char
    || (!first && (Text.isNumber char || char == '.' || char == '[' || char == ']'))

/-- The name of a group up to its closing mark, unless it was used before. -/
def readName (names : List String) (chars : List Char) : Option (String × List Char) :=
  let name := chars.takeWhile (· != '>')
  match name, chars.drop name.length with
  | first :: others, _ :: rest =>
      let text := String.ofList name
      if isNameChar true first && others.all (isNameChar false) && !names.contains text then
        some (text, rest)
      else
        none
  | _, _ => none

/-- What an opening parenthesis starts. -/
inductive Opening where
  /-- Flags for the rest of the group. -/
  | setting (flags : Flags)
  /-- A group with its flags, and the names used so far. -/
  | group (flags : Flags) (names : List String)
  deriving Inhabited

/-- Reads what stands behind an opening parenthesis. -/
def readOpening (flags : Flags) (names : List String) (chars : List Char) :
    Option (Opening × List Char) :=
  match flags.skip chars with
  | '?' :: '=' :: _ => none
  | '?' :: '!' :: _ => none
  | '?' :: '<' :: '=' :: _ => none
  | '?' :: '<' :: '!' :: _ => none
  | '?' :: 'P' :: '<' :: rest => named rest
  | '?' :: '<' :: rest => named rest
  | '?' :: rest =>
      match flags.read? [] rest with
      | some (inner, ')', rest) => some (.setting inner, rest)
      | some (inner, _, rest) => some (.group inner names, rest)
      | none => none
  | rest => some (.group flags names, rest)
where
  /-- Reads the name of a group. -/
  named (chars : List Char) : Option (Opening × List Char) :=
    (readName names chars).map fun (name, rest) => (.group flags (name :: names), rest)

/-! ## Items -/

/-- The class of a dot. -/
def dotClass (flags : Flags) : CharClass :=
  if flags.dotAll then .having .any
  else if flags.returnEndsLine then .complement (.union (.single '\n') (.single '\r'))
  else .complement (.single '\n')

/-- The condition of a caret. -/
def startCondition (flags : Flags) : Assertion :=
  if !flags.multiline then .textStart
  else if flags.returnEndsLine then .anyLineStart else .lineStart

/-- The condition of a dollar sign. -/
def endCondition (flags : Flags) : Assertion :=
  if !flags.multiline then .textEnd
  else if flags.returnEndsLine then .anyLineEnd else .lineEnd

/-- The pattern of an escape. -/
def escapedPattern (flags : Flags) : Escaped → Pattern
  | .character char => .one (flags.classOf (.single char))
  | .characters characters => .one characters
  | .condition condition => .assertion flags.repertoire condition

/-- An item that is one character, a dot, an escape or a condition.  Over ASCII a dot would stand
for parts of characters, so there it is refused. -/
def readSimple (flags : Flags) : List Char → Option (Pattern × List Char)
  | [] => none
  | '\\' :: rest => (Escaped.read? flags rest).map fun (escaped, rest) =>
      (escapedPattern flags escaped, rest)
  | '.' :: rest =>
      if flags.repertoire = .ascii then none else some (.one (dotClass flags), rest)
  | '^' :: rest => some (.assertion flags.repertoire (startCondition flags), rest)
  | '$' :: rest => some (.assertion flags.repertoire (endCondition flags), rest)
  | char :: rest => some (.one (flags.classOf (.single char)), rest)

/-! ## Whole patterns -/

/-- Reads branches up to the end of the group or of the text.  `branches` are those read before and
`items` the items of the present one, both with the latest first.  Each round takes a character at
least. -/
def readBranches : Nat → Flags → List String → List Part → List Item → List Char →
    Option (Part × List String × List Char)
  | 0, _, _, _, _, _ => none
  | fuel + 1, flags, names, branches, items, chars =>
      let finished := Part.ofBranches (Item.inSequence items.reverse :: branches).reverse
      let repeated (least : Nat) (greatest : Option Nat) (rest : List Char) :=
        match repeatLast least greatest items with
        | some items => readBranches fuel flags names branches items (skipLazy rest)
        | none => none
      match flags.skip chars with
      | [] => some (finished, names, [])
      | ')' :: rest => some (finished, names, ')' :: rest)
      | '|' :: rest =>
          readBranches fuel flags names (Item.inSequence items.reverse :: branches) [] rest
      | '(' :: rest =>
          match readOpening flags names rest with
          | none => none
          | some (.setting inner, rest) =>
              readBranches fuel inner names branches (.setting :: items) rest
          | some (.group inner names, rest) =>
              match readBranches fuel inner names [] [] rest with
              | some (part, names, ')' :: rest) =>
                  readBranches fuel flags names branches
                    (.part ⟨part.pattern, part.depth + 1⟩ :: items) rest
              | _ => none
      | '[' :: rest =>
          let (bracket, rest) := Bracket.start flags rest
          match Bracket.read? flags (rest.length + 1) bracket rest with
          | some (nested, rest) =>
              readBranches fuel flags names branches
                (.part ⟨.one nested.characters, nested.depth⟩ :: items) rest
          | none => none
      | '?' :: rest => repeated 0 (some 1) rest
      | '*' :: rest => repeated 0 none rest
      | '+' :: rest => repeated 1 none rest
      | '\x7b' :: rest =>
          match readBounds flags rest with
          | some ((least, greatest), rest) => repeated least greatest rest
          | none => none
      | rest =>
          match readSimple flags rest with
          | some (pattern, rest) =>
              readBranches fuel flags names branches (.part ⟨pattern, 0⟩ :: items) rest
          | none => none

/-- The greatest depth to which a pattern may be nested. -/
def greatestDepth : Nat := 250

/-- The greatest size of a compiled pattern, in bytes, where no other limit is set. -/
def greatestSize : Nat := 10 * 1024 * 1024

/-- The estimated size of a compiled class: the more of the characters beyond ASCII it tells apart,
the larger.  The weights are rough figures, so close to the limit a pattern may be judged otherwise
than by its compiled form. -/
def classSize : CharClass → Nat
  | .nothing => 32
  | .range first last =>
      if last.toNat < 128 then 40 else if first = last then 32 * first.utf8Size else 200
  | .having property =>
      match property with
      | .digit => 5000
      | .blank => 800
      | .any => 500
      | .script _ | .usedIn _ => 8000
      | .within ranges => 200 * ranges.length
      | _ => 50000
  | .union left right => classSize left + classSize right
  | .intersection left right => classSize left + classSize right
  | .difference left right => classSize left + classSize right
  | .symmetricDifference left right => classSize left + classSize right
  | .complement inner => classSize inner + 500
  | .caseless _ inner => 2 * classSize inner

/-- The estimated size of a compiled pattern, with its repetitions written out. -/
def size : Pattern → Nat
  | .empty => 32
  | .one characters => classSize characters
  | .assertion _ _ => 32
  | .sequence first second => first.size + second.size
  | .choice left right => left.size + right.size + 40
  | .repetition inner least greatest =>
      match greatest with
      | some greatest => inner.size * greatest + 40 * (greatest - least)
      | none => inner.size * max 1 least + 40

/-- The pattern that a text writes. -/
def read? (text : List Char) : Option Pattern :=
  match readBranches (text.length + 1) .initial [] [] [] text with
  | some (part, _, []) =>
      if part.depth ≤ greatestDepth ∧ part.pattern.size ≤ greatestSize then some part.pattern
      else none
  | _ => none

/-- The pattern that the whole of a text must have, for the pattern that is written. -/
def ofWhole? (text : String) : Option Pattern :=
  read? ("^(?:".toList ++ text.toList ++ ")$".toList)

end TimeSeries.Pattern
