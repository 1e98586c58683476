import TimeSeries.Bytes
import TimeSeries.Pattern.Flags
import TimeSeries.Pattern.Property

/-!
# Escapes

What a backslash and the characters behind it stand for: a character, a class of characters or a
condition.  Every ASCII character that is neither a letter nor a digit nor one of `<` and `>` may be
escaped and then stands for itself.
-/

set_option autoImplicit false

namespace TimeSeries.Pattern

/-- What an escape stands for. -/
inductive Escaped where
  | character (char : Char)
  | characters (characters : CharClass)
  | condition (assertion : Assertion)
  deriving DecidableEq, Repr, Inhabited

namespace Escaped

/-! ## Characters by number -/

/-- The character with a number in hexadecimal digits. -/
def ofCode? (digits : List Char) : Option Char :=
  let code := Text.hexNumber digits
  if digits.isEmpty then none
  else if code.isValidChar then some (Char.ofNat code)
  else none

/-- Takes so many hexadecimal digits. -/
def takeDigits (flags : Flags) : Nat → List Char → Option (List Char × List Char)
  | 0, chars => some ([], chars)
  | count + 1, chars =>
      match flags.skip chars with
      | digit :: rest =>
          if (Bytes.hexValue? digit).isSome then
            (takeDigits flags count rest).map fun (digits, rest) => (digit :: digits, rest)
          else
            none
      | [] => none

/-- Takes the characters up to a closing brace. -/
def takeBraced (flags : Flags) : Nat → List Char → Option (List Char × List Char)
  | 0, _ => none
  | fuel + 1, chars =>
      match flags.skip chars with
      | [] => none
      | '\x7d' :: rest => some ([], rest)
      | char :: rest =>
          (takeBraced flags fuel rest).map fun (held, rest) => (char :: held, rest)

/-- A character by its number: so many digits, or any number of them in braces. -/
def readCode (flags : Flags) (width : Nat) (chars : List Char) : Option (Escaped × List Char) :=
  match flags.skip chars with
  | '\x7b' :: rest => do
      let (digits, rest) ← takeBraced flags (rest.length + 1) rest
      if digits.all fun digit => (Bytes.hexValue? digit).isSome then
        return (.character (← ofCode? digits), flags.skip rest)
      else
        none
  | chars => do
      let (digits, rest) ← takeDigits flags width chars
      let char ← ofCode? digits
      if width = 2 ∧ flags.repertoire = .ascii ∧ 0x7f < char.toNat then none
      else return (.character char, flags.skip rest)

/-! ## Properties by name -/

/-- A name without spaces, dashes and underscores, in small letters and without a leading `is`, which
belongs to the name only in `isc`. -/
def looseName (name : List Char) : String :=
  let marked := (name.take 2).map Text.lowerLetter == ['i', 's']
  let kept := ((if marked then name.drop 2 else name).filter fun char =>
    char.toNat < 128 && !(char == ' ' || char == '-' || char == '_')).map Text.lowerLetter
  if marked && kept == ['c'] then "isc" else String.ofList kept

/-- The text in front of the first place of a mark, and the text behind it. -/
def splitAt? (mark : List Char) : List Char → Option (List Char × List Char)
  | [] => none
  | char :: rest =>
      if mark.isPrefixOf (char :: rest) then
        some ([], (char :: rest).drop mark.length)
      else
        (splitAt? mark rest).map fun (front, behind) => (char :: front, behind)

/-- The class that a name or a name and a value stand for. -/
def namedClass? (name : List Char) : Option CharClass :=
  match splitAt? ['!', '='] name <|> splitAt? [':'] name <|> splitAt? ['='] name with
  | some (property, value) => CharClass.ofValue? (looseName property) (looseName value)
  | none => CharClass.ofProperty? (looseName name)

/-- What is asked for is that a property does not have the value. -/
def isDenied (name : List Char) : Bool := (splitAt? ['!', '='] name).isSome

/-- The class that a name asks for: without regard to case if the flags say so, and then the other
characters if either the name or what stands in front of it is a denial. -/
def askedClass? (flags : Flags) (negated : Bool) (name : List Char) : Option CharClass := do
  let found ← namedClass? name
  let wanted := flags.classOf found
  return if negated != isDenied name then .complement wanted else wanted

/-- A class by its property, behind `p` or `P`. -/
def readProperty (flags : Flags) (negated : Bool) (chars : List Char) :
    Option (Escaped × List Char) := do
  if flags.repertoire = .ascii then
    none
  let (name, rest) ← match flags.skip chars with
    | '\x7b' :: rest => takeBraced flags (rest.length + 1) rest
    | '\\' :: _ => none
    | letter :: rest => some ([letter], flags.skip rest)
    | [] => none
  return (.characters (← askedClass? flags negated name), rest)

/-! ## Classes and conditions of one letter -/

/-- A property in the repertoire of a pattern; over ASCII no class may go beyond it. -/
def propertyIn? (flags : Flags) (property : CharProperty) (negated : Bool) :
    Option Escaped :=
  match flags.repertoire, negated with
  | .unicode, false => some (.characters (.having property))
  | .unicode, true => some (.characters (.complement (.having property)))
  | .ascii, false => some (.characters (asciiClass property))
  | .ascii, true => none
where
  /-- The ASCII characters with a property; the vertical tabulator is one of the blanks. -/
  asciiClass (property : CharProperty) : CharClass :=
    .intersection .ascii (.having property)

/-- The condition that a word in braces behind a word boundary names. -/
def boundaryNamed? (name : String) : Option Assertion :=
  match name with
  | "start" => some .wordStart
  | "end" => some .wordEnd
  | "start-half" => some .wordStartHalf
  | "end-half" => some .wordEndHalf
  | _ => none

/-- A character of the name of a word boundary. -/
def isBoundaryChar (char : Char) : Bool :=
  ('a' ≤ char && char ≤ 'z') || ('A' ≤ char && char ≤ 'Z') || char == '-'

/-- A word boundary, of the kind that is named in braces if what is there can be a name; a count is
left for a repetition. -/
def readBoundary (flags : Flags) (chars : List Char) : Option (Escaped × List Char) :=
  match chars with
  | '\x7b' :: rest =>
      match flags.skip rest with
      | [] => none
      | char :: more =>
          if isBoundaryChar char then do
            let (name, after) ← takeBraced flags (more.length + 2) (char :: more)
            return (.condition (← boundaryNamed? (String.ofList name)), after)
          else
            some (.condition .wordBoundary, chars)
  | chars => some (.condition .wordBoundary, chars)

/-- The control character of a letter. -/
def controlChar? (letter : Char) : Option Char :=
  match letter with
  | 'a' => some '\x07'
  | 'f' => some '\x0c'
  | 't' => some '\t'
  | 'n' => some '\n'
  | 'r' => some '\r'
  | 'v' => some '\x0b'
  | _ => none

/-- The condition of a letter. -/
def conditionOf? (letter : Char) : Option Assertion :=
  match letter with
  | 'A' => some .textStart
  | 'z' => some .textEnd
  | 'B' => some .noWordBoundary
  | '<' => some .wordStart
  | '>' => some .wordEnd
  | _ => none

/-- A character that stands for itself behind a backslash. -/
def isPlain (char : Char) : Bool :=
  char.toNat < 128 && !char.isAlphanum && char != '<' && char != '>'

/-- Reads what stands behind a backslash. -/
def read? (flags : Flags) : List Char → Option (Escaped × List Char)
  | [] => none
  | letter :: rest =>
      match letter with
      | 'x' => readCode flags 2 rest
      | 'u' => readCode flags 4 rest
      | 'U' => readCode flags 8 rest
      | 'p' => readProperty flags false rest
      | 'P' => readProperty flags true rest
      | 'd' => (propertyIn? flags .digit false).map (·, rest)
      | 'D' => (propertyIn? flags .digit true).map (·, rest)
      | 's' => (propertyIn? flags .blank false).map (·, rest)
      | 'S' => (propertyIn? flags .blank true).map (·, rest)
      | 'w' => (propertyIn? flags .word false).map (·, rest)
      | 'W' => (propertyIn? flags .word true).map (·, rest)
      | 'b' => readBoundary flags rest
      | letter =>
          if isPlain letter then
            some (.character letter, rest)
          else
            match controlChar? letter, conditionOf? letter with
            | some char, _ => some (.character char, rest)
            | none, some found => some (.condition found, rest)
            | none, none => none

end Escaped

end TimeSeries.Pattern
