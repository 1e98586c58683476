import TimeSeries.Text.Numeral

/-!
# Media types

The sender of a body names its media type: a type and a subtype with a slash between them, and
parameters behind semicolons.  The names consist of token characters and their case does not matter.
What follows the last plus sign of a subtype is its suffix, the format on which it is based.
-/

set_option autoImplicit false

namespace TimeSeries

/-- The names of a media type, in lower case. -/
structure MediaType where
  type : String
  /-- The subtype without its suffix. -/
  subtype : String
  suffix : Option String
  deriving DecidableEq, Repr, Inhabited

namespace MediaType

/-- The character can be part of a name. -/
def isToken (char : Char) : Bool :=
  char.isAlphanum || "!#$%&'*+-.^_|~".toList.contains char || char.toNat == 96

/-- The character can be part of a quoted value. -/
def isQuotable (char : Char) : Bool :=
  31 < char.toNat && char.toNat != 127

/-- The rest behind a quoted value, its closing quote and the blanks after it; there must be
another parameter or nothing.  A quoted value has one character at least, so the first one does not
close it. -/
def skipQuoted (isFirst : Bool) : List Char → Option (List Char)
  | '"' :: rest =>
      if isFirst then skipQuoted false rest
      else
        match rest.dropWhile (· == ' ') with
        | [] => some []
        | ';' :: rest => some rest
        | _ => none
  | char :: rest => if isQuotable char then skipQuoted false rest else none
  | [] => none

/-- The rest behind a value. -/
def skipValue (chars : List Char) : Option (List Char) :=
  match chars with
  | '"' :: rest => skipQuoted true rest
  | _ =>
      match chars.dropWhile isToken with
      | [] => some []
      | ';' :: rest => if chars.head? = some ';' then none else some rest
      | _ => none

/-- The text is a sequence of parameters.  `fuel` bounds their number. -/
def areParameters : Nat → List Char → Bool
  | _, [] => true
  | 0, _ => false
  | fuel + 1, chars =>
      let named := chars.dropWhile (· == ' ')
      let name := named.takeWhile isToken
      if named.isEmpty then true
      else if name.isEmpty then false
      else
        match named.drop name.length with
        | '=' :: value => (skipValue value).any (areParameters fuel)
        | _ => false

/-- The subtype and the suffix in what stands behind the slash. -/
def splitSuffix (chars : List Char) : String × Option String :=
  let reversed := chars.reverse
  let suffix := reversed.takeWhile (· != '+')
  match reversed.drop suffix.length with
  | '+' :: char :: subtype =>
      (String.ofList (char :: subtype).reverse, some (String.ofList suffix.reverse))
  | _ => (String.ofList chars, none)

/-- The media type that a text names. -/
def ofText? (text : String) : Option MediaType :=
  let lower := text.toList.map Text.lowerLetter
  let type := lower.takeWhile isToken
  match lower.drop type.length with
  | '/' :: rest =>
      let subtype := rest.takeWhile isToken
      let known := !type.isEmpty && match rest.drop subtype.length with
        | [] => true
        | ';' :: parameters => !subtype.isEmpty && areParameters parameters.length parameters
        | _ => false
      let (subtype, suffix) := splitSuffix subtype
      if known then some ⟨String.ofList type, subtype, suffix⟩ else none
  | _ => none

/-- The media type of JSON documents, or of a format based on them. -/
def isJson (media : MediaType) : Bool :=
  media.type == "application" && (media.subtype == "json" || media.suffix == some "json")

end MediaType

end TimeSeries
