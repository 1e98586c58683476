import TimeSeries.Bytes
import TimeSeries.Json.Basic

/-!
# Reading JSON text

A reader takes a value off the front of a text and says where the text goes on; it says nothing of
the kind when the text stops being JSON there.  Arrays and objects are read item by item, so the
tree holds everything in front of a mistake.

The recursion is bounded by the length of the text: each value and each separator takes at least
one character.
-/

set_option autoImplicit false

namespace TimeSeries.Json

/-- The blanks between the parts of a document. -/
def isSpace (char : Char) : Bool :=
  char == ' ' || char == '\n' || char == '\t' || char == '\r'

def skipSpace (chars : List Char) : List Char := chars.dropWhile isSpace

/-! ## Strings -/

/-- Four hexadecimal digits, and the rest. -/
def takeUnit : List Char → Option (Nat × List Char)
  | first :: second :: third :: fourth :: rest => do
      let first ← Bytes.hexValue? first
      let second ← Bytes.hexValue? second
      let third ← Bytes.hexValue? third
      let fourth ← Bytes.hexValue? fourth
      return (((first * 16 + second) * 16 + third) * 16 + fourth, rest)
  | _ => none

/-- The character of an escape of one letter. -/
def escapedChar? : Char → Option Char
  | '"' => some '"'
  | '\\' => some '\\'
  | '/' => some '/'
  | 'b' => some '\x08'
  | 'f' => some '\x0c'
  | 'n' => some '\n'
  | 'r' => some '\r'
  | 't' => some '\t'
  | _ => none

/-- The part of a string behind what has been read.  `high` is the first half of a surrogate pair
that was just read, and `whole` is lost once a half has no partner. -/
def readString (fuel : Nat) (read : List Char) (whole : Bool) (high : Option Nat)
    (chars : List Char) : Option (Option String × List Char) :=
  match fuel, chars with
  | 0, _ => none
  | _, [] => none
  | _ + 1, '"' :: rest =>
      some (if whole && high.isNone then some (String.ofList read.reverse) else none, rest)
  | fuel + 1, '\\' :: 'u' :: rest =>
      match takeUnit rest with
      | none => none
      | some (unit, rest) =>
          match high with
          | some first =>
              if 0xdc00 ≤ unit ∧ unit ≤ 0xdfff then
                let code := 0x10000 + (first - 0xd800) * 0x400 + (unit - 0xdc00)
                readString fuel (Char.ofNat code :: read) whole none rest
              else
                readString fuel read false none rest
          | none =>
              if 0xd800 ≤ unit ∧ unit ≤ 0xdbff then
                readString fuel read whole (some unit) rest
              else if 0xdc00 ≤ unit ∧ unit ≤ 0xdfff then
                readString fuel read false none rest
              else
                readString fuel (Char.ofNat unit :: read) whole none rest
  | fuel + 1, '\\' :: letter :: rest =>
      match escapedChar? letter with
      | none => none
      | some char => readString fuel (char :: read) (whole && high.isNone) none rest
  | fuel + 1, char :: rest =>
      if char.toNat < 0x20 then none
      else readString fuel (char :: read) (whole && high.isNone) none rest

/-- A string behind its first quote. -/
def takeString (chars : List Char) : Option (Option String × List Char) :=
  readString (chars.length + 1) [] true none chars

/-! ## Numbers -/

/-- The digits at the front, and the rest. -/
def takeDigits (chars : List Char) : List Char × List Char :=
  (chars.takeWhile Text.isDigit, chars.dropWhile Text.isDigit)

/-- The digits of a number before the point: a zero stands alone. -/
def takeWhole (chars : List Char) : Option (List Char × List Char) :=
  match takeDigits chars with
  | ([], _) => none
  | ('0' :: _ :: _, _) => none
  | taken => some taken

/-- The digits behind a point, if there is one. -/
def takeFraction : List Char → Option (Option (List Char) × List Char)
  | '.' :: rest =>
      match takeDigits rest with
      | ([], _) => none
      | (digits, rest) => some (some digits, rest)
  | chars => some (none, chars)

/-- The power of ten, if there is one. -/
def takePower (chars : List Char) : Option (Option Int × List Char) :=
  match chars with
  | letter :: rest =>
      if letter = 'e' ∨ letter = 'E' then
        let (negative, rest) := Text.takeSign rest
        match takeDigits rest with
        | ([], _) => none
        | (digits, rest) =>
            let power := (Text.natOfDigits digits 0 : Int)
            some (some (if negative then -power else power), rest)
      else
        some (none, chars)
  | [] => some (none, [])

/-- A number at the front of a text. -/
def takeNumeral (chars : List Char) : Option (Numeral × List Char) := do
  let (negative, chars) := match chars with
    | '-' :: rest => (true, rest)
    | chars => (false, chars)
  let (whole, chars) ← takeWhole chars
  let (fraction, chars) ← takeFraction chars
  let (power, chars) ← takePower chars
  return (⟨negative, whole, fraction, power⟩, chars)

/-! ## Values -/

/-- Takes a word off the front. -/
def takeWord (word : String) (value : Json) (chars : List Char) : Json × Option (List Char) :=
  if word.toList.isPrefixOf chars then
    (value, some (chars.drop word.length))
  else
    (malformed, none)

mutual

/-- A value at the front of a text, and where the text goes on if it is well formed so far. -/
def takeValue (fuel : Nat) (chars : List Char) : Json × Option (List Char) :=
  match fuel, skipSpace chars with
  | 0, _ => (malformed, none)
  | _, [] => (malformed, none)
  | _, 'n' :: rest => takeWord "null" null ('n' :: rest)
  | _, 't' :: rest => takeWord "true" (bool true) ('t' :: rest)
  | _, 'f' :: rest => takeWord "false" (bool false) ('f' :: rest)
  | _, '"' :: rest =>
      match takeString rest with
      | none => (malformed, none)
      | some (none, rest) => (unreadable, some rest)
      | some (some text, rest) => (string text, some rest)
  | fuel + 1, '[' :: rest =>
      match skipSpace rest with
      | ']' :: rest => (array [] true, some rest)
      | rest =>
          let (items, rest) := takeItems fuel rest
          (array items rest.isSome, rest)
  | fuel + 1, '\x7b' :: rest =>
      match skipSpace rest with
      | '\x7d' :: rest => (object [] true, some rest)
      | rest =>
          let (members, rest) := takeMembers fuel rest
          (object members rest.isSome, rest)
  | _, chars =>
      match takeNumeral chars with
      | none => (malformed, none)
      | some (numeral, rest) =>
          match numeral.value? with
          | some value => (number value, some rest)
          | none => (unreadable, some rest)

/-- The items of an array from the one in turn. -/
def takeItems (fuel : Nat) (chars : List Char) : List Json × Option (List Char) :=
  match fuel with
  | 0 => ([], none)
  | fuel + 1 =>
      match takeValue fuel chars with
      | (item, none) => ([item], none)
      | (item, some rest) =>
          match skipSpace rest with
          | ',' :: rest =>
              let (items, rest) := takeItems fuel rest
              (item :: items, rest)
          | ']' :: rest => ([item], some rest)
          | _ => ([item], none)

/-- The members of an object from the one in turn. -/
def takeMembers (fuel : Nat) (chars : List Char) : List (String × Json) × Option (List Char) :=
  match fuel with
  | 0 => ([], none)
  | fuel + 1 =>
      match skipSpace chars with
      | '"' :: rest =>
          match takeString rest with
          | none => ([], none)
          | some (none, _) => ([], none)
          | some (some key, rest) =>
              match skipSpace rest with
              | ':' :: rest =>
                  match takeValue fuel rest with
                  | (value, none) => ([(key, value)], none)
                  | (value, some rest) =>
                      match skipSpace rest with
                      | ',' :: rest =>
                          let (members, rest) := takeMembers fuel rest
                          ((key, value) :: members, rest)
                      | '\x7d' :: rest => ([(key, value)], some rest)
                      | _ => ([(key, value)], none)
              | _ => ([(key, malformed)], none)
      | _ => ([], none)

end

/-- The value at the front of a text. -/
def front (text : String) : Json :=
  (takeValue (2 * text.length + 2) text.toList).1

/-- There is nothing behind the value at the front of a text but blanks. -/
def isAlone (text : String) : Bool :=
  match (takeValue (2 * text.length + 2) text.toList).2 with
  | some rest => (skipSpace rest).isEmpty
  | none => false

end TimeSeries.Json
