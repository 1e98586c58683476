import TimeSeries.Text.Blank
import TimeSeries.Text.Utf8

/-!
# Form fields in addresses

The part of an address behind the question mark lists fields `name=value`, separated by ampersands.
In names and values a plus sign stands for a space, and a percent sign with two hexadecimal digits
for a byte; a percent sign without them stands for itself.  A field without an equals sign has an
empty value, and nothing between two ampersands is no field.
-/

set_option autoImplicit false

namespace TimeSeries.Text

/-- Spaces in place of plus signs. -/
def plusToSpace (bytes : Bytes) : Bytes :=
  bytes.map fun byte => if byte = 0x2b then 0x20 else byte

/-- The byte that two hexadecimal digits write. -/
def hexPair? (high low : UInt8) : Option UInt8 := do
  let high ← Bytes.hexValue? (Char.ofUInt8 high)
  let low ← Bytes.hexValue? (Char.ofUInt8 low)
  return UInt8.ofNat (16 * high + low)

/-- The bytes that percent signs with two digits stand for, in their place. -/
def percentDecode : Bytes → Bytes
  | 0x25 :: high :: low :: rest =>
      match hexPair? high low with
      | some byte => byte :: percentDecode rest
      | none => 0x25 :: percentDecode (high :: low :: rest)
  | byte :: rest => byte :: percentDecode rest
  | [] => []

/-- The text that a name or a value stands for. -/
def decodeField (chars : List Char) : String :=
  decodeMended (percentDecode (plusToSpace (encode (String.ofList chars))))

/-- The name and the value of a field. -/
def fieldOf (chars : List Char) : String × String :=
  let name := chars.takeWhile (· != '=')
  let value := (chars.dropWhile (· != '=')).drop 1
  (decodeField name, decodeField value)

/-- The fields of a text, in order. -/
def formFields (text : String) : List (String × String) :=
  ((pieces (· == '&') text.toList).filter fun piece => !piece.isEmpty).map fieldOf

end TimeSeries.Text
