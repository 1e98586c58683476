import TimeSeries.Bytes

/-!
# Text in UTF-8

Names are stored as their UTF-8 bytes.  Bytes that are no text have a first defect: the place where
the longest readable beginning ends, and either the number of bytes that cannot be read there or
the news that the bytes end within a character.  The unreadable bytes are the longest beginning of
some character, one byte at least.

Main statement: `decode_encode` says that a text is read back from its bytes.
-/

set_option autoImplicit false

namespace TimeSeries.Text

/-- The bytes of a text. -/
def encode (text : String) : Bytes :=
  text.toByteArray.data.toList

/-- What keeps bytes from being a text. -/
inductive Utf8Defect where
  /-- `length` bytes at `index` are no character and begin none that the bytes complete. -/
  | unreadable (index length : Nat)
  /-- The bytes end within the character that starts at `index`. -/
  | incomplete (index : Nat)
  deriving DecidableEq, Repr

/-- What is wrong, in words. -/
def Utf8Defect.message : Utf8Defect → String
  | .unreadable index length => s!"invalid utf-8 sequence of {length} bytes from index {index}"
  | .incomplete index => s!"incomplete utf-8 byte sequence from index {index}"

/-- What stands at the front of some bytes. -/
inductive Utf8Front where
  /-- A character in so many bytes. -/
  | character (length : Nat)
  /-- So many bytes that begin no character. -/
  | unreadable (length : Nat)
  /-- A character whose last bytes are missing. -/
  | incomplete

/-- A byte that continues a character. -/
def isContinuation (byte : UInt8) : Bool := 0x80 ≤ byte && byte ≤ 0xbf

/-- The number of bytes of a character that starts with the given byte; none starts with the
bytes that yield zero. -/
def leadLength (lead : UInt8) : Nat :=
  if lead < 0x80 then 1
  else if lead < 0xc2 then 0
  else if lead < 0xe0 then 2
  else if lead < 0xf0 then 3
  else if lead < 0xf5 then 4
  else 0

/-- The second bytes that can follow a first one: they exclude the overlong forms, the surrogates
and the numbers beyond the last character. -/
def isSecond (lead second : UInt8) : Bool :=
  if lead = 0xe0 then 0xa0 ≤ second && second ≤ 0xbf
  else if lead = 0xed then 0x80 ≤ second && second ≤ 0x9f
  else if lead = 0xf0 then 0x90 ≤ second && second ≤ 0xbf
  else if lead = 0xf4 then 0x80 ≤ second && second ≤ 0x8f
  else isContinuation second

/-- What stands at the front of bytes of which `seen` are read and `needed` more must continue the
character. -/
def continued : Nat → Nat → Bytes → Utf8Front
  | 0, seen, _ => .character seen
  | _ + 1, _, [] => .incomplete
  | needed + 1, seen, byte :: rest =>
      if isContinuation byte then continued needed (seen + 1) rest else .unreadable seen

/-- What stands at the front of a byte string that starts with the given byte. -/
def front (lead : UInt8) (rest : Bytes) : Utf8Front :=
  match leadLength lead, rest with
  | 0, _ => .unreadable 1
  | 1, _ => .character 1
  | _, [] => .incomplete
  | length, second :: rest =>
      if isSecond lead second then continued (length - 2) 2 rest else .unreadable 1

/-- The first defect of bytes, if they have one; `index` counts the bytes already read, and `skip`
those that belong to a character already read. -/
def findDefect (index skip : Nat) : Bytes → Option Utf8Defect
  | [] => none
  | byte :: rest =>
      match skip with
      | skip + 1 => findDefect (index + 1) skip rest
      | 0 =>
          match front byte rest with
          | .character length => findDefect (index + 1) (length - 1) rest
          | .unreadable length => some (.unreadable index length)
          | .incomplete => some (.incomplete index)

/-- The text of some bytes, or their first defect. -/
def decode (bytes : Bytes) : Except Utf8Defect String :=
  match String.fromUTF8? ⟨bytes.toArray⟩ with
  | some text => .ok text
  | none => .error ((findDefect 0 0 bytes).getD (.incomplete bytes.length))

/-! ## Reading whatever can be read -/

/-- The bytes of the replacement character U+FFFD. -/
def replacement : Bytes := [0xef, 0xbf, 0xbd]

/-- The bytes with one replacement character for whatever cannot be read in one place.  `pending`
bytes belong to what was met before, and are kept if they belong to a character. -/
def mend (pending : Nat) (keep : Bool) : Bytes → Bytes
  | [] => []
  | byte :: rest =>
      match pending with
      | pending + 1 =>
          if keep then byte :: mend pending keep rest else mend pending keep rest
      | 0 =>
          match front byte rest with
          | .character length => byte :: mend (length - 1) true rest
          | .unreadable length => replacement ++ mend (length - 1) false rest
          | .incomplete => replacement

/-- The text of some bytes, with replacement characters for what cannot be read. -/
def decodeMended (bytes : Bytes) : String :=
  match decode (mend 0 true bytes) with
  | .ok text => text
  | .error _ => ""

/-! ## Reading back -/

/-- A text is read back from its bytes. -/
theorem decode_encode (text : String) : decode (encode text) = .ok text := by
  have bytes : (⟨(encode text).toArray⟩ : ByteArray) = text.toByteArray := by
    simp only [encode, Array.toArray_toList]
  have valid : String.fromUTF8? text.toByteArray = some text := by
    unfold String.fromUTF8?
    rw [dif_pos text.isValidUTF8]
    rfl
  simp only [decode, bytes, valid]

end TimeSeries.Text
