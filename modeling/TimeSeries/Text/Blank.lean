/-!
# Blanks, words and lines

Text is cut up by characters.  The blanks are the characters with the Unicode property
`White_Space`; they separate words and are trimmed from both ends of a text.  A line ends at a line
feed, and a carriage return directly before the line feed belongs to the line end; a text that ends
in a line feed has no further, empty line.

Main statement: `join_pieces` says that cutting a text at a separator loses nothing but the
separators, so the pieces determine the text.
-/

set_option autoImplicit false

namespace TimeSeries.Text

/-! ## Cutting -/

/-- The text up to the first separator, and the texts after each separator. -/
def cut (separator : Char → Bool) : List Char → List Char × List (List Char)
  | [] => ([], [])
  | char :: rest =>
      if separator char then
        ([], (cut separator rest).1 :: (cut separator rest).2)
      else
        (char :: (cut separator rest).1, (cut separator rest).2)

/-- The texts between separators, the ends of the text included: one more than separators. -/
def pieces (separator : Char → Bool) (chars : List Char) : List (List Char) :=
  (cut separator chars).1 :: (cut separator chars).2

/-- Texts with a character between each two neighbours. -/
def join (separator : Char) : List (List Char) → List Char
  | [] => []
  | [piece] => piece
  | piece :: next :: rest => piece ++ separator :: join separator (next :: rest)

/-- Putting the separators back gives the text. -/
theorem join_pieces (separator : Char) (chars : List Char) :
    join separator (pieces (· == separator) chars) = chars := by
  induction chars with
  | nil => rfl
  | cons char rest ih =>
      by_cases here : char = separator
      · subst here
        simpa [pieces, cut, join] using ih
      · have kept : (char == separator) = false := by simpa using here
        simp only [pieces, cut, kept] at ih ⊢
        cases tail : (cut (· == separator) rest).2 with
        | nil =>
            simp only [tail, join] at ih
            simp [join, ih]
        | cons next others =>
            simp only [tail, join] at ih
            simp [join, ih]

/-! ## Blanks and words -/

/-- The characters with the Unicode property `White_Space`. -/
def isBlank (char : Char) : Bool :=
  let code := char.toNat
  (9 ≤ code && code ≤ 13) || code == 0x20 || code == 0x85 || code == 0xa0 || code == 0x1680
    || (0x2000 ≤ code && code ≤ 0x200a) || code == 0x2028 || code == 0x2029 || code == 0x202f
    || code == 0x205f || code == 0x3000

/-- The characters from the first that is no blank to the last that is none. -/
def trimBlanks (chars : List Char) : List Char :=
  ((chars.dropWhile isBlank).reverse.dropWhile isBlank).reverse

/-- A text without the blanks at its ends. -/
def trim (text : String) : String :=
  String.ofList (trimBlanks text.toList)

/-- The words of a text: its longest parts without blanks. -/
def words (text : String) : List String :=
  ((pieces isBlank text.toList).filter fun piece => !piece.isEmpty).map String.ofList

/-! ## Lines -/

/-- A line without the carriage return that belongs to its end. -/
def dropReturn (line : List Char) : List Char :=
  if line.getLast? = some '\r' then line.dropLast else line

/-- Of the texts between line feeds, the lines: all but the last were ended by a line feed, and
the last is a line only if there is something in it. -/
def endLines : List (List Char) → List (List Char)
  | [] => []
  | [last] => if last.isEmpty then [] else [last]
  | line :: next :: rest => dropReturn line :: endLines (next :: rest)

/-- The lines of a text. -/
def lines (text : String) : List String :=
  (endLines (pieces (· == '\n') text.toList)).map String.ofList

end TimeSeries.Text
