import Mathlib.Data.List.Basic
import TimeSeries.Text.Blank

/-!
# Lines of joined texts

Two texts with a line feed between them are cut at line feeds into the pieces of the one and then
those of the other (`pieces_append`), and there is one piece more than line feeds.  The lines of a
text are its pieces but for two things: a carriage return at the end of a piece is left out of the
line, which is undone by trimming (`trimBlanks_dropReturn`), and a last piece without characters is
no line.
-/

set_option autoImplicit false

namespace TimeSeries.Text

/-! ## Pieces -/

section

variable (separator : Char → Bool)

/-- The pieces of two texts with a separator between them are those of the one and of the other. -/
theorem pieces_append (front back : List Char) {char : Char} (here : separator char = true) :
    pieces separator (front ++ char :: back) = pieces separator front ++ pieces separator back := by
  induction front with
  | nil => simp [pieces, cut, here]
  | cons first front ih =>
      rw [pieces, pieces, List.cons_append, List.cons.injEq] at ih
      by_cases stops : separator first = true
      · simp [pieces, cut, stops, ih.1, ih.2]
      · simp [pieces, cut, stops, ih.1, ih.2]

/-- There is one piece more than separators. -/
theorem length_pieces (chars : List Char) :
    (pieces separator chars).length = chars.countP separator + 1 := by
  induction chars with
  | nil => rfl
  | cons first chars ih =>
      rw [pieces, List.length_cons, Nat.add_right_cancel_iff] at ih
      by_cases stops : separator first = true
      · simp [pieces, cut, stops, ih]
      · simp [pieces, cut, stops, ih]

end

/-! ## Trimming -/

/-- Blanks behind a text are trimmed with the others. -/
theorem trimBlanks_concat {blank : Char} (white : isBlank blank = true) (chars : List Char) :
    trimBlanks (chars ++ [blank]) = trimBlanks chars := by
  rw [trimBlanks, trimBlanks, List.dropWhile_append]
  split
  case isTrue empty =>
    rw [List.isEmpty_iff.mp empty, List.dropWhile_cons_of_pos white]
    rfl
  case isFalse =>
    rw [List.reverse_append, List.reverse_singleton, List.singleton_append,
      List.dropWhile_cons_of_pos white]

/-- The carriage return of a line end is trimmed away. -/
theorem trimBlanks_dropReturn (line : List Char) :
    trimBlanks (dropReturn line) = trimBlanks line := by
  rw [dropReturn]
  split
  case isTrue returned =>
    rw [← trimBlanks_concat (show isBlank '\r' = true by decide) line.dropLast,
      List.dropLast_append_getLast? _ returned]
  case isFalse => rfl

theorem trim_ofList (chars : List Char) :
    trim (String.ofList chars) = String.ofList (trimBlanks chars) := by
  rw [trim, String.toList_ofList]

end TimeSeries.Text
