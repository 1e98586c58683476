import Mathlib.Data.List.Basic
import Mathlib.Data.List.TakeWhile
import TimeSeries.Text.Blank

/-!
# The words of a text

A text spaces out words if it consists of these words in turn, none of them empty and none with a
blank in it, with any blanks in front and behind and at least one between each two
(`SpacesOut`).  Every text spaces out one list of words, and these are its words
(`words_eq_iff`).

A longest beginning with a property ends where the first character without it stands
(`takeWhile_append_of_stops`), and so a text is parted at the first of some mark
(`takeWhile_dropWhile_iff`).
-/

set_option autoImplicit false

namespace TimeSeries.Text

/-! ## Longest beginnings -/

section

variable {property : Char → Bool} {front back : List Char}

/-- No longest beginning with the property goes on into the text. -/
def Stops (property : Char → Bool) (back : List Char) : Prop :=
  ∀ char ∈ back.head?, property char = false

theorem stops_nil : Stops property [] := fun _ found => by cases found

theorem stops_cons {char : Char} {rest : List Char} :
    Stops property (char :: rest) ↔ property char = false := by
  simp [Stops]

theorem stops_dropWhile (property : Char → Bool) (chars : List Char) :
    Stops property (chars.dropWhile property) := by
  intro char first
  have fails := List.head?_dropWhile_not property chars
  rw [Option.mem_def] at first
  simpa [first] using fails

theorem takeWhile_of_stops (stops : Stops property back) : back.takeWhile property = [] := by
  cases back with
  | nil => rfl
  | cons char rest => exact List.takeWhile_cons_of_neg (by simpa using stops_cons.mp stops)

theorem dropWhile_of_stops (stops : Stops property back) : back.dropWhile property = back := by
  cases back with
  | nil => rfl
  | cons char rest => exact List.dropWhile_cons_of_neg (by simpa using stops_cons.mp stops)

theorem takeWhile_append_of_stops (all : ∀ char ∈ front, property char = true)
    (stops : Stops property back) : (front ++ back).takeWhile property = front := by
  rw [List.takeWhile_append_of_pos all, takeWhile_of_stops stops, List.append_nil]

theorem dropWhile_append_of_stops (all : ∀ char ∈ front, property char = true)
    (stops : Stops property back) : (front ++ back).dropWhile property = back := by
  rw [List.dropWhile_append_of_pos all, dropWhile_of_stops stops]

end

/-! ## First marks -/

section

variable {mark : Char} {chars front rest : List Char}

/-- In front of a mark and behind it, if there is none in front. -/
theorem takeWhile_dropWhile_iff :
    chars.takeWhile (· != mark) = front ∧ chars.dropWhile (· != mark) = mark :: rest
      ↔ chars = front ++ mark :: rest ∧ mark ∉ front := by
  constructor
  · rintro ⟨rfl, behind⟩
    refine ⟨by rw [← behind, List.takeWhile_append_dropWhile], fun member => ?_⟩
    have other := List.mem_takeWhile_imp (p := (· != mark)) member
    simp at other
  · rintro ⟨rfl, absent⟩
    have before : ∀ char ∈ front, (char != mark) = true := fun char member => by
      rw [bne_iff_ne]
      rintro rfl
      exact absent member
    have stops : Stops (· != mark) (mark :: rest) := stops_cons.mpr (by simp)
    exact ⟨takeWhile_append_of_stops before stops, dropWhile_append_of_stops before stops⟩

theorem eq_mark_of_dropWhile {first : Char}
    (behind : chars.dropWhile (· != mark) = first :: rest) : first = mark := by
  have stops := stops_dropWhile (· != mark) chars
  rw [behind, stops_cons] at stops
  simpa using stops

end

/-! ## Words -/

/-- The text consists of the words with blanks between, in front and behind. -/
inductive SpacesOut : List Char → List (List Char) → Prop
  | blank {gap : List Char} (blank : ∀ char ∈ gap, isBlank char = true) : SpacesOut gap []
  | word {gap word rest : List Char} {words : List (List Char)}
      (blank : ∀ char ∈ gap, isBlank char = true) (filled : word ≠ [])
      (solid : ∀ char ∈ word, isBlank char = false)
      (apart : Stops (fun char => !isBlank char) rest) (others : SpacesOut rest words) :
      SpacesOut (gap ++ word ++ rest) (word :: words)

/-- The pieces of a text between blanks that are not empty. -/
def solidPieces (chars : List Char) : List (List Char) :=
  (pieces isBlank chars).filter fun piece => !piece.isEmpty

theorem words_eq (text : String) : words text = (solidPieces text.toList).map String.ofList := rfl

theorem solidPieces_cons_of_blank {char : Char} (blank : isBlank char = true) (rest : List Char) :
    solidPieces (char :: rest) = solidPieces rest := by
  rw [solidPieces, pieces, cut, if_pos blank]
  rfl

/-- Blanks in front of a text make no word. -/
theorem solidPieces_append_of_blank {gap : List Char}
    (blank : ∀ char ∈ gap, isBlank char = true) (rest : List Char) :
    solidPieces (gap ++ rest) = solidPieces rest := by
  induction gap with
  | nil => rfl
  | cons char gap ih =>
      rw [List.cons_append, solidPieces_cons_of_blank (blank char List.mem_cons_self),
        ih fun other member => blank other (List.mem_cons_of_mem _ member)]

/-- Characters without blanks belong to the first piece. -/
theorem cut_append_of_solid {word : List Char} (solid : ∀ char ∈ word, isBlank char = false)
    (rest : List Char) :
    cut isBlank (word ++ rest) = (word ++ (cut isBlank rest).1, (cut isBlank rest).2) := by
  induction word with
  | nil => rfl
  | cons char word ih =>
      have here : ¬isBlank char = true := by simp [solid char List.mem_cons_self]
      rw [List.cons_append, cut, if_neg here,
        ih fun other member => solid other (List.mem_cons_of_mem _ member), List.cons_append]

/-- A word up to a blank or the end of the text is the first of the words. -/
theorem solidPieces_append_of_solid {word rest : List Char} (filled : word ≠ [])
    (solid : ∀ char ∈ word, isBlank char = false)
    (apart : Stops (fun char => !isBlank char) rest) :
    solidPieces (word ++ rest) = word :: solidPieces rest := by
  have kept : (!word.isEmpty) = true := by simp [filled]
  rw [solidPieces, pieces, cut_append_of_solid solid]
  cases rest with
  | nil => simp [cut, filled, solidPieces, pieces]
  | cons char rest =>
      have blank : isBlank char = true := by simpa using stops_cons.mp apart
      rw [solidPieces_cons_of_blank blank, cut, if_pos blank, List.append_nil]
      exact List.filter_cons_of_pos (p := fun piece : List Char => !piece.isEmpty) kept

theorem solidPieces_of_spacesOut {chars : List Char} {words : List (List Char)}
    (spaced : SpacesOut chars words) : solidPieces chars = words := by
  induction spaced with
  | @blank gap blank =>
      have none := solidPieces_append_of_blank blank []
      rwa [List.append_nil] at none
  | word blank filled solid apart others ih =>
      rw [List.append_assoc, solidPieces_append_of_blank blank,
        solidPieces_append_of_solid filled solid apart, ih]

/-- Every text spaces out its words. -/
theorem spacesOut_solidPieces (chars : List Char) : SpacesOut chars (solidPieces chars) := by
  have gap : ∀ char ∈ chars.takeWhile isBlank, isBlank char = true :=
    fun char member => List.mem_takeWhile_imp member
  have whole := List.takeWhile_append_dropWhile (p := isBlank) (l := chars)
  cases left : chars.dropWhile isBlank with
  | nil =>
      rw [left, List.append_nil] at whole
      rw [whole] at gap
      have none := solidPieces_append_of_blank gap []
      rw [List.append_nil] at none
      rw [none]
      exact .blank gap
  | cons first others =>
      -- The rest behind the first word is shorter than the text.
      have solid : isBlank first = false := by
        have stops := stops_dropWhile isBlank chars
        rw [left] at stops
        exact stops_cons.mp stops
      let word := (first :: others).takeWhile fun char => !isBlank char
      let rest := (first :: others).dropWhile fun char => !isBlank char
      have split : word ++ rest = first :: others := List.takeWhile_append_dropWhile
      have filled : word ≠ [] := by
        simp [word, solid]
      have unbroken : ∀ char ∈ word, isBlank char = false := fun char member => by
        simpa using List.mem_takeWhile_imp member
      have apart : Stops (fun char => !isBlank char) rest := stops_dropWhile _ _
      have shorter : rest.length < chars.length := by
        have lengths := congrArg List.length split
        have lengthsOfWhole := congrArg List.length whole
        have some := List.length_pos_of_ne_nil filled
        rw [List.length_append] at lengths lengthsOfWhole
        rw [left] at lengthsOfWhole
        omega
      have further := spacesOut_solidPieces rest
      have joined : chars = chars.takeWhile isBlank ++ word ++ rest := by
        rw [List.append_assoc, split, ← left, whole]
      have pieces : solidPieces chars = word :: solidPieces rest := by
        rw [joined, List.append_assoc, solidPieces_append_of_blank gap,
          solidPieces_append_of_solid filled unbroken apart]
      rw [pieces]
      have built := SpacesOut.word gap filled unbroken apart further
      rwa [← joined] at built
termination_by chars.length

/-- The words of a text are those that it spaces out. -/
theorem words_eq_iff {text : String} {found : List String} :
    words text = found ↔ SpacesOut text.toList (found.map String.toList) := by
  have back : ∀ pieces : List (List Char), (pieces.map String.ofList).map String.toList = pieces :=
    fun pieces => by simp [Function.comp_def]
  constructor
  · rintro rfl
    rw [words_eq, back]
    exact spacesOut_solidPieces text.toList
  · intro spaced
    rw [words_eq, solidPieces_of_spacesOut spaced]
    simp [Function.comp_def]

end TimeSeries.Text
