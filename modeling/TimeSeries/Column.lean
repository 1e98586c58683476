import TimeSeries.Failure

/-!
# Tag columns

A column holds tags as text: `key=value`, several separated by commas.  Within a key or a value a
backslash stands in front of each backslash, equals sign and comma, so these characters can occur
in tags.  When a column is read, a backslash takes the next character as it is, whatever it is; the
first equals sign of a tag ends its key, and further ones belong to the value.

Main statement: `splitChars_escape_append` says that an escaped text is read as that text, whatever
follows it.
-/

set_option autoImplicit false

namespace TimeSeries

namespace Column

/-! ## Writing -/

/-- The characters that a backslash has to stand in front of. -/
def isSpecial (char : Char) : Bool :=
  char == '\\' || char == '=' || char == ','

/-- A key or a value with backslashes where they are needed. -/
def escape : List Char → List Char
  | [] => []
  | char :: rest =>
      if isSpecial char then '\\' :: char :: escape rest else char :: escape rest

/-- One tag. -/
def tagChars (tag : String × String) : List Char :=
  escape tag.1.toList ++ '=' :: escape tag.2.toList

/-- Tags separated by commas. -/
def joinChars : List (String × String) → List Char
  | [] => []
  | [tag] => tagChars tag
  | tag :: next :: rest => tagChars tag ++ ',' :: joinChars (next :: rest)

/-- The column of one tag. -/
def ofTag (key value : String) : String :=
  String.ofList (tagChars (key, value))

/-- The column of some tags. -/
def join (tags : List (String × String)) : String :=
  String.ofList (joinChars tags)

/-! ## Reading -/

/-- What keeps text from being a column. -/
inductive Defect where
  /-- A tag without an equals sign, or without anything in front of it. -/
  | tag
  /-- A backslash at the end. -/
  | escape
  deriving DecidableEq, Repr

/-- The tag whose key, if its equals sign has been read, and whose rest are given. -/
def close (key : Option (List Char)) (current : List Char) :
    Except Defect (String × String) :=
  match key with
  | some (char :: rest) => .ok (String.ofList (char :: rest), String.ofList current)
  | _ => .error .tag

/-- Reads the tags of a column.  `key` holds the key of the open tag once its equals sign has been
read, and `current` what has been read since. -/
def splitChars (key : Option (List Char)) (current : List Char) :
    List Char → Except Defect (List (String × String))
  | [] => do
      let tag ← close key current
      return [tag]
  | ['\\'] => .error .escape
  | '\\' :: char :: rest => splitChars key (current ++ [char]) rest
  | ',' :: rest => do
      let tag ← close key current
      let tags ← splitChars none [] rest
      return tag :: tags
  | char :: rest =>
      if char = '=' ∧ key = none then
        splitChars (some current) [] rest
      else
        splitChars key (current ++ [char]) rest

/-- The tags of a column; the empty column has none. -/
def split (column : String) : Except Failure (List (String × String)) :=
  if column.isEmpty then
    .ok []
  else
    match splitChars none [] column.toList with
    | .ok tags => .ok tags
    | .error .tag => .error (.format (.columnTag column))
    | .error .escape => .error (.format (.columnEscape column))

/-! ## Laws -/

/-- Reading an escaped text adds it to what has been read. -/
theorem splitChars_escape_append (key : Option (List Char)) (current text rest : List Char) :
    splitChars key current (escape text ++ rest) = splitChars key (current ++ text) rest := by
  induction text generalizing current with
  | nil => simp [escape]
  | cons char text ih =>
      by_cases special : isSpecial char = true
      · simp only [escape, special, if_true, List.cons_append, splitChars]
        rw [ih, List.append_assoc, List.singleton_append]
      · have plain : char ≠ '\\' ∧ char ≠ '=' ∧ char ≠ ',' := by
          simpa [isSpecial, not_or, and_assoc] using special
        simp only [escape, special]
        rw [if_neg (by decide), List.cons_append, splitChars]
        · rw [if_neg (by simp [plain.2.1]), ih, List.append_assoc, List.singleton_append]
        all_goals simp_all

end Column

end TimeSeries
