import TimeSeries.Pattern.Basic

/-!
# Flags of patterns

Flags change how the rest of a group is read: whether case matters, whether `^` and `$` stand for
the ends of lines, whether a dot stands for a line feed too, whether a carriage return ends a line,
whether the pattern is over ASCII, and whether blanks and comments are passed over.
-/

set_option autoImplicit false

namespace TimeSeries.Pattern

/-- How a pattern is read. -/
structure Flags where
  caseless : Bool
  multiline : Bool
  dotAll : Bool
  returnEndsLine : Bool
  /-- Blanks and comments are passed over. -/
  spaced : Bool
  repertoire : Repertoire
  deriving DecidableEq, Repr, Inhabited

namespace Flags

/-- The flags at the start of a pattern. -/
def initial : Flags := ⟨false, false, false, false, false, .unicode⟩

/-- Sets or clears the flag of a letter.  The flag `U` only concerns which of several matches is
preferred. -/
def set? (flags : Flags) (letter : Char) (value : Bool) : Option Flags :=
  match letter with
  | 'i' => some { flags with caseless := value }
  | 'm' => some { flags with multiline := value }
  | 's' => some { flags with dotAll := value }
  | 'R' => some { flags with returnEndsLine := value }
  | 'x' => some { flags with spaced := value }
  | 'u' => some { flags with repertoire := if value then .unicode else .ascii }
  | 'U' => some flags
  | _ => none

/-- Reads letters up to a colon or a closing parenthesis: the flags, that character and the rest.
Letters behind a dash are cleared; there is at most one dash, not at the end, and no letter comes
twice.  `seen` are the letters so far, the latest first. -/
def read? (flags : Flags) (seen : List Char) : List Char → Option (Flags × Char × List Char)
  | [] => none
  | '-' :: rest => if seen.contains '-' then none else read? flags ('-' :: seen) rest
  | char :: rest =>
      if char = ':' ∨ char = ')' then
        if seen.head? = some '-' ∨ (char = ')' ∧ seen.isEmpty) then none
        else some (flags, char, rest)
      else if seen.contains char then
        none
      else
        match flags.set? char (!seen.contains '-') with
        | some flags => read? flags (char :: seen) rest
        | none => none

/-- The class with which a class of characters is read. -/
def classOf (flags : Flags) (characters : CharClass) : CharClass :=
  if flags.caseless then .caseless flags.repertoire characters else characters

/-- The text without blanks and comments at its front.  A comment goes from `#` to the end of the
line. -/
def skipComments (inComment : Bool) : List Char → List Char
  | [] => []
  | char :: rest =>
      if inComment then skipComments (char != '\n') rest
      else if Text.isBlank char then skipComments false rest
      else if char = '#' then skipComments true rest
      else char :: rest

/-- The text from where reading goes on. -/
def skip (flags : Flags) (chars : List Char) : List Char :=
  if flags.spaced then skipComments false chars else chars

end Flags

end TimeSeries.Pattern
