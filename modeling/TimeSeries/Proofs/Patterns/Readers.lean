import TimeSeries.Pattern.Reader
import TimeSeries.Proofs.Patterns.Locality

/-!
# Readers of parts of patterns

The readers of escapes, of classes in brackets, of the bounds of repetitions, of what parentheses
open and of simple items are local.

A reader that goes on from what it finds is taken apart where it looks ahead: `Bracket.rangeRest`,
`boundsRest`, `Bracket.piece?` and `Bracket.follow` are what it reads from there, and it is made of
them (`Bracket.readRange_eq`, `readBounds_eq`, `Bracket.read?_succ`).  What it reads in so many
rounds it reads in any number of rounds that is greater than that of the characters
(`Escaped.takeBraced_settled`, `Bracket.read?_settled`).

Two readers have an excuse.  A word boundary in front of a brace that nothing follows is read if a
closing stands behind it, where the brace starts no name (`Escaped.dangles`); and an item of a class
at the end of the text is told from the start of a range only by a character behind it
(`Bracket.ends`).  Neither is read any further: no bounds and no end of a class follow.
-/

set_option autoImplicit false

namespace TimeSeries.Pattern

/-! ## Escapes -/

namespace Escaped

theorem local_takeDigits (flags : Flags) (count : Nat) : Local never (takeDigits flags count) := by
  induction count with
  | zero => exact fun _ => .some []
  | succ count ih =>
      refine .of_skip flags (fun chars ended => by rw [takeDigits, ended])
        fun chars digit rest here there => ?_
      rw [takeDigits, takeDigits, here, there]
      dsimp only
      split
      · exact (ih rest).map (digit :: ·) fun _ _ => id
      · exact .none

theorem local_takeBraced (flags : Flags) (fuel : Nat) : Local never (takeBraced flags fuel) := by
  induction fuel with
  | zero => exact fun _ => .none
  | succ fuel ih =>
      refine .of_skip flags (fun chars ended => by rw [takeBraced, ended])
        fun chars char rest here there => ?_
      rw [takeBraced, takeBraced, here, there]
      by_cases closes : char = '\x7d'
      · subst closes
        exact .some []
      · simp only
        exact (ih rest).map (char :: ·) fun _ _ => id

theorem takeBraced_settled {flags : Flags} {fuel : Nat} {chars : List Char}
    {result : List Char × List Char} (found : takeBraced flags fuel chars = some result)
    {enough : Nat} (long : chars.length < enough) :
    takeBraced flags enough chars = some result := by
  induction fuel generalizing chars result enough with
  | zero => cases found
  | succ fuel ih =>
      cases enough with
      | zero => cases long
      | succ enough =>
          have shorter := (skip_suffix flags chars).length_le
          rw [takeBraced] at found ⊢
          cases here : flags.skip chars with
          | nil =>
              rw [here] at found
              cases found
          | cons char rest =>
              rw [here, List.length_cons] at shorter
              rw [here] at found
              by_cases closes : char = '\x7d'
              · subst closes
                exact found
              · simp only at found ⊢
                obtain ⟨taken, there, same⟩ := Option.map_eq_some_iff.mp found
                rw [ih there (by omega)]
                exact congrArg some same

/-- Taking the characters up to a closing brace behind an opening one. -/
theorem local_braced (flags : Flags) :
    Local never fun chars => takeBraced flags (chars.length + 1) chars :=
  .of_rounds (local_takeBraced flags) takeBraced_settled

theorem local_readCode (flags : Flags) (width : Nat) :
    Local never (readCode flags (width + 1)) := by
  have nothing : takeDigits flags (width + 1) [] = none := by rw [takeDigits, skip_nil]
  refine .of_peek flags (fun chars ended value rest found => ?_) fun chars front here there => ?_
  · rw [readCode, ended] at found
    simp [nothing] at found
  · rw [readCode, readCode, here, there]
    by_cases braced : ∃ rest, front = '\x7b' :: rest
    · obtain ⟨rest, rfl⟩ := braced
      refine ((local_braced flags rest).andThen fun digits rest => ?_).mono
        (List.suffix_cons _ rest)
      dsimp only
      split
      · cases ofCode? digits with
        | none => exact .none
        | some char => exact .skipped flags _ rest
      · exact .none
    · obtain ⟨unbraced, unbraced'⟩ := not_marked (by decide) braced
      simp only
      refine (local_takeDigits flags (width + 1) front).andThen fun digits rest => ?_
      cases ofCode? digits with
      | none => exact .none
      | some char =>
          simp only [Option.bind_eq_bind, Option.bind_some]
          split
          · exact .none
          · exact .skipped flags _ rest

/-- The class that a name asks for, with what is left behind the name. -/
theorem localAt_askedClass? (flags : Flags) (negated : Bool) (name rest : List Char) :
    LocalAt never rest
      (do
        let wanted ← askedClass? flags negated name
        return (characters wanted, rest ++ closing))
      (do
        let wanted ← askedClass? flags negated name
        return (characters wanted, rest)) := by
  cases askedClass? flags negated name with
  | none => exact .none
  | some wanted => exact .some _

theorem local_readProperty (flags : Flags) (negated : Bool) :
    Local never (readProperty flags negated) := by
  by_cases ascii : flags.repertoire = .ascii
  · intro chars
    rw [readProperty, readProperty, if_pos ascii, if_pos ascii]
    exact .none
  · refine .of_skip flags (fun chars ended => ?_) fun chars char rest here there => ?_
    · rw [readProperty, if_neg ascii, ended]
      rfl
    · rw [readProperty, readProperty, if_neg ascii, if_neg ascii, here, there]
      by_cases braced : char = '\x7b'
      · subst braced
        exact (local_braced flags rest).andThen (localAt_askedClass? flags negated)
      · by_cases escaped : char = '\\'
        · subst escaped
          exact .none
        · simp only
          exact (LocalAt.skipped flags [char] rest).andThen fun name rest =>
            localAt_askedClass? flags negated name rest

/-- A word boundary in front of a brace that nothing but blanks and comments follow. -/
def dangles (flags : Flags) (read : Escaped) (kept : List Char) : Prop :=
  read = .condition .wordBoundary ∧ ∃ behind, kept = '\x7b' :: behind ∧ flags.skip behind = []

theorem local_readBoundary (flags : Flags) : Local (dangles flags) (readBoundary flags) := by
  intro chars
  by_cases braced : ∃ rest, chars = '\x7b' :: rest
  · obtain ⟨rest, rfl⟩ := braced
    rw [readBoundary, List.cons_append, readBoundary]
    obtain goes | ⟨nothing, nothing'⟩ := skip_append flags rest
    · rw [goes]
      cases here : flags.skip rest with
      | nil =>
          refine ⟨nofun, fun {value kept} found => .inr ?_⟩
          obtain ⟨rfl, same⟩ := Prod.mk.inj (Option.some.inj found)
          exact ⟨rfl, rest, (List.append_cancel_right same).symm, here⟩
      | cons char more =>
          have suffix : char :: more <:+ '\x7b' :: rest :=
            (here ▸ skip_suffix flags rest).trans (List.suffix_cons _ rest)
          simp only [List.cons_append]
          split
          · refine ((local_braced flags (char :: more)).andThen fun name rest => ?_).mono suffix
            exact .ofBind _ _
          · exact .some _
    · rw [nothing, nothing']
      exact .none
  · obtain ⟨unbraced, unbraced'⟩ := not_marked (by decide) braced
    rw [readBoundary, readBoundary]
    · exact .some _
    · exact unbraced
    · exact unbraced'

theorem localAt_read? (flags : Flags) (letter : Char) (rest : List Char) :
    LocalAt (dangles flags) rest (read? flags (letter :: (rest ++ closing)))
      (read? flags (letter :: rest)) := by
  simp only [read?]
  split
  · exact (local_readCode flags 1 rest).excused
  · exact (local_readCode flags 3 rest).excused
  · exact (local_readCode flags 7 rest).excused
  · exact (local_readProperty flags false rest).excused
  · exact (local_readProperty flags true rest).excused
  · exact .ofOption _
  · exact .ofOption _
  · exact .ofOption _
  · exact .ofOption _
  · exact .ofOption _
  · exact .ofOption _
  · exact local_readBoundary flags rest
  · split
    · exact .some _
    · cases controlChar? letter with
      | some char => exact .some _
      | none =>
        cases conditionOf? letter with
        | some found => exact .some _
        | none => exact .none

theorem local_read? (flags : Flags) : Local (dangles flags) (read? flags) :=
  .of_cons rfl (localAt_read? flags)

end Escaped

/-! ## Classes in brackets -/

namespace Bracket

theorem localAt_readItem (flags : Flags) (char : Char) (rest : List Char) :
    LocalAt (Escaped.dangles flags) rest (readItem flags (char :: (rest ++ closing)))
      (readItem flags (char :: rest)) := by
  by_cases escaped : char = '\\'
  · subst escaped
    exact Escaped.local_read? flags rest
  · rw [readItem, readItem]
    · exact .some _
    · exact escaped
    · exact escaped

/-- The text ends. -/
def ends {α : Type} (_ : α) (kept : List Char) : Prop := kept = []

/-- Reads on behind an item and a dash. -/
def rangeEnd (flags : Flags) (first : Escaped) (more : List Char) :
    Option (CharClass × List Char) :=
  if (flags.skip more).head? = some ']' ∨ (flags.skip more).head? = some '-' then
    (itemClass? flags first).bind fun item => some (item, '-' :: more)
  else
    (readItem flags (flags.skip more)).bind fun found =>
      (rangeClass? flags first found.1).bind fun range => some (range, found.2)

/-- Reads on behind an item, where there is nothing to pass over. -/
def rangeRest (flags : Flags) (first : Escaped) : List Char → Option (CharClass × List Char)
  | [] => none
  | '-' :: more => rangeEnd flags first more
  | rest => (itemClass? flags first).bind fun item => some (item, rest)

theorem readRange_eq (flags : Flags) (chars : List Char) :
    readRange flags chars = (readItem flags chars).bind fun found =>
      rangeRest flags found.1 (flags.skip found.2) := by
  rw [readRange]
  refine congrArg (Option.bind (readItem flags chars)) (funext fun (first, rest) => ?_)
  unfold rangeRest rangeEnd
  rfl

/-- No range ends with a condition. -/
theorem localAt_rangeEnd (flags : Flags) (first : Escaped) (more : List Char) :
    LocalAt ends ('-' :: more) (rangeEnd flags first (more ++ closing))
      (rangeEnd flags first more) := by
  rw [rangeEnd, rangeEnd]
  obtain goes | ⟨nothing, nothing'⟩ := skip_append flags more
  · rw [goes]
    cases here : flags.skip more with
    | nil =>
        refine .of_leaves (fun found => ?_) fun {value kept} found => ?_
        · cases found
        · obtain ⟨held, _, same⟩ := Option.bind_eq_some_iff.mp found
          have same : ['$'] = kept ++ closing := (Prod.mk.inj (Option.some.inj same)).2
          exact not_suffix_dollar (same ▸ List.suffix_rfl : kept ++ closing <:+ ['$'])
    | cons char behind =>
        rw [List.cons_append, List.head?_cons, List.head?_cons]
        split
        · exact .ofBind _ _
        · have suffix : behind <:+ '-' :: more :=
            (List.suffix_cons char behind).trans
              ((here ▸ skip_suffix flags more).trans (List.suffix_cons _ more))
          refine ((localAt_readItem flags char behind).bind (fun last rest => ?_) ?_).mono suffix
          · exact .ofBind _ _
          · rintro _ front read kept ⟨rfl, _⟩ found
            simp [rangeClass?] at found
  · rw [nothing, nothing']
    exact .none

/-- Behind an item the end of a range must be told from a dash, so the text does not end there. -/
theorem local_rangeRest (flags : Flags) (first : Escaped) : Local ends (rangeRest flags first) := by
  intro chars
  cases chars with
  | nil =>
      refine ⟨nofun, fun {value kept} found => .inr ?_⟩
      obtain ⟨held, _, same⟩ := Option.bind_eq_some_iff.mp found
      have same := (Prod.mk.inj (Option.some.inj same)).2
      exact List.append_cancel_right (same.symm : kept ++ closing = [] ++ closing)
  | cons char more =>
      by_cases dash : char = '-'
      · subst dash
        exact localAt_rangeEnd flags first more
      · have other := cons_ne dash more
        have other' := cons_ne dash (more ++ closing)
        simp only [rangeRest, List.cons_append]
        exact .ofBind _ _

/-- A condition is no item of a class. -/
theorem rangeRest_condition (flags : Flags) (condition : Assertion) (chars : List Char) :
    rangeRest flags (.condition condition) chars = none := by
  unfold rangeRest
  split
  · rfl
  · simp [rangeEnd, itemClass?, rangeClass?]
  · rfl

/-- A range is read locally, but that its end must be told from a dash. -/
theorem localAt_readRange (flags : Flags) (char : Char) (rest : List Char) :
    LocalAt ends rest (readRange flags (char :: (rest ++ closing)))
      (readRange flags (char :: rest)) := by
  rw [readRange_eq, readRange_eq]
  refine (localAt_readItem flags char rest).bind
    (fun first rest => (local_rangeRest flags first).skip flags rest) ?_
  rintro _ front read kept ⟨rfl, _⟩ found
  rw [rangeRest_condition] at found
  cases found

/-- A closing neither ends a name with a colon and a bracket nor does it have a part in it. -/
theorem name_append (chars : List Char) :
    ((∀ rest, chars.drop (chars.takeWhile (· != ':')).length ≠ ':' :: ']' :: rest)
        ∧ ∀ rest, (chars ++ closing).drop ((chars ++ closing).takeWhile (· != ':')).length
          ≠ ':' :: ']' :: rest)
      ∨ ∃ rest, rest <:+ chars
        ∧ (chars ++ closing).takeWhile (· != ':') = chars.takeWhile (· != ':')
        ∧ chars.drop (chars.takeWhile (· != ':')).length = ':' :: ']' :: rest
        ∧ (chars ++ closing).drop (chars.takeWhile (· != ':')).length
          = ':' :: ']' :: (rest ++ closing) := by
  obtain ⟨ended, ended'⟩ | ⟨behind, suffix, same, here, there⟩ :=
    drop_append (by decide : ':' ∉ closing) chars
  · rw [ended, ended']
    exact .inl ⟨nofun, nofun⟩
  · rw [same, here, there]
    by_cases bracket : ∃ rest, behind = ']' :: rest
    · obtain ⟨rest, rfl⟩ := bracket
      exact .inr ⟨rest, (List.suffix_cons _ rest).trans suffix, rfl, rfl, rfl⟩
    · obtain ⟨other, other'⟩ := not_marked (by decide) bracket
      exact .inl ⟨fun rest same => other rest (List.cons.inj same).2,
        fun rest same => other' rest (List.cons.inj same).2⟩

/-- Whether there is a named class does not depend on a closing. -/
theorem readNamed?_cases (flags : Flags) (chars : List Char) :
    (readNamed? flags chars = none ∧ readNamed? flags (chars ++ closing) = none)
      ∨ ∃ characters rest, rest <:+ chars ∧ readNamed? flags chars = some (characters, rest)
        ∧ readNamed? flags (chars ++ closing) = some (characters, rest ++ closing) := by
  by_cases caret : ∃ rest, chars = '^' :: rest
  · obtain ⟨chars, rfl⟩ := caret
    rw [List.cons_append, readNamed?, readNamed?]
    obtain ⟨unended, unended'⟩ | ⟨rest, suffix, same, here, there⟩ := name_append chars
    · exact .inl ⟨by simp only, by simp only⟩
    · rw [same, there, here]
      cases namedRanges? (String.ofList (chars.takeWhile (· != ':'))) with
      | none => exact .inl ⟨rfl, rfl⟩
      | some ranges => exact .inr ⟨_, rest, suffix.trans (List.suffix_cons _ chars), rfl, rfl⟩
  · obtain ⟨plain, plain'⟩ := not_marked (by decide) caret
    rw [readNamed?, readNamed?]
    · obtain ⟨unended, unended'⟩ | ⟨rest, suffix, same, here, there⟩ := name_append chars
      · exact .inl ⟨by simp only, by simp only⟩
      · rw [same, there, here]
        cases namedRanges? (String.ofList (chars.takeWhile (· != ':'))) with
        | none => exact .inl ⟨rfl, rfl⟩
        | some ranges => exact .inr ⟨_, rest, suffix, rfl, rfl⟩
    · exact plain'
    · exact plain

/-- Whether there is a mark does not depend on a closing. -/
theorem markOf?_cases (char : Char) (chars : List Char) :
    (read?.markOf? (char :: chars) = none ∧ read?.markOf? (char :: (chars ++ closing)) = none)
      ∨ ∃ operation rest, rest <:+ chars
        ∧ read?.markOf? (char :: chars) = some (operation, rest)
        ∧ read?.markOf? (char :: (chars ++ closing)) = some (operation, rest ++ closing) := by
  cases chars with
  | nil =>
      refine .inl ⟨rfl, ?_⟩
      by_cases same : char = ')'
      · subst same
        rfl
      · exact if_neg same
  | cons second rest =>
      simp only [List.cons_append, read?.markOf?]
      split
      · cases SetOperation.ofMark? char with
        | none => exact .inl ⟨rfl, rfl⟩
        | some operation => exact .inr ⟨operation, rest, List.suffix_cons second rest, rfl, rfl⟩
      · exact .inl ⟨rfl, rfl⟩

/-- A dash at the start of a class stands for itself. -/
def dash? (char : Char) : Option Nested := if char = '-' then some (.flat (.single '-')) else none

theorem takes_dashes (flags : Flags) : Takes flags dash? (takeDashes flags) where
  stopped chars := by rw [takeDashes]; nofun
  ended fuel := by rw [takeDashes]; nofun
  further fuel char rest := by
    by_cases same : char = '-'
    · subst same
      rfl
    · rw [takeDashes, dash?, if_neg same]
      exact fun _ _ _ => cons_ne same rest _

/-- The start of a class once the caret and the dashes in front have been taken. -/
def opened (negated : Bool) : List Nested × List Char → OpenBracket × List Char
  | ([], ']' :: rest) => (⟨negated, none, [.flat (.single ']')]⟩, rest)
  | (dashes, rest) => (⟨negated, none, dashes⟩, rest)

theorem start_eq (flags : Flags) (chars : List Char) :
    start flags chars = match flags.skip chars with
      | '^' :: rest => opened true (takeDashes flags (flags.skip rest).length (flags.skip rest))
      | front => opened false (takeDashes flags front.length front) := by
  rw [start]
  generalize flags.skip chars = front
  by_cases caret : ∃ rest, front = '^' :: rest
  · obtain ⟨rest, rfl⟩ := caret
    rfl
  · have other (rest : List Char) : front ≠ '^' :: rest := fun same => caret ⟨rest, same⟩
    simp only
    rfl

theorem localAt_opened (negated : Bool) (dashes : List Nested) (chars : List Char) :
    LocalAt never chars (some (opened negated (dashes, chars ++ closing)))
      (some (opened negated (dashes, chars))) := by
  by_cases bracket : ∃ rest, chars = ']' :: rest
  · obtain ⟨rest, rfl⟩ := bracket
    cases dashes with
    | nil => exact (LocalAt.some _).mono (List.suffix_cons _ rest)
    | cons dash dashes => exact .some _
  · obtain ⟨other, other'⟩ := not_marked (by decide) bracket
    rw [opened, opened]
    · exact .some _
    · exact fun rest _ => other rest
    · exact fun rest _ => other' rest

theorem local_dashed (flags : Flags) (negated : Bool) :
    Local never fun chars => some (opened negated (takeDashes flags chars.length chars)) := by
  intro chars
  have taken := (takes_dashes flags).local rfl chars
  dsimp only at taken ⊢
  generalize takeDashes flags (chars ++ closing).length (chars ++ closing) = longer at taken ⊢
  generalize takeDashes flags chars.length chars = shorter at taken ⊢
  apply taken.onward
  exact localAt_opened negated

theorem local_start (flags : Flags) : Local never fun chars => some (start flags chars) := by
  refine .of_peek flags (fun chars ended value rest found => ?_) fun chars front here there => ?_
  · rw [start_eq, ended] at found
    cases found
    exact List.suffix_rfl
  · simp only [start_eq, here, there]
    by_cases caret : ∃ rest, front = '^' :: rest
    · obtain ⟨rest, rfl⟩ := caret
      exact ((local_dashed flags true).skip flags rest).mono (List.suffix_cons _ rest)
    · obtain ⟨other, other'⟩ := not_marked (by decide) caret
      simp only
      exact local_dashed flags false front

/-- What comes next in a class. -/
inductive Piece where
  | ending
  | item (characters : CharClass)
  | operation (operation : SetOperation)
  /-- The start of a class within the class. -/
  | nested (bracket : OpenBracket)

/-- Reads what comes next, where there is nothing to pass over. -/
def piece? (flags : Flags) : List Char → Option (Piece × List Char)
  | [] => none
  | ']' :: rest => some (.ending, rest)
  | '[' :: rest =>
      let named := match rest with
        | ':' :: name => readNamed? flags name
        | _ => none
      match named with
      | some (characters, rest) => some (.item characters, rest)
      | none => some (.nested (start flags rest).1, (start flags rest).2)
  | chars =>
      match read?.markOf? chars with
      | some (operation, rest) => some (.operation operation, rest)
      | none => (readRange flags chars).map fun (characters, rest) => (.item characters, rest)

/-- Reads on behind a piece, in so many rounds. -/
def follow (flags : Flags) (fuel : Nat) (bracket : OpenBracket) :
    Piece × List Char → Option (Nested × List Char)
  | (.ending, rest) => (bracket.close? flags).map (·, rest)
  | (.item characters, rest) => read? flags fuel (bracket.push (.flat characters)) rest
  | (.operation operation, rest) =>
      read? flags fuel ⟨bracket.negated, some (bracket.combined flags, operation), []⟩ rest
  | (.nested inner, rest) =>
      (read? flags fuel inner rest).bind fun found =>
        read? flags fuel (bracket.push found.1) found.2

theorem read?_succ (flags : Flags) (fuel : Nat) (bracket : OpenBracket) (chars : List Char) :
    read? flags (fuel + 1) bracket chars
      = (piece? flags (flags.skip chars)).bind (follow flags fuel bracket) := by
  rw [read?]
  cases flags.skip chars with
  | nil => rfl
  | cons char rest =>
      by_cases closes : char = ']'
      · subst closes
        rfl
      by_cases opens : char = '['
      · subst opens
        by_cases colon : ∃ name, rest = ':' :: name
        · obtain ⟨name, rfl⟩ := colon
          simp only [piece?]
          cases readNamed? flags name with
          | some found => rfl
          | none =>
              simp only [Option.bind_some, follow]
              cases read? flags fuel (start flags (':' :: name)).1
                (start flags (':' :: name)).2 <;> rfl
        · have unnamed (name : List Char) : rest ≠ ':' :: name := fun same => colon ⟨name, same⟩
          simp only [piece?, Option.bind_some, follow]
          cases read? flags fuel (start flags rest).1 (start flags rest).2 <;> rfl
      · have unclosed := cons_ne closes rest
        have unopened := cons_ne opens rest
        simp only [piece?]
        cases read?.markOf? (char :: rest) with
        | some found => rfl
        | none =>
          cases readRange flags (char :: rest) with
          | some found => rfl
          | none => rfl

/-- An item behind which the text ends. -/
def unended (piece : Piece) (kept : List Char) : Prop :=
  (∃ characters, piece = .item characters) ∧ kept = []

theorem localAt_piece? (flags : Flags) (char : Char) (rest : List Char) :
    LocalAt unended rest (piece? flags (char :: (rest ++ closing)))
      (piece? flags (char :: rest)) := by
  by_cases closes : char = ']'
  · subst closes
    exact .some _
  by_cases opens : char = '['
  · subst opens
    have nested : LocalAt unended rest
        (some (.nested (start flags (rest ++ closing)).1, (start flags (rest ++ closing)).2))
        (some (.nested (start flags rest).1, (start flags rest).2)) :=
      (local_start flags rest).map Piece.nested fun _ _ => False.elim
    by_cases colon : ∃ name, rest = ':' :: name
    · obtain ⟨name, rfl⟩ := colon
      obtain ⟨short, long⟩ | ⟨characters, rest, suffix, short, long⟩ := readNamed?_cases flags name
      · simp only [piece?, List.cons_append, short, long]
        exact nested
      · simp only [piece?, List.cons_append, short, long]
        exact (LocalAt.some _).mono (suffix.trans (List.suffix_cons _ name))
    · obtain ⟨unnamed, unnamed'⟩ := not_marked (by decide) colon
      simp only [piece?]
      exact nested
  · have unclosed := cons_ne closes rest
    have unopened := cons_ne opens rest
    have unclosed' := cons_ne closes (rest ++ closing)
    have unopened' := cons_ne opens (rest ++ closing)
    obtain ⟨short, long⟩ | ⟨operation, rest, suffix, short, long⟩ := markOf?_cases char rest
    · simp only [piece?, short, long]
      exact (localAt_readRange flags char rest).map Piece.item fun value _ ended =>
        ⟨⟨value, rfl⟩, ended⟩
    · simp only [piece?, short, long]
      exact (LocalAt.some _).mono suffix

theorem localAt_follow {flags : Flags} {fuel : Nat}
    (ih : ∀ bracket, Local never (read? flags fuel bracket)) (bracket : OpenBracket) (piece : Piece) (rest : List Char) :
    LocalAt never rest (follow flags fuel bracket (piece, rest ++ closing))
      (follow flags fuel bracket (piece, rest)) := by
  cases piece with
  | ending => exact .ofOption _
  | item characters => exact ih _ rest
  | operation operation => exact ih _ rest
  | nested inner => exact (ih inner rest).andThen fun _ rest => ih _ rest

theorem read?_of_skip_nil {flags : Flags} {chars : List Char} (ended : flags.skip chars = [])
    (fuel : Nat) (bracket : OpenBracket) : read? flags fuel bracket chars = none := by
  cases fuel with
  | zero => rfl
  | succ fuel => rw [read?, ended]

theorem local_read? (flags : Flags) (fuel : Nat) (bracket : OpenBracket) :
    Local never (read? flags fuel bracket) := by
  induction fuel generalizing bracket with
  | zero => exact fun _ => .none
  | succ fuel ih =>
      refine .of_skip flags (fun chars ended => read?_of_skip_nil ended ..)
        fun chars char rest here there => ?_
      rw [read?_succ, read?_succ, here, there]
      refine (localAt_piece? flags char rest).bind (localAt_follow ih bracket) ?_
      rintro _ front nested kept ⟨⟨characters, rfl⟩, rfl⟩ found
      have impossible := (ih _ []).eq_some found
      rw [read?_of_skip_nil (skip_nil flags)] at impossible
      cases impossible

theorem piece?_shorter {flags : Flags} {chars rest : List Char} {piece : Piece}
    (found : piece? flags chars = some (piece, rest)) : rest.length < chars.length := by
  cases chars with
  | nil => cases found
  | cons char behind =>
      exact Nat.lt_succ_of_le ((localAt_piece? flags char behind).leaves found).length_le

theorem read?_settled {flags : Flags} {fuel : Nat} {bracket : OpenBracket} {chars : List Char}
    {result : Nested × List Char} (found : read? flags fuel bracket chars = some result)
    {enough : Nat} (long : chars.length < enough) :
    read? flags enough bracket chars = some result := by
  induction fuel generalizing bracket chars result enough with
  | zero => cases found
  | succ fuel ih =>
      obtain ⟨enough, rfl⟩ := Nat.exists_eq_add_of_le' (Nat.succ_le_of_lt (Nat.zero_lt_of_lt long))
      rw [read?_succ] at found ⊢
      obtain ⟨⟨piece, rest⟩, here, there⟩ := Option.bind_eq_some_iff.mp found
      have skipped := (skip_suffix flags chars).length_le
      have shorter := piece?_shorter here
      rw [here, Option.bind_some]
      cases piece with
      | ending => exact there
      | item characters => exact ih there (by omega)
      | operation operation => exact ih there (by omega)
      | nested inner =>
          obtain ⟨⟨nested, behind⟩, inside, after⟩ := Option.bind_eq_some_iff.mp there
          have left := ((local_read? flags fuel inner rest).leaves inside).length_le
          exact Option.bind_eq_some_iff.mpr
            ⟨_, ih inside (by omega), ih after (Nat.lt_of_le_of_lt left (by omega))⟩

/-- A class behind its opening bracket. -/
theorem local_class (flags : Flags) : Local never fun chars =>
    read? flags ((start flags chars).2.length + 1) (start flags chars).1 (start flags chars).2 := by
  intro chars
  have begun := local_start flags chars
  dsimp only at begun ⊢
  generalize start flags (chars ++ closing) = longer at begun ⊢
  generalize start flags chars = shorter at begun ⊢
  apply begun.onward
  intro bracket rest
  exact Local.of_rounds (fun fuel => local_read? flags fuel bracket) read?_settled rest

end Bracket

/-! ## Repetitions -/

/-- A digit is taken as it is. -/
def digit? (char : Char) : Option Char := if Text.isDigit char then some char else none

theorem takes_decimal (flags : Flags) : Takes flags digit? (takeDecimal flags) where
  stopped chars := rfl
  ended fuel := by cases fuel <;> rfl
  further fuel char rest := by
    rw [takeDecimal, digit?]
    split_ifs <;> rfl

theorem dropWhile_append (chars : List Char) :
    (chars ++ closing).dropWhile Text.isBlank = chars.dropWhile Text.isBlank ++ closing := by
  rw [List.dropWhile_append]
  split
  case isTrue empty =>
    rw [List.isEmpty_iff.mp empty]
    decide
  case isFalse => rfl

theorem local_readCount (flags : Flags) : Local never (readCount flags) := by
  intro chars
  rw [readCount, readCount, dropWhile_append]
  refine LocalAt.mono ?_ (List.dropWhile_suffix Text.isBlank)
  have taken := (takes_decimal flags).local rfl (chars.dropWhile Text.isBlank)
  generalize chars.dropWhile Text.isBlank = front at taken ⊢
  dsimp only at taken ⊢
  generalize takeDecimal flags (front ++ closing).length (front ++ closing) = longer at taken ⊢
  generalize takeDecimal flags front.length front = shorter at taken ⊢
  apply taken.onward
  intro digits rest
  have skipped {count : Option Nat} : LocalAt never rest
      (some (count, flags.skip ((rest ++ closing).dropWhile Text.isBlank)))
      (some (count, flags.skip (rest.dropWhile Text.isBlank))) := by
    rw [dropWhile_append]
    exact (LocalAt.skipped flags count _).mono (List.dropWhile_suffix Text.isBlank)
  dsimp only
  split
  · exact skipped
  · split
    · exact skipped
    · exact .none

theorem readCount_nil (flags : Flags) : readCount flags [] = some (none, []) := by
  rw [readCount, List.dropWhile_nil, (takes_decimal flags).ended]
  simp [skip_nil]

/-- The bounds of a repetition, in front of the brace that closes them. -/
def boundsEnd (flags : Flags) (least greatest : Nat) :
    List Char → Option ((Nat × Option Nat) × List Char)
  | '\x7d' :: rest =>
      if least ≤ greatest then some ((least, some greatest), flags.skip rest) else none
  | _ => none

/-- Reads the upper bound of a repetition, if there is one, where there is nothing to pass over. -/
def boundsUpper (flags : Flags) (least : Nat) :
    List Char → Option ((Nat × Option Nat) × List Char)
  | '\x7d' :: rest => some ((least, none), flags.skip rest)
  | rest => (readCount flags rest).bind fun found =>
      found.1.bind fun greatest => boundsEnd flags least greatest found.2

/-- Reads on behind the lower bound of a repetition. -/
def boundsRest (flags : Flags) (least : Nat) :
    List Char → Option ((Nat × Option Nat) × List Char)
  | '\x7d' :: rest => some ((least, some least), flags.skip rest)
  | ',' :: rest => boundsUpper flags least (flags.skip rest)
  | _ => none

theorem readBounds_eq (flags : Flags) (chars : List Char) :
    readBounds flags chars = (readCount flags (flags.skip chars)).bind fun found =>
      found.1.bind fun least => boundsRest flags least found.2 := by
  rw [readBounds]
  refine congrArg (Option.bind (readCount flags (flags.skip chars)))
    (funext fun (least?, rest) => congrArg (Option.bind least?) (funext fun least => ?_))
  unfold boundsRest boundsUpper boundsEnd
  rfl

/-- Behind what may be missing it is read on locally. -/
theorem LocalAt.ofCount {α : Type} {next : Nat → List Char → Option (α × List Char)}
    (later : ∀ count, Local never (next count)) (count? : Option Nat) (rest : List Char) :
    LocalAt never rest (count?.bind fun count => next count (rest ++ closing))
      (count?.bind fun count => next count rest) := by
  cases count? with
  | none => exact .none
  | some count => exact later count rest

theorem local_boundsEnd (flags : Flags) (least greatest : Nat) :
    Local never (boundsEnd flags least greatest) := by
  intro chars
  by_cases closes : ∃ rest, chars = '\x7d' :: rest
  · obtain ⟨rest, rfl⟩ := closes
    rw [List.cons_append, boundsEnd, boundsEnd]
    split
    · exact (LocalAt.skipped flags _ rest).mono (List.suffix_cons _ rest)
    · exact .none
  · obtain ⟨other, other'⟩ := not_marked (by decide) closes
    simp only [boundsEnd]
    exact .none

theorem local_boundsUpper (flags : Flags) (least : Nat) :
    Local never (boundsUpper flags least) := by
  intro chars
  by_cases closes : ∃ rest, chars = '\x7d' :: rest
  · obtain ⟨rest, rfl⟩ := closes
    exact (LocalAt.skipped flags _ rest).mono (List.suffix_cons _ rest)
  · obtain ⟨other, other'⟩ := not_marked (by decide) closes
    simp only [boundsUpper]
    exact (local_readCount flags chars).andThen fun greatest? rest =>
      .ofCount (local_boundsEnd flags least) greatest? rest

theorem local_boundsRest (flags : Flags) (least : Nat) :
    Local never (boundsRest flags least) := by
  intro chars
  by_cases closes : ∃ rest, chars = '\x7d' :: rest
  · obtain ⟨rest, rfl⟩ := closes
    exact (LocalAt.skipped flags _ rest).mono (List.suffix_cons _ rest)
  by_cases comma : ∃ rest, chars = ',' :: rest
  · obtain ⟨rest, rfl⟩ := comma
    exact ((local_boundsUpper flags least).skip flags rest).mono (List.suffix_cons _ rest)
  · obtain ⟨other, other'⟩ := not_marked (by decide) closes
    obtain ⟨plain, plain'⟩ := not_marked (by decide) comma
    simp only [boundsRest]
    exact .none

theorem local_readBounds (flags : Flags) : Local never (readBounds flags) := by
  intro chars
  rw [readBounds_eq, readBounds_eq]
  exact ((local_readCount flags).skip flags chars).andThen fun least? rest =>
    .ofCount (local_boundsRest flags) least? rest

/-- No bounds follow a brace in front of which only blanks and comments stand. -/
theorem readBounds_of_blank {flags : Flags} {chars : List Char} (blank : flags.skip chars = []) :
    readBounds flags (chars ++ closing) = none := by
  have uncounted : readCount flags closing = some (none, flags.skip closing) := by
    rw [readCount]
    rfl
  rw [readBounds]
  obtain goes | ⟨_, nothing⟩ := skip_append flags chars
  · rw [goes, blank, List.nil_append, uncounted]
    rfl
  · rw [nothing, readCount_nil]
    rfl

theorem skipLazy_append (chars : List Char) :
    skipLazy (chars ++ closing) = skipLazy chars ++ closing := by
  by_cases marked : ∃ rest, chars = '?' :: rest
  · obtain ⟨rest, rfl⟩ := marked
    rfl
  · obtain ⟨other, other'⟩ := not_marked (by decide) marked
    rw [skipLazy, skipLazy]
    · exact other
    · exact other'

theorem skipLazy_suffix (chars : List Char) : skipLazy chars <:+ chars := by
  rw [skipLazy.eq_def]
  split
  · exact List.suffix_cons _ _
  · exact List.suffix_rfl

theorem LocalAt.skippedLazy {α : Type} {excuse : α → List Char → Prop} (value : α)
    (chars : List Char) :
    LocalAt excuse chars (.some (value, skipLazy (chars ++ closing)))
      (.some (value, skipLazy chars)) := by
  rw [skipLazy_append]
  exact (LocalAt.some value).mono (skipLazy_suffix chars)

/-! ## Groups -/

theorem local_readName (names : List String) : Local never (readName names) := by
  intro chars
  simp only [readName]
  obtain ⟨ended, ended'⟩ | ⟨behind, suffix, same, here, there⟩ :=
    drop_append (by decide : '>' ∉ closing) chars
  · rw [ended, ended']
    cases (chars ++ closing).takeWhile (· != '>') <;> cases chars.takeWhile (· != '>') <;>
      exact .none
  · rw [same, here, there]
    cases chars.takeWhile (· != '>') with
    | nil => exact .none
    | cons first others =>
        dsimp only
        split
        · exact (LocalAt.some _).mono suffix
        · exact .none

theorem localAt_flags (flags : Flags) (seen chars : List Char) : LocalAt never chars
    ((flags.read? seen (chars ++ closing)).map paired) ((flags.read? seen chars).map paired) := by
  induction chars generalizing flags seen with
  | nil =>
      refine .of_leaves nofun fun {value kept} found => ?_
      simp [closing, Flags.read?, paired] at found
      have short := congrArg List.length found.1.2
      simp at short
  | cons char rest ih =>
      refine LocalAt.mono ?_ (List.suffix_cons char rest)
      by_cases dash : char = '-'
      · subst dash
        simp only [List.cons_append, Flags.read?]
        split
        · exact .none
        · exact ih flags _
      · simp only [List.cons_append, Flags.read?]
        split
        · split
          · exact .none
          · exact .some (flags, char)
        · split
          · exact .none
          · split
            · exact ih _ _
            · exact .none

/-- What a parenthesis starts that flags and a mark follow. -/
def flagged (names : List String) (inner : Flags × Char) : Opening :=
  if inner.2 = ')' then .setting inner.1 else .group inner.1 names

theorem local_named (flags : Flags) (names : List String) :
    Local never (readOpening.named flags names) :=
  fun chars => (local_readName names chars).map
    (fun name => Opening.group flags (name :: names)) fun _ _ => False.elim

theorem readOpening_of_plain {flags : Flags} {names : List String} {chars : List Char}
    (plain : ∀ rest, flags.skip chars ≠ '?' :: rest) :
    readOpening flags names chars = some (.group flags names, flags.skip chars) := by
  rw [readOpening]
  split <;> first | rfl | exact absurd ‹_› (plain _)

theorem readOpening_of_flags {flags : Flags} {names : List String} {chars rest : List Char}
    (here : flags.skip chars = '?' :: rest) (notEquals : ∀ more, rest ≠ '=' :: more)
    (notBang : ∀ more, rest ≠ '!' :: more) (notAngle : ∀ more, rest ≠ '<' :: more)
    (notNamed : ∀ more, rest ≠ 'P' :: '<' :: more) :
    readOpening flags names chars
      = ((flags.read? [] rest).map paired).map
          fun found => (flagged names found.1, found.2) := by
  rw [readOpening, here]
  split
  case h_7 behind _ _ _ _ _ _ same =>
    cases same
    match flags.read? [] rest with
    | none => rfl
    | some (inner, mark, rest) =>
        by_cases closes : mark = ')'
        · subst closes
          rfl
        · simp [flagged, closes, paired]
  all_goals simp_all

theorem local_readOpening (flags : Flags) (names : List String) :
    Local never (readOpening flags names) := by
  refine .of_peek flags (fun chars ended value rest found => ?_) fun chars front here there => ?_
  · rw [readOpening, ended] at found
    cases found
    exact List.suffix_rfl
  by_cases asks : ∃ rest, front = '?' :: rest
  · obtain ⟨rest, rfl⟩ := asks
    refine LocalAt.mono ?_ (List.suffix_cons _ rest)
    by_cases equals : ∃ more, rest = '=' :: more
    · obtain ⟨more, rfl⟩ := equals
      rw [readOpening, readOpening, here, there]
      exact .none
    by_cases bang : ∃ more, rest = '!' :: more
    · obtain ⟨more, rfl⟩ := bang
      rw [readOpening, readOpening, here, there]
      exact .none
    by_cases angle : ∃ more, rest = '<' :: more
    · obtain ⟨more, rfl⟩ := angle
      refine LocalAt.mono ?_ (List.suffix_cons _ more)
      rw [readOpening, readOpening, here, there]
      by_cases equals : ∃ behind, more = '=' :: behind
      · obtain ⟨behind, rfl⟩ := equals
        exact .none
      by_cases bang : ∃ behind, more = '!' :: behind
      · obtain ⟨behind, rfl⟩ := bang
        exact .none
      obtain ⟨notEquals, notEquals'⟩ := not_marked (by decide) equals
      obtain ⟨notBang, notBang'⟩ := not_marked (by decide) bang
      simp only [List.cons_append]
      exact local_named flags names more
    by_cases letter : ∃ more, rest = 'P' :: '<' :: more
    · obtain ⟨more, rfl⟩ := letter
      rw [readOpening, readOpening, here, there]
      exact (local_named flags names more).mono (List.suffix_append ['P', '<'] more)
    · obtain ⟨notEquals, notEquals'⟩ := not_marked (by decide) equals
      obtain ⟨notBang, notBang'⟩ := not_marked (by decide) bang
      obtain ⟨notAngle, notAngle'⟩ := not_marked (by decide) angle
      have notNamed (more : List Char) : rest ≠ 'P' :: '<' :: more :=
        fun same => letter ⟨more, same⟩
      have notNamed' (more : List Char) : rest ++ closing ≠ 'P' :: '<' :: more := by
        intro same
        rcases rest with _ | ⟨first, _ | ⟨second, rest⟩⟩
        · cases same
        · cases same
        · cases same
          exact letter ⟨rest, rfl⟩
      rw [readOpening_of_flags here notEquals notBang notAngle notNamed,
        readOpening_of_flags there notEquals' notBang' notAngle' notNamed']
      exact (localAt_flags flags [] rest).map (flagged names) fun _ _ => False.elim
  · obtain ⟨plain, plain'⟩ := not_marked (by decide) asks
    rw [← here] at plain
    rw [← there] at plain'
    rw [readOpening_of_plain plain, readOpening_of_plain plain', here, there]
    exact .some _

/-! ## Simple items -/

/-- A brace is left that nothing but blanks and comments follow. -/
def braceLeft {α : Type} (flags : Flags) (_ : α) (kept : List Char) : Prop :=
  ∃ behind, kept = '\x7b' :: behind ∧ flags.skip behind = []

theorem localAt_readSimple (flags : Flags) (char : Char) (rest : List Char) :
    LocalAt (braceLeft flags) rest (readSimple flags (char :: (rest ++ closing)))
      (readSimple flags (char :: rest)) := by
  by_cases escapes : char = '\\'
  · subst escapes
    exact (Escaped.local_read? flags rest).map (escapedPattern flags) fun _ _ => And.right
  by_cases dot : char = '.'
  · subst dot
    simp only [readSimple]
    split
    · exact .none
    · exact .some _
  by_cases caret : char = '^'
  · subst caret
    exact .some _
  by_cases dollar : char = '$'
  · subst dollar
    exact .some _
  · simp only [readSimple]
    exact .some _

end TimeSeries.Pattern
