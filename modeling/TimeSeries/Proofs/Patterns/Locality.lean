import Mathlib.Data.List.Basic
import Mathlib.Data.List.TakeWhile
import TimeSeries.Pattern.Flags

/-!
# Reading in front of a closing

To compare a text with a pattern as a whole, the pattern is read with a closing parenthesis and a
dollar sign behind it (`Pattern.closing`).  A reader is local if it leaves an end of the text, and
if what it reads in front of a closing that it leaves alone it also reads where the text ends
(`Pattern.Local`).  Readers that are put together from local readers are local.

Readers look ahead, and a closing can be what they see there: behind it nothing is left to see.  A
reader can have an excuse for not being local, which says what it has read and what it leaves.

A reader that takes value after value in so many rounds (`Pattern.Takes`) is local if there are as
many rounds as characters.
-/

set_option autoImplicit false

namespace TimeSeries.Pattern

/-! ## Closings -/

/-- What is put behind a pattern that must describe a text as a whole. -/
def closing : List Char := [')', '$']

section

variable {chars kept rest : List Char}

theorem not_suffix_nil : ¬kept ++ closing <:+ [] := by simp [closing]

theorem not_suffix_dollar : ¬kept ++ closing <:+ ['$'] := by
  intro suffix
  have short := suffix.length_le
  simp [closing] at short

theorem cons_ne {char mark : Char} (other : char ≠ mark) (rest behind : List Char) :
    char :: rest ≠ mark :: behind := fun same => other (List.cons.inj same).1

/-- A closing brings no other mark to the front of a text. -/
theorem not_marked {mark : Char} (other : mark ≠ ')') (unmarked : ¬∃ rest, chars = mark :: rest) :
    (∀ rest, chars ≠ mark :: rest) ∧ ∀ rest, chars ++ closing ≠ mark :: rest := by
  refine ⟨fun rest same => unmarked ⟨rest, same⟩, fun rest same => ?_⟩
  cases chars with
  | nil =>
      cases same
      exact other rfl
  | cons char behind =>
      cases same
      exact unmarked ⟨behind, rfl⟩

/-- A mark that is not in the closing is looked for in the text in front of the closing only. -/
theorem drop_append {mark : Char} (foreign : mark ∉ closing) (chars : List Char) :
    (chars.drop (chars.takeWhile (· != mark)).length = []
        ∧ (chars ++ closing).drop ((chars ++ closing).takeWhile (· != mark)).length = [])
      ∨ ∃ rest, rest <:+ chars
        ∧ (chars ++ closing).takeWhile (· != mark) = chars.takeWhile (· != mark)
        ∧ chars.drop (chars.takeWhile (· != mark)).length = mark :: rest
        ∧ (chars ++ closing).drop (chars.takeWhile (· != mark)).length
          = mark :: (rest ++ closing) := by
  induction chars with
  | nil =>
      have all : closing.takeWhile (· != mark) = closing :=
        List.takeWhile_eq_self_iff.mpr fun char member => by
          rw [bne_iff_ne]
          rintro rfl
          exact foreign member
      exact .inl ⟨rfl, by rw [List.nil_append, all, List.drop_length]⟩
  | cons char rest ih =>
      by_cases here : char = mark
      · subst here
        exact .inr ⟨rest, List.suffix_cons char rest, by simp, by simp, by simp⟩
      · refine ih.imp (fun ended => by simpa [here] using ended) ?_
        rintro ⟨behind, suffix, found⟩
        exact ⟨behind, suffix.trans (List.suffix_cons char rest), by simpa [here] using found⟩

/-- What has the closing in it is something in front of the closing. -/
theorem exists_front (suffix : kept ++ closing <:+ rest) : ∃ front, rest = front ++ closing := by
  obtain ⟨before, rfl⟩ := suffix
  exact ⟨before ++ kept, (List.append_assoc ..).symm⟩

end

/-! ## Local readers -/

/-- Of two results, the longer one of the text with a closing behind it: what is left is an end of
the text, and what was read in front of the closing was also read without it, but for excuses. -/
structure LocalAt {α : Type} (excuse : α → List Char → Prop) (chars : List Char)
    (longer shorter : Option (α × List Char)) : Prop where
  leaves : ∀ {value rest}, shorter = some (value, rest) → rest <:+ chars
  within : ∀ {value kept}, longer = some (value, kept ++ closing) →
    shorter = some (value, kept) ∨ excuse value kept

/-- What the reader reads in front of a closing it also reads without it, but for excuses. -/
def Local {α : Type} (excuse : α → List Char → Prop)
    (read : List Char → Option (α × List Char)) : Prop :=
  ∀ chars, LocalAt excuse chars (read (chars ++ closing)) (read chars)

/-- No excuse. -/
def never {α : Type} (_ : α) (_ : List Char) : Prop := False

/-- Two values that were read, with the rest of the text. -/
def paired {α β : Type} (found : α × β × List Char) : (α × β) × List Char :=
  ((found.1, found.2.1), found.2.2)

section

variable {α β : Type} {excuse : α → List Char → Prop} {other : β → List Char → Prop}
  {chars : List Char} {longer shorter : Option (α × List Char)}
  {read : List Char → Option (α × List Char)}

namespace LocalAt

theorem none : LocalAt excuse chars none none := ⟨nofun, nofun⟩

theorem some (value : α) :
    LocalAt excuse chars (some (value, chars ++ closing)) (some (value, chars)) where
  leaves found := by
    cases found
    exact List.suffix_rfl
  within found := by
    simp only [Option.some.injEq, Prod.mk.injEq, List.append_cancel_right_eq] at found
    exact .inl (by rw [found.1, found.2])

/-- A result that has the closing in no case needs no counterpart. -/
theorem of_leaves (leaves : ∀ {value rest}, shorter = .some (value, rest) → rest <:+ chars)
    (without : ∀ {value kept}, longer ≠ .some (value, kept ++ closing)) :
    LocalAt excuse chars longer shorter :=
  ⟨leaves, fun found => absurd found without⟩

theorem mono {rest : List Char} (inner : LocalAt excuse rest longer shorter)
    (suffix : rest <:+ chars) : LocalAt excuse chars longer shorter :=
  ⟨fun found => (inner.leaves found).trans suffix, inner.within⟩

theorem excused (plain : LocalAt never chars longer shorter) :
    LocalAt excuse chars longer shorter :=
  ⟨plain.leaves, fun found => .inl ((plain.within found).resolve_right id)⟩

theorem eq_some (plain : LocalAt never chars longer shorter) {value : α} {kept : List Char}
    (found : longer = .some (value, kept ++ closing)) : shorter = .some (value, kept) :=
  (plain.within found).resolve_right id

/-- Reading on from what was read. -/
theorem bind {next : α × List Char → Option (β × List Char)}
    (first : LocalAt excuse chars longer shorter)
    (later : ∀ value rest, LocalAt other rest (next (value, rest ++ closing)) (next (value, rest)))
    (excuses : ∀ value front read kept, excuse value front →
      next (value, front ++ closing) = .some (read, kept ++ closing) → other read kept) :
    LocalAt other chars (longer.bind next) (shorter.bind next) where
  leaves found := by
    obtain ⟨⟨value, rest⟩, here, there⟩ := Option.bind_eq_some_iff.mp found
    exact ((later value rest).leaves there).trans (first.leaves here)
  within found := by
    obtain ⟨⟨value, rest⟩, here, there⟩ := Option.bind_eq_some_iff.mp found
    obtain ⟨front, rfl⟩ := exists_front ((later value rest).leaves there)
    obtain same | excused := first.within here
    · rw [same]
      exact (later value front).within there
    · exact .inr (excuses value front _ _ excused there)

/-- Reading on from what was read without an excuse. -/
theorem andThen {next : α × List Char → Option (β × List Char)}
    (first : LocalAt never chars longer shorter)
    (later : ∀ value rest,
      LocalAt other rest (next (value, rest ++ closing)) (next (value, rest))) :
    LocalAt other chars (longer.bind next) (shorter.bind next) :=
  first.bind later fun _ _ _ _ excused _ => excused.elim

/-- Reading on from what was taken, where something is always taken. -/
theorem onward {longer shorter : α × List Char} {next : α × List Char → Option (β × List Char)}
    (taken : LocalAt never chars (.some longer) (.some shorter))
    (later : ∀ value rest,
      LocalAt other rest (next (value, rest ++ closing)) (next (value, rest))) :
    LocalAt other chars (next longer) (next shorter) :=
  taken.andThen later

/-- Making something else of what was read. -/
theorem map (changed : α → β) (inner : LocalAt excuse chars longer shorter)
    (excuses : ∀ value kept, excuse value kept → other (changed value) kept) :
    LocalAt other chars (longer.map fun found => (changed found.1, found.2))
      (shorter.map fun found => (changed found.1, found.2)) where
  leaves found := by
    obtain ⟨⟨value, rest⟩, here, same⟩ := Option.map_eq_some_iff.mp found
    cases same
    exact inner.leaves here
  within found := by
    obtain ⟨⟨value, rest⟩, here, same⟩ := Option.map_eq_some_iff.mp found
    cases same
    obtain short | excused := inner.within here
    · exact .inl (by rw [short, Option.map_some])
    · exact .inr (excuses value _ excused)

/-- A value that may be missing, in front of the rest of the text. -/
theorem ofOption (value? : Option α) :
    LocalAt excuse chars (value?.map (·, chars ++ closing)) (value?.map (·, chars)) := by
  cases value? with
  | none => exact .none
  | some value => exact .some value

/-- Something made of a value that may be missing. -/
theorem ofBind (value? : Option β) (make : β → α) :
    LocalAt excuse chars (value?.bind fun value => .some (make value, chars ++ closing))
      (value?.bind fun value => .some (make value, chars)) := by
  cases value? with
  | none => exact .none
  | some value => exact .some _

end LocalAt

/-- A reader is local that takes a character and then reads on locally. -/
theorem Local.of_cons (nothing : read [] = .none)
    (taken : ∀ char rest, LocalAt excuse rest (read (char :: (rest ++ closing)))
      (read (char :: rest))) : Local excuse read := by
  intro chars
  cases chars with
  | nil =>
      refine .of_leaves (fun found => ?_) fun {value kept} found => ?_
      · rw [nothing] at found
        cases found
      · exact not_suffix_dollar ((taken ')' ['$']).leaves found)
  | cons char rest => exact (taken char rest).mono (List.suffix_cons char rest)

end

/-- A reader that needs no more rounds than there are characters is local if it is in any number of
rounds. -/
theorem Local.of_rounds {α : Type} {excuse : α → List Char → Prop}
    {read : Nat → List Char → Option (α × List Char)} (each : ∀ count, Local excuse (read count))
    (settled : ∀ {count chars result}, read count chars = some result →
      ∀ {enough}, chars.length < enough → read enough chars = some result) :
    Local excuse fun chars => read (chars.length + 1) chars := by
  intro chars
  refine ⟨(each _ chars).leaves, fun found => ?_⟩
  obtain same | excused := (each _ chars).within found
  · exact .inl (settled same (Nat.lt_succ_self _))
  · exact .inr excused

/-! ## Passing over blanks and comments -/

section

variable {α : Type} {excuse : α → List Char → Prop} {read : List Char → Option (α × List Char)}

theorem skipComments_suffix (inComment : Bool) (chars : List Char) :
    Flags.skipComments inComment chars <:+ chars := by
  induction chars generalizing inComment with
  | nil => exact List.suffix_rfl
  | cons char rest ih =>
      rw [Flags.skipComments]
      split_ifs
      · exact (ih _).trans (List.suffix_cons char rest)
      · exact (ih _).trans (List.suffix_cons char rest)
      · exact (ih _).trans (List.suffix_cons char rest)
      · exact List.suffix_rfl

theorem skip_nil (flags : Flags) : flags.skip [] = [] := by
  rw [Flags.skip, Flags.skipComments, ite_self]

theorem skip_suffix (flags : Flags) (chars : List Char) : flags.skip chars <:+ chars := by
  rw [Flags.skip]
  split
  · exact skipComments_suffix false chars
  · exact List.suffix_rfl

theorem skipComments_append (inComment : Bool) (chars : List Char) :
    Flags.skipComments inComment (chars ++ closing) = Flags.skipComments inComment chars ++ closing
      ∨ Flags.skipComments inComment chars = []
        ∧ Flags.skipComments inComment (chars ++ closing) = [] := by
  induction chars generalizing inComment with
  | nil => cases inComment <;> decide
  | cons char rest ih =>
      simp only [List.cons_append, Flags.skipComments]
      split_ifs
      · exact ih _
      · exact ih _
      · exact ih _
      · exact .inl rfl

/-- The closing stays where it is, unless a comment goes over it. -/
theorem skip_append (flags : Flags) (chars : List Char) :
    flags.skip (chars ++ closing) = flags.skip chars ++ closing
      ∨ flags.skip chars = [] ∧ flags.skip (chars ++ closing) = [] := by
  simp only [Flags.skip]
  split
  · exact skipComments_append false chars
  · exact .inl rfl

/-- A reader is local that looks behind blanks and comments and reads locally from there. -/
theorem Local.of_peek (flags : Flags)
    (ended : ∀ chars, flags.skip chars = [] →
      ∀ value rest, read chars = some (value, rest) → rest <:+ [])
    (ahead : ∀ chars front, flags.skip chars = front →
      flags.skip (chars ++ closing) = front ++ closing →
      LocalAt excuse front (read (chars ++ closing)) (read chars)) : Local excuse read := by
  intro chars
  obtain goes | ⟨nothing, nothing'⟩ := skip_append flags chars
  · exact (ahead chars _ rfl goes).mono (skip_suffix flags chars)
  · refine .of_leaves (fun {value rest} found => ?_) fun {value kept} found => ?_
    · exact (ended chars nothing value rest found).trans (List.nil_suffix)
    · exact not_suffix_nil (ended _ nothing' value _ found)

/-- A reader is local that passes over blanks and comments and then reads locally. -/
theorem Local.skip (flags : Flags) (inner : Local excuse read) :
    Local excuse fun chars => read (flags.skip chars) := by
  refine .of_peek flags (fun chars ended value rest found => ?_) fun chars front here there => ?_
  · rw [ended] at found
    exact (inner []).leaves found
  · simp only [here, there]
    exact inner front

theorem LocalAt.skipped (flags : Flags) (value : α) (chars : List Char) :
    LocalAt excuse chars (.some (value, flags.skip (chars ++ closing)))
      (.some (value, flags.skip chars)) :=
  have plain : Local excuse fun chars => .some (value, chars) := fun _ => .some value
  plain.skip flags chars

/-- A reader is local that passes over blanks and comments, takes a character and then reads on
locally. -/
theorem Local.of_skip (flags : Flags) (ended : ∀ chars, flags.skip chars = [] → read chars = none)
    (taken : ∀ chars char rest, flags.skip chars = char :: rest →
      flags.skip (chars ++ closing) = char :: (rest ++ closing) →
      LocalAt excuse rest (read (chars ++ closing)) (read chars)) : Local excuse read := by
  have cons {chars char rest} (here : flags.skip chars = char :: rest) :
      LocalAt excuse rest (read (chars ++ closing)) (read chars) := by
    refine taken chars char rest here ?_
    obtain goes | ⟨nothing, _⟩ := skip_append flags chars
    · rw [goes, here, List.cons_append]
    · rw [here] at nothing
      cases nothing
  refine .of_peek flags (fun chars nothing value rest found => ?_) fun chars front here there => ?_
  · rw [ended chars nothing] at found
    cases found
  · cases front with
    | nil =>
        refine .of_leaves (fun found => ?_) fun {value kept} found => ?_
        · rw [ended chars here] at found
          cases found
        · exact not_suffix_dollar ((cons there).leaves found)
    | cons char rest => exact (cons here).mono (List.suffix_cons char rest)

end

/-! ## Taking values as long as there are any -/

section

variable {α : Type} {flags : Flags} {value? : Char → Option α}
  {take : Nat → List Char → List α × List Char}

/-- In so many rounds, a value is taken from each character that has one, and blanks and comments
behind it are passed over. -/
structure Takes (flags : Flags) (value? : Char → Option α)
    (take : Nat → List Char → List α × List Char) : Prop where
  stopped : ∀ chars, take 0 chars = ([], chars)
  ended : ∀ fuel, take fuel [] = ([], [])
  further : ∀ fuel char rest, take (fuel + 1) (char :: rest) = match value? char with
    | some value =>
        (value :: (take fuel (flags.skip rest)).1, (take fuel (flags.skip rest)).2)
    | none => ([], char :: rest)

/-- Values are taken locally if there are rounds enough and a parenthesis has no value. -/
theorem Takes.localAt (takes : Takes flags value? take) (foreign : value? ')' = none)
    {chars : List Char} {many enough : Nat} (long : chars.length ≤ many)
    (short : chars.length ≤ enough) :
    LocalAt never chars (some (take many (chars ++ closing))) (some (take enough chars)) := by
  induction many generalizing chars enough with
  | zero =>
      obtain rfl := List.length_eq_zero_iff.mp (Nat.le_zero.mp long)
      rw [takes.stopped, takes.ended]
      exact .some []
  | succ many ih =>
      cases chars with
      | nil =>
          rw [List.nil_append, closing, takes.further, foreign, takes.ended]
          exact .some []
      | cons char rest =>
          obtain ⟨enough, rfl⟩ := Nat.exists_eq_add_of_le' (Nat.le_trans (Nat.succ_pos _) short)
          have shorter := (skip_suffix flags rest).length_le
          rw [List.length_cons] at long short
          have behind : LocalAt never rest (some (take many (flags.skip (rest ++ closing))))
              (some (take enough (flags.skip rest))) := by
            obtain goes | ⟨nothing, nothing'⟩ := skip_append flags rest
            · rw [goes]
              exact (ih (by omega) (by omega)).mono (skip_suffix flags rest)
            · rw [nothing, nothing', takes.ended, takes.ended]
              refine .of_leaves (fun found => ?_) fun {value kept} found => ?_
              · cases found
                exact List.nil_suffix
              · simp [closing] at found
          rw [List.cons_append, takes.further, takes.further]
          cases value? char with
          | none => exact .some []
          | some value =>
              refine LocalAt.mono ?_ (List.suffix_cons char rest)
              exact behind.map (value :: ·) fun _ _ => False.elim

theorem Takes.local (takes : Takes flags value? take) (foreign : value? ')' = none) :
    Local never fun chars => some (take chars.length chars) :=
  fun chars => takes.localAt foreign (by simp) (Nat.le_refl _)

end

end TimeSeries.Pattern
