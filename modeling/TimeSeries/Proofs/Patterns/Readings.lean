import TimeSeries.Proofs.Patterns.Meaning
import TimeSeries.Proofs.Patterns.Readers

/-!
# Readings of patterns

A pattern is read token by token: `readBranches` takes the next one (`token?`) and reads on behind
it (`follow`), until the group ends (`readBranches_of_token`, `readBranches_of_nil`,
`readBranches_of_close`).

Main statements:

* `local_readBranches`: what is read in front of a closing is also read where the text ends.  A word
  boundary in front of a brace is no exception any more, as the brace is read next and has no bounds.
* `readBranches_settled`: more rounds than there are characters are enough.
* `readBranches_ordered`: the bounds of the repetitions in a pattern that is read are in their order.
  It follows from what holds of the part of a group that has been read so far (`Orderly`).
-/

set_option autoImplicit false

namespace TimeSeries.Pattern

/-! ## Tokens -/

/-- What comes next in a pattern. -/
inductive Token where
  | bar
  /-- Flags for the rest of the group. -/
  | setting (flags : Flags)
  /-- The start of a group. -/
  | opening (flags : Flags) (names : List String)
  | item (part : Part)
  /-- A repetition of the last item. -/
  | repeated (least : Nat) (greatest : Option Nat)

/-- The token that a parenthesis starts. -/
def Token.ofOpening : Opening → Token
  | .setting flags => setting flags
  | .group flags names => opening flags names

/-- Reads what comes next, where there is nothing to pass over. -/
def token? (flags : Flags) (names : List String) : List Char → Option (Token × List Char)
  | [] => none
  | '|' :: rest => some (.bar, rest)
  | '(' :: rest =>
      (readOpening flags names rest).map fun found => (Token.ofOpening found.1, found.2)
  | '[' :: rest =>
      (Bracket.read? flags ((Bracket.start flags rest).2.length + 1) (Bracket.start flags rest).1
          (Bracket.start flags rest).2).map fun found =>
        (.item ⟨.one found.1.characters, found.1.depth⟩, found.2)
  | '?' :: rest => some (.repeated 0 (some 1), skipLazy rest)
  | '*' :: rest => some (.repeated 0 none, skipLazy rest)
  | '+' :: rest => some (.repeated 1 none, skipLazy rest)
  | '\x7b' :: rest =>
      (readBounds flags rest).map fun found =>
        (.repeated found.1.1 found.1.2, skipLazy found.2)
  | rest => (readSimple flags rest).map fun found => (.item ⟨found.1, 0⟩, found.2)

/-- What has been read up to the end of a group. -/
def finished (branches : List Part) (items : List Item) : Part :=
  Part.ofBranches (Item.inSequence items.reverse :: branches).reverse

/-- Reads on behind a group, in so many rounds. -/
def close (fuel : Nat) (flags : Flags) (branches : List Part) (items : List Item) :
    Part × List String × List Char → Option (Part × List String × List Char)
  | (part, names, ')' :: rest) =>
      readBranches fuel flags names branches (.part ⟨part.pattern, part.depth + 1⟩ :: items) rest
  | _ => none

/-- Reads on behind a token, in so many rounds. -/
def follow (fuel : Nat) (flags : Flags) (names : List String) (branches : List Part)
    (items : List Item) : Token × List Char → Option (Part × List String × List Char)
  | (.bar, rest) =>
      readBranches fuel flags names (Item.inSequence items.reverse :: branches) [] rest
  | (.setting inner, rest) => readBranches fuel inner names branches (.setting :: items) rest
  | (.opening inner names, rest) =>
      (readBranches fuel inner names [] [] rest).bind (close fuel flags branches items)
  | (.item part, rest) => readBranches fuel flags names branches (.part part :: items) rest
  | (.repeated least greatest, rest) =>
      (repeatLast least greatest items).bind fun items =>
        readBranches fuel flags names branches items rest

section

variable {fuel : Nat} {flags : Flags} {names : List String} {branches : List Part}
  {items : List Item} {chars : List Char}

theorem readBranches_of_nil (here : flags.skip chars = []) :
    readBranches (fuel + 1) flags names branches items chars
      = some (finished branches items, names, []) := by
  rw [readBranches, here]
  rfl

theorem readBranches_of_close {rest : List Char} (here : flags.skip chars = ')' :: rest) :
    readBranches (fuel + 1) flags names branches items chars
      = some (finished branches items, names, ')' :: rest) := by
  rw [readBranches, here]
  rfl

theorem readBranches_of_token {char : Char} {rest : List Char}
    (here : flags.skip chars = char :: rest) (goes : char ≠ ')') :
    readBranches (fuel + 1) flags names branches items chars
      = (token? flags names (char :: rest)).bind (follow fuel flags names branches items) := by
  rw [readBranches, here]
  by_cases bar : char = '|'
  · subst bar
    rfl
  by_cases opens : char = '('
  · subst opens
    simp only [token?]
    cases readOpening flags names rest with
    | none => rfl
    | some found =>
        match found with
        | (.setting inner, rest) => rfl
        | (.group inner names, rest) =>
            simp only [Option.map_some, Option.bind_some, Token.ofOpening, follow]
            cases readBranches fuel inner names [] [] rest with
            | none => rfl
            | some found =>
                obtain ⟨part, names, _ | ⟨char, rest⟩⟩ := found
                · rfl
                · by_cases closes : char = ')'
                  · subst closes
                    rfl
                  · simp [close, closes]
  by_cases bracket : char = '['
  · subst bracket
    simp only [token?]
    cases Bracket.read? flags ((Bracket.start flags rest).2.length + 1)
      (Bracket.start flags rest).1 (Bracket.start flags rest).2 <;> rfl
  by_cases ask : char = '?'
  · subst ask
    simp only [token?, Option.bind_some, follow]
    cases repeatLast 0 (some 1) items <;> rfl
  by_cases star : char = '*'
  · subst star
    simp only [token?, Option.bind_some, follow]
    cases repeatLast 0 none items <;> rfl
  by_cases plus : char = '+'
  · subst plus
    simp only [token?, Option.bind_some, follow]
    cases repeatLast 1 none items <;> rfl
  by_cases brace : char = '\x7b'
  · subst brace
    simp only [token?]
    cases readBounds flags rest with
    | none => rfl
    | some found =>
      simp only [Option.map_some, Option.bind_some, follow]
      cases repeatLast found.1.1 found.1.2 items <;> rfl
  · have noClose := cons_ne goes rest
    have noBar := cons_ne bar rest
    have noOpening := cons_ne opens rest
    have noBracket := cons_ne bracket rest
    have noAsk := cons_ne ask rest
    have noStar := cons_ne star rest
    have noPlus := cons_ne plus rest
    have noBrace := cons_ne brace rest
    simp only [token?]
    cases readSimple flags (char :: rest) <;> rfl

end

/-- An item is read, and a brace is left that nothing but blanks and comments follow. -/
def braced (flags : Flags) (token : Token) (kept : List Char) : Prop :=
  (∃ part, token = .item part) ∧ braceLeft flags token kept

theorem localAt_token? (flags : Flags) (names : List String) (char : Char) (rest : List Char) :
    LocalAt (braced flags) rest (token? flags names (char :: (rest ++ closing)))
      (token? flags names (char :: rest)) := by
  by_cases bar : char = '|'
  · subst bar
    exact .some _
  by_cases opens : char = '('
  · subst opens
    exact (local_readOpening flags names rest).map Token.ofOpening fun _ _ => False.elim
  by_cases bracket : char = '['
  · subst bracket
    exact (Bracket.local_class flags rest).map
      (fun nested => Token.item ⟨.one nested.characters, nested.depth⟩) fun _ _ => False.elim
  by_cases ask : char = '?'
  · subst ask
    exact .skippedLazy _ rest
  by_cases star : char = '*'
  · subst star
    exact .skippedLazy _ rest
  by_cases plus : char = '+'
  · subst plus
    exact .skippedLazy _ rest
  by_cases brace : char = '\x7b'
  · subst brace
    simp only [token?, Option.map_eq_bind]
    exact (local_readBounds flags rest).andThen fun _ rest => .skippedLazy _ rest
  · have noBar := cons_ne bar rest
    have noOpening := cons_ne opens rest
    have noBracket := cons_ne bracket rest
    have noAsk := cons_ne ask rest
    have noStar := cons_ne star rest
    have noPlus := cons_ne plus rest
    have noBrace := cons_ne brace rest
    have noBar' := cons_ne bar (rest ++ closing)
    have noOpening' := cons_ne opens (rest ++ closing)
    have noBracket' := cons_ne bracket (rest ++ closing)
    have noAsk' := cons_ne ask (rest ++ closing)
    have noStar' := cons_ne star (rest ++ closing)
    have noPlus' := cons_ne plus (rest ++ closing)
    have noBrace' := cons_ne brace (rest ++ closing)
    simp only [token?]
    exact (localAt_readSimple flags char rest).map (fun pattern => Token.item ⟨pattern, 0⟩)
      fun _ _ left => ⟨⟨_, rfl⟩, left⟩

theorem close_eq_some_iff {fuel : Nat} {flags : Flags} {branches : List Part} {items : List Item}
    {part : Part} {names : List String} {chars : List Char}
    {result : Part × List String × List Char} :
    close fuel flags branches items (part, names, chars) = some result
      ↔ ∃ rest, chars = ')' :: rest ∧ readBranches fuel flags names branches
          (.part ⟨part.pattern, part.depth + 1⟩ :: items) rest = some result := by
  constructor
  · intro found
    unfold close at found
    split at found
    case h_1 same =>
      cases same
      exact ⟨_, rfl, found⟩
    case h_2 => cases found
  · rintro ⟨rest, rfl, found⟩
    exact found

/-- A brace that is left so is no part of a pattern. -/
theorem readBranches_of_braceLeft {fuel : Nat} {flags : Flags} {names : List String}
    {branches : List Part} {items : List Item} {behind : List Char}
    (blank : flags.skip behind = []) :
    readBranches fuel flags names branches items ('\x7b' :: behind ++ closing) = none := by
  cases fuel with
  | zero => rfl
  | succ fuel =>
      have here : flags.skip ('\x7b' :: behind ++ closing) = '\x7b' :: (behind ++ closing) := by
        rw [Flags.skip]
        split <;> rfl
      rw [readBranches_of_token here (by decide)]
      simp only [token?]
      rw [readBounds_of_blank blank]
      rfl

theorem local_close {fuel : Nat}
    (ih : ∀ flags names branches items, Local never fun chars =>
      (readBranches fuel flags names branches items chars).map paired)
    (flags : Flags) (branches : List Part) (items : List Item) (part : Part) (names : List String) :
    Local never fun chars => (close fuel flags branches items (part, names, chars)).map paired := by
  refine .of_cons rfl fun char rest => ?_
  by_cases closes : char = ')'
  · subst closes
    exact ih flags names branches _ rest
  · have nothing (rest : List Char) :
        close fuel flags branches items (part, names, char :: rest) = none := by
      simp [close, closes]
    rw [nothing, nothing]
    exact .none

theorem map_paired_bind {α β γ δ : Type} (found? : Option (α × β × List Char))
    (next : α × β × List Char → Option (γ × δ × List Char)) :
    (found?.bind next).map paired = (found?.map paired).bind fun found =>
      (next (found.1.1, found.1.2, found.2)).map paired := by
  cases found? <;> rfl

theorem localAt_follow {fuel : Nat}
    (ih : ∀ flags names branches items, Local never fun chars =>
      (readBranches fuel flags names branches items chars).map paired)
    (flags : Flags) (names : List String) (branches : List Part) (items : List Item)
    (token : Token) (rest : List Char) :
    LocalAt never rest
      ((follow fuel flags names branches items (token, rest ++ closing)).map paired)
      ((follow fuel flags names branches items (token, rest)).map paired) := by
  cases token with
  | bar => exact ih _ _ _ _ rest
  | setting inner => exact ih _ _ _ _ rest
  | opening inner names =>
      simp only [follow, map_paired_bind]
      exact (ih inner names [] [] rest).andThen fun read rest =>
        local_close ih flags branches items read.1 read.2 rest
  | item part => exact ih _ _ _ _ rest
  | repeated least greatest =>
      simp only [follow]
      cases repeatLast least greatest items with
      | none => exact .none
      | some items => exact ih _ _ _ _ rest

theorem local_readBranches (fuel : Nat) (flags : Flags) (names : List String)
    (branches : List Part) (items : List Item) : Local never fun chars =>
      (readBranches fuel flags names branches items chars).map paired := by
  induction fuel generalizing flags names branches items with
  | zero => exact fun _ => .none
  | succ fuel ih =>
      refine .of_peek flags (fun chars ended value rest found => ?_)
        fun chars front here there => ?_
      · rw [readBranches_of_nil ended] at found
        cases found
        exact List.suffix_rfl
      · cases front with
        | nil =>
            rw [readBranches_of_nil here, readBranches_of_close there]
            exact .some _
        | cons char rest =>
            by_cases closes : char = ')'
            · subst closes
              rw [readBranches_of_close here, readBranches_of_close there]
              exact .some (finished branches items, names)
            · rw [readBranches_of_token here closes, readBranches_of_token there closes,
                Option.map_bind, Option.map_bind]
              refine LocalAt.mono ?_ (List.suffix_cons char rest)
              refine (localAt_token? flags names char rest).bind
                (localAt_follow ih flags names branches items) ?_
              rintro _ _ read kept ⟨⟨part, rfl⟩, behind, rfl, blank⟩ found
              simp only [Function.comp_apply, follow] at found
              rw [readBranches_of_braceLeft blank] at found
              cases found

/-- A pattern that is read at all is read in more rounds than there are characters. -/
theorem readBranches_settled {fuel : Nat} {flags : Flags} {names : List String}
    {branches : List Part} {items : List Item} {chars : List Char}
    {result : Part × List String × List Char}
    (found : readBranches fuel flags names branches items chars = some result)
    {enough : Nat} (long : chars.length < enough) :
    readBranches enough flags names branches items chars = some result := by
  induction fuel generalizing flags names branches items chars result enough with
  | zero => cases found
  | succ fuel ih =>
      obtain ⟨enough, rfl⟩ := Nat.exists_eq_add_of_le' (Nat.succ_le_of_lt (Nat.zero_lt_of_lt long))
      have skipped := (skip_suffix flags chars).length_le
      cases here : flags.skip chars with
      | nil =>
          rw [readBranches_of_nil here] at found ⊢
          exact found
      | cons char rest =>
          by_cases closes : char = ')'
          · subst closes
            rw [readBranches_of_close here] at found ⊢
            exact found
          rw [readBranches_of_token here closes] at found ⊢
          obtain ⟨⟨token, behind⟩, taken, there⟩ := Option.bind_eq_some_iff.mp found
          have shorter := ((localAt_token? flags names char rest).leaves taken).length_le
          rw [here, List.length_cons] at skipped
          rw [taken, Option.bind_some]
          cases token with
          | bar => exact ih there (by omega)
          | setting inner => exact ih there (by omega)
          | opening inner names =>
              obtain ⟨⟨part, names, after⟩, inside, closed⟩ := Option.bind_eq_some_iff.mp there
              have left : after.length ≤ behind.length :=
                ((local_readBranches fuel inner _ [] [] behind).leaves
                  (congrArg (Option.map paired) inside)).length_le
              refine Option.bind_eq_some_iff.mpr ⟨_, ih inside (by omega), ?_⟩
              rw [close_eq_some_iff] at closed ⊢
              obtain ⟨rest, rfl, closed⟩ := closed
              rw [List.length_cons] at left
              exact ⟨rest, rfl, ih closed (by omega)⟩
          | item part => exact ih there (by omega)
          | repeated least greatest =>
              obtain ⟨items, repeats, there⟩ := Option.bind_eq_some_iff.mp there
              exact Option.bind_eq_some_iff.mpr ⟨items, repeats, ih there (by omega)⟩

/-! ## Bounds in their order -/

theorem readBounds_ordered {flags : Flags} {chars rest : List Char} {least : Nat}
    {greatest : Option Nat} (found : readBounds flags chars = some ((least, greatest), rest)) :
    ∀ bound ∈ greatest, least ≤ bound := by
  rw [readBounds] at found
  obtain ⟨⟨least?, behind⟩, _, found⟩ := Option.bind_eq_some_iff.mp found
  obtain ⟨count, _, found⟩ := Option.bind_eq_some_iff.mp found
  split at found
  · cases found
    simp
  · split at found
    · cases found
      simp
    · obtain ⟨⟨greatest?, behind⟩, _, found⟩ := Option.bind_eq_some_iff.mp found
      obtain ⟨bound, _, found⟩ := Option.bind_eq_some_iff.mp found
      split at found
      · split at found
        case isTrue inOrder =>
          cases found
          simpa using inOrder
        case isFalse => cases found
      · cases found
  · cases found

theorem readSimple_ordered {flags : Flags} {chars rest : List Char} {pattern : Pattern}
    (found : readSimple flags chars = some (pattern, rest)) : pattern.Ordered := by
  unfold readSimple at found
  split at found
  · cases found
  · obtain ⟨⟨escaped, behind⟩, _, same⟩ := Option.map_eq_some_iff.mp found
    cases same
    cases escaped <;> trivial
  · split at found
    · cases found
    · cases found
      trivial
  · cases found
    trivial
  · cases found
    trivial
  · cases found
    trivial

/-- What is read of a pattern has its bounds in their order. -/
def Token.Ordered : Token → Prop
  | item part => part.pattern.Ordered
  | repeated least greatest => ∀ bound ∈ greatest, least ≤ bound
  | _ => True

theorem token?_ordered {flags : Flags} {names : List String} {chars rest : List Char}
    {token : Token} (found : token? flags names chars = some (token, rest)) : token.Ordered := by
  unfold token? at found
  split at found
  · cases found
  · cases found
    trivial
  · obtain ⟨⟨opening, behind⟩, _, same⟩ := Option.map_eq_some_iff.mp found
    cases same
    cases opening <;> trivial
  · obtain ⟨found, _, same⟩ := Option.map_eq_some_iff.mp found
    cases same
    trivial
  · cases found
    simp [Token.Ordered]
  · cases found
    simp [Token.Ordered]
  · cases found
    simp [Token.Ordered]
  · obtain ⟨⟨⟨least, greatest⟩, behind⟩, read, same⟩ := Option.map_eq_some_iff.mp found
    cases same
    exact readBounds_ordered read
  · obtain ⟨⟨pattern, behind⟩, read, same⟩ := Option.map_eq_some_iff.mp found
    cases same
    exact readSimple_ordered read

theorem chooseOf_ordered {patterns : List Pattern}
    (ordered : ∀ pattern ∈ patterns, pattern.Ordered) : (chooseOf patterns).Ordered := by
  induction patterns with
  | nil => trivial
  | cons first rest ih =>
      rw [List.forall_mem_cons] at ordered
      cases rest with
      | nil => exact ordered.1
      | cons next rest => exact ⟨ordered.1, ih ordered.2⟩

theorem inSequence_ordered {items : List Item}
    (ordered : ∀ item ∈ items, item.toPart.pattern.Ordered) :
    (Item.inSequence items).pattern.Ordered := by
  have chained {items : List Item} (ordered : ∀ item ∈ items, item.toPart.pattern.Ordered) :
      (((items.map Item.toPart).map Part.pattern).foldr sequence empty).Ordered := by
    induction items with
    | nil => trivial
    | cons first rest ih =>
        rw [List.forall_mem_cons] at ordered
        exact ⟨ordered.1, ih ordered.2⟩
  match items with
  | [] => trivial
  | [only] => exact ordered only (List.mem_singleton_self only)
  | first :: second :: rest => exact chained ordered

theorem ofBranches_ordered {branches : List Part}
    (ordered : ∀ part ∈ branches, part.pattern.Ordered) :
    (Part.ofBranches branches).pattern.Ordered := by
  match branches with
  | [] => trivial
  | [only] => exact ordered only (List.mem_singleton_self only)
  | first :: second :: rest =>
      exact chooseOf_ordered (List.forall_mem_map.mpr ordered)

/-- What has been read of a group has the bounds of its repetitions in their order. -/
structure Orderly (branches : List Part) (items : List Item) : Prop where
  branches : ∀ part ∈ branches, part.pattern.Ordered
  items : ∀ item ∈ items, item.toPart.pattern.Ordered

namespace Orderly

variable {branches : List Part} {items : List Item}

theorem start : Orderly [] [] := ⟨nofun, nofun⟩

theorem inSequence (orderly : Orderly branches items) :
    (Item.inSequence items.reverse).pattern.Ordered :=
  inSequence_ordered fun item member => orderly.items item (List.mem_reverse.mp member)

theorem bar (orderly : Orderly branches items) :
    Orderly (Item.inSequence items.reverse :: branches) [] :=
  ⟨List.forall_mem_cons.mpr ⟨orderly.inSequence, orderly.branches⟩, nofun⟩

theorem setting (orderly : Orderly branches items) : Orderly branches (.setting :: items) :=
  ⟨orderly.branches, List.forall_mem_cons.mpr ⟨trivial, orderly.items⟩⟩

theorem part (orderly : Orderly branches items) {part : Part} (ordered : part.pattern.Ordered) :
    Orderly branches (.part part :: items) :=
  ⟨orderly.branches, List.forall_mem_cons.mpr ⟨ordered, orderly.items⟩⟩

theorem finished (orderly : Orderly branches items) : (finished branches items).pattern.Ordered :=
  ofBranches_ordered fun part member =>
    orderly.bar.branches part (List.mem_reverse.mp member)

theorem repeated (orderly : Orderly branches items) {least : Nat} {greatest : Option Nat}
    (inOrder : ∀ bound ∈ greatest, least ≤ bound) {last : List Item}
    (found : repeatLast least greatest items = some last) : Orderly branches last := by
  unfold repeatLast at found
  split at found
  · cases found
    have both := List.forall_mem_cons.mp orderly.items
    exact ⟨orderly.branches, List.forall_mem_cons.mpr ⟨⟨inOrder, both.1⟩, both.2⟩⟩
  · cases found

end Orderly

/-- The repetitions in a pattern that is read have their bounds in their order. -/
theorem readBranches_ordered {fuel : Nat} {flags : Flags} {names : List String}
    {branches : List Part} {items : List Item} {chars : List Char}
    {result : Part × List String × List Char} (orderly : Orderly branches items)
    (found : readBranches fuel flags names branches items chars = some result) :
    result.1.pattern.Ordered := by
  induction fuel generalizing flags names branches items chars result with
  | zero => cases found
  | succ fuel ih =>
      cases here : flags.skip chars with
      | nil =>
          rw [readBranches_of_nil here] at found
          cases found
          exact orderly.finished
      | cons char rest =>
          by_cases closes : char = ')'
          · subst closes
            rw [readBranches_of_close here] at found
            cases found
            exact orderly.finished
          rw [readBranches_of_token here closes] at found
          obtain ⟨⟨token, behind⟩, taken, there⟩ := Option.bind_eq_some_iff.mp found
          have ordered := token?_ordered taken
          cases token with
          | bar => exact ih orderly.bar there
          | setting inner => exact ih orderly.setting there
          | opening inner names =>
              obtain ⟨⟨part, names, after⟩, inside, closed⟩ := Option.bind_eq_some_iff.mp there
              obtain ⟨rest, rfl, closed⟩ := close_eq_some_iff.mp closed
              refine ih (orderly.part ?_) closed
              exact ih .start inside
          | item part => exact ih (orderly.part ordered) there
          | repeated least greatest =>
              obtain ⟨items, repeats, there⟩ := Option.bind_eq_some_iff.mp there
              exact ih (orderly.repeated ordered repeats) there

end TimeSeries.Pattern
