import Mathlib.Data.List.Basic
import TimeSeries.Pattern.Basic

/-!
# What patterns describe

A pattern leads from one place of a text to another if it describes the characters between them at
that place (`Pattern.Leads`), and it describes a text if it leads from its start to its end
(`Pattern.Describes`).  A repetition leads to where a number of rounds leads that its bounds allow.

Main statement: `Pattern.mem_reach_iff`, that following a pattern from some places finds the places
to which it leads from one of them, and no others.  The search for a repetition without an upper
bound ends after as many rounds as there are characters: a round that leads somewhere else takes a
character at least (`Pattern.Leads.progress`), and the other rounds can be left out
(`Rounds.shorten`).
-/

set_option autoImplicit false

namespace TimeSeries

/-! ## Rounds -/

/-- So many rounds of a relation lead from one place to another. -/
def Rounds (relation : Spot → Spot → Prop) : Nat → Spot → Spot → Prop
  | 0, start, finish => finish = start
  | count + 1, start, finish =>
      ∃ middle, relation start middle ∧ Rounds relation count middle finish

namespace Rounds

variable {relation : Spot → Spot → Prop} {start middle finish : Spot} {first second count : Nat}

theorem trans (before : Rounds relation first start middle)
    (after : Rounds relation second middle finish) :
    Rounds relation (first + second) start finish := by
  induction first generalizing start with
  | zero =>
      obtain rfl : middle = start := before
      rwa [Nat.zero_add]
  | succ first ih =>
      obtain ⟨next, here, before⟩ := before
      rw [Nat.succ_add]
      exact ⟨next, here, ih before⟩

theorem split (rounds : Rounds relation (first + second) start finish) :
    ∃ middle, Rounds relation first start middle ∧ Rounds relation second middle finish := by
  induction first generalizing start with
  | zero =>
      rw [Nat.zero_add] at rounds
      exact ⟨start, rfl, rounds⟩
  | succ first ih =>
      rw [Nat.succ_add] at rounds
      obtain ⟨next, here, rounds⟩ := rounds
      obtain ⟨middle, before, after⟩ := ih rounds
      exact ⟨middle, ⟨next, here, before⟩, after⟩

/-- Rounds of a relation that takes characters wherever it leads somewhere else lead nowhere or take
characters, too. -/
theorem progress
    (takes : ∀ start finish, relation start finish →
      finish = start ∨ finish.after.length < start.after.length)
    (rounds : Rounds relation count start finish) :
    finish = start ∨ finish.after.length < start.after.length := by
  induction count generalizing start with
  | zero => exact .inl rounds
  | succ count ih =>
      obtain ⟨middle, here, rounds⟩ := rounds
      obtain rfl | shorter := takes start middle here
      · exact ih rounds
      · obtain rfl | more := ih rounds
        · exact .inr shorter
        · exact .inr (Nat.lt_trans more shorter)

/-- Without the rounds that lead nowhere there are no more rounds than characters. -/
theorem shorten
    (takes : ∀ start finish, relation start finish →
      finish = start ∨ finish.after.length < start.after.length)
    (rounds : Rounds relation count start finish) :
    ∃ fewer ≤ count, fewer ≤ start.after.length ∧ Rounds relation fewer start finish := by
  induction count generalizing start with
  | zero => exact ⟨0, Nat.le_refl 0, Nat.zero_le _, rounds⟩
  | succ count ih =>
      obtain ⟨middle, here, rounds⟩ := rounds
      obtain ⟨fewer, le_count, le_length, rounds⟩ := ih rounds
      obtain rfl | shorter := takes start middle here
      · exact ⟨fewer, Nat.le_succ_of_le le_count, le_length, rounds⟩
      · exact ⟨fewer + 1, Nat.succ_le_succ le_count, by omega, middle, here, rounds⟩

end Rounds

namespace Pattern

/-! ## Meaning -/

/-- The pattern describes the characters between two places of a text. -/
def Leads : Pattern → Spot → Spot → Prop
  | empty, start, finish => finish = start
  | one characters, start, finish =>
      ∃ char rest, start.after = char :: rest ∧ characters.contains char = true
        ∧ finish = ⟨some char, rest⟩
  | assertion repertoire condition, start, finish =>
      finish = start ∧ condition.holds repertoire.isWord start = true
  | sequence first second, start, finish =>
      ∃ middle, first.Leads start middle ∧ second.Leads middle finish
  | choice left right, start, finish => left.Leads start finish ∨ right.Leads start finish
  | repetition inner least greatest, start, finish =>
      ∃ count, least ≤ count ∧ (∀ bound ∈ greatest, count ≤ bound)
        ∧ Rounds inner.Leads count start finish

/-- The pattern describes the text as a whole. -/
def Describes (pattern : Pattern) (text : String) : Prop :=
  ∃ finish, pattern.Leads ⟨none, text.toList⟩ finish ∧ finish.after = []

/-- The bounds of every repetition in the pattern are in their order. -/
def Ordered : Pattern → Prop
  | empty => True
  | one _ => True
  | assertion _ _ => True
  | sequence first second => first.Ordered ∧ second.Ordered
  | choice left right => left.Ordered ∧ right.Ordered
  | repetition inner least greatest => (∀ bound ∈ greatest, least ≤ bound) ∧ inner.Ordered

/-- A pattern that leads somewhere else takes a character at least. -/
theorem Leads.progress {pattern : Pattern} {start finish : Spot}
    (leads : pattern.Leads start finish) :
    finish = start ∨ finish.after.length < start.after.length := by
  induction pattern generalizing start finish with
  | empty => exact .inl leads
  | one characters =>
      obtain ⟨char, rest, after, _, rfl⟩ := leads
      right
      simp [after]
  | assertion repertoire condition => exact .inl leads.1
  | sequence first second before after =>
      obtain ⟨middle, here, there⟩ := leads
      obtain rfl | shorter := before here
      · exact after there
      · obtain rfl | more := after there
        · exact .inr shorter
        · exact .inr (Nat.lt_trans more shorter)
  | choice left right onLeft onRight => exact leads.elim onLeft onRight
  | repetition inner least greatest ih =>
      obtain ⟨count, _, _, rounds⟩ := leads
      exact rounds.progress fun start finish leads => ih leads

/-! ## Search -/

section

variable {step : List Spot → List Spot} {relation : Spot → Spot → Prop}

/-- The step finds the places to which the relation leads. -/
def Follows (step : List Spot → List Spot) (relation : Spot → Spot → Prop) : Prop :=
  ∀ spots finish, finish ∈ step spots ↔ ∃ start ∈ spots, relation start finish

theorem mem_without {known spots : List Spot} {spot : Spot} :
    spot ∈ without known spots ↔ spot ∈ spots ∧ spot ∉ known := by
  simp [without]

theorem mem_together {first second : List Spot} {spot : Spot} :
    spot ∈ together first second ↔ spot ∈ first ∨ spot ∈ second := by
  simp only [together, List.mem_append, mem_without, List.mem_eraseDups]
  tauto

/-- Spots that a step only leads to each other stay what they are over any number of rounds. -/
theorem mem_iff_of_fixed (follows : Follows step relation) {spots : List Spot}
    (fixed : step spots = spots) (count : Nat) (finish : Spot) :
    finish ∈ spots ↔ ∃ start ∈ spots, Rounds relation count start finish := by
  induction count with
  | zero => simp [Rounds]
  | succ count ih =>
      calc finish ∈ spots
        _ ↔ ∃ middle ∈ step spots, Rounds relation count middle finish := by rw [fixed]; exact ih
        _ ↔ ∃ start ∈ spots, Rounds relation (count + 1) start finish := by
          constructor
          · rintro ⟨middle, found, rounds⟩
            obtain ⟨start, member, here⟩ := (follows spots middle).mp found
            exact ⟨start, member, middle, here, rounds⟩
          · rintro ⟨start, member, middle, here, rounds⟩
            exact ⟨middle, (follows spots middle).mpr ⟨start, member, here⟩, rounds⟩

theorem mem_rounds_iff (follows : Follows step relation) (count : Nat) (spots : List Spot)
    (finish : Spot) :
    finish ∈ rounds step count spots ↔ ∃ start ∈ spots, Rounds relation count start finish := by
  induction count generalizing spots with
  | zero => simp [rounds, Rounds]
  | succ count ih =>
      simp only [rounds]
      split
      case isTrue fixed => exact mem_iff_of_fixed follows fixed (count + 1) finish
      case isFalse =>
        rw [ih]
        constructor
        · rintro ⟨middle, found, rounds⟩
          obtain ⟨start, member, here⟩ := (follows spots middle).mp found
          exact ⟨start, member, middle, here, rounds⟩
        · rintro ⟨start, member, middle, here, rounds⟩
          exact ⟨middle, (follows spots middle).mpr ⟨start, member, here⟩, rounds⟩

/-- What a search has found: the latest spots are among the known ones, and the known spots lead to
known spots, or else they are among the latest. -/
structure Explored (relation : Spot → Spot → Prop) (known latest : List Spot) : Prop where
  latest_known : ∀ spot ∈ latest, spot ∈ known
  closed : ∀ start ∈ known, ∀ finish, relation start finish → finish ∈ known ∨ start ∈ latest

theorem explored_self (spots : List Spot) : Explored relation spots spots :=
  ⟨fun _ member => member, fun _ member _ _ => .inr member⟩

theorem Explored.further (follows : Follows step relation) {known latest : List Spot}
    (explored : Explored relation known latest) :
    Explored relation (known ++ without known (step latest)) (without known (step latest)) := by
  refine ⟨fun spot found => List.mem_append_right _ found, fun start member finish here => ?_⟩
  obtain old | found := List.mem_append.mp member
  · obtain known | newest := explored.closed start old finish here
    · exact .inl (List.mem_append_left _ known)
    · left
      by_cases known : finish ∈ known
      · exact List.mem_append_left _ known
      · exact List.mem_append_right _
          (mem_without.mpr ⟨(follows latest finish).mpr ⟨start, newest, here⟩, known⟩)
  · exact .inr found

/-- A search that finds nothing more has found everything. -/
theorem Explored.mem_of_rounds (follows : Follows step relation) {known latest : List Spot}
    (explored : Explored relation known latest) (nothing : without known (step latest) = [])
    {count : Nat} {start finish : Spot} (member : start ∈ known)
    (rounds : Rounds relation count start finish) : finish ∈ known := by
  induction count generalizing start with
  | zero =>
      obtain rfl : finish = start := rounds
      exact member
  | succ count ih =>
      obtain ⟨middle, here, rounds⟩ := rounds
      refine ih ?_ rounds
      obtain known | newest := explored.closed start member middle here
      · exact known
      · by_contra unknown
        have found : middle ∈ without known (step latest) :=
          mem_without.mpr ⟨(follows latest middle).mpr ⟨start, newest, here⟩, unknown⟩
        rw [nothing] at found
        exact List.not_mem_nil found

/-- A search in so many rounds finds what up to so many rounds lead to. -/
theorem mem_closure_iff (follows : Follows step relation) {known latest : List Spot}
    (explored : Explored relation known latest) (count : Nat) (finish : Spot) :
    finish ∈ closure step count known latest
      ↔ ∃ fewer ≤ count, ∃ start ∈ known, Rounds relation fewer start finish := by
  induction count generalizing known latest with
  | zero => simp [closure, Rounds]
  | succ count ih =>
      simp only [closure]
      split
      case isTrue nothing =>
        rw [List.isEmpty_iff] at nothing
        constructor
        · intro member
          exact ⟨0, Nat.zero_le _, finish, member, rfl⟩
        · rintro ⟨fewer, _, start, member, rounds⟩
          exact explored.mem_of_rounds follows nothing member rounds
      case isFalse =>
        rw [ih (explored.further follows)]
        constructor
        · rintro ⟨fewer, le, start, member, rounds⟩
          obtain old | found := List.mem_append.mp member
          · exact ⟨fewer, Nat.le_succ_of_le le, start, old, rounds⟩
          · obtain ⟨earlier, newest, here⟩ := (follows latest start).mp (mem_without.mp found).1
            exact ⟨fewer + 1, Nat.succ_le_succ le, earlier, explored.latest_known earlier newest,
              start, here, rounds⟩
        · rintro ⟨fewer, le, start, member, rounds⟩
          cases fewer with
          | zero => exact ⟨0, Nat.zero_le _, start, List.mem_append_left _ member, rounds⟩
          | succ fewer =>
              obtain ⟨middle, here, rounds⟩ := rounds
              refine ⟨fewer, Nat.le_of_succ_le_succ le, middle, ?_, rounds⟩
              rw [List.mem_append, mem_without, follows]
              obtain known | newest := explored.closed start member middle here
              · exact .inl known
              · by_cases known : middle ∈ known
                · exact .inl known
                · exact .inr ⟨⟨start, newest, here⟩, known⟩

end

theorem le_foldl_max (spots : List Spot) (least : Nat) :
    least ≤ spots.foldl (fun longest spot => max longest spot.after.length) least
      ∧ ∀ spot ∈ spots, spot.after.length
        ≤ spots.foldl (fun longest spot => max longest spot.after.length) least := by
  induction spots generalizing least with
  | nil => simp
  | cons first rest ih =>
      obtain ⟨longer, all⟩ := ih (max least first.after.length)
      rw [List.foldl_cons]
      refine ⟨Nat.le_trans (Nat.le_max_left _ _) longer, fun spot member => ?_⟩
      obtain rfl | member := List.mem_cons.mp member
      · exact Nat.le_trans (Nat.le_max_right _ _) longer
      · exact all spot member

theorem length_le_longestRest {spots : List Spot} {spot : Spot} (member : spot ∈ spots) :
    spot.after.length ≤ longestRest spots :=
  (le_foldl_max spots 0).2 spot member

/-- Following a pattern finds the places to which it leads. -/
theorem mem_reach_iff {pattern : Pattern} (ordered : pattern.Ordered) (spots : List Spot)
    (finish : Spot) :
    finish ∈ pattern.reach spots ↔ ∃ start ∈ spots, pattern.Leads start finish := by
  induction pattern generalizing spots finish with
  | empty => simp [reach, Leads]
  | one characters =>
      rw [reach, List.mem_filterMap]
      refine exists_congr fun start => and_congr_right fun _ => ?_
      simp only [Spot.advance?, Leads]
      split
      case h_1 char rest after =>
        rw [after]
        constructor
        · intro advanced
          split at advanced
          case isTrue contained =>
            cases advanced
            exact ⟨char, rest, rfl, contained, rfl⟩
          case isFalse => cases advanced
        · rintro ⟨_, _, same, contained, rfl⟩
          cases same
          rw [if_pos contained]
      case h_2 ended => simp [ended]
  | assertion repertoire condition =>
      rw [reach, List.mem_filter]
      constructor
      · rintro ⟨member, holds⟩
        exact ⟨finish, member, rfl, holds⟩
      · rintro ⟨start, member, rfl, holds⟩
        exact ⟨member, holds⟩
  | sequence first second before after =>
      rw [reach, after ordered.2]
      simp only [before ordered.1, Leads]
      constructor
      · rintro ⟨middle, ⟨start, member, here⟩, there⟩
        exact ⟨start, member, middle, here, there⟩
      · rintro ⟨start, member, middle, here, there⟩
        exact ⟨middle, ⟨start, member, here⟩, there⟩
  | choice left right onLeft onRight =>
      rw [reach, mem_together, onLeft ordered.1, onRight ordered.2, ← exists_or]
      exact exists_congr fun start => (and_or_left).symm
  | repetition inner least greatest ih =>
      have follows : Follows inner.reach inner.Leads := ih ordered.2
      simp only [reach, mem_closure_iff follows (explored_self _), mem_rounds_iff follows]
      constructor
      · rintro ⟨more, le, middle, ⟨start, member, before⟩, after⟩
        refine ⟨start, member, least + more, Nat.le_add_right _ _, fun bound some_bound => ?_,
          before.trans after⟩
        obtain rfl : greatest = some bound := some_bound
        have inOrder := ordered.1 bound rfl
        have le : more ≤ bound - least := Nat.le_trans le (Nat.min_le_left _ _)
        omega
      · rintro ⟨start, member, count, enough, within, rounds⟩
        obtain ⟨more, rfl⟩ := Nat.exists_eq_add_of_le enough
        obtain ⟨middle, before, after⟩ := rounds.split
        -- of the rounds beyond the least number only those that take characters are needed
        obtain ⟨fewer, le, le_length, after⟩ := after.shorten fun _ _ leads => leads.progress
        refine ⟨fewer, ?_, middle, ⟨start, member, before⟩, after⟩
        have reached := (mem_rounds_iff follows least spots middle).mpr ⟨start, member, before⟩
        have le_longest := Nat.le_trans le_length (length_le_longestRest reached)
        cases greatest with
        | none => exact Nat.le_succ_of_le le_longest
        | some bound =>
            have le_bound := within bound rfl
            exact Nat.le_min.mpr ⟨by omega, Nat.le_succ_of_le le_longest⟩

end Pattern

end TimeSeries
