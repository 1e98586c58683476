import Mathlib.Data.List.Forall2
import TimeSeries.Proofs.Entries.Strands

/-!
# Which columns can be read

What a character of a column means depends on the backslashes in front of it (`Column.Mark`).  Only
characters that stand by themselves separate: commas cut a column into parts (`Column.parts`), and
the first equals sign of a part ends its key.  A part spells a tag if there is such an equals sign
and something in front of it (`Column.Spells`).

A column is read part by part, each part as the tag that it spells, and fails if some part spells
none.  So keys that are read are never empty, and tags are read back from their column exactly if
none of their keys is empty.

Main statement: `Column.split_and_join`.
-/

set_option autoImplicit false

namespace TimeSeries

namespace Column

/-! ## Marks -/

/-- What stands in a column. -/
inductive Mark where
  /-- A character by itself. -/
  | bare (char : Char)
  /-- A character with a backslash in front of it. -/
  | escaped (char : Char)
  /-- A backslash with nothing behind it. -/
  | dangling
  deriving DecidableEq, Repr

/-- What is written for a mark. -/
def Mark.written : Mark → List Char
  | .bare char => [char]
  | .escaped char => ['\\', char]
  | .dangling => ['\\']

/-- What a mark says. -/
def Mark.text : Mark → List Char
  | .bare char | .escaped char => [char]
  | .dangling => []

/-- The marks of a column. -/
def marks : List Char → List Mark
  | [] => []
  | ['\\'] => [.dangling]
  | '\\' :: char :: rest => .escaped char :: marks rest
  | char :: rest => .bare char :: marks rest

/-- A column is what is written for its marks. -/
theorem flatMap_written_marks (column : List Char) :
    (marks column).flatMap Mark.written = column := by
  fun_induction marks column with
  | case1 => rfl
  | case2 => rfl
  | case3 char rest ih => rw [List.flatMap_cons, ih]; rfl
  | case4 char rest _ _ ih => rw [List.flatMap_cons, ih]; rfl

/-- The parts of a column between commas that stand by themselves. -/
def parts (column : List Char) : List (List Mark) := (marks column).splitOn (.bare ',')

/-- The text of some marks. -/
def textOf (marks : List Mark) : List Char := marks.flatMap Mark.text

/-- No equals sign of the part stands by itself, or the first that does has nothing in front. -/
def Unnamed (part : List Mark) : Prop := .bare '=' ∉ part ∨ part.head? = some (.bare '=')

/-- The column ends in a backslash with nothing behind it, or one of its parts has no key. -/
def Broken (column : String) : Prop :=
  column ≠ "" ∧ (.dangling ∈ marks column.toList ∨ ∃ part ∈ parts column.toList, Unnamed part)

/-! ## What a part spells -/

/-- The tag of a part of which a key, if its equals sign has been read, and some text behind that
have been read. -/
def SpellsFrom (key : Option (List Char)) (current : List Char) (part : List Mark)
    (tag : String × String) : Prop :=
  .dangling ∉ part ∧ match key with
    | some key => key ≠ [] ∧ tag = (String.ofList key, String.ofList (current ++ textOf part))
    | none => ∃ front value, part = front ++ .bare '=' :: value ∧ .bare '=' ∉ front
        ∧ current ++ textOf front ≠ []
        ∧ tag = (String.ofList (current ++ textOf front), String.ofList (textOf value))

/-- The part is a tag: its key is what stands in front of the first equals sign that stands by
itself, and its value what stands behind. -/
def Spells (part : List Mark) (tag : String × String) : Prop := SpellsFrom none [] part tag

section Parts

variable {key : Option (List Char)} {current : List Char} {part : List Mark}
  {tag : String × String}

theorem dangling_notMem_cons {mark : Mark} (sound : mark ≠ .dangling) :
    .dangling ∉ mark :: part ↔ .dangling ∉ part := by
  rw [List.mem_cons, not_or]
  exact and_iff_right sound.symm

theorem spellsFrom_nil : SpellsFrom key current [] tag ↔ close key current = .ok tag := by
  cases key with
  | none => simp [SpellsFrom, close]
  | some key =>
      cases key with
      | nil => simp [SpellsFrom, close]
      | cons char rest => simp [SpellsFrom, close, textOf, eq_comm]

theorem not_spellsFrom_dangling : ¬ SpellsFrom key current (.dangling :: part) tag :=
  fun spells => spells.1 List.mem_cons_self

/-- A character that is no equals sign in front of a value belongs to the text. -/
theorem spellsFrom_cons {mark : Mark} {char : Char} (stands : mark.text = [char])
    (inside : mark ≠ .bare '=' ∨ key ≠ none) :
    SpellsFrom key current (mark :: part) tag ↔ SpellsFrom key (current ++ [char]) part tag := by
  have sound : mark ≠ .dangling := by
    rintro rfl
    cases stands
  unfold SpellsFrom
  rw [dangling_notMem_cons sound]
  cases key with
  | some key => simp only [textOf, List.flatMap_cons, stands, List.append_assoc]
  | none =>
      have other : mark ≠ .bare '=' := inside.resolve_right fun absent => absent rfl
      refine and_congr_right fun _ => ⟨?_, ?_⟩
      · rintro ⟨front, value, same, plain, some_key, rfl⟩
        cases front with
        | nil => exact absurd (List.cons.inj same).1 other
        | cons first front =>
            obtain ⟨rfl, rfl⟩ := List.cons.inj same
            refine ⟨front, value, rfl, fun among => plain (List.mem_cons_of_mem _ among), ?_, ?_⟩
            all_goals simp [textOf, stands]
      · rintro ⟨front, value, rfl, plain, some_key, rfl⟩
        refine ⟨mark :: front, value, rfl, ?_, ?_, ?_⟩
        · rw [List.mem_cons, not_or]
          exact ⟨other.symm, plain⟩
        all_goals simp [textOf, stands]

/-- The first equals sign ends the key. -/
theorem spellsFrom_equals :
    SpellsFrom none current (.bare '=' :: part) tag ↔ SpellsFrom (some current) [] part tag := by
  unfold SpellsFrom
  rw [dangling_notMem_cons Mark.noConfusion]
  refine and_congr_right fun _ => ⟨?_, ?_⟩
  · rintro ⟨front, value, same, plain, some_key, rfl⟩
    cases front with
    | nil =>
        obtain ⟨-, rfl⟩ := List.cons.inj same
        simpa [textOf] using some_key
    | cons first front =>
        rw [← (List.cons.inj same).1] at plain
        exact absurd List.mem_cons_self plain
  · rintro ⟨some_key, rfl⟩
    exact ⟨[], part, rfl, List.not_mem_nil, by simpa [textOf] using some_key, by simp [textOf]⟩

end Parts

/-! ## Reading -/

/-- The first part is the tag in turn, of which some has been read, and the others are tags. -/
def SpellAll (key : Option (List Char)) (current : List Char) :
    List (List Mark) → List (String × String) → Prop
  | part :: parts, tag :: tags => SpellsFrom key current part tag ∧ List.Forall₂ Spells parts tags
  | _, _ => False

section Columns

variable {key next : Option (List Char)} {current text : List Char} {parts : List (List Mark)}
  {tags : List (String × String)}

theorem spellAll_start (some_parts : parts ≠ []) :
    SpellAll none [] parts tags ↔ List.Forall₂ Spells parts tags := by
  cases parts with
  | nil => exact absurd rfl some_parts
  | cons part parts =>
      cases tags with
      | nil => simp [SpellAll]
      | cons tag tags => rw [SpellAll, List.forall₂_cons, Spells]

/-- One more mark in the first part. -/
theorem spellAll_modifyHead (some_parts : parts ≠ []) {mark : Mark}
    (moved : ∀ part tag,
      SpellsFrom key current (mark :: part) tag ↔ SpellsFrom next text part tag) :
    SpellAll key current (parts.modifyHead (List.cons mark)) tags
      ↔ SpellAll next text parts tags := by
  cases parts with
  | nil => exact absurd rfl some_parts
  | cons part parts =>
      cases tags with
      | nil => rfl
      | cons tag tags => rw [List.modifyHead_cons, SpellAll, SpellAll, moved]

/-- At the end of a part, what has been read is its tag, and the other parts follow. -/
theorem close_bind_eq_ok_iff {rest : Except Defect (List (String × String))}
    (others : ∀ tags, rest = .ok tags ↔ List.Forall₂ Spells parts tags) :
    (do let tag ← close key current; let tags ← rest; return tag :: tags) = .ok tags
      ↔ SpellAll key current ([] :: parts) tags := by
  cases tags with
  | nil =>
      refine iff_of_false ?_ id
      cases close key current <;> cases rest <;> rintro ⟨⟩
  | cons tag tags =>
      rw [SpellAll, spellsFrom_nil, ← others]
      cases close key current with
      | error defect => simp [bind, Except.bind]
      | ok read =>
          cases rest with
          | error defect => simp [bind, Except.bind]
          | ok more => simp [bind, Except.bind, pure, Except.pure]

end Columns

theorem splitOn_cons_of_ne {mark : Mark} (inside : mark ≠ .bare ',') (rest : List Mark) :
    (mark :: rest).splitOn (.bare ',')
      = (rest.splitOn (.bare ',')).modifyHead (List.cons mark) := by
  rw [List.splitOn, List.splitOnP_cons_eq_if_modifyHead, if_neg (by simpa using inside)]
  rfl

theorem splitOn_cons_comma (rest : List Mark) :
    (.bare ',' :: rest).splitOn (.bare ',') = [] :: rest.splitOn (.bare ',') := by
  rw [List.splitOn, List.splitOnP_cons_eq_if_modifyHead, if_pos (beq_self_eq_true _)]
  rfl

theorem parts_ne_nil (column : List Char) : parts column ≠ [] :=
  List.splitOn_ne_nil _ (marks column)

/-- Reading a column is reading each of its parts as the tag that it spells. -/
theorem splitChars_eq_ok_iff (key : Option (List Char)) (current column : List Char)
    (tags : List (String × String)) :
    splitChars key current column = .ok tags ↔ SpellAll key current (parts column) tags := by
  fun_induction splitChars key current column generalizing tags with
  | case1 key current =>
      have none_left : ∀ tags,
          (.ok [] : Except Defect _) = .ok tags ↔ List.Forall₂ Spells [] tags :=
        fun tags => by rw [List.forall₂_nil_left_iff, Except.ok.injEq, eq_comm]
      exact close_bind_eq_ok_iff none_left
  | case2 key current =>
      refine iff_of_false (by rintro ⟨⟩) ?_
      cases tags with
      | nil => exact id
      | cons tag tags => exact fun spells => not_spellsFrom_dangling spells.1
  | case3 key current char rest ih =>
      refine (ih tags).trans ?_
      rw [parts, parts, marks, splitOn_cons_of_ne Mark.noConfusion]
      exact (spellAll_modifyHead (parts_ne_nil rest) fun part tag =>
        spellsFrom_cons rfl (Or.inl Mark.noConfusion)).symm
  | case4 key current rest ih =>
      rw [parts, marks, splitOn_cons_comma]
      · exact close_bind_eq_ok_iff fun tags => (ih tags).trans (spellAll_start (parts_ne_nil rest))
      all_goals simp
  | case5 key current char rest noEnd noEscape noComma equals ih =>
      obtain ⟨rfl, rfl⟩ := equals
      refine (ih tags).trans ?_
      rw [parts, parts, marks, splitOn_cons_of_ne (by decide)]
      · exact (spellAll_modifyHead (parts_ne_nil rest) fun part tag => spellsFrom_equals).symm
      all_goals simp
  | case6 key current char rest noEnd noEscape noComma other ih =>
      refine (ih tags).trans ?_
      rw [parts, parts, marks, splitOn_cons_of_ne (fun same => noComma (Mark.bare.inj same))]
      · refine (spellAll_modifyHead (parts_ne_nil rest) fun part tag => spellsFrom_cons rfl ?_).symm
        rwa [ne_eq, Mark.bare.injEq, ne_eq, ← not_and_or]
      · exact noEnd
      · exact noEscape

/-! ## Columns that can be read -/

/-- The tags of a column are what its parts spell, and the empty column has none. -/
theorem split_eq_ok_iff {column : String} {tags : List (String × String)} :
    split column = .ok tags
      ↔ column = "" ∧ tags = []
        ∨ column ≠ "" ∧ List.Forall₂ Spells (parts column.toList) tags := by
  have read := splitChars_eq_ok_iff none [] column.toList tags
  rw [spellAll_start (parts_ne_nil column.toList)] at read
  rw [← read, split]
  by_cases empty : column = ""
  · rw [if_pos (String.isEmpty_iff.mpr empty)]
    simp [empty, eq_comm]
  · rw [if_neg (mt String.isEmpty_iff.mp empty)]
    cases splitChars none [] column.toList with
    | ok found => simp [empty]
    | error defect => cases defect <;> simp [empty]

/-- A tag that is spelled has a key. -/
theorem key_of_spells {part : List Mark} {tag : String × String} (spells : Spells part tag) :
    tag.1 ≠ "" := by
  obtain ⟨-, front, value, -, -, some_key, rfl⟩ := spells
  intro empty
  exact some_key (String.ofList_eq_empty_iff.mp empty)

/-- A part spells a tag unless it has no key or ends within an escape. -/
theorem exists_spells_iff (part : List Mark) :
    (∃ tag, Spells part tag) ↔ ¬ (.dangling ∈ part ∨ Unnamed part) := by
  rw [Unnamed]
  constructor
  · rintro ⟨tag, sound, front, value, rfl, plain, some_key, -⟩ (dangling | equals | starts)
    · exact sound dangling
    · exact equals List.mem_append_cons_self
    · cases front with
      | nil => exact some_key rfl
      | cons first front =>
          rw [List.cons_append, List.head?_cons, Option.some.injEq] at starts
          rw [starts] at plain
          exact plain List.mem_cons_self
  · intro fine
    simp only [not_or, Decidable.not_not] at fine
    obtain ⟨sound, equals, starts⟩ := fine
    obtain ⟨front, value, rfl, plain⟩ := List.eq_append_cons_of_mem equals
    refine ⟨_, sound, front, value, rfl, plain, ?_, rfl⟩
    cases front with
    | nil => exact absurd rfl starts
    | cons first front =>
        cases first with
        | dangling => exact absurd List.mem_cons_self sound
        | bare char => exact List.cons_ne_nil char _
        | escaped char => exact List.cons_ne_nil char _

theorem exists_forall₂_iff {α β : Type} (related : α → β → Prop) (items : List α) :
    (∃ results, List.Forall₂ related items results)
      ↔ ∀ item ∈ items, ∃ result, related item result := by
  induction items with
  | nil => exact iff_of_true ⟨[], List.Forall₂.nil⟩ fun _ => (absurd · List.not_mem_nil)
  | cons item items ih =>
      rw [List.forall_mem_cons, ← ih]
      constructor
      · rintro ⟨_, here | ⟨here, later⟩⟩
        exact ⟨⟨_, here⟩, _, later⟩
      · rintro ⟨⟨result, here⟩, results, later⟩
        exact ⟨result :: results, List.Forall₂.cons here later⟩

/-- Marks other than separating commas are those of the parts. -/
theorem exists_mem_splitOn {mark : Mark} (inside : mark ≠ .bare ',') (all : List Mark) :
    (∃ part ∈ all.splitOn (.bare ','), mark ∈ part) ↔ mark ∈ all := by
  induction all with
  | nil => simp
  | cons first rest ih =>
      by_cases comma : first = .bare ','
      · rw [comma, splitOn_cons_comma, List.exists_mem_cons_iff, ih, List.mem_cons]
        simp [inside]
      · obtain ⟨part, others, cut⟩ :=
          List.exists_cons_of_ne_nil (List.splitOn_ne_nil (Mark.bare ',') rest)
        rw [cut, List.exists_mem_cons_iff] at ih
        rw [splitOn_cons_of_ne comma, cut, List.modifyHead_cons, List.exists_mem_cons_iff,
          List.mem_cons, List.mem_cons, ← ih, or_assoc]

/-- A column can be read exactly if it is not broken. -/
theorem exists_split_iff (column : String) :
    (∃ tags, split column = .ok tags) ↔ ¬ Broken column := by
  simp only [split_eq_ok_iff, Broken]
  by_cases empty : column = ""
  · simp [empty]
  · have readable := exists_forall₂_iff Spells (parts column.toList)
    simp only [exists_spells_iff] at readable
    have other : Mark.dangling ≠ .bare ',' := Mark.noConfusion
    have dangling := exists_mem_splitOn other (marks column.toList)
    simp only [empty, false_and, false_or, ne_eq, not_false_eq_true, true_and]
    rw [readable, ← dangling, ← parts, ← exists_or]
    simp only [← and_or_left, not_exists, not_and]

/-- Keys that are read of a column are not empty. -/
theorem keys_of_split {column : String} {tags : List (String × String)}
    (read : split column = .ok tags) : ∀ tag ∈ tags, tag.1 ≠ "" := by
  rcases split_eq_ok_iff.mp read with ⟨-, rfl⟩ | ⟨-, spelled⟩
  · exact fun tag => (absurd · List.not_mem_nil)
  · generalize parts column.toList = parts at spelled
    clear read
    induction spelled with
    | nil => exact fun tag => (absurd · List.not_mem_nil)
    | cons here later ih => exact List.forall_mem_cons.mpr ⟨key_of_spells here, ih⟩

/-- **Columns and tags.**  Tags are read back from their column exactly if all of them have keys.
What is read of a column has keys, so it is read back from its own column, and a column cannot be
read exactly if it is broken. -/
theorem split_and_join (tags : List (String × String)) (column : String) :
    (split (join tags) = .ok tags ↔ ∀ tag ∈ tags, tag.1 ≠ "")
      ∧ match split column with
        | .ok read => (∀ tag ∈ read, tag.1 ≠ "") ∧ split (join read) = .ok read ∧ ¬ Broken column
        | .error _ => Broken column := by
  refine ⟨⟨keys_of_split, split_join⟩, ?_⟩
  have readable := exists_split_iff column
  cases found : split column with
  | ok read =>
      have named := keys_of_split found
      exact ⟨named, split_join named, readable.mp ⟨read, found⟩⟩
  | error defect =>
      by_contra sound
      obtain ⟨read, split_read⟩ := readable.mpr sound
      rw [found] at split_read
      cases split_read

end Column

end TimeSeries
