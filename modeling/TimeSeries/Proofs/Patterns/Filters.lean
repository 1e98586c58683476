import Mathlib.Data.List.Forall2
import TimeSeries.TagFilter

/-!
# Compiled tag filters

A tag filter is compiled pattern by pattern: it has the keys of the texts that it was compiled from,
each with the pattern that its text writes (`TagFilter.mem_patterns_iff`).

Main statement: `TagFilter.accepts_iff_of_compile`, that it accepts the tags that have, for each of
these keys, a value in which the pattern is found.
-/

set_option autoImplicit false

namespace TimeSeries

/-- Where a list is read without a failure each item is. -/
theorem forall₂_of_mapM {α β : Type} {read : α → Except Failure β} {items : List α}
    {results : List β} (done : items.mapM read = .ok results) :
    List.Forall₂ (fun item result => read item = .ok result) items results := by
  induction items generalizing results with
  | nil =>
      cases done
      exact .nil
  | cons item items ih =>
      rw [List.mapM_cons] at done
      cases first : read item with
      | error failure =>
          rw [first] at done
          cases done
      | ok result =>
          cases rest : items.mapM read with
          | error failure =>
              rw [first, rest] at done
              cases done
          | ok others =>
              rw [first, rest] at done
              cases done
              exact .cons first (ih rest)

/-- What the items and their results have in common, in the order of the list. -/
theorem map_eq_of_mapM {α β γ : Type} {read : α → Except Failure β} {items : List α}
    {results : List β} (done : items.mapM read = .ok results) {before : α → γ} {after : β → γ}
    (each : ∀ item result, read item = .ok result → before item = after result) :
    items.map before = results.map after := by
  rw [← List.forall₂_eq_eq_eq, List.forall₂_map_left_iff, List.forall₂_map_right_iff]
  exact (forall₂_of_mapM done).imp fun {item result} => each item result

namespace TagFilter

variable {patterns : SortedMap String String} {filter : TagFilter} {tags : Tags}

/-- A filter is compiled pattern by pattern. -/
theorem map_patterns (compiled : compile patterns = .ok filter) :
    (filter.patterns.map fun read => (read.1, some read.2))
      = patterns.toList.map fun written => (written.1, Pattern.ofWhole? written.2) := by
  rw [compile] at compiled
  generalize done : (List.mapM _ _ : Except Failure (List (String × Pattern))) = results at compiled
  cases results with
  | error failure => cases compiled
  | ok read =>
      cases compiled
      refine (map_eq_of_mapM done fun written read known => ?_).symm
      cases found : Pattern.ofWhole? written.2 with
      | none =>
          simp only [found] at known
          cases known
      | some pattern =>
          simp only [found] at known
          cases known
          rfl

/-- The patterns of a compiled filter are those of the texts. -/
theorem mem_patterns_iff (compiled : compile patterns = .ok filter) {key : String}
    {pattern : Pattern} : (key, pattern) ∈ filter.patterns
      ↔ ∃ text, patterns.get? key = some text ∧ Pattern.ofWhole? text = some pattern := by
  have read : (key, pattern) ∈ filter.patterns
      ↔ (key, some pattern) ∈ filter.patterns.map fun read => (read.1, some read.2) := by
    simp
  rw [read, map_patterns compiled, List.mem_map]
  constructor
  · rintro ⟨⟨named, text⟩, member, same⟩
    obtain ⟨rfl, known⟩ := Prod.mk.inj same
    exact ⟨text, (SortedMap.mem_toList_iff _ _ _).mp member, known⟩
  · rintro ⟨text, asked, known⟩
    exact ⟨(key, text), (SortedMap.mem_toList_iff _ _ _).mpr asked, by rw [known]⟩

/-- Every key that is asked for has a pattern. -/
theorem exists_mem_patterns (compiled : compile patterns = .ok filter) {key text : String}
    (asked : patterns.get? key = some text) :
    ∃ pattern, (key, pattern) ∈ filter.patterns := by
  have written : (key, Pattern.ofWhole? text) ∈ patterns.toList.map fun written =>
      (written.1, Pattern.ofWhole? written.2) :=
    List.mem_map.mpr ⟨(key, text), (SortedMap.mem_toList_iff _ _ _).mpr asked, rfl⟩
  rw [← map_patterns compiled, List.mem_map] at written
  obtain ⟨⟨named, pattern⟩, member, same⟩ := written
  cases (Prod.mk.inj same).1
  exact ⟨pattern, member⟩

/-- A compiled filter accepts the tags in whose values its patterns are found. -/
theorem accepts_iff_of_compile (compiled : compile patterns = .ok filter) :
    filter.accepts tags = true ↔ ∀ key text, patterns.get? key = some text →
      ∃ pattern value, Pattern.ofWhole? text = some pattern ∧ tags.get? key = some value
        ∧ pattern.isFoundIn value = true := by
  rw [accepts, List.all_eq_true]
  constructor
  · intro all key text asked
    obtain ⟨pattern, member⟩ := exists_mem_patterns compiled asked
    obtain ⟨other, same, known⟩ := (mem_patterns_iff compiled).mp member
    have accepted := all _ member
    cases found : tags.get? key with
    | none =>
        simp only [found] at accepted
        cases accepted
    | some value =>
        simp only [found] at accepted
        rw [asked] at same
        cases same
        exact ⟨pattern, value, known, rfl, accepted⟩
  · rintro matching ⟨key, pattern⟩ member
    obtain ⟨text, asked, known⟩ := (mem_patterns_iff compiled).mp member
    obtain ⟨other, value, same, found, fits⟩ := matching key text asked
    rw [known] at same
    cases same
    simp only [found, fits]

end TagFilter

end TimeSeries
