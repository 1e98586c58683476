import TimeSeries.Proofs.Cursor.Presents

/-!
# Reading on past failures

A move that fails has moved nonetheless, so a failure need not end a reading: whoever reads may go on
from where the cursor stands, as long as it stands on an entry.  What is met in this way is the
`Course` of a move: the failure of the move itself, and then the entries, each with the failure met in
moving on from it.

A layer that looks for entries may meet several failures on the way to one, and reports the first.
What it meets one by one, entries and failures in their order, are outcomes; they make a course by
`Course.ofOutcomes`.

Entries between which no failure is met are a strip.  A course falls into strips, and `strips_ofOutcomes`
says that these are the strips of the outcomes, except that nothing is left of a strip without
entries in front of a failure.  The strips tell how a cursor moves on: within a strip nothing fails,
and at its end moving on does, unless the strip is the last.

Main statements: `course_of_top` and `course_of_finished`, by which a course is followed move by
move, and `Lookahead.exists_next_of_strips` for a cursor that looks ahead.
-/

set_option autoImplicit false

namespace TimeSeries

/-- What is met in reading on after a move, whatever fails. -/
@[ext]
structure Course where
  /-- The failure that the move met. -/
  failure : Option Failure
  /-- Every entry that is presented, each with the failure met in moving on from it. -/
  readings : List (Entry × Option Failure)

namespace Course

/-- The entries that are read. -/
def entries (course : Course) : List Entry := course.readings.map Prod.fst

/-- A course before which a failure may have been met. -/
def after (earlier : Option Failure) (course : Course) : Course :=
  ⟨Failure.first earlier course.failure, course.readings⟩

/-- A course with an entry in front of it. -/
def behind (entry : Entry) (course : Course) : Course :=
  ⟨none, (entry, course.failure) :: course.readings⟩

@[simp] theorem after_none (course : Course) : course.after none = course := rfl

theorem after_after (first second : Option Failure) (course : Course) :
    (course.after second).after first = course.after (Failure.first first second) :=
  Course.ext Option.or_assoc.symm rfl

@[simp] theorem entries_after (earlier : Option Failure) (course : Course) :
    (course.after earlier).entries = course.entries := rfl

@[simp] theorem entries_behind (entry : Entry) (course : Course) :
    (course.behind entry).entries = entry :: course.entries := rfl

/-! ## Outcomes -/

/-- The course of what is met one by one. -/
def ofOutcomes : List (Except Failure Entry) → Course
  | [] => ⟨none, []⟩
  | .ok entry :: rest => (ofOutcomes rest).behind entry
  | .error failure :: rest => (ofOutcomes rest).after (some failure)

@[simp] theorem entries_ofOutcomes (outcomes : List (Except Failure Entry)) :
    (ofOutcomes outcomes).entries = outcomes.filterMap Except.toOption := by
  induction outcomes with
  | nil => rfl
  | cons outcome rest ih =>
      cases outcome with
      | error failure => exact ih
      | ok entry => exact congrArg (entry :: ·) ih

/-- Where nothing fails, the course is that of the entries. -/
theorem ofOutcomes_map_ok (entries : List Entry) :
    ofOutcomes (entries.map .ok) = ⟨none, entries.map fun entry => (entry, none)⟩ := by
  induction entries with
  | nil => rfl
  | cons entry rest ih => rw [List.map_cons, ofOutcomes, ih]; rfl

/-! ## Strips -/

/-- The entries between which no failure is met, up to each failure and behind the last. -/
def strips : List (Entry × Option Failure) → List (List Entry)
  | [] => [[]]
  | (entry, none) :: rest => (strips rest).modifyHead (entry :: ·)
  | (entry, some _) :: rest => [entry] :: strips rest

/-- The entries between failures. -/
def stripsOf : List (Except Failure Entry) → List (List Entry)
  | [] => [[]]
  | .ok entry :: rest => (stripsOf rest).modifyHead (entry :: ·)
  | .error _ :: rest => [] :: stripsOf rest

/-- Strips without those in which there is nothing, other than the last. -/
def tidy : List (List Entry) → List (List Entry)
  | [] :: strip :: behind => tidy (strip :: behind)
  | strip :: behind => strip :: tidy behind
  | [] => []

theorem exists_strips (readings : List (Entry × Option Failure)) :
    ∃ strip behind, strips readings = strip :: behind := by
  induction readings with
  | nil => exact ⟨_, _, rfl⟩
  | cons reading rest ih =>
      obtain ⟨strip, behind, split⟩ := ih
      obtain ⟨entry, failure⟩ := reading
      cases failure with
      | none => exact ⟨entry :: strip, behind, by rw [strips, split]; rfl⟩
      | some cause => exact ⟨_, _, rfl⟩

theorem exists_stripsOf (outcomes : List (Except Failure Entry)) :
    ∃ strip behind, stripsOf outcomes = strip :: behind := by
  induction outcomes with
  | nil => exact ⟨_, _, rfl⟩
  | cons outcome rest ih =>
      obtain ⟨strip, behind, split⟩ := ih
      cases outcome with
      | error failure => exact ⟨_, _, rfl⟩
      | ok entry => exact ⟨entry :: strip, behind, by rw [stripsOf, split]; rfl⟩

theorem stripsOf_ne_nil (outcomes : List (Except Failure Entry)) : stripsOf outcomes ≠ [] := by
  obtain ⟨strip, behind, split⟩ := exists_stripsOf outcomes
  rw [split]
  exact List.cons_ne_nil _ _

theorem tidy_nil_cons {strips : List (List Entry)} (some_strips : strips ≠ []) :
    tidy ([] :: strips) = tidy strips := by
  cases strips with
  | nil => exact absurd rfl some_strips
  | cons strip behind => rw [tidy]

theorem tidy_cons_cons (entry : Entry) (strip : List Entry) (behind : List (List Entry)) :
    tidy ((entry :: strip) :: behind) = (entry :: strip) :: tidy behind := by
  rw [tidy]
  simp

/-- The strips of a course are those of its outcomes, tidied. -/
theorem strips_ofOutcomes (outcomes : List (Except Failure Entry)) :
    strips (ofOutcomes outcomes).readings = tidy (stripsOf outcomes) := by
  induction outcomes with
  | nil => rfl
  | cons outcome rest ih =>
      cases outcome with
      | error failure =>
          rw [stripsOf, tidy_nil_cons (stripsOf_ne_nil rest)]
          exact ih
      | ok entry =>
          cases rest with
          | nil => rfl
          | cons next rest =>
              cases next with
              | ok second =>
                  -- the second entry joins the strip of the first
                  obtain ⟨strip, behind, split⟩ := exists_stripsOf rest
                  rw [stripsOf, split, List.modifyHead_cons, tidy_cons_cons] at ih
                  show (strips (ofOutcomes (.ok second :: rest)).readings).modifyHead (entry :: ·) = _
                  rw [ih, stripsOf, stripsOf, split, List.modifyHead_cons, List.modifyHead_cons,
                    List.modifyHead_cons, tidy_cons_cons]
              | error failure =>
                  -- the failure ends the strip of the entry
                  show [entry] :: strips (ofOutcomes (.error failure :: rest)).readings = _
                  rw [ih, stripsOf, stripsOf, List.modifyHead_cons, tidy_cons_cons,
                    tidy_nil_cons (stripsOf_ne_nil rest)]

theorem tidy_ne_nil {strips : List (List Entry)} (some_strips : strips ≠ []) :
    tidy strips ≠ [] := by
  fun_induction tidy strips with
  | case1 strip behind ih => exact ih (List.cons_ne_nil _ _)
  | case2 strip behind => exact List.cons_ne_nil _ _
  | case3 => exact some_strips

/-- Without failures, all entries are one strip. -/
theorem strips_map_none (entries : List Entry) :
    strips (entries.map fun entry => (entry, none)) = [entries] := by
  induction entries with
  | nil => rfl
  | cons entry entries ih => rw [List.map_cons, strips, ih]; rfl

section

variable {first : Entry} {rest : List Entry} {behind : List (List Entry)}
  {readings : List (Entry × Option Failure)}

/-- Only if nothing is read, the first strip is empty. -/
theorem eq_nil_of_strips (split : strips readings = [] :: behind) :
    readings = [] ∧ behind = [] := by
  cases readings with
  | nil => exact ⟨rfl, (List.cons.inj split).2.symm⟩
  | cons reading onward =>
      obtain ⟨strip, later, onwardSplit⟩ := exists_strips onward
      obtain ⟨entry, failure⟩ := reading
      cases failure <;> simp [strips, onwardSplit] at split

/-- The first entry of the first strip is read first. -/
theorem head?_of_strips (split : strips readings = (first :: rest) :: behind) :
    readings.head?.map Prod.fst = some first := by
  cases readings with
  | nil => cases split
  | cons reading onward =>
      obtain ⟨strip, later, onwardSplit⟩ := exists_strips onward
      obtain ⟨entry, failure⟩ := reading
      cases failure <;> rw [strips, onwardSplit] at split <;> cases split <;> rfl

/-- Within a strip, nothing fails in moving on. -/
theorem exists_of_strips (split : strips readings = (first :: rest) :: behind)
    (within : rest ≠ [] ∨ behind = []) :
    ∃ onward, readings = (first, none) :: onward ∧ strips onward = rest :: behind := by
  cases readings with
  | nil => cases split
  | cons reading onward =>
      obtain ⟨strip, later, onwardSplit⟩ := exists_strips onward
      obtain ⟨entry, failure⟩ := reading
      cases failure with
      | none =>
          rw [strips, onwardSplit] at split
          cases split
          exact ⟨onward, rfl, onwardSplit⟩
      | some cause =>
          rw [strips, onwardSplit] at split
          cases split
          simp at within

/-- At the end of a strip, moving on fails. -/
theorem exists_of_strips_end {next : List Entry}
    (split : strips readings = [first] :: next :: behind) :
    ∃ cause onward, readings = (first, some cause) :: onward ∧ strips onward = next :: behind := by
  cases readings with
  | nil => cases split
  | cons reading onward =>
      obtain ⟨strip, later, onwardSplit⟩ := exists_strips onward
      obtain ⟨entry, failure⟩ := reading
      cases failure with
      | none =>
          rw [strips, onwardSplit] at split
          cases split
          cases (eq_nil_of_strips onwardSplit).2
      | some cause =>
          rw [strips, onwardSplit] at split
          cases split
          exact ⟨cause, onward, rfl, onwardSplit⟩

end

/-- A failure comes first if nothing is read up to the first failure. -/
theorem failure_ofOutcomes_eq_none_iff (outcomes : List (Except Failure Entry)) :
    (ofOutcomes outcomes).failure = none
      ↔ ¬ ∃ strip behind, stripsOf outcomes = [] :: strip :: behind := by
  cases outcomes with
  | nil => simp [ofOutcomes, stripsOf]
  | cons outcome rest =>
      obtain ⟨strip, behind, split⟩ := exists_stripsOf rest
      cases outcome with
      | ok entry => simp [ofOutcomes, Course.behind, stripsOf, split]
      | error failure => simp [ofOutcomes, after, Failure.first, stripsOf, split]

/-- Entries that are met before anything else belong to the first strip. -/
theorem stripsOf_append (entries : List Entry) (outcomes : List (Except Failure Entry)) :
    stripsOf (entries.map .ok ++ outcomes) = (stripsOf outcomes).modifyHead (entries ++ ·) := by
  induction entries with
  | nil =>
      obtain ⟨strip, behind, split⟩ := exists_stripsOf outcomes
      rw [List.map_nil, List.nil_append, split]
      rfl
  | cons entry entries ih =>
      rw [List.map_cons, List.cons_append, stripsOf, ih, List.modifyHead_modifyHead]
      rfl

end Course

namespace Cursor

variable {σ : Type} [Cursor σ]

/-- What is met in reading on after a move. -/
def course (moved : Moved σ) : Course := ⟨moved.2, readings moved.1⟩

/-- Everything that is read in a range, whatever fails on the way. -/
def scan (range : KeyRange) (cursor : σ) : List Entry := (course (seek range cursor)).entries

theorem readings_of_finished {cursor : σ} (nothing : top cursor = none) : readings cursor = [] := by
  rw [readings.eq_def]
  split
  · rfl
  case _ found => rw [nothing] at found; cases found

theorem readings_of_top {cursor : σ} {entry : Entry} (here : top cursor = some entry) :
    readings cursor = (entry, (next cursor).2) :: readings (next cursor).1 := by
  rw [readings.eq_def]
  split
  case _ nothing => rw [here] at nothing; cases nothing
  case _ found => rw [here] at found; cases found; rfl

theorem head?_readings (cursor : σ) : (readings cursor).head?.map Prod.fst = top cursor := by
  cases here : top cursor with
  | none => rw [readings_of_finished here]; rfl
  | some entry => rw [readings_of_top here]; rfl

/-- What is read tells how the cursor moves on. -/
theorem exists_next_of_readings {cursor : σ} {first : Entry} {failure : Option Failure}
    {onward : List (Entry × Option Failure)} (read : readings cursor = (first, failure) :: onward) :
    top cursor = some first ∧ ∃ later, next cursor = (later, failure) ∧ readings later = onward := by
  cases here : top cursor with
  | none => rw [readings_of_finished here] at read; cases read
  | some entry =>
      rw [readings_of_top here, List.cons.injEq, Prod.mk.injEq] at read
      obtain ⟨⟨rfl, rfl⟩, rfl⟩ := read
      exact ⟨rfl, _, rfl, rfl⟩

theorem top_of_readings_nil {cursor : σ} (read : readings cursor = []) : top cursor = none := by
  rw [← head?_readings, read]
  rfl

theorem course_of_finished {cursor : σ} (nothing : top cursor = none) (failure : Option Failure) :
    course (cursor, failure) = (Course.ofOutcomes []).after failure :=
  Course.ext Option.or_none.symm (readings_of_finished nothing)

/-- An entry is read, and then what is met in moving on. -/
theorem course_of_top {cursor : σ} {entry : Entry} (here : top cursor = some entry)
    (failure : Option Failure) :
    course (cursor, failure) = ((course (next cursor)).behind entry).after failure :=
  Course.ext Option.or_none.symm (readings_of_top here)

/-- A cursor on which no move fails presents its entries. -/
theorem presents_iff {cursor : σ} {entries : List Entry} :
    Presents cursor entries ↔ readings cursor = entries.map fun entry => (entry, none) := by
  constructor
  · intro presents
    induction presents with
    | finished nothing => exact readings_of_finished nothing
    | entry here moved onward ih => rw [readings_of_top here, moved, ih]; rfl
  · intro read
    induction entries generalizing cursor with
    | nil =>
        cases here : top cursor with
        | none => exact .finished here
        | some entry => rw [readings_of_top here] at read; cases read
    | cons first rest ih =>
        cases here : top cursor with
        | none => rw [readings_of_finished here] at read; cases read
        | some entry =>
            rw [readings_of_top here, List.map_cons, List.cons.injEq, Prod.mk.injEq] at read
            obtain ⟨⟨rfl, fine⟩, onward⟩ := read
            exact .entry here (Prod.ext rfl fine) (ih onward)

end Cursor

open Cursor (readings)

/-! ## Looking ahead -/

namespace Lookahead

variable {σ : Type} [Cursor σ]

/-- What is held is read first, and no failure is met behind it. -/
theorem readings_eq (cursor : Lookahead σ) :
    readings cursor = (cursor.held.toList.map fun entry => (entry, none)) ++ readings cursor.below := by
  obtain ⟨below, held⟩ := cursor
  have unheld : ∀ below : σ, readings (Lookahead.mk below none) = readings below := by
    intro below
    fun_induction readings below with
    | case1 below nothing => exact @Cursor.readings_of_finished _ _ (Lookahead.mk below none) nothing
    | case2 below entry here ih =>
        rw [@Cursor.readings_of_top _ _ (Lookahead.mk below none) _ here]
        exact congrArg (_ :: ·) ih
  cases held with
  | none => exact unheld below
  | some entry =>
      rw [@Cursor.readings_of_top _ _ (Lookahead.mk below (some entry)) _ rfl]
      exact congrArg (_ :: ·) (unheld below)

variable {cursor : Lookahead σ} {first : Entry} {onward : List (Entry × Option Failure)}

/-- Looking ahead shows the next entry and changes nothing about what is read. -/
theorem exists_peek_of_readings (read : readings cursor = (first, none) :: onward) :
    ∃ ahead, cursor.peek = (ahead, .ok (onward.head?.map Prod.fst))
      ∧ readings ahead = (first, none) :: onward := by
  obtain ⟨below, held⟩ := cursor
  rw [readings_eq] at read
  cases held with
  | some entry =>
      obtain ⟨same, rfl⟩ := List.cons.inj read
      cases same
      refine ⟨⟨below, some first⟩, ?_, by rw [readings_eq]; rfl⟩
      exact congrArg (fun seen => (_, Except.ok seen)) (Cursor.head?_readings below).symm
  | none =>
      obtain ⟨here, later, moved, rfl⟩ := Cursor.exists_next_of_readings read
      refine ⟨⟨later, some first⟩, ?_, by rw [readings_eq]; rfl⟩
      simp only [peek, here, moved, Cursor.head?_readings]

/-- Where moving on fails, looking ahead has moved on. -/
theorem exists_peek_of_failing {cause : Failure}
    (read : readings cursor = (first, some cause) :: onward) :
    ∃ later, cursor.peek = (later, .error cause) ∧ readings later = onward := by
  obtain ⟨below, held⟩ := cursor
  rw [readings_eq] at read
  cases held with
  | some entry => cases read
  | none =>
      obtain ⟨here, later, moved, rfl⟩ := Cursor.exists_next_of_readings read
      refine ⟨⟨later, none⟩, ?_, readings_eq _⟩
      simp only [peek, here, moved]

/-- Within a strip, the next entry is seen and moved on to. -/
theorem exists_next_of_strips {rest : List Entry} {behind : List (List Entry)}
    (split : Course.strips (readings cursor) = (first :: rest) :: behind)
    (within : rest ≠ [] ∨ behind = []) :
    ∃ ahead later, cursor.peek = (ahead, .ok rest.head?) ∧ ahead.next = (later, none)
      ∧ Course.strips (readings later) = rest :: behind := by
  obtain ⟨onward, read, onwardSplit⟩ := Course.exists_of_strips split within
  obtain ⟨ahead, peeked, readAhead⟩ := exists_peek_of_readings read
  obtain ⟨_, later, moved, rfl⟩ := Cursor.exists_next_of_readings readAhead
  refine ⟨ahead, later, ?_, moved, onwardSplit⟩
  rw [peeked]
  cases rest with
  | nil => rw [(Course.eq_nil_of_strips onwardSplit).1]; rfl
  | cons second rest => rw [Course.head?_of_strips onwardSplit]; rfl

/-- Where nothing fails, what the cursor shows is all one strip. -/
theorem Shows.strips {entries : List Entry} (shows : cursor.Shows entries) :
    Course.strips (readings cursor) = [entries] := by
  obtain ⟨rest, presents, rfl⟩ := shows
  rw [readings_eq, Cursor.presents_iff.mp presents, ← List.map_append]
  exact Course.strips_map_none _

end Lookahead

end TimeSeries
