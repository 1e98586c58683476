import TimeSeries.Proofs.Cursor.Excerpts

/-!
# Looking ahead and reading on

Whoever looks ahead and moves on in any pattern should read what the cursor below presents, entry by
entry, as if only moving on.  The layer stands where the cursor below stood before it was moved to be
looked at (`Lookahead.StandsAt`), and every call either stays there or moves on as the cursor below
does by itself.  To look ahead stays, unless the cursor below fails on the way: it has moved on then,
nothing is held, and the entry that was on top is passed by a call that was only to look.

So each place of the cursor below is passed by one call (`Lookahead.passed`), and the entries that a
reader misses are those passed in looking ahead.

Main statement: `Lookahead.peek_moves_where_next_fails`.
-/

set_option autoImplicit false

namespace TimeSeries

open Cursor (readings)

namespace Lookahead

variable {σ : Type} [Cursor σ]

/-! ## Where the cursor stands -/

/-- Either nothing is held, or the top is and the cursor below has moved on from there. -/
inductive StandsAt (source : σ) : Lookahead σ → Prop
  | level : StandsAt source ⟨source, none⟩
  | ahead {entry : Entry} {later : σ} (here : Cursor.top source = some entry)
      (moved : Cursor.next source = (later, none)) : StandsAt source ⟨later, some entry⟩

namespace StandsAt

variable {source : σ} {cursor : Lookahead σ}

theorem top_eq (stands : cursor.StandsAt source) : top cursor = Cursor.top source := by
  cases stands with
  | level => rfl
  | ahead here moved => exact here.symm

theorem readings_eq (stands : cursor.StandsAt source) : readings cursor = readings source := by
  rw [Lookahead.readings_eq]
  cases stands with
  | level => rfl
  | ahead here moved => rw [Cursor.readings_of_top here, moved]; rfl

/-- Moving on is moving on below. -/
theorem next (stands : cursor.StandsAt source) :
    cursor.next.2 = (Cursor.next source).2 ∧ cursor.next.1.StandsAt (Cursor.next source).1 := by
  cases stands with
  | level => exact ⟨rfl, .level⟩
  | ahead here moved => rw [moved]; exact ⟨rfl, .level⟩

/-- Where there is nothing to move on from, looking ahead finds nothing. -/
theorem peek_of_finished (stands : cursor.StandsAt source) (nothing : Cursor.top source = none) :
    cursor.peek = (cursor, .ok none) := by
  cases stands with
  | level => simp only [peek, nothing]
  | ahead here moved => rw [nothing] at here; cases here

/-- Where moving on fails, looking ahead is moving on. -/
theorem peek_of_failing {entry : Entry} {failure : Failure} (stands : cursor.StandsAt source)
    (here : Cursor.top source = some entry) (failed : (Cursor.next source).2 = some failure) :
    cursor.peek = (cursor.next.1, .error failure) := by
  cases stands with
  | ahead _ moved => rw [moved] at failed; cases failed
  | level =>
      have moved : Cursor.next source = ((Cursor.next source).1, some failure) :=
        Prod.ext rfl failed
      simp only [peek, Lookahead.next, here]
      rw [moved]

/-- Where moving on does not fail, looking ahead stays and shows what comes next. -/
theorem peek_of_fine {entry : Entry} (stands : cursor.StandsAt source)
    (here : Cursor.top source = some entry) (fine : (Cursor.next source).2 = none) :
    ∃ ahead, cursor.peek = (ahead, .ok (Cursor.top (Cursor.next source).1))
      ∧ ahead.StandsAt source ∧ ahead.next = cursor.next := by
  cases stands with
  | ahead held moved => exact ⟨_, by rw [moved]; rfl, .ahead held moved, rfl⟩
  | level =>
      have moved : Cursor.next source = ((Cursor.next source).1, none) := Prod.ext rfl fine
      refine ⟨⟨(Cursor.next source).1, some entry⟩, ?_, .ahead here moved, ?_⟩
      · simp only [peek, here]
        rw [moved]
      · simp only [Lookahead.next]
        rw [moved]

/-- What looking ahead can do. -/
theorem peek_cases (stands : cursor.StandsAt source) :
    (Cursor.top source = none ∧ cursor.peek = (cursor, .ok none))
      ∨ (∃ ahead, (Cursor.top source).isSome ∧ (Cursor.next source).2 = none
        ∧ cursor.peek = (ahead, .ok (Cursor.top (Cursor.next source).1))
        ∧ ahead.StandsAt source ∧ ahead.next = cursor.next)
      ∨ ∃ failure, (Cursor.top source).isSome ∧ (Cursor.next source).2 = some failure
        ∧ cursor.peek = (cursor.next.1, .error failure) := by
  cases here : Cursor.top source with
  | none => exact .inl ⟨rfl, stands.peek_of_finished here⟩
  | some entry =>
      cases result : (Cursor.next source).2 with
      | none =>
          obtain ⟨ahead, peeked, onward, same⟩ := stands.peek_of_fine here result
          exact .inr (.inl ⟨ahead, rfl, rfl, peeked, onward, same⟩)
      | some failure =>
          exact .inr (.inr ⟨failure, rfl, rfl, stands.peek_of_failing here result⟩)

/-- Looking ahead without failure changes neither the top nor the next move, and shows what comes
next. -/
theorem peek_of_ok {seen : Option Entry} (stands : cursor.StandsAt source)
    (ok : cursor.peek.2 = .ok seen) :
    top cursor.peek.1 = top cursor ∧ cursor.peek.1.next = cursor.next
      ∧ seen = (top cursor).bind fun _ => top cursor.next.1 := by
  rw [stands.top_eq, stands.next.2.top_eq]
  obtain ⟨nothing, peeked⟩ | ⟨ahead, here, -, peeked, onward, same⟩ | ⟨failure, -, -, peeked⟩ :=
    stands.peek_cases
  · rw [peeked] at ok ⊢
    cases ok
    exact ⟨stands.top_eq, rfl, by rw [nothing]; rfl⟩
  · rw [peeked] at ok ⊢
    cases ok
    obtain ⟨entry, here⟩ := Option.isSome_iff_exists.mp here
    exact ⟨onward.top_eq, same, by rw [here]; rfl⟩
  · rw [peeked] at ok
    cases ok

theorem peek_fails_iff {failure : Failure} (stands : cursor.StandsAt source) :
    cursor.peek.2 = .error failure ↔ (top cursor).isSome ∧ cursor.next.2 = some failure := by
  rw [stands.top_eq, stands.next.1]
  obtain ⟨nothing, peeked⟩ | ⟨ahead, here, fine, peeked, -, -⟩ | ⟨cause, here, failed, peeked⟩ :=
    stands.peek_cases
  · simp [peeked, nothing]
  · simp [peeked, fine]
  · simp [peeked, here, failed]

/-- To look ahead in vain is to move on. -/
theorem peek_of_fails {failure : Failure} (stands : cursor.StandsAt source)
    (failed : cursor.peek.2 = .error failure) : cursor.peek.1 = cursor.next.1 := by
  obtain ⟨-, peeked⟩ | ⟨ahead, -, -, peeked, -, -⟩ | ⟨cause, -, -, peeked⟩ := stands.peek_cases
  · rw [peeked] at failed
    cases failed
  · rw [peeked] at failed
    cases failed
  · rw [peeked]

end StandsAt

/-! ## Calls in any pattern -/

/-- What is done to a cursor that can look ahead. -/
inductive Call where
  | next
  | peek
  deriving DecidableEq, Repr

/-- The cursor behind some calls, whatever these met. -/
def after : List Call → Lookahead σ → Lookahead σ
  | [], cursor => cursor
  | .next :: calls, cursor => after calls cursor.next.1
  | .peek :: calls, cursor => after calls cursor.peek.1

/-- The tops that were passed by some calls, each with the call that passed it.  Looking ahead passes
the top if it fails. -/
def passed : List Call → Lookahead σ → List (Option Entry × Call)
  | [], _ => []
  | .next :: calls, cursor => (top cursor, .next) :: passed calls cursor.next.1
  | .peek :: calls, cursor =>
      match cursor.peek with
      | (ahead, .ok _) => passed calls ahead
      | (ahead, .error _) => (top cursor, .peek) :: passed calls ahead

/-- A call passes the place of the cursor below, or stays. -/
theorem StandsAt.call {source : σ} {cursor : Lookahead σ} (stands : cursor.StandsAt source)
    (call : Call) (calls : List Call) :
    (∃ ahead, ahead.StandsAt source ∧ after (call :: calls) cursor = after calls ahead
        ∧ passed (call :: calls) cursor = passed calls ahead)
      ∨ ∃ later, later.StandsAt (Cursor.next source).1
        ∧ after (call :: calls) cursor = after calls later
        ∧ passed (call :: calls) cursor = (Cursor.top source, call) :: passed calls later
        ∧ (call = .peek → (Cursor.top source).isSome ∧ (Cursor.next source).2.isSome) := by
  cases call with
  | next =>
      refine .inr ⟨cursor.next.1, stands.next.2, rfl, ?_, nofun⟩
      rw [passed, stands.top_eq]
  | peek =>
      obtain ⟨-, peeked⟩ | ⟨ahead, -, -, peeked, onward, -⟩ | ⟨failure, here, failed, peeked⟩ :=
        stands.peek_cases
      · refine .inl ⟨cursor, stands, ?_, ?_⟩
        · rw [after, peeked]
        · simp only [passed, peeked]
      · refine .inl ⟨ahead, onward, ?_, ?_⟩
        · rw [after, peeked]
        · simp only [passed, peeked]
      · refine .inr ⟨cursor.next.1, stands.next.2, ?_, ?_, fun _ => ⟨here, by rw [failed]; rfl⟩⟩
        · rw [after, peeked]
        · simp only [passed, peeked, stands.top_eq]

/-- Behind any calls the cursor stands where the one below is after as many moves as places were
passed, and these are the first places of the one below, in order. -/
theorem StandsAt.after {source : σ} {cursor : Lookahead σ} (stands : cursor.StandsAt source)
    (calls : List Call) :
    (after calls cursor).StandsAt (Cursor.nexts (passed calls cursor).length source)
      ∧ ∀ count top call, (passed calls cursor)[count]? = some (top, call) →
        top = Cursor.top (Cursor.nexts count source)
          ∧ (call = .peek → top.isSome ∧ (Cursor.next (Cursor.nexts count source)).2.isSome) := by
  induction calls generalizing cursor source with
  | nil => exact ⟨stands, nofun⟩
  | cons call calls ih =>
      obtain ⟨ahead, onward, after_eq, passed_eq⟩ | ⟨later, onward, after_eq, passed_eq, failing⟩ :=
        stands.call call calls
      · rw [after_eq, passed_eq]
        exact ih onward
      · rw [after_eq, passed_eq]
        obtain ⟨reached, places⟩ := ih onward
        refine ⟨reached, fun count top call found => ?_⟩
        cases count with
        | zero =>
            cases found
            exact ⟨rfl, failing⟩
        | succ count => exact places count top call found

/-- The entries that were passed and those still to be read are what is read of the cursor below. -/
theorem StandsAt.append_readings {source : σ} {cursor : Lookahead σ} (stands : cursor.StandsAt source)
    (calls : List Call) (few : (passed calls cursor).length ≤ (readings source).length) :
    (passed calls cursor).filterMap Prod.fst
        ++ (readings (Lookahead.after calls cursor)).map Prod.fst
      = (readings source).map Prod.fst := by
  obtain ⟨reached, places⟩ := stands.after calls
  have tops : (passed calls cursor).map Prod.fst
      = (((readings source).map Prod.fst).take (passed calls cursor).length).map some := by
    refine List.ext_getElem (by simp [few]) fun count below _ => ?_
    have within : count < (passed calls cursor).length := by simpa using below
    have top_eq := (places count _ _ (List.getElem?_eq_getElem within)).1
    rw [Cursor.nexts, Cursor.top_after_next source (by omega), List.getElem?_map,
      List.getElem?_eq_getElem (by omega)] at top_eq
    rw [List.getElem_map, List.getElem_map, List.getElem_take, List.getElem_map]
    exact top_eq
  have front : (passed calls cursor).filterMap Prod.fst
      = ((readings source).map Prod.fst).take (passed calls cursor).length := by
    have entries := congrArg (List.filterMap id) tops
    rwa [List.filterMap_map, List.filterMap_map, Function.id_comp, Function.id_comp,
      List.filterMap_some] at entries
  rw [front, reached.readings_eq, Cursor.readings_nexts source few, List.map_drop,
    List.take_append_drop]

/-- **Looking ahead moves on exactly where moving on fails.**  After a seek, whatever was done before
and whatever it met, and after any calls that look ahead or move on:

* the cursor stands where the one below is after as many moves as places were passed, with its top,
  what is still to be read and what the next move meets;
* to look ahead without failure leaves the top and the next move as they are, and shows what is on
  top after the next move, or nothing if there is no top;
* to look ahead fails exactly if there is a top and the next move fails, with the same failure, and
  then it has made that move;
* the places that were passed are the first ones of the cursor below, each once and in order, and
  those that were passed in looking ahead are tops from which moving on fails.  All other entries of
  the cursor below were passed in moving on or are still to be read. -/
theorem peek_moves_where_next_fails (below : σ) (held : Option Entry) (range : KeyRange)
    (calls : List Call) :
    let source := Cursor.seek range below
    let sought := Cursor.seek range (Lookahead.mk below held)
    let cursor := after calls sought.1
    let passed := passed calls sought.1
    let here := Cursor.nexts passed.length source.1
    sought.2 = source.2
      ∧ (top cursor = Cursor.top here ∧ readings cursor = readings here
        ∧ cursor.next.2 = (Cursor.next here).2
        ∧ top cursor.next.1 = Cursor.top (Cursor.next here).1)
      ∧ (∀ ahead, cursor.peek.2 = .ok ahead →
          top cursor.peek.1 = top cursor ∧ cursor.peek.1.next = cursor.next
            ∧ ahead = (top cursor).bind fun _ => top cursor.next.1)
      ∧ (∀ failure, cursor.peek.2 = .error failure
          ↔ (top cursor).isSome ∧ cursor.next.2 = some failure)
      ∧ (∀ failure, cursor.peek.2 = .error failure → cursor.peek.1 = cursor.next.1)
      ∧ (∀ count top call, passed[count]? = some (top, call) →
          top = Cursor.top (Cursor.nexts count source.1)
            ∧ (call = .peek →
              top.isSome ∧ (Cursor.next (Cursor.nexts count source.1)).2.isSome))
      ∧ (passed.length ≤ (readings source.1).length →
          passed.filterMap Prod.fst ++ (readings cursor).map Prod.fst
            = (readings source.1).map Prod.fst) := by
  intro source sought cursor passed here
  have start : sought.1.StandsAt source.1 := .level
  obtain ⟨stands, places⟩ := start.after calls
  exact ⟨rfl, ⟨stands.top_eq, stands.readings_eq, stands.next.1, stands.next.2.top_eq⟩,
    fun _ => stands.peek_of_ok, fun _ => stands.peek_fails_iff, fun _ => stands.peek_of_fails, places,
    start.append_readings calls⟩

-- A run that cannot be read lies behind the top, and the top is gone once it has been looked at.
example :
    let strand : Strand := ⟨"m", "h=a", "", ""⟩
    let first := strand.entryAt ⟨1, ⟨1⟩⟩
    let torn : Entry := ⟨strand.key 2, List.replicate 20 0⟩
    let third := strand.entryAt ⟨3, ⟨3⟩⟩
    let below := Expanded.above (SortedEntries.ofList [first, torn, third])
    let sought := (Cursor.seek .all (Lookahead.above below)).1
    top sought = some first ∧ sought.peek.2 = .error (.malformed (.packedLength 20))
      ∧ top sought.peek.1 = some third := by
  refine ⟨?_, ?_, ?_⟩ <;> cbv

end Lookahead

end TimeSeries
