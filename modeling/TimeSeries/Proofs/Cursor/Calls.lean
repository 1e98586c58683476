import TimeSeries.Cursor.Combined
import TimeSeries.Cursor.Expanded
import TimeSeries.Cursor.Filtered
import TimeSeries.Cursor.Retained
import TimeSeries.Cursor.Sorted

/-!
# What calls keep

Whoever uses a cursor moves it by calls, and may go on after a call that failed.  What a layer is
built with never changes, and a layer changes the cursor below it by such calls only.  So what every
call keeps of a cursor, every call of a layer keeps of the cursor below it: an invariant of the lowest
cursor is one of the whole stack.

Main statements: `kept` for each kind of layer.
-/

set_option autoImplicit false

namespace TimeSeries

namespace Cursor

/-- A call by which a cursor is moved. -/
inductive Call where
  | seek (range : KeyRange)
  | next
  deriving DecidableEq, Repr

variable {σ : Type} [Cursor σ]

def Call.move (call : Call) (cursor : σ) : Moved σ :=
  match call with
  | .seek range => Cursor.seek range cursor
  | .next => Cursor.next cursor

/-- The cursor after some calls, whatever these met. -/
def after (calls : List Call) (cursor : σ) : σ :=
  calls.foldl (fun cursor call => (call.move cursor).1) cursor

/-- The cursor after so many moves. -/
def nexts (count : Nat) (cursor : σ) : σ := after (List.replicate count .next) cursor

theorem nexts_succ (count : Nat) (cursor : σ) :
    nexts (count + 1) cursor = nexts count (next cursor).1 := rfl

/-- Every call keeps what holds of a cursor. -/
structure Kept (holds : σ → Prop) : Prop where
  seek : ∀ {cursor : σ} (range : KeyRange), holds cursor → holds (Cursor.seek range cursor).1
  next : ∀ {cursor : σ}, holds cursor → holds (Cursor.next cursor).1

variable {holds : σ → Prop}

theorem Kept.move (kept : Kept holds) {cursor : σ} (before : holds cursor) (call : Call) :
    holds (call.move cursor).1 := by
  cases call with
  | seek range => exact kept.seek range before
  | next => exact kept.next before

/-- What every call keeps holds after all of them. -/
theorem Kept.after (kept : Kept holds) {cursor : σ} (before : holds cursor) (calls : List Call) :
    holds (Cursor.after calls cursor) := by
  induction calls generalizing cursor with
  | nil => exact before
  | cons call calls ih => exact ih (kept.move before call)

theorem Kept.of_next (kept : Kept holds) {cursor later : σ} {failure : Option Failure}
    (before : holds cursor) (moved : Cursor.next cursor = (later, failure)) : holds later := by
  have behind := kept.next before
  rwa [moved] at behind

theorem Kept.of_seek (kept : Kept holds) {cursor sought : σ} {range : KeyRange}
    {failure : Option Failure} (before : holds cursor)
    (moved : Cursor.seek range cursor = (sought, failure)) : holds sought := by
  have behind := kept.seek range before
  rwa [moved] at behind

end Cursor

open Cursor (Kept)

theorem SortedEntries.kept (entries : List Entry) :
    Kept fun cursor : SortedEntries => cursor.entries = entries :=
  ⟨fun _ same => same, fun same => same⟩

variable {σ : Type} [Cursor σ] {holds : σ → Prop}

/-! ## Expanded entries -/

namespace Expanded

theorem holds_fill (kept : Kept holds) {range : KeyRange} {below : σ} (before : holds below)
    (pending : Option OpenRun) (failure : Option Failure) :
    holds (fill range below pending failure).1.below := by
  fun_induction fill range below pending failure with
  | case1 => exact before
  | case2 below failure run rest stepped ih => exact ih before
  | case3 below failure run stepped ih => exact ih before
  | case4 below failure run cause stepped ih => exact ih before
  | case5 => exact before
  | case6 below failure entry here later cause stepped => exact kept.of_next before stepped
  | case7 below failure entry here later stepped _ points _ ih =>
      exact ih (kept.of_next before stepped)
  | case8 below failure entry here later stepped _ cause _ ih =>
      exact ih (kept.of_next before stepped)
  | case9 below failure entry here later stepped => exact kept.of_next before stepped
  | case10 below failure entry here later stepped _ _ ih =>
      exact ih (kept.of_next before stepped)

theorem kept (kept : Kept holds) : Kept fun cursor : Expanded σ => holds cursor.below where
  next before := holds_fill kept before _ _
  seek {cursor} range before := by
    show holds (Expanded.seek range cursor).1.below
    unfold Expanded.seek
    split
    case _ moved => exact kept.of_seek before moved
    case _ moved => exact holds_fill kept (kept.of_seek before moved) _ _

end Expanded

/-! ## Retained entries -/

namespace Retained

theorem holds_skip (kept : Kept holds) (filter : RetentionFilter) {below : σ}
    (before : holds below) : holds (skip filter below).1 := by
  fun_induction skip filter below with
  | case1 => exact before
  | case2 => exact before
  | case3 below entry here _ later failure stepped => exact kept.of_next before stepped
  | case4 below entry here _ later stepped ih => exact ih (kept.of_next before stepped)

theorem kept (kept : Kept holds) (filter : RetentionFilter) :
    Kept fun cursor : Retained σ => cursor.filter = filter ∧ holds cursor.below where
  next before := ⟨before.1, holds_skip kept _ (kept.next before.2)⟩
  seek range before := ⟨before.1, holds_skip kept _ (kept.seek range before.2)⟩

end Retained

/-! ## Looking ahead -/

namespace Lookahead

theorem kept (kept : Kept holds) : Kept fun cursor : Lookahead σ => holds cursor.below where
  next {cursor} before := by
    show holds (Lookahead.next cursor).1.below
    unfold Lookahead.next
    split
    · exact before
    · exact kept.next before
  seek range before := kept.seek range before

theorem holds_peek (kept : Kept holds) {cursor : Lookahead σ} (before : holds cursor.below) :
    holds (peek cursor).1.below := by
  unfold peek
  split
  · exact before
  · split
    · exact before
    · split
      case _ moved => exact kept.of_next before moved
      case _ moved => exact kept.of_next before moved

end Lookahead

/-! ## Combined entries -/

namespace Combined

theorem holds_leave (kept : Kept holds) (run : List Entry) {below : Lookahead σ}
    (before : holds below.below) : holds (collect.leave run below).1.below := by
  have behind := (Lookahead.kept kept).next before
  unfold collect.leave
  split
  case _ moved => exact (Lookahead.kept kept).of_next before moved
  case _ moved => exact (Lookahead.kept kept).of_next before moved

theorem holds_collect (kept : Kept holds) (window : Window) (first : Key) (run : List Entry)
    {below : Lookahead σ} (before : holds below.below) :
    holds (collect window first run below).1.below := by
  have ahead_of : ∀ {below ahead : Lookahead σ} {seen}, below.peek = (ahead, seen) →
      holds below.below → holds ahead.below := by
    intro below ahead seen peeked before
    have behind := Lookahead.holds_peek kept before
    rwa [peeked] at behind
  fun_induction collect window first run below with
  | case1 run below ahead failure peeked => exact ahead_of peeked before
  | case2 run below ahead entry peeked _ later failure stepped =>
      exact (Lookahead.kept kept).of_next (ahead_of peeked before) stepped
  | case3 run below ahead entry peeked _ later stepped ih =>
      exact ih ((Lookahead.kept kept).of_next (ahead_of peeked before) stepped)
  | case4 run below ahead entry peeked _ => exact holds_leave kept run (ahead_of peeked before)
  | case5 run below ahead peeked => exact holds_leave kept run (ahead_of peeked before)

theorem holds_fill (kept : Kept holds) (reducer : Reducer) (window : Window) {below : Lookahead σ}
    (before : holds below.below) (output : List Entry) (failure : Option Failure) :
    let filled := (fill reducer window below output failure).1
    filled.reducer = reducer ∧ filled.window = window ∧ holds filled.below.below := by
  have later_of : ∀ {below later : Lookahead σ} {entry : Entry} {result},
      collect window entry.key [entry] below = (later, result) → holds below.below →
      holds later.below := by
    intro below later entry result collected before
    have behind := holds_collect kept window entry.key [entry] before
    rwa [collected] at behind
  fun_induction fill reducer window below output failure with
  | case1 => exact ⟨rfl, rfl, before⟩
  | case2 below output failure _ entry here later cause collected ih =>
      exact ih (later_of collected before)
  | case3 below output failure _ entry here later run collected output cause reduced ih =>
      exact ih (later_of collected before)
  | case4 => exact ⟨rfl, rfl, before⟩

theorem kept (kept : Kept holds) (reducer : Reducer) (window : Window) :
    Kept fun cursor : Combined σ =>
      cursor.reducer = reducer ∧ cursor.window = window ∧ holds cursor.below.below where
  next {cursor} := by
    rintro ⟨rfl, rfl, before⟩
    exact holds_fill kept _ _ before _ _
  seek {cursor} range := by
    rintro ⟨rfl, rfl, before⟩
    show (Combined.seek range cursor).1.reducer = _ ∧ (Combined.seek range cursor).1.window = _
      ∧ holds (Combined.seek range cursor).1.below.below
    unfold Combined.seek
    split
    case _ moved => exact ⟨rfl, rfl, (Lookahead.kept kept).of_seek before moved⟩
    case _ moved => exact holds_fill kept _ _ ((Lookahead.kept kept).of_seek before moved) _ _

end Combined

/-! ## Filtered entries -/

namespace Filtered

theorem holds_fill (kept : Kept holds) {cursor : Filtered σ} (before : holds cursor.below)
    (failure : Option Failure) :
    let filled := (fill cursor failure).1
    filled.filter = cursor.filter ∧ filled.warmUp = cursor.warmUp ∧ filled.scope = cursor.scope
      ∧ holds filled.below := by
  fun_induction fill cursor failure with
  | case1 => exact ⟨rfl, rfl, rfl, before⟩
  | case2 cursor failure entry here later cause stepped =>
      exact ⟨rfl, rfl, rfl, kept.of_next before stepped⟩
  | case3 cursor failure entry here later stepped cause _ ih =>
      exact ih (kept.of_next before stepped)
  | case4 cursor failure entry here later stepped windows _ ih =>
      exact ih (kept.of_next before stepped)
  | case5 cursor failure entry here later stepped windows output _ =>
      exact ⟨rfl, rfl, rfl, kept.of_next before stepped⟩

theorem kept (kept : Kept holds) (filter : MovingFilter) (warmUp : WarmUp) (scope : Scope) :
    Kept fun cursor : Filtered σ => cursor.filter = filter ∧ cursor.warmUp = warmUp
      ∧ cursor.scope = scope ∧ holds cursor.below where
  next {cursor} := by
    rintro ⟨rfl, rfl, rfl, before⟩
    exact holds_fill kept before none
  seek {cursor} range := by
    rintro ⟨rfl, rfl, rfl, before⟩
    show (Filtered.seek range cursor).1.filter = _ ∧ (Filtered.seek range cursor).1.warmUp = _
      ∧ (Filtered.seek range cursor).1.scope = _ ∧ holds (Filtered.seek range cursor).1.below
    unfold Filtered.seek
    split
    case _ moved => exact ⟨rfl, rfl, rfl, kept.of_seek before moved⟩
    case _ sought moved =>
        exact @holds_fill _ _ _ kept ⟨sought, _, _, _, .empty, _⟩ (kept.of_seek before moved) none

end Filtered

end TimeSeries
