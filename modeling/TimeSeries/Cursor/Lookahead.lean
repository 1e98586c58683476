import TimeSeries.Cursor.Basic

/-!
# Looking ahead

A layer that can show the entry behind its top without moving on.  To look ahead, it moves the
cursor below and holds the top itself; moving on then drops what is held.

When the cursor below fails on the way, the failure is the answer and nothing is held: the top is
then whatever the cursor below stands on.
-/

set_option autoImplicit false

namespace TimeSeries

/-- A cursor that can look ahead. -/
structure Lookahead (σ : Type) where
  below : σ
  /-- The top, if the cursor below already stands on the entry behind it. -/
  held : Option Entry
  deriving DecidableEq, Repr

namespace Lookahead

variable {σ : Type}

/-- Nothing is held over a new layer. -/
def above (below : σ) : Lookahead σ := ⟨below, none⟩

variable [Cursor σ]

def top (cursor : Lookahead σ) : Option Entry :=
  cursor.held.or (Cursor.top cursor.below)

def next (cursor : Lookahead σ) : Moved (Lookahead σ) :=
  match cursor.held with
  | some _ => (⟨cursor.below, none⟩, none)
  | none =>
      let (below, failure) := Cursor.next cursor.below
      (⟨below, none⟩, failure)

/-- Looks at the entry behind the top, if there are both. -/
def peek (cursor : Lookahead σ) : Lookahead σ × Except Failure (Option Entry) :=
  match cursor.held with
  | some _ => (cursor, .ok (Cursor.top cursor.below))
  | none =>
      match Cursor.top cursor.below with
      | none => (cursor, .ok none)
      | some current =>
          match Cursor.next cursor.below with
          | (below, some failure) => (⟨below, none⟩, .error failure)
          | (below, none) => (⟨below, some current⟩, .ok (Cursor.top below))

/-- Dropping what is held is progress. -/
def progress : Progress (Lookahead σ) :=
  Cursor.progress.ofLayer below fun cursor => cursor.held.toList.length

theorem next_beyond (cursor : Lookahead σ) (here : (top cursor).isSome) :
    progress.Beyond (next cursor).1 cursor := by
  obtain ⟨below, held⟩ := cursor
  cases held with
  | some entry =>
      exact Progress.beyond_ofLayer_of_held (.refl _ _) (Nat.lt_succ_self 0)
  | none => exact Progress.beyond_ofLayer_of_below (Cursor.next_beyond below here)

/-- Looking ahead does not move backwards. -/
theorem peek_reaches (cursor : Lookahead σ) : progress.Reaches (peek cursor).1 cursor := by
  obtain ⟨below, held⟩ := cursor
  cases held with
  | some entry => exact .refl _ _
  | none =>
      unfold peek
      simp only
      split
      · exact .refl _ _
      case _ current here =>
        have further := Cursor.next_beyond_of_top here
        split
        case _ moved _ stepped =>
          rw [stepped] at further
          exact .of_beyond (Progress.beyond_ofLayer_of_below further)
        case _ moved stepped =>
          rw [stepped] at further
          exact .of_beyond (Progress.beyond_ofLayer_of_below further)

/-- Looking ahead without failure leaves the top as it is. -/
theorem top_peek {cursor : Lookahead σ} {ahead : Option Entry}
    (seen : (peek cursor).2 = .ok ahead) : top (peek cursor).1 = top cursor := by
  obtain ⟨below, held⟩ := cursor
  cases held with
  | some entry => rfl
  | none =>
      unfold peek at *
      simp only at *
      split at seen
      case _ nothing => rfl
      case _ current here =>
        split at seen
        · cases seen
        · simp only [top, Option.some_or, Option.none_or, here]

/-- What was seen ahead is the top after moving on. -/
theorem top_next_peek {cursor : Lookahead σ} {ahead : Entry}
    (seen : (peek cursor).2 = .ok (some ahead)) :
    top (next (peek cursor).1).1 = some ahead := by
  obtain ⟨below, held⟩ := cursor
  cases held with
  | some entry => exact Except.ok.inj seen
  | none =>
      unfold peek at *
      simp only at *
      split at seen
      · cases seen
      · split at seen
        · cases seen
        · exact Except.ok.inj seen

/-- Looking ahead with a failure has moved on. -/
theorem peek_beyond {cursor : Lookahead σ} {failure : Failure}
    (failed : (peek cursor).2 = .error failure) : progress.Beyond (peek cursor).1 cursor := by
  obtain ⟨below, held⟩ := cursor
  cases held with
  | some entry => cases failed
  | none =>
      unfold peek at *
      simp only at *
      split at failed
      · cases failed
      case _ current here =>
        have further := Cursor.next_beyond_of_top here
        split at failed
        case _ stepped =>
          rw [stepped] at further
          exact Progress.beyond_ofLayer_of_below further
        · cases failed

/-- Where there is an entry to be seen ahead, there is a top. -/
theorem isSome_top_of_peek {cursor : Lookahead σ} {ahead : Entry}
    (seen : (peek cursor).2 = .ok (some ahead)) : (top (peek cursor).1).isSome := by
  obtain ⟨below, held⟩ := cursor
  cases held with
  | some entry => rfl
  | none =>
      unfold peek at *
      simp only at *
      split at seen
      · cases seen
      · split at seen
        · cases seen
        · rfl

instance : Cursor (Lookahead σ) where
  top := top
  next := next
  seek range cursor :=
    let (below, failure) := Cursor.seek range cursor.below
    (⟨below, none⟩, failure)
  progress := progress
  next_beyond := next_beyond

end Lookahead

end TimeSeries
