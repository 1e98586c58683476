import TimeSeries.KeyRange

/-!
# Cursors

A cursor presents entries one at a time: the entry it stands on is its top, `next` moves it on and
`seek` moves it to the first entry of a range.  A layer is a cursor that is built over another one
and presents its entries changed.

Moving can fail and move nonetheless.  Therefore `next` and `seek` always return a cursor, and the
failure that was met, if any, beside it: whoever reads may report the failure and go on from where
the cursor then stands.

Every cursor has an order of progress.  To move on from an entry is progress, and progress cannot go
on for ever; this is why reading to the end is a definition by recursion.  A layer makes progress
when the cursor below does, or when it uses up something that it holds itself, so its order is built
from these two by `Progress.ofLayer`.
-/

set_option autoImplicit false

namespace TimeSeries

/-- An order in which a state can only go on finitely often. -/
structure Progress (σ : Type) where
  /-- The first state is further than the second. -/
  Beyond : σ → σ → Prop
  wellFounded : WellFounded Beyond
  trans : ∀ {first second third}, Beyond first second → Beyond second third → Beyond first third

namespace Progress

variable {σ τ : Type}

/-- The first state is the second or further. -/
def Reaches (progress : Progress σ) (later earlier : σ) : Prop :=
  later = earlier ∨ progress.Beyond later earlier

theorem Reaches.refl (progress : Progress σ) (state : σ) : progress.Reaches state state :=
  Or.inl rfl

theorem Reaches.of_beyond {progress : Progress σ} {later earlier : σ}
    (further : progress.Beyond later earlier) : progress.Reaches later earlier :=
  Or.inr further

theorem Reaches.trans {progress : Progress σ} {first second third : σ}
    (onward : progress.Reaches first second) (before : progress.Reaches second third) :
    progress.Reaches first third := by
  rcases onward with rfl | onward
  · exact before
  · rcases before with rfl | before
    · exact Or.inr onward
    · exact Or.inr (progress.trans onward before)

theorem Reaches.beyond_trans {progress : Progress σ} {first second third : σ}
    (onward : progress.Reaches first second) (before : progress.Beyond second third) :
    progress.Beyond first third := by
  rcases onward with rfl | onward
  · exact before
  · exact progress.trans onward before

theorem Reaches.trans_beyond {progress : Progress σ} {first second third : σ}
    (onward : progress.Beyond first second) (before : progress.Reaches second third) :
    progress.Beyond first third := by
  rcases before with rfl | before
  · exact onward
  · exact progress.trans onward before

/-- Having less is progress. -/
def ofSize (size : σ → Nat) : Progress σ where
  Beyond later earlier := size later < size earlier
  wellFounded := (measure size).wf
  trans := Nat.lt_trans

/-- A layer is further when the state below is, or when that has not moved and the layer holds
less. -/
def ofLayer (progress : Progress σ) (below : τ → σ) (held : τ → Nat) : Progress τ where
  Beyond later earlier := Prod.Lex progress.Beyond (· < ·)
    (below later, held later) (below earlier, held earlier)
  wellFounded := InvImage.wf (fun state => (below state, held state))
    (Prod.lex ⟨progress.Beyond, progress.wellFounded⟩ ⟨(· < ·), Nat.lt_wfRel.wf⟩).wf
  trans := by
    intro first second third onward before
    rw [Prod.lex_def] at *
    simp only at *
    rcases onward with onward | ⟨same, less⟩
    · rcases before with before | ⟨same, _⟩
      · exact Or.inl (progress.trans onward before)
      · exact Or.inl (same ▸ onward)
    · rcases before with before | ⟨stays, fewer⟩
      · exact Or.inl (same ▸ before)
      · exact Or.inr ⟨same.trans stays, Nat.lt_trans less fewer⟩

theorem beyond_ofLayer_of_below {progress : Progress σ} {below : τ → σ} {held : τ → Nat}
    {later earlier : τ} (further : progress.Beyond (below later) (below earlier)) :
    (progress.ofLayer below held).Beyond later earlier :=
  Prod.Lex.left _ _ further

theorem beyond_ofLayer_of_held {progress : Progress σ} {below : τ → σ} {held : τ → Nat}
    {later earlier : τ} (reached : progress.Reaches (below later) (below earlier))
    (less : held later < held earlier) : (progress.ofLayer below held).Beyond later earlier := by
  rcases reached with same | further
  · exact Prod.lex_def.mpr (Or.inr ⟨same, less⟩)
  · exact Prod.Lex.left _ _ further

end Progress

/-- A cursor after a move, and the failure that the move met. -/
abbrev Moved (σ : Type) := σ × Option Failure

/-- What presents entries one at a time. -/
class Cursor (σ : Type) where
  /-- The entry the cursor stands on. -/
  top : σ → Option Entry
  /-- Moves on. -/
  next : σ → Moved σ
  /-- Moves to the first entry of a range. -/
  seek : KeyRange → σ → Moved σ
  progress : Progress σ
  next_beyond : ∀ cursor, (top cursor).isSome → progress.Beyond (next cursor).1 cursor

namespace Cursor

variable {σ : Type} [Cursor σ]

/-- The first cursor is further than the second. -/
def Beyond (later earlier : σ) : Prop := progress.Beyond later earlier

/-- The first cursor is the second or further. -/
def Reaches (later earlier : σ) : Prop := progress.Reaches later earlier

/-- The place of a cursor in the order of progress, for definitions by recursion. -/
def place (cursor : σ) : { cursor : σ // Acc progress.Beyond cursor } :=
  progress.wellFounded.wrap cursor

/-- There is an entry. -/
def hasTop (cursor : σ) : Bool := (top cursor).isSome

theorem next_beyond_of_top {cursor : σ} {entry : Entry} (here : top cursor = some entry) :
    Beyond (next cursor).1 cursor :=
  next_beyond cursor (by rw [here]; rfl)

/-! ## Reading to the end -/

/-- Every entry that is presented, each with the failure met in moving on from it. -/
def readings (cursor : σ) : List (Entry × Option Failure) :=
  match _here : top cursor with
  | none => []
  | some entry => (entry, (next cursor).2) :: readings (next cursor).1
termination_by place cursor
decreasing_by exact next_beyond_of_top ‹_›

/-- The cursor behind the last entry that is presented. -/
def finish (cursor : σ) : σ :=
  match _here : top cursor with
  | none => cursor
  | some _ => finish (next cursor).1
termination_by place cursor
decreasing_by exact next_beyond_of_top ‹_›

/-- The entries up to the end or up to the first failure, and the cursor there. -/
def drain (cursor : σ) : σ × Except Failure (List Entry) :=
  match _here : top cursor with
  | none => (cursor, .ok [])
  | some entry =>
      match (next cursor).2 with
      | some failure => ((next cursor).1, .error failure)
      | none =>
          let (last, rest) := drain (next cursor).1
          (last, rest.map (entry :: ·))
termination_by place cursor
decreasing_by exact next_beyond_of_top ‹_›

/-- Takes entries into a state one by one; a failure, of taking one or of moving on, ends it. -/
def gather {α : Type} (take : α → Entry → Except Failure α) (state : α) (cursor : σ) :
    Except Failure α :=
  match _here : top cursor with
  | none => .ok state
  | some entry =>
      match take state entry with
      | .error failure => .error failure
      | .ok state =>
          match (next cursor).2 with
          | some failure => .error failure
          | none => gather take state (next cursor).1
termination_by place cursor
decreasing_by exact next_beyond_of_top ‹_›

/-- Seeks a range and takes its entries into a state, unless something fails. -/
def gatherWithin {α : Type} (range : KeyRange) (take : α → Entry → Except Failure α) (state : α)
    (cursor : σ) : Except Failure α :=
  match seek range cursor with
  | (_, some failure) => .error failure
  | (cursor, none) => gather take state cursor

end Cursor

end TimeSeries
