import TimeSeries.Cursor.Basic

/-!
# Expanded entries

A layer that presents a packed run as one entry for each of its points.  Each has the columns and
the visibility of the packed entry, and the row and the timestamp of its point.  Entries with a
single value are presented as they are.

Runs are read one point at a time.  A run that cannot be read, or not to its end, is left there:
the layer moves on to the next entry that it can present, and reports the failure.  Only a failure
of the cursor below ends the search for an entry; the layer then has no top.
-/

set_option autoImplicit false

namespace TimeSeries

/-- A packed run that is being presented: the key of its entry and the points not yet read. -/
structure OpenRun where
  key : Key
  points : PackedReader
  deriving DecidableEq, Repr

namespace OpenRun

/-- What came of looking for the next entry of an open run. -/
inductive Step where
  /-- The entry of a point within the range, and the rest of the run. -/
  | present (entry : Entry) (rest : OpenRun)
  /-- The point lies before the range. -/
  | pass (rest : OpenRun)
  /-- There is nothing more in the run for the range. -/
  | finished
  /-- The run cannot be read any further. -/
  | broken (failure : Failure)

/-- Reads one point of an open run. -/
def step (range : KeyRange) (run : OpenRun) : Step :=
  match run.points.step with
  | .finished => .finished
  | .broken cause _ => .broken (.malformed cause)
  | .read point next =>
      match run.key.atTime point.timestamp with
      | .error failure => .broken failure
      | .ok key =>
          if range.startsAfter key then .pass ⟨run.key, next⟩
          else if range.stopsBefore key then .finished
          else .present ⟨key, point.value.toBytes⟩ ⟨run.key, next⟩

theorem length_of_step_present {range : KeyRange} {run rest : OpenRun} {entry : Entry}
    (stepped : run.step range = .present entry rest) :
    rest.points.rest.length < run.points.rest.length := by
  unfold step at stepped
  split at stepped <;> try cases stepped
  case _ read =>
    split at stepped <;> try cases stepped
    split at stepped <;> try cases stepped
    split at stepped <;> cases stepped
    exact PackedReader.length_of_step_read read

theorem length_of_step_pass {range : KeyRange} {run rest : OpenRun}
    (stepped : run.step range = .pass rest) :
    rest.points.rest.length < run.points.rest.length := by
  unfold step at stepped
  split at stepped <;> try cases stepped
  case _ read =>
    split at stepped <;> try cases stepped
    split at stepped
    · cases stepped
      exact PackedReader.length_of_step_read read
    · split at stepped <;> cases stepped

/-- What is held while a run may be open: its bytes, and the run itself. -/
def size : Option OpenRun → Nat
  | some run => run.points.rest.length + 1
  | none => 0

end OpenRun

/-- The entries of a cursor with packed runs taken apart. -/
structure Expanded (σ : Type) where
  below : σ
  range : KeyRange
  pending : Option OpenRun
  top : Option Entry
  deriving DecidableEq, Repr

namespace Expanded

variable {σ : Type}

/-- A new layer stands on nothing until it is moved. -/
def above (below : σ) : Expanded σ := ⟨below, .all, none, none⟩

/-- What the layer holds: an open run and a top. -/
def held (cursor : Expanded σ) : Nat := OpenRun.size cursor.pending + cursor.top.toList.length

variable [Cursor σ]

/-- Looks for the next entry to present: in the open run, then in the entries below.  `failure` is
the first failure met so far. -/
def fill (range : KeyRange) (below : σ) (pending : Option OpenRun) (failure : Option Failure) :
    Moved (Expanded σ) :=
  match pending with
  | some run =>
      match _stepped : run.step range with
      | .present entry rest => (⟨below, range, some rest, some entry⟩, failure)
      | .pass rest => fill range below (some rest) failure
      | .finished => fill range below none failure
      | .broken cause => fill range below none (Failure.first failure (some cause))
  | none =>
      match _here : Cursor.top below with
      | none => (⟨below, range, none, none⟩, failure)
      | some entry =>
          match _stepped : Cursor.next below with
          | (later, some cause) => (⟨later, range, none, none⟩, some cause)
          | (later, none) =>
              if isPacked entry.value then
                match PackedReader.ofBytes entry.value with
                | .ok points => fill range later (some ⟨entry.key, points⟩) failure
                | .error cause => fill range later none (Failure.first failure (some cause))
              else if range.contains entry.key then
                (⟨later, range, none, some entry⟩, failure)
              else
                fill range later none failure
termination_by (Cursor.place below, OpenRun.size pending)
decreasing_by
  · exact Prod.Lex.right _ (Nat.succ_lt_succ (OpenRun.length_of_step_pass ‹_›))
  · exact Prod.Lex.right _ (Nat.succ_pos _)
  · exact Prod.Lex.right _ (Nat.succ_pos _)
  all_goals
    have further := Cursor.next_beyond_of_top ‹_›
    rw [_stepped] at further
    exact Prod.Lex.left _ _ further

/-- The order of progress of the layer. -/
def progress : Progress (Expanded σ) := Cursor.progress.ofLayer below held

/-- Looking for an entry uses up an entry below or some of what is held. -/
theorem fill_beyond (range : KeyRange) (below : σ) (pending : Option OpenRun)
    (failure : Option Failure) (cursor : Expanded σ)
    (reached : Cursor.Reaches below cursor.below)
    (ahead : Cursor.Beyond below cursor.below ∨ OpenRun.size pending < held cursor) :
    progress.Beyond (fill range below pending failure).1 cursor := by
  have after : ∀ {later : σ} {entry : Entry} {below : σ} {cause : Option Failure},
      Cursor.top below = some entry → Cursor.next below = (later, cause) →
      Cursor.Reaches below cursor.below → Cursor.Beyond later cursor.below := by
    intro later entry below cause here stepped reached
    have further := Cursor.next_beyond_of_top here
    rw [stepped] at further
    exact Progress.Reaches.trans_beyond further reached
  fun_induction fill range below pending failure with
  | case1 below failure run entry rest stepped =>
      have shorter := OpenRun.length_of_step_present stepped
      rcases ahead with further | less
      · exact Progress.beyond_ofLayer_of_below further
      · refine Progress.beyond_ofLayer_of_held reached ?_
        simp only [OpenRun.size, held, Option.toList, List.length_singleton] at less ⊢
        omega
  | case2 below failure run rest stepped ih =>
      have shorter := OpenRun.length_of_step_pass stepped
      refine ih reached (ahead.imp_right fun less => ?_)
      simp only [OpenRun.size] at less ⊢
      omega
  | case3 below failure run stepped ih =>
      exact ih reached (ahead.imp_right (Nat.zero_lt_of_lt ·))
  | case4 below failure run cause stepped ih =>
      exact ih reached (ahead.imp_right (Nat.zero_lt_of_lt ·))
  | case5 below failure nothing =>
      rcases ahead with further | less
      · exact Progress.beyond_ofLayer_of_below further
      · exact Progress.beyond_ofLayer_of_held reached less
  | case6 below failure entry here later cause stepped =>
      exact Progress.beyond_ofLayer_of_below (after here stepped reached)
  | case7 below failure entry here later stepped _ points _ ih =>
      exact ih (.of_beyond (after here stepped reached)) (Or.inl (after here stepped reached))
  | case8 below failure entry here later stepped _ cause _ ih =>
      exact ih (.of_beyond (after here stepped reached)) (Or.inl (after here stepped reached))
  | case9 below failure entry here later stepped _ _ =>
      exact Progress.beyond_ofLayer_of_below (after here stepped reached)
  | case10 below failure entry here later stepped _ _ ih =>
      exact ih (.of_beyond (after here stepped reached)) (Or.inl (after here stepped reached))

def next (cursor : Expanded σ) : Moved (Expanded σ) :=
  fill cursor.range cursor.below cursor.pending none

/-- Seeks below from the start of the metric, since a packed run is stored under its first point.
After a failure below, the layer still shows what it stood on. -/
def seek (range : KeyRange) (cursor : Expanded σ) : Moved (Expanded σ) :=
  match Cursor.seek range.widened cursor.below with
  | (below, some failure) => (⟨below, range, none, cursor.top⟩, some failure)
  | (below, none) => fill range below none none

instance : Cursor (Expanded σ) where
  top := top
  next := next
  seek := seek
  progress := progress
  next_beyond cursor here := by
    refine fill_beyond _ _ _ _ _ (.refl _ _) (Or.inr ?_)
    obtain ⟨entry, here⟩ := Option.isSome_iff_exists.mp here
    simp only [held, here, Option.toList, List.length_singleton]
    exact Nat.lt_succ_self _

end Expanded

end TimeSeries
