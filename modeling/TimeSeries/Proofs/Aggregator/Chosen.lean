import Mathlib.Data.List.Induction
import TimeSeries.Aggregator.Accumulator

/-!
# Points chosen by their timestamps

The first and the last value are told by the timestamps and not by the order in which the points
come, but for equal timestamps.  Both hold a point and give it up for another one by a rule that
compares the two; a point is `Preferred` by such a rule if it is not given up for any later one and
each earlier one is given up for it.

Main statements: `Aggregator.aggregate_first_eq_some_iff`, `Aggregator.aggregate_last_eq_some_iff`.
-/

set_option autoImplicit false

namespace TimeSeries

namespace Accumulator

/-- Holds on to a point, or gives it up for the next one, as a rule says. -/
def prefer (keeps : Point → Point → Bool) : Option Point → Point → Option Point
  | none, point => some point
  | some held, point => some (if keeps held point then held else point)

/-- Among the points it is not given up for a later one, and each earlier one is given up for it. -/
def Preferred (keeps : Point → Point → Bool) (points : List Point) (chosen : Point) : Prop :=
  ∃ earlier later, points = earlier ++ chosen :: later
    ∧ (∀ point ∈ earlier, keeps point chosen = false) ∧ ∀ point ∈ later, keeps chosen point = true

/-- A rule by which it does not matter what was held in between. -/
structure Steady (keeps : Point → Point → Bool) : Prop where
  kept : ∀ {first second third : Point}, keeps first second = true → keeps second third = true →
    keeps first third = true
  lost : ∀ {first second third : Point}, keeps first second = false → keeps second third = false →
    keeps first third = false

section Preferred

variable {keeps : Point → Point → Bool} {points : List Point} {chosen other : Point}

/-- Of two preferred points the earlier one would be kept and given up. -/
theorem Preferred.eq (preferred : Preferred keeps points chosen)
    (otherPreferred : Preferred keeps points other) : chosen = other := by
  obtain ⟨earlier, later, rfl, lost, kept⟩ := preferred
  obtain ⟨otherEarlier, otherLater, same, otherLost, otherKept⟩ := otherPreferred
  obtain ⟨between, front, back⟩ | ⟨between, front, back⟩ := List.append_eq_append_iff.mp same
  · cases between with
    | nil => exact (List.cons.inj back).1
    | cons first rest =>
        obtain ⟨rfl, rfl⟩ := List.cons.inj back
        exact nomatch (kept other (by simp)).symm.trans (otherLost chosen (by simp [front]))
  · cases between with
    | nil => exact (List.cons.inj back).1.symm
    | cons first rest =>
        obtain ⟨rfl, rfl⟩ := List.cons.inj back
        exact nomatch (otherKept chosen (by simp)).symm.trans (lost other (by simp [front]))

theorem Preferred.keep (preferred : Preferred keeps points chosen)
    (kept : keeps chosen other = true) : Preferred keeps (points ++ [other]) chosen := by
  obtain ⟨earlier, later, rfl, lost, laterKept⟩ := preferred
  refine ⟨earlier, later ++ [other], by simp, lost, ?_⟩
  rw [List.forall_mem_append, List.forall_mem_singleton]
  exact ⟨laterKept, kept⟩

/-- If the preferred point is given up for a point, so is each other one. -/
theorem Preferred.giveUp (steady : Steady keeps) (preferred : Preferred keeps points chosen)
    (lost : keeps chosen other = false) : Preferred keeps (points ++ [other]) other := by
  obtain ⟨earlier, later, rfl, earlierLost, laterKept⟩ := preferred
  refine ⟨earlier ++ chosen :: later, [], rfl, ?_, List.forall_mem_nil _⟩
  rw [List.forall_mem_append, List.forall_mem_cons]
  refine ⟨fun point before => steady.lost (earlierLost point before) lost, lost,
    fun point behind => ?_⟩
  by_contra held
  rw [steady.kept (laterKept point behind) (eq_true_of_ne_false held)] at lost
  exact Bool.false_ne_true lost.symm

/-- Of some points a preferred one is held in the end. -/
theorem exists_preferred (steady : Steady keeps) (some_points : points ≠ []) :
    ∃ held, points.foldl (prefer keeps) none = some held ∧ Preferred keeps points held := by
  induction points using List.reverseRecOn with
  | nil => exact absurd rfl some_points
  | append_singleton points point ih =>
      rw [List.foldl_append]
      by_cases none_before : points = []
      · subst none_before
        exact ⟨point, rfl, [], [], rfl, List.forall_mem_nil _, List.forall_mem_nil _⟩
      obtain ⟨held, before, preferred⟩ := ih none_before
      rw [before]
      cases rule : keeps held point with
      | true => exact ⟨held, by simp [prefer, rule], preferred.keep rule⟩
      | false => exact ⟨point, by simp [prefer, rule], preferred.giveUp steady rule⟩

theorem foldl_prefer_eq_some_iff (steady : Steady keeps) :
    points.foldl (prefer keeps) none = some chosen ↔ Preferred keeps points chosen := by
  constructor
  · intro chosen_held
    have some_points : points ≠ [] := by
      rintro rfl
      exact Option.some_ne_none chosen chosen_held.symm
    obtain ⟨held, held_eq, preferred⟩ := exists_preferred steady some_points
    rw [chosen_held] at held_eq
    exact Option.some.inj held_eq ▸ preferred
  · intro preferred
    have some_points : points ≠ [] := by
      obtain ⟨earlier, later, rfl, -, -⟩ := preferred
      simp
    obtain ⟨held, held_eq, heldPreferred⟩ := exists_preferred steady some_points
    rw [held_eq, heldPreferred.eq preferred]

end Preferred

/-- Of two points the first one is held unless the second one is earlier. -/
def notAfter (held point : Point) : Bool := held.timestamp ≤ point.timestamp

/-- Of two points the second one is held unless the first one is later. -/
def isAfter (held point : Point) : Bool := point.timestamp < held.timestamp

theorem steady_notAfter : Steady notAfter where
  kept := by
    simp only [notAfter, decide_eq_true_eq]
    exact Int64.le_trans
  lost := by
    simp only [notAfter, decide_eq_false_iff_not, Int64.not_le]
    exact fun first second => Int64.lt_trans second first

theorem steady_isAfter : Steady isAfter where
  kept := by
    simp only [isAfter, decide_eq_true_eq]
    exact fun first second => Int64.lt_trans second first
  lost := by
    simp only [isAfter, decide_eq_false_iff_not, Int64.not_lt]
    exact Int64.le_trans

end Accumulator

namespace Aggregator

open Accumulator

variable {points : List Point} {value : Binary64}

theorem aggregate_first_eq :
    first.aggregate points = (points.foldl (prefer notAfter) none).map Point.value := by
  have taken : points.foldl (fun accumulator point => Accumulator.add point accumulator)
      (Accumulator.first none) = .first (points.foldl (prefer notAfter) none) := by
    refine List.foldl_hom Accumulator.first fun held point => ?_
    cases held with
    | none => rfl
    | some held => simp only [prefer, notAfter, Accumulator.add, decide_eq_true_eq]
  rw [aggregate, accumulator, taken, Accumulator.result]

theorem aggregate_last_eq :
    last.aggregate points = (points.foldl (prefer isAfter) none).map Point.value := by
  have taken : points.foldl (fun accumulator point => Accumulator.add point accumulator)
      (Accumulator.last none) = .last (points.foldl (prefer isAfter) none) := by
    refine List.foldl_hom Accumulator.last fun held point => ?_
    cases held with
    | none => rfl
    | some held => simp only [prefer, isAfter, Accumulator.add, decide_eq_true_eq]
  rw [aggregate, accumulator, taken, Accumulator.result]

/-- The first value is that of the earliest point, of several ones that of the point added first. -/
theorem aggregate_first_eq_some_iff :
    first.aggregate points = some value
      ↔ ∃ before point behind, points = before ++ point :: behind ∧ point.value = value
          ∧ (∀ other ∈ before, point.timestamp < other.timestamp)
          ∧ ∀ other ∈ behind, point.timestamp ≤ other.timestamp := by
  rw [aggregate_first_eq, Option.map_eq_some_iff]
  simp only [foldl_prefer_eq_some_iff steady_notAfter, Preferred, notAfter, decide_eq_true_eq,
    decide_eq_false_iff_not, Int64.not_le]
  grind

/-- The last value is that of the latest point, of several ones that of the point added last. -/
theorem aggregate_last_eq_some_iff :
    last.aggregate points = some value
      ↔ ∃ before point behind, points = before ++ point :: behind ∧ point.value = value
          ∧ (∀ other ∈ before, other.timestamp ≤ point.timestamp)
          ∧ ∀ other ∈ behind, other.timestamp < point.timestamp := by
  rw [aggregate_last_eq, Option.map_eq_some_iff]
  simp only [foldl_prefer_eq_some_iff steady_isAfter, Preferred, isAfter, decide_eq_true_eq,
    decide_eq_false_iff_not, Int64.not_lt]
  grind

end Aggregator

end TimeSeries
