import Mathlib.Data.List.DropRight
import TimeSeries.Proofs.Aggregator.Chosen
import TimeSeries.Proofs.Cursor.Plain
import TimeSeries.Proofs.Numbers.Rounding

/-!
# Accumulators between resets

An accumulator is used again after a reset, so that its result must not depend on what it took
before.  A reset puts back what the accumulator started with, whatever was taken
(`Accumulator.reset_after`), so only the calls behind the last reset count, and these take the points
as an aggregator does that is given all of them at once.

Main statement: `Accumulator.result_after`.
-/

set_option autoImplicit false

namespace TimeSeries

namespace Accumulator

/-! ## Calls -/

/-- What is done to an accumulator. -/
inductive Call where
  | add (point : Point)
  | reset
  deriving DecidableEq, Repr

/-- The point that a call adds. -/
def Call.point? : Call → Option Point
  | add point => some point
  | reset => none

/-- The accumulator behind a call. -/
def call (accumulator : Accumulator) : Call → Accumulator
  | .add point => accumulator.add point
  | .reset => accumulator.reset

/-- The accumulator behind some calls. -/
def after (accumulator : Accumulator) (calls : List Call) : Accumulator :=
  calls.foldl call accumulator

/-- The points added since the last reset. -/
def sinceReset (calls : List Call) : List Point :=
  (calls.rtakeWhile (· ≠ .reset)).filterMap Call.point?

@[simp] theorem sinceReset_nil : sinceReset [] = [] := rfl

@[simp] theorem sinceReset_concat_add (calls : List Call) (point : Point) :
    sinceReset (calls ++ [.add point]) = sinceReset calls ++ [point] := by
  rw [sinceReset, List.rtakeWhile_concat_pos _ _ _ (by simp), List.filterMap_append]
  rfl

@[simp] theorem sinceReset_concat_reset (calls : List Call) :
    sinceReset (calls ++ [.reset]) = [] := by
  rw [sinceReset, List.rtakeWhile_concat_neg _ _ _ (by simp), List.filterMap_nil]

/-! ## Resets -/

theorem reset_call (accumulator : Accumulator) (call : Call) :
    (accumulator.call call).reset = accumulator.reset := by
  cases call with
  | reset => cases accumulator <;> rfl
  | add point =>
      cases accumulator with
      | least held => cases held <;> rfl
      | greatest held => cases held <;> rfl
      | first held => cases held <;> rfl
      | last held => cases held <;> rfl
      | _ => rfl

/-- What a reset puts back does not depend on the calls before it. -/
theorem reset_after (accumulator : Accumulator) (calls : List Call) :
    (accumulator.after calls).reset = accumulator.reset := by
  induction calls generalizing accumulator with
  | nil => rfl
  | cons call calls ih => exact (ih (accumulator.call call)).trans (accumulator.reset_call call)

theorem reset_accumulator (aggregator : Aggregator) :
    aggregator.accumulator.reset = aggregator.accumulator := by
  cases aggregator <;> rfl

/-- Behind any calls an accumulator has taken the points since the last reset, and no others. -/
theorem after_eq (aggregator : Aggregator) (calls : List Call) :
    aggregator.accumulator.after calls
      = (sinceReset calls).foldl (fun accumulator point => accumulator.add point)
          aggregator.accumulator := by
  induction calls using List.reverseRecOn with
  | nil => rfl
  | append_singleton calls call ih =>
      have last : aggregator.accumulator.after (calls ++ [call])
          = (aggregator.accumulator.after calls).call call := by
        rw [after, List.foldl_append]
        rfl
      rw [last]
      cases call with
      | add point =>
          rw [sinceReset_concat_add, List.foldl_append, ← ih]
          rfl
      | reset =>
          rw [sinceReset_concat_reset]
          exact (reset_after _ calls).trans (reset_accumulator aggregator)

theorem result_after_eq (aggregator : Aggregator) (calls : List Call) :
    (aggregator.accumulator.after calls).result = aggregator.aggregate (sinceReset calls) := by
  rw [after_eq, Aggregator.aggregate]

end Accumulator

namespace Aggregator

theorem aggregate_eq_none_iff (aggregator : Aggregator) (points : List Point) :
    aggregator.aggregate points = none ↔ points = [] := by
  constructor
  · intro nothing
    by_contra some_points
    have something := aggregator.isSome_aggregate some_points
    rw [nothing] at something
    exact Bool.false_ne_true something
  · rintro rfl
    cases aggregator <;> rfl

theorem aggregate_count_eq_some_iff {points : List Point} {value : Binary64} :
    count.aggregate points = some value
      ↔ 0 < points.length ∧ value = Binary64.ofNat points.length := by
  have taken : points.foldl (fun accumulator point => Accumulator.add point accumulator)
      (Accumulator.count 0) = .count points.length := by
    induction points using List.reverseRecOn with
    | nil => rfl
    | append_singleton points point ih =>
        rw [List.foldl_append, ih, List.length_append]
        rfl
  rw [aggregate, accumulator, taken, Accumulator.result]
  split
  case isTrue some_points => simp [some_points, eq_comm]
  case isFalse nothing => simp [nothing]

end Aggregator

/-- **Accumulators are resettable folds.**  After any calls the result of an accumulator is what its
aggregator makes of the points added since the last reset, and there is none exactly if there are no
such points, whatever was added before.  Of these points, in any order of their timestamps,

* the first value is that of the smallest timestamp, and of the one added earliest among equals;
* the last value is that of the greatest timestamp, and of the one added latest among equals;
* the count is their number, rounded to a double, which is exact below `2 ^ 53`. -/
theorem Accumulator.result_after (aggregator : Aggregator) (calls : List Accumulator.Call) :
    let points := sinceReset calls
    let result (aggregator : Aggregator) := (aggregator.accumulator.after calls).result
    result aggregator = aggregator.aggregate points
      ∧ (result aggregator = none ↔ points = [])
      ∧ (∀ value, result .first = some value
          ↔ ∃ before point behind, points = before ++ point :: behind ∧ point.value = value
              ∧ (∀ other ∈ before, point.timestamp < other.timestamp)
              ∧ ∀ other ∈ behind, point.timestamp ≤ other.timestamp)
      ∧ (∀ value, result .last = some value
          ↔ ∃ before point behind, points = before ++ point :: behind ∧ point.value = value
              ∧ (∀ other ∈ before, other.timestamp ≤ point.timestamp)
              ∧ ∀ other ∈ behind, other.timestamp < point.timestamp)
      ∧ (∀ value, result .count = some value
          ↔ 0 < points.length ∧ value = Binary64.ofNat points.length)
      ∧ (0 < points.length → points.length < 2 ^ 53 →
          (Binary64.ofNat points.length).Denotes points.length) := by
  intro points result
  have result_eq : ∀ aggregator, result aggregator = aggregator.aggregate points :=
    fun aggregator => result_after_eq aggregator calls
  simp only [result_eq]
  exact ⟨trivial, aggregator.aggregate_eq_none_iff points,
    fun _ => Aggregator.aggregate_first_eq_some_iff,
    fun _ => Aggregator.aggregate_last_eq_some_iff,
    fun _ => Aggregator.aggregate_count_eq_some_iff, Binary64.denotes_ofNat⟩

example : (Aggregator.last.accumulator.after
      [.add ⟨9, .infinity⟩, .reset, .add ⟨7, .zero⟩, .add ⟨7, .negativeZero⟩, .add ⟨5, .zero⟩]).result
    = some .negativeZero := by
  decide

end TimeSeries
