import TimeSeries.Failure
import TimeSeries.Series

/-!
# What a reader yields, call by call

Packed runs and blocks are read one point at a time.  A call yields a point, a failure or nothing,
and leaves a reader for the next call; nothing keeps a caller from calling on after a failure or
after the last point.  `Yields` speaks of all calls at once: in turn they yield the given outcomes,
and every call after those yields nothing.

Reading all points (`Collects`) is calling until nothing is yielded, or a failure is.

Main statements: `yields_cons_iff` takes the first outcome off, and `Collects.of_yields_points` and
`Collects.of_yields_failure` say what is collected.
-/

set_option autoImplicit false

namespace TimeSeries

variable {ρ : Type}

/-- What the call of the given number yields; the first call has the number zero. -/
def yieldedAt (call : ρ → Option (Except Failure Point) × ρ) (reader : ρ) :
    Nat → Option (Except Failure Point)
  | 0 => (call reader).1
  | number + 1 => yieldedAt call (call reader).2 number

/-- The reader that so many calls leave. -/
def leftAfter (call : ρ → Option (Except Failure Point) × ρ) (reader : ρ) : Nat → ρ
  | 0 => reader
  | number + 1 => leftAfter call (call reader).2 number

/-- The calls yield the outcomes in turn, and after these nothing, however often it is called. -/
def Yields (call : ρ → Option (Except Failure Point) × ρ) (reader : ρ)
    (outcomes : List (Except Failure Point)) : Prop :=
  ∀ number, yieldedAt call reader number = outcomes[number]?

/-- Collecting takes the points that the calls yield, up to the first failure. -/
def Collects (call : ρ → Option (Except Failure Point) × ρ)
    (collect : ρ → Except Failure (List Point)) : Prop :=
  ∀ reader, collect reader = match (call reader).1 with
    | none => .ok []
    | some (.ok point) => (collect (call reader).2).map (point :: ·)
    | some (.error failure) => .error failure

variable {call : ρ → Option (Except Failure Point) × ρ} {reader next : ρ}
  {outcome : Except Failure Point} {outcomes : List (Except Failure Point)}

/-! ## Calls in turn -/

/-- A reader that a call leaves as it is, and that yields nothing, never yields anything. -/
theorem yields_nil (spent : call reader = (none, reader)) : Yields call reader [] := by
  intro number
  induction number with
  | zero => rw [yieldedAt, spent]; rfl
  | succ number ih => rw [yieldedAt, spent]; exact ih

/-- A reader that a call leaves as it is stays as it is. -/
theorem leftAfter_of_spent (spent : call reader = (none, reader)) (number : Nat) :
    leftAfter call reader number = reader := by
  induction number with
  | zero => rfl
  | succ number ih =>
      rw [leftAfter, spent]
      exact ih

theorem yields_cons_iff : Yields call reader (outcome :: outcomes)
    ↔ (call reader).1 = some outcome ∧ Yields call (call reader).2 outcomes := by
  constructor
  · intro yields
    exact ⟨yields 0, fun number => yields (number + 1)⟩
  · rintro ⟨first, later⟩ number
    cases number with
    | zero => exact first
    | succ number => exact later number

theorem Yields.cons (called : call reader = (some outcome, next))
    (later : Yields call next outcomes) : Yields call reader (outcome :: outcomes) := by
  refine yields_cons_iff.mpr ⟨?_, ?_⟩
  · rw [called]
  · rwa [called]

/-! ## Collecting -/

namespace Collects

variable {collect : ρ → Except Failure (List Point)} {points : List Point} {failure : Failure}

/-- A reader that yields points and no failure is collected as these points. -/
theorem of_yields_points (collects : Collects call collect)
    (yields : Yields call reader (points.map .ok)) : collect reader = .ok points := by
  induction points generalizing reader with
  | nil =>
      have spent : (call reader).1 = none := yields 0
      rw [collects reader, spent]
  | cons point points ih =>
      obtain ⟨first, later⟩ := yields_cons_iff.mp yields
      rw [collects reader, first]
      simp only [ih later]
      rfl

/-- A reader that yields a failure is not collected, whatever points it yields before that. -/
theorem of_yields_failure (collects : Collects call collect)
    (yields : Yields call reader (points.map .ok ++ .error failure :: outcomes)) :
    collect reader = .error failure := by
  induction points generalizing reader with
  | nil => rw [collects reader, (yields_cons_iff.mp yields).1]
  | cons point points ih =>
      obtain ⟨first, later⟩ := yields_cons_iff.mp yields
      rw [collects reader, first]
      simp only [ih later]
      rfl

end Collects

end TimeSeries
