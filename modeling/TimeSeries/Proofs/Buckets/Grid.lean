import Mathlib.Data.Nat.Prime.Basic
import TimeSeries.Downsampling
import TimeSeries.Window

/-!
# The grid of buckets

Buckets are numbered: that of the epoch has the number zero, and the grid extends below it.  The
number of a bucket is a quotient of whole numbers, so it is free of the range of timestamps, unlike
the start of a bucket, which wraps around where the bucket begins before the earliest timestamp.
Starts that wrap around meet no other start, so equal starts mean one bucket all the same
(`Timestamp.floorTo_eq_iff`).

A span of time touches the buckets of its timestamps.  A look-up for buckets goes from the start of
the first bucket to the end of the last one, both ends included, and therefore reaches one timestamp
more than these buckets have: the end of the last one, where the next bucket begins
(`touches_of_within`).
-/

set_option autoImplicit false

namespace TimeSeries

namespace Timestamp

variable {width : Timestamp}

theorem toInt_pos (positive : 0 < width) : 0 < width.toInt :=
  Int64.lt_iff_toInt_lt.mp positive

theorem toInt_residue (positive : 0 < width) (timestamp : Timestamp) :
    (timestamp.residue width).toInt = timestamp.toInt % width.toInt := by
  have nonzero := toInt_pos positive
  have below := width.toInt_lt
  have low := Int.emod_nonneg timestamp.toInt (Int.ne_of_gt nonzero)
  have high := Int.emod_lt_of_pos timestamp.toInt nonzero
  exact Int64.toInt_ofInt_of_le (by omega) (by omega)

/-- The start of a window is a multiple of the width, wrapped around into the range. -/
theorem toInt_floorTo (positive : 0 < width) (timestamp : Timestamp) :
    (timestamp.floorTo width).toInt
      = (width.toInt * (timestamp.toInt / width.toInt)).bmod (2 ^ 64) := by
  have split := Int.mul_ediv_add_emod timestamp.toInt width.toInt
  rw [floorTo, Int64.toInt_sub, toInt_residue positive]
  congr 1
  omega

/-- A window is not so long that its multiples could be a whole turn apart where they wrap around:
if one multiple were, the range would begin at another one. -/
theorem multiple_ne_add_turn {length first second : Int} (positive : 0 < length)
    (short : length < 2 ^ 63) (above : length * first < 2 ^ 63)
    (below : -2 ^ 63 < length * second + length) :
    length * first ≠ length * second + 2 ^ 64 := by
  intro turn
  have divides : length.natAbs ∣ 2 ^ 64 := by
    have product : length * (first - second) = 2 ^ 64 := by rw [Int.mul_sub]; omega
    exact Int.natAbs_dvd_natAbs.mpr ⟨_, product.symm⟩
  obtain ⟨exponent, _, power⟩ := (Nat.dvd_prime_pow Nat.prime_two).mp divides
  have exponent_lt : exponent < 63 := by
    refine (Nat.pow_lt_pow_iff_right (by decide : 1 < 2)).mp ?_
    rw [← power]
    omega
  obtain ⟨multiple, least⟩ : ∃ multiple, -2 ^ 63 = length * multiple := by
    refine Int.natAbs_dvd_natAbs.mp ?_
    rw [power]
    exact Nat.pow_dvd_pow 2 (Nat.le_of_lt exponent_lt)
  -- the least multiple in range is one more than the second, but not one more
  have after : second < multiple := by
    refine Int.lt_of_mul_lt_mul_left ?_ (Int.le_of_lt positive)
    omega
  have before : multiple < second + 1 := by
    refine Int.lt_of_mul_lt_mul_left ?_ (Int.le_of_lt positive)
    rw [Int.mul_add, Int.mul_one]
    omega
  omega

/-- Windows with one start are one window. -/
theorem floorTo_eq_iff (positive : 0 < width) {first second : Timestamp} :
    first.floorTo width = second.floorTo width
      ↔ first.toInt / width.toInt = second.toInt / width.toInt := by
  have nonzero := toInt_pos positive
  rw [← Int64.toInt_inj, toInt_floorTo positive, toInt_floorTo positive]
  refine ⟨fun same => ?_, fun same => by rw [same]⟩
  have short := width.toInt_lt
  have bounds : ∀ timestamp : Timestamp,
      -2 ^ 63 < width.toInt * (timestamp.toInt / width.toInt) + width.toInt
        ∧ width.toInt * (timestamp.toInt / width.toInt) < 2 ^ 63 := by
    intro timestamp
    have split := Int.mul_ediv_add_emod timestamp.toInt width.toInt
    have low := Int.emod_nonneg timestamp.toInt (Int.ne_of_gt nonzero)
    have high := Int.emod_lt_of_pos timestamp.toInt nonzero
    have least := timestamp.le_toInt
    have greatest := timestamp.toInt_lt
    omega
  have multiples : width.toInt * (first.toInt / width.toInt)
      = width.toInt * (second.toInt / width.toInt) := by
    have forth := multiple_ne_add_turn nonzero short (bounds first).2 (bounds second).1
    have back := multiple_ne_add_turn nonzero short (bounds second).2 (bounds first).1
    have turns := congrArg (· % ((2 ^ 64 : Nat) : Int)) same
    simp only [Int.bmod_emod] at turns
    have firstBounds := bounds first
    have secondBounds := bounds second
    omega
  exact Int.eq_of_mul_eq_mul_left (Int.ne_of_gt nonzero) multiples

end Timestamp

namespace Window

/-- The number of the window that holds a timestamp; the single window has the number zero. -/
def index : Window → Timestamp → Int
  | aligned width _, timestamp => timestamp.toInt / width.toInt
  | whole, _ => 0

theorem start_eq_iff {window : Window} {first second : Timestamp} :
    window.start first = window.start second ↔ window.index first = window.index second := by
  cases window with
  | aligned width positive => exact Timestamp.floorTo_eq_iff positive
  | whole => exact iff_of_true rfl rfl

/-- Later timestamps have later windows. -/
theorem index_le (window : Window) {first second : Timestamp} (before : first ≤ second) :
    window.index first ≤ window.index second := by
  cases window with
  | aligned width positive =>
      exact Int.ediv_le_ediv (Timestamp.toInt_pos positive) (Int64.le_iff_toInt_le.mp before)
  | whole => exact Int.le_refl 0

/-- Every window of the other grid is made of whole windows. -/
def Refines (window other : Window) : Prop :=
  ∀ first second, window.index first = window.index second →
    other.index first = other.index second

/-- The single window is made of the windows of any grid. -/
theorem refines_whole (window : Window) : window.Refines .whole := fun _ _ _ => rfl

/-- Windows of a multiple of the width are made of whole windows. -/
theorem refines_of_dvd {width multiple : Timestamp} (positive : 0 < width)
    (another : 0 < multiple) (divides : width.toInt ∣ multiple.toInt) :
    (aligned width positive).Refines (aligned multiple another) := by
  intro first second same
  obtain ⟨times, product⟩ := divides
  have nonnegative := Int.le_of_lt (Timestamp.toInt_pos positive)
  have index : ∀ timestamp, (aligned multiple another).index timestamp
      = (aligned width positive).index timestamp / times := by
    intro timestamp
    rw [Window.index, Window.index, product, Int.ediv_ediv_of_nonneg nonnegative]
  rw [index, index, same]

/-- What has no earlier window has none in a grid that is made of them. -/
theorem Refines.index_le {window other : Window} (refines : window.Refines other)
    {first second : Timestamp} (before : window.index first ≤ window.index second) :
    other.index first ≤ other.index second := by
  rcases Int.lt_or_eq_of_le before with less | same
  · refine other.index_le (Int64.le_of_lt (Int64.not_le.mp fun back => ?_))
    exact Int.not_le.mpr less (window.index_le back)
  · exact Int.le_of_eq (refines _ _ same)

end Window

namespace Downsampling

/-- The buckets as windows. -/
def window (downsampling : Downsampling) : Window :=
  .aligned downsampling.period downsampling.period_pos

variable {downsampling : Downsampling} {start stop timestamp : Timestamp}

/-- The number of the bucket that holds a timestamp. -/
def bucketOf (downsampling : Downsampling) (timestamp : Timestamp) : Int :=
  timestamp.toInt / downsampling.period.toInt

/-- The span from one timestamp to another, both included, touches a bucket. -/
def Touches (downsampling : Downsampling) (start stop : Timestamp) (bucket : Int) : Prop :=
  ∃ within, start ≤ within ∧ within ≤ stop ∧ downsampling.bucketOf within = bucket

/-- The bucket of a timestamp begins within the range of timestamps. -/
def BeginsInRange (downsampling : Downsampling) (timestamp : Timestamp) : Prop :=
  Timestamp.earliest.toInt ≤ downsampling.period.toInt * downsampling.bucketOf timestamp

/-- A bucket holds its start but not its end. -/
theorem bucketOf_eq_iff (bucket : Int) :
    downsampling.bucketOf timestamp = bucket
      ↔ downsampling.period.toInt * bucket ≤ timestamp.toInt
        ∧ timestamp.toInt < downsampling.period.toInt * bucket + downsampling.period.toInt := by
  have positive := Timestamp.toInt_pos downsampling.period_pos
  rw [bucketOf, Int.ediv_eq_iff_of_pos positive]
  rw [Int.mul_comm]

theorem bucketOf_bounds (downsampling : Downsampling) (timestamp : Timestamp) :
    downsampling.period.toInt * downsampling.bucketOf timestamp ≤ timestamp.toInt
      ∧ timestamp.toInt < downsampling.period.toInt * downsampling.bucketOf timestamp
        + downsampling.period.toInt :=
  (bucketOf_eq_iff _).mp rfl

/-- Later timestamps have later buckets. -/
theorem bucketOf_le (downsampling : Downsampling) {first second : Timestamp}
    (before : first ≤ second) :
    downsampling.bucketOf first ≤ downsampling.bucketOf second :=
  downsampling.window.index_le before

theorem window_start_eq_iff {first second : Timestamp} :
    (Window.aligned downsampling.period downsampling.period_pos).start first
        = (Window.aligned downsampling.period downsampling.period_pos).start second
      ↔ downsampling.bucketOf first = downsampling.bucketOf second :=
  Timestamp.floorTo_eq_iff downsampling.period_pos

/-! ## The span of a look-up -/

/-- A bucket that begins in range has its true start. -/
theorem toInt_bucketStart (inRange : downsampling.BeginsInRange timestamp) :
    (downsampling.bucketStart timestamp).toInt
      = downsampling.period.toInt * downsampling.bucketOf timestamp := by
  have bounds := downsampling.bucketOf_bounds timestamp
  have greatest := timestamp.toInt_lt
  have least : Timestamp.earliest.toInt = -2 ^ 63 := by decide
  rw [BeginsInRange, least] at inRange
  rw [bucketStart, Timestamp.toInt_floorTo downsampling.period_pos, ← bucketOf]
  exact Int.bmod_eq_of_le (by simpa using inRange) (by omega)

/-- One that begins before the range has a start behind everything in it. -/
theorem lt_bucketStart (outOfRange : ¬ downsampling.BeginsInRange timestamp) :
    timestamp < downsampling.bucketStart timestamp := by
  have bounds := downsampling.bucketOf_bounds timestamp
  have short := downsampling.period.toInt_lt
  have lowest := timestamp.le_toInt
  have least : Timestamp.earliest.toInt = -2 ^ 63 := by decide
  rw [BeginsInRange, least] at outOfRange
  rw [Int64.lt_iff_toInt_lt, bucketStart, Timestamp.toInt_floorTo downsampling.period_pos,
    ← bucketOf, Int.bmod_def]
  omega

theorem bucketStart_le (inRange : downsampling.BeginsInRange timestamp) :
    downsampling.bucketStart timestamp ≤ timestamp := by
  rw [Int64.le_iff_toInt_le, toInt_bucketStart inRange]
  exact (downsampling.bucketOf_bounds timestamp).1

/-- What a look-up reaches before a timestamp lies in the bucket of the timestamp. -/
theorem bucketOf_eq_of_bucketStart_le (reached : downsampling.bucketStart start ≤ timestamp)
    (before : timestamp ≤ start) :
    downsampling.bucketOf timestamp = downsampling.bucketOf start := by
  by_cases inRange : downsampling.BeginsInRange start
  · have bounds := downsampling.bucketOf_bounds start
    rw [Int64.le_iff_toInt_le, toInt_bucketStart inRange] at reached
    rw [Int64.le_iff_toInt_le] at before
    exact (bucketOf_eq_iff _).mpr ⟨reached, by omega⟩
  · exact absurd (Int64.le_trans reached before) (Int64.not_le.mpr (lt_bucketStart inRange))

/-- The end of a bucket is the start of the next one, or the latest timestamp if there is none; a
start is its own end. -/
theorem toInt_bucketEnd (downsampling : Downsampling) (timestamp : Timestamp) :
    (downsampling.bucketEnd timestamp).toInt
      = if timestamp.toInt % downsampling.period.toInt = 0 then timestamp.toInt
        else min Timestamp.latest.toInt (downsampling.period.toInt
          * downsampling.bucketOf timestamp + downsampling.period.toInt) := by
  have positive := Timestamp.toInt_pos downsampling.period_pos
  have offset := Timestamp.toInt_residue downsampling.period_pos timestamp
  have low := Int.emod_nonneg timestamp.toInt (Int.ne_of_gt positive)
  have high := Int.emod_lt_of_pos timestamp.toInt positive
  have short := downsampling.period.toInt_lt
  have lowest := timestamp.le_toInt
  have zero : (0 : Timestamp).toInt = 0 := rfl
  have least : Timestamp.earliest.toInt = -2 ^ 63 := by decide
  have greatest : Timestamp.latest.toInt = 2 ^ 63 - 1 := by decide
  have split := Int.mul_ediv_add_emod timestamp.toInt downsampling.period.toInt
  rw [bucketEnd, bucketOf]
  by_cases start : timestamp.toInt % downsampling.period.toInt = 0
  · rw [if_pos start, if_pos]
    rw [← Int64.toInt_inj, offset, start, zero]
  · have rest : (downsampling.period - timestamp.residue downsampling.period).toInt
        = downsampling.period.toInt - timestamp.toInt % downsampling.period.toInt := by
      rw [Int64.toInt_sub, offset]
      exact Int.bmod_eq_of_le (by omega) (by omega)
    rw [if_neg start, if_neg, Timestamp.saturatingAdd, Timestamp.toInt_clamp, rest]
    · omega
    · rw [← Int64.toInt_inj, offset, zero]
      exact start

/-- What a look-up reaches behind a timestamp lies in the bucket of the timestamp or at its end. -/
theorem bucketOf_eq_of_lt_bucketEnd (after : stop ≤ timestamp)
    (reached : timestamp < downsampling.bucketEnd stop) :
    downsampling.bucketOf timestamp = downsampling.bucketOf stop := by
  have bounds := downsampling.bucketOf_bounds stop
  rw [Int64.le_iff_toInt_le] at after
  rw [Int64.lt_iff_toInt_lt, toInt_bucketEnd] at reached
  refine (bucketOf_eq_iff _).mpr ⟨by omega, ?_⟩
  split at reached <;> omega

/-- Whatever a look-up for the buckets of a span reaches lies in a bucket that the span touches, or
at the end of the last one. -/
theorem touches_of_within (spans : start ≤ stop)
    (low : downsampling.bucketStart start ≤ timestamp)
    (high : timestamp ≤ downsampling.bucketEnd stop) :
    downsampling.Touches start stop (downsampling.bucketOf timestamp)
      ∨ stop < timestamp ∧ timestamp = downsampling.bucketEnd stop := by
  by_cases before : timestamp ≤ start
  · exact Or.inl ⟨start, Int64.le_refl _, spans, (bucketOf_eq_of_bucketStart_le low before).symm⟩
  by_cases within : timestamp ≤ stop
  · exact Or.inl ⟨timestamp, Int64.le_of_lt (Int64.not_le.mp before), within, rfl⟩
  have after := Int64.not_le.mp within
  by_cases ends : timestamp = downsampling.bucketEnd stop
  · exact Or.inr ⟨after, ends⟩
  · have inside := Int64.lt_of_le_of_ne high ends
    exact Or.inl ⟨stop, spans, Int64.le_refl _,
      (bucketOf_eq_of_lt_bucketEnd (Int64.le_of_lt after) inside).symm⟩

end Downsampling

end TimeSeries
