import Mathlib.Algebra.Order.Field.Basic
import Mathlib.Tactic.FieldSimp
import Mathlib.Tactic.Linarith
import Mathlib.Tactic.NormNum
import Mathlib.Tactic.Positivity
import Mathlib.Tactic.Ring
import TimeSeries.Proofs.Numbers.Normal

/-!
# Rounding to the nearest double

Arithmetic computes a product in full and cuts its low bits off one by one, with two marks for
what has been lost: the bit lost last, and whether any earlier one was set.  Together with what is
left they say on which half of which unit the product lies (`Binary64.Marks`), however many bits
have been cut off (`Marks.shiftRight`), and so the significand that is kept is the nearest one
(`Marks.near`).

In terms of the numbers that doubles stand for (`Binary64.Denotes`): the product of two doubles is
the product of their numbers, rounded to 53 bits (`Denotes.mul`, `RoundsTo`), a natural number below
`2 ^ 53` is its own double (`denotes_ofNat`), and rounding a double up gives the least natural
number not below it (`Denotes.ceilNat_le_iff`).
-/

set_option autoImplicit false

namespace TimeSeries

open Float.Model Float.Model.UnpackedFloat

namespace Binary64

/-! ## Cutting bits off -/

/-- Where a number lies, as a significand says with the marks for the bits it has lost. -/
def Marks : ExtendedMantissa → ℚ → Prop
  | ⟨whole, false, false⟩, number => number = whole
  | ⟨whole, false, true⟩, number => whole < number ∧ number < whole + 1 / 2
  | ⟨whole, true, false⟩, number => number = whole + 1 / 2
  | ⟨whole, true, true⟩, number => whole + 1 / 2 < number ∧ number < whole + 1

namespace Marks

variable {mantissa : ExtendedMantissa} {number : ℚ}

theorem shiftRightOne (marks : Marks mantissa number) :
    Marks mantissa.shiftRightOne (number / 2) := by
  obtain ⟨whole, half, more⟩ := mantissa
  obtain ⟨low, parts, bit⟩ : ∃ low, whole = 2 * (whole / 2) + low ∧ (low = 0 ∨ low = 1) :=
    ⟨whole % 2, by omega, by omega⟩
  have parts_cast : (whole : ℚ) = 2 * (whole / 2 : ℕ) + (low : ℕ) := by exact_mod_cast parts
  have low_eq : whole % 2 = low := by omega
  -- The last bit becomes the first mark, and the first mark goes into the second.
  show Marks ⟨whole / 2, whole % 2 != 0, half || more⟩ (number / 2)
  rw [low_eq]
  generalize whole / 2 = rest at parts_cast ⊢
  cases half <;> cases more <;> obtain rfl | rfl := bit <;> push_cast at parts_cast <;>
    simp only [Marks, bne_self_eq_false, show (1 != 0) = true from rfl, Bool.or_false,
      Bool.or_true] at marks ⊢ <;>
    first | linarith | exact ⟨by linarith, by linarith⟩

theorem shiftRight (marks : Marks mantissa number) (places : ℕ) :
    Marks (mantissa >>> places) (number / 2 ^ places) := by
  show Marks (places.repeat ExtendedMantissa.shiftRightOne mantissa) _
  induction places with
  | zero =>
      rw [pow_zero, div_one]
      exact marks
  | succ places ih =>
      rw [Nat.repeat, pow_succ, ← div_div]
      exact ih.shiftRightOne

/-- The significand kept is the nearest one. -/
theorem near (marks : Marks mantissa number) :
    |(mantissa.roundedMantissa : ℚ) - number| ≤ 1 / 2 := by
  obtain ⟨whole, half, more⟩ := mantissa
  have even_or_odd : whole % 2 = 0 ∨ whole % 2 = 1 := by omega
  rw [abs_le]
  cases half <;> cases more <;> simp only [Marks] at marks <;>
    simp only [ExtendedMantissa.roundedMantissa, ExtendedMantissa.accuracy,
      Accuracy.roundToNearestEven]
  case false.false => constructor <;> linarith
  case false.true => constructor <;> linarith
  case true.false =>
      obtain even | odd := even_or_odd
      · rw [even]
        push_cast
        constructor <;> linarith
      · rw [odd]
        push_cast
        constructor <;> linarith
  case true.true =>
      push_cast
      constructor <;> linarith

end Marks

/-- The whole number that is left is the number of units. -/
theorem mantissa_shiftRight (mantissa : ExtendedMantissa) (places : ℕ) :
    (mantissa >>> places).mantissa = mantissa.mantissa / 2 ^ places := by
  show (places.repeat ExtendedMantissa.shiftRightOne mantissa).mantissa = _
  induction places with
  | zero => rw [pow_zero, Nat.div_one]; rfl
  | succ places ih =>
      rw [Nat.repeat, pow_succ, ← Nat.div_div_eq_div_mul, ← ih]
      rfl

/-! ## Rounding -/

/-- A number is rounded to a multiple of a power of two that goes into it at least `2 ^ 52` times
and less than `2 ^ 53` times, and it is a nearest such multiple. -/
def RoundsTo (number rounded : ℚ) : Prop :=
  ∃ units scale : ℕ, rounded = units / 2 ^ scale ∧ 2 ^ 52 ≤ number * 2 ^ scale ∧
    number * 2 ^ scale < 2 ^ 53 ∧ |units - number * 2 ^ scale| ≤ 1 / 2

/-- The double of full precision for a number. -/
def Denotes (value : Binary64) (number : ℚ) : Prop :=
  ∃ significand scale, value.IsNormal significand scale ∧ number = significand / 2 ^ scale

theorem shiftToTargetExponent_exact {mantissa scale shift : ℕ} (log : mantissa.log2 = 52 + shift)
    (shift_le : shift ≤ scale) (scale_le : scale ≤ 1000) :
    shiftToTargetExponent Format.binary64 mantissa (-scale) .exact
      = ((⟨mantissa, false, false⟩ : ExtendedMantissa) >>> shift, -((scale - shift : ℕ) : ℤ)) := by
  have target : Format.binary64.targetExponent (totalExponent mantissa (-scale))
      = -scale + shift := by
    show Max.max ((mantissa.log2 : ℤ) + 1 + -scale - 53) (3 - 1024 - 53) = -scale + shift
    omega
  have places : (-scale + shift - -scale : ℤ).toNat = shift := by omega
  unfold shiftToTargetExponent shiftToExponent
  dsimp only
  rw [target, places]
  refine Prod.ext rfl ?_
  show (-scale + shift : ℤ) = _
  omega

theorem roundWithAccuracy_eq {mantissa : ℕ} {exponent first second : ℤ} {accuracy : Accuracy}
    {cut final : ExtendedMantissa}
    (cut_eq : shiftToTargetExponent Format.binary64 mantissa exponent accuracy = (cut, first))
    (final_eq : shiftToTargetExponent Format.binary64 cut.roundedMantissa first .exact
      = (final, second)) (pos : 0 < final.mantissa) :
    roundWithAccuracy Format.binary64 .positive mantissa exponent accuracy
      = .finite .positive final.mantissa second pos := by
  unfold roundWithAccuracy
  rw [cut_eq]
  dsimp only
  rw [final_eq]
  exact dif_neg (Nat.ne_of_gt pos)

/-- A significand of 53 bits stays as it is. -/
theorem roundWithAccuracy_of_log2 {mantissa scale : ℕ} (log : mantissa.log2 = 52)
    (scale_le : scale ≤ 1000) (pos : 0 < mantissa) :
    roundWithAccuracy Format.binary64 .positive mantissa (-scale) .exact
      = .finite .positive mantissa (-scale) pos := by
  have settled :=
    shiftToTargetExponent_exact (show _ = 52 + 0 from log) (Nat.zero_le scale) scale_le
  exact roundWithAccuracy_eq settled settled pos

/-- A significand that has been rounded up to `2 ^ 53` has one bit too many, which is cut off
without loss. -/
theorem exists_carried {units scale : ℕ} (units_ge : 2 ^ 52 ≤ units) (units_le : units ≤ 2 ^ 53)
    (scale_pos : 0 < scale) (scale_le : scale ≤ 1000) :
    ∃ final, ∃ rest : ℕ,
      shiftToTargetExponent Format.binary64 units (-scale) .exact = (final, -(rest : ℤ))
      ∧ 2 ^ 52 ≤ final.mantissa ∧ final.mantissa < 2 ^ 53 ∧ rest ≤ 1000
      ∧ (final.mantissa : ℚ) / 2 ^ rest = units / 2 ^ scale := by
  obtain within | rfl := Nat.lt_or_eq_of_le units_le
  case inl =>
      have log : units.log2 = 52 + 0 := (Nat.log2_eq_iff (by omega)).mpr ⟨units_ge, within⟩
      exact ⟨_, scale, shiftToTargetExponent_exact log (Nat.zero_le scale) scale_le, units_ge,
        within, scale_le, rfl⟩
  case inr =>
      have log : (2 ^ 53).log2 = 52 + 1 := rfl
      have halved : ((⟨2 ^ 53, false, false⟩ : ExtendedMantissa) >>> 1).mantissa = 2 ^ 52 := rfl
      refine ⟨_, scale - 1, shiftToTargetExponent_exact log scale_pos scale_le, ?_, ?_, by omega,
        ?_⟩
      · rw [halved]
      · rw [halved]
        decide
      · obtain ⟨rest, rfl⟩ := Nat.exists_eq_add_of_le' scale_pos
        rw [halved, Nat.add_sub_cancel, pow_succ (2 : ℚ) rest]
        push_cast
        field_simp
        norm_num

/-- A significand of more than 53 bits is rounded to one of 53 bits. -/
theorem exists_roundWithAccuracy {mantissa scale shift : ℕ} (positive : 0 < mantissa)
    (log : mantissa.log2 = 52 + shift) (fits : shift < scale) (scale_le : scale ≤ 1000) :
    ∃ significand rest : ℕ, ∃ pos,
      roundWithAccuracy Format.binary64 .positive mantissa (-scale) .exact
          = .finite .positive significand (-rest) pos
        ∧ 2 ^ 52 ≤ significand ∧ significand < 2 ^ 53 ∧ rest ≤ 1000
        ∧ RoundsTo (mantissa / 2 ^ scale) (significand / 2 ^ rest) := by
  have first := shiftToTargetExponent_exact log (Nat.le_of_lt fits) scale_le
  have uncut : Marks ⟨mantissa, false, false⟩ mantissa := rfl
  have marks := uncut.shiftRight shift
  generalize (⟨mantissa, false, false⟩ : ExtendedMantissa) >>> shift = cut at first marks
  obtain ⟨least, most⟩ := (Nat.log2_eq_iff (Nat.ne_of_gt positive)).mp log
  have two_pow : (0 : ℚ) < 2 ^ shift := by positivity
  have least_cast : (2 : ℚ) ^ 52 ≤ mantissa / 2 ^ shift := by
    rw [le_div_iff₀ two_pow, ← pow_add]
    exact_mod_cast least
  have most_cast : (mantissa : ℚ) / 2 ^ shift < 2 ^ 53 := by
    rw [div_lt_iff₀ two_pow, ← pow_add]
    rw [show 52 + shift + 1 = 53 + shift by omega] at most
    exact_mod_cast most
  have near := marks.near
  obtain ⟨above, below⟩ := abs_le.mp near
  have units_ge : 2 ^ 52 ≤ cut.roundedMantissa := by
    have : ((2 ^ 52 : ℕ) : ℚ) < cut.roundedMantissa + 1 := by push_cast; linarith
    exact Nat.lt_succ_iff.mp (by exact_mod_cast this)
  have units_le : cut.roundedMantissa ≤ 2 ^ 53 := by
    have : (cut.roundedMantissa : ℚ) < (2 ^ 53 : ℕ) + 1 := by push_cast; linarith
    exact Nat.lt_succ_iff.mp (by exact_mod_cast this)
  obtain ⟨final, rest, second, low, high, rest_le, same⟩ :=
    exists_carried units_ge units_le (Nat.sub_pos_of_lt fits) (by omega)
  have pos : 0 < final.mantissa := Nat.lt_of_lt_of_le (by decide) low
  refine ⟨final.mantissa, rest, pos, roundWithAccuracy_eq first second pos, low, high, rest_le, ?_⟩
  have units : (mantissa : ℚ) / 2 ^ scale * 2 ^ (scale - shift) = mantissa / 2 ^ shift := by
    obtain ⟨more, rfl⟩ := Nat.exists_eq_add_of_le (Nat.le_of_lt fits)
    rw [pow_add, Nat.add_sub_cancel_left]
    field_simp
  rw [same]
  exact ⟨cut.roundedMantissa, scale - shift, rfl, by rwa [units], by rwa [units], by rwa [units]⟩

namespace RoundsTo

variable {number rounded : ℚ}

/-- What rounding changes is below one part in `2 ^ 53`. -/
theorem near (rounds : RoundsTo number rounded) : |rounded - number| ≤ number / 2 ^ 53 := by
  obtain ⟨units, scale, rfl, least, -, close⟩ := rounds
  have two_pow : (0 : ℚ) < 2 ^ scale := by positivity
  have apart : (units : ℚ) / 2 ^ scale - number = (units - number * 2 ^ scale) / 2 ^ scale := by
    field_simp
  rw [apart, abs_div, abs_of_pos two_pow, div_le_iff₀ two_pow]
  calc |(units : ℚ) - number * 2 ^ scale| ≤ 1 / 2 := close
    _ = 2 ^ 52 / 2 ^ 53 := by norm_num
    _ ≤ number * 2 ^ scale / 2 ^ 53 := by gcongr
    _ = number / 2 ^ 53 * 2 ^ scale := by ring

/-- A number that is less than half a unit above a whole number is not rounded beyond that. -/
theorem le_of_slightly_above (rounds : RoundsTo number rounded) {whole : ℕ}
    (slightly : number ≤ whole + whole / 2 ^ 54) : rounded ≤ whole := by
  obtain ⟨units, scale, rfl, -, most, close⟩ := rounds
  have two_pow : (0 : ℚ) < 2 ^ scale := by positivity
  rw [div_le_iff₀ two_pow]
  obtain ⟨-, below⟩ := abs_le.mp close
  have scaled : number * 2 ^ scale ≤ whole * 2 ^ scale + whole * 2 ^ scale / 2 ^ 54 := by
    calc number * 2 ^ scale ≤ (whole + whole / 2 ^ 54) * 2 ^ scale := by gcongr
      _ = whole * 2 ^ scale + whole * 2 ^ scale / 2 ^ 54 := by ring
  -- In units the whole number is whole as well, and the units cannot pass it by one.
  have units_lt : (units : ℚ) < (whole * 2 ^ scale : ℕ) + 1 := by
    push_cast
    obtain large | small := le_or_gt ((2 : ℚ) ^ 53) (whole * 2 ^ scale)
    · linarith
    · have : (whole : ℚ) * 2 ^ scale / 2 ^ 54 < 1 / 2 := by
        rw [div_lt_iff₀ (by positivity)]
        linarith
      linarith
  have units_le : units ≤ whole * 2 ^ scale := Nat.lt_succ_iff.mp (by exact_mod_cast units_lt)
  exact_mod_cast units_le

end RoundsTo

/-! ## The numbers of doubles -/

/-- The product of two doubles is the product of their numbers, rounded. -/
theorem Denotes.mul {first second : Binary64} {left right : ℚ} (first_denotes : first.Denotes left)
    (second_denotes : second.Denotes right) (least : 1 / 2 ^ 52 ≤ left * right)
    (most : left * right < 2 ^ 52) :
    ∃ product, (first * second).Denotes product ∧ RoundsTo (left * right) product := by
  obtain ⟨one, scale, normal, rfl⟩ := first_denotes
  obtain ⟨other, turn, normal', rfl⟩ := second_denotes
  have whole : (one : ℚ) / 2 ^ scale * (other / 2 ^ turn)
      = (one * other : ℕ) / 2 ^ (scale + turn) := by
    rw [div_mul_div_comm, pow_add]
    push_cast
    rfl
  rw [whole] at least most ⊢
  have low : 2 ^ 52 * 2 ^ 52 ≤ one * other := Nat.mul_le_mul normal.low normal'.low
  have high : one * other < 2 ^ 53 * 2 ^ 53 := Nat.mul_lt_mul'' normal.high normal'.high
  have positive : 0 < one * other := Nat.lt_of_lt_of_le (by decide) low
  obtain ⟨shift, log⟩ : ∃ shift, (one * other).log2 = 52 + shift := by
    have : 52 ≤ (one * other).log2 :=
      (Nat.le_log2 (Nat.ne_of_gt positive)).mpr (Nat.le_trans (by decide) low)
    exact ⟨(one * other).log2 - 52, by omega⟩
  have fits : shift < scale + turn := by
    have least_power : 2 ^ (52 + shift) ≤ one * other :=
      ((Nat.log2_eq_iff (Nat.ne_of_gt positive)).mp log).1
    rw [div_lt_iff₀ (by positivity), ← pow_add] at most
    have below : one * other < 2 ^ (52 + (scale + turn)) := by exact_mod_cast most
    have := (Nat.pow_lt_pow_iff_right (by decide)).mp (Nat.lt_of_le_of_lt least_power below)
    omega
  have scale_le : scale + turn ≤ 1000 := by
    rw [div_le_div_iff₀ (by positivity) (by positivity), one_mul] at least
    have below : 2 ^ (scale + turn) ≤ one * other * 2 ^ 52 := by exact_mod_cast least
    have : 2 ^ (scale + turn) < 2 ^ (106 + 52) := by
      rw [pow_add 2 106 52, show 2 ^ 106 = 2 ^ 53 * 2 ^ 53 by decide]
      exact Nat.lt_of_le_of_lt below (Nat.mul_lt_mul_of_pos_right high (by decide))
    have := (Nat.pow_lt_pow_iff_right (by decide)).mp this
    omega
  obtain ⟨significand, rest, pos, rounded, significand_ge, significand_lt, rest_le, rounds⟩ :=
    exists_roundWithAccuracy positive log fits scale_le
  have product : first * second
      = ofResult (.ofModel (.pack (.finite .positive significand (-rest) pos))) := by
    show lift Float.mul first second = _
    rw [lift, normal.not_isNaN, normal'.not_isNaN]
    show ofResult (.ofModel (.pack (UnpackedFloat.mul Format.binary64
      first.toFloat.toModel.unpack second.toFloat.toModel.unpack))) = _
    rw [normal.unpack_toFloat, normal'.unpack_toFloat]
    show ofResult (.ofModel (.pack (roundWithAccuracy Format.binary64 .positive (one * other)
      (-scale + -turn) .exact))) = _
    have exponents : (-scale + -turn : ℤ) = -((scale + turn : ℕ) : ℤ) := by
      push_cast
      ring
    rw [exponents, rounded]
  refine ⟨_, ⟨significand, rest, ?_, rfl⟩, rounds⟩
  rw [product]
  exact IsNormal.ofResult_pack significand_ge significand_lt rest_le pos

/-- A natural number of at most 53 bits is brought to full precision. -/
theorem isNormal_ofNat {number : ℕ} (positive : 0 < number) (below : number < 2 ^ 53) :
    (ofNat number).IsNormal (number * 2 ^ (52 - number.log2)) (52 - number.log2) := by
  have nonzero : number ≠ 0 := Nat.ne_of_gt positive
  have log_le : number.log2 ≤ 52 := Nat.lt_succ_iff.mp ((Nat.log2_lt nonzero).mpr below)
  obtain ⟨least, most⟩ := (Nat.log2_eq_iff nonzero).mp (rfl : number.log2 = number.log2)
  generalize scale_eq : 52 - number.log2 = scale
  have low : 2 ^ 52 ≤ number * 2 ^ scale := by
    rw [show 52 = number.log2 + scale by omega, pow_add]
    exact Nat.mul_le_mul_right _ least
  have high : number * 2 ^ scale < 2 ^ 53 := by
    rw [show 53 = number.log2 + 1 + scale by omega, pow_add]
    exact Nat.mul_lt_mul_of_pos_right most (Nat.two_pow_pos scale)
  have pos : 0 < number * 2 ^ scale := Nat.lt_of_lt_of_le (by decide) low
  have log : (number * 2 ^ scale).log2 = 52 := (Nat.log2_eq_iff (Nat.ne_of_gt pos)).mpr ⟨low, high⟩
  have target : Format.binary64.targetExponent (totalExponent number 0) = -scale := by
    show Max.max ((number.log2 : ℤ) + 1 + 0 - 53) (3 - 1024 - 53) = -scale
    omega
  have rounded : UnpackedFloat.round Format.binary64 .positive number 0
      = .finite .positive (number * 2 ^ scale) (-scale) pos := by
    unfold UnpackedFloat.round decreaseExponent
    dsimp only
    rw [target, show (0 - -scale : ℤ).toNat = scale by omega, Nat.shiftLeft_eq, zero_sub]
    exact roundWithAccuracy_of_log2 log (by omega) pos
  have unpacked : UnpackedFloat.ofUInt64 Format.binary64 (UInt64.ofNat number)
      = .finite .positive (number * 2 ^ scale) (-scale) pos := by
    have same : (UInt64.ofNat number).toNat = number := by
      rw [UInt64.toNat_ofNat']
      exact Nat.mod_eq_of_lt (by omega)
    have above : compare (number : ℤ) 0 = .gt := Int.compare_eq_gt.mpr (by omega)
    unfold UnpackedFloat.ofUInt64 UnpackedFloat.ofNat UnpackedFloat.ofInt
      UnpackedFloat.normalize
    rw [same, above]
    exact rounded
  have packed : ofNat number
      = ⟨(Float.Model.pack (.finite .positive (number * 2 ^ scale) (-scale) pos)).toBits⟩ := by
    rw [← unpacked]
    rfl
  rw [packed]
  exact IsNormal.of_pack low high (by omega) pos

theorem denotes_ofNat {number : ℕ} (positive : 0 < number) (below : number < 2 ^ 53) :
    (ofNat number).Denotes number := by
  refine ⟨_, _, isNormal_ofNat positive below, ?_⟩
  push_cast
  field_simp

/-! ## Rounding up -/

namespace IsNormal

variable {value : Binary64} {significand scale : ℕ}

/-- What is left of a double without its fraction. -/
theorem toUInt64_toFloat (normal : value.IsNormal significand scale) :
    value.toFloat.toUInt64 = UInt64.ofNat (significand / 2 ^ scale) := by
  have whole_lt : significand / 2 ^ scale < 2 ^ 53 :=
    Nat.lt_of_le_of_lt (Nat.div_le_self _ _) normal.high
  have truncated : roundToInt .positive significand (-scale) = (significand / 2 ^ scale : ℕ) := by
    unfold roundToInt decreaseExponent shiftToExponent
    dsimp only
    rw [show (-scale - 0 : ℤ).toNat = 0 by omega, Nat.shiftLeft_zero,
      show (0 - (-scale - (0 : ℕ)) : ℤ).toNat = scale by omega, mantissa_shiftRight]
    rfl
  show value.toFloat.toModel.unpack.toUInt64 = _
  rw [normal.unpack_toFloat]
  show UInt64.ofNatClamp (roundToInt .positive significand (-scale)).toNat = _
  rw [truncated, Int.toNat_natCast]
  refine UInt64.toNat_inj.mp ?_
  rw [UInt64.toNat_ofNatClamp_of_lt (Nat.lt_trans whole_lt (by decide)), UInt64.toNat_ofNat',
    Nat.mod_eq_of_lt (Nat.lt_trans whole_lt (by decide))]

/-- The whole part of a double of full precision has the same scale, unless it is zero. -/
theorem scale_whole (normal : value.IsNormal significand scale)
    (positive : 0 < significand / 2 ^ scale) : 52 - (significand / 2 ^ scale).log2 = scale := by
  have two_pow : 0 < 2 ^ scale := Nat.two_pow_pos scale
  have low := normal.low
  have high := normal.high
  have reaches : 2 ^ scale ≤ significand := (Nat.div_pos_iff.mp positive).2
  have scale_lt : scale < 53 :=
    (Nat.pow_lt_pow_iff_right (by decide)).mp (Nat.lt_of_le_of_lt reaches high)
  have log : (significand / 2 ^ scale).log2 = 52 - scale := by
    rw [Nat.log2_eq_iff (Nat.ne_of_gt positive), Nat.le_div_iff_mul_le two_pow,
      Nat.div_lt_iff_lt_mul two_pow, ← pow_add, ← pow_add]
    rw [show 52 - scale + scale = 52 by omega, show 52 - scale + 1 + scale = 53 by omega]
    exact ⟨low, high⟩
  omega

/-- A double is above its whole part if it has a fraction. -/
theorem toFloat_lt_iff (normal : value.IsNormal significand scale) :
    (UInt64.ofNat (significand / 2 ^ scale)).toFloat < value.toFloat
      ↔ significand / 2 ^ scale * 2 ^ scale < significand := by
  have whole_lt : significand / 2 ^ scale < 2 ^ 53 :=
    Nat.lt_of_le_of_lt (Nat.div_le_self _ _) normal.high
  show decide (UnpackedFloat.lt (UInt64.ofNat (significand / 2 ^ scale)).toFloat.toModel.unpack
    value.toFloat.toModel.unpack = true) = true ↔ _
  rw [decide_eq_true_iff, normal.unpack_toFloat]
  obtain zero | positive := Nat.eq_zero_or_pos (significand / 2 ^ scale)
  case inl =>
      rw [zero, Nat.zero_mul]
      exact iff_of_true rfl normal.pos
  case inr =>
      have whole := isNormal_ofNat positive whole_lt
      rw [normal.scale_whole positive] at whole
      rw [show (UInt64.ofNat (significand / 2 ^ scale)).toFloat.toModel.unpack
        = .finite .positive _ _ whole.pos from whole.unpack]
      show (some ((compare (-scale : ℤ) (-scale)).then
        (compare (significand / 2 ^ scale * 2 ^ scale) significand)) == some .lt) = true ↔ _
      rw [Int.compare_eq_eq.mpr rfl, beq_iff_eq, Option.some_inj]
      exact Nat.compare_eq_lt

end IsNormal

theorem Denotes.ceilNat_le_iff {value : Binary64} {number : ℚ} (denotes : value.Denotes number)
    {bound : ℕ} : value.ceilNat ≤ bound ↔ number ≤ bound := by
  obtain ⟨significand, scale, normal, rfl⟩ := denotes
  have two_pow : 0 < 2 ^ scale := Nat.two_pow_pos scale
  have whole_lt : significand / 2 ^ scale < 2 ^ 53 :=
    Nat.lt_of_le_of_lt (Nat.div_le_self _ _) normal.high
  have whole_toNat : (UInt64.ofNat (significand / 2 ^ scale)).toNat = significand / 2 ^ scale := by
    rw [UInt64.toNat_ofNat']
    exact Nat.mod_eq_of_lt (by omega)
  rw [div_le_iff₀ (by positivity), show (significand : ℚ) ≤ bound * 2 ^ scale
    ↔ significand ≤ bound * 2 ^ scale by exact_mod_cast Iff.rfl]
  unfold ceilNat
  dsimp only
  rw [normal.toUInt64_toFloat, whole_toNat]
  split
  case isTrue fraction =>
      rw [normal.toFloat_lt_iff] at fraction
      rw [Nat.succ_le_iff, Nat.div_lt_iff_lt_mul two_pow]
      -- A number with a fraction is not a whole number of units.
      refine ⟨Nat.le_of_lt, fun within => Nat.lt_of_le_of_ne within fun same => ?_⟩
      rw [same, Nat.mul_div_cancel _ two_pow] at fraction
      exact Nat.lt_irrefl _ fraction
  case isFalse none =>
      rw [normal.toFloat_lt_iff, Nat.not_lt] at none
      have same : significand / 2 ^ scale * 2 ^ scale = significand :=
        Nat.le_antisymm (Nat.div_mul_le_self _ _) none
      conv_rhs => rw [← same]
      exact (Nat.mul_le_mul_right_iff two_pow).symm

end Binary64

end TimeSeries
