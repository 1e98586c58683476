import Mathlib.Algebra.Group.Nat.Defs
import TimeSeries.Binary64
import TimeSeries.Bytes

/-!
# Positive numbers of full precision

A positive number that is neither too large nor too small for a double of full precision has one
form: a significand of 53 bits, the highest set, over a power of two (`Binary64.IsNormal`).  The
power is called the scale; a scale is a natural number here, since no number of this development
reaches `2 ^ 53`.

The bits of a double determine its significand and its scale, and arithmetic takes its operands
apart and puts its result together in these terms (`IsNormal.unpack_toFloat`,
`IsNormal.ofResult_pack`).
-/

set_option autoImplicit false

namespace TimeSeries

open Float.Model Float.Model.UnpackedFloat

namespace Binary64

/-- The double of a significand of 53 bits, the highest set, over a power of two. -/
structure IsNormal (value : Binary64) (significand scale : Nat) : Prop where
  low : 2 ^ 52 ≤ significand
  high : significand < 2 ^ 53
  scale_le : scale ≤ 1000
  bits : value.bits.toNat = (1075 - scale) * 2 ^ 52 + (significand - 2 ^ 52)

variable {value : Binary64} {significand scale : Nat}

/-! ## Bits -/

theorem toNat_unpackMantissa (bits : BitVec Format.binary64.numBits) :
    (unpackMantissa bits).toNat = bits.toNat % 2 ^ 52 := by
  simp [unpackMantissa]

theorem toNat_unpackExponent (bits : BitVec Format.binary64.numBits) :
    (unpackExponent bits).toNat = bits.toNat / 2 ^ 52 % 2 ^ 11 := by
  simp [unpackExponent, Nat.shiftRight_eq_div_pow]

theorem toNat_unpackSign (bits : BitVec Format.binary64.numBits) :
    (unpackSign bits).toNat = bits.toNat / 2 ^ 63 % 2 := by
  delta unpackSign
  simp [Nat.shiftRight_eq_div_pow]

/-- The significand with its highest bit put back. -/
theorem toNat_implicit (fraction : BitVec 52) :
    (1#1 ++ fraction).toNat = 2 ^ 52 + fraction.toNat := by
  rw [BitVec.toNat_append, ← Nat.shiftLeft_add_eq_or_of_lt fraction.isLt, Nat.shiftLeft_eq]
  rfl

theorem toNat_packComponents (power : BitVec 11) (fraction : BitVec 52) :
    (packComponents Format.binary64 .positive power fraction).toNat
      = power.toNat * 2 ^ 52 + fraction.toNat := by
  unfold packComponents
  rw [BitVec.toNat_append, ← Nat.shiftLeft_add_eq_or_of_lt fraction.isLt, BitVec.toNat_append,
    ← Nat.shiftLeft_add_eq_or_of_lt power.isLt, Nat.shiftLeft_eq, Nat.shiftLeft_eq]
  simp [Sign.toBitVec]

theorem finite_eq {sign sign' : Sign} {mantissa mantissa' : Nat} {exponent exponent' : Int}
    {pos : 0 < mantissa} {pos' : 0 < mantissa'} (signs : sign = sign')
    (mantissas : mantissa = mantissa') (exponents : exponent = exponent') :
    UnpackedFloat.finite sign mantissa exponent pos = .finite sign' mantissa' exponent' pos' := by
  subst signs mantissas exponents
  rfl

namespace IsNormal

theorem pos (normal : value.IsNormal significand scale) : 0 < significand :=
  Nat.lt_of_lt_of_le (by decide) normal.low

theorem not_isNaN (normal : value.IsNormal significand scale) : value.isNaN = false := by
  have bits := normal.bits
  have low := normal.low
  have high := normal.high
  have masked : (value.bits &&& 0x7fffffffffffffff).toNat = value.bits.toNat := by
    rw [UInt64.toNat_and]
    show value.bits.toNat &&& (2 ^ 63 - 1) = _
    rw [Nat.and_two_pow_sub_one_eq_mod, Nat.mod_eq_of_lt (by omega)]
  rw [isNaN, decide_eq_false_iff_not]
  show ¬ ((0x7ff0000000000000 : UInt64) < value.bits &&& 0x7fffffffffffffff)
  rw [UInt64.lt_iff_toNat_lt, masked, bits]
  show ¬ (0x7ff0000000000000 < _)
  omega

/-! ## Taking apart and putting together -/

theorem unpack (normal : value.IsNormal significand scale) :
    UnpackedFloat.unpack Format.binary64 value.bits.toBitVec
      = .finite .positive significand (-scale) normal.pos := by
  have mantissa := toNat_unpackMantissa value.bits.toBitVec
  have power := toNat_unpackExponent value.bits.toBitVec
  have sign := toNat_unpackSign value.bits.toBitVec
  rw [UInt64.toNat_toBitVec, normal.bits] at mantissa power sign
  have low := normal.low
  have high := normal.high
  have scale_le := normal.scale_le
  have mantissa_eq : (@unpackMantissa Format.binary64 value.bits.toBitVec).toNat
      = significand - 2 ^ 52 := by omega
  have power_eq : (@unpackExponent Format.binary64 value.bits.toBitVec).toNat
      = 1075 - scale := by omega
  have sign_eq : @unpackSign Format.binary64 value.bits.toBitVec = 0#1 := by
    refine BitVec.eq_of_toNat_eq ?_
    rw [sign]
    simp
    omega
  have finite : @unpackExponent Format.binary64 value.bits.toBitVec ≠ -1#_ := by
    intro all
    rw [all] at power_eq
    have : (2047 : Nat) = 1075 - scale := power_eq
    omega
  have notSmall : @unpackExponent Format.binary64 value.bits.toBitVec ≠ 0#_ := by
    intro none_set
    rw [none_set] at power_eq
    have : (0 : Nat) = 1075 - scale := power_eq
    omega
  have whole : (1#1 ++ @unpackMantissa Format.binary64 value.bits.toBitVec).toNat
      = significand := by
    refine (toNat_implicit _).trans ?_
    rw [mantissa_eq]
    omega
  have exponent_eq : ((@unpackExponent Format.binary64 value.bits.toBitVec).toNat : Int)
      - (Format.binary64.exponentBias + Format.binary64.mantissaBitsWithoutImplicit)
      = -scale := by
    rw [power_eq]
    show ((1075 - scale : Nat) : Int) - (1023 + 52) = -scale
    omega
  unfold UnpackedFloat.unpack
  dsimp only
  rw [if_neg finite, if_neg notSmall]
  exact finite_eq (congrArg Sign.ofBitVec sign_eq) whole exponent_eq

theorem of_pack (low : 2 ^ 52 ≤ significand) (high : significand < 2 ^ 53)
    (scale_le : scale ≤ 1000) (pos : 0 < significand) :
    IsNormal ⟨(Float.Model.pack (.finite .positive significand (-scale) pos)).toBits⟩
      significand scale := by
  refine ⟨low, high, scale_le, ?_⟩
  show (UnpackedFloat.pack Format.binary64 (.finite .positive significand (-scale) pos)).toNat = _
  have log : significand.log2 = 52 := (Nat.log2_eq_iff (Nat.ne_of_gt pos)).mpr ⟨low, high⟩
  have biased : (-scale + (1023 : Nat) + (52 : Nat) : Int).toNat = 1075 - scale := by omega
  have bound : ¬ 2 ^ 11 ≤ 1075 - scale + 1 := by omega
  unfold UnpackedFloat.pack
  show BitVec.toNat (if 2 ^ 11 ≤ (-scale + (1023 : Nat) + (52 : Nat) : Int).toNat + 1 then _ else
    if significand.log2 + 1 = 53 then packComponents Format.binary64 .positive
      (BitVec.ofNat 11 (-scale + (1023 : Nat) + (52 : Nat) : Int).toNat)
      (BitVec.ofNat 52 significand)
      else _) = _
  rw [biased, if_neg bound, if_pos (by rw [log]), toNat_packComponents, BitVec.toNat_ofNat,
    BitVec.toNat_ofNat]
  omega

/-- What arithmetic sees of an operand. -/
theorem unpack_toFloat (normal : value.IsNormal significand scale) :
    value.toFloat.toModel.unpack = .finite .positive significand (-scale) normal.pos := by
  show (Float.Model.ofBits value.bits).unpack = _
  rw [Float.Model.ofBits, normal.unpack]
  exact (of_pack normal.low normal.high normal.scale_le normal.pos).unpack

/-- What arithmetic makes of a result. -/
theorem ofResult_pack (low : 2 ^ 52 ≤ significand) (high : significand < 2 ^ 53)
    (scale_le : scale ≤ 1000) (pos : 0 < significand) :
    IsNormal (ofResult (.ofModel (.pack (.finite .positive significand (-scale) pos))))
      significand scale := by
  have packed := of_pack low high scale_le pos
  have number : (Float.ofModel (.pack (.finite .positive significand (-scale) pos))).isNaN
      = false := by
    show UnpackedFloat.isNaN (Float.Model.pack _).unpack = false
    rw [show (Float.Model.pack (.finite .positive significand (-scale) pos)).unpack
      = .finite .positive significand (-scale) pos from packed.unpack]
    rfl
  rw [ofResult, number]
  exact packed

end IsNormal

end Binary64

end TimeSeries
