import TimeSeries.Bytes

/-!
# Numbers as bits

Bits are written and read the most significant first, and byte by byte: a field that does not end
with a byte is cut into slices, each of which lies within one.  A slice is taken out of a number by a
shift and a mask, and joined to the bits in front of it by a shift.

Main statements: `bitsOf_add` cuts the bits of a number in two, `bitsOf_slice` says which bits a slice
has, and `bitsOf_join` puts two numbers together.
-/

set_option autoImplicit false

namespace TimeSeries

/-- The `width` low bits of a number, the most significant first. -/
def bitsOf : Nat → Nat → List Bool
  | 0, _ => []
  | width + 1, number => number.testBit width :: bitsOf width number

@[simp] theorem bitsOf_zero (number : Nat) : bitsOf 0 number = [] := rfl

/-- As many bits of a number as are asked for, from above its `low` lowest ones. -/
def slice (number low width : Nat) : Nat := number >>> low &&& (2 ^ width - 1)

/-- A number with the `low` bits of another one behind it. -/
def join (number low chunk : Nat) : Nat := number <<< low ||| chunk

theorem slice_lt (number low width : Nat) : slice number low width < 2 ^ width := by
  rw [slice, Nat.and_two_pow_sub_one_eq_mod]
  exact Nat.mod_lt _ (Nat.two_pow_pos width)

theorem join_eq {low chunk : Nat} (number : Nat) (fits : chunk < 2 ^ low) :
    join number low chunk = number * 2 ^ low + chunk := by
  rw [join, ← Nat.shiftLeft_add_eq_or_of_lt fits, Nat.shiftLeft_eq]

theorem join_lt {high number low chunk : Nat} (numberFits : number < 2 ^ high)
    (fits : chunk < 2 ^ low) : join number low chunk < 2 ^ (high + low) := by
  have above : (number + 1) * 2 ^ low ≤ 2 ^ high * 2 ^ low := Nat.mul_le_mul_right _ numberFits
  rw [join_eq number fits, Nat.pow_add]
  rw [Nat.add_mul, Nat.one_mul] at above
  omega

theorem bitsOf_congr {width number other : Nat}
    (same : ∀ place < width, number.testBit place = other.testBit place) :
    bitsOf width number = bitsOf width other := by
  induction width with
  | zero => rfl
  | succ width ih =>
      rw [bitsOf, bitsOf, same width (Nat.lt_succ_self width),
        ih fun place below => same place (Nat.lt_succ_of_lt below)]

/-- The higher bits of a number come before the lower ones. -/
theorem bitsOf_add (high low number : Nat) :
    bitsOf (high + low) number = bitsOf high (number >>> low) ++ bitsOf low number := by
  induction high with
  | zero => rw [Nat.zero_add, bitsOf_zero, List.nil_append]
  | succ high ih =>
      rw [Nat.succ_add, bitsOf, ih, bitsOf, List.cons_append, Nat.testBit_shiftRight,
        Nat.add_comm low]

theorem bitsOf_slice (number low width : Nat) :
    bitsOf width (slice number low width) = bitsOf width (number >>> low) := by
  refine bitsOf_congr fun place within => ?_
  rw [slice, Nat.testBit_and, Nat.testBit_two_pow_sub_one, decide_eq_true within, Bool.and_true]

theorem bitsOf_join (high number : Nat) {low chunk : Nat} (fits : chunk < 2 ^ low) :
    bitsOf (high + low) (join number low chunk) = bitsOf high number ++ bitsOf low chunk := by
  have above : join number low chunk >>> low = number := by
    rw [join_eq number fits, Nat.shiftRight_eq_div_pow, Nat.mul_comm,
      Nat.mul_add_div (Nat.two_pow_pos low), Nat.div_eq_of_lt fits, Nat.add_zero]
  have below : ∀ place < low, (join number low chunk).testBit place = chunk.testBit place := by
    intro place within
    rw [join, Nat.testBit_or, Nat.testBit_shiftLeft, decide_eq_false (Nat.not_le.mpr within),
      Bool.false_and, Bool.false_or]
  rw [bitsOf_add, above, bitsOf_congr below]

theorem bitsOf_toNat (bit : Bool) : bitsOf 1 bit.toNat = [bit] := by
  cases bit <;> rfl

/-- A number with one more bit at the low end. -/
def withBit (number : Nat) (bit : Bool) : Nat := 2 * number + bit.toNat

/-- The bits of a number with one more bit at the low end. -/
theorem bitsOf_withBit (width number : Nat) (bit : Bool) :
    bitsOf (width + 1) (withBit number bit) = bitsOf width number ++ [bit] := by
  have fits : bit.toNat < 2 ^ 1 := Nat.lt_succ_of_le (Bool.toNat_le bit)
  have joined : withBit number bit = join number 1 bit.toNat := by
    rw [join_eq number fits, withBit, Nat.pow_one, Nat.mul_comm]
  rw [joined, bitsOf_join width number fits, bitsOf_toNat]

end TimeSeries
