import Mathlib.Algebra.Group.Nat.Defs
import Mathlib.Logic.Function.Basic
import TimeSeries.Proofs.Block.Images

/-!
# Images with damaged bytes

The register of a checksum is moved by one bit at a time, and each move can be undone: the bit that
leaves at the low end is the one at the high end afterwards (`Checksum.shift_injective`).  Up to
four bytes that are absorbed in turn have the same effect as the word that they are the digits of,
put into the register at once (`Checksum.foldl_absorb`).  So different bytes of the same length, no more
than four, lead to different registers, and equal bytes behind them keep the registers apart.

An image ends in the checksum of its body.  Put into the register as further bytes, the checksum
flips all bits that are left over, so that every image leaves the same register behind, its
`Checksum.residue` (`Block.agrees_iff_residue`).  With that the four bytes may lie anywhere: in the
header, in the data, in the checksum or across the place where it begins.

Main statement: `Block.burst_detected`.
-/

set_option autoImplicit false

namespace TimeSeries

namespace Checksum

/-! ## Single bits -/

theorem and_one_eq_one_iff (register : UInt32) : register &&& 1 = 1 ↔ register.toNat % 2 = 1 := by
  rw [← UInt32.toNat_inj, UInt32.toNat_and]
  show register.toNat &&& 1 = 1 ↔ _
  rw [Nat.and_one_is_mod]

theorem toNat_half (register : UInt32) : (register >>> 1).toNat = register.toNat / 2 := by
  rw [UInt32.toNat_shiftRight]
  rfl

/-- The bit that leaves the register is set in the polynomial's place at the high end. -/
theorem testBit_shift (register : UInt32) :
    (shift register).toNat.testBit 31 = decide (register.toNat % 2 = 1) := by
  have vacated : (register.toNat / 2).testBit 31 = false := by
    refine Nat.testBit_lt_two_pow ?_
    have below := register.toNat_lt
    omega
  unfold shift
  split
  case isTrue odd =>
      rw [and_one_eq_one_iff] at odd
      rw [UInt32.toNat_xor, Nat.testBit_xor, toNat_half, vacated, odd]
      decide
  case isFalse even =>
      rw [and_one_eq_one_iff] at even
      rw [toNat_half, vacated, decide_eq_false even]

theorem shift_injective : Function.Injective shift := by
  intro first second same
  have low : first.toNat % 2 = second.toNat % 2 := by
    have bits := congrArg (fun register => register.toNat.testBit 31) same
    simp only [testBit_shift, decide_eq_decide] at bits
    omega
  have high : first >>> 1 = second >>> 1 := by
    unfold shift at same
    simp only [and_one_eq_one_iff, low] at same
    split at same
    · exact (UInt32.xor_left_inj polynomial).mp same
    · exact same
  have halves := congrArg UInt32.toNat high
  rw [toNat_half, toNat_half] at halves
  exact UInt32.toNat_inj.mp (by omega)

theorem shift_xor (first second : UInt32) :
    shift (first ^^^ second) = shift first ^^^ shift second := by
  have twice : ∀ left right : UInt32,
      left ^^^ polynomial ^^^ (right ^^^ polynomial) = left ^^^ right := by
    intro left right
    rw [UInt32.xor_comm right, UInt32.xor_assoc, ← UInt32.xor_assoc polynomial, UInt32.xor_self,
      UInt32.zero_xor]
  unfold shift
  simp only [and_one_eq_one_iff, UInt32.toNat_xor, Nat.xor_mod_two_eq_one, UInt32.shiftRight_xor]
  by_cases oddFirst : first.toNat % 2 = 1
  · by_cases oddSecond : second.toNat % 2 = 1
    · simp [oddFirst, oddSecond, twice]
    · simp only [oddFirst, oddSecond, iff_false, not_true, not_false_iff, if_true, if_false]
      ac_rfl
  · by_cases oddSecond : second.toNat % 2 = 1
    · simp only [oddFirst, oddSecond, iff_true, not_false_iff, if_true, if_false]
      ac_rfl
    · simp [oddFirst, oddSecond]

/-- A register without a bit at the low end only moves down. -/
theorem shift_ofNat_two_mul {number : Nat} (fits : 2 * number < 2 ^ 32) :
    shift (UInt32.ofNat (2 * number)) = UInt32.ofNat number := by
  have whole : (UInt32.ofNat (2 * number)).toNat = 2 * number := UInt32.toNat_ofNat_of_lt' fits
  have even : ¬ UInt32.ofNat (2 * number) &&& 1 = 1 := by
    rw [and_one_eq_one_iff, whole]
    omega
  rw [shift, if_neg even, ← UInt32.toNat_inj, toNat_half, whole,
    UInt32.toNat_ofNat_of_lt' (show number < 2 ^ 32 by omega)]
  omega

/-! ## Several bits -/

theorem shiftBy_add (first second : Nat) (register : UInt32) :
    shiftBy (first + second) register = shiftBy second (shiftBy first register) := by
  induction first generalizing register with
  | zero => rw [Nat.zero_add, shiftBy]
  | succ first ih => rw [Nat.succ_add, shiftBy, shiftBy, ih]

theorem shiftBy_injective (bits : Nat) : Function.Injective (shiftBy bits) := by
  induction bits with
  | zero => exact fun _ _ same => same
  | succ bits ih => exact fun _ _ same => shift_injective (ih same)

theorem shiftBy_xor (bits : Nat) (first second : UInt32) :
    shiftBy bits (first ^^^ second) = shiftBy bits first ^^^ shiftBy bits second := by
  induction bits generalizing first second with
  | zero => rfl
  | succ bits ih => rw [shiftBy, shift_xor, ih, shiftBy, shiftBy]

theorem shiftBy_ofNat {bits number : Nat} (fits : number * 2 ^ bits < 2 ^ 32) :
    shiftBy bits (UInt32.ofNat (number * 2 ^ bits)) = UInt32.ofNat number := by
  induction bits with
  | zero => rw [Nat.pow_zero, Nat.mul_one, shiftBy]
  | succ bits ih =>
      have doubled : number * 2 ^ (bits + 1) = 2 * (number * 2 ^ bits) := by
        rw [Nat.pow_succ, Nat.mul_comm (2 ^ bits), Nat.mul_left_comm]
      rw [doubled] at fits ⊢
      rw [shiftBy, shift_ofNat_two_mul fits, ih (by omega)]

/-! ## Bytes -/

end Checksum

theorem Bytes.toNatBE_append_singleton (bytes : Bytes) (byte : UInt8) :
    toNatBE (bytes ++ [byte]) = 256 * toNatBE bytes + byte.toNat := by
  induction bytes with
  | nil => simp [toNatBE]
  | cons head bytes ih =>
      rw [List.cons_append, toNatBE, toNatBE, ih, List.length_append, List.length_singleton,
        Nat.pow_succ, ← Nat.mul_assoc]
      omega

theorem Bytes.toNatLE_cons (byte : UInt8) (bytes : Bytes) :
    toNatLE (byte :: bytes) = 256 * toNatLE bytes + byte.toNat := by
  rw [toNatLE, List.reverse_cons, toNatBE_append_singleton, toNatLE]

/-- A digit in front of others does not meet their bits. -/
theorem Bytes.toNatLE_cons_eq_xor (byte : UInt8) (bytes : Bytes) :
    toNatLE (byte :: bytes) = byte.toNat ^^^ toNatLE bytes * 2 ^ 8 := by
  rw [toNatLE_cons]
  refine Nat.eq_of_testBit_eq fun place => ?_
  have joined := Nat.testBit_two_pow_mul_add (toNatLE bytes) byte.toNat_lt place
  rw [Nat.testBit_xor, Nat.testBit_mul_two_pow]
  refine joined.trans ?_
  split
  case isTrue low => simp [Nat.not_le_of_lt low]
  case isFalse high =>
      have beyond : byte.toNat.testBit place = false := by
        refine Nat.testBit_lt_two_pow (Nat.lt_of_lt_of_le byte.toNat_lt ?_)
        exact Nat.pow_le_pow_right (by decide) (Nat.le_of_not_lt high)
      simp [beyond, Nat.le_of_not_lt high]

namespace Checksum

/-- Up to four bytes have the effect of their word. -/
theorem foldl_absorb {bytes : Bytes} (short : bytes.length ≤ 4) (register : UInt32) :
    bytes.foldl absorb register
      = shiftBy (8 * bytes.length) (register ^^^ UInt32.ofNat (Bytes.toNatLE bytes)) := by
  induction bytes generalizing register with
  | nil => exact UInt32.xor_zero.symm
  | cons byte bytes ih =>
      rw [List.length_cons] at short
      have fits : Bytes.toNatLE bytes * 2 ^ 8 < 2 ^ 32 := by
        have below := Bytes.toNatLE_lt bytes
        have within : 256 ^ bytes.length ≤ 256 ^ 3 :=
          Nat.pow_le_pow_right (by decide) (by omega)
        omega
      have digit : byte.toUInt32 = UInt32.ofNat byte.toNat := by simp
      rw [List.foldl_cons, ih (by omega), absorb, ← shiftBy_ofNat fits, ← shiftBy_xor,
        ← shiftBy_add, UInt32.xor_assoc, digit, ← UInt32.ofNat_xor, ← Bytes.toNatLE_cons_eq_xor,
        List.length_cons, Nat.mul_succ, Nat.add_comm 8]

theorem absorb_injective (byte : UInt8) : Function.Injective (absorb · byte) := by
  intro first second same
  exact (UInt32.xor_left_inj byte.toUInt32).mp (shiftBy_injective 8 same)

/-- Bytes keep different registers apart. -/
theorem foldl_absorb_injective (bytes : Bytes) : Function.Injective (bytes.foldl absorb ·) := by
  induction bytes with
  | nil => exact fun _ _ same => same
  | cons byte bytes ih => exact fun _ _ same => absorb_injective byte (ih same)

/-- Different bytes, equally many and at most four, bring a register apart. -/
theorem eq_of_foldl_absorb {first second : Bytes} {register : UInt32}
    (length : first.length = second.length) (short : first.length ≤ 4)
    (same : first.foldl absorb register = second.foldl absorb register) : first = second := by
  rw [foldl_absorb short, foldl_absorb (length ▸ short), length] at same
  have words := (UInt32.xor_right_inj register).mp (shiftBy_injective _ same)
  have fits : ∀ bytes : Bytes, bytes.length ≤ 4 → Bytes.toNatLE bytes < 2 ^ 32 := by
    intro bytes short
    refine Nat.lt_of_lt_of_le (Bytes.toNatLE_lt bytes) ?_
    exact Nat.pow_le_pow_right (by decide : 0 < 256) short
  have numbers : Bytes.toNatLE first = Bytes.toNatLE second := by
    have := congrArg UInt32.toNat words
    rwa [UInt32.toNat_ofNat_of_lt' (fits first short),
      UInt32.toNat_ofNat_of_lt' (fits second (length ▸ short))] at this
  rw [← Bytes.ofNatLE_toNatLE first, ← Bytes.ofNatLE_toNatLE second, length, numbers]

/-- What every image leaves in the register. -/
def residue : UInt32 := shiftBy 32 0xffffffff

/-- Four bytes are the checksum of the bytes in front of them exactly if together they leave the
residue. -/
theorem eq_ofBytes_iff_residue {body trailer : Bytes} (four : trailer.length = 4) :
    UInt32.ofNat (Bytes.toNatLE trailer) = ofBytes body
      ↔ (body ++ trailer).foldl absorb 0xffffffff = residue := by
  rw [List.foldl_append, foldl_absorb (Nat.le_of_eq four), four, residue,
    (shiftBy_injective 32).eq_iff, ofBytes]
  generalize body.foldl absorb 0xffffffff = register
  generalize UInt32.ofNat (Bytes.toNatLE trailer) = word
  constructor
  · rintro rfl
    rw [UInt32.xor_not, UInt32.xor_self]
    rfl
  · intro all
    have flipped : register ^^^ ~~~register = 0xffffffff := by
      rw [UInt32.xor_not, UInt32.xor_self]
      rfl
    rw [← flipped] at all
    exact (UInt32.xor_right_inj register).mp all

/-- The digits from one to nine and their checksum. -/
example :
    let digits : Bytes := [0x31, 0x32, 0x33, 0x34, 0x35, 0x36, 0x37, 0x38, 0x39]
    (digits ++ [0x26, 0x39, 0xf4, 0xcb]).foldl absorb 0xffffffff = residue := by
  decide +kernel

end Checksum

/-! ## Bytes that agree outside of a stretch -/

/-- The bytes are equally many, and those that differ lie within so many from a place on. -/
structure Bytes.AgreeOutside (start width : Nat) (first second : Bytes) : Prop where
  length : first.length = second.length
  near : ∀ place < first.length, first[place]? ≠ second[place]? →
    start ≤ place ∧ place < start + width

namespace Bytes.AgreeOutside

variable {start width : Nat} {first second : Bytes}

theorem getElem?_eq (agree : AgreeOutside start width first second) {place : Nat}
    (outside : ¬ (start ≤ place ∧ place < start + width)) : first[place]? = second[place]? := by
  by_cases within : place < first.length
  · by_contra differ
    exact outside (agree.near place within differ)
  · have beyond := Nat.le_of_not_lt within
    rw [List.getElem?_eq_none beyond, List.getElem?_eq_none (agree.length ▸ beyond)]

/-- Both are the same bytes around a stretch of equal length. -/
theorem exists_parts (agree : AgreeOutside start width first second) :
    ∃ front firstPart secondPart back, first = front ++ (firstPart ++ back)
      ∧ second = front ++ (secondPart ++ back)
      ∧ firstPart.length = secondPart.length ∧ firstPart.length ≤ width := by
  have fronts : second.take start = first.take start := by
    refine List.ext_getElem? fun place => ?_
    by_cases before : place < start
    · rw [List.getElem?_take_of_lt before, List.getElem?_take_of_lt before]
      exact (agree.getElem?_eq (by omega)).symm
    · rw [List.getElem?_take_eq_none (Nat.not_lt.mp before),
        List.getElem?_take_eq_none (Nat.not_lt.mp before)]
  have backs : second.drop (start + width) = first.drop (start + width) := by
    refine List.ext_getElem? fun place => ?_
    rw [List.getElem?_drop, List.getElem?_drop]
    exact (agree.getElem?_eq (by omega)).symm
  have split : ∀ bytes : Bytes,
      bytes
        = bytes.take start ++ ((bytes.drop start).take width ++ bytes.drop (start + width)) := by
    intro bytes
    rw [← List.drop_drop, List.take_append_drop, List.take_append_drop]
  refine ⟨first.take start, (first.drop start).take width, (second.drop start).take width,
    first.drop (start + width), split first, ?_, ?_, List.length_take_le _ _⟩
  · rw [← fronts, ← backs]
    exact split second
  · simp only [List.length_take, List.length_drop, agree.length]

end Bytes.AgreeOutside

namespace Block

open Checksum (absorb residue)

/-- Bytes end in the checksum of what is in front of it exactly if they leave the residue. -/
theorem agrees_iff_residue {image : Bytes} (long : 4 ≤ image.length) :
    trailer image = Checksum.ofBytes (image.take (image.length - 4))
      ↔ image.foldl absorb 0xffffffff = residue := by
  have four : (image.drop (image.length - 4)).length = 4 := by
    rw [List.length_drop]
    omega
  rw [trailer, Checksum.eq_ofBytes_iff_residue four, List.take_append_drop]

theorem foldl_absorb_checked (body : Bytes) :
    (checked body).foldl absorb 0xffffffff = residue := by
  refine (agrees_iff_residue ?_).mp ?_
  · rw [length_checked]
    omega
  · rw [trailer_checked, take_checked]

/-- **Damage in one place is noticed.**  If the image of a block is changed, in whatever way, within
four bytes that follow each other, wherever these may lie, then what it ends in is not the checksum
of what is in front of that, and it is reported with both checksums. -/
theorem burst_detected (block : Block) {damaged : Bytes} {start : Nat}
    (near : damaged.AgreeOutside start 4 block.toImage) (changed : damaged ≠ block.toImage) :
    ∃ stored computed, stored ≠ computed
      ∧ ofImage damaged = .error (.malformed (.checksumMismatch stored computed)) := by
  have image : block.toImage = checked (block.bodyWith []) := toImage_eq block
  have long : 4 ≤ damaged.length := by
    rw [near.length, image, length_checked]
    omega
  have mismatch : trailer damaged
      ≠ Checksum.ofBytes (damaged.take (damaged.length - 4)) := by
    intro agrees
    have left := (agrees_iff_residue long).mp agrees
    obtain ⟨front, damagedPart, part, back, whole, wholeImage, length, short⟩ :=
      Bytes.AgreeOutside.exists_parts near
    have leftByImage := foldl_absorb_checked (block.bodyWith [])
    rw [← image, ← left, whole, wholeImage] at leftByImage
    simp only [List.foldl_append] at leftByImage
    -- Behind the stretch the bytes are equal, so the registers have to be equal right behind it.
    have together := Checksum.foldl_absorb_injective back leftByImage
    have same := Checksum.eq_of_foldl_absorb length short together.symm
    exact changed (by rw [whole, wholeImage, same])
  refine ⟨_, _, mismatch, ?_⟩
  rw [ofImage_eq, if_neg (Nat.not_lt_of_le long), if_neg mismatch]

/-- The last byte of the data and the first three of the checksum are changed. -/
theorem burst_detected_across :
    let block : Block := ⟨[0xab, 0xcd], 1, 1000, 1000⟩
    let damaged := block.toImage.take 33 ++ [0x00, 0x01, 0x02, 0x03] ++ block.toImage.drop 37
    damaged.AgreeOutside 33 4 block.toImage ∧ damaged ≠ block.toImage
      ∧ ∃ stored computed, stored ≠ computed
        ∧ ofImage damaged = .error (.malformed (.checksumMismatch stored computed)) := by
  intro block damaged
  have near : damaged.AgreeOutside 33 4 block.toImage := ⟨by decide +kernel, by decide +kernel⟩
  have changed : damaged ≠ block.toImage := by decide +kernel
  exact ⟨near, changed, burst_detected block near changed⟩

end Block

end TimeSeries
