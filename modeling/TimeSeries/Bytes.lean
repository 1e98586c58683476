/-!
# Byte strings and fixed-width words

Rows, values and block images are byte strings, compared byte by byte from the left.  A 64-bit word
is written as exactly eight bytes, most significant first in rows and values (`Bytes.ofWord`) and
least significant first in block images (`Bytes.ofWordLE`).  Reading takes the bytes it needs and
returns the rest (`Bytes.takeWord?`), so a reader over several fields is a chain of such steps.

Main statements: `takeWord?_ofWord_append` says that a word is read back from in front of anything,
and `toNatBE_ofNatBE`, `ofNatBE_toNatBE` that eight bytes and a 64-bit word are the same data.
-/

set_option autoImplicit false

namespace TimeSeries

/-- Powers of natural numbers are the built-in ones, whatever other powers a module can see. -/
instance (priority := 10000) powNat : Pow Nat Nat := instPowNat

/-- A byte string. -/
abbrev Bytes := List UInt8

namespace Bytes

/-! ## Numbers as digits in base 256 -/

/-- The `width` low digits of a number in base 256, most significant first. -/
def ofNatBE : Nat → Nat → Bytes
  | 0, _ => []
  | width + 1, number => UInt8.ofNat (number / 256 ^ width % 256) :: ofNatBE width number

/-- The number whose digits in base 256 are the given bytes, most significant first. -/
def toNatBE : Bytes → Nat
  | [] => 0
  | byte :: rest => byte.toNat * 256 ^ rest.length + toNatBE rest

/-- The `width` low digits of a number in base 256, least significant first. -/
def ofNatLE (width number : Nat) : Bytes :=
  (ofNatBE width number).reverse

/-- The number whose digits in base 256 are the given bytes, least significant first. -/
def toNatLE (bytes : Bytes) : Nat :=
  toNatBE bytes.reverse

@[simp] theorem length_ofNatBE (width number : Nat) : (ofNatBE width number).length = width := by
  induction width with
  | zero => rfl
  | succ width ih => simp only [ofNatBE, List.length_cons, ih]

@[simp] theorem length_ofNatLE (width number : Nat) : (ofNatLE width number).length = width := by
  simp only [ofNatLE, List.length_reverse, length_ofNatBE]

/-- A byte string of length `n` denotes a number below `256 ^ n`. -/
theorem toNatBE_lt (bytes : Bytes) : toNatBE bytes < 256 ^ bytes.length := by
  induction bytes with
  | nil => simp [toNatBE]
  | cons byte rest ih =>
      have digit : byte.toNat ≤ 255 := Nat.le_of_lt_succ byte.toNat_lt
      have scaled : byte.toNat * 256 ^ rest.length ≤ 255 * 256 ^ rest.length :=
        Nat.mul_le_mul_right _ digit
      simp only [toNatBE, List.length_cons, Nat.pow_succ]
      omega

/-- Writing then reading keeps the digits that fit. -/
theorem toNatBE_ofNatBE (width number : Nat) :
    toNatBE (ofNatBE width number) = number % 256 ^ width := by
  induction width with
  | zero => simp [ofNatBE, toNatBE, Nat.mod_one]
  | succ width ih =>
      have digit : number / 256 ^ width % 256 < 256 := Nat.mod_lt _ (by decide)
      simp only [ofNatBE, toNatBE, length_ofNatBE, ih, UInt8.toNat_ofNat']
      rw [Nat.mod_eq_of_lt digit, Nat.pow_succ, Nat.mod_mul, Nat.mul_comm]
      exact Nat.add_comm _ _

/-- Reading then writing gives the same bytes back. -/
theorem ofNatBE_toNatBE (bytes : Bytes) : ofNatBE bytes.length (toNatBE bytes) = bytes := by
  have ofNatBE_low : ∀ (width high low : Nat),
      ofNatBE width (high * 256 ^ width + low) = ofNatBE width low := by
    intro width
    induction width with
    | zero => intros; rfl
    | succ width ih =>
        intro high low
        have split : high * 256 ^ (width + 1) + low = 256 ^ width * (256 * high) + low := by
          rw [Nat.pow_succ, Nat.mul_comm high, Nat.mul_assoc]
        have tail : ofNatBE width (high * 256 ^ (width + 1) + low) = ofNatBE width low := by
          have shape : high * 256 ^ (width + 1) + low = 256 * high * 256 ^ width + low := by
            rw [split, Nat.mul_comm (256 ^ width)]
          rw [shape, ih]
        have head : (high * 256 ^ (width + 1) + low) / 256 ^ width % 256
            = low / 256 ^ width % 256 := by
          rw [split, Nat.mul_add_div (Nat.pow_pos (by decide)), Nat.mul_add_mod]
        simp only [ofNatBE, tail, head]
  induction bytes with
  | nil => rfl
  | cons byte rest ih =>
      have below : toNatBE rest < 256 ^ rest.length := toNatBE_lt rest
      have digit : byte.toNat < 256 := byte.toNat_lt
      have head : (byte.toNat * 256 ^ rest.length + toNatBE rest) / 256 ^ rest.length % 256
          = byte.toNat := by
        rw [Nat.mul_comm, Nat.mul_add_div (Nat.pow_pos (by decide)), Nat.div_eq_of_lt below,
          Nat.add_zero, Nat.mod_eq_of_lt digit]
      simp only [List.length_cons, ofNatBE, toNatBE, head, ofNatBE_low, ih, UInt8.ofNat_toNat]

/-! ## 64-bit words -/

/-- The eight bytes of a word, most significant first. -/
def ofWord (word : UInt64) : Bytes :=
  ofNatBE 8 word.toNat

/-- The eight bytes of a word, least significant first. -/
def ofWordLE (word : UInt64) : Bytes :=
  ofNatLE 8 word.toNat

/-- The word of the first eight bytes, most significant first, and the bytes after it. -/
def takeWord? (bytes : Bytes) : Option (UInt64 × Bytes) :=
  if 8 ≤ bytes.length then
    some (UInt64.ofNat (toNatBE (bytes.take 8)), bytes.drop 8)
  else
    none

/-- The word of the first eight bytes, least significant first, and the bytes after it. -/
def takeWordLE? (bytes : Bytes) : Option (UInt64 × Bytes) :=
  if 8 ≤ bytes.length then
    some (UInt64.ofNat (toNatLE (bytes.take 8)), bytes.drop 8)
  else
    none

@[simp] theorem length_ofWord (word : UInt64) : (ofWord word).length = 8 :=
  length_ofNatBE 8 word.toNat

@[simp] theorem length_ofWordLE (word : UInt64) : (ofWordLE word).length = 8 :=
  length_ofNatLE 8 word.toNat

/-- A word is read back from in front of anything. -/
@[simp] theorem takeWord?_ofWord_append (word : UInt64) (rest : Bytes) :
    takeWord? (ofWord word ++ rest) = some (word, rest) := by
  have fits : word.toNat < 256 ^ 8 := word.toNat_lt
  have take : (ofWord word ++ rest).take 8 = ofWord word := by
    rw [List.take_append_of_le_length (by simp), List.take_of_length_le (by simp)]
  have drop : (ofWord word ++ rest).drop 8 = rest := by
    rw [List.drop_append_of_le_length (by simp), List.drop_of_length_le (by simp), List.nil_append]
  have long : 8 ≤ (ofWord word ++ rest).length := by simp
  simp only [takeWord?, long, if_true, take, drop]
  rw [ofWord, toNatBE_ofNatBE, Nat.mod_eq_of_lt fits, UInt64.ofNat_toNat]

/-- A word is read back from in front of anything, in the other byte order as well. -/
@[simp] theorem takeWordLE?_ofWordLE_append (word : UInt64) (rest : Bytes) :
    takeWordLE? (ofWordLE word ++ rest) = some (word, rest) := by
  have fits : word.toNat < 256 ^ 8 := word.toNat_lt
  have take : (ofWordLE word ++ rest).take 8 = ofWordLE word := by
    rw [List.take_append_of_le_length (by simp), List.take_of_length_le (by simp)]
  have drop : (ofWordLE word ++ rest).drop 8 = rest := by
    rw [List.drop_append_of_le_length (by simp), List.drop_of_length_le (by simp), List.nil_append]
  have long : 8 ≤ (ofWordLE word ++ rest).length := by simp
  simp only [takeWordLE?, long, if_true, take, drop]
  rw [ofWordLE, toNatLE, ofNatLE, List.reverse_reverse, toNatBE_ofNatBE, Nat.mod_eq_of_lt fits,
    UInt64.ofNat_toNat]

/-! ## Hexadecimal text -/

/-- The digit of a number below sixteen. -/
def hexDigit (number : Nat) : Char :=
  if number < 10 then Char.ofNat (48 + number) else Char.ofNat (87 + number)

/-- Two hexadecimal digits. -/
def hexByte (byte : UInt8) : List Char :=
  [hexDigit (byte.toNat / 16), hexDigit (byte.toNat % 16)]

/-- A byte string in hexadecimal, two digits a byte. -/
def toHex (bytes : Bytes) : String :=
  String.ofList (bytes.flatMap hexByte)

/-- The value of a hexadecimal digit. -/
def hexValue? (digit : Char) : Option Nat :=
  if '0' ≤ digit ∧ digit ≤ '9' then some (digit.toNat - 48)
  else if 'a' ≤ digit ∧ digit ≤ 'f' then some (digit.toNat - 87)
  else if 'A' ≤ digit ∧ digit ≤ 'F' then some (digit.toNat - 55)
  else none

/-- Reads pairs of hexadecimal digits. -/
def ofHexDigits? : List Char → Option Bytes
  | [] => some []
  | [_] => none
  | high :: low :: rest => do
      let highValue ← hexValue? high
      let lowValue ← hexValue? low
      let bytes ← ofHexDigits? rest
      return UInt8.ofNat (16 * highValue + lowValue) :: bytes

/-- The bytes a hexadecimal text denotes. -/
def ofHex? (text : String) : Option Bytes :=
  ofHexDigits? text.toList

end Bytes

end TimeSeries
