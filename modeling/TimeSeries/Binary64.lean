/-!
# Sample values

A sample value is a double-precision number kept as its 64 bits, because a store returns what was
put into it bit for bit: the sign of zero and the payload of a not-a-number are part of the value.

Arithmetic is that of IEEE 754 with rounding to the nearest even.  What the standard leaves open is
fixed here: an operation with a not-a-number among its operands returns the first such operand,
made quiet, and an invalid operation on numbers returns the quiet not-a-number with the sign bit
set and no payload (`Binary64.invalid`).

Values have two orders.  `Binary64.lt` is the numeric one, in which a not-a-number is below nothing
and above nothing and the zeros are equal.  `Binary64.totalOrder` sorts every bit pattern: negative
not-a-numbers, negative numbers, negative zero, positive zero, positive numbers, positive
not-a-numbers.
-/

set_option autoImplicit false

namespace TimeSeries

/-- A double-precision number, as its bits. -/
structure Binary64 where
  bits : UInt64
  deriving DecidableEq, Repr, Inhabited

namespace Binary64

/-! ## Landmarks -/

def signBit : UInt64 := 0x8000000000000000

/-- The bit that tells a quiet not-a-number from a signalling one. -/
def quietBit : UInt64 := 0x0008000000000000

def zero : Binary64 := ⟨0⟩

def negativeZero : Binary64 := ⟨signBit⟩

def infinity : Binary64 := ⟨0x7ff0000000000000⟩

/-- The plain quiet not-a-number. -/
def notANumber : Binary64 := ⟨0x7ff8000000000000⟩

/-- What an invalid operation on numbers yields. -/
def invalid : Binary64 := ⟨0xfff8000000000000⟩

/-- The numeric meaning of the bits. -/
def toFloat (value : Binary64) : Float :=
  Float.ofBits value.bits

/-- All exponent bits set and a fraction other than zero. -/
def isNaN (value : Binary64) : Bool :=
  value.bits &&& 0x7fffffffffffffff > 0x7ff0000000000000

/-- A number or an infinity. -/
def isFinite (value : Binary64) : Bool :=
  value.bits &&& 0x7fffffffffffffff < 0x7ff0000000000000

/-- The same not-a-number, no longer signalling. -/
def quieted (value : Binary64) : Binary64 :=
  ⟨value.bits ||| quietBit⟩

def neg (value : Binary64) : Binary64 :=
  ⟨value.bits ^^^ signBit⟩

/-! ## Arithmetic -/

/-- The bits of a computed number; a result that is none came from an invalid operation. -/
def ofResult (result : Float) : Binary64 :=
  if result.isNaN then invalid else ⟨result.toBits⟩

/-- Applies an operation on numbers; a not-a-number among the operands passes through. -/
def lift (operation : Float → Float → Float) (left right : Binary64) : Binary64 :=
  if left.isNaN then left.quieted
  else if right.isNaN then right.quieted
  else ofResult (operation left.toFloat right.toFloat)

def add : Binary64 → Binary64 → Binary64 := lift Float.add

def sub : Binary64 → Binary64 → Binary64 := lift Float.sub

def mul : Binary64 → Binary64 → Binary64 := lift Float.mul

def div : Binary64 → Binary64 → Binary64 := lift Float.div

instance : Add Binary64 := ⟨add⟩
instance : Sub Binary64 := ⟨sub⟩
instance : Mul Binary64 := ⟨mul⟩
instance : Div Binary64 := ⟨div⟩
instance : Neg Binary64 := ⟨neg⟩

def sqrt (value : Binary64) : Binary64 :=
  if value.isNaN then value.quieted else ofResult value.toFloat.sqrt

/-- The number nearest to a natural number below `2 ^ 64`. -/
def ofNat (number : Nat) : Binary64 :=
  ⟨(UInt64.ofNat number).toFloat.toBits⟩

/-- The number nearest to an integer of 64 bits. -/
def ofInt (number : Int) : Binary64 :=
  if number < 0 then neg (ofNat number.natAbs) else ofNat number.natAbs

/-- The least natural number not below a value between zero and `2 ^ 64`. -/
def ceilNat (value : Binary64) : Nat :=
  let whole := value.toFloat.toUInt64
  if whole.toFloat < value.toFloat then whole.toNat + 1 else whole.toNat

/-! ## Orders -/

/-- The numeric order: false as soon as one side is a not-a-number. -/
def lt (left right : Binary64) : Bool :=
  left.toFloat < right.toFloat

/-- The lesser of two values; a not-a-number gives way to the other side, and of two equal values
the first is kept. -/
def min (left right : Binary64) : Binary64 :=
  if left.isNaN then right else if right.lt left then right else left

/-- The greater of two values; a not-a-number gives way to the other side, and of two equal values
the first is kept. -/
def max (left right : Binary64) : Binary64 :=
  if left.isNaN then right else if left.lt right then right else left

/-- The place of a bit pattern in the total order: patterns with the sign bit come first, in
reverse. -/
def rank (value : Binary64) : UInt64 :=
  if value.bits &&& signBit = 0 then value.bits ^^^ signBit else ~~~value.bits

/-- The order of all bit patterns by their `rank`. -/
def totalOrder (left right : Binary64) : Bool :=
  left.rank ≤ right.rank

end Binary64

end TimeSeries
