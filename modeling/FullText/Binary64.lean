/-!
# Binary floating-point numbers

Scores, boosts and inverse document frequencies are IEEE 754 double-precision numbers. A number is
kept as its 64 bits, so that it can be stored in a snapshot and brought back unchanged, whatever
it is. Comparison is defined on the bits. Arithmetic is that of the processor; an operation on a
NaN yields that NaN in its quiet form, the left one before the right one, and an invalid operation
on other numbers yields the NaN with the sign bit set.

## Main definitions

* `Binary64` : a double-precision number, as its bits.
* `Binary64.magnitude`, `Binary64.isNegative` : the bits below the sign, and the sign.
* `Binary64.units` : the value of a magnitude in units of `2 ^ -1074`.
* `Binary64.same`, `Binary64.less`, `Binary64.lessOrSame` : comparison of numbers, in which a NaN
  takes no part.
* `Binary64.totalKey` : the key of the total order on all bit patterns.
-/

namespace FullText

/-- A double-precision number, as its bits: the sign, eleven bits of exponent, and 52 of
fraction. -/
structure Binary64 where
  /-- The 64 bits. -/
  bits : UInt64
  deriving DecidableEq

namespace Binary64

/-! ### Sign and magnitude -/

/-- The number `0`. -/
def zero : Binary64 := ⟨0⟩

/-- The number `1`. -/
def one : Binary64 := ⟨0x3FF0000000000000⟩

/-- One half. -/
def half : Binary64 := ⟨0x3FE0000000000000⟩

instance : Inhabited Binary64 := ⟨zero⟩

/-- The weight of the sign bit. -/
def signWeight : Nat := 0x8000000000000000

/-- The bits below the sign. They grow with the absolute value. -/
def magnitude (x : Binary64) : Nat := x.bits.toNat % signWeight

/-- Whether the sign bit is set. -/
def isNegative (x : Binary64) : Bool := decide (signWeight ≤ x.bits.toNat)

/-- The magnitude of infinity. Those of finite numbers are less, those of NaNs are greater. -/
def infinityMagnitude : Nat := 0x7FF0000000000000

/-- The number with the given sign and magnitude. -/
def ofMagnitude (negative : Bool) (m : Nat) : Binary64 :=
  ⟨UInt64.ofNat (if negative then signWeight + m else m)⟩

/-- Positive infinity. -/
def infinity : Binary64 := ofMagnitude false infinityMagnitude

/-- The quiet NaN without sign. -/
def nan : Binary64 := ⟨0x7FF8000000000000⟩

/-- Whether the bits stand for no number. -/
def isNaN (x : Binary64) : Bool := decide (infinityMagnitude < x.magnitude)

/-- Whether the bits stand for a finite number. -/
def isFinite (x : Binary64) : Bool := decide (x.magnitude < infinityMagnitude)

/-- The number with the opposite sign. -/
def negate (x : Binary64) : Binary64 := ofMagnitude (!x.isNegative) x.magnitude

/-- The weight of the lowest bit of the exponent, and of the leading one of the fraction. -/
def fractionWeight : Nat := 0x10000000000000

/-- The value of a finite magnitude in units of `2 ^ -1074`, the least positive number. The upper
bits are the exponent; the fraction gets a leading one unless the exponent is zero. -/
def units (m : Nat) : Nat :=
  if m < fractionWeight then m
  else (fractionWeight + m % fractionWeight) <<< (m / fractionWeight - 1)

/-- The number of units in one. -/
def unitsPerOne : Nat := 1 <<< 1074

/-! ### Comparison -/

/-- A key that orders all numbers, the two zeros alike. -/
def orderKey (x : Binary64) : Int := if x.isNegative then -x.magnitude else x.magnitude

/-- Whether two numbers are equal. The two zeros are, and a NaN equals nothing. -/
def same (x y : Binary64) : Bool :=
  !x.isNaN && !y.isNaN && decide (x.orderKey = y.orderKey)

/-- Whether one number is less than another. -/
def less (x y : Binary64) : Bool :=
  !x.isNaN && !y.isNaN && decide (x.orderKey < y.orderKey)

/-- Whether one number is less than another or equal to it. -/
def lessOrSame (x y : Binary64) : Bool :=
  !x.isNaN && !y.isNaN && decide (x.orderKey ≤ y.orderKey)

/-- A key that orders all bit patterns: the negative ones before the positive ones, each by their
magnitude. The negative zero comes right before the positive one. -/
def totalKey (x : Binary64) : Int :=
  if x.isNegative then -1 - (x.magnitude : Int) else x.magnitude

/-- Whether a number is finite and greater than zero. -/
def isPositiveFinite (x : Binary64) : Bool := x.isFinite && zero.less x

/-! ### Arithmetic -/

/-- The quiet form of a NaN. -/
def quiet (x : Binary64) : Binary64 := ⟨x.bits ||| 0x0008000000000000⟩

/-- The NaN that an invalid operation yields. -/
def invalid : Binary64 := ⟨0xFFF8000000000000⟩

/-- The bits of the result of a processor operation on numbers that are not NaN. -/
def ofFloat (r : Float) : Binary64 := if r.isNaN then invalid else ⟨r.toBits⟩

/-- The number as a processor operand. -/
def toFloat (x : Binary64) : Float := Float.ofBits x.bits

/-- An operation of two operands, with the rule for NaN operands. -/
def apply (op : Float → Float → Float) (x y : Binary64) : Binary64 :=
  if x.isNaN then x.quiet
  else if y.isNaN then y.quiet
  else ofFloat (op x.toFloat y.toFloat)

instance : Add Binary64 := ⟨apply (· + ·)⟩
instance : Sub Binary64 := ⟨apply (· - ·)⟩
instance : Mul Binary64 := ⟨apply (· * ·)⟩
instance : Div Binary64 := ⟨apply (· / ·)⟩

/-- The natural logarithm. That of one is exactly zero, and that of a finite number is never
positive infinity. -/
def log (x : Binary64) : Binary64 :=
  if x.isNaN then x.quiet
  else if x = one then zero
  else
    let result := ofFloat x.toFloat.log
    if x.isFinite && decide (result = infinity) then invalid else result

/-- The number, or zero in place of anything that is not greater than zero. -/
def clipAtZero (x : Binary64) : Binary64 := if zero.less x then x else zero

end Binary64

end FullText
