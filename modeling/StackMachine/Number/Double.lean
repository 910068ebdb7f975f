/-!
# Floating point numbers by their bits

A float of the machine is the 64 bits of an IEEE 754 double.  Keeping the bits,
not an abstract number, makes storing and reading one exact for every value,
each NaN and both zeros included.

Sign, order, negation, truncation and remainder are read off the bits in exact
integer arithmetic.  Sums, products, quotients and the elementary functions are
the host's.
-/

namespace StackMachine

/-- A double, as its bits. -/
structure Double where
  bits : UInt64
  deriving DecidableEq, Inhabited

namespace Double

/-- The NaN that arithmetic produces. -/
def nan : Double := ⟨0x7ff8000000000000⟩

/-- Positive zero. -/
def zero : Double := ⟨0⟩

/-- Is the sign bit set? -/
def isNegative (value : Double) : Bool :=
  0x8000000000000000 ≤ value.bits

/-- The number of magnitudes; a set sign bit adds as much. -/
def magnitudes : Nat := 0x8000000000000000

/-- The number of fractions; the fraction has fifty-two bits. -/
def fractions : Nat := 0x10000000000000

/-- The bits without the sign, as a number.  Among finite doubles a larger
magnitude has the larger number. -/
def magnitude (value : Double) : Nat :=
  value.bits.toNat % magnitudes

/-- The eleven exponent bits. -/
def exponentField (value : Double) : Nat :=
  value.magnitude / fractions

/-- The fifty-two fraction bits. -/
def fraction (value : Double) : Nat :=
  value.magnitude % fractions

def isNaN (value : Double) : Bool :=
  value.exponentField == 2047 && value.fraction != 0

def isInfinite (value : Double) : Bool :=
  value.exponentField == 2047 && value.fraction == 0

def isFinite (value : Double) : Bool :=
  value.exponentField != 2047

def isZero (value : Double) : Bool :=
  value.magnitude == 0

/-- The integer `m` of a finite double `± m · 2 ^ q`. -/
def significand (value : Double) : Nat :=
  if value.exponentField = 0 then value.fraction else fractions + value.fraction

/-- The exponent `q` of a finite double `± m · 2 ^ q`. -/
def exponent (value : Double) : Int :=
  if value.exponentField = 0 then -1074 else (value.exponentField : Int) - 1075

/-- The place of a double that is not NaN in their order; both zeros share
one. -/
def orderKey (value : Double) : Int :=
  if value.isNegative then -(value.magnitude : Int) else value.magnitude

/-- Three-way comparison.  A NaN has no place in the order. -/
def compare? (left right : Double) : Option Ordering :=
  if left.isNaN || right.isNaN then none else some (compare left.orderKey right.orderKey)

/-- The same magnitude with the other sign. -/
def neg (value : Double) : Double :=
  ⟨value.bits ^^^ 0x8000000000000000⟩

/-- The host's number with these bits. -/
def toFloat (value : Double) : Float :=
  Float.ofBits value.bits

/-- The bits of a host number. -/
def ofFloat (number : Float) : Double :=
  ⟨number.toBits⟩

def add (left right : Double) : Double := ofFloat (left.toFloat + right.toFloat)

def sub (left right : Double) : Double := ofFloat (left.toFloat - right.toFloat)

def mul (left right : Double) : Double := ofFloat (left.toFloat * right.toFloat)

def div (left right : Double) : Double := ofFloat (left.toFloat / right.toFloat)

/-- The double nearest to a 64-bit integer. -/
def ofInt64 (value : Int64) : Double :=
  ofFloat value.toFloat

/-- `m · 2 ^ q` with the given sign, for `m` and `q` of which some double has
exactly that value. -/
def ofScaled (negative : Bool) (m : Nat) (q : Int) : Double :=
  let sign : Nat := if negative then magnitudes else 0
  if m = 0 then
    ⟨UInt64.ofNat sign⟩
  else
    let shift : Int := (m.log2 : Int) - 52
    if q + shift < -1074 then
      ⟨UInt64.ofNat (sign + m <<< (q + 1074).toNat)⟩
    else
      let aligned := if shift < 0 then m <<< (-shift).toNat else m >>> shift.toNat
      ⟨UInt64.ofNat (sign + (q + shift + 1075).toNat * fractions + (aligned - fractions))⟩

/-- The remainder of a division that rounds toward zero.  It has the sign of
the dividend and is exact. -/
def rem (left right : Double) : Double :=
  if left.isNaN || right.isNaN || left.isInfinite || right.isZero then
    nan
  else if right.isInfinite then
    left
  else
    let scale := min left.exponent right.exponent
    let dividend := left.significand <<< (left.exponent - scale).toNat
    let divisor := right.significand <<< (right.exponent - scale).toNat
    ofScaled left.isNegative (dividend % divisor) scale

/-- The integer part of a finite double. -/
def truncate (value : Double) : Int :=
  let size : Nat :=
    if value.exponent < 0 then value.significand >>> (-value.exponent).toNat
    else value.significand <<< value.exponent.toNat
  if value.isNegative then -(size : Int) else size

/-- The 64-bit integer nearest to the integer part; zero for a NaN. -/
def toInt64 (value : Double) : Int64 :=
  if value.isNaN then
    0
  else if value.isInfinite then
    if value.isNegative then Int64.minValue else Int64.maxValue
  else
    Int64.ofInt (max Int64.minValue.toInt (min Int64.maxValue.toInt value.truncate))

end Double

end StackMachine
