import StackMachine.Number.Double

/-!
# The shortest decimal of a double

A double is printed with the fewest digits that read back as the same double.
Every real number close enough to a double reads back as it: those in an
interval around it whose ends lie halfway to its neighbours, the ends included
exactly when the double's integer is even.

For one digit, two digits and so on, the two points next to the double on that
decimal grid are tried against the interval.  The first grid with a hit wins,
and of two hits the nearer; of two at the same distance the larger is taken.
-/

namespace StackMachine.Shortest

/-- The decimal number `digits · 10 ^ exponent`. -/
structure Decimal where
  digits : Nat
  exponent : Int
  deriving DecidableEq, Repr

/-- How many decimal digits a number has; zero has none. -/
def decimalLength (number : Nat) : Nat :=
  if number = 0 then 0 else (Nat.toDigits 10 number).length

/-- A positive fraction and the ends of the interval that reads back as it, all
over one denominator. -/
structure Neighbourhood where
  value : Nat
  low : Nat
  high : Nat
  denominator : Nat
  closed : Bool
  deriving Repr

/-- The neighbourhood of `m · 2 ^ q`.  Below a power of two the doubles lie
twice as dense. -/
def neighbourhood (m : Nat) (q : Int) : Neighbourhood :=
  let scale := 1 <<< q.toNat
  { value := 4 * m * scale
    low := (4 * m - (if m = Double.fractions then 1 else 2)) * scale
    high := (4 * m + 2) * scale
    denominator := 4 <<< (-q).toNat
    closed := m % 2 = 0 }

namespace Neighbourhood

/-- The number `k` with `10 ^ (k - 1) ≤ value < 10 ^ k`. -/
def decimalOrder (area : Neighbourhood) : Int :=
  if area.denominator ≤ area.value then
    decimalLength (area.value / area.denominator)
  else
    1 - (decimalLength ((area.denominator - 1) / area.value) : Int)

/-- A numerator of the neighbourhood, measured on the grid `10 ^ exponent`. -/
def onGrid (exponent : Int) (numerator : Nat) : Nat :=
  numerator * Nat.pow 10 (-exponent).toNat

/-- One step of the grid `10 ^ exponent`, in the same measure. -/
def unit (area : Neighbourhood) (exponent : Int) : Nat :=
  area.denominator * Nat.pow 10 exponent.toNat

/-- Does the grid point read back as the double? -/
def holds (area : Neighbourhood) (exponent : Int) (point : Nat) : Bool :=
  let place := point * area.unit exponent
  let low := onGrid exponent area.low
  let high := onGrid exponent area.high
  if area.closed then low ≤ place && place ≤ high else low < place && place < high

/-- The grid point that stands for the double, if one of its two neighbours on
the grid reads back. -/
def onGrid? (area : Neighbourhood) (exponent : Int) : Option Nat :=
  let unit := area.unit exponent
  let value := onGrid exponent area.value
  let below := value / unit
  let nearerAbove : Bool := unit ≤ 2 * (value % unit)
  match area.holds exponent below, area.holds exponent (below + 1) with
  | true, true => some (if nearerAbove then below + 1 else below)
  | true, false => some below
  | false, true => some (below + 1)
  | false, false => none

/-- Try the grids of `digits` digits and more, at most `attempts` of them. -/
def search (area : Neighbourhood) : (attempts digits : Nat) → Decimal
  | 0, digits =>
      let exponent := area.decimalOrder - digits
      ⟨onGrid exponent area.value / area.unit exponent, exponent⟩
  | attempts + 1, digits =>
      let exponent := area.decimalOrder - digits
      match area.onGrid? exponent with
      | some point => ⟨point, exponent⟩
      | none => area.search attempts (digits + 1)

end Neighbourhood

/-- The shortest decimal that reads back as `m · 2 ^ q`, for a positive `m`.
Seventeen digits are always enough. -/
def shortest (m : Nat) (q : Int) : Decimal :=
  (neighbourhood m q).search 17 1

end StackMachine.Shortest
