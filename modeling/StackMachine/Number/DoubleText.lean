import StackMachine.Number.Shortest

/-!
# How a double is printed

The digits are the shortest that read back.  From a ten-thousandth up to
`10 ^ 16` they are written positionally, with at least one digit after the
point; outside that range with one digit before the point and an exponent.
-/

namespace StackMachine.Double

/-- Remove trailing zeros from a digit string. -/
def stripZeros (digits : List Char) : List Char :=
  (digits.reverse.dropWhile (· == '0')).reverse

/-- A digit string in which the point stands after `point` digits. -/
def positional (digits : List Char) (point : Int) : List Char :=
  if point ≤ 0 then
    '0' :: '.' :: List.replicate (-point).toNat '0' ++ digits
  else
    let whole := digits.take point.toNat
    let part := digits.drop point.toNat
    whole ++ List.replicate (point.toNat - whole.length) '0' ++
      '.' :: (if part.isEmpty then ['0'] else part)

/-- A digit string with the point after its first digit, and an exponent. -/
def scientific (digits : List Char) (point : Int) : List Char :=
  let part := digits.drop 1
  digits.take 1 ++ (if part.isEmpty then [] else '.' :: part) ++
    'e' :: (toString (point - 1)).toList

/-- The text of a finite double without its sign. -/
def finiteText (value : Double) : List Char :=
  if value.isZero then
    ['0', '.', '0']
  else
    let decimal := Shortest.shortest value.significand value.exponent
    let written := (toString decimal.digits).toList
    let point := (written.length : Int) + decimal.exponent
    let digits := stripZeros written
    if -4 < point ∧ point ≤ 16 then positional digits point else scientific digits point

/-- The text of a double. -/
def toText (value : Double) : String :=
  if value.isNaN then
    "NaN"
  else
    let size := if value.isInfinite then ['i', 'n', 'f'] else value.finiteText
    String.ofList (if value.isNegative then '-' :: size else size)

end StackMachine.Double
