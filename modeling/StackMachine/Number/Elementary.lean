import StackMachine.Store.Payload

/-!
# The functions of the module `math`

Each function is the host's, but for the remainder, which is exact.  A result
that is not a number although the operands are, and an infinite result of finite
operands, are errors.
-/

namespace StackMachine.MathFunction

/-- The value of a function.  One that takes a single number ignores the
second. -/
def apply (function : MathFunction) (x y : Double) : Double :=
  match function with
  | .acos => .ofFloat x.toFloat.acos
  | .asin => .ofFloat x.toFloat.asin
  | .atan => .ofFloat x.toFloat.atan
  | .ceil => .ofFloat x.toFloat.ceil
  | .cos => .ofFloat x.toFloat.cos
  | .cosh => .ofFloat x.toFloat.cosh
  | .exp => .ofFloat x.toFloat.exp
  | .fabs => .ofFloat x.toFloat.abs
  | .floor => .ofFloat x.toFloat.floor
  | .log => .ofFloat x.toFloat.log
  | .log10 => .ofFloat x.toFloat.log10
  | .sin => .ofFloat x.toFloat.sin
  | .sinh => .ofFloat x.toFloat.sinh
  | .sqrt => .ofFloat x.toFloat.sqrt
  | .tan => .ofFloat x.toFloat.tan
  | .tanh => .ofFloat x.toFloat.tanh
  | .atan2 => .ofFloat (x.toFloat.atan2 y.toFloat)
  | .fmod => x.rem y
  | .pow => .ofFloat (x.toFloat.pow y.toFloat)

/-- The value of a function, or why it has none. -/
def evaluate (function : MathFunction) (x y : Double) : Except Cause Double :=
  let result := function.apply x y
  if result.isNaN && !x.isNaN && !y.isNaN then .error .mathDomain
  else if result.isInfinite && x.isFinite && y.isFinite then .error .mathRange
  else .ok result

end StackMachine.MathFunction
