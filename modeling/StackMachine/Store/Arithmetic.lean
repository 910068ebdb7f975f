import StackMachine.Store.Sequences

/-!
# Arithmetic

Integers have 64 bits and wrap; their division rounds toward zero.  Numbers never
mix: an integer goes with an integer and a float with a float.  Adding two
sequences of one kind concatenates them.
-/

namespace StackMachine

/-- Integer arithmetic; nothing where it divides by zero. -/
def Arithmetic.onInts? (operation : Arithmetic) (left right : Int64) : Option Int64 :=
  match operation with
  | .add => some (left + right)
  | .subtract => some (left - right)
  | .multiply => some (left * right)
  | .divide => if right = 0 then none else some (left / right)
  | .modulo => if right = 0 then none else some (left % right)

/-- Float arithmetic. -/
def Arithmetic.onFloats (operation : Arithmetic) (left right : Double) : Double :=
  match operation with
  | .add => left.add right
  | .subtract => left.sub right
  | .multiply => left.mul right
  | .divide => left.div right
  | .modulo => left.rem right

namespace StoreM

variable {τ : Type} [Tracker τ]

/-- The result of an arithmetic operation on two objects. -/
def arithmetic (operation : Arithmetic) (left right : Ref) : StoreM τ Ref := do
  match ← get left, ← get right with
  | .int x, .int y =>
      match operation.onInts? x y with
      | some result => allocate (.int result)
      | none => raise .divisionByZero
  | .float x, .float y => allocate (.float (operation.onFloats x y))
  | x, y =>
      if operation = .add then concat left right
      else raise (.badOperands operation x.kind y.kind)

/-- The negation of a number. -/
def negate (operand : Ref) : StoreM τ Ref := do
  match ← get operand with
  | .int value => allocate (.int (-value))
  | .float value => allocate (.float value.neg)
  | other => raise (.unsupported .negation other.kind)

end StoreM

end StackMachine
