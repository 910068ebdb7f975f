import StackMachine.Number.Elementary
import StackMachine.Store.Containers
import StackMachine.Store.Roots

/-!
# Functions the machine carries out itself

Such a function takes at most one argument, which it owns and gives back; several
arguments come as a tuple.
-/

namespace StackMachine

/-- The number of integers from `low` on, `step` apart, before `high`, as far as a
word of the machine can tell. -/
def rangeLength (low high step : Int) : Nat :=
  let count :=
    if 0 < step then (high - low + step - 1).tdiv step else (high - low + step + 1).tdiv step
  min count.toNat 0xffffffffffffffff

namespace StoreM

variable {τ : Type}

/-- The object of an argument, if there is one. -/
def getOption : Option Ref → StoreM τ (Option Payload)
  | none => pure none
  | some ref => some <$> get ref

/-- The objects of some references. -/
def getAll : List Ref → StoreM τ (List Payload)
  | [] => pure []
  | ref :: rest => do
      let first ← get ref
      return first :: (← getAll rest)

/-- The bounds and the step of a range: an integer or a tuple of one to three
integers. -/
def rangeBounds? (argument : Option Ref) : StoreM τ (Option (Int64 × Int64 × Int64)) := do
  match ← getOption argument with
  | some (.int high) => pure (some (0, high, 1))
  | some (.tuple items) =>
      if items.size ≤ 3 then
        match ← getAll items.toList with
        | [.int high] => pure (some (0, high, 1))
        | [.int low, .int high] => pure (some (low, high, 1))
        | [.int low, .int high, .int step] => pure (some (low, high, step))
        | _ => pure none
      else
        pure none
  | _ => pure none

/-- A number as a double. -/
def asDouble? : Payload → Option Double
  | .float value => some value
  | .int value => some (.ofInt64 value)
  | _ => none

/-- The operands of a function of the module `math`. -/
def mathOperands? (function : MathFunction) (argument : Option Ref) :
    StoreM τ (Option (Double × Double)) := do
  match ← getOption argument with
  | none => pure none
  | some payload =>
      if function.takesPair then
        match payload with
        | .tuple items =>
            match items.toList with
            | [first, second] => do
                match asDouble? (← get first), asDouble? (← get second) with
                | some x, some y => pure (some (x, y))
                | _, _ => pure none
            | _ => pure none
        | _ => pure none
      else
        pure ((asDouble? payload).map (·, .zero))

/-- The list and the item of a request to append. -/
def appendTarget? (argument : Option Ref) : StoreM τ (Option (Ref × Ref)) := do
  match ← getOption argument with
  | some (.tuple items) =>
      match items.toList with
      | [list, item] => do
          match ← get list with
          | .list _ => pure (some (list, item))
          | _ => pure none
      | _ => pure none
  | _ => pure none

/-- The list, the index and the item of a request to insert. -/
def insertTarget? (argument : Option Ref) : StoreM τ (Option (Ref × Int64 × Ref)) := do
  match ← getOption argument with
  | some (.tuple items) =>
      match items.toList with
      | [list, index, item] => do
          match ← get list, ← get index with
          | .list _, .int index => pure (some (list, index, item))
          | _, _ => pure none
      | _ => pure none
  | _ => pure none

variable [Tracker τ]

/-- `float(x)`: a float stays as it is, an integer is converted. -/
def callFloat (argument : Option Ref) : StoreM τ Ref := do
  match argument, ← getOption argument with
  | some ref, some (.float _) => pure ref
  | _, some (.int value) => do
      releaseOption argument
      allocate (.float (.ofInt64 value))
  | _, _ => do
      releaseOption argument
      raise .floatArgument

/-- `int(x)`: an integer stays as it is, a float loses its fraction. -/
def callInt (argument : Option Ref) : StoreM τ Ref := do
  match argument, ← getOption argument with
  | some ref, some (.int _) => pure ref
  | _, some (.float value) => do
      releaseOption argument
      allocate (.int value.toInt64)
  | _, _ => do
      releaseOption argument
      raise .intArgument

/-- `notv(x)`: is the integer zero? -/
def callNotv (argument : Option Ref) : StoreM τ Ref := do
  let payload ← getOption argument
  releaseOption argument
  match payload with
  | some (.int value) => acquire (.ofBool (value == 0))
  | _ => raise .badArgument

/-- `len(x)`: the number of items or entries. -/
def callLen (argument : Option Ref) : StoreM τ Ref := do
  match ← getOption argument with
  | none => raise .lengthWithoutArgument
  | some payload => do
      releaseOption argument
      match payload.length? with
      | some length => allocate (.int (Int64.ofNat length))
      | none => raise .lengthOfUnsized

/-- Make `count` integers, `step` apart.  Where one cannot be made, the ones
before it are given back. -/
def allocateInts (step : Int64) : (count : Nat) → (current : Int64) → (made : Array Ref) →
    StoreM τ (Array Ref)
  | 0, _, made => pure made
  | count + 1, current, made => do
      match ← Outcome.attempt (allocate (.int current)) with
      | .ok item => allocateInts step count (current + step) (made.push item)
      | .error cause => do
          releaseAll made.toList
          raise cause

/-- `range(…)`: a list of integers. -/
def callRange (argument : Option Ref) : StoreM τ Ref := do
  let bounds ← rangeBounds? argument
  releaseOption argument
  match bounds with
  | none => raise .rangeArguments
  | some (low, high, step) =>
      if step = 0 then
        raise .rangeZeroStep
      else do
        let count := rangeLength low.toInt high.toInt step.toInt
        chargeTable (min Meter.maxBytes (Payload.refBytes * count))
        let items ← allocateInts step count low #[]
        allocate (.list items)

/-- `append((list, x))`. -/
def callAppend (argument : Option Ref) : StoreM τ Ref := do
  let target ← appendTarget? argument
  releasing argument.toList do
    match target with
    | some (list, item) => do
        let _ ← acquire item
        listAppend list item
    | none => raise .badArgument
  acquire .noneObject

/-- `insert((list, index, x))`. -/
def callInsert (argument : Option Ref) : StoreM τ Ref := do
  let target ← insertTarget? argument
  releasing argument.toList do
    match target with
    | some (list, index, item) => do
        let _ ← acquire item
        listInsert list index item
    | none => raise .badArgument
  acquire .noneObject

/-- `pass(x)`: does nothing. -/
def callPass (argument : Option Ref) : StoreM τ Ref := do
  releaseOption argument
  acquire .noneObject

/-- A function of the module `math`. -/
def callMath (function : MathFunction) (argument : Option Ref) : StoreM τ Ref := do
  let operands ← mathOperands? function argument
  releaseOption argument
  match operands with
  | none => raise .badArgument
  | some (x, y) => do
      let result ← Outcome.settle (function.evaluate x y)
      allocate (.float result)

/-- Call a function the machine carries out itself. -/
def callNative (function : Native) (argument : Option Ref) : StoreM τ Ref :=
  match function with
  | .builtin .float => callFloat argument
  | .builtin .int => callInt argument
  | .builtin .len => callLen argument
  | .builtin .range => callRange argument
  | .builtin .append => callAppend argument
  | .builtin .insert => callInsert argument
  | .builtin .pass => callPass argument
  | .builtin .notv => callNotv argument
  | .math function => callMath function argument

end StoreM

end StackMachine
