import StackMachine.Kind
import StackMachine.Number.Double
import StackMachine.Table

/-!
# Objects of the store

A payload is what an object holds.  The references in it are its children: the
object owns one count on each, and gives it back when it is freed, in the order
of `Payload.children`.
-/

namespace StackMachine

/-- The functions every program finds under their names. -/
inductive Builtin where
  | float
  | int
  | len
  | range
  | append
  | insert
  | pass
  | notv
  deriving DecidableEq, Repr

namespace Builtin

def name : Builtin → String
  | float => "float"
  | int => "int"
  | len => "len"
  | range => "range"
  | append => "append"
  | insert => "insert"
  | pass => "pass"
  | notv => "notv"

/-- Every built-in function, in the order in which they are installed. -/
def all : List Builtin := [float, int, len, range, append, insert, pass, notv]

end Builtin

/-- The functions of the module `math`. -/
inductive MathFunction where
  | acos
  | asin
  | atan
  | ceil
  | cos
  | cosh
  | exp
  | fabs
  | floor
  | log
  | log10
  | sin
  | sinh
  | sqrt
  | tan
  | tanh
  | atan2
  | fmod
  | pow
  deriving DecidableEq, Repr

namespace MathFunction

def name : MathFunction → String
  | acos => "acos"
  | asin => "asin"
  | atan => "atan"
  | ceil => "ceil"
  | cos => "cos"
  | cosh => "cosh"
  | exp => "exp"
  | fabs => "fabs"
  | floor => "floor"
  | log => "log"
  | log10 => "log10"
  | sin => "sin"
  | sinh => "sinh"
  | sqrt => "sqrt"
  | tan => "tan"
  | tanh => "tanh"
  | atan2 => "atan2"
  | fmod => "fmod"
  | pow => "pow"

/-- Every function of the module, in the order in which they are installed. -/
def all : List MathFunction :=
  [acos, asin, atan, ceil, cos, cosh, exp, fabs, floor, log, log10, sin, sinh, sqrt, tan, tanh,
    atan2, fmod, pow]

/-- Does the function take a pair of numbers? -/
def takesPair : MathFunction → Bool
  | atan2 | fmod | pow => true
  | _ => false

end MathFunction

/-- A function the machine carries out itself. -/
inductive Native where
  | builtin (function : Builtin)
  | math (function : MathFunction)
  deriving DecidableEq, Repr

/-- The name of a function the machine carries out itself. -/
def Native.name : Native → String
  | builtin function => function.name
  | math function => function.name

/-- Code in the store.  Its constants are objects. -/
structure CodeObject where
  file : String
  bytecode : Bytes
  names : Array String
  constants : Array Ref
  deriving DecidableEq, Inhabited

/-- What an object holds. -/
inductive Payload where
  | none
  | int (value : Int64)
  | float (value : Double)
  | string (bytes : Bytes)
  | list (items : Array Ref)
  | tuple (items : Array Ref)
  | dict (table : Table Ref)
  | module (name attrs : Ref)
  | function (code globals : Ref)
  | native (function : Native)
  | class_ (attrs : Ref)
  | member (owner attrs : Ref)
  | method (function self : Ref)
  | code (object : CodeObject)
  | frame (back : Option Ref) (code globals locals : Ref)
  | traceback (next : Option Ref) (frame : Ref) (line : Nat)
  deriving DecidableEq, Inhabited

namespace Payload

/-- The kind of an object. -/
def kind : Payload → Kind
  | none => .none
  | int _ => .int
  | float _ => .float
  | string _ => .string
  | list _ => .list
  | tuple _ => .tuple
  | dict _ => .dictionary
  | module _ _ => .module
  | function _ _ => .function
  | native _ => .builtinMethod
  | class_ _ => .class_
  | member _ _ => .classMember
  | method _ _ => .classMethod
  | code _ => .code
  | frame _ _ _ _ => .frame
  | traceback _ _ _ => .traceback

/-- The references an object owns. -/
def children : Payload → List Ref
  | none | int _ | float _ | string _ | native _ => []
  | list items => items.toList
  | tuple items => items.toList
  | dict table => table.values
  | module title attrs => [title, attrs]
  | function program globals => [program, globals]
  | class_ attrs => [attrs]
  | member owner attrs => [owner, attrs]
  | method callee self => [callee, self]
  | code object => object.constants.toList
  | frame back program globals locals => back.toList ++ [program, globals, locals]
  | traceback next owner _ => next.toList ++ [owner]

/-- The bytes every object takes. -/
def baseBytes : Nat := 72

/-- The bytes of a reference. -/
def refBytes : Nat := 8

/-- The bytes an object is charged for. -/
def bytes : Payload → Nat
  | string content => baseBytes + content.size
  | list items => baseBytes + refBytes * items.size
  | tuple items => baseBytes + refBytes * items.size
  | dict table => baseBytes + Table.slotBytes * table.size
  | code object => baseBytes + (object.bytecode.size + refBytes * object.constants.size)
  | _ => baseBytes

/-- The number of items or entries, for objects that have a length. -/
def length? : Payload → Option Nat
  | string content => some content.size
  | list items => some items.size
  | tuple items => some items.size
  | dict table => some table.used
  | _ => Option.none

/-- Does the object count as true?  Numbers do unless they are zero, objects with
a length unless it is zero, and everything else but `none`. -/
def isTruthy : Payload → Bool
  | none => false
  | int value => value != 0
  | float value => !value.isZero
  | payload =>
      match payload.length? with
      | some length => length != 0
      | Option.none => true

end Payload

end StackMachine
