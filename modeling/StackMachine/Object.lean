import StackMachine.Number.DoubleText
import StackMachine.Text.Quoted

/-!
# Values outside the machine

An `Object` is a value detached from the machine's store: what a host gives to
it and gets from it.  Plain data converts both ways.  Modules, other objects that
are shown only by a text, and containers met again inside themselves are only
ever results.

`Object.repr` is the printed form of a value, `Object.display` the same but for a
bare string, which stands without quotes.
-/

namespace StackMachine

/-- A value outside the machine. -/
inductive Object where
  | none
  | int (value : Int64)
  | float (value : Double)
  | string (text : String)
  | list (items : List Object)
  | tuple (items : List Object)
  | dict (entries : List (String × Object))
  | module (name : String)
  | repr (text : String)
  | cycle (slot : Nat) (text : String)
  deriving Inhabited

namespace Object

mutual

/-- The printed form of a value, as characters. -/
def reprChars : Object → List Char
  | none => "None".toList
  | int value => (toString value.toInt).toList
  | float value => value.toText.toList
  | string text => (Quoted.encode text).toList
  | list items => '[' :: itemsChars items ++ [']']
  | tuple [item] => '(' :: reprChars item ++ [',', ')']
  | tuple items => '(' :: itemsChars items ++ [')']
  | dict entries => '\x7b' :: entriesChars entries ++ ['\x7d']
  | module name => "<module '".toList ++ name.toList ++ "'>".toList
  | repr text => text.toList
  | cycle _ text => text.toList

/-- The printed forms of some values, with commas between them. -/
def itemsChars : List Object → List Char
  | [] => []
  | [item] => reprChars item
  | item :: rest => reprChars item ++ ',' :: ' ' :: itemsChars rest

/-- The printed form of a dictionary's entries, with commas between them. -/
def entriesChars : List (String × Object) → List Char
  | [] => []
  | [entry] => entryChars entry
  | entry :: rest => entryChars entry ++ ',' :: ' ' :: entriesChars rest

/-- The printed form of one entry. -/
def entryChars : String × Object → List Char
  | (key, value) => (Quoted.encode key).toList ++ ':' :: ' ' :: reprChars value

end

/-- The printed form of a value. -/
def reprText (object : Object) : String :=
  String.ofList object.reprChars

/-- The form of a value in a message. -/
def display : Object → String
  | string text => text
  | object => object.reprText

/-- The name of a value's type. -/
def typeName : Object → String
  | none => "none"
  | int _ => "int"
  | float _ => "float"
  | string _ => "string"
  | list _ => "list"
  | tuple _ => "tuple"
  | dict _ => "dictionary"
  | module _ => "module"
  | repr _ => "repr"
  | cycle _ _ => "cycle"

/-- A value is not of the type that was asked for. -/
structure Mismatch where
  expected : String
  actual : String
  deriving DecidableEq, Repr

/-- The message of a mismatch. -/
def Mismatch.message (mismatch : Mismatch) : String :=
  "expected " ++ mismatch.expected ++ ", got " ++ mismatch.actual

/-- The integer of a value. -/
def asInt : Object → Except Mismatch Int64
  | int value => .ok value
  | object => .error ⟨"int", object.typeName⟩

/-- The float of a value; an integer is not one. -/
def asFloat : Object → Except Mismatch Double
  | float value => .ok value
  | object => .error ⟨"float", object.typeName⟩

/-- The text of a string value. -/
def asString : Object → Except Mismatch String
  | string text => .ok text
  | object => .error ⟨"string", object.typeName⟩

end Object

end StackMachine
