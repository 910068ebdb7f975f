/-!
# Kinds of objects

Every object of the machine is of exactly one kind.  A kind has a name, which
error messages print, and objects of different kinds are ordered by these
names.
-/

namespace StackMachine

/-- The kinds of objects. -/
inductive Kind where
  | none
  | int
  | float
  | string
  | list
  | tuple
  | dictionary
  | module
  | function
  | builtinMethod
  | class_
  | classMember
  | classMethod
  | code
  | frame
  | traceback
  deriving DecidableEq, Repr, Inhabited

namespace Kind

/-- The printed name of a kind. -/
def name : Kind → String
  | none => "none"
  | int => "int"
  | float => "float"
  | string => "string"
  | list => "list"
  | tuple => "tuple"
  | dictionary => "dictionary"
  | module => "module"
  | function => "function"
  | builtinMethod => "built-in method"
  | class_ => "class"
  | classMember => "class member"
  | classMethod => "class method"
  | code => "code"
  | frame => "frame"
  | traceback => "traceback"

/-- Every kind. -/
def all : List Kind :=
  [none, int, float, string, list, tuple, dictionary, module, function, builtinMethod, class_,
    classMember, classMethod, code, frame, traceback]

@[simp] theorem mem_all (kind : Kind) : kind ∈ all := by
  cases kind <;> decide

/-- The kind with the given name. -/
def ofName? (name : String) : Option Kind :=
  all.find? (·.name == name)

/-- The order of two kinds, that of their names. -/
def compareName (left right : Kind) : Ordering :=
  compare left.name right.name

/-- Do objects of this kind support indexing, slicing and iteration? -/
def isSequence : Kind → Bool
  | string | list | tuple => true
  | _ => false

end Kind

end StackMachine
