/-!
# Kinds of errors

An error the machine raises is of one of six kinds.  Each kind has a name, under
which programs refer to it, and a text, which is the error object itself.
-/

namespace StackMachine

/-- The kinds of errors. -/
inductive ErrorKind where
  | runtimeError
  | eofError
  | typeError
  | memoryError
  | nameError
  | systemError
  deriving DecidableEq, Repr, Inhabited

namespace ErrorKind

/-- The name programs use for a kind of error. -/
def name : ErrorKind → String
  | runtimeError => "RuntimeError"
  | eofError => "EOFError"
  | typeError => "TypeError"
  | memoryError => "MemoryError"
  | nameError => "NameError"
  | systemError => "SystemError"

/-- The text of the error object. -/
def text : ErrorKind → String
  | runtimeError => "run-time error"
  | eofError => "end-of-file read"
  | typeError => "type error"
  | memoryError => "out of memory"
  | nameError => "undefined name"
  | systemError => "system error"

/-- Every kind of error. -/
def all : List ErrorKind :=
  [runtimeError, eofError, typeError, memoryError, nameError, systemError]

/-- The place of a kind in that list. -/
def index : ErrorKind → Nat
  | runtimeError => 0
  | eofError => 1
  | typeError => 2
  | memoryError => 3
  | nameError => 4
  | systemError => 5

@[simp] theorem getElem?_all_index (kind : ErrorKind) : all[kind.index]? = some kind := by
  cases kind <;> rfl

/-- The kind with the given name. -/
def ofName? (name : String) : Option ErrorKind :=
  all.find? (·.name == name)

end ErrorKind

end StackMachine
