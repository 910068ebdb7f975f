import StackMachine.Kind
import StackMachine.Limits
import StackMachine.Opcode

/-!
# What goes wrong

A `Cause` says what made an operation fail.  Its kind decides which error object
is raised, and its message, if it has one, is the value raised with it.
-/

namespace StackMachine

/-- Operations that only some kinds of objects support. -/
inductive Operation where
  | negation
  | subscript
  | subscriptAssignment
  | slice
  | attributeAccess
  | attributeAssignment
  deriving DecidableEq, Repr

/-- The printed name of an operation. -/
def Operation.name : Operation → String
  | negation => "unary -"
  | subscript => "subscript"
  | subscriptAssignment => "subscript assignment"
  | slice => "slice"
  | attributeAccess => "attribute access"
  | attributeAssignment => "attribute assignment"

/-- The causes of an error. -/
inductive Cause where
  /-- A tracker refused a request. -/
  | refused (refusal : Refusal)
  /-- A table cannot grow any further. -/
  | tableFull
  /-- A built-in function was given an argument it does not take. -/
  | badArgument
  /-- An object is not of the kind an instruction or a host call asks for. -/
  | badCall
  | undefinedName (name : String)
  | missingKey
  | indexOutOfRange (kind : Kind)
  | unsupported (operation : Operation) (kind : Kind)
  | badOperands (operation : Arithmetic) (left right : Kind)
  | divisionByZero
  | comparisonTooDeep
  | memberNotCharacter
  | memberOfNonSequence
  | loopOverNonSequence
  | keyNotString (kind : Kind)
  | indexNotInt (kind : Kind)
  | badSubscript (kind : Kind)
  | sliceIndexNotInt
  | unpackOther (kind : Kind)
  | unpackWrongSize (kind : Kind)
  | argumentsRequired
  | argumentsRefused
  | readOnlyAttribute
  | classArguments
  | notCallable
  | floatArgument
  | intArgument
  | lengthWithoutArgument
  | lengthOfUnsized
  | rangeArguments
  | rangeZeroStep
  | mathDomain
  | mathRange
  /-- An instruction takes more values than the frame has. -/
  | valueUnderflow
  | blockUnderflow
  | blockOverflow
  | badComparison
  | nameIndex
  | constantIndex
  | codeEnd
  | unknownOpcode
  | breakOutsideLoop
  deriving DecidableEq, Repr

namespace Cause

/-- The kind of error a cause raises. -/
def kind : Cause → ErrorKind
  | refused refusal => refusal.kind
  | tableFull => .memoryError
  | undefinedName _ => .nameError
  | badArgument | unsupported _ _ | badOperands _ _ _ | memberNotCharacter | memberOfNonSequence
  | loopOverNonSequence | keyNotString _ | indexNotInt _ | badSubscript _ | sliceIndexNotInt
  | unpackOther _ | argumentsRequired | argumentsRefused | readOnlyAttribute | classArguments
  | notCallable | floatArgument | intArgument | lengthWithoutArgument | lengthOfUnsized
  | rangeArguments => .typeError
  | missingKey | indexOutOfRange _ | divisionByZero | comparisonTooDeep | unpackWrongSize _
  | rangeZeroStep | mathDomain | mathRange | blockUnderflow | blockOverflow => .runtimeError
  | badCall | valueUnderflow | badComparison | nameIndex | constantIndex | codeEnd
  | unknownOpcode | breakOutsideLoop => .systemError

/-- The message of a cause; a full table has none. -/
def message? : Cause → Option String
  | refused refusal => some refusal.message
  | tableFull => none
  | badArgument => some "illegal argument type for built-in operation"
  | badCall => some "bad argument to internal function"
  | undefinedName name => some name
  | missingKey => some "key not in dictionary"
  | indexOutOfRange kind => some (kind.name ++ " index out of range")
  | unsupported operation kind =>
      some ("bad operand kind for " ++ operation.name ++ ": " ++ kind.name)
  | badOperands operation left right =>
      some ("bad operand kinds for " ++ operation.symbol ++ ": " ++ left.name ++ " and " ++
        right.name)
  | divisionByZero => some "integer division by zero"
  | comparisonTooDeep => some "maximum recursion depth exceeded in comparison"
  | memberNotCharacter => some "string member test needs char left operand"
  | memberOfNonSequence => some "'in' or 'not in' needs sequence right argument"
  | loopOverNonSequence => some "loop over non-sequence"
  | keyNotString kind => some ("dictionary key must be string, not " ++ kind.name)
  | indexNotInt kind => some (kind.name ++ " index must be int")
  | badSubscript kind => some ("bad subscript kind for assignment: " ++ kind.name)
  | sliceIndexNotInt => some "slice index must be int"
  | unpackOther kind => some ("unpack non-" ++ kind.name)
  | unpackWrongSize kind => some ("unpack " ++ kind.name ++ " of wrong size")
  | argumentsRequired => some "function expects argument(s)"
  | argumentsRefused => some "function expects no argument(s)"
  | readOnlyAttribute => some "read-only special attribute"
  | classArguments => some "no arguments allowed for class instantiation"
  | notCallable => some "call of non-function"
  | floatArgument => some "float() argument must be float or int"
  | intArgument => some "int() argument must be float or int"
  | lengthWithoutArgument => some "len() without argument"
  | lengthOfUnsized => some "len() of unsized object"
  | rangeArguments => some "range() requires 1-3 int arguments"
  | rangeZeroStep => some "zero step for range()"
  | mathDomain => some "math domain error"
  | mathRange => some "math range error"
  | valueUnderflow => some "value stack underflow"
  | blockUnderflow => some "stack underflow"
  | blockOverflow => some "stack overflow"
  | badComparison => some "bad comparison operator"
  | nameIndex => some "name index out of range"
  | constantIndex => some "constant index out of range"
  | codeEnd => some "bytecode ran off the end"
  | unknownOpcode => some "unknown opcode"
  | breakOutsideLoop => some "break outside loop"

end Cause

end StackMachine
