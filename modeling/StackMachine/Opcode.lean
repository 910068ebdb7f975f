/-!
# Operation codes

An instruction starts with one byte that says what it does.  Bytes from 90 up
are followed by an operand of two bytes; smaller ones stand alone.  Some of the
operands are distances: the instruction jumps, or sets up a block whose end is,
that many bytes after the next instruction.
-/

namespace StackMachine

/-- The five arithmetic operations. -/
inductive Arithmetic where
  | multiply
  | divide
  | modulo
  | add
  | subtract
  deriving DecidableEq, Repr, Hashable

/-- The sign of an arithmetic operation, as messages print it. -/
def Arithmetic.symbol : Arithmetic → String
  | multiply => "*"
  | divide => "/"
  | modulo => "%"
  | add => "+"
  | subtract => "-"

/-- What set up a block: a loop or an error handler. -/
inductive BlockKind where
  | loop
  | handler
  deriving DecidableEq, Repr, Hashable

/-- The printed name of a kind of block. -/
def BlockKind.name : BlockKind → String
  | loop => "loop"
  | handler => "except"

/-- What an instruction does. -/
inductive Opcode where
  | popTop
  | rotTwo
  | rotThree
  | dupTop
  | negate
  | invert
  | callBare
  | arithmetic (operation : Arithmetic)
  | subscript
  | callWith
  | slice (low high : Bool)
  | storeSubscript
  | printTop
  | breakLoop
  | loadLocals
  | returnValue
  | requireArgs
  | refuseArgs
  | buildFunction
  | popBlock
  | buildClass
  | storeName
  | unpackTuple
  | unpackList
  | storeAttr
  | loadConst
  | loadName
  | buildTuple
  | buildList
  | buildMap
  | loadAttr
  | compare
  | importName
  | importFrom
  | jumpForward
  | jumpIfFalse
  | jumpIfTrue
  | jumpAbsolute
  | forLoop
  | setup (block : BlockKind)
  | setLine
  deriving DecidableEq, Repr, Hashable

namespace Opcode

/-- The byte of an operation code. -/
def byte : Opcode → UInt8
  | popTop => 1
  | rotTwo => 2
  | rotThree => 3
  | dupTop => 4
  | negate => 11
  | invert => 12
  | callBare => 14
  | arithmetic .multiply => 20
  | arithmetic .divide => 21
  | arithmetic .modulo => 22
  | arithmetic .add => 23
  | arithmetic .subtract => 24
  | subscript => 25
  | callWith => 26
  | slice false false => 30
  | slice true false => 31
  | slice false true => 32
  | slice true true => 33
  | storeSubscript => 60
  | printTop => 70
  | breakLoop => 80
  | loadLocals => 82
  | returnValue => 83
  | requireArgs => 84
  | refuseArgs => 85
  | buildFunction => 86
  | popBlock => 87
  | buildClass => 89
  | storeName => 90
  | unpackTuple => 92
  | unpackList => 93
  | storeAttr => 95
  | loadConst => 100
  | loadName => 101
  | buildTuple => 102
  | buildList => 103
  | buildMap => 104
  | loadAttr => 105
  | compare => 106
  | importName => 107
  | importFrom => 108
  | jumpForward => 110
  | jumpIfFalse => 111
  | jumpIfTrue => 112
  | jumpAbsolute => 113
  | forLoop => 114
  | setup .loop => 120
  | setup .handler => 121
  | setLine => 127

/-- The operation code of a byte, if it is one. -/
def ofByte? (byte : UInt8) : Option Opcode :=
  match byte with
  | 1 => some popTop
  | 2 => some rotTwo
  | 3 => some rotThree
  | 4 => some dupTop
  | 11 => some negate
  | 12 => some invert
  | 14 => some callBare
  | 20 => some (arithmetic .multiply)
  | 21 => some (arithmetic .divide)
  | 22 => some (arithmetic .modulo)
  | 23 => some (arithmetic .add)
  | 24 => some (arithmetic .subtract)
  | 25 => some subscript
  | 26 => some callWith
  | 30 => some (slice false false)
  | 31 => some (slice true false)
  | 32 => some (slice false true)
  | 33 => some (slice true true)
  | 60 => some storeSubscript
  | 70 => some printTop
  | 80 => some breakLoop
  | 82 => some loadLocals
  | 83 => some returnValue
  | 84 => some requireArgs
  | 85 => some refuseArgs
  | 86 => some buildFunction
  | 87 => some popBlock
  | 89 => some buildClass
  | 90 => some storeName
  | 92 => some unpackTuple
  | 93 => some unpackList
  | 95 => some storeAttr
  | 100 => some loadConst
  | 101 => some loadName
  | 102 => some buildTuple
  | 103 => some buildList
  | 104 => some buildMap
  | 105 => some loadAttr
  | 106 => some compare
  | 107 => some importName
  | 108 => some importFrom
  | 110 => some jumpForward
  | 111 => some jumpIfFalse
  | 112 => some jumpIfTrue
  | 113 => some jumpAbsolute
  | 114 => some forLoop
  | 120 => some (setup .loop)
  | 121 => some (setup .handler)
  | 127 => some setLine
  | _ => none

@[simp] theorem ofByte?_byte (op : Opcode) : ofByte? op.byte = some op := by
  cases op with
  | arithmetic operation => cases operation <;> rfl
  | slice low high => cases low <;> cases high <;> rfl
  | setup block => cases block <;> rfl
  | _ => rfl

/-- The name of an operation code in listings. -/
def name : Opcode → String
  | popTop => "POP_TOP"
  | rotTwo => "ROT_TWO"
  | rotThree => "ROT_THREE"
  | dupTop => "DUP_TOP"
  | negate => "UNARY_NEGATIVE"
  | invert => "UNARY_NOT"
  | callBare => "UNARY_CALL"
  | arithmetic .multiply => "BINARY_MULTIPLY"
  | arithmetic .divide => "BINARY_DIVIDE"
  | arithmetic .modulo => "BINARY_MODULO"
  | arithmetic .add => "BINARY_ADD"
  | arithmetic .subtract => "BINARY_SUBTRACT"
  | subscript => "BINARY_SUBSCR"
  | callWith => "BINARY_CALL"
  | slice false false => "SLICE"
  | slice true false => "SLICE+1"
  | slice false true => "SLICE+2"
  | slice true true => "SLICE+3"
  | storeSubscript => "STORE_SUBSCR"
  | printTop => "PRINT_EXPR"
  | breakLoop => "BREAK_LOOP"
  | loadLocals => "LOAD_LOCALS"
  | returnValue => "RETURN_VALUE"
  | requireArgs => "REQUIRE_ARGS"
  | refuseArgs => "REFUSE_ARGS"
  | buildFunction => "BUILD_FUNCTION"
  | popBlock => "POP_BLOCK"
  | buildClass => "BUILD_CLASS"
  | storeName => "STORE_NAME"
  | unpackTuple => "UNPACK_TUPLE"
  | unpackList => "UNPACK_LIST"
  | storeAttr => "STORE_ATTR"
  | loadConst => "LOAD_CONST"
  | loadName => "LOAD_NAME"
  | buildTuple => "BUILD_TUPLE"
  | buildList => "BUILD_LIST"
  | buildMap => "BUILD_MAP"
  | loadAttr => "LOAD_ATTR"
  | compare => "COMPARE_OP"
  | importName => "IMPORT_NAME"
  | importFrom => "IMPORT_FROM"
  | jumpForward => "JUMP_FORWARD"
  | jumpIfFalse => "JUMP_IF_FALSE"
  | jumpIfTrue => "JUMP_IF_TRUE"
  | jumpAbsolute => "JUMP_ABSOLUTE"
  | forLoop => "FOR_LOOP"
  | setup .loop => "SETUP_LOOP"
  | setup .handler => "SETUP_EXCEPT"
  | setLine => "SET_LINENO"

/-- Every operation code, in the order of their bytes. -/
def all : List Opcode :=
  [popTop, rotTwo, rotThree, dupTop, negate, invert, callBare, arithmetic .multiply,
    arithmetic .divide, arithmetic .modulo, arithmetic .add, arithmetic .subtract, subscript,
    callWith, slice false false, slice true false, slice false true, slice true true,
    storeSubscript, printTop, breakLoop, loadLocals, returnValue, requireArgs, refuseArgs,
    buildFunction, popBlock, buildClass, storeName, unpackTuple, unpackList, storeAttr, loadConst,
    loadName, buildTuple, buildList, buildMap, loadAttr, compare, importName, importFrom,
    jumpForward, jumpIfFalse, jumpIfTrue, jumpAbsolute, forLoop, setup .loop, setup .handler,
    setLine]

@[simp] theorem mem_all (op : Opcode) : op ∈ all := by
  cases op with
  | arithmetic operation => cases operation <;> decide
  | slice low high => cases low <;> cases high <;> decide
  | setup block => cases block <;> decide
  | _ => decide

/-- The operation code with the given name. -/
def ofName? (name : String) : Option Opcode :=
  all.find? (·.name == name)

/-- Is the operation code followed by an operand? -/
def hasOperand (op : Opcode) : Bool :=
  90 ≤ op.byte

/-- Is the operand a distance from the next instruction? -/
def isRelativeJump : Opcode → Bool
  | jumpForward | jumpIfFalse | jumpIfTrue | forLoop | setup _ => true
  | _ => false

/-- Is the operand an index into the table of names? -/
def takesName : Opcode → Bool
  | storeName | loadName | loadAttr | storeAttr | importName | importFrom => true
  | _ => false

/-- The number of bytes of an instruction. -/
def width (op : Opcode) : Nat :=
  if op.hasOperand then 3 else 1

theorem width_pos (op : Opcode) : 0 < op.width := by
  unfold width; split <;> decide

end Opcode

/-- The comparisons an instruction may make; the operand chooses one. -/
inductive Comparison where
  | less
  | lessEqual
  | equal
  | notEqual
  | greater
  | greaterEqual
  | member
  | notMember
  | same
  | notSame
  | errorMatch
  deriving DecidableEq, Repr

namespace Comparison

/-- Every comparison, in the order of their operands. -/
def all : List Comparison :=
  [less, lessEqual, equal, notEqual, greater, greaterEqual, member, notMember, same, notSame,
    errorMatch]

/-- The operand that chooses a comparison. -/
def operand : Comparison → Nat
  | less => 0
  | lessEqual => 1
  | equal => 2
  | notEqual => 3
  | greater => 4
  | greaterEqual => 5
  | member => 6
  | notMember => 7
  | same => 8
  | notSame => 9
  | errorMatch => 10

/-- The comparison an operand chooses. -/
def ofOperand? (operand : Nat) : Option Comparison :=
  all[operand]?

@[simp] theorem ofOperand?_operand (comparison : Comparison) :
    ofOperand? comparison.operand = some comparison := by
  cases comparison <;> rfl

/-- The printed form of a comparison. -/
def text : Comparison → String
  | less => "<"
  | lessEqual => "<="
  | equal => "=="
  | notEqual => "!="
  | greater => ">"
  | greaterEqual => ">="
  | member => "in"
  | notMember => "not in"
  | same => "is"
  | notSame => "is not"
  | errorMatch => "exception match"

/-- The comparison with the given printed form. -/
def ofText? (text : String) : Option Comparison :=
  all.find? (·.text == text)

end Comparison

end StackMachine
