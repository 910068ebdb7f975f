import StackMachine.Image
import StackMachine.Instruction

/-!
# Assembling code

An assembler collects instructions, constants and names.  Constants are added as
they come; a name is added once, and used again where it returns.  A jump forward
is emitted before its target is known and patched when it is.

Operands have two bytes, so tables, distances and targets are bounded.  An
operation that would pass a bound, or give an operand to an instruction that
takes none, fails.
-/

namespace StackMachine

/-- What an assembler refuses. -/
inductive AssemblyError where
  | needsOperand (op : Opcode)
  | takesNoOperand (op : Opcode)
  | notRelativeJump (op : Opcode)
  | constantTableFull
  | nameTableFull
  | jumpTooFar
  | targetTooFar
  /-- A script refers to a label or a mark that it has not set. -/
  | unknownLabel (label : String)
  deriving DecidableEq, Repr

/-- The message of an assembly error. -/
def AssemblyError.message : AssemblyError → String
  | needsOperand op => op.name ++ " needs an operand"
  | takesNoOperand op => op.name ++ " takes no operand"
  | notRelativeJump op => op.name ++ " is not a relative jump"
  | constantTableFull => "constant table exceeds u16 range"
  | nameTableFull => "name table exceeds u16 range"
  | jumpTooFar => "jump distance exceeds u16 range"
  | targetTooFar => "jump target exceeds u16 range"
  | unknownLabel label => "unknown label " ++ label

/-- Code under assembly. -/
structure Assembler where
  file : String
  bytecode : Bytes
  constants : Array Constant
  names : Array String

namespace Assembler

/-- The result of an operation on code under assembly. -/
abbrev Result := Except AssemblyError

/-- No code yet. -/
def new (file : String) : Assembler :=
  ⟨file, #[], #[], #[]⟩

/-- The code assembled so far. -/
def image (code : Assembler) : Image :=
  ⟨code.file, code.bytecode, code.constants.toList, code.names.toList⟩

/-- The offset at which the next instruction goes. -/
def offset (code : Assembler) : Nat :=
  code.bytecode.size

/-- Operands are below this bound. -/
def operandBound : Nat := 65536

/-- Append bytes. -/
def append (code : Assembler) (bytes : List UInt8) : Assembler :=
  { code with bytecode := code.bytecode ++ bytes }

/-- An instruction without an operand. -/
def emit (code : Assembler) (op : Opcode) : Result Assembler :=
  if op.hasOperand then .error (.needsOperand op) else .ok (code.append (op.encode 0))

/-- An instruction with an operand. -/
def emitOperand (code : Assembler) (op : Opcode) (operand : Nat) : Result Assembler :=
  if op.hasOperand then .ok (code.append (op.encode operand)) else .error (.takesNoOperand op)

/-- A byte that need not belong to an instruction. -/
def emitRaw (code : Assembler) (byte : UInt8) : Assembler :=
  code.append [byte]

/-- Add a constant, and give its index. -/
def addConstant (code : Assembler) (constant : Constant) : Result (Nat × Assembler) :=
  if code.constants.size < operandBound then
    .ok (code.constants.size, { code with constants := code.constants.push constant })
  else
    .error .constantTableFull

/-- The index of a name, which is added if it is new. -/
def addName (code : Assembler) (name : String) : Result (Nat × Assembler) :=
  let found := code.names.toList.idxOf name
  let extended :=
    if found < code.names.size then code else { code with names := code.names.push name }
  if found < operandBound then .ok (found, extended) else .error .nameTableFull

/-- Load a new constant. -/
def loadConstant (code : Assembler) (constant : Constant) : Result Assembler := do
  let (index, code) ← code.addConstant constant
  code.emitOperand .loadConst index

/-- An instruction whose operand is a name. -/
def emitName (code : Assembler) (op : Opcode) (name : String) : Result Assembler := do
  let (index, code) ← code.addName name
  code.emitOperand op index

/-- A comparison. -/
def emitComparison (code : Assembler) (comparison : Comparison) : Result Assembler :=
  code.emitOperand .compare comparison.operand

/-- Record a line number. -/
def emitLine (code : Assembler) (line : Nat) : Result Assembler :=
  code.emitOperand .setLine line

/-- A jump forward, or a block, whose end is not known yet.  The result is the
offset by which the jump is patched. -/
def emitJump (code : Assembler) (op : Opcode) : Result (Nat × Assembler) :=
  if op.isRelativeJump then do
    let extended ← code.emitOperand op 0
    return (code.offset, extended)
  else
    .error (.notRelativeJump op)

/-- Let the jump at `jump` lead to the present offset. -/
def patchJump (code : Assembler) (jump : Nat) : Result Assembler :=
  let distance := code.offset - (jump + 3)
  if distance < operandBound then
    .ok { code with
      bytecode :=
        (code.bytecode.setIfInBounds (jump + 1) (UInt8.ofNat distance)).setIfInBounds
          (jump + 2) (UInt8.ofNat (distance / 256)) }
  else
    .error .jumpTooFar

/-- A jump to a known offset. -/
def emitJumpTo (code : Assembler) (target : Nat) : Result Assembler :=
  if target < operandBound then code.emitOperand .jumpAbsolute target else .error .targetTooFar

end Assembler

end StackMachine
