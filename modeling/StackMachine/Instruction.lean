import StackMachine.Opcode
import StackMachine.Text.Bytes

/-!
# Reading instructions

One rule says which instruction starts at an offset of some bytecode.  Running,
listing and assembling code all go by it.
-/

namespace StackMachine

/-- What stands at an offset of some bytecode. -/
inductive Fetched where
  /-- An instruction, its operand (zero if it takes none) and the offset after
  it. -/
  | instruction (op : Opcode) (operand next : Nat)
  /-- The offset is not before the end of the code. -/
  | pastEnd
  /-- A byte that is no operation code. -/
  | unknown (byte : UInt8)
  /-- An operation code whose operand the end of the code cuts off. -/
  | truncated (op : Opcode)
  deriving DecidableEq, Repr

namespace Fetched

/-- Two bytes, the low one first, as a number. -/
def operandOf (low high : UInt8) : Nat :=
  low.toNat + 256 * high.toNat

/-- The two bytes of an operand, the low one first. -/
def operandBytes (operand : Nat) : List UInt8 :=
  [UInt8.ofNat operand, UInt8.ofNat (operand / 256)]

/-- Read the instruction at an offset. -/
def read (bytecode : Bytes) (offset : Nat) : Fetched :=
  match bytecode[offset]? with
  | none => pastEnd
  | some byte =>
      match Opcode.ofByte? byte with
      | none => unknown byte
      | some op =>
          if op.hasOperand then
            match bytecode[offset + 1]?, bytecode[offset + 2]? with
            | some low, some high => instruction op (operandOf low high) (offset + 3)
            | _, _ => truncated op
          else
            instruction op 0 (offset + 1)

end Fetched

/-- The bytes of an instruction. -/
def Opcode.encode (op : Opcode) (operand : Nat) : List UInt8 :=
  op.byte :: if op.hasOperand then Fetched.operandBytes operand else []

end StackMachine
