import Mathlib
import StackMachine.Assembler.Basic

/-!
# Bytecode that is read to its end

Reading goes from one instruction to the next.  `Decodes` says of some bytecode that this
comes upon certain instructions from an offset on, and then upon the end of the code.  The
bytes of some instructions, one after the other, are read as these instructions.
-/

namespace StackMachine

open Assembler

namespace Opcode

@[simp] theorem length_encode (op : Opcode) (operand : Nat) :
    (op.encode operand).length = op.width := by
  unfold encode width
  split <;> rfl

theorem hasOperand_of_isRelativeJump {op : Opcode} (jump : op.isRelativeJump) :
    op.hasOperand := by
  cases op with
  | jumpForward | jumpIfFalse | jumpIfTrue | forLoop => rfl
  | setup block => cases block <;> rfl
  | _ => cases jump

theorem width_of_hasOperand {op : Opcode} (operand : op.hasOperand) : op.width = 3 := by
  rw [width, if_pos operand]

end Opcode

/-- An instruction and where it is. -/
structure Located where
  offset : Nat
  op : Opcode
  operand : Nat
  deriving DecidableEq, Repr

namespace Located

/-- The offset after the instruction. -/
def next (located : Located) : Nat :=
  located.offset + located.op.width

/-- The bytes of the instruction. -/
def bytes (located : Located) : List UInt8 :=
  located.op.encode located.operand

/-- The operand has two bytes, if there is one. -/
structure Fits (located : Located) : Prop where
  bound : located.operand < operandBound
  absent : located.op.hasOperand = false → located.operand = 0

@[simp] theorem length_bytes (located : Located) : located.bytes.length = located.op.width :=
  Opcode.length_encode located.op located.operand

end Located

/-- From an offset on, reading comes upon some instructions and then upon the end. -/
inductive Decodes (bytecode : Bytes) : (offset : Nat) → List Located → Prop where
  | stop : Decodes bytecode bytecode.size []
  | next {located : Located} {rest : List Located}
      (read : Fetched.read bytecode located.offset =
        .instruction located.op located.operand located.next)
      (decodes : Decodes bytecode located.next rest) :
      Decodes bytecode located.offset (located :: rest)

/-- The instructions follow one another from an offset on. -/
def Consecutive : (offset : Nat) → List Located → Prop
  | _, [] => True
  | offset, located :: rest => located.offset = offset ∧ Consecutive located.next rest

/-- Two bytes hold every number below the bound. -/
theorem operandOf_ofNat {operand : Nat} (bound : operand < operandBound) :
    Fetched.operandOf (UInt8.ofNat operand) (UInt8.ofNat (operand / 256)) = operand := by
  unfold operandBound at bound
  simp only [Fetched.operandOf, UInt8.toNat_ofNat']
  omega

variable {bytecode : Bytes} {before after : List UInt8} {located : Located}

/-- The bytes of an instruction are read as that instruction. -/
theorem Located.Fits.read (fits : located.Fits) (place : located.offset = before.length)
    (bytes : bytecode.toList = before ++ (located.bytes ++ after)) :
    Fetched.read bytecode located.offset =
      .instruction located.op located.operand located.next := by
  have at_ : ∀ index, bytecode[before.length + index]? = (located.bytes ++ after)[index]? := by
    intro index
    rw [← Array.getElem?_toList, bytes, List.getElem?_append_right (Nat.le_add_right _ _),
      Nat.add_sub_cancel_left]
  obtain ⟨offset, op, operand⟩ := located
  obtain ⟨bound, absent⟩ := fits
  simp only at place bound absent at_ ⊢
  subst place
  have first := at_ 0
  cases takes : op.hasOperand with
  | true =>
      have second := at_ 1
      have third := at_ 2
      simp only [Located.bytes, Opcode.encode, takes, if_true, Fetched.operandBytes,
        List.cons_append, List.nil_append, List.getElem?_cons_zero, List.getElem?_cons_succ,
        Nat.add_zero] at first second third
      simp only [Fetched.read, first, second, third, Opcode.ofByte?_byte, takes, if_true,
        operandOf_ofNat bound, Located.next, Opcode.width]
  | false =>
      simp only [Located.bytes, Opcode.encode, takes, List.cons_append, List.getElem?_cons_zero,
        Nat.add_zero] at first
      simp only [Fetched.read, first, Opcode.ofByte?_byte, takes, absent takes, Located.next,
        Opcode.width]
      rfl

/-- The bytes of some instructions are read as these instructions. -/
theorem decodes_of_bytes {instructions : List Located}
    (bytes : bytecode.toList = before ++ instructions.flatMap Located.bytes)
    (consecutive : Consecutive before.length instructions)
    (fits : ∀ located ∈ instructions, located.Fits) :
    Decodes bytecode before.length instructions := by
  induction instructions generalizing before with
  | nil =>
      have size : before.length = bytecode.size := by
        rw [← Array.length_toList, bytes, List.flatMap_nil, List.append_nil]
      rw [size]
      exact .stop
  | cons located rest ih =>
      obtain ⟨place, consecutive⟩ := consecutive
      rw [List.flatMap_cons] at bytes
      have read := (fits located List.mem_cons_self).read place bytes
      have length : (before ++ located.bytes).length = located.next := by
        rw [List.length_append, Located.length_bytes, Located.next, place]
      rw [← List.append_assoc] at bytes
      have decodes := ih bytes (length ▸ consecutive)
        fun other member => fits other (List.mem_cons_of_mem _ member)
      rw [length] at decodes
      rw [← place]
      exact .next read decodes

/-- Instructions that follow one another, and then one more. -/
theorem Consecutive.concat {offset : Nat} {instructions : List Located}
    (consecutive : Consecutive offset instructions)
    (place : located.offset = offset + (instructions.flatMap Located.bytes).length) :
    Consecutive offset (instructions ++ [located]) := by
  induction instructions generalizing offset with
  | nil => exact ⟨by simpa using place, trivial⟩
  | cons first rest ih =>
      obtain ⟨same, consecutive⟩ := consecutive
      refine ⟨same, ih consecutive ?_⟩
      rw [place, List.flatMap_cons, List.length_append, Located.length_bytes, Located.next, same]
      omega

/-- What follows on an instruction does not depend on its operand. -/
theorem Consecutive.replace {offset operand : Nat} {earlier later : List Located}
    (consecutive : Consecutive offset (earlier ++ located :: later)) :
    Consecutive offset (earlier ++ { located with operand } :: later) := by
  induction earlier generalizing offset with
  | nil => exact consecutive
  | cons first rest ih => exact ⟨consecutive.1, ih consecutive.2⟩

/-- Where an instruction is among those that follow one another. -/
theorem Consecutive.offset_eq {offset : Nat} {earlier later : List Located}
    (consecutive : Consecutive offset (earlier ++ located :: later)) :
    located.offset = offset + (earlier.flatMap Located.bytes).length := by
  induction earlier generalizing offset with
  | nil => simpa using consecutive.1
  | cons first rest ih =>
      obtain ⟨same, consecutive⟩ := consecutive
      rw [ih consecutive, List.flatMap_cons, List.length_append, Located.length_bytes,
        Located.next, same]
      omega

end StackMachine
