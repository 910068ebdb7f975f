import StackMachine.Opcode
import StackMachine.Text.Columns

/-!
# Events

While it runs, the machine reports what it does: each instruction before it is
carried out, frames entered and left, the reasons for which the straight path
through the code is left, and blocks pushed and popped.
-/

namespace StackMachine

/-- Why the straight path through the code of a frame is left. -/
inductive Unwinding where
  | error
  | returning
  | breaking
  deriving DecidableEq, Repr

/-- The printed name of a reason. -/
def Unwinding.name : Unwinding → String
  | error => "exception"
  | returning => "return"
  | breaking => "break"

/-- Something the machine does. -/
inductive Event where
  /-- An instruction is about to be carried out, with `values` values in the
  frame and `frames` frames active. -/
  | instruction (offset : Nat) (op : Opcode) (values frames : Nat)
  /-- A frame was entered; `depth` counts it. -/
  | entered (file : String) (depth : Nat)
  /-- A frame was left; `depth` no longer counts it. -/
  | left (depth : Nat)
  | unwound (reason : Unwinding) (depth : Nat)
  /-- A block was pushed; `depth` counts it. -/
  | pushed (block : BlockKind) (depth : Nat)
  /-- A block was popped; `depth` no longer counts it. -/
  | popped (depth : Nat)
  deriving DecidableEq, Repr

namespace Event

/-- The operation code of an instruction event. -/
def opcode? : Event → Option Opcode
  | instruction _ op _ _ => some op
  | _ => none

/-- The line of an event in a printed trace. -/
def line : Event → String
  | instruction offset op values frames =>
      Columns.right 5 (toString offset) ++ " " ++ Columns.left 16 op.name ++ " stack=" ++
        toString values ++ " frames=" ++ toString frames
  | entered file depth => "call " ++ file ++ " depth=" ++ toString depth
  | left depth => "return depth=" ++ toString depth
  | unwound reason depth => "unwind " ++ reason.name ++ " depth=" ++ toString depth
  | pushed block depth => "block push " ++ block.name ++ " blocks=" ++ toString depth
  | popped depth => "block pop blocks=" ++ toString depth

end Event

end StackMachine
