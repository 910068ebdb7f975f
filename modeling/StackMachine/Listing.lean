import StackMachine.Image
import StackMachine.Instruction
import StackMachine.Number.DoubleText
import StackMachine.Text.Columns
import StackMachine.Text.Lines

/-!
# Listings of code

A listing has a header with the file name and then a line for every instruction:
its offset, its name, its operand and what the operand stands for.  A byte that
is no operation code and an operand that is cut off are shown in their place.
The code nested in the constants is listed after the code around it.
-/

namespace StackMachine.Listing

/-- What stands at one offset of some bytecode. -/
structure Entry where
  offset : Nat
  fetched : Fetched
  deriving DecidableEq, Repr

/-- The entries from an offset on.  They end with the code, or with an operand
that is cut off. -/
def entriesFrom (bytecode : Bytes) (offset : Nat) : List Entry :=
  if offset < bytecode.size then
    let fetched := Fetched.read bytecode offset
    match fetched with
    | .instruction op _ _ => ⟨offset, fetched⟩ :: entriesFrom bytecode (offset + op.width)
    | .unknown _ => ⟨offset, fetched⟩ :: entriesFrom bytecode (offset + 1)
    | .truncated _ | .pastEnd => [⟨offset, fetched⟩]
  else
    []
termination_by bytecode.size - offset
decreasing_by
  · have := op.width_pos
    omega
  · omega

/-- The entries of some bytecode. -/
def entries (bytecode : Bytes) : List Entry :=
  entriesFrom bytecode 0

/-- A constant, as a listing shows it. -/
def constantText : Constant → String
  | .none => "None"
  | .int value => toString value.toInt
  | .float value => value.toText
  | .text value => "'" ++ value ++ "'"
  | .code image => "<code " ++ image.file ++ ">"

/-- What an operand stands for; a question mark where its table has no such
entry, and nothing if it is only a number. -/
def detail? (image : Image) (op : Opcode) (operand next : Nat) : Option String :=
  if op = .loadConst then
    some ((image.constants[operand]?.map constantText).getD "?")
  else if op.takesName then
    some (image.names[operand]?.getD "?")
  else if op = .compare then
    some (((Comparison.ofOperand? operand).map Comparison.text).getD "?")
  else if op = .jumpAbsolute then
    some ("to " ++ toString operand)
  else if op.isRelativeJump then
    some ("to " ++ toString (next + operand))
  else
    none

/-- The line of an entry. -/
def line (image : Image) (entry : Entry) : String :=
  let offset := Columns.right 5 (toString entry.offset)
  match entry.fetched with
  | .unknown byte => offset ++ " <unknown opcode " ++ toString byte.toNat ++ ">"
  | .truncated op => offset ++ " " ++ Columns.left 16 op.name ++ " <truncated operand>"
  | .pastEnd => offset
  | .instruction op operand next =>
      if op.hasOperand then
        let columns :=
          offset ++ " " ++ Columns.left 16 op.name ++ " " ++ Columns.right 5 (toString operand)
        match detail? image op operand next with
        | some detail => columns ++ " (" ++ detail ++ ")"
        | none => columns
      else
        offset ++ " " ++ op.name

/-- The lines for the bytecode of an image, under its header. -/
def codeLines (image : Image) : List String :=
  ("Disassembly of " ++ image.file ++ ":") :: (entries image.bytecode).map (line image)

mutual

/-- The lines of an image and of all images nested in it. -/
def lines : Image → List String
  | { file, bytecode, constants, names } =>
      codeLines { file, bytecode, constants, names } ++ nestedLines constants

/-- A blank line and the lines of the image in a constant; nothing for other
constants. -/
def constantLines : Constant → List String
  | .code image => "" :: lines image
  | _ => []

/-- The lines of the images in some constants. -/
def nestedLines : List Constant → List String
  | [] => []
  | constant :: rest => constantLines constant ++ nestedLines rest

end

/-- The listing of an image, each line ended. -/
def text (image : Image) : String :=
  Lines.text (lines image)

end StackMachine.Listing
