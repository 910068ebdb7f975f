import StackMachine.Listing
import StackMachine.Cause
import StackMachine.Proofs.Assembler.Decoding

/-!
# What a listing shows

The entries of a listing lie side by side and cover the code from its start to its end.  An
entry says what stands at its offset, and the detail behind its operand is what the operand is
found to be in its table, or the offset that the instruction goes to.
-/

namespace StackMachine

/-- The offset an instruction jumps to, or where the block that it sets up ends. -/
def Opcode.target? (op : Opcode) (operand next : Nat) : Option Nat :=
  if op = .jumpAbsolute then some operand
  else if op.isRelativeJump then some (next + operand)
  else none

mutual

/-- The images nested in an image, outermost first. -/
def CodeImage.nested : Image → List Image
  | { constants, .. } => Constant.allNested constants

/-- The image that is a constant and the images nested in it. -/
def Constant.nested : Constant → List Image
  | .code image => image :: CodeImage.nested image
  | _ => []

/-- The images nested in a table of constants. -/
def Constant.allNested : List Constant → List Image
  | [] => []
  | constant :: rest => Constant.nested constant ++ Constant.allNested rest

end

/-- The error of an instruction whose operand is not in its table. -/
def Opcode.missing : Opcode → Cause
  | loadConst => .constantIndex
  | compare => .badComparison
  | _ => .nameIndex

namespace Fetched

variable {bytecode : Bytes} {offset operand next : Nat} {op : Opcode}

/-- An instruction that is read lies within the code. -/
theorem next_of_read (read : Fetched.read bytecode offset = .instruction op operand next) :
    next = offset + op.width ∧ next ≤ bytecode.size := by
  unfold Fetched.read at read
  split at read
  · cases read
  rename_i byte found
  have inside := (Array.getElem?_eq_some_iff.mp found).1
  split at read
  · cases read
  split at read
  · rename_i takes
    split at read
    · rename_i high _ last
      cases read
      have within := (Array.getElem?_eq_some_iff.mp last).1
      rw [Opcode.width, if_pos takes]
      omega
    · cases read
  · rename_i bare
    cases read
    rw [Opcode.width, if_neg bare]
    omega

theorem pastEnd_iff : Fetched.read bytecode offset = .pastEnd ↔ bytecode.size ≤ offset := by
  unfold Fetched.read
  rw [← Array.getElem?_eq_none_iff]
  cases bytecode[offset]? with
  | none => simp
  | some byte =>
      simp only [reduceCtorEq, iff_false]
      split
      · nofun
      · split
        · split <;> nofun
        · nofun

end Fetched

namespace Listing

variable {bytecode : Bytes} {entry : Entry} {start : Nat} {image : Image}

/-! ## Entries -/

/-- The number of bytes of an entry.  An operand that is cut off reaches to the end of the
code. -/
def Entry.width (bytecode : Bytes) (entry : Entry) : Nat :=
  match entry.fetched with
  | .instruction op _ _ => op.width
  | .unknown _ => 1
  | .truncated _ | .pastEnd => bytecode.size - entry.offset

/-- The offsets of the bytes of an entry. -/
def Entry.span (bytecode : Bytes) (entry : Entry) : List Nat :=
  List.range' entry.offset (entry.width bytecode)

/-- The entries from an offset on cover the code from there on, byte by byte. -/
theorem span_entriesFrom (bytecode : Bytes) (start : Nat) :
    (entriesFrom bytecode start).flatMap (Entry.span bytecode) =
      List.range' start (bytecode.size - start) := by
  fun_induction entriesFrom bytecode start with
  | case1 start inside fetched op operand next read ih =>
      obtain ⟨rfl, within⟩ := Fetched.next_of_read read
      have rest : bytecode.size - start = op.width + (bytecode.size - (start + op.width)) := by
        omega
      simp only [List.flatMap_cons, Entry.span, Entry.width, read] at ih ⊢
      rw [ih, rest, List.range'_append_1]
  | case2 start inside fetched byte read ih =>
      have rest : bytecode.size - start = 1 + (bytecode.size - (start + 1)) := by omega
      simp only [List.flatMap_cons, Entry.span, Entry.width, read] at ih ⊢
      rw [ih, rest, List.range'_append_1]
  | case3 start inside fetched op read =>
      simp only [List.flatMap_cons, List.flatMap_nil, List.append_nil, Entry.span, Entry.width,
        read]
  | case4 start inside fetched read =>
      exact absurd inside (Nat.not_lt.mpr (Fetched.pastEnd_iff.mp read))
  | case5 start outside =>
      rw [Nat.sub_eq_zero_of_le (Nat.not_lt.mp outside)]
      rfl

/-- An entry shows what is read at its offset, which lies within the code. -/
theorem of_mem_entriesFrom (listed : entry ∈ entriesFrom bytecode start) :
    entry.offset < bytecode.size ∧ entry.fetched = Fetched.read bytecode entry.offset := by
  fun_induction entriesFrom bytecode start with
  | case1 start inside fetched op operand next read ih | case2 start inside fetched byte read ih =>
      rcases List.mem_cons.mp listed with rfl | later
      · exact ⟨inside, rfl⟩
      · exact ih later
  | case3 start inside fetched op read | case4 start inside fetched read =>
      rw [List.mem_singleton.mp listed]
      exact ⟨inside, rfl⟩
  | case5 => exact absurd listed List.not_mem_nil

theorem width_pos (listed : entry ∈ entries bytecode) : 0 < entry.width bytecode := by
  obtain ⟨inside, -⟩ := of_mem_entriesFrom listed
  unfold Entry.width
  split
  · exact Opcode.width_pos _
  · exact Nat.one_pos
  all_goals omega

/-! ## Details -/

/-- What the operand of an instruction is found to be, as text, if it is looked up in a table or
among the comparisons; `some none` if it is not found there. -/
def lookup? (image : Image) (op : Opcode) (operand : Nat) : Option (Option String) :=
  if op = .loadConst then some (image.constants[operand]?.map constantText)
  else if op.takesName then some image.names[operand]?
  else if op = .compare then some ((Comparison.ofOperand? operand).map Comparison.text)
  else none

/-- The error of an entry that cannot be read, or whose operand is not found. -/
def Entry.fault? (image : Image) (entry : Entry) : Option Cause :=
  match entry.fetched with
  | .unknown _ => some .unknownOpcode
  | .truncated _ | .pastEnd => some .codeEnd
  | .instruction op operand _ =>
      if lookup? image op operand = some none then some op.missing else none

/-- The columns of an entry before its detail. -/
def Entry.columns (entry : Entry) (op : Opcode) (operand : Nat) : String :=
  Columns.right 5 (toString entry.offset) ++ " " ++ Columns.left 16 op.name ++ " " ++
    Columns.right 5 (toString operand)

theorem detail?_of_lookup {op : Opcode} {operand next : Nat} {found : Option String}
    (looked : lookup? image op operand = some found) :
    detail? image op operand next = some (found.getD "?") := by
  cases op <;> cases looked <;> rfl

theorem hasOperand_of_lookup {op : Opcode} {operand : Nat} {found : Option String}
    (looked : lookup? image op operand = some found) : op.hasOperand := by
  cases op <;> first | rfl | cases looked

theorem detail?_of_target {op : Opcode} {operand next target : Nat}
    (goes : op.target? operand next = some target) :
    detail? image op operand next = some ("to " ++ toString target) := by
  cases op <;> cases goes <;> rfl

theorem hasOperand_of_target {op : Opcode} {operand next target : Nat}
    (goes : op.target? operand next = some target) : op.hasOperand := by
  cases op
  case setup kind => cases kind <;> rfl
  all_goals first | rfl | cases goes

/-- The line of an entry whose operand has a detail ends with that. -/
theorem line_of_detail {op : Opcode} {operand next : Nat} {detail : String}
    (known : entry.fetched = .instruction op operand next) (takes : op.hasOperand)
    (shown : detail? image op operand next = some detail) :
    line image entry = entry.columns op operand ++ " (" ++ detail ++ ")" := by
  unfold line
  simp only [known, takes, if_true, shown]
  rfl

/-! ## Nested images -/

mutual

/-- A listing is made of those of the image and of all images nested in it. -/
theorem lines_eq (image : Image) :
    lines image = codeLines image ++ image.nested.flatMap fun inner => "" :: codeLines inner := by
  match image with
  | { file, bytecode, constants, names } => rw [lines, CodeImage.nested, nestedLines_eq]

theorem constantLines_eq (constant : Constant) :
    constantLines constant = constant.nested.flatMap fun inner => "" :: codeLines inner := by
  match constant with
  | .code image =>
      rw [constantLines, Constant.nested, List.flatMap_cons, lines_eq, List.cons_append]
  | .none | .int _ | .float _ | .text _ => rfl

theorem nestedLines_eq (constants : List Constant) :
    nestedLines constants =
      (Constant.allNested constants).flatMap fun inner => "" :: codeLines inner := by
  match constants with
  | [] => rfl
  | constant :: rest =>
      rw [nestedLines, Constant.allNested, List.flatMap_append, constantLines_eq, nestedLines_eq]

end

end Listing

end StackMachine
