import StackMachine.Proofs.Assembler.Decoding

/-!
# What is assembled is what was asked for

An assembler is called again and again: to emit an instruction, or to let a jump that was
emitted before lead to where the code ends by then.  An `Assembly` keeps, next to the code,
what the calls asked for.  Reading the code comes upon just that: each instruction with the
operand that stands for its subject, whatever was patched in between.
-/

namespace StackMachine

open Assembler

/-! ## Calls -/

/-- What the operand of an instruction is to stand for. -/
inductive Subject where
  | nothing
  | number (value : Nat)
  | name (text : String)
  | constant (value : Constant)
  /-- The offset to which an instruction jumps forward, or at which its block ends. -/
  | target (offset : Nat)

/-- An instruction that is asked for. -/
structure Emission where
  op : Opcode
  subject : Subject

/-- Can the target be patched? -/
def Emission.isJump (emission : Emission) : Bool :=
  match emission.subject with
  | .target _ => true
  | _ => false

/-- Let the jump with a number, among all jumps, lead to an offset. -/
def retarget (offset : Nat) : (number : Nat) → List Emission → List Emission
  | _, [] => []
  | number, emission :: rest =>
      if emission.isJump then
        match number with
        | 0 => { emission with subject := .target offset } :: rest
        | number + 1 => emission :: retarget offset number rest
      else emission :: retarget offset number rest

/-- A call of an assembler.  The jumps that were emitted are numbered in their order. -/
inductive Call where
  | emit (op : Opcode)
  | emitOperand (op : Opcode) (operand : UInt16)
  | emitName (op : Opcode) (name : String)
  | loadConstant (constant : Constant)
  | emitComparison (comparison : Comparison)
  | emitLine (line : UInt16)
  | emitJump (op : Opcode)
  | patchJump (number : Nat)
  | emitJumpTo (target : Nat)

/-- Code under assembly, the labels of the jumps that were emitted, and all that was asked
for. -/
structure Assembly where
  code : Assembler
  labels : List Nat
  emissions : List Emission

namespace Assembly

/-- Nothing was asked for yet. -/
def start (file : String) : Assembly :=
  ⟨.new file, [], []⟩

/-- Ask for an instruction. -/
def emitting (act : Assembler → Result Assembler) (emission : Emission) (assembly : Assembly) :
    Result Assembly := do
  return { assembly with
    code := ← act assembly.code
    emissions := assembly.emissions ++ [emission] }

/-- Make a call.  A jump leads to the instruction after it until it is patched. -/
def call (assembly : Assembly) : Call → Result Assembly
  | .emit op => assembly.emitting (·.emit op) ⟨op, .nothing⟩
  | .emitOperand op operand =>
      assembly.emitting (·.emitOperand op operand.toNat) ⟨op, .number operand.toNat⟩
  | .emitName op name => assembly.emitting (·.emitName op name) ⟨op, .name name⟩
  | .loadConstant constant =>
      assembly.emitting (·.loadConstant constant) ⟨.loadConst, .constant constant⟩
  | .emitComparison comparison =>
      assembly.emitting (·.emitComparison comparison) ⟨.compare, .number comparison.operand⟩
  | .emitLine line => assembly.emitting (·.emitLine line.toNat) ⟨.setLine, .number line.toNat⟩
  | .emitJumpTo target => assembly.emitting (·.emitJumpTo target) ⟨.jumpAbsolute, .number target⟩
  | .emitJump op => do
      let (label, code) ← assembly.code.emitJump op
      return ⟨code, assembly.labels ++ [label],
        assembly.emissions ++ [⟨op, .target code.offset⟩]⟩
  | .patchJump number =>
      match assembly.labels[number]? with
      | some label => do
          return { assembly with
            code := ← assembly.code.patchJump label
            emissions := retarget assembly.code.offset number assembly.emissions }
      | none => .error (.unknownLabel (toString number))

/-- Make some calls. -/
def callAll : List Call → Assembly → Result Assembly
  | [], assembly => .ok assembly
  | call :: rest, assembly => do callAll rest (← assembly.call call)

end Assembly

/-! ## Operands -/

/-- An instruction has an operand that stands for the subject. -/
def Subject.MeantBy (image : Image) (located : Located) : Subject → Prop
  | nothing => located.operand = 0
  | number value => located.operand = value
  | name text => image.names[located.operand]? = some text
  | constant value => image.constants[located.operand]? = some value
  | target offset => located.op.isRelativeJump ∧ located.next + located.operand = offset

/-- An instruction is the one that was asked for. -/
structure Emission.RealizedBy (image : Image) (emission : Emission) (located : Located) : Prop where
  op : located.op = emission.op
  means : emission.subject.MeantBy image located

theorem getElem?_of_prefix {α : Type} {items more : List α} {index : Nat} {item : α}
    (extends_ : items <+: more) (found : items[index]? = some item) : more[index]? = some item := by
  obtain ⟨inside, same⟩ := List.getElem?_eq_some_iff.mp found
  rw [List.prefix_iff_getElem?.mp extends_ index inside, same]

/-- What an operand stands for does not change when the tables grow. -/
theorem Subject.MeantBy.extend {image extended : Image} {located : Located} {subject : Subject}
    (means : subject.MeantBy image located) (names : image.names <+: extended.names)
    (constants : image.constants <+: extended.constants) : subject.MeantBy extended located := by
  cases subject with
  | nothing | number | target => exact means
  | name text => exact getElem?_of_prefix names means
  | constant value => exact getElem?_of_prefix constants means

/-! ## Appending instructions -/

/-- An instruction was appended, and the tables have grown at most. -/
structure Assembler.Appends (code : Assembler) (emission : Emission) (operand : Nat)
    (after : Assembler) : Prop where
  bytecode : after.bytecode = code.bytecode ++ emission.op.encode operand
  names : code.image.names <+: after.image.names
  constants : code.image.constants <+: after.image.constants
  distinct : code.image.names.Nodup → after.image.names.Nodup
  fits : (⟨code.offset, emission.op, operand⟩ : Located).Fits
  means : emission.subject.MeantBy after.image ⟨code.offset, emission.op, operand⟩

namespace Assembler

variable {code after : Assembler} {op : Opcode} {operand : Nat}

theorem emit_appends (emitted : code.emit op = .ok after) :
    code.Appends ⟨op, .nothing⟩ 0 after := by
  unfold emit at emitted
  split at emitted
  case isTrue => cases emitted
  case isFalse takes =>
      cases emitted
      exact ⟨rfl, List.prefix_rfl, List.prefix_rfl, id, ⟨by simp [operandBound], fun _ => rfl⟩, rfl⟩

theorem emitOperand_cases (emitted : code.emitOperand op operand = .ok after) :
    op.hasOperand ∧ after = code.append (op.encode operand) := by
  unfold emitOperand at emitted
  split at emitted
  case isTrue takes =>
      cases emitted
      exact ⟨takes, rfl⟩
  case isFalse => cases emitted

/-- An instruction with an operand is appended where its tables have been made ready. -/
theorem emitOperand_appends {ready : Assembler} {subject : Subject}
    (emitted : ready.emitOperand op operand = .ok after) (same : ready.bytecode = code.bytecode)
    (names : code.image.names <+: ready.image.names)
    (constants : code.image.constants <+: ready.image.constants)
    (distinct : code.image.names.Nodup → ready.image.names.Nodup) (bound : operand < operandBound)
    (means : subject.MeantBy ready.image ⟨code.offset, op, operand⟩) :
    code.Appends ⟨op, subject⟩ operand after := by
  obtain ⟨takes, rfl⟩ := emitOperand_cases emitted
  refine ⟨?_, names, constants, distinct, ⟨bound, fun none => absurd takes (by simp [none])⟩, ?_⟩
  · rw [append, same]
  · cases subject <;> exact means

theorem emitNumber_appends (emitted : code.emitOperand op operand = .ok after)
    (bound : operand < operandBound) : code.Appends ⟨op, .number operand⟩ operand after :=
  emitOperand_appends emitted rfl List.prefix_rfl List.prefix_rfl id bound rfl

theorem loadConstant_appends {constant : Constant}
    (loaded : code.loadConstant constant = .ok after) :
    ∃ operand, code.Appends ⟨.loadConst, .constant constant⟩ operand after := by
  unfold loadConstant addConstant at loaded
  split at loaded
  case isTrue room =>
      refine ⟨code.constants.size, emitOperand_appends loaded rfl List.prefix_rfl ?_ id room ?_⟩
      · simp [image]
      · simp [Subject.MeantBy, image]
  case isFalse => cases loaded

/-- A name is in the table once it was added, and only once. -/
theorem addName_cases {name : String} {index : Nat} {ready : Assembler}
    (added : code.addName name = .ok (index, ready)) :
    ready.bytecode = code.bytecode ∧ ready.constants = code.constants ∧
      code.image.names <+: ready.image.names ∧
      (code.image.names.Nodup → ready.image.names.Nodup) ∧ index < operandBound ∧
      ready.image.names[index]? = some name := by
  unfold addName at added
  simp only at added
  split at added
  case isFalse => cases added
  case isTrue bound =>
    injection added with pair
    obtain ⟨rfl, same⟩ := Prod.mk.inj pair
    split at same
    case isTrue known =>
        subst same
        have listed : name ∈ code.names.toList :=
          List.idxOf_lt_length_iff.mp (by rwa [Array.length_toList])
        exact ⟨rfl, rfl, List.prefix_rfl, id, bound, List.getElem?_idxOf listed⟩
    case isFalse new =>
        subst same
        have absent : name ∉ code.names.toList := fun listed =>
          new (by rw [← Array.length_toList]; exact List.idxOf_lt_length_iff.mpr listed)
        refine ⟨rfl, rfl, by simp [image], fun distinct => ?_, bound, ?_⟩
        · have separate : code.names.toList.Disjoint [name] := by
            rw [List.disjoint_singleton]
            exact absent
          simpa [image] using List.Nodup.append distinct (List.nodup_singleton name) separate
        · rw [List.idxOf_eq_length absent]
          simp [image]

theorem emitName_appends {name : String} (emitted : code.emitName op name = .ok after) :
    ∃ operand, code.Appends ⟨op, .name name⟩ operand after := by
  unfold emitName at emitted
  cases added : code.addName name with
  | error refused =>
      rw [added] at emitted
      cases emitted
  | ok outcome =>
      obtain ⟨index, ready⟩ := outcome
      rw [added] at emitted
      obtain ⟨bytecode, constants, names, distinct, bound, found⟩ := addName_cases added
      have same : code.image.constants <+: ready.image.constants := by
        rw [image, image, constants]
      exact ⟨index, emitOperand_appends emitted bytecode names same distinct bound found⟩

theorem emitJumpTo_appends {target : Nat} (emitted : code.emitJumpTo target = .ok after) :
    code.Appends ⟨.jumpAbsolute, .number target⟩ target after := by
  unfold emitJumpTo at emitted
  split at emitted
  case isTrue bound => exact emitNumber_appends emitted bound
  case isFalse => cases emitted

/-- A jump leads to the instruction after it at first. -/
theorem emitJump_appends {label : Nat} (emitted : code.emitJump op = .ok (label, after)) :
    label = code.offset ∧ code.Appends ⟨op, .target after.offset⟩ 0 after := by
  unfold emitJump at emitted
  split at emitted
  case isFalse => cases emitted
  case isTrue jump =>
    cases extended : code.emitOperand op 0 with
    | error refused =>
        rw [extended] at emitted
        cases emitted
    | ok appended =>
        rw [extended] at emitted
        cases emitted
        refine ⟨rfl, emitOperand_appends extended rfl List.prefix_rfl List.prefix_rfl id
          (by simp [operandBound]) ⟨jump, ?_⟩⟩
        obtain ⟨-, rfl⟩ := emitOperand_cases extended
        rw [offset, offset, append, ← Array.length_toList, ← Array.length_toList,
          Array.toList_appendList, List.length_append, Opcode.length_encode]
        rfl

end Assembler

/-! ## What has been assembled -/

/-- The code is made of the instructions that were asked for. -/
structure Assembly.Made (assembly : Assembly) (parts : List (Emission × Located)) : Prop where
  emissions : assembly.emissions = parts.map Prod.fst
  bytes : assembly.code.bytecode.toList = (parts.map Prod.snd).flatMap Located.bytes
  consecutive : Consecutive 0 (parts.map Prod.snd)
  fits : ∀ part ∈ parts, part.2.Fits
  realized : ∀ part ∈ parts, part.1.RealizedBy assembly.code.image part.2
  labels : assembly.labels = (parts.filter (·.1.isJump)).map (·.2.offset)
  /-- Jumps lead to instructions, or to where the code ends. -/
  targets : ∀ part ∈ parts, ∀ offset, part.1.subject = .target offset →
    offset = assembly.code.offset ∨ ∃ other ∈ parts, other.2.offset = offset
  distinct : assembly.code.image.names.Nodup

namespace Assembly

variable {assembly after : Assembly} {parts : List (Emission × Located)}

theorem made_start (file : String) : (start file).Made [] where
  emissions := rfl
  bytes := rfl
  consecutive := trivial
  fits _ member := absurd member List.not_mem_nil
  realized _ member := absurd member List.not_mem_nil
  labels := rfl
  targets _ member := absurd member List.not_mem_nil
  distinct := List.nodup_nil

/-- Another instruction is appended. -/
theorem Made.append (made : assembly.Made parts) {emission : Emission} {operand : Nat}
    {code : Assembler} {labels : List Nat} (appends : assembly.code.Appends emission operand code)
    (kept : labels = assembly.labels ++ if emission.isJump then [assembly.code.offset] else [])
    (target : ∀ offset, emission.subject = .target offset → offset = code.offset) :
    Made ⟨code, labels, assembly.emissions ++ [emission]⟩
      (parts ++ [(emission, ⟨assembly.code.offset, emission.op, operand⟩)]) := by
  have size : assembly.code.offset = ((parts.map Prod.snd).flatMap Located.bytes).length := by
    rw [← made.bytes, Array.length_toList, offset]
  constructor
  case emissions => rw [made.emissions, List.map_append, List.map_singleton]
  case bytes => simp [appends.bytecode, made.bytes, Located.bytes]
  case consecutive =>
    rw [List.map_append, List.map_singleton]
    exact made.consecutive.concat (by rw [Nat.zero_add]; exact size)
  case fits =>
    intro part member
    rcases List.mem_append.mp member with earlier | new
    · exact made.fits part earlier
    · obtain rfl := List.mem_singleton.mp new
      exact appends.fits
  case realized =>
    intro part member
    rcases List.mem_append.mp member with earlier | new
    · have realized := made.realized part earlier
      exact ⟨realized.op, realized.means.extend appends.names appends.constants⟩
    · obtain rfl := List.mem_singleton.mp new
      exact ⟨rfl, appends.means⟩
  case labels =>
    rw [kept, made.labels, List.filter_append, List.map_append, List.filter_singleton]
    cases emission.isJump <;> rfl
  case targets =>
    intro part member offset jumps
    rcases List.mem_append.mp member with earlier | new
    · rcases made.targets part earlier offset jumps with rfl | ⟨other, known, same⟩
      · -- What was the end is where the new instruction is.
        exact Or.inr ⟨_, List.mem_append_right _ (List.mem_singleton_self _), rfl⟩
      · exact Or.inr ⟨other, List.mem_append_left _ known, same⟩
    · obtain rfl := List.mem_singleton.mp new
      exact Or.inl (target offset jumps)
  case distinct => exact appends.distinct made.distinct

/-- The jump with a number is one of the instructions. -/
theorem exists_jump {number label : Nat}
    (found : ((parts.filter (·.1.isJump)).map (·.2.offset))[number]? = some label) :
    ∃ earlier emission located later, parts = earlier ++ (emission, located) :: later ∧
      located.offset = label ∧ emission.isJump ∧ ∀ offset,
        retarget offset number (parts.map Prod.fst) = earlier.map Prod.fst ++
          { emission with subject := .target offset } :: later.map Prod.fst := by
  induction parts generalizing number with
  | nil => cases found
  | cons part rest ih =>
      obtain ⟨emission, located⟩ := part
      by_cases jump : emission.isJump
      · rw [List.filter_cons_of_pos (by exact jump), List.map_cons] at found
        cases number with
        | zero =>
            refine ⟨[], emission, located, rest, rfl, Option.some.inj found, jump, fun offset => ?_⟩
            simp [retarget, jump]
        | succ number =>
            obtain ⟨earlier, other, place, later, rfl, same, jumps, patched⟩ := ih found
            refine ⟨(emission, located) :: earlier, other, place, later, rfl, same, jumps,
              fun offset => ?_⟩
            simp only [List.map_cons, retarget, jump, if_true, patched offset, List.cons_append]
      · rw [List.filter_cons_of_neg (by exact jump)] at found
        obtain ⟨earlier, other, place, later, rfl, same, jumps, patched⟩ := ih found
        refine ⟨(emission, located) :: earlier, other, place, later, rfl, same, jumps,
          fun offset => ?_⟩
        simp only [List.map_cons, retarget, jump, patched offset, List.cons_append]
        rfl

/-- A patch writes the operand of the jump and leaves all other bytes as they are. -/
theorem patchJump_bytes {code patched : Assembler} {located : Located} {earlier later : List UInt8}
    (patch : code.patchJump located.offset = .ok patched) (place : located.offset = earlier.length)
    (takes : located.op.hasOperand)
    (bytes : code.bytecode.toList = earlier ++ (located.bytes ++ later)) :
    ∃ operand, operand < operandBound ∧ located.next + operand = code.offset ∧
      patched.image.names = code.image.names ∧ patched.image.constants = code.image.constants ∧
      patched.offset = code.offset ∧ patched.bytecode.toList =
        earlier ++ (({ located with operand } : Located).bytes ++ later) := by
  have width := Opcode.width_of_hasOperand takes
  have size : code.offset = earlier.length + (3 + later.length) := by
    rw [offset, ← Array.length_toList, bytes, List.length_append, List.length_append,
      Located.length_bytes, width]
  unfold patchJump at patch
  simp only at patch
  split at patch
  case isFalse => cases patch
  case isTrue bound =>
    cases patch
    refine ⟨code.offset - (located.offset + 3), bound, ?_, rfl, rfl, ?_, ?_⟩
    · rw [Located.next, width, size, place]
      omega
    · simp [offset]
    · rw [Array.toList_setIfInBounds, Array.toList_setIfInBounds, bytes, place,
        List.set_append_right _ _ (Nat.le_add_right _ _), Nat.add_sub_cancel_left,
        List.set_append_right _ _ (Nat.le_add_right _ _), Nat.add_sub_cancel_left]
      simp [Located.bytes, Opcode.encode, takes, Fetched.operandBytes]

/-- A jump that was emitted is patched. -/
theorem Made.patch (made : assembly.Made parts) {number label : Nat} {code : Assembler}
    (found : assembly.labels[number]? = some label)
    (patch : assembly.code.patchJump label = .ok code) :
    ∃ parts, Made ⟨code, assembly.labels,
      retarget assembly.code.offset number assembly.emissions⟩ parts := by
  rw [made.labels] at found
  obtain ⟨earlier, emission, located, later, rfl, rfl, jumps, patched⟩ := exists_jump found
  have member : (emission, located) ∈ earlier ++ (emission, located) :: later := by simp
  have realized := made.realized _ member
  have jump : located.op.isRelativeJump := by
    have means := realized.means
    unfold Emission.isJump at jumps
    cases subject : emission.subject with
    | target offset =>
        rw [subject] at means
        exact means.1
    | _ =>
        rw [subject] at jumps
        cases jumps
  have consecutive := made.consecutive
  have bytes := made.bytes
  rw [List.map_append, List.map_cons] at consecutive bytes
  rw [List.flatMap_append, List.flatMap_cons] at bytes
  have place := consecutive.offset_eq
  rw [Nat.zero_add] at place
  obtain ⟨operand, bound, reaches, names, constants, size, written⟩ :=
    patchJump_bytes patch place (Opcode.hasOperand_of_isRelativeJump jump) bytes
  refine ⟨earlier ++ ({ emission with subject := .target assembly.code.offset },
    { located with operand }) :: later, ?_⟩
  have others : ∀ {part : Emission × Located}, part ∈ earlier ++
      (({ emission with subject := .target assembly.code.offset }, { located with operand }) :
        Emission × Located) :: later →
      part ∈ earlier ++ (emission, located) :: later ∨ part =
        ({ emission with subject := .target assembly.code.offset }, { located with operand }) := by
    intro part known
    simp only [List.mem_append, List.mem_cons] at known ⊢
    tauto
  constructor
  case emissions => rw [made.emissions, patched, List.map_append, List.map_cons]
  case bytes => rw [written, List.map_append, List.map_cons, List.flatMap_append, List.flatMap_cons]
  case consecutive =>
    rw [List.map_append, List.map_cons]
    exact consecutive.replace
  case fits =>
    intro part known
    rcases others known with old | rfl
    · exact made.fits part old
    · exact ⟨bound, fun none => absurd (Opcode.hasOperand_of_isRelativeJump jump) (by simp [none])⟩
  case realized =>
    intro part known
    rcases others known with old | rfl
    · have realized := made.realized part old
      exact ⟨realized.op, realized.means.extend (by rw [names]) (by rw [constants])⟩
    · exact ⟨realized.op, jump, reaches⟩
  case labels =>
    rw [made.labels, List.filter_append, List.filter_append,
      List.filter_cons_of_pos (by exact jumps), List.filter_cons_of_pos (by rfl)]
    simp
  case targets =>
    intro part known offset target
    rw [size]
    have stays : ∀ other ∈ earlier ++ (emission, located) :: later, ∃ kept ∈ earlier ++
        (({ emission with subject := .target assembly.code.offset }, { located with operand }) :
          Emission × Located) :: later, kept.2.offset = other.2.offset := by
      intro other old
      simp only [List.mem_append, List.mem_cons] at old
      rcases old with before | rfl | after
      · exact ⟨other, by simp [before], rfl⟩
      · exact ⟨_, List.mem_append_right _ List.mem_cons_self, rfl⟩
      · exact ⟨other, by simp [after], rfl⟩
    rcases others known with old | rfl
    · rcases made.targets part old offset target with same | ⟨other, present, same⟩
      · exact Or.inl same
      · obtain ⟨kept, here, equal⟩ := stays other present
        exact Or.inr ⟨kept, here, equal.trans same⟩
    · exact Or.inl (Subject.target.inj target).symm
  case distinct =>
    rw [names]
    exact made.distinct

/-- An instruction is asked for that is no jump. -/
theorem Made.emitting (made : assembly.Made parts) {act : Assembler → Result Assembler}
    {emission : Emission} (emitted : assembly.emitting act emission = .ok after)
    (plain : emission.isJump = false) (appends : ∀ code, act assembly.code = .ok code →
      ∃ operand, assembly.code.Appends emission operand code) : ∃ parts, after.Made parts := by
  unfold Assembly.emitting at emitted
  cases acted : act assembly.code with
  | error refused =>
      rw [acted] at emitted
      cases emitted
  | ok code =>
      rw [acted] at emitted
      cases emitted
      obtain ⟨operand, appends⟩ := appends code acted
      refine ⟨_, made.append appends (by simp [plain]) fun offset target => ?_⟩
      rw [Emission.isJump, target] at plain
      cases plain

/-- Every call makes what it asks for. -/
theorem Made.call (made : assembly.Made parts) {asked : Call}
    (called : assembly.call asked = .ok after) : ∃ parts, after.Made parts := by
  cases asked with
  | emit op =>
      rw [Assembly.call] at called
      exact made.emitting called rfl fun _ emitted => ⟨0, emit_appends emitted⟩
  | emitOperand op operand =>
      rw [Assembly.call] at called
      exact made.emitting called rfl fun _ emitted =>
        ⟨_, emitNumber_appends emitted operand.toNat_lt⟩
  | emitName op name =>
      rw [Assembly.call] at called
      exact made.emitting called rfl fun _ emitted => emitName_appends emitted
  | loadConstant constant =>
      rw [Assembly.call] at called
      exact made.emitting called rfl fun _ loaded => loadConstant_appends loaded
  | emitComparison comparison =>
      rw [Assembly.call] at called
      have bound : comparison.operand < operandBound := by
        cases comparison <;> simp [Comparison.operand, operandBound]
      exact made.emitting called rfl fun _ emitted => ⟨_, emitNumber_appends emitted bound⟩
  | emitLine line =>
      rw [Assembly.call] at called
      exact made.emitting called rfl fun _ emitted =>
        ⟨_, emitNumber_appends emitted line.toNat_lt⟩
  | emitJumpTo target =>
      rw [Assembly.call] at called
      exact made.emitting called rfl fun _ emitted => ⟨_, emitJumpTo_appends emitted⟩
  | emitJump op =>
      rw [Assembly.call] at called
      cases emitted : assembly.code.emitJump op with
      | error refused =>
          rw [emitted] at called
          cases called
      | ok outcome =>
          obtain ⟨label, code⟩ := outcome
          rw [emitted] at called
          cases called
          obtain ⟨rfl, appends⟩ := emitJump_appends emitted
          exact ⟨_, made.append appends rfl fun _ target => (Subject.target.inj target).symm⟩
  | patchJump number =>
      rw [Assembly.call] at called
      split at called
      case h_2 => cases called
      case h_1 label found =>
        cases patched : assembly.code.patchJump label with
        | error refused =>
            rw [patched] at called
            cases called
        | ok code =>
            rw [patched] at called
            cases called
            exact made.patch found patched

/-- So do calls one after the other. -/
theorem Made.callAll (made : assembly.Made parts) {calls : List Call}
    (called : Assembly.callAll calls assembly = .ok after) : ∃ parts, after.Made parts := by
  induction calls generalizing assembly parts with
  | nil =>
      cases called
      exact ⟨parts, made⟩
  | cons call rest ih =>
      unfold Assembly.callAll at called
      cases first : assembly.call call with
      | error refused =>
          rw [first] at called
          cases called
      | ok middle =>
          rw [first] at called
          obtain ⟨parts, made⟩ := made.call first
          exact ih made called

/-- What was asked for, in whatever order jumps were emitted and patched, is what is read off
the code: its instructions, in their order and up to the end of the code, have operands that
stand for their subjects, and jumps lead to where an instruction is or the code ends. -/
theorem decodes_emissions {file : String} {calls : List Call} {assembly : Assembly}
    (called : callAll calls (.start file) = .ok assembly) :
    ∃ instructions, Decodes assembly.code.image.bytecode 0 instructions ∧
      List.Forall₂ (Emission.RealizedBy assembly.code.image) assembly.emissions instructions ∧
      assembly.code.image.names.Nodup ∧
      ∀ emission ∈ assembly.emissions, ∀ offset, emission.subject = .target offset →
        offset = assembly.code.image.bytecode.size ∨
          ∃ instruction ∈ instructions, instruction.offset = offset := by
  obtain ⟨parts, made⟩ := (made_start file).callAll called
  refine ⟨parts.map Prod.snd, ?_, ?_, made.distinct, ?_⟩
  · have bytes : assembly.code.image.bytecode.toList =
        [] ++ (parts.map Prod.snd).flatMap Located.bytes := made.bytes
    refine decodes_of_bytes bytes made.consecutive fun located member => ?_
    obtain ⟨part, known, rfl⟩ := List.mem_map.mp member
    exact made.fits part known
  · rw [made.emissions, List.forall₂_map_left_iff, List.forall₂_map_right_iff, List.forall₂_same]
    exact made.realized
  · intro emission member offset target
    rw [made.emissions] at member
    obtain ⟨part, known, rfl⟩ := List.mem_map.mp member
    rcases made.targets part known offset target with same | ⟨other, present, same⟩
    · exact Or.inl same
    · exact Or.inr ⟨other.2, List.mem_map_of_mem present, same⟩

/-- A loop whose end is patched twice, the second time after more was emitted. -/
theorem decodes_emissions_patched_twice :
    let calls : List Call := [.emitLine 7, .emitJump (.setup .loop), .emitName .loadName "f",
      .emitJump .jumpIfFalse, .emit .callBare, .patchJump 1, .patchJump 0, .emit .popTop,
      .emitName .storeName "f", .emitJumpTo 3, .patchJump 0, .loadConstant .none,
      .emit .returnValue]
    ∃ assembly, callAll calls (.start "main") = .ok assembly ∧ assembly.code.bytecode =
        #[127, 7, 0, 120, 14, 0, 101, 0, 0, 111, 1, 0, 14, 1, 90, 0, 0, 113, 3, 0, 100, 0, 0, 83] ∧
      ∃ instructions, Decodes assembly.code.image.bytecode 0 instructions ∧
        List.Forall₂ (Emission.RealizedBy assembly.code.image) assembly.emissions instructions := by
  intro calls
  have bytes : (callAll calls (.start "main")).toOption.map (·.code.bytecode) = some
      #[127, 7, 0, 120, 14, 0, 101, 0, 0, 111, 1, 0,
        14, 1, 90, 0, 0, 113, 3, 0, 100, 0, 0, 83] := by
    cbv
  cases called : callAll calls (.start "main") with
  | error refused =>
      rw [called] at bytes
      cases bytes
  | ok assembly =>
      rw [called] at bytes
      obtain ⟨instructions, decodes, realized, -, -⟩ := decodes_emissions called
      exact ⟨assembly, rfl, Option.some.inj bytes, instructions, decodes, realized⟩

end Assembly

end StackMachine
