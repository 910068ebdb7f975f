import StackMachine.Assembler.Basic

/-!
# Assembly scripts

A script is a list of directives to an assembler.  Jumps waiting to be patched
and offsets to jump back to are kept under names; a name that is set again
stands for the new place.  Constants may themselves be code, given as bytes or as
a script.
-/

namespace StackMachine

/-- Where an absolute jump leads: to a marked offset or to a number. -/
inductive JumpTarget where
  | mark (name : String)
  | offset (value : Nat)
  deriving DecidableEq, Repr

mutual

/-- Code, as bytes or as a script. -/
inductive Source where
  | raw (file : String) (bytecode : Bytes) (constants : List ConstantSource) (names : List String)
  | script (file : String) (directives : List Directive)

/-- A constant whose code may still have to be assembled. -/
inductive ConstantSource where
  | value (constant : Constant)
  | code (source : Source)

/-- One call on an assembler. -/
inductive Directive where
  | emit (op : Opcode)
  | emitOperand (op : Opcode) (operand : Nat)
  | emitName (op : Opcode) (name : String)
  | loadConstant (constant : ConstantSource)
  | addConstant (constant : ConstantSource)
  | addName (name : String)
  | compare (comparison : Comparison)
  | line (number : Nat)
  | raw (byte : UInt8)
  | jump (op : Opcode) (label : String)
  | patch (label : String)
  | mark (name : String)
  | jumpTo (target : JumpTarget)
  | repeated (count : Nat) (directives : List Directive)

end

/-- An assembler and the named places of a script. -/
structure Scripting where
  code : Assembler
  labels : List (String × Nat)
  marks : List (String × Nat)

namespace Scripting

/-- The place a name stands for. -/
def place (places : List (String × Nat)) (name : String) : Assembler.Result Nat :=
  match places.lookup name with
  | some offset => .ok offset
  | none => .error (.unknownLabel name)

/-- Act on the code of a script in progress. -/
@[inline] def onCode (act : Assembler → Assembler.Result Assembler) :
    Scripting → Assembler.Result Scripting
  | ⟨code, labels, marks⟩ => do return ⟨← act code, labels, marks⟩

/-- Emit a jump and keep its place under a label. -/
def emitJump (op : Opcode) (label : String) : Scripting → Assembler.Result Scripting
  | ⟨code, labels, marks⟩ => do
      let (jump, code) ← code.emitJump op
      return ⟨code, (label, jump) :: labels, marks⟩

/-- Let the jump under a label lead to the present offset. -/
def patch (label : String) (state : Scripting) : Assembler.Result Scripting := do
  let jump ← place state.labels label
  state.onCode (·.patchJump jump)

/-- Keep the present offset under a name. -/
def mark (name : String) (state : Scripting) : Scripting :=
  { state with marks := (name, state.code.offset) :: state.marks }

/-- The offset a target stands for. -/
def targetOffset (state : Scripting) : JumpTarget → Assembler.Result Nat
  | .offset target => .ok target
  | .mark name => place state.marks name

/-- Jump to a target. -/
def jumpTo (target : JumpTarget) (state : Scripting) : Assembler.Result Scripting := do
  let offset ← state.targetOffset target
  state.onCode (·.emitJumpTo offset)

/-- Do something a number of times, one after the other. -/
def iterate {σ : Type} (act : σ → Assembler.Result σ) : Nat → σ → Assembler.Result σ
  | 0, state => .ok state
  | count + 1, state => do iterate act count (← act state)

end Scripting

mutual

/-- The image of some code. -/
def Source.image : Source → Assembler.Result Image
  | .raw file bytecode constants names => do
      return ⟨file, bytecode, ← ConstantSource.constants constants, names⟩
  | .script file directives => do
      let state ← Directive.runAll directives ⟨Assembler.new file, [], []⟩
      return state.code.image

/-- The constant of a source. -/
def ConstantSource.constant : ConstantSource → Assembler.Result Constant
  | .value constant => .ok constant
  | .code source => do return .code (← Source.image source)

/-- The constants of some sources. -/
def ConstantSource.constants : List ConstantSource → Assembler.Result (List Constant)
  | [] => .ok []
  | source :: rest => do
      let first ← ConstantSource.constant source
      return first :: (← ConstantSource.constants rest)

/-- Carry out a directive. -/
def Directive.run : Directive → Scripting → Assembler.Result Scripting
  | .emit op, state => state.onCode (·.emit op)
  | .emitOperand op operand, state => state.onCode (·.emitOperand op operand)
  | .emitName op name, state => state.onCode (·.emitName op name)
  | .loadConstant source, state => do
      let constant ← ConstantSource.constant source
      state.onCode (·.loadConstant constant)
  | .addConstant source, state => do
      let constant ← ConstantSource.constant source
      state.onCode fun code => (code.addConstant constant).map Prod.snd
  | .addName name, state => state.onCode fun code => (code.addName name).map Prod.snd
  | .compare comparison, state => state.onCode (·.emitComparison comparison)
  | .line number, state => state.onCode (·.emitLine number)
  | .raw byte, state => state.onCode fun code => .ok (code.emitRaw byte)
  | .jump op label, state => state.emitJump op label
  | .patch label, state => state.patch label
  | .mark name, state => .ok (state.mark name)
  | .jumpTo target, state => state.jumpTo target
  | .repeated count directives, state =>
      Scripting.iterate (Directive.runAll directives) count state

/-- Carry out directives in order. -/
def Directive.runAll : List Directive → Scripting → Assembler.Result Scripting
  | [], state => .ok state
  | directive :: rest, state => do
      Directive.runAll rest (← Directive.run directive state)

end

end StackMachine
