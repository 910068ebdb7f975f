import StackMachine.Stack
import StackMachine.Store.Basic

/-!
# Activations

An activation is a frame at work: where it is in its code, the blocks it is in,
and where its values start among those of all frames, which share one stack.
Instructions act on the activation of the innermost frame, the values and the
store, and on nothing else; `FrameM` says so in its type.

A frame's own values are those above its base.  Every operation that takes values
off first asks whether there are enough of them; that the shared stack reaches
down to the base in the first place is a promise of the machine to itself.
-/

namespace StackMachine

/-- A block: where it ends, and how many values there were when it was set
up. -/
structure Block where
  kind : BlockKind
  handler : Nat
  level : Nat
  deriving DecidableEq, Repr

/-- How many blocks a frame may be in. -/
def maxBlocks : Nat := 20

/-- A frame at work.  The frame object owns the references that keep the code
and the two dictionaries alive.  `base` is the number of values below the frame's
own.  Blocks are listed innermost first. -/
structure Activation where
  frame : Ref
  code : Ref
  globals : Ref
  locals : Ref
  file : String
  bytecode : Bytes
  names : Array String
  offset : Nat
  line : Nat
  base : Nat
  blocks : List Block

/-- What an instruction acts on.  `values` are those of all frames. -/
structure FrameState (τ : Type) where
  store : Store τ
  values : Stack Ref
  activation : Activation

/-- An operation within a frame. -/
abbrev FrameM (τ : Type) := EStateM (Stop Cause) (FrameState τ)

namespace FrameM

variable {τ α : Type}

/-- Act on the store. -/
@[inline] def onStore (act : StoreM τ α) : FrameM τ α
  | ⟨store, values, activation⟩ =>
      match act store with
      | .ok value store => .ok value ⟨store, values, activation⟩
      | .error stop store => .error stop ⟨store, values, activation⟩

/-- Fail with a cause. -/
@[inline] def raise (cause : Cause) : FrameM τ α :=
  throw (.failed cause)

/-- Read something off the activation. -/
@[inline] def asks (read : Activation → α) : FrameM τ α :=
  fun state => .ok (read state.activation) state

/-- Change the activation. -/
@[inline] def update (change : Activation → Activation) : FrameM τ Unit
  | ⟨store, values, activation⟩ => .ok () ⟨store, values, change activation⟩

/-- The values of all frames. -/
@[inline] def allValues : FrameM τ (Stack Ref) :=
  fun state => .ok state.values state

/-- Replace the values of all frames. -/
@[inline] def setValues (values : Stack Ref) : FrameM τ Unit
  | ⟨store, _, activation⟩ => .ok () ⟨store, values, activation⟩

/-- Put a value on top. -/
def push (value : Ref) : FrameM τ Unit := do
  setValues ((← allValues).push value)

/-- Put values on top, the first of them uppermost. -/
def pushAll (values : List Ref) : FrameM τ Unit := do
  setValues ((← allValues).pushAll values)

/-- The number of the frame's own values. -/
def depth : FrameM τ Nat := fun state =>
  if state.activation.base ≤ state.values.height then
    .ok (state.values.height - state.activation.base) state
  else
    .error (.fault .shortStack) state

/-- Check that the frame has at least `count` values. -/
def requireDepth (count : Nat) : FrameM τ Unit := do
  if (← depth) < count then raise .valueUnderflow else pure ()

/-- Take the topmost value of all. -/
def takeTop : FrameM τ Ref := do
  let values ← allValues
  match values.items with
  | top :: _ => do
      setValues (values.drop 1)
      return top
  | [] => throw (.fault .shortStack)

/-- Take the `count` topmost values of all; the topmost one comes last. -/
def takeMany (count : Nat) : FrameM τ (List Ref) := do
  let values ← allValues
  if values.height < count then
    throw (.fault .shortStack)
  else do
    setValues (values.drop count)
    return (values.items.take count).reverse

/-- Take the topmost value. -/
def pop : FrameM τ Ref := do
  requireDepth 1
  takeTop

/-- Take the two topmost values; the topmost one comes second. -/
def popTwo : FrameM τ (Ref × Ref) := do
  requireDepth 2
  let top ← takeTop
  let second ← takeTop
  return (second, top)

/-- Take the three topmost values; the topmost one comes third. -/
def popThree : FrameM τ (Ref × Ref × Ref) := do
  requireDepth 3
  let top ← takeTop
  let second ← takeTop
  let third ← takeTop
  return (third, second, top)

/-- Take the `count` topmost values; the topmost one comes last. -/
def popMany (count : Nat) : FrameM τ (List Ref) := do
  requireDepth count
  takeMany count

/-- The topmost value, which stays where it is. -/
def peek : FrameM τ Ref := do
  requireDepth 1
  match (← allValues).top? with
  | some top => return top
  | none => throw (.fault .shortStack)

/-- Go on at an offset. -/
def jumpTo (offset : Nat) : FrameM τ Unit :=
  update fun activation => { activation with offset }

/-- A name of the code's table. -/
def nameAt (index : Nat) : FrameM τ String := do
  match ← asks (·.names[index]?) with
  | some name => return name
  | none => raise .nameIndex

/-- Enter a block. -/
def pushBlock (kind : BlockKind) (handler : Nat) : FrameM τ Unit := do
  let blocks ← asks (·.blocks)
  if maxBlocks ≤ blocks.length then
    raise .blockOverflow
  else do
    let block : Block := { kind, handler, level := ← depth }
    update fun activation => { activation with blocks := block :: blocks }

/-- Leave the innermost block. -/
def popBlock : FrameM τ Block := do
  match ← asks (·.blocks) with
  | block :: rest => do
      update fun activation => { activation with blocks := rest }
      return block
  | [] => raise .blockUnderflow

/-- Give back the topmost values until `level` of the frame's own are left. -/
def drainTo [Tracker τ] (level : Nat) : FrameM τ Unit := do
  let values ← allValues
  let surplus := values.height - ((← asks (·.base)) + level)
  setValues (values.drop surplus)
  onStore (StoreM.releaseAll (values.items.take surplus))

end FrameM

end StackMachine
