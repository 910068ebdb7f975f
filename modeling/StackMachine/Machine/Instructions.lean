import StackMachine.Machine.Activation
import StackMachine.Store.Arithmetic
import StackMachine.Store.Attributes
import StackMachine.Store.Order

/-!
# What instructions do

An instruction takes its operands off the values of the frame, and gives back the
references it took before it fails or puts its result on top.  This module holds
every instruction but calls, returns, breaks and the setting up and leaving of
blocks, which concern more than the frame itself.
-/

namespace StackMachine.FrameM

variable {τ : Type} [Tracker τ]

/-- Give back references. -/
@[inline] def releaseAll (refs : List Ref) : FrameM τ Unit :=
  onStore (StoreM.releaseAll refs)

/-- Exchange the two topmost values. -/
def rotateTwo : FrameM τ Unit := do
  requireDepth 2
  let values ← allValues
  match values.items with
  | top :: second :: _ => setValues ((values.drop 2).pushAll [second, top])
  | _ => throw (.fault .shortStack)

/-- Move the topmost value below the next two. -/
def rotateThree : FrameM τ Unit := do
  requireDepth 3
  let values ← allValues
  match values.items with
  | top :: second :: third :: _ => setValues ((values.drop 3).pushAll [second, third, top])
  | _ => throw (.fault .shortStack)

/-- Apply an operation to the topmost value. -/
@[inline] def applyUnary (operation : Ref → StoreM τ Ref) : FrameM τ Unit := do
  let operand ← pop
  push (← onStore (StoreM.releasing [operand] (operation operand)))

/-- Apply an operation to the two topmost values. -/
@[inline] def applyBinary (operation : Ref → Ref → StoreM τ Ref) : FrameM τ Unit := do
  let (left, right) ← popTwo
  push (← onStore (StoreM.releasing [left, right] (operation left right)))

/-- The opposite of a truth value. -/
def invert : FrameM τ Unit := do
  let operand ← pop
  let truthy := (← onStore (StoreM.get operand)).isTruthy
  releaseAll [operand]
  push (← onStore (StoreM.acquire (.ofBool !truthy)))

/-- Compare the two topmost values. -/
def compare (operand : Nat) : FrameM τ Unit := do
  match Comparison.ofOperand? operand with
  | none => raise .badComparison
  | some comparison => do
      let (left, right) ← popTwo
      let outcome ←
        onStore (StoreM.releasing [left, right]
          (StoreM.reading fun store => store.test comparison left right))
      push (← onStore (StoreM.acquire (.ofBool outcome)))

/-- Where a subscript assignment goes. -/
inductive Place where
  | item (index : Int64)
  | entry (key : Bytes)

/-- The place a subscript assignment names. -/
def subscriptPlace (container key : Ref) : StoreM τ Place := do
  match ← StoreM.get container, ← StoreM.get key with
  | .list _, .int index => return .item index
  | .dict _, .string key => return .entry key
  | .list _, other | .dict _, other => StoreM.raise (.badSubscript other.kind)
  | other, _ => StoreM.raise (.unsupported .subscriptAssignment other.kind)

/-- Assign an item of a list; a negative index counts from the end. -/
def assignItem (list : Ref) (index : Int64) (value : Ref) : StoreM τ Unit :=
  StoreM.lendingList list [value] fun items =>
    match resolveIndex? index items.size with
    | some position => StoreM.replaceItem .list position value items
    | none => do
        StoreM.release value
        return (items, .error (.indexOutOfRange .list))

/-- Assign an item of a list or an entry of a dictionary. -/
def storeSubscript : FrameM τ Unit := do
  let (value, container, key) ← popThree
  let place ← onStore (Outcome.attempt (subscriptPlace container key))
  releaseAll [key]
  onStore <| StoreM.releasing [container] do
    match place with
    | .ok (.item index) => assignItem container index value
    | .ok (.entry key) => StoreM.dictInsert container key value
    | .error cause => do
        StoreM.release value
        StoreM.raise cause

/-- A bound of a slice. -/
def sliceBound : Option Ref → StoreM τ (Option Int64)
  | none => return none
  | some ref => do
      match ← StoreM.get ref with
      | .int bound => return some bound
      | _ => StoreM.raise .sliceIndexNotInt

/-- Cut a slice out of a sequence.  Its bounds, where there are any, lie above
it, the high one uppermost. -/
def slice (low high : Bool) : FrameM τ Unit := do
  match ← popMany (1 + low.toNat + high.toNat) with
  | sequence :: bounds => do
      let lowRef := if low then bounds[0]? else none
      let highRef := if high then bounds[low.toNat]? else none
      let result ← onStore <| StoreM.releasing (sequence :: bounds) do
        let lowBound ← sliceBound lowRef
        let highBound ← sliceBound highRef
        StoreM.slice sequence lowBound highBound
      push result
  | [] => raise .valueUnderflow

/-- Make a function of the topmost value, which has to be code. -/
def buildFunction : FrameM τ Unit := do
  let code ← pop
  match ← onStore (StoreM.get code) with
  | .code _ => do
      let globals ← asks (·.globals)
      let _ ← onStore (StoreM.acquire globals)
      push (← onStore (StoreM.allocate (.function code globals)))
  | _ => do
      releaseAll [code]
      raise .badCall

/-- Make a class of the topmost value, which has to be a dictionary. -/
def buildClass : FrameM τ Unit := do
  let attrs ← pop
  match ← onStore (StoreM.get attrs) with
  | .dict _ => push (← onStore (StoreM.allocate (.class_ attrs)))
  | _ => do
      releaseAll [attrs]
      raise .badCall

/-- Make a list or a tuple of the topmost values. -/
def buildSequence (pack : Array Ref → Payload) (count : Nat) : FrameM τ Unit := do
  let items ← popMany count
  push (← onStore (StoreM.allocate (pack items.toArray)))

/-- The items of an object, if it is a list or a tuple as `kind` says. -/
def itemsOf? (kind : Kind) : Payload → Option (Array Ref)
  | .tuple items => if kind = .tuple then some items else none
  | .list items => if kind = .list then some items else none
  | _ => none

/-- Replace a list or a tuple by its items, the first of them uppermost. -/
def unpack (kind : Kind) (count : Nat) : FrameM τ Unit := do
  let sequence ← pop
  let items ← onStore <| StoreM.releasing [sequence] do
    match itemsOf? kind (← StoreM.get sequence) with
    | none => StoreM.raise (.unpackOther kind)
    | some items =>
        if items.size = count then do
          StoreM.acquireAll items.toList
          return items.toList
        else
          StoreM.raise (.unpackWrongSize kind)
  pushAll items

/-- Put a constant on top. -/
def loadConst (index : Nat) : FrameM τ Unit := do
  match ← onStore (StoreM.get (← asks (·.code))) with
  | .code object =>
      match object.constants[index]? with
      | some constant => do push (← onStore (StoreM.acquire constant))
      | none => raise .constantIndex
  | _ => raise .badCall

/-- The first of some dictionaries' values for a key. -/
def firstOf (key : Bytes) : List Ref → StoreM τ (Option Ref)
  | [] => return none
  | dict :: rest => do
      match ← StoreM.dictLookup dict key with
      | some value => return some value
      | none => firstOf key rest

/-- Put what a name is bound to on top: in the locals, the globals or among the
built-in names. -/
def loadName (index : Nat) : FrameM τ Unit := do
  let name ← nameAt index
  let scopes ← asks fun activation => [activation.locals, activation.globals, Ref.builtins]
  let found ← onStore (firstOf (Bytes.ofString name) scopes)
  push (← onStore (StoreM.acquireNamed name found))

/-- Bind a name in the locals. -/
def storeName (index : Nat) : FrameM τ Unit := do
  let name ← nameAt index
  let value ← pop
  onStore (StoreM.dictInsert (← asks (·.locals)) (Bytes.ofString name) value)

/-- Replace an object by one of its attributes. -/
def loadAttr (index : Nat) : FrameM τ Unit := do
  let name ← nameAt index
  applyUnary (StoreM.loadAttr · name)

/-- Assign an attribute of the topmost object. -/
def storeAttr (index : Nat) : FrameM τ Unit := do
  let name ← nameAt index
  let (value, object) ← popTwo
  onStore (StoreM.releasing [object] (StoreM.storeAttr object name value))

/-- Bind an attribute of the module on top in the locals. -/
def importFrom (index : Nat) : FrameM τ Unit := do
  let name ← nameAt index
  match ← onStore (StoreM.get (← peek)) with
  | .module _ attrs => do
      let found ← onStore (StoreM.dictLookup attrs (Bytes.ofString name))
      let value ← onStore (StoreM.acquireNamed name found)
      onStore (StoreM.dictInsert (← asks (·.locals)) (Bytes.ofString name) value)
  | _ => raise .badCall

/-- Jump if the topmost value counts as `condition`; it stays. -/
def jumpIf (condition : Bool) (target : Nat) : FrameM τ Unit := do
  let payload ← onStore (StoreM.get (← peek))
  if payload.isTruthy = condition then jumpTo target else pure ()

/-- The position a loop index stands for. -/
def loopPosition? : Payload → Option Nat
  | .int value => if 0 ≤ value.toInt then some value.toInt.toNat else none
  | _ => none

/-- Go on with a loop.  The sequence and the index of the next item are on top.
They are replaced by the sequence, the index after and the item, or removed once
the sequence is exhausted. -/
def forLoop (exhausted : Nat) : FrameM τ Unit := do
  let (sequence, index) ← popTwo
  let position := loopPosition? (← onStore (StoreM.get index))
  releaseAll [index]
  match position with
  | none => do
      releaseAll [sequence]
      raise .badCall
  | some position => do
      match ← onStore (StoreM.orRelease [sequence] (StoreM.loopItem sequence position)) with
      | some item => do
          let next ← onStore (StoreM.orRelease [sequence, item]
            (StoreM.allocate (.int (Int64.ofNat (min (position + 1) 0x7fffffffffffffff)))))
          pushAll [item, next, sequence]
      | none => do
          releaseAll [sequence]
          jumpTo exhausted

/-- Carry out an instruction that stays within the frame.  `next` is the offset
after it. -/
def execute (op : Opcode) (operand next : Nat) : FrameM τ Unit := do
  match op with
  | .popTop | .printTop => releaseAll [← pop]
  | .rotTwo => rotateTwo
  | .rotThree => rotateThree
  | .dupTop => push (← onStore (StoreM.acquire (← peek)))
  | .negate => applyUnary StoreM.negate
  | .invert => invert
  | .arithmetic operation => applyBinary (StoreM.arithmetic operation)
  | .subscript => applyBinary StoreM.subscript
  | .slice low high => slice low high
  | .storeSubscript => storeSubscript
  | .loadLocals => push (← onStore (StoreM.acquire (← asks (·.locals))))
  | .requireArgs => if (← depth) = 0 then raise .argumentsRequired else pure ()
  | .refuseArgs => if (← depth) = 0 then pure () else raise .argumentsRefused
  | .buildFunction => buildFunction
  | .buildClass => buildClass
  | .storeName => storeName operand
  | .unpackTuple => unpack .tuple operand
  | .unpackList => unpack .list operand
  | .storeAttr => storeAttr operand
  | .loadConst => loadConst operand
  | .loadName => loadName operand
  | .buildTuple => buildSequence .tuple operand
  | .buildList => buildSequence .list operand
  | .buildMap => push (← onStore (StoreM.allocate (.dict .empty)))
  | .loadAttr => loadAttr operand
  | .compare => compare operand
  | .importName => do push (← onStore (StoreM.importModule (← nameAt operand)))
  | .importFrom => importFrom operand
  | .jumpForward => jumpTo (next + operand)
  | .jumpIfFalse => jumpIf false (next + operand)
  | .jumpIfTrue => jumpIf true (next + operand)
  | .jumpAbsolute => jumpTo operand
  | .forLoop => forLoop (next + operand)
  | .setLine => update fun activation => { activation with line := operand }
  | .callBare | .callWith | .breakLoop | .returnValue | .popBlock | .setup _ => pure ()

end StackMachine.FrameM
