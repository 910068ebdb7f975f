import StackMachine.Instruction
import StackMachine.Machine.Errors
import StackMachine.Machine.Instructions
import StackMachine.Store.Natives

/-!
# Running code

Code runs in a frame, one instruction after the other, until it returns or fails.
A call runs the code of the function in a new frame and goes on when that is
left.  A break goes on behind the innermost loop.  An error leaves the frame,
whatever blocks it is in, and with it every frame around it.

`runFrame` is given a number of steps and stops unfinished when they run out.
What it makes of a call is itself, with fewer steps.
-/

namespace StackMachine.MachineM

/-- How an instruction ends that does not fail. -/
inductive Flow where
  | next
  | returning (value : Ref)
  | breaking
  deriving DecidableEq, Repr

variable {τ : Type} [Tracker τ]

/-- Ask the tracker for one more instruction. -/
def tick : StoreM τ Unit := fun store =>
  match Tracker.tick store.tracker with
  | (none, tracker) => .ok () { store with tracker }
  | (some refusal, tracker) => .error (.failed (.refused refusal)) { store with tracker }

/-- Ask the tracker for one more frame. -/
def chargeFrame (depth : Nat) : StoreM τ Unit := fun store =>
  let asked := { store with tracker := Tracker.noteEnter depth store.tracker }
  match Tracker.enter depth store.tracker with
  | none => .ok () asked
  | some refusal => .error (.failed (.refused refusal)) asked

/-- The code at a reference, which has to be code. -/
def getCode (code : Ref) : StoreM τ CodeObject := do
  match ← StoreM.get code with
  | .code object => return object
  | _ => StoreM.raise .badCall

/-- Check that an object is a dictionary. -/
def requireDict (ref : Ref) : StoreM τ Unit := do
  match ← StoreM.get ref with
  | .dict _ => return ()
  | _ => StoreM.raise .badCall

/-- Make a frame object.  It holds a reference to the frame of the caller. -/
def newFrame (back : Option Ref) (code globals locals : Ref) : StoreM τ Ref := do
  StoreM.acquireAll (back.toList ++ [code, globals, locals])
  StoreM.allocate (.frame back code globals locals)

/-- Make the activation of a new frame.  `back` is the frame of the caller, `depth`
the number of active frames and `base` that of their values. -/
def openFrame (back : Option Ref) (depth base : Nat) (code globals locals : Ref) :
    StoreM τ Activation := do
  chargeFrame depth
  let object ← getCode code
  requireDict globals
  requireDict locals
  let frame ← newFrame back code globals locals
  return {
    frame, code, globals, locals, file := object.file, bytecode := object.bytecode,
    names := object.names, offset := 0, line := 0, base, blocks := [] }

/-- Enter a frame for some code. -/
def enterFrame (code globals locals : Ref) : MachineM τ Unit := do
  let machine ← get
  let back := machine.frames.top?.map (·.frame)
  let activation ← onStore
    (openFrame back machine.frames.height machine.values.height code globals locals)
  modify fun machine => { machine with frames := machine.frames.push activation }
  tell fun frames => .entered activation.file frames.height

/-- Take the values from `base` on away; the topmost one comes last. -/
def splitOff (base : Nat) : MachineM τ (List Ref) := do
  let values := (← get).values
  if values.height < base then
    throw (.fault .shortStack)
  else do
    let surplus := values.height - base
    modify fun machine => { machine with values := values.drop surplus }
    return (values.items.take surplus).reverse

/-- Leave the innermost frame and give back what is left in it. -/
def leaveFrame : MachineM τ Unit := do
  match (← get).frames.top? with
  | none => throw (.fault .idle)
  | some activation => do
      modify fun machine => { machine with frames := machine.frames.drop 1 }
      let leftovers ← splitOff activation.base
      releaseAll (leftovers ++ [activation.frame])
      tell fun frames => .left frames.height

/-- Run some code in a new frame, with `run` to run the frame.  The frame takes
over the argument. -/
def evaluateCode (run : MachineM τ Ref) (code globals locals : Ref) (argument : Option Ref) :
    MachineM τ Ref := do
  match ← Outcome.attempt (enterFrame code globals locals) with
  | .error failure => do
      releaseAll argument.toList
      throw (.failed failure)
  | .ok () => do
      onFrame (FrameM.pushAll argument.toList)
      let result ← Outcome.attempt run
      leaveFrame
      Outcome.settle result

/-- Run the code of a function, with new locals. -/
def runFunction (run : MachineM τ Ref) (code globals : Ref) (argument : Option Ref) :
    MachineM τ Ref := do
  let locals ← onStore (StoreM.orRelease argument.toList (StoreM.allocate (.dict .empty)))
  releasing [locals] (evaluateCode run code globals locals argument)

/-- Make a member of a class. -/
def instantiate (owner : Ref) (argument : Option Ref) : StoreM τ Ref := do
  match argument with
  | some argument => do
      StoreM.release argument
      StoreM.raise .classArguments
  | none => do
      let attrs ← StoreM.allocate (.dict .empty)
      let _ ← StoreM.acquire owner
      StoreM.allocate (.member owner attrs)

/-- Call an object that is not a bound method. -/
def callPlain (run : MachineM τ Ref) (callee : Ref) (argument : Option Ref) : MachineM τ Ref := do
  match ← onStore (StoreM.get callee) with
  | .native function => onStore (StoreM.callNative function argument)
  | .class_ _ => onStore (instantiate callee argument)
  | .function code globals => do
      onStore (StoreM.acquireAll [code, globals])
      releasing [code, globals] (runFunction run code globals argument)
  | .method _ _ => throw (.fault .nestedMethod)
  | _ => do
      releaseAll argument.toList
      raise .notCallable

/-- The argument of a bound method's function: the object, alone or in a pair
with the argument of the call. -/
def methodArgument (function self : Ref) : Option Ref → StoreM τ Ref
  | none => return self
  | some argument =>
      StoreM.orRelease [function] (StoreM.allocate (.tuple #[self, argument]))

/-- Call an object.  The call takes over the argument. -/
def call (run : MachineM τ Ref) (callee : Ref) (argument : Option Ref) : MachineM τ Ref := do
  match ← onStore (StoreM.get callee) with
  | .method function self => do
      onStore (StoreM.acquireAll [function, self])
      let argument ← onStore (methodArgument function self argument)
      releasing [function] (callPlain run function (some argument))
  | _ => callPlain run callee argument

/-- Carry out an instruction.  `next` is the offset after it. -/
def dispatch (run : MachineM τ Ref) (op : Opcode) (operand next : Nat) : MachineM τ Flow := do
  match op with
  | .returnValue => return .returning (← onFrame FrameM.pop)
  | .breakLoop => return .breaking
  | .callBare => do
      let callee ← onFrame FrameM.pop
      let result ← releasing [callee] (call run callee none)
      onFrame (FrameM.push result)
      return .next
  | .callWith => do
      let (callee, argument) ← onFrame FrameM.popTwo
      let result ← releasing [callee] (call run callee (some argument))
      onFrame (FrameM.push result)
      return .next
  | .popBlock => do
      let block ← onFrame FrameM.popBlock
      tell fun frames => .popped ((frames.top?.map (·.blocks.length)).getD 0)
      onFrame (FrameM.drainTo block.level)
      return .next
  | .setup kind => do
      onFrame (FrameM.pushBlock kind (next + operand))
      tell fun frames => .pushed kind ((frames.top?.map (·.blocks.length)).getD 0)
      return .next
  | _ => do
      onFrame (FrameM.execute op operand next)
      return .next

/-- Read the instruction the innermost frame is at. -/
def fetch : FrameM τ (Nat × Fetched) :=
  FrameM.asks fun activation =>
    (activation.offset, Fetched.read activation.bytecode activation.offset)

/-- Carry out the instruction the innermost frame is at. -/
def step (run : MachineM τ Ref) : MachineM τ Flow := do
  onStore tick
  let (offset, fetched) ← onFrame fetch
  match fetched with
  | .pastEnd | .truncated _ => raise .codeEnd
  | .unknown _ => raise .unknownOpcode
  | .instruction op operand next => do
      onFrame (FrameM.jumpTo next)
      let depth ← onFrame FrameM.depth
      tell fun frames => .instruction offset op depth frames.height
      dispatch run op operand next

/-- Leave the innermost block, inside `rest`, and give back the values above those
there were when it was set up. -/
def leaveBlock (block : Block) (rest : List Block) : MachineM τ Unit := do
  onFrame (FrameM.update fun activation => { activation with blocks := rest })
  tell fun _ => .popped rest.length
  onFrame (FrameM.drainTo block.level)

/-- Leave blocks, innermost first.  A break ends at the first loop; the result says
whether there was one. -/
def unwindBlocks (reason : Unwinding) : List Block → MachineM τ Bool
  | [] => return false
  | block :: rest => do
      leaveBlock block rest
      if block.kind = .loop ∧ reason = .breaking then do
        onFrame (FrameM.jumpTo block.handler)
        return true
      else
        unwindBlocks reason rest

/-- Leave the straight path through the code of the innermost frame.  An error
has to be set exactly if that is the reason. -/
def unwind (reason : Unwinding) : MachineM τ Bool := do
  let isSet := (← get).error.isSome
  if reason = .error ∧ !isSet then throw (.fault .silentError)
  if reason ≠ .error ∧ isSet then throw (.fault .staleError)
  tell fun frames => .unwound reason frames.height
  if reason = .error then pushTraceback
  unwindBlocks reason (← onFrame (FrameM.asks (·.blocks)))

/-- Run the innermost frame until it returns or fails, in at most `fuel`
steps. -/
def runFrame : (fuel : Nat) → MachineM τ Ref
  | 0 => throw .unfinished
  | fuel + 1 => do
      match ← Outcome.attempt (step (runFrame fuel)) with
      | .ok .next => runFrame fuel
      | .ok (.returning value) => do
          let _ ← unwind .returning
          return value
      | .ok .breaking => do
          if ← unwind .breaking then
            runFrame fuel
          else do
            setErrorCause .breakOutsideLoop
            pushTraceback
            throw (.failed .recorded)
      | .error failure => do
          record failure
          let _ ← unwind .error
          throw (.failed .recorded)

end StackMachine.MachineM
