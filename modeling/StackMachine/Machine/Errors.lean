import StackMachine.Machine.Basic

/-!
# The current error and its traceback

At most one error is set.  Recording another gives the first one back.  While an
error passes frames, an entry for each is put in front of the traceback, so that
the outermost frame comes first.

Neither recording an error nor adding to its traceback can fail: a message that
cannot be allocated is left out, and so is an entry.
-/

namespace StackMachine.MachineM

variable {τ : Type} [Tracker τ]

/-- Set the current error; the machine takes over both references. -/
def setErrorValue (error value : Ref) : MachineM τ Unit := do
  let previous := (← get).error
  modify fun machine => { machine with error := some (error, value) }
  match previous with
  | some (error, value) => releaseAll [error, value]
  | none => pure ()

/-- Set an error of a kind, without a message. -/
def setError (kind : ErrorKind) : MachineM τ Unit := do
  let error ← onStore (StoreM.acquire kind.object)
  let none ← onStore (StoreM.acquire .noneObject)
  setErrorValue error none

/-- A message as an object, or `none` if it cannot be allocated. -/
def messageObject (message : String) : StoreM τ Ref := do
  match ← Outcome.attempt (StoreM.allocate (.string (Bytes.ofString message))) with
  | .ok value => return value
  | .error _ => StoreM.acquire .noneObject

/-- Set an error of a kind, with a message if it can be allocated. -/
def setErrorText (kind : ErrorKind) (message : String) : MachineM τ Unit := do
  let error ← onStore (StoreM.acquire kind.object)
  let value ← onStore (messageObject message)
  setErrorValue error value

/-- Set the error of a cause. -/
def setErrorCause (cause : Cause) : MachineM τ Unit :=
  match cause.message? with
  | some message => setErrorText cause.kind message
  | none => setError cause.kind

/-- Record a failure, unless that has been done. -/
def record : Failure → MachineM τ Unit
  | .raised cause => setErrorCause cause
  | .recorded => pure ()

/-- Take the current error out, with its value. -/
def takeError : MachineM τ (Option (Ref × Ref)) := do
  let error := (← get).error
  modify fun machine => { machine with error := none }
  return error

/-- Give back a reference pair, if there is one. -/
def releasePair : Option (Ref × Ref) → MachineM τ Unit
  | some (first, second) => releaseAll [first, second]
  | none => pure ()

/-- Remove the traceback. -/
def clearTraceback : MachineM τ Unit := do
  let traceback := (← get).traceback
  modify fun machine => { machine with traceback := none }
  releaseAll traceback.toList

/-- Remove the current error and the traceback. -/
def clearError : MachineM τ Unit := do
  releasePair (← takeError)
  clearTraceback

/-- Make an entry of the traceback.  It holds references to its frame and to the
entry that follows. -/
def newEntry (next : Option Ref) (frame : Ref) (line : Nat) : StoreM τ Ref := do
  let _ ← StoreM.acquire frame
  StoreM.acquireAll next.toList
  StoreM.allocate (.traceback next frame line)

/-- Put an entry for the innermost frame in front of the traceback. -/
def pushTraceback : MachineM τ Unit := do
  let (frame, line) ← onFrame (FrameM.asks fun activation => (activation.frame, activation.line))
  let head := (← get).traceback
  match ← onStore (Outcome.attempt (newEntry head frame line)) with
  | .ok entry => do
      modify fun machine => { machine with traceback := some entry }
      releaseAll head.toList
  | .error _ => pure ()

end StackMachine.MachineM

namespace StackMachine.Store

variable {τ : Type}

/-- The file of a frame object's code. -/
def frameFile (store : Store τ) (frame : Ref) : Except (Stop Cause) String := do
  match ← store.get frame with
  | .frame _ code _ _ =>
      match ← store.get code with
      | .code object => return object.file
      | _ => return ""
  | _ => return ""

/-- The frames of a traceback of at most `length` entries. -/
def tracePoints (store : Store τ) : (length : Nat) → Option Ref →
    Except (Stop Cause) (List TracePoint)
  | 0, _ => return []
  | _ + 1, none => return []
  | length + 1, some entry => do
      match ← store.get entry with
      | .traceback next frame line => do
          let file ← store.frameFile frame
          return ⟨file, line⟩ :: (← store.tracePoints length next)
      | _ => return []

end StackMachine.Store

namespace StackMachine.MachineM

variable {τ : Type} [Tracker τ]

/-- The frames of the traceback, outermost first.  It has no more entries than
the store has slots. -/
def traceback : MachineM τ (List TracePoint) := do
  let head := (← get).traceback
  onStore (StoreM.reading fun store => store.tracePoints store.cells.size head)

/-- Take the traceback out. -/
def takeTraceback : MachineM τ (List TracePoint) := do
  let points ← traceback
  clearTraceback
  return points

/-- The kind of the current error, if it is one of the machine's own. -/
def errorKind : MachineM τ (Option ErrorKind) := do
  return (← get).error.bind fun error => ErrorKind.ofObject? error.1

/-- The form of an object in a message. -/
def display (ref : Ref) : MachineM τ String := do
  return (← onStore (StoreM.reading (·.toObject ref))).display

/-- The message of the value raised with an error; `none` is no message. -/
def message? (value : Ref) : MachineM τ (Option String) := do
  if value = .noneObject then
    return none
  else
    return some (← display value)

/-- Take the current error and its traceback out, as a report. -/
def takeReport : MachineM τ (Option Report) := do
  match ← takeError with
  | none => return none
  | some (error, value) => do
      let kind := ErrorKind.ofObject? error
      let text ← display error
      let message ← message? value
      let points ← takeTraceback
      releaseAll [error, value]
      return some ⟨kind, text, message, points⟩

end StackMachine.MachineM
