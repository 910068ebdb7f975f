import StackMachine.Machine.Run
import StackMachine.Store.Loading

/-!
# What a host can do with a machine

A host loads code, runs it, calls functions, and reads what became of them.  Every
reference handed out is owned by the host, which gives it back when it is done
with it.

Where running is involved, `fuel` bounds the steps of each frame.
-/

namespace StackMachine

/-- A summary of what a store holds. -/
structure StoreStats where
  live : Nat
  kinds : List (Kind × Nat)
  memory : Option Nat
  deriving DecidableEq, Repr

/-- The live objects but for the three that are never counted. -/
def StoreStats.entries (stats : StoreStats) : Nat :=
  stats.live - Store.pinned

namespace Store

variable {τ : Type}

/-- How many live objects are of a kind. -/
def countKind (store : Store τ) (kind : Kind) : Nat :=
  store.cells.countP fun cell =>
    cell.any fun cell => cell.payload.any fun payload => payload.kind = kind

/-- What a store holds; kinds of which there is no object are left out. -/
def stats [Tracker τ] (store : Store τ) : StoreStats where
  live := store.liveCount
  kinds := (Kind.all.map fun kind => (kind, store.countKind kind)).filter fun entry =>
    entry.2 != 0
  memory := Tracker.memory? store.tracker

/-- The number of live objects but for the three that are never counted. -/
def entryCount (store : Store τ) : Nat :=
  store.liveCount - pinned

end Store

/-- Hand over the failure of an operation as a report. -/
def StoreM.reporting {τ α : Type} (act : StoreM τ α) : StoreM τ (Except Report α) := do
  match ← Outcome.attempt act with
  | .ok value => return .ok value
  | .error cause => return .error (.ofCause cause)

namespace MachineM

variable {τ α : Type} [Tracker τ]

/-- Run an operation on the store and hand over its failure as a report. -/
def reporting (act : StoreM τ α) : MachineM τ (Except Report α) :=
  onStore (StoreM.reporting act)

/-- Hand over a failure by recording it as the current error. -/
def recording (act : MachineM τ Ref) : MachineM τ (Option Ref) := do
  match ← Outcome.attempt act with
  | .ok value => return some value
  | .error failure => do
      record failure
      return none

/-- A call from the host that no frame is active for starts without an error. -/
def beginCall : MachineM τ Unit := do
  if (← get).frames.isEmpty then clearError

/-- Run code.  If there is no result, the error is the current one. -/
def evaluate (fuel : Nat) (code globals locals : Ref) (argument : Option Ref) :
    MachineM τ (Option Ref) := do
  beginCall
  recording (evaluateCode (runFrame fuel) code globals locals argument)

/-- Call an object.  If there is no result, the error is the current one. -/
def invoke (fuel : Nat) (callee : Ref) (argument : Option Ref) : MachineM τ (Option Ref) := do
  beginCall
  recording (call (runFrame fuel) callee argument)

/-- The value of an object outside the machine. -/
def toObject (ref : Ref) : MachineM τ Object :=
  onStore (StoreM.reading (·.toObject ref))

/-- The name of the module a program runs as. -/
def mainName : String := "__main__"

/-- The report of the current error, which has to be set. -/
def requireReport : MachineM τ Report := do
  match ← takeReport with
  | some report => return report
  | none => throw (.fault .silentError)

/-- The value of an object, if there is one, which is given back. -/
def takeObject : Option Ref → MachineM τ (Option Object)
  | none => return none
  | some ref => do
      let object ← toObject ref
      releaseAll [ref]
      return some object

/-- Load an image and make the module it runs as.  The results are the code, the
module and the module's dictionary. -/
def prepare (image : Image) : StoreM τ (Ref × Ref × Ref) := do
  let code ← StoreM.loadImage image
  let module ← StoreM.orRelease [code] (StoreM.registerModule mainName)
  let globals ← StoreM.orRelease [code, module] (StoreM.loadAttr module StoreM.dictName)
  return (code, module, globals)

/-- Run an image as the main module. -/
def runImage (fuel : Nat) (image : Image) : MachineM τ (Except Report Object) := do
  match ← reporting (prepare image) with
  | .error report => return .error report
  | .ok (code, module, globals) => do
      releaseAll [module]
      let object ← takeObject (← evaluate fuel code globals globals none)
      releaseAll [code, globals]
      match object with
      | some object => return .ok object
      | none => return .error (← requireReport)

/-- The count of each name bound in a dictionary. -/
def nameCounts (dict : Ref) (store : Store τ) :
    List (Option Bytes) → Except (Stop Cause) (List (String × Nat))
  | [] => return []
  | none :: rest => nameCounts dict store rest
  | some key :: rest => do
      let name := key.toText
      match ← store.get dict with
      | .dict table =>
          match ← table.lookup (Bytes.ofString name) with
          | some value =>
              let count := ((store.cell? value).map (·.count)).getD 0
              return (name, count) :: (← nameCounts dict store rest)
          | none => nameCounts dict store rest
      | _ => return []

/-- The keys of a dictionary, slot by slot. -/
def slotKeys (store : Store τ) (dict : Ref) : Except (Stop Cause) (List (Option Bytes)) := do
  match ← store.get dict with
  | .dict table => return (List.range table.size).map table.keyAt?
  | _ => return []

/-- What a run left behind: its result, the counts of the names it bound, each
name once, and how many objects it left alive. -/
structure CountedRun where
  object : Object
  counts : List (String × Nat)
  left : Nat

/-- Run an image as the main module and count what it leaves behind. -/
def runCounted (fuel : Nat) (image : Image) : MachineM τ (Except Report CountedRun) := do
  let baseline := (← get).store.entryCount
  match ← reporting (prepare image) with
  | .error report => return .error report
  | .ok (code, module, globals) => do
      let object ← takeObject (← evaluate fuel code globals globals none)
      releaseAll [code]
      let counts ← onStore (StoreM.reading fun store => do
        return (← nameCounts globals store (← slotKeys store globals)).eraseDups)
      releaseAll [globals, module]
      match object with
      | some object =>
          return .ok ⟨object, counts, (← get).store.entryCount - baseline⟩
      | none => return .error (← requireReport)

end MachineM

end StackMachine
