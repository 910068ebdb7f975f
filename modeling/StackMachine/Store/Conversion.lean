import StackMachine.Object
import StackMachine.Report
import StackMachine.Store.Containers
import StackMachine.Store.Order
import StackMachine.Store.Roots

/-!
# Values into and out of the store

`Store.toObject` shows an object of the store as a value outside it.  A container
that is met again inside itself, or lies too deep, is shown by its slot only.
`StoreM.ofObject` builds an object from a value; values that are only ever
results are refused.
-/

namespace StackMachine

namespace Payload

/-- What stands for a container that is met again; nothing for other objects. -/
def placeholder? : Payload → Option String
  | list _ => some "[...]"
  | tuple _ => some "(...)"
  | dict _ => some "\x7b...\x7d"
  | _ => Option.none

end Payload

namespace Store

variable {τ : Type}

/-- Show objects one by one. -/
def showAll {α β : Type} (show_ : α → Except (Stop Cause) β) :
    List α → Except (Stop Cause) (List β)
  | [] => .ok []
  | item :: rest => do
      let first ← show_ item
      return first :: (← showAll show_ rest)

/-- Show an object that is no container. -/
def showLeaf (store : Store τ) : Payload → Except (Stop Cause) Object
  | .none => .ok .none
  | .int value => .ok (.int value)
  | .float value => .ok (.float value)
  | .string bytes => .ok (.string bytes.toText)
  | .module title _ => do
      match ← store.get title with
      | .string bytes => .ok (.module bytes.toText)
      | _ => .ok (.module "")
  | .native function => .ok (.repr ("<built-in method " ++ function.name ++ ">"))
  | .code object => .ok (.repr ("<code " ++ object.file ++ ">"))
  | payload => .ok (.repr ("<" ++ payload.kind.name ++ ">"))

/-- Show an object inside the containers of `visiting`, going at most `room`
containers deeper. -/
def toObjectWithin (store : Store τ) : (room : Nat) → (visiting : List Ref) → (ref : Ref) →
    Except (Stop Cause) Object
  | 0, _, ref => do
      let payload ← store.get ref
      match payload.placeholder? with
      | some text => .ok (.cycle ref.index text)
      | none => store.showLeaf payload
  | room + 1, visiting, ref => do
      let payload ← store.get ref
      match payload.placeholder? with
      | none => store.showLeaf payload
      | some text =>
          if visiting.contains ref then
            .ok (.cycle ref.index text)
          else
            let inner := toObjectWithin store room (ref :: visiting)
            match payload with
            | .list items => return .list (← showAll inner items.toList)
            | .tuple items => return .tuple (← showAll inner items.toList)
            | .dict table =>
                return .dict (← showAll
                  (fun entry => do return (entry.1.toText, ← inner entry.2)) table.entries)
            | _ => store.showLeaf payload

/-- Show an object. -/
def toObject (store : Store τ) (ref : Ref) : Except (Stop Cause) Object :=
  store.toObjectWithin (maxDepth + 1) [] ref

end Store

/-- Why a value cannot be put into the store. -/
inductive InputError where
  /-- The value is only ever a result. -/
  | invalidType (name : String)
  /-- An object could not be made. -/
  | refused (refusal : Refusal)
  /-- A dictionary did not take an entry. -/
  | raised (cause : Cause)
  deriving DecidableEq, Repr

/-- The message of an input error. -/
def InputError.message : InputError → String
  | invalidType name => "'" ++ name ++ "' is not a valid input value"
  | refused refusal => refusal.message
  | raised cause => (Report.ofCause cause).text

namespace StoreM

variable {τ : Type} [Tracker τ]

/-- An operation that puts values into the store. -/
abbrev Input (τ : Type) := EStateM (Stop InputError) (Store τ)

/-- Run an operation on the store and read a failure as `failure` says. -/
def asInput {α : Type} (failure : Cause → InputError) (act : StoreM τ α) : Input τ α :=
  fun store =>
    match act store with
    | .ok value store => .ok value store
    | .error (.failed cause) store => .error (.failed (failure cause)) store
    | .error (.fault fault) store => .error (.fault fault) store
    | .error .unfinished store => .error .unfinished store

/-- The failure to make an object. -/
def allocationFailure : Cause → InputError
  | .refused refusal => .refused refusal
  | cause => .raised cause

/-- Make an object. -/
def inputObject (payload : Payload) : Input τ Ref :=
  asInput allocationFailure (allocate payload)

/-- Give back references and fail. -/
def abandon {α : Type} (refs : List Ref) (error : InputError) : Input τ α := do
  asInput .raised (releaseAll refs)
  throw (.failed error)

/-- Bind a key in a table that is not in the store yet.  Where that fails, the
entries of the table are given back. -/
def inputEntry (table : Table Ref) (key : String) (value : Ref) : Input τ (Table Ref) := do
  match ← asInput .raised (tableInsert (Bytes.ofString key) value table) with
  | (table, .ok ()) => pure table
  | (table, .error cause) => abandon table.values (.raised cause)

mutual

/-- Build an object from a value. -/
def ofObject : Object → Input τ Ref
  | .none => asInput .raised (acquire .noneObject)
  | .int value => inputObject (.int value)
  | .float value => inputObject (.float value)
  | .string text => inputObject (.string (Bytes.ofString text))
  | .list items => do inputObject (.list (← ofItems items #[]))
  | .tuple items => do inputObject (.tuple (← ofItems items #[]))
  | .dict entries => do inputObject (.dict (← ofEntries entries .empty))
  | .module _ => throw (.failed (.invalidType "module"))
  | .repr _ => throw (.failed (.invalidType "repr"))
  | .cycle _ _ => throw (.failed (.invalidType "cycle"))

/-- Build objects from values, after the ones made already.  Where one cannot be
built, the ones before it are given back. -/
def ofItems : List Object → Array Ref → Input τ (Array Ref)
  | [], made => pure made
  | item :: rest, made => do
      match ← Outcome.attempt (ofObject item) with
      | .ok ref => ofItems rest (made.push ref)
      | .error error => abandon made.toList error

/-- Add entries to a table.  Where one cannot be added, the entries before it
are given back. -/
def ofEntries : List (String × Object) → Table Ref → Input τ (Table Ref)
  | [], table => pure table
  | entry :: rest, table => do
      ofEntries rest (← ofEntry entry table)

/-- Add an entry to a table. -/
def ofEntry : String × Object → Table Ref → Input τ (Table Ref)
  | (key, object), table => do
      match ← Outcome.attempt (ofObject object) with
      | .ok ref => inputEntry table key ref
      | .error error => abandon table.values error

end

end StoreM

end StackMachine
