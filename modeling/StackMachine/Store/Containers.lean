import StackMachine.Store.Basic

/-!
# Lists, tuples and dictionaries in the store

Operations that change a container take over the reference they store, and give
it back if they fail.  A reference that is displaced is given back as soon as the
new one is in place.

The container is lent while it is changed: what is given back meanwhile must not
be the last reference to it.
-/

namespace StackMachine.StoreM

variable {τ : Type}

/-- The value of a key; nothing if the object is no dictionary. -/
def dictLookup (dict : Ref) (key : Bytes) : StoreM τ (Option Ref) := do
  match ← get dict with
  | .dict table => reading fun _ => table.lookup key
  | _ => pure none

variable [Tracker τ]

/-- Give back a reference, if there is one. -/
def releaseOption (ref : Option Ref) : StoreM τ Unit :=
  releaseAll ref.toList

/-- Ask the tracker for one more entry in a container. -/
def chargeInsert : StoreM τ Unit := fun store =>
  match Tracker.insert store.tracker with
  | (none, tracker) => .ok () { store with tracker }
  | (some refusal, tracker) => .error (.failed (.refused refusal)) { store with tracker }

/-- Ask the tracker for a table of `bytes` bytes. -/
def chargeTable (bytes : Nat) : StoreM τ Unit := fun store =>
  let asked := { store with tracker := Tracker.noteBuild bytes store.tracker }
  match Tracker.build bytes store.tracker with
  | none => .ok () asked
  | some refusal => .error (.failed (.refused refusal)) asked

/-- Bind a key in a table that is in no slot. -/
def tableInsert (key : Bytes) (value : Ref) (table : Table Ref) :
    StoreM τ (Table Ref × Except Cause Unit) := fun store =>
  match table.insert store.tracker key value with
  | (.ok displaced, table, tracker) =>
      (releaseOption displaced *> pure (table, .ok ())) { store with tracker }
  | (.error (.failed cause), table, tracker) =>
      (release value *> pure (table, .error cause)) { store with tracker }
  | (.error (.fault fault), _, tracker) => .error (.fault fault) { store with tracker }
  | (.error .unfinished, _, tracker) => .error .unfinished { store with tracker }

/-- Remove a key from a table that is in no slot. -/
def tableErase (key : Bytes) (table : Table Ref) : StoreM τ (Table Ref × Except Cause Unit) :=
  match table.erase key with
  | (.ok value, table) => release value *> pure (table, .ok ())
  | (.error (.failed cause), table) => pure (table, .error cause)
  | (.error (.fault fault), _) => throw (.fault fault)
  | (.error .unfinished, _) => throw .unfinished

/-- Replace one of some items. -/
def replaceItem (kind : Kind) (index : Nat) (value : Ref) (items : Array Ref) :
    StoreM τ (Array Ref × Except Cause Unit) :=
  match items[index]? with
  | some displaced => release displaced *> pure (items.setIfInBounds index value, .ok ())
  | none => release value *> pure (items, .error (.indexOutOfRange kind))

/-- Let some items grow by one before a position. -/
def growItems (position : Nat) (value : Ref) (items : Array Ref) :
    StoreM τ (Array Ref × Except Cause Unit) := do
  match ← Outcome.attempt chargeInsert with
  | .ok () => return (items.insertIdxIfInBounds position value, .ok ())
  | .error cause => do
      release value
      return (items, .error cause)

/-- Refuse an object that is not of the kind a container has to be of, and give
back what it should have received. -/
def refuseObject (refs : List Ref) (payload : Payload) :
    StoreM τ (Payload × Except Cause Unit) := do
  releaseAll refs
  return (payload, .error .badCall)

/-- Change the table of a dictionary.  `refs` is what the change takes over. -/
def lendingTable (dict : Ref) (refs : List Ref)
    (work : Table Ref → StoreM τ (Table Ref × Except Cause Unit)) : StoreM τ Unit :=
  lending dict fun
    | .dict table => do
        let (table, result) ← work table
        return (.dict table, result)
    | other => refuseObject refs other

/-- Change the items of a list.  `refs` is what the change takes over. -/
def lendingList (list : Ref) (refs : List Ref)
    (work : Array Ref → StoreM τ (Array Ref × Except Cause Unit)) : StoreM τ Unit :=
  lending list fun
    | .list items => do
        let (items, result) ← work items
        return (.list items, result)
    | other => refuseObject refs other

/-- Change the items of a tuple.  `refs` is what the change takes over. -/
def lendingTuple (tuple : Ref) (refs : List Ref)
    (work : Array Ref → StoreM τ (Array Ref × Except Cause Unit)) : StoreM τ Unit :=
  lending tuple fun
    | .tuple items => do
        let (items, result) ← work items
        return (.tuple items, result)
    | other => refuseObject refs other

/-- Bind a key to a value. -/
def dictInsert (dict : Ref) (key : Bytes) (value : Ref) : StoreM τ Unit :=
  lendingTable dict [value] (tableInsert key value)

/-- Remove a key. -/
def dictRemove (dict : Ref) (key : Bytes) : StoreM τ Unit :=
  lendingTable dict [] (tableErase key)

/-- Replace an item of a list. -/
def listSet (list : Ref) (index : Nat) (value : Ref) : StoreM τ Unit :=
  lendingList list [value] (replaceItem .list index value)

/-- Replace an item of a tuple. -/
def tupleSet (tuple : Ref) (index : Nat) (value : Ref) : StoreM τ Unit :=
  lendingTuple tuple [value] (replaceItem .tuple index value)

/-- Where an item inserted at an index goes: the index, brought into the
list. -/
def insertPosition (index : Int64) (length : Nat) : Nat :=
  min index.toInt.toNat length

/-- Insert an item before an index of a list. -/
def listInsert (list : Ref) (index : Int64) (value : Ref) : StoreM τ Unit :=
  lendingList list [value] fun items => growItems (insertPosition index items.size) value items

/-- Append an item to a list. -/
def listAppend (list : Ref) (value : Ref) : StoreM τ Unit :=
  lendingList list [value] fun items => growItems items.size value items

end StackMachine.StoreM
