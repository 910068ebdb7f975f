import StackMachine.Store.Payload

/-!
# The counted store

Every object lives in a slot of the store, with a count of the references to it.
An object whose last reference is given back is freed at once: its slot becomes
vacant and is the next to be used again, the tracker is told, and the references
it owned are given back in turn.

An object that is worked on in place is lent: it is out of its slot, which stays
occupied and counted, until the work is done and it is put back.

Giving references back works through a list of pending ones.  Each turn either
lowers a count or frees an object, so the counts of the live objects, and their
number, bound the number of turns.  Reference cycles do no harm to that; the
objects on one are never freed.
-/

namespace StackMachine

/-- A live object and the number of references to it.  The payload is absent
while the object is lent. -/
structure Cell where
  count : Nat
  payload : Option Payload
  deriving DecidableEq, Inhabited

namespace Cell

/-- The references the object owns, unless it is lent. -/
def children (cell : Cell) : List Ref :=
  match cell.payload with
  | some payload => payload.children
  | none => []

end Cell

/-- The store.  `free` lists the vacant slots, the one freed last first. -/
structure Store (τ : Type) where
  cells : Array (Option Cell)
  free : List Ref
  tracker : τ
  deriving DecidableEq

/-- An operation on the store. -/
abbrev StoreM (τ : Type) := EStateM (Stop Cause) (Store τ)

namespace Store

variable {τ : Type}

/-- The object at a reference and its count. -/
def cell? (store : Store τ) (ref : Ref) : Option Cell :=
  store.cells[ref.index]?.join

/-- Is there an object at the reference? -/
def isLive (store : Store τ) (ref : Ref) : Bool :=
  (store.cell? ref).isSome

/-- The object at a reference. -/
def get (store : Store τ) (ref : Ref) : Except (Stop Cause) Payload :=
  match store.cell? ref with
  | some ⟨_, some payload⟩ => .ok payload
  | some ⟨_, none⟩ => .error (.fault (.lent ref))
  | none => .error (.fault (.vacant ref))

/-- The number of live objects. -/
def liveCount (store : Store τ) : Nat :=
  store.cells.countP Option.isSome

/-- Replace the object at a reference and its count. -/
def setCell (store : Store τ) (ref : Ref) (cell : Option Cell) : Store τ :=
  { store with cells := store.cells.setIfInBounds ref.index cell }

/-- What one slot adds to the bound on the turns of a release. -/
def cellWeight : Option Cell → Nat
  | some cell => cell.count + 1
  | none => 0

/-- What some slots add to the bound together. -/
def totalWeight : List (Option Cell) → Nat
  | [] => 0
  | cell :: rest => cellWeight cell + totalWeight rest

/-- A bound on the turns of a release: the counts of all live objects and their
number. -/
def weight (store : Store τ) : Nat :=
  totalWeight store.cells.toList

theorem totalWeight_set_lt {cells : List (Option Cell)} {index : Nat} {old new : Option Cell}
    (found : cells[index]? = some old) (less : cellWeight new < cellWeight old) :
    totalWeight (cells.set index new) < totalWeight cells := by
  induction cells generalizing index with
  | nil => simp at found
  | cons head tail ih =>
      cases index with
      | zero =>
          simp only [List.getElem?_cons_zero, Option.some.injEq] at found
          subst found
          simp only [List.set_cons_zero, totalWeight]
          exact Nat.add_lt_add_right less (totalWeight tail)
      | succ index =>
          simp only [List.getElem?_cons_succ] at found
          simp only [List.set_cons_succ, totalWeight]
          exact Nat.add_lt_add_left (ih found) (cellWeight head)

/-- Putting less into the slot of a live object lowers the weight. -/
theorem weight_setCell_lt {store : Store τ} {ref : Ref} {cell : Cell} {new : Option Cell}
    (found : store.cell? ref = some cell) (less : cellWeight new < cell.count + 1) :
    (store.setCell ref new).weight < store.weight := by
  have present : store.cells.toList[ref.index]? = some (some cell) := by
    simpa [cell?, Option.join_eq_some_iff] using found
  simp only [weight, setCell, Array.toList_setIfInBounds]
  exact totalWeight_set_lt present less

variable [Tracker τ]

/-- Vacate the slot of an object.  The tracker is not told of one that is lent. -/
def vacate (store : Store τ) (ref : Ref) (payload : Option Payload) : Store τ :=
  ⟨store.cells.setIfInBounds ref.index none, ref :: store.free,
    match payload with
    | some payload => Tracker.free payload.bytes store.tracker
    | none => store.tracker⟩

set_option linter.unusedVariables false in
/-- Give back the pending references, first one first.  The children of an
object that is freed come before the rest, the last child first. -/
def drain (pending : List Ref) (store : Store τ) : EStateM.Result (Stop Cause) (Store τ) Unit :=
  match pending with
  | [] => .ok () store
  | ref :: rest =>
      match found : store.cell? ref with
      | none => .error (.fault (.vacant ref)) store
      | some cell =>
          if shared : 1 < cell.count then
            drain rest (store.setCell ref (some { cell with count := cell.count - 1 }))
          else
            drain (cell.children.reverse ++ rest) (store.vacate ref cell.payload)
termination_by store.weight
decreasing_by
  · exact weight_setCell_lt found (by simp only [cellWeight]; omega)
  · exact weight_setCell_lt found (by simp only [cellWeight]; omega)

/-- Put an object into a vacant slot, or into a new one if there is none. -/
def place (store : Store τ) (payload : Payload) : Ref × Store τ :=
  match store.free with
  | ref :: free => (ref, { store.setCell ref (some ⟨1, some payload⟩) with free })
  | [] => (⟨store.cells.size⟩, { store with cells := store.cells.push (some ⟨1, some payload⟩) })

end Store

namespace StoreM

variable {τ α : Type}

/-- Fail with a cause. -/
@[inline] def raise (cause : Cause) : StoreM τ α :=
  throw (.failed cause)

/-- Read something off the store. -/
@[inline] def reading (read : Store τ → Except (Stop Cause) α) : StoreM τ α :=
  Outcome.reading read

/-- The object at a reference. -/
@[inline] def get (ref : Ref) : StoreM τ Payload :=
  reading (·.get ref)

/-- Take one more reference to an object. -/
def acquire (ref : Ref) : StoreM τ Ref := fun store =>
  match store.cell? ref with
  | some cell => .ok ref (store.setCell ref (some { cell with count := cell.count + 1 }))
  | none => .error (.fault (.vacant ref)) store

/-- Take an object out of its slot. -/
def lend (ref : Ref) : StoreM τ Payload := fun store =>
  match store.cell? ref with
  | some ⟨count, some payload⟩ => .ok payload (store.setCell ref (some ⟨count, none⟩))
  | some ⟨_, none⟩ => .error (.fault (.lent ref)) store
  | none => .error (.fault (.vacant ref)) store

/-- Put an object into the slot it was taken out of. -/
def putBack (ref : Ref) (payload : Payload) : StoreM τ Unit := fun store =>
  match store.cell? ref with
  | some cell => .ok () (store.setCell ref (some { cell with payload := some payload }))
  | none => .error (.fault (.vacant ref)) store

/-- Work on an object while it is out of its slot.  What the work makes of it is
put back, whether the work failed or not. -/
@[inline] def lending (ref : Ref) (work : Payload → StoreM τ (Payload × Except Cause α)) :
    StoreM τ α := do
  let payload ← lend ref
  let (payload, result) ← work payload
  putBack ref payload
  Outcome.settle result

/-- Take one more reference to each of some objects. -/
def acquireAll : List Ref → StoreM τ Unit
  | [] => pure ()
  | ref :: rest => do
      let _ ← acquire ref
      acquireAll rest

variable [Tracker τ]

/-- Give back references, one after the other. -/
@[inline] def releaseAll (refs : List Ref) : StoreM τ Unit :=
  Store.drain refs

/-- Give back a reference. -/
@[inline] def release (ref : Ref) : StoreM τ Unit :=
  releaseAll [ref]

/-- Run an operation, then give back references, whether it failed or not. -/
@[inline] def releasing (refs : List Ref) (act : StoreM τ α) : StoreM τ α := do
  let result ← Outcome.attempt act
  releaseAll refs
  Outcome.settle result

/-- Run an operation; if it fails, give back references. -/
@[inline] def orRelease (refs : List Ref) (act : StoreM τ α) : StoreM τ α := do
  match ← Outcome.attempt act with
  | .ok value => pure value
  | .error cause => do
      releaseAll refs
      raise cause

/-- Make an object.  It takes over the references its payload holds; if the
tracker refuses, they are given back. -/
def allocate (payload : Payload) : StoreM τ Ref := fun store =>
  match Tracker.allocate payload.bytes store.tracker with
  | (none, tracker) =>
      let placed := { store with tracker }.place payload
      .ok placed.1 placed.2
  | (some refusal, tracker) =>
      match Store.drain payload.children { store with tracker } with
      | .ok () store => .error (.failed (.refused refusal)) store
      | .error stop store => .error stop store

end StoreM

end StackMachine
