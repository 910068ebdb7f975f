import StackMachine.Proofs.Store.Soundness
import StackMachine.Proofs.Table.Sizing
import StackMachine.Proofs.Tracking.Watched

/-!
# How much objects weigh

A tracker hears of the bytes of an object when it is made and when it is freed.  In between a
container may grow: the tracker is asked for each entry, but it is not told by how many bytes.
No entry makes a container grow by more than `Table.entryBytes`, though.

A `Ledger` is an account of what a tracker has heard of, that much for each entry included.  What
happens to a store is `Covered` if by every ledger the objects in it have not become heavier than
the account has grown.  Objects that are out of their slots meanwhile are added on either side.
-/

namespace StackMachine

/-! ## Accounts of what a tracker hears -/

section Ledgers

variable {τ : Type} [Tracker τ]

/-- What may be there afterwards, if the tracker agrees: the bytes of an object, or those that an
entry may take. -/
def Query.gain (query : Query) (tracker : τ) : Nat :=
  match query with
  | .allocate size => if (Tracker.allocate size tracker).1 = none then size else 0
  | .insert => if (Tracker.insert tracker).1 = none then Table.entryBytes else 0
  | .free _ | .tick | .enter _ | .build _ => 0

/-- What is no longer there afterwards. -/
def Query.loss : Query → Nat
  | .free size => size
  | .allocate _ | .insert | .tick | .enter _ | .build _ => 0

/-- An account of what a tracker was asked for.  Whatever it is asked, what may be there
afterwards is booked. -/
structure Ledger (τ : Type) [Tracker τ] where
  balance : τ → Nat
  books : ∀ (query : Query) tracker,
    balance tracker + query.gain tracker ≤ balance (query.pose tracker).2 + query.loss

variable (ledger : Ledger τ)

theorem Ledger.allocate {size : Nat} {tracker : τ}
    (granted : (Tracker.allocate size tracker).1 = none) :
    ledger.balance tracker + size ≤ ledger.balance (Tracker.allocate size tracker).2 := by
  have booked := ledger.books (.allocate size) tracker
  rwa [Query.gain, if_pos granted] at booked

theorem Ledger.insert {tracker : τ} (granted : (Tracker.insert tracker).1 = none) :
    ledger.balance tracker + Table.entryBytes ≤ ledger.balance (Tracker.insert tracker).2 := by
  have booked := ledger.books .insert tracker
  rwa [Query.gain, if_pos granted] at booked

theorem Ledger.le_askRoom {α : Type} (table : Table α) (tracker : τ) :
    ledger.balance tracker ≤ ledger.balance (table.askRoom tracker) := by
  unfold Table.askRoom
  split
  · split
    · exact ledger.books (.build _) tracker
    · exact Nat.le_refl _
  · exact Nat.le_refl _

end Ledgers

/-! ## How large objects may be -/

namespace Payload

/-- A dictionary is not larger than its filled slots account for. -/
def IsSized : Payload → Prop
  | dict table => table.Sized
  | _ => True

/-- The most bytes that the object may take with what is in it now. -/
def mostBytes : Payload → Nat
  | dict table => baseBytes + (Table.leastBytes + Table.entryBytes * table.fill)
  | payload => payload.bytes

theorem IsSized.bytes_le {payload : Payload} (sized : payload.IsSized) :
    payload.bytes ≤ payload.mostBytes := by
  cases payload with
  | dict table => exact Nat.add_le_add_left (Table.Sized.bytes_le sized) baseBytes
  | _ => exact Nat.le_refl _

/-- What may be in the slots of a dictionary besides what it is charged for is for its entries. -/
theorem mostBytes_dict_le {table : Table Ref} (sized : table.Sized) :
    (dict table).mostBytes ≤ (dict table).bytes + Table.entryBytes * table.fill := by
  have least := sized.leastBytes_le
  simp only [mostBytes, bytes]
  omega

end Payload

/-- The object takes all the bytes that it may take with what is in it. -/
structure Payload.IsLight (payload : Payload) : Prop where
  sized : payload.IsSized
  mostBytes_le : payload.mostBytes ≤ payload.bytes

/-- Only dictionaries may take more bytes than they are charged for. -/
theorem Payload.isLight_of_kind {payload : Payload} (other : payload.kind ≠ .dictionary) :
    payload.IsLight := by
  cases payload with
  | dict table => exact absurd rfl other
  | _ => exact ⟨trivial, Nat.le_refl _⟩

theorem Payload.isLight_empty : (Payload.dict .empty).IsLight :=
  ⟨Table.sized_empty, mostBytes_dict_le Table.sized_empty⟩

namespace Store

variable {τ : Type} {store : Store τ} {ref : Ref}

/-- No dictionary in the store is larger than its filled slots account for. -/
def IsSized (store : Store τ) : Prop :=
  ∀ ref payload, store.payload? ref = some payload → payload.IsSized

/-- What some slots hold, weighed together. -/
def total (weight : Payload → Nat) (slots : List (Option Cell)) : Nat :=
  ((slots.filterMap (·.bind Cell.payload)).map weight).sum

/-- The most bytes that the objects of a store may take. -/
def mostBytes (store : Store τ) : Nat :=
  total Payload.mostBytes store.cells.toList

section Totals

variable (weight : Payload → Nat)

theorem total_append (first second : List (Option Cell)) :
    total weight (first ++ second) = total weight first + total weight second := by
  simp [total]

/-- A slot weighs what is in it. -/
theorem total_singleton (slot : Option Cell) :
    total weight [slot] = ((slot.bind Cell.payload).toList.map weight).sum := by
  rcases slot with _ | ⟨count, _ | payload⟩ <;> rfl

theorem total_filled (count : Nat) (payload : Payload) :
    total weight [some ⟨count, some payload⟩] = weight payload :=
  rfl

theorem total_set {slots : List (Option Cell)} {index : Nat} {old : Option Cell}
    (present : slots[index]? = some old) (new : Option Cell) :
    total weight (slots.set index new) + total weight [old] =
      total weight slots + total weight [new] := by
  have perm := Table.filterMap_set_perm (fun slot : Option Cell => slot.bind Cell.payload)
    present new
  have sums := (perm.map weight).sum_eq
  simp only [List.map_append, List.sum_append] at sums
  rw [total_singleton, total_singleton, total, total, Nat.add_comm, sums, Nat.add_comm]

/-- What is heavier slot by slot is heavier together. -/
theorem total_le_total {weight more : Payload → Nat} {first second : List (Option Cell)}
    (each : List.Forall₂ (fun slot other => total weight [slot] ≤ total more [other])
      first second) : total weight first ≤ total more second := by
  induction each with
  | nil => exact Nat.le_refl _
  | @cons slot other first second heavier rest ih =>
      rw [← List.singleton_append, ← List.singleton_append (l := second), total_append,
        total_append]
      exact Nat.add_le_add heavier ih

theorem total_slot (weight : Payload → Nat) {slot : Option Cell}
    (present : store.cells.toList[ref.index]? = some slot) :
    total weight [slot] = ((store.payload? ref).toList.map weight).sum := by
  rw [Array.getElem?_toList] at present
  rw [total_singleton, payload?, cell?, present]
  rfl

end Totals

theorem mostBytes_setCell {cell : Cell} (found : store.cell? ref = some cell)
    (new : Option Cell) : (store.setCell ref new).mostBytes + total Payload.mostBytes [some cell] =
      store.mostBytes + total Payload.mostBytes [new] := by
  rw [mostBytes, mostBytes, setCell, Array.toList_setIfInBounds]
  exact total_set _ (slot_of_cell? found) new

theorem mostBytes_place_le (store : Store τ) (payload : Payload) :
    (store.place payload).2.mostBytes ≤ store.mostBytes + payload.mostBytes := by
  unfold place
  split
  · rename_i first free listed
    show total _ (store.cells.setIfInBounds first.index _).toList ≤ _
    rw [Array.toList_setIfInBounds, mostBytes]
    cases present : store.cells.toList[first.index]? with
    | some old =>
        have whole := total_set Payload.mostBytes present (some ⟨1, some payload⟩)
        rw [total_filled] at whole
        omega
    | none =>
        rw [List.set_eq_of_length_le (List.getElem?_eq_none_iff.mp present)]
        exact Nat.le_add_right _ _
  · show total _ (store.cells.push _).toList ≤ _
    rw [Array.toList_push, total_append, total_filled]
    exact Nat.le_refl _

/-! ## What is covered -/

variable [Tracker τ] {before middle after : Store τ} {given kept used : Nat}

/-- By every ledger, the objects of the store afterwards have become heavier by no more than the
account has grown.  Before, objects of `given` bytes are out of their slots, and afterwards
objects of `kept` bytes. -/
def Covered (given : Nat) (before : Store τ) (kept : Nat) (after : Store τ) : Prop :=
  before.IsSized → after.IsSized ∧ ∀ ledger : Ledger τ,
    after.mostBytes + kept + ledger.balance before.tracker ≤
      before.mostBytes + given + ledger.balance after.tracker

theorem Covered.refl (given : Nat) (store : Store τ) : Covered given store given store :=
  fun sized => ⟨sized, fun _ => Nat.le_refl _⟩

theorem Covered.trans (earlier : Covered given before kept middle)
    (later : Covered kept middle used after) : Covered given before used after := by
  intro sized
  obtain ⟨middleSized, first⟩ := earlier sized
  obtain ⟨afterSized, second⟩ := later middleSized
  refine ⟨afterSized, fun ledger => ?_⟩
  have grown := first ledger
  have more := second ledger
  omega

/-- What stays out of the store makes no difference. -/
theorem covered_add_iff (more : Nat) :
    Covered (given + more) before (kept + more) after ↔ Covered given before kept after := by
  refine forall_congr' fun _ => and_congr_right fun _ => forall_congr' fun ledger => ?_
  omega

/-- Less may be kept. -/
theorem Covered.mono (covered : Covered given before kept after) (less : used ≤ kept) :
    Covered given before used after := by
  intro sized
  obtain ⟨afterSized, grown⟩ := covered sized
  refine ⟨afterSized, fun ledger => ?_⟩
  have whole := grown ledger
  omega

end Store

end StackMachine
