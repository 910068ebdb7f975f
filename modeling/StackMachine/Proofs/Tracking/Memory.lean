import StackMachine.Proofs.Evolution.Changes
import StackMachine.Proofs.Store.Initial
import StackMachine.Proofs.Tracking.Metering

/-!
# What a meter knows of the memory in use

A meter counts the bytes of an object when it is made and takes off those of an object that is
freed.  As long as no object is resized in between, it shows the bytes of the objects that have
been made.  An object that has grown is taken off with more bytes than it was counted with, so
that the meter shows too little from then on.

It has counted the entries, though, by which containers have grown: with `Table.entryBytes` for
each of its allocations, there are never more bytes than it accounts for.
-/

namespace StackMachine

open Relation

namespace Meter

variable {meter : Meter}

/-- The bytes that a meter shows, and what its allocations may have added to them. -/
def ledger : Ledger Meter where
  balance meter := meter.memory + Table.entryBytes * meter.allocations
  books query meter := by
    cases query with
    | allocate size =>
        show _ + (if (meter.allocate size).1 = none then size else 0) ≤
          (meter.allocate size).2.memory +
            Table.entryBytes * (meter.allocate size).2.allocations + 0
        obtain ⟨refusal, refused⟩ | ⟨-, -, granted⟩ := meter.allocate_cases size
        · simp [refused]
        · simp only [granted, if_pos]
          rw [Nat.mul_succ]
          omega
    | insert =>
        show _ + (if meter.insert.1 = none then Table.entryBytes else 0) ≤
          meter.insert.2.memory + Table.entryBytes * meter.insert.2.allocations + 0
        obtain ⟨refusal, refused⟩ | ⟨-, granted⟩ := meter.insert_cases
        · simp [refused]
        · simp only [granted, if_pos]
          rw [Nat.mul_succ]
          omega
    | free size =>
        show _ + 0 ≤ meter.memory - size + Table.entryBytes * meter.allocations + size
        omega
    | tick =>
        show _ ≤ (tick meter).2.memory + Table.entryBytes * (tick meter).2.allocations + 0
        rw [tick_snd]
        exact Nat.le_refl _
    | enter depth => exact Nat.le_refl _
    | build size => exact Nat.le_refl _

/-- Where no object is made or freed, the meter shows as many bytes as before. -/
theorem memory_pose {query : Query} (idle : query.IsIdle meter) :
    (query.pose meter).2.memory = meter.memory := by
  cases query with
  | allocate size =>
      obtain ⟨refusal, refused⟩ := Option.isSome_iff_exists.mp idle
      have refused : ((Query.allocate size).pose meter).1 = some refusal := refused
      exact (pose_refused refused).2
  | insert =>
      show meter.insert.2.memory = meter.memory
      obtain ⟨_, refused⟩ | ⟨-, granted⟩ := meter.insert_cases
      · rw [refused]
      · rw [granted]
  | free size => exact idle.elim
  | tick =>
      show (tick meter).2.memory = meter.memory
      rw [tick_snd]
  | enter depth => rfl
  | build size => rfl

end Meter

namespace Store

/-! ## The objects that were made -/

section Made

variable {τ : Type} {store : Store τ} {ref : Ref}

/-- The bytes of the objects that have been made since the store was set up. -/
def madeBytes (store : Store τ) : Nat :=
  total Payload.bytes (store.cells.toList.drop initialCells.length)

/-- What a slot adds to the objects that have been made. -/
def share (ref : Ref) (slot : Option Cell) : Nat :=
  if ref.index < initialCells.length then 0 else total Payload.bytes [slot]

theorem madeBytes_set {slots : List (Option Cell)} {old : Option Cell}
    (present : slots[ref.index]? = some old) (new : Option Cell) :
    total Payload.bytes ((slots.set ref.index new).drop initialCells.length) + share ref old =
      total Payload.bytes (slots.drop initialCells.length) + share ref new := by
  rw [List.drop_set]
  unfold share
  split
  case isTrue => rfl
  case isFalse outside =>
    have there : (slots.drop initialCells.length)[ref.index - initialCells.length]? = some old := by
      rw [List.getElem?_drop, Nat.add_sub_cancel' (Nat.le_of_not_lt outside), present]
    exact total_set Payload.bytes there new

theorem madeBytes_setCell {cell : Cell} (found : store.cell? ref = some cell) (new : Option Cell) :
    (store.setCell ref new).madeBytes + share ref (some cell) =
      store.madeBytes + share ref new := by
  rw [madeBytes, madeBytes, setCell, Array.toList_setIfInBounds]
  exact madeBytes_set (slot_of_cell? found) new

/-- An object is made in a slot that the store was not set up with. -/
theorem madeBytes_place (vacancies : store.Vacancies) (originals : store.HasOriginals)
    (payload : Payload) : (store.place payload).2.madeBytes = store.madeBytes + payload.bytes := by
  unfold place
  split
  · rename_i first free listed
    have member : first ∈ store.free := listed ▸ List.mem_cons_self
    have vacant := vacancies.vacant first member
    have outside : ¬ first.index < initialCells.length := by
      intro inside
      obtain ⟨cell, found⟩ := originals first inside
      rw [vacant] at found
      cases found
    have present : store.cells.toList[first.index]? = some none := by
      have inside := vacancies.inside first member
      rw [Array.getElem?_toList]
      rw [cell?, Option.join_eq_none_iff] at vacant
      rcases vacant with missing | here
      · rw [Array.getElem?_eq_none_iff] at missing
        omega
      · exact here
    have set := madeBytes_set present (some ⟨1, some payload⟩)
    rw [share, share, if_neg outside, if_neg outside] at set
    show total _ ((store.cells.setIfInBounds first.index _).toList.drop _) = _
    rw [Array.toList_setIfInBounds]
    exact set
  · show total _ ((store.cells.push _).toList.drop _) = _
    rw [Array.toList_push, List.drop_append_of_le_length originals.length_le, total_append]
    rfl

theorem initial_isSized (tracker : τ) : (initial tracker).IsSized := by
  intro ref payload found
  rw [payload?_initial] at found
  cases payload with
  | dict table =>
      obtain isBuiltins | isModules := original_dict found
      · rw [isBuiltins]
        exact ⟨Table.valid_ofEntries builtinEntries, by decide +kernel⟩
      · rw [isModules]
        exact Table.sized_empty
  | _ => trivial

/-- The objects that were there from the start have not become lighter. -/
theorem Sound.initial_le {held inner : List Ref} (sound : store.Sound held inner) (tracker : τ) :
    (initial tracker).mostBytes ≤
      total Payload.mostBytes (store.cells.toList.take initialCells.length) := by
  have length := sound.hasOriginals.length_le
  refine total_le_total (List.forall₂_iff_get.mpr ⟨?_, fun index first second => ?_⟩)
  · simp [initial, List.length_take_of_le length]
  have inside : index < initialCells.length := by simpa [initial] using first
  have present : (initial tracker).cells.toList[(⟨index⟩ : Ref).index]? =
      some ((initial tracker).cells.toList.get ⟨index, first⟩) :=
    List.getElem?_eq_getElem first
  have there : store.cells.toList[(⟨index⟩ : Ref).index]? =
      some ((store.cells.toList.take initialCells.length).get ⟨index, second⟩) := by
    rw [List.get_eq_getElem, List.getElem_take, List.getElem?_eq_getElem]
  rw [total_slot _ present, total_slot _ there, payload?_initial]
  by_cases isModules : (⟨index⟩ : Ref) = .modules
  · obtain ⟨payload, found, kind⟩ := Option.map_eq_some_iff.mp sound.modules_dict
    rw [isModules, found]
    cases payload with
    | dict table =>
        show (Payload.dict .empty).mostBytes + 0 ≤ (Payload.dict table).mostBytes + 0
        simp [Payload.mostBytes, Table.empty, Table.ofSize]
    | _ => cases kind
  · rw [sound.originals ⟨index⟩ inside isModules]

/-- Objects take no more bytes than they may. -/
theorem IsSized.madeBytes_le (sized : store.IsSized) :
    store.madeBytes ≤ total Payload.mostBytes (store.cells.toList.drop initialCells.length) := by
  refine total_le_total (List.forall₂_same.mpr fun slot member => ?_)
  obtain ⟨index, present⟩ := List.mem_iff_getElem?.mp (List.mem_of_mem_drop member)
  have there : store.cells.toList[(⟨index⟩ : Ref).index]? = some slot := present
  rw [total_slot _ there, total_slot _ there]
  cases found : store.payload? ⟨index⟩ with
  | none => exact Nat.le_refl _
  | some payload => exact Nat.add_le_add_right (sized ⟨index⟩ payload found).bytes_le 0

end Made

/-! ## Objects outgrow what the meter shows only with its consent -/

variable {before after : Store Meter}

/-- Whatever has happened since the store was set up, there are no more bytes than the meter shows
and its allocations account for. -/
theorem Path.madeBytes_le {allowed : Payload → Prop} {limits : Limits} {elapsed : Duration}
    {held inner : List Ref} (path : Path allowed (initial (Meter.start limits elapsed)) after)
    (sound : after.Sound held inner) :
    after.madeBytes ≤ after.tracker.memory + Table.entryBytes * after.tracker.allocations := by
  obtain ⟨sized, grown⟩ := path.covered (initial_isSized _)
  have account : after.mostBytes + 0 + (0 + Table.entryBytes * 0) ≤
      (initial (Meter.start limits elapsed)).mostBytes + 0 +
        (after.tracker.memory + Table.entryBytes * after.tracker.allocations) := grown Meter.ledger
  have split : after.mostBytes =
      total Payload.mostBytes (after.cells.toList.take initialCells.length) +
        total Payload.mostBytes (after.cells.toList.drop initialCells.length) := by
    rw [← total_append, List.take_append_drop, mostBytes]
  have originals := sound.initial_le (Meter.start limits elapsed)
  have made := sized.madeBytes_le
  omega

/-! ## Nothing is resized -/

/-- Every object that stays is as large as it was. -/
def KeepsSizes {τ : Type} (before after : Store τ) : Prop :=
  ∀ ref payload new, before.payload? ref = some payload → after.payload? ref = some new →
    new.bytes = payload.bytes

theorem keepsSizes_make {τ : Type} [Tracker τ] {before : Store τ} (vacancies : before.Vacancies)
    (made : Payload) :
    KeepsSizes before ((before.asking (.allocate made.bytes)).place made).2 := by
  intro ref payload new found present
  rw [payload?_make vacancies made found] at present
  obtain rfl := Option.some.inj present
  rfl

/-- Some changes, one after the other, none of which resizes an object or frees one that the
store was set up with. -/
def Unresized {τ : Type} [Tracker τ] : Store τ → Store τ → Prop :=
  ReflTransGen fun before after =>
    Change (fun _ => True) before after ∧ KeepsSizes before after ∧ after.HasOriginals

/-- The meter shows the bytes of the objects that have been made.  Of those, `out` bytes are out
of their slots. -/
def Tallies (store : Store Meter) (out : Nat) : Prop :=
  store.madeBytes + out = store.tracker.memory

theorem Tidying.tallies {out : Nat} (tidying : Tidying before after)
    (originals : after.HasOriginals) (tallies : before.Tallies out) : after.Tallies out := by
  unfold Tallies at tallies ⊢
  cases tidying with
  | ask query idle =>
      show before.madeBytes + out = (query.pose before.tracker).2.memory
      rw [Meter.memory_pose idle, tallies]
  | @recount ref cell found count =>
      have set := madeBytes_setCell found (some { cell with count })
      have same : share ref (some { cell with count }) = share ref (some cell) := by
        unfold share
        rw [total_singleton, total_singleton]
        rfl
      rw [same] at set
      show (before.setCell ref _).madeBytes + out = before.tracker.memory
      omega
  | @vacate ref cell found last =>
      have set := madeBytes_setCell found none
      have outside : ¬ ref.index < initialCells.length := by
        intro inside
        obtain ⟨old, there⟩ := originals ref inside
        have gone : (before.vacate ref cell.payload).cell? ref = none := by
          show (before.setCell ref none).cell? ref = none
          rw [cell?_setCell (index_lt_of_cell? found), if_pos rfl]
        rw [gone] at there
        cases there
      rw [share, share, if_neg outside, if_neg outside] at set
      rw [show total Payload.bytes [none] = 0 from rfl] at set
      show (before.setCell ref none).madeBytes + out = _
      obtain ⟨count, _ | payload⟩ := cell
      · rw [show total Payload.bytes [some ⟨count, none⟩] = 0 from rfl] at set
        show _ = before.tracker.memory
        omega
      · rw [total_filled] at set
        show _ = before.tracker.memory - payload.bytes
        omega

theorem tallies_of_tidyings {out : Nat} (tidyings : ReflTransGen Tidying before after)
    (originals : after.HasOriginals) (tallies : before.Tallies out) : after.Tallies out := by
  induction tidyings with
  | refl => exact tallies
  | tail _ tidying ih =>
      exact tidying.tallies originals (ih (originals.of_remains tidying.remains))

/-- As long as nothing is resized, the meter shows the bytes of the objects that have been made. -/
theorem Change.tallies {allowed : Payload → Prop} (change : Change allowed before after)
    (vacancies : before.Vacancies) (sizes : KeepsSizes before after)
    (first : before.HasOriginals) (originals : after.HasOriginals) (tallies : before.Tallies 0) :
    after.Tallies 0 := by
  cases change with
  | tidy tidying => exact tidying.tallies originals tallies
  | make payload fits granted =>
      have asked : (before.asking (.allocate payload.bytes)).Vacancies :=
        ⟨vacancies.nodup, vacancies.inside, vacancies.vacant⟩
      have placed := madeBytes_place asked first payload
      have granted : (before.tracker.allocate payload.bytes).1 = none := granted
      have counted : (before.tracker.allocate payload.bytes).2.memory =
          before.tracker.memory + payload.bytes := by
        obtain ⟨refusal, refused⟩ | ⟨-, -, agreed⟩ := before.tracker.allocate_cases payload.bytes
        · rw [refused] at granted
          cases granted
        · rw [agreed]
      unfold Tallies at tallies ⊢
      rw [tracker_place, placed]
      show before.madeBytes + payload.bytes + 0 = (before.tracker.allocate payload.bytes).2.memory
      omega
  | @rework ref count payload new lent cell found meanwhile kept becomes =>
      have out := madeBytes_setCell found (some ⟨count, none⟩)
      have back := madeBytes_setCell kept (some { cell with payload := some new })
      have size : new.bytes = payload.bytes := by
        refine sizes ref payload new (payload?_eq found) ?_
        rw [payload?, cell?_setCell (index_lt_of_cell? kept), if_pos rfl]
        rfl
      have lentOriginals : lent.HasOriginals := by
        intro other inside
        obtain ⟨there, present⟩ := originals other inside
        rw [cell?_setCell (index_lt_of_cell? kept)] at present
        split at present
        · rename_i same
          exact ⟨cell, same ▸ kept⟩
        · exact ⟨there, present⟩
      have none (number : Nat) : share ref (some ⟨number, Option.none⟩) = 0 := by
        unfold share
        split <;> rfl
      have lentCell : share ref (some cell) = 0 := by
        obtain ⟨old, there, content⟩ := remains_of_tidyings meanwhile ref cell kept
        rw [cell?_setCell (index_lt_of_cell? found), if_pos rfl] at there
        obtain rfl := Option.some.inj there
        obtain ⟨number, _⟩ := cell
        cases content
        exact none number
      have same : share ref (some { cell with payload := some new }) =
          share ref (some ⟨count, some payload⟩) := by
        unfold share
        rw [total_filled, total_filled, size]
      have taken : (before.setCell ref (some ⟨count, Option.none⟩)).Tallies
          (share ref (some ⟨count, some payload⟩)) := by
        unfold Tallies at tallies ⊢
        rw [none] at out
        show _ = before.tracker.memory
        omega
      have later := tallies_of_tidyings meanwhile lentOriginals taken
      unfold Tallies at later ⊢
      show _ = lent.tracker.memory
      omega

theorem Unresized.tallies (unresized : Unresized before after) (vacancies : before.Vacancies)
    (originals : before.HasOriginals) (tallies : before.Tallies 0) : after.Tallies 0 := by
  suffices kept : after.Vacancies ∧ after.HasOriginals ∧ after.Tallies 0 from kept.2.2
  induction unresized with
  | refl => exact ⟨vacancies, originals, tallies⟩
  | tail _ last ih =>
      obtain ⟨change, sizes, there⟩ := last
      obtain ⟨room, first, shown⟩ := ih
      exact ⟨change.vacancies room, there, change.tallies room sizes first there shown⟩

end Store

end StackMachine
