import StackMachine.Proofs.Ending
import StackMachine.Store.Basic

/-!
# Exact counts

The count of an object is the number of references to it: those that live objects
own, and those that are held outside the store.  `Exact` says so for a list of the
references that are held, and says that the free list is what it should be.

Every change of the store is described by what it does to that list.  Taking a
reference puts one onto it and giving it back takes one off; an object that is made
takes over the references in it, and an object that is lent leaves them behind.
-/

namespace StackMachine

@[ext] theorem Ref.ext_index {first second : Ref} (same : first.index = second.index) :
    first = second := by
  cases first
  cases second
  exact congrArg Ref.mk same

namespace Store

variable {τ : Type} {store after : Store τ} {ref other : Ref} {cell : Cell} {held : List Ref}

/-- The references that the object in a slot owns. -/
def slotLinks : Option Cell → List Ref
  | some cell => cell.children
  | none => []

/-- The references that live objects own. -/
def links (store : Store τ) : List Ref :=
  store.cells.toList.flatMap slotLinks

/-- The count of the object in a slot, zero if it is vacant. -/
def slotCount : Option Cell → Nat
  | some cell => cell.count
  | none => 0

/-- The count of the object at a reference. -/
def countAt (store : Store τ) (ref : Ref) : Nat :=
  slotCount (store.cell? ref)

/-- Every count is the number of references to the object, where `held` lists those
outside the store; no object is left without one, and the free list has every
vacant slot once. -/
structure Exact (store : Store τ) (held : List Ref) : Prop where
  count_eq : ∀ ref, store.countAt ref = store.links.count ref + held.count ref
  count_pos : ∀ ref cell, store.cell? ref = some cell → 0 < cell.count
  free_nodup : store.free.Nodup
  mem_free : ∀ ref, ref ∈ store.free ↔
    ref.index < store.cells.size ∧ store.cell? ref = none

/-! ## Slots -/

theorem index_lt_of_cell? (found : store.cell? ref = some cell) :
    ref.index < store.cells.size := by
  simp only [cell?, Option.join_eq_some_iff] at found
  exact (Array.getElem?_eq_some_iff.mp found).1

@[simp] theorem cells_size_setCell (store : Store τ) (ref : Ref) (cell : Option Cell) :
    (store.setCell ref cell).cells.size = store.cells.size := by
  simp [setCell]

/-- Setting a slot changes what is in it and nothing else. -/
theorem cell?_setCell (inside : ref.index < store.cells.size) (new : Option Cell)
    (other : Ref) : (store.setCell ref new).cell? other = if other = ref then new
      else store.cell? other := by
  simp only [cell?, setCell, Array.getElem?_setIfInBounds]
  by_cases same : other = ref
  · subst same
    simp [inside]
  · have different : ref.index ≠ other.index := fun equal => same (Ref.ext_index equal.symm)
    simp [same, different]

theorem countAt_setCell (inside : ref.index < store.cells.size) (new : Option Cell)
    (other : Ref) : (store.setCell ref new).countAt other = if other = ref then slotCount new
      else store.countAt other := by
  rw [countAt, cell?_setCell inside, apply_ite slotCount]
  rfl

theorem countAt_eq (found : store.cell? ref = some cell) : store.countAt ref = cell.count := by
  rw [countAt, found]
  rfl

/-- Replacing an item replaces the references that are read off it. -/
theorem count_flatMap_set {cells : List (Option Cell)} {index : Nat} {old : Option Cell}
    (present : cells[index]? = some old) (new : Option Cell) (ref : Ref) :
    ((cells.set index new).flatMap slotLinks).count ref + (slotLinks old).count ref =
      (cells.flatMap slotLinks).count ref + (slotLinks new).count ref := by
  induction cells generalizing index with
  | nil => simp at present
  | cons head tail ih =>
      cases index with
      | zero =>
          simp only [List.getElem?_cons_zero, Option.some.injEq] at present
          subst present
          simp only [List.set_cons_zero, List.flatMap_cons, List.count_append]
          omega
      | succ index =>
          simp only [List.getElem?_cons_succ] at present
          have rest := ih present
          simp only [List.set_cons_succ, List.flatMap_cons, List.count_append]
          omega

theorem slot_of_cell? (found : store.cell? ref = some cell) :
    store.cells.toList[ref.index]? = some (some cell) := by
  simpa [cell?, Option.join_eq_some_iff] using found

/-- The references that live objects own after a slot was set. -/
theorem count_links_setCell (found : store.cell? ref = some cell) (new : Option Cell)
    (other : Ref) : (store.setCell ref new).links.count other + cell.children.count other =
      store.links.count other + (slotLinks new).count other := by
  simp only [links, setCell, Array.toList_setIfInBounds]
  exact count_flatMap_set (slot_of_cell? found) new other

/-- What an object owns is owned by a live object. -/
theorem count_children_le_links (found : store.cell? ref = some cell) (other : Ref) :
    cell.children.count other ≤ store.links.count other := by
  have counted := count_links_setCell found none other
  simp only [slotLinks, List.count_nil] at counted
  omega

theorem mem_links_of_mem_children (found : store.cell? ref = some cell)
    (member : other ∈ cell.children) : other ∈ store.links := by
  have counted := count_children_le_links found other
  have positive := List.count_pos_iff.mpr member
  exact List.count_pos_iff.mp (by omega)

/-! ## Exact counts -/

namespace Exact

theorem perm {others : List Ref} (exact : store.Exact held) (same : held.Perm others) :
    store.Exact others where
  count_eq ref := by rw [exact.count_eq, same.count_eq]
  count_pos := exact.count_pos
  free_nodup := exact.free_nodup
  mem_free := exact.mem_free

/-- What the tracker says is of no concern. -/
theorem withTracker (exact : store.Exact held) (tracker : τ) :
    ({ store with tracker } : Store τ).Exact held :=
  ⟨exact.count_eq, exact.count_pos, exact.free_nodup, exact.mem_free⟩

/-- A reference that someone owns leads to a live object. -/
theorem live_of_owned (exact : store.Exact held) (owned : ref ∈ store.links ∨ ref ∈ held) :
    ∃ cell, store.cell? ref = some cell := by
  have counted := exact.count_eq ref
  have positive : 0 < store.links.count ref + held.count ref := by
    rcases owned with linked | kept
    · exact Nat.add_pos_left (List.count_pos_iff.mpr linked) _
    · exact Nat.add_pos_right _ (List.count_pos_iff.mpr kept)
  cases found : store.cell? ref with
  | some cell => exact ⟨cell, rfl⟩
  | none =>
      rw [countAt, found, slotCount] at counted
      omega

theorem live_of_held (exact : store.Exact held) (kept : ref ∈ held) :
    ∃ cell, store.cell? ref = some cell :=
  exact.live_of_owned (Or.inr kept)

theorem live_of_child (exact : store.Exact held) (found : store.cell? ref = some cell)
    (member : other ∈ cell.children) : ∃ child, store.cell? other = some child :=
  exact.live_of_owned (Or.inl (mem_links_of_mem_children found member))

theorem not_mem_free (exact : store.Exact held) (found : store.cell? ref = some cell) :
    ref ∉ store.free := by
  intro free
  have vacant := ((exact.mem_free ref).mp free).2
  rw [found] at vacant
  cases vacant

/-- A live object is replaced by another that is live, too. -/
theorem replace (exact : store.Exact held) (found : store.cell? ref = some cell) {new : Cell}
    {others : List Ref} (positive : 0 < new.count)
    (balance : ∀ other, (if other = ref then new.count else store.countAt other) +
      cell.children.count other =
        store.links.count other + new.children.count other + others.count other) :
    (store.setCell ref (some new)).Exact others := by
  have inside := index_lt_of_cell? found
  refine ⟨?_, ?_, exact.free_nodup, ?_⟩
  · intro other
    rw [countAt_setCell inside]
    have counted := count_links_setCell found (some new) other
    have balanced := balance other
    simp only [slotLinks] at counted
    simp only [slotCount]
    omega
  · intro other present stored
    rw [cell?_setCell inside] at stored
    split at stored
    · obtain rfl := Option.some.inj stored
      exact positive
    · exact exact.count_pos other present stored
  · intro other
    rw [cell?_setCell inside, cells_size_setCell]
    by_cases same : other = ref
    · subst same
      simp [setCell, exact.not_mem_free found]
    · simpa [setCell, same] using exact.mem_free other

/-- One more reference is taken. -/
theorem acquire (exact : store.Exact held) (found : store.cell? ref = some cell) :
    (store.setCell ref (some { cell with count := cell.count + 1 })).Exact (ref :: held) := by
  refine exact.replace found (Nat.succ_pos _) ?_
  intro other
  have counted := exact.count_eq other
  have same_children : Cell.children { cell with count := cell.count + 1 } = cell.children := rfl
  rw [same_children, List.count_cons]
  by_cases same : other = ref
  · subst same
    rw [countAt_eq found] at counted
    simp only [if_true, beq_self_eq_true]
    omega
  · simp only [if_neg same, beq_iff_eq, if_neg (Ne.symm same)]
    omega

/-- A reference to an object that others refer to is given back. -/
theorem lower (exact : store.Exact (ref :: held)) (found : store.cell? ref = some cell)
    (shared : 1 < cell.count) :
    (store.setCell ref (some { cell with count := cell.count - 1 })).Exact held := by
  refine exact.replace found (by simp only; omega) ?_
  intro other
  have counted := exact.count_eq other
  have same_children : Cell.children { cell with count := cell.count - 1 } = cell.children := rfl
  rw [same_children]
  rw [List.count_cons] at counted
  by_cases same : other = ref
  · subst same
    rw [countAt_eq found] at counted
    simp only [beq_self_eq_true, if_true] at counted
    simp only [if_true]
    omega
  · simp only [beq_iff_eq, if_neg (Ne.symm same)] at counted
    simp only [if_neg same]
    omega

/-- An object is taken out of its slot. -/
theorem lend (exact : store.Exact held) {count : Nat} {payload : Payload}
    (found : store.cell? ref = some ⟨count, some payload⟩) :
    (store.setCell ref (some ⟨count, none⟩)).Exact (payload.children ++ held) := by
  have positive : 0 < count := exact.count_pos ref ⟨count, some payload⟩ found
  refine exact.replace found positive ?_
  intro other
  have counted := exact.count_eq other
  rw [List.count_append]
  by_cases same : other = ref
  · subst same
    have same_count : store.countAt other = count := countAt_eq found
    simp only [Cell.children, List.count_nil, if_true]
    omega
  · simp only [Cell.children, List.count_nil, if_neg same]
    omega

/-- An object is put into its slot. -/
theorem putBack {count : Nat} {payload : Payload}
    (exact : store.Exact (payload.children ++ held))
    (found : store.cell? ref = some ⟨count, none⟩) :
    (store.setCell ref (some ⟨count, some payload⟩)).Exact held := by
  have positive : 0 < count := exact.count_pos ref ⟨count, none⟩ found
  refine exact.replace found positive ?_
  intro other
  have counted := exact.count_eq other
  rw [List.count_append] at counted
  by_cases same : other = ref
  · subst same
    have same_count : store.countAt other = count := countAt_eq found
    simp only [Cell.children, List.count_nil, if_true]
    omega
  · simp only [Cell.children, List.count_nil, if_neg same]
    omega

/-- The last reference to an object is given back: what it owned is left over. -/
theorem vacate [Tracker τ] (exact : store.Exact (ref :: held))
    (found : store.cell? ref = some cell) (last : ¬ 1 < cell.count) :
    (store.vacate ref cell.payload).Exact (cell.children.reverse ++ held) := by
  have inside := index_lt_of_cell? found
  have cells_eq : ∀ other, (store.vacate ref cell.payload).cell? other =
      (store.setCell ref none).cell? other := fun _ => rfl
  refine ⟨?_, ?_, ?_, ?_⟩
  · intro other
    have counted := exact.count_eq other
    have linked := count_links_setCell found none other
    have same_links : (store.vacate ref cell.payload).links = (store.setCell ref none).links := rfl
    have same_count : (store.vacate ref cell.payload).countAt other =
        (store.setCell ref none).countAt other := rfl
    rw [same_links, same_count, countAt_setCell inside, List.count_append, List.count_reverse]
    rw [List.count_cons] at counted
    simp only [slotLinks, List.count_nil] at linked
    by_cases same : other = ref
    · subst same
      rw [countAt_eq found] at counted
      simp only [beq_self_eq_true, if_true] at counted
      simp only [slotCount, if_true]
      omega
    · simp only [beq_iff_eq, if_neg (Ne.symm same)] at counted
      simp only [if_neg same]
      omega
  · intro other present stored
    rw [cells_eq, cell?_setCell inside] at stored
    split at stored
    · cases stored
    · exact exact.count_pos other present stored
  · exact List.nodup_cons.mpr ⟨exact.not_mem_free found, exact.free_nodup⟩
  · intro other
    rw [cells_eq, cell?_setCell inside]
    by_cases same : other = ref
    · subst same
      simpa [Store.vacate] using inside
    · simpa [Store.vacate, same] using exact.mem_free other

end Exact

/-! ## Making an object -/

/-- The slot for the next object is vacant. -/
theorem Exact.place_vacant (exact : store.Exact held) (payload : Payload) :
    store.cell? (store.place payload).1 = none := by
  unfold place
  split
  · rename_i first free listed
    exact ((exact.mem_free first).mp (by simp [listed])).2
  · simp [cell?]

/-- The new object is in its slot, and the other slots are as they were. -/
theorem Exact.cell?_place (exact : store.Exact held) (payload : Payload) (other : Ref) :
    (store.place payload).2.cell? other = if other = (store.place payload).1
      then some ⟨1, some payload⟩ else store.cell? other := by
  unfold place
  split
  · rename_i first free listed
    have inside := ((exact.mem_free first).mp (by simp [listed])).1
    exact cell?_setCell inside (some ⟨1, some payload⟩) other
  · simp only [cell?, Array.getElem?_push]
    by_cases same : other = ⟨store.cells.size⟩
    · simp [same]
    · have different : other.index ≠ store.cells.size := fun equal => same (Ref.ext_index equal)
      simp [same, different]

theorem count_links_place (exact : store.Exact held) (payload : Payload) (other : Ref) :
    (store.place payload).2.links.count other =
      store.links.count other + payload.children.count other := by
  unfold place
  split
  · rename_i first free listed
    obtain ⟨inside, vacant⟩ := (exact.mem_free first).mp (by simp [listed])
    have slot : store.cells.toList[first.index]? = some none := by
      have present := Array.getElem?_eq_getElem inside
      simp only [cell?, present, Option.join_some] at vacant
      rw [Array.getElem?_toList, present, vacant]
    have counted := count_flatMap_set slot (some ⟨1, some payload⟩) other
    simp only [slotLinks, List.count_nil, Nat.add_zero] at counted
    simpa [links, setCell, Cell.children] using counted
  · simp [links, slotLinks, Cell.children]

/-- An object that is made takes over what its payload holds. -/
theorem Exact.place {payload : Payload} (exact : store.Exact (payload.children ++ held)) :
    (store.place payload).2.Exact ((store.place payload).1 :: held) := by
  have vacant := exact.place_vacant payload
  have cells_eq := exact.cell?_place payload
  refine ⟨?_, ?_, ?_, ?_⟩
  · intro other
    have counted := exact.count_eq other
    rw [count_links_place exact, List.count_cons, countAt, cells_eq]
    rw [List.count_append] at counted
    by_cases same : other = (store.place payload).1
    · subst same
      rw [countAt, vacant, slotCount] at counted
      simp only [if_true, slotCount, beq_self_eq_true]
      omega
    · rw [countAt] at counted
      simp only [if_neg same, beq_iff_eq, if_neg (Ne.symm same)]
      omega
  · intro other present stored
    rw [cells_eq] at stored
    split at stored
    · obtain rfl := Option.some.inj stored
      exact Nat.one_pos
    · exact exact.count_pos other present stored
  · have nodup := exact.free_nodup
    unfold Store.place
    split
    · rename_i first free listed
      rw [listed] at nodup
      exact nodup.of_cons
    · exact nodup
  · intro other
    have member := exact.mem_free other
    have nodup := exact.free_nodup
    rw [cells_eq]
    unfold Store.place
    split
    · rename_i first free listed
      rw [listed, List.nodup_cons] at nodup
      rw [listed, List.mem_cons] at member
      simp only [cells_size_setCell]
      by_cases same : other = first
      · subst same
        simp [nodup.1]
      · simpa [same] using member
    · rename_i listed
      rw [listed] at member
      simp only [Array.size_push]
      by_cases same : other = ⟨store.cells.size⟩
      · subst same
        simp [listed]
      · have different : other.index ≠ store.cells.size := fun equal => same (Ref.ext_index equal)
        simp only [listed, if_neg same, member]
        constructor
        · rintro ⟨less, none⟩
          exact ⟨by omega, none⟩
        · rintro ⟨less, none⟩
          exact ⟨by omega, none⟩

/-! ## Giving references back -/

/-- What is left of a store after references were given back: some of its objects,
as they were but for their counts. -/
def Remains (after before : Store τ) : Prop :=
  ∀ ref cell, after.cell? ref = some cell →
    ∃ old, before.cell? ref = some old ∧ old.payload = cell.payload

theorem Remains.refl (store : Store τ) : store.Remains store :=
  fun _ cell found => ⟨cell, found, rfl⟩

theorem Remains.trans {first second third : Store τ} (later : third.Remains second)
    (earlier : second.Remains first) : third.Remains first := by
  intro ref cell found
  obtain ⟨middle, stored, same⟩ := later ref cell found
  obtain ⟨old, present, equal⟩ := earlier ref middle stored
  exact ⟨old, present, equal.trans same⟩

theorem drain_of_found [Tracker τ] {rest : List Ref} (found : store.cell? ref = some cell) :
    drain (ref :: rest) store =
      if _ : 1 < cell.count then
        drain rest (store.setCell ref (some { cell with count := cell.count - 1 }))
      else
        drain (cell.children.reverse ++ rest) (store.vacate ref cell.payload) := by
  rw [drain]
  split
  · rename_i missing
    rw [found] at missing
    cases missing
  · rename_i stored present
    rw [found] at present
    obtain rfl := Option.some.inj present
    rfl

theorem drain_of_missing [Tracker τ] {rest : List Ref} (missing : store.cell? ref = none) :
    drain (ref :: rest) store = .error (.fault (.vacant ref)) store := by
  rw [drain]
  split
  · rfl
  · rename_i found
    rw [missing] at found
    cases found

/-- References that are held can all be given back. -/
theorem drain_exact [Tracker τ] (pending : List Ref) (store : Store τ)
    (exact : store.Exact (pending ++ held)) :
    ∃ after, drain pending store = .ok () after ∧ after.Exact held ∧ after.Remains store := by
  induction pending, store using drain.induct with
  | case1 store =>
      rw [drain]
      exact ⟨store, rfl, exact, Remains.refl store⟩
  | case2 store ref rest missing =>
      obtain ⟨cell, found⟩ := exact.live_of_held List.mem_cons_self
      rw [missing] at found
      cases found
  | case3 store ref rest cell found shared ih =>
      obtain ⟨after, drained, afterExact, remains⟩ := ih (exact.lower found shared)
      refine ⟨after, ?_, afterExact, remains.trans ?_⟩
      · rw [drain_of_found found, dif_pos shared, drained]
      · intro other present stored
        rw [cell?_setCell (index_lt_of_cell? found)] at stored
        split at stored
        · rename_i same
          obtain rfl := Option.some.inj stored
          exact ⟨cell, same ▸ found, rfl⟩
        · exact ⟨present, stored, rfl⟩
  | case4 store ref rest cell found last ih =>
      rw [List.cons_append] at exact
      have vacated := exact.vacate found last
      rw [← List.append_assoc] at vacated
      obtain ⟨after, drained, afterExact, remains⟩ := ih vacated
      refine ⟨after, ?_, afterExact, remains.trans ?_⟩
      · rw [drain_of_found found, dif_neg last, drained]
      · intro other present stored
        have cells_eq : (store.vacate ref cell.payload).cell? other =
            (store.setCell ref none).cell? other := rfl
        rw [cells_eq, cell?_setCell (index_lt_of_cell? found)] at stored
        split at stored
        · cases stored
        · exact ⟨present, stored, rfl⟩

/-- References are given back one part after the other. -/
theorem drain_append [Tracker τ] (first second : List Ref) (store : Store τ) :
    drain (first ++ second) store =
      match drain first store with
      | .ok () store => drain second store
      | .error stop store => .error stop store := by
  induction first, store using drain.induct with
  | case1 store => simp [drain]
  | case2 store ref rest missing =>
      rw [List.cons_append, drain_of_missing missing, drain_of_missing missing]
  | case3 store ref rest cell found shared ih =>
      rw [List.cons_append, drain_of_found found, drain_of_found found, dif_pos shared,
        dif_pos shared, ih]
  | case4 store ref rest cell found last ih =>
      rw [List.cons_append, drain_of_found found, drain_of_found found, dif_neg last,
        dif_neg last, ← List.append_assoc, ih]

theorem neverFails_drain [Tracker τ] (refs : List Ref) :
    Outcome.NeverFails (drain refs : StoreM τ Unit) := by
  intro store cause after failed
  induction refs, store using drain.induct with
  | case1 store => simp [drain] at failed
  | case2 store ref rest missing =>
      rw [drain_of_missing missing] at failed
      cases failed
  | case3 store ref rest cell found shared ih =>
      rw [drain_of_found found, dif_pos shared] at failed
      exact ih failed
  | case4 store ref rest cell found last ih =>
      rw [drain_of_found found, dif_neg last] at failed
      exact ih failed

end Store

end StackMachine
