import StackMachine.Proofs.Table.Probing

/-!
# Valid tables

A table is valid if its size is one of the primes, its two counters count what
they say, and the search for the key of any entry ends at that entry.  The last
condition is what removals and rebuilds have to keep: no empty slot may come before
an entry on the walk of its key.

Keys are then pairwise distinct, and looking a key up is looking for it among the
entries.
-/

namespace StackMachine.Table

variable {α : Type} {table : Table α} {key : Bytes} {index : Nat} {value : α}

/-- Does the slot hold an entry? -/
def isLive : Slot α → Bool
  | .live _ _ => true
  | _ => false

/-- Was the slot ever used since the last rebuild? -/
def isFilled : Slot α → Bool
  | .empty => false
  | _ => true

/-- The promises a table makes to itself. -/
structure Valid (table : Table α) : Prop where
  size_mem : table.size ∈ sizes
  used_eq : table.used = table.slots.toList.countP isLive
  fill_eq : table.fill = table.slots.toList.countP isFilled
  probe_live : ∀ index key value, table.slots[index]? = some (.live key value) →
    table.probe key = .found index

namespace Valid

theorem size_prime (valid : table.Valid) : table.size.Prime :=
  prime_of_mem_sizes valid.size_mem

theorem size_pos (valid : table.Valid) : 0 < table.size :=
  valid.size_prime.pos

/-- An entry is at one slot only. -/
theorem index_unique (valid : table.Valid) {first second : Nat} {left right : α}
    (firstLive : table.slots[first]? = some (.live key left))
    (secondLive : table.slots[second]? = some (.live key right)) : first = second := by
  have same := valid.probe_live first key left firstLive
  rw [valid.probe_live second key right secondLive] at same
  exact (Probe.found.inj same).symm

end Valid

/-! ## Changing one slot -/

/-- Replacing an item replaces what is read off it. -/
theorem filterMap_set_perm {β γ : Type} (image : β → Option γ) {items : List β} {place : Nat}
    {old : β} (present : items[place]? = some old) (new : β) :
    ((image old).toList ++ (items.set place new).filterMap image).Perm
      ((image new).toList ++ items.filterMap image) := by
  induction items generalizing place with
  | nil => simp at present
  | cons head tail ih =>
      cases place with
      | zero =>
          simp only [List.getElem?_cons_zero, Option.some.injEq] at present
          subst present
          rw [List.set_cons_zero, ← List.singleton_append, ← List.singleton_append (l := tail),
            List.filterMap_append, List.filterMap_append, ← List.append_assoc, ← List.append_assoc]
          refine List.Perm.append_right _ ?_
          simp only [List.filterMap_cons, List.filterMap_nil]
          cases image head <;> cases image new <;> simp [List.Perm.swap]
      | succ place =>
          simp only [List.getElem?_cons_succ] at present
          rw [List.set_cons_succ, ← List.singleton_append (l := tail.set place new),
            ← List.singleton_append (l := tail), List.filterMap_append, List.filterMap_append]
          refine (List.perm_append_comm_assoc _ _ _).trans ?_
          refine ((ih present).append_left _).trans ?_
          exact List.perm_append_comm_assoc _ _ _

/-- Replacing an item changes how many there are of a sort. -/
theorem countP_set_add {β : Type} (sort : β → Bool) {items : List β} {place : Nat} {old : β}
    (present : items[place]? = some old) (new : β) :
    (items.set place new).countP sort + (if sort old then 1 else 0) =
      items.countP sort + (if sort new then 1 else 0) := by
  induction items generalizing place with
  | nil => simp at present
  | cons head tail ih =>
      cases place with
      | zero =>
          simp only [List.getElem?_cons_zero, Option.some.injEq] at present
          subst present
          simp only [List.set_cons_zero, List.countP_cons]
          omega
      | succ place =>
          simp only [List.getElem?_cons_succ] at present
          have rest := ih present
          simp only [List.set_cons_succ, List.countP_cons]
          omega

/-- The slots of a table after one of them was set. -/
theorem getElem?_set_slot {slots : Array (Slot α)} {place : Nat} {old : Slot α}
    (present : slots[place]? = some old) (new : Slot α) (slot : Nat) :
    (slots.setIfInBounds place new)[slot]? = if slot = place then some new else slots[slot]? := by
  have inside : place < slots.size := (Array.getElem?_eq_some_iff.mp present).1
  rw [Array.getElem?_setIfInBounds]
  by_cases here : slot = place
  · subst here
    simp [inside]
  · simp [here, Ne.symm here]

theorem entries_set_perm {slots : Array (Slot α)} {place : Nat} {old : Slot α}
    (present : slots[place]? = some old) (new : Slot α) :
    ((content? old).toList ++ (slots.setIfInBounds place new).toList.filterMap content?).Perm
      ((content? new).toList ++ slots.toList.filterMap content?) := by
  rw [Array.toList_setIfInBounds]
  exact filterMap_set_perm content? (by simpa using present) new

theorem countP_set_slot (sort : Slot α → Bool) {slots : Array (Slot α)} {place : Nat}
    {old : Slot α} (present : slots[place]? = some old) (new : Slot α) :
    (slots.setIfInBounds place new).toList.countP sort + (if sort old then 1 else 0) =
      slots.toList.countP sort + (if sort new then 1 else 0) := by
  rw [Array.toList_setIfInBounds]
  exact countP_set_add sort (by simpa using present) new

/-! ## Putting entries in and taking them out -/

/-- A table of empty slots is valid. -/
theorem valid_ofSize {size : Nat} (member : size ∈ sizes) : (ofSize size : Table α).Valid where
  size_mem := by simpa [Table.size, ofSize] using member
  used_eq := by simp [ofSize, List.countP_replicate, isLive]
  fill_eq := by simp [ofSize, List.countP_replicate, isFilled]
  probe_live := by
    intro index key value live
    simp only [ofSize, Array.getElem?_replicate] at live
    split at live <;> simp at live

theorem valid_empty : (empty : Table α).Valid :=
  valid_ofSize (by decide)

@[simp] theorem entries_ofSize (size : Nat) : (ofSize size : Table α).entries = [] := by
  simp [entries, ofSize, content?]

/-- The slots an entry's key is not at stay on the walks of the other keys. -/
theorem not_stops_of_live {other : Bytes} (live : table.slots[index]? = some (.live key value))
    (different : other ≠ key) : ¬ table.Stops other index := by
  rintro (empty | ⟨value', present⟩)
  · rw [live] at empty
    cases empty
  · rw [live, Option.some.injEq, Slot.live.injEq] at present
    exact different present.1.symm

namespace Valid

/-- A key is put into the slot where its search ended. -/
theorem occupy (valid : table.Valid) (vacant : table.probe key = .vacant index) (value : α) :
    (table.occupy index key value).Valid := by
  have present := empty_of_probe_vacant valid.size_pos vacant
  have slots := getElem?_set_slot present (.live key value)
  have sameSize : (table.occupy index key value).size = table.size := by
    simp [Table.occupy, Table.size]
  refine ⟨sameSize ▸ valid.size_mem, ?_, ?_, ?_⟩
  · have counted := countP_set_slot isLive present (.live key value)
    simp only [isLive, Bool.false_eq_true, if_false, if_true, Nat.add_zero] at counted
    simp only [Table.occupy, counted, valid.used_eq]
  · have counted := countP_set_slot isFilled present (.live key value)
    simp only [isFilled, Bool.false_eq_true, if_false, if_true, Nat.add_zero] at counted
    simp only [Table.occupy, counted, valid.fill_eq]
  · intro place other bound live
    have elsewhere : ∀ slot, slot ≠ index →
        (table.occupy index key value).slots[slot]? = table.slots[slot]? := by
      intro slot different
      exact (slots slot).trans (if_neg different)
    have placed : (table.occupy index key value).slots[index]? = some (.live key value) :=
      (slots index).trans (if_pos rfl)
    by_cases here : place = index
    · subst here
      rw [placed, Option.some.injEq, Slot.live.injEq] at live
      obtain ⟨rfl, rfl⟩ := live
      exact probe_found_of_ended valid.size_pos sameSize elsewhere placed (Or.inl vacant)
    · rw [elsewhere place here] at live
      have found := valid.probe_live place other bound live
      have different : other ≠ key := by
        rintro rfl
        rw [vacant] at found
        cases found
      exact probe_found_of_passing valid.size_pos sameSize (Ne.symm here) elsewhere
        (not_stops_of_live placed different) found

/-- An entry receives another value. -/
theorem rebind (valid : table.Valid) {old : α}
    (present : table.slots[index]? = some (.live key old)) (value : α) :
    (table.rebind index key value).Valid := by
  have slots := getElem?_set_slot present (.live key value)
  have sameSize : (table.rebind index key value).size = table.size := by
    simp [Table.rebind, Table.size]
  refine ⟨sameSize ▸ valid.size_mem, ?_, ?_, ?_⟩
  · have counted := countP_set_slot isLive present (.live key value)
    simp only [isLive, if_true, Nat.add_right_cancel_iff] at counted
    simp only [Table.rebind, counted, valid.used_eq]
  · have counted := countP_set_slot isFilled present (.live key value)
    simp only [isFilled, if_true, Nat.add_right_cancel_iff] at counted
    simp only [Table.rebind, counted, valid.fill_eq]
  · intro place other bound live
    have elsewhere : ∀ slot, slot ≠ index →
        (table.rebind index key value).slots[slot]? = table.slots[slot]? := by
      intro slot different
      exact (slots slot).trans (if_neg different)
    have placed : (table.rebind index key value).slots[index]? = some (.live key value) :=
      (slots index).trans (if_pos rfl)
    by_cases here : place = index
    · subst here
      rw [placed, Option.some.injEq, Slot.live.injEq] at live
      obtain ⟨rfl, rfl⟩ := live
      exact probe_found_of_ended valid.size_pos sameSize elsewhere placed
        (Or.inr (valid.probe_live place key old present))
    · rw [elsewhere place here] at live
      have different : other ≠ key := by
        rintro rfl
        exact here (valid.index_unique live present)
      exact probe_found_of_passing valid.size_pos sameSize (Ne.symm here) elsewhere
        (not_stops_of_live placed different) (valid.probe_live place other bound live)

/-- An entry is replaced by a mark. -/
theorem unbind (valid : table.Valid) {old : α}
    (present : table.slots[index]? = some (.live key old)) :
    ({ table with
        slots := table.slots.setIfInBounds index .removed
        used := table.used - 1 } : Table α).Valid := by
  have slots := getElem?_set_slot present .removed
  refine ⟨by simpa [Table.size] using valid.size_mem, ?_, ?_, ?_⟩
  · have counted := countP_set_slot isLive present .removed
    simp only [isLive, Bool.false_eq_true, if_false, if_true, Nat.add_zero] at counted
    simp only [← counted, valid.used_eq, Nat.add_sub_cancel]
  · have counted := countP_set_slot isFilled present .removed
    simp only [isFilled, if_true, Nat.add_right_cancel_iff] at counted
    simp only [counted, valid.fill_eq]
  · intro place other bound live
    have here : place ≠ index := by
      rintro rfl
      rw [slots place, if_pos rfl] at live
      cases live
    rw [slots place, if_neg here] at live
    refine probe_found_of_passing valid.size_pos (by simp [Table.size]) (Ne.symm here)
      (fun slot different => (slots slot).trans (if_neg different)) ?_
      (valid.probe_live place other bound live)
    rintro (empty | ⟨value', marked⟩)
    · simp [slots index] at empty
    · simp [slots index] at marked

end Valid

/-! ## Entries -/

theorem mem_entries_iff :
    (key, value) ∈ table.entries ↔
      ∃ index : Nat, table.slots[index]? = some (.live key value) := by
  rw [entries, List.mem_filterMap]
  constructor
  · rintro ⟨slot, member, entry⟩
    obtain ⟨index, present⟩ := List.mem_iff_getElem?.mp member
    rw [Array.getElem?_toList] at present
    refine ⟨index, ?_⟩
    cases slot with
    | empty => cases entry
    | removed => cases entry
    | live stored content =>
        simp only [content?, Option.some.injEq, Prod.mk.injEq] at entry
        rw [present, entry.1, entry.2]
  · rintro ⟨index, present⟩
    refine ⟨.live key value, List.mem_iff_getElem?.mpr ⟨index, ?_⟩, rfl⟩
    rw [Array.getElem?_toList, present]

theorem occupy_entries_perm (positive : 0 < table.size) (vacant : table.probe key = .vacant index)
    (value : α) : (table.occupy index key value).entries.Perm ((key, value) :: table.entries) := by
  have moved := entries_set_perm (empty_of_probe_vacant positive vacant) (.live key value)
  simpa [entries, Table.occupy, content?] using moved

theorem rebind_entries_perm {old : α} (present : table.slots[index]? = some (.live key old))
    (value : α) :
    ((key, old) :: (table.rebind index key value).entries).Perm
      ((key, value) :: table.entries) := by
  have moved := entries_set_perm present (.live key value)
  simpa [entries, Table.rebind, content?] using moved

theorem unbind_entries_perm {old : α} (present : table.slots[index]? = some (.live key old)) :
    ((key, old) ::
      (⟨table.slots.setIfInBounds index .removed, table.fill, table.used - 1⟩ :
        Table α).entries).Perm table.entries := by
  have moved := entries_set_perm present .removed
  simpa [entries, content?] using moved

/-- The number of entries is the number of slots that hold one. -/
theorem length_entries (table : Table α) :
    table.entries.length = table.slots.toList.countP isLive := by
  rw [entries]
  induction table.slots.toList with
  | nil => rfl
  | cons slot rest ih =>
      cases slot <;> simp [List.filterMap_cons, content?, isLive, List.countP_cons, ih]

namespace Valid

theorem length_eq_used (valid : table.Valid) : table.entries.length = table.used := by
  rw [length_entries, valid.used_eq]

/-- Every slot with an entry is one that is filled. -/
theorem used_le_fill (valid : table.Valid) : table.used ≤ table.fill := by
  rw [valid.used_eq, valid.fill_eq]
  refine List.countP_mono_left fun slot _ live => ?_
  cases slot <;> first | rfl | cases live

/-- Looking a key up is looking for it among the entries. -/
theorem find?_eq_some_iff (valid : table.Valid) :
    table.find? key = some value ↔ (key, value) ∈ table.entries := by
  rw [mem_entries_iff]
  constructor
  · intro found
    unfold find? at found
    split at found
    · rename_i index result
      obtain ⟨stored, live⟩ := live_of_probe_found valid.size_pos result
      simp only [valueAt?, live, Option.some.injEq] at found
      exact ⟨index, found ▸ live⟩
    · cases found
  · rintro ⟨index, live⟩
    simp [find?, valid.probe_live index key value live, valueAt?, live]

theorem find?_eq_none_of_vacant (vacant : table.probe key = .vacant index) :
    table.find? key = none := by
  simp [find?, vacant]

end Valid

/-- Where the keys of the entries are at one slot each, they are distinct. -/
theorem nodup_keys_of_unique {slots : List (Slot α)}
    (unique : ∀ (first second : Nat) key left right, slots[first]? = some (.live key left) →
      slots[second]? = some (.live key right) → first = second) :
    ((slots.filterMap content?).map Prod.fst).Nodup := by
  induction slots with
  | nil => exact List.nodup_nil
  | cons slot rest ih =>
      have tail : ((rest.filterMap content?).map Prod.fst).Nodup := by
        apply ih
        intro first second key left right firstLive secondLive
        have shifted := unique (first + 1) (second + 1) key left right firstLive secondLive
        exact Nat.succ.inj shifted
      cases slot with
      | empty => exact tail
      | removed => exact tail
      | live key value =>
          simp only [List.filterMap_cons, content?, List.map_cons, List.nodup_cons]
          refine ⟨?_, tail⟩
          intro repeated
          obtain ⟨⟨stored, other⟩, member, rfl⟩ := List.mem_map.mp repeated
          obtain ⟨slot, present, entry⟩ := List.mem_filterMap.mp member
          obtain ⟨place, here⟩ := List.mem_iff_getElem?.mp present
          cases slot with
          | empty => cases entry
          | removed => cases entry
          | live again content =>
              simp only [content?, Option.some.injEq, Prod.mk.injEq] at entry
              obtain ⟨rfl, rfl⟩ := entry
              have same := unique 0 (place + 1) again value content rfl here
              exact absurd same (Nat.succ_ne_zero place).symm

/-- The keys of a table are pairwise distinct. -/
theorem Valid.nodup_keys (valid : table.Valid) : (table.entries.map Prod.fst).Nodup := by
  apply nodup_keys_of_unique
  intro first second key left right firstLive secondLive
  exact valid.index_unique (by simpa using firstLive) (by simpa using secondLive)

end StackMachine.Table
