import StackMachine.Proofs.Store.Values
import StackMachine.Proofs.Table.Binding

/-!
# The store a machine starts with

The store that every machine starts with is sound: nobody but the machine itself holds
references to its objects.
-/

namespace StackMachine

namespace Table

variable {α : Type}

theorem valid_ofEntries (entries : List (Bytes × α)) : (ofEntries entries).Valid :=
  List.foldlRecOn entries _ valid_empty fun _ valid entry _ => valid.insert_valid _ entry.1 entry.2

end Table

namespace Store

variable {τ : Type} {ref : Ref} {payload : Payload}

theorem cell?_initial (tracker : τ) (ref : Ref) :
    (initial tracker).cell? ref = initialCells[ref.index]? := by
  rw [cell?, initial, List.getElem?_toArray, List.getElem?_map]
  cases initialCells[ref.index]? <;> rfl

theorem payload?_initial (tracker : τ) (ref : Ref) :
    (initial tracker).payload? ref = original ref := by
  rw [payload?, cell?_initial]
  rfl

theorem links_initial (tracker : τ) :
    (initial tracker).links = initialCells.flatMap Cell.children := by
  rw [links, initial, List.flatMap_map]
  rfl

theorem inside_of_original (found : original ref = some payload) :
    ref.index < initialCells.length := by
  obtain ⟨cell, present, -⟩ := Option.bind_eq_some_iff.mp found
  exact (List.getElem?_eq_some_iff.mp present).1

/-- Every count is right from the start. -/
theorem initial_count_eq (ref : Ref) :
    slotCount initialCells[ref.index]? =
      (initialCells.flatMap Cell.children).count ref + roots.count ref := by
  by_cases inside : ref.index < 19
  · have all : ∀ index < 19, slotCount initialCells[index]? =
        (initialCells.flatMap Cell.children).count ⟨index⟩ + roots.count ⟨index⟩ := by
      decide +kernel
    exact all ref.index inside
  · have known : ∀ other ∈ initialCells.flatMap Cell.children ++ roots, other.index < 19 := by
      decide +kernel
    have outside : ref ∉ initialCells.flatMap Cell.children ++ roots :=
      fun member => inside (known ref member)
    rw [← List.count_append, List.count_eq_zero_of_not_mem outside,
      List.getElem?_eq_none (by rw [initialCells_length]; omega)]
    rfl

theorem initial_exact (tracker : τ) : (initial tracker).Exact roots where
  count_eq ref := by rw [countAt, cell?_initial, links_initial, initial_count_eq]
  count_pos ref cell found := by
    rw [cell?_initial] at found
    have all : ∀ cell ∈ initialCells, 0 < cell.count := by decide
    exact all cell (List.mem_of_getElem? found)
  free_nodup := List.nodup_nil
  mem_free ref := by
    refine iff_of_false List.not_mem_nil ?_
    rintro ⟨inside, vacant⟩
    rw [cell?_initial, List.getElem?_eq_none_iff] at vacant
    simp only [initial, List.size_toArray, List.length_map] at inside
    omega

/-- What the objects a store starts with own are other such objects. -/
theorem original_child {child : Ref} (found : original ref = some payload)
    (member : child ∈ payload.children) : child.index < initialCells.length ∧
      child ≠ .builtins ∧ child ≠ .modules := by
  have all : ∀ cell ∈ initialCells, ∀ child ∈ cell.children, child.index < 19 ∧
      child ≠ .builtins ∧ child ≠ .modules := by decide +kernel
  obtain ⟨cell, present, content⟩ := Option.bind_eq_some_iff.mp found
  rw [initialCells_length]
  refine all cell (List.mem_of_getElem? present) child ?_
  rw [Cell.children, content]
  exact member

theorem original_role {child : Ref} {role : Role} (found : original ref = some payload)
    (member : (child, role) ∈ payload.roles) : role = .value := by
  have all : ∀ cell ∈ initialCells, ∀ entry ∈ (cell.payload.map Payload.roles).getD [],
      entry.2 = .value := by decide +kernel
  obtain ⟨cell, present, content⟩ := Option.bind_eq_some_iff.mp found
  refine all cell (List.mem_of_getElem? present) (child, role) ?_
  rw [content]
  exact member

/-- Only two of them are dictionaries. -/
theorem original_dict {table : Table Ref} (found : original ref = some (.dict table)) :
    table = Table.ofEntries builtinEntries ∨ table = .empty := by
  by_cases isBuiltins : ref = .builtins
  · subst isBuiltins
    exact Or.inl (Payload.dict.inj (Option.some.inj (original_builtins.symm.trans found))).symm
  by_cases isModules : ref = .modules
  · subst isModules
    have same : Table.empty = table := Payload.dict.inj (Option.some.inj found)
    exact Or.inr same.symm
  · exact absurd (original_fixed (inside_of_original found) isBuiltins isModules found)
      (by simp [Payload.isContainer])

theorem initial_sound (tracker : τ) : (initial tracker).Sound [] [] where
  exact := by
    rw [List.append_nil, List.append_nil]
    exact initial_exact tracker
  whole ref cell found := by
    rw [cell?_initial] at found
    have all : ∀ cell ∈ initialCells, cell.payload.isSome := by decide
    exact Option.isSome_iff_ne_none.mp (all cell (List.mem_of_getElem? found))
  fits ref payload found child role member := by
    rw [payload?_initial] at found
    obtain ⟨inside, ne_builtins, ne_modules⟩ :=
      original_child found (Payload.mem_children_of_mem_roles member)
    obtain ⟨part, present⟩ := exists_original inside
    refine ⟨ne_builtins, ne_modules, ?_⟩
    rw [kind?, payload?_initial, present, original_role found member]
    exact original_plain inside present
  tables ref table found := by
    rw [payload?_initial] at found
    obtain isBuiltins | isModules := original_dict found
    · rw [isBuiltins]
      exact Table.valid_ofEntries builtinEntries
    · rw [isModules]
      exact Table.valid_empty
  values := nofun
  lone_none ref found := by
    rw [payload?_initial] at found
    have all : ∀ index < 19, (original ⟨index⟩).map Payload.kind = some .none → index = 0 := by
      decide
    exact Ref.ext_index (all ref.index (initialCells_length ▸ inside_of_original found)
      (congrArg (Option.map Payload.kind) found))
  originals ref _ _ := payload?_initial tracker ref
  modules_dict := rfl

/-! ## What is always there -/

variable {store : Store τ}

/-- There is something in each of the slots that the store was set up with. -/
def HasOriginals (store : Store τ) : Prop :=
  ∀ ref, ref.index < initialCells.length → ∃ cell, store.cell? ref = some cell

theorem Sound.hasOriginals {held inner : List Ref} (sound : store.Sound held inner) :
    store.HasOriginals := by
  intro ref inside
  have filled : store.Filled ref := by
    by_cases isModules : ref = .modules
    · exact isModules ▸ sound.modules_payload
    · obtain ⟨payload, here⟩ := exists_original inside
      exact ⟨payload, by rw [sound.originals ref inside isModules, here]⟩
  obtain ⟨payload, found⟩ := filled
  obtain ⟨count, present⟩ := cell?_of_payload? found
  exact ⟨_, present⟩

theorem HasOriginals.length_le (originals : store.HasOriginals) :
    initialCells.length ≤ store.cells.toList.length := by
  obtain ⟨cell, present⟩ := originals ⟨initialCells.length - 1⟩ (by decide)
  have inside := index_lt_of_cell? present
  have some : 0 < initialCells.length := by decide
  simp only [Array.length_toList] at inside ⊢
  omega

theorem HasOriginals.of_remains {before after : Store τ} (originals : after.HasOriginals)
    (remains : after.Remains before) : before.HasOriginals := by
  intro ref inside
  obtain ⟨cell, found⟩ := originals ref inside
  obtain ⟨old, there, -⟩ := remains ref cell found
  exact ⟨old, there⟩

end Store

end StackMachine
