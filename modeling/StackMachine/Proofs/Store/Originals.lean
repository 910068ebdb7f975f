import StackMachine.Machine.Instructions
import StackMachine.Proofs.Store.BadCalls
import StackMachine.Proofs.Table.Stepping

/-!
# The objects a store starts with

The objects that every store starts with stay where they are and as they are; only the table
of modules changes.  The dictionary of built-in names is part of no other object.  So what a
built-in name means, and which errors a pattern catches, is settled once and for all, and
there are never fewer objects than at the start.
-/

namespace StackMachine

open Store Outcome

/-! ## Looking up built-in names -/

namespace Store

variable {τ : Type} {store : Store τ} {ref : Ref} {held inner : List Ref}

/-- In a list that binds no key twice, an entry is what its key is found to be bound to. -/
theorem mem_iff_lookup_eq_some {κ α : Type} [BEq κ] [LawfulBEq κ] {entries : List (κ × α)}
    {key : κ} {value : α} (distinct : (entries.map Prod.fst).Nodup) :
    (key, value) ∈ entries ↔ entries.lookup key = some value := by
  rw [List.lookup_eq_some_iff]
  constructor
  case mpr =>
    rintro ⟨before, after, rfl, -⟩
    simp
  case mp =>
    intro member
    obtain ⟨before, after, rfl⟩ := List.append_of_mem member
    refine ⟨before, after, rfl, fun entry earlier => ?_⟩
    rw [List.map_append, List.nodup_append] at distinct
    have apart := distinct.2.2 entry.1 (List.mem_map_of_mem earlier) key (by simp)
    simpa using Ne.symm apart

/-- What a built-in name is bound to is found in the dictionary of built-in names, and
nothing else is. -/
theorem builtins_lookup (key : Bytes) :
    ((Table.ofEntries builtinEntries).lookup key : Except (Stop Cause) (Option Ref)) =
      .ok (builtinEntries.lookup key) := by
  have valid : (Table.ofEntries builtinEntries).Valid := Table.valid_ofEntries builtinEntries
  have size : (Table.ofEntries builtinEntries).size = 31 := by decide +kernel
  have ends : (Table.step? (Table.ofEntries builtinEntries).size key).isSome := by
    rw [size]
    exact Table.step?_isSome (by decide) key
  have entries : (Table.ofEntries builtinEntries).entries.Perm builtinEntries := by
    decide +kernel
  have distinct : (builtinEntries.map Prod.fst).Nodup := by decide +kernel
  rw [Table.lookup_eq_ok valid.size_pos ends]
  refine congrArg Except.ok (Option.ext fun value => ?_)
  rw [valid.find?_eq_some_iff, entries.mem_iff]
  exact mem_iff_lookup_eq_some distinct

/-! ## What stays -/

/-- The store still has the objects it started with. -/
structure KeepsOriginals (store : Store τ) : Prop where
  /-- Each of them is in its slot and is what it was; modules may have been added to their
  table. -/
  originals : ∀ ref, ref.index < initialCells.length → ref ≠ .modules →
    store.payload? ref = original ref
  /-- No object owns the dictionary of built-in names. -/
  hidden : ∀ ref payload, store.payload? ref = some payload → .builtins ∉ payload.children
  /-- A name that is bound nowhere else means what it meant at the start. -/
  names : ∀ scopes key, FrameM.firstOf key (scopes ++ [.builtins]) store =
    (do return (← FrameM.firstOf key scopes) <|> builtinEntries.lookup key : StoreM τ _) store
  /-- An error object matches itself and nothing else. -/
  patterns : ∀ error kind, store.test .errorMatch error (ErrorKind.object kind) =
    .ok (error = kind.object)
  /-- There are as many objects as at the start. -/
  room : initialCells.length ≤ store.liveCount

theorem dictLookup_builtins (found : store.payload? .builtins = original .builtins)
    (key : Bytes) : StoreM.dictLookup .builtins key store =
      .ok (builtinEntries.lookup key) store := by
  have table : store.payload? .builtins = some (.dict (Table.ofEntries builtinEntries)) :=
    found.trans original_builtins
  unfold StoreM.dictLookup
  rw [StoreM.get_bind table]
  simp only [StoreM.reading, Outcome.reading, builtins_lookup]

theorem firstOf_builtins (found : store.payload? .builtins = original .builtins)
    (scopes : List Ref) (key : Bytes) : FrameM.firstOf key (scopes ++ [.builtins]) store =
      (do return (← FrameM.firstOf key scopes) <|> builtinEntries.lookup key : StoreM τ _)
        store := by
  induction scopes with
  | nil =>
      refine (StoreM.bind_ok (dictLookup_builtins found key)).trans ?_
      cases builtinEntries.lookup key <;> rfl
  | cons scope scopes ih =>
      rw [List.cons_append, FrameM.firstOf, FrameM.firstOf, bind_assoc]
      cases looked : (StoreM.dictLookup scope key : StoreM τ (Option Ref)) store with
      | error stop after => rw [bind_error looked, bind_error looked]
      | ok value after =>
          obtain rfl := StoreM.dictLookup_keeps looked
          rw [StoreM.bind_ok looked, StoreM.bind_ok looked]
          cases value with
          | none => exact ih
          | some value => rfl

theorem test_errorMatch (originals : ∀ ref, ref.index < initialCells.length → ref ≠ .modules →
    store.payload? ref = original ref) (error : Ref) (kind : ErrorKind) :
    store.test .errorMatch error kind.object = .ok (error = kind.object) := by
  have inside : kind.object.index < initialCells.length := by
    rw [initialCells_length]
    cases kind <;> decide
  have text : original kind.object = some (.string (Bytes.ofString kind.text)) := by
    cases kind <;> rfl
  have found : store.payload? kind.object = some (.string (Bytes.ofString kind.text)) := by
    rw [originals kind.object inside (by cases kind <;> decide), text]
  show store.errorMatches error kind.object = _
  unfold errorMatches
  split
  case isTrue same => rw [decide_eq_true same]
  case isFalse different =>
    rw [get_eq_ok_iff.mpr found, decide_eq_false different]
    rfl

theorem HasOriginals.le_liveCount (originals : store.HasOriginals) :
    initialCells.length ≤ store.liveCount := by
  have taken : (store.cells.toList.take initialCells.length).countP Option.isSome =
      initialCells.length := by
    rw [List.countP_eq_length.mpr, List.length_take_of_le originals.length_le]
    intro slot member
    obtain ⟨index, inside, rfl⟩ := List.getElem_of_mem member
    rw [List.length_take] at inside
    have first : (⟨index⟩ : Ref).index < initialCells.length := by
      show index < _
      omega
    obtain ⟨cell, present⟩ := originals ⟨index⟩ first
    obtain ⟨within, same⟩ := List.getElem?_eq_some_iff.mp (slot_of_cell? present)
    rw [List.getElem_take, same]
    rfl
  have fewer := (List.take_sublist initialCells.length store.cells.toList).countP_le
    (p := Option.isSome)
  rw [taken] at fewer
  rwa [liveCount, ← Array.countP_toList]

/-- A sound store has all it started with. -/
theorem Sound.keepsOriginals (sound : store.Sound held inner) : store.KeepsOriginals where
  originals := sound.originals
  hidden ref payload found member := by
    obtain ⟨role, owned⟩ := Payload.exists_role_of_mem_children member
    exact (sound.fits ref payload found _ role owned).ne_builtins rfl
  names := firstOf_builtins (sound.originals .builtins (by decide) (by decide))
  patterns := test_errorMatch sound.originals
  room := sound.hasOriginals.le_liveCount

end Store

end StackMachine
