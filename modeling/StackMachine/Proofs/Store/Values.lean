import StackMachine.Proofs.Store.Containers
import StackMachine.Proofs.Store.Reading
import StackMachine.Store.Arithmetic

/-!
# Operations on values

Arithmetic and sequences.  Their operands are held by whoever asks, and
each of them leaves one reference with the caller or fails.
-/

namespace StackMachine

variable {τ α : Type} [Tracker τ] {store after : Store τ} {ref value left right : Ref}
variable {held inner refs : List Ref}

namespace Store

/-- None of the objects a store starts with is a frame or an entry of a traceback. -/
theorem original_plain {payload : Payload} (inside : ref.index < initialCells.length)
    (found : original ref = some payload) : Role.value.Allows (some payload.kind) := by
  have all : ∀ index < 19, (original ⟨index⟩).all (fun payload =>
      payload.kind ≠ .frame ∧ payload.kind ≠ .traceback) = true := by
    decide
  have plain := all ref.index (initialCells_length ▸ inside)
  rw [found] at plain
  simpa [Role.Allows] using plain

omit [Tracker τ] in
/-- The objects a store starts with can be used, but for the machine's own
dictionaries. -/
theorem Sound.usable_original (sound : store.Sound held inner)
    (inside : ref.index < initialCells.length) (ne_builtins : ref ≠ .builtins)
    (ne_modules : ref ≠ .modules) : store.Usable ref := by
  obtain ⟨payload, here⟩ := exists_original inside
  have found := (sound.originals ref inside ne_modules).trans here
  refine ⟨⟨payload, found⟩, ne_builtins, ne_modules, ?_⟩
  rw [kind?_eq found]
  exact original_plain inside here

omit [Tracker τ] in
theorem Sound.usable_none (sound : store.Sound held inner) : store.Usable .noneObject :=
  sound.usable_original (by decide) (by decide) (by decide)

omit [Tracker τ] in
theorem Sound.usable_bool (sound : store.Sound held inner) (flag : Bool) :
    store.Usable (.ofBool flag) := by
  cases flag <;> exact sound.usable_original (by decide) (by decide) (by decide)

omit [Tracker τ] in
theorem Sound.usable_error (sound : store.Sound held inner) (kind : ErrorKind) :
    store.Usable kind.object := by
  cases kind <;> exact sound.usable_original (by decide) (by decide) (by decide)

end Store

namespace StoreM

open Store Outcome

/-! ## Making objects -/

/-- An object without parts is made. -/
theorem allocate_leaf_knowing {payload : Payload} (sound : store.Sound held inner)
    (leaf : payload.roles = []) (valid : ∀ table, payload = .dict table → table.Valid)
    (plain : payload.kind ≠ .none ∧ payload.kind ≠ .frame ∧ payload.kind ≠ .traceback) :
    Ends (StoreM.allocate payload store)
      (fun ref after => store.Leaves held inner [ref] after ∧ after.payload? ref = some payload)
      (fun _ => store.Leaves held inner []) := by
  have childless : payload.children = [] := by rw [← Payload.map_fst_roles, leaf, List.map_nil]
  refine Accounts.allocate_knowing (by rwa [childless]) ⟨?_, valid, ?_⟩ ?_
  · intro child role member
    rw [leaf] at member
    cases member
  · rintro rfl
    exact plain.1 rfl
  · exact ⟨by simpa using plain.2.1, by simpa using plain.2.2⟩

theorem Accounts.allocate_leaf {payload : Payload} (sound : store.Sound held inner)
    (leaf : payload.roles = []) (valid : ∀ table, payload = .dict table → table.Valid)
    (plain : payload.kind ≠ .none ∧ payload.kind ≠ .frame ∧ payload.kind ≠ .traceback) :
    Accounts (StoreM.allocate payload) store held inner (fun ref => [ref]) :=
  (allocate_leaf_knowing sound leaf valid plain).imp fun _ _ left => left.1

theorem allocate_int (sound : store.Sound held inner) (value : Int64) :
    Accounts (allocate (.int value)) store held inner (fun ref => [ref]) :=
  .allocate_leaf sound rfl (fun _ => Payload.noConfusion) (by simp [Payload.kind])

theorem allocate_float (sound : store.Sound held inner) (value : Double) :
    Accounts (allocate (.float value)) store held inner (fun ref => [ref]) :=
  .allocate_leaf sound rfl (fun _ => Payload.noConfusion) (by simp [Payload.kind])

theorem allocate_string (sound : store.Sound held inner) (bytes : Bytes) :
    Accounts (allocate (.string bytes)) store held inner (fun ref => [ref]) :=
  .allocate_leaf sound rfl (fun _ => Payload.noConfusion) (by simp [Payload.kind])

theorem allocate_native (sound : store.Sound held inner) (function : Native) :
    Accounts (allocate (.native function)) store held inner (fun ref => [ref]) :=
  .allocate_leaf sound rfl (fun _ => Payload.noConfusion) (by simp [Payload.kind])

/-- A new dictionary is made. -/
theorem allocate_dict_knowing (sound : store.Sound held inner) :
    Ends (StoreM.allocate (.dict .empty) store)
      (fun ref after => store.Leaves held inner [ref] after ∧
        after.payload? ref = some (.dict .empty))
      (fun _ => store.Leaves held inner []) := by
  refine allocate_leaf_knowing sound rfl ?_ (by simp [Payload.kind])
  rintro table same
  obtain rfl := Payload.dict.inj same
  exact Table.valid_empty

theorem allocate_dict (sound : store.Sound held inner) :
    Accounts (allocate (.dict .empty)) store held inner (fun ref => [ref]) :=
  (allocate_dict_knowing sound).imp fun _ _ left => left.1

/-- A list or a tuple is made of items that the caller gives to it. -/
theorem allocate_sequence {pack : Array Ref → Payload} {items : Array Ref}
    (packs : pack = Payload.list ∨ pack = Payload.tuple)
    (sound : store.Sound (items.toList ++ held) inner) :
    Accounts (allocate (pack items)) store held inner (fun ref => [ref]) := by
  have fits : ∀ child role, (child, role) ∈ items.toList.map (·, Role.value) →
      store.Meets child role := by
    intro child role member
    obtain ⟨item, stored, same⟩ := List.mem_map.mp member
    obtain ⟨rfl, rfl⟩ := Prod.mk.inj same
    exact sound.values item (List.mem_append_left _ stored)
  rcases packs with rfl | rfl
  · exact .allocate sound (.of_roles (by simp [Payload.kind]) fits)
      (by simp [Role.Allows, Payload.kind])
  · exact .allocate sound (.of_roles (by simp [Payload.kind]) fits)
      (by simp [Role.Allows, Payload.kind])

theorem allocateItems_accounts {pack : Array Ref → Payload} {items : Array Ref}
    (packs : pack = Payload.list ∨ pack = Payload.tuple) (sound : store.Sound held inner)
    (usable : ∀ item ∈ items.toList, store.Usable item) :
    Accounts (allocateItems pack items) store held inner (fun ref => [ref]) := by
  refine .acquireAll_bind sound usable fun middle middleSound _ => ?_
  exact allocate_sequence packs middleSound

/-! ## Looking keys up -/

omit [Tracker τ] in
/-- What a key is found to be bound to is in the table. -/
theorem lookup_ends {table : Table Ref} {fails : Cause → Store τ → Prop} (valid : table.Valid)
    (key : Bytes) :
    Ends ((reading fun _ => table.lookup key : StoreM τ (Option Ref)) store)
      (fun found? final => final = store ∧ ∀ value, found? = some value → value ∈ table.values)
      fails := by
  refine Ends.reading ?_ ?_ (intact_lookup table key)
  · intro found? answer
    refine ⟨rfl, ?_⟩
    rintro value rfl
    unfold Table.lookup at answer
    split at answer
    · rename_i index ended
      have found : table.find? key = some value := by
        rw [Table.find?, ended]
        exact Except.ok.inj answer
      exact List.mem_map_of_mem (valid.find?_eq_some_iff.mp found)
    · cases answer
    · cases answer
  · intro cause answer
    unfold Table.lookup at answer
    split at answer <;> cases answer

omit [Tracker τ] in
theorem dictLookup_ends {fails : Cause → Store τ → Prop} (sound : store.Sound held inner)
    (filled : store.Filled ref) (key : Bytes) :
    Ends ((dictLookup ref key : StoreM τ (Option Ref)) store)
      (fun found? final => final = store ∧
        ∀ value, found? = some value → store.Usable value) fails := by
  obtain ⟨payload, found⟩ := filled
  unfold dictLookup
  rw [StoreM.get_bind found]
  split
  · rename_i table
    refine (lookup_ends (sound.tables ref table found) key).imp ?_
    rintro found? final ⟨same, known⟩
    refine ⟨same, fun value here => ?_⟩
    have role : (value, Role.value) ∈ table.values.map (·, Role.value) :=
      List.mem_map.mpr ⟨value, known value here, rfl⟩
    exact sound.usable_child found role ⟨nofun, nofun⟩
  · exact ⟨rfl, nofun⟩

/-! ## Sequences -/

section Sequences

variable (sound : store.Sound held inner)

include sound

omit [Tracker τ] in
theorem usable_items {items : Array Ref}
    (found : store.payload? ref = some (.list items) ∨ store.payload? ref = some (.tuple items)) :
    ∀ item ∈ items.toList, store.Usable item := by
  intro item member
  have role : (item, Role.value) ∈ items.toList.map (·, Role.value) :=
    List.mem_map.mpr ⟨item, member, rfl⟩
  rcases found with list | tuple
  · exact sound.usable_child list role ⟨nofun, nofun⟩
  · exact sound.usable_child tuple role ⟨nofun, nofun⟩

omit [Tracker τ] in
theorem usable_entry {table : Table Ref} (found : store.payload? ref = some (.dict table))
    (member : value ∈ table.values) : store.Usable value :=
  sound.usable_child found (List.mem_map.mpr ⟨value, member, rfl⟩) ⟨nofun, nofun⟩

theorem concat_accounts (leftHeld : left ∈ held) (rightHeld : right ∈ held) :
    Accounts (concat left right) store held inner (fun ref => [ref]) := by
  obtain ⟨leftPayload, leftFound⟩ := (sound.usable leftHeld).filled
  obtain ⟨rightPayload, rightFound⟩ := (sound.usable rightHeld).filled
  refine .get_bind leftFound (.get_bind rightFound ?_)
  split
  · split
    · exact .acquire sound (sound.usable leftHeld)
    split
    · exact .acquire sound (sound.usable rightHeld)
    · exact allocate_string sound _
  · split
    · exact .acquire sound (sound.usable leftHeld)
    split
    · exact .acquire sound (sound.usable rightHeld)
    · refine allocateItems_accounts (Or.inr rfl) sound ?_
      intro item member
      rcases List.mem_append.mp (Array.toList_append ▸ member) with first | second
      · exact usable_items sound (Or.inr leftFound) item first
      · exact usable_items sound (Or.inr rightFound) item second
  · refine allocateItems_accounts (Or.inl rfl) sound ?_
    intro item member
    rcases List.mem_append.mp (Array.toList_append ▸ member) with first | second
    · exact usable_items sound (Or.inl leftFound) item first
    · exact usable_items sound (Or.inl rightFound) item second
  · exact .raise sound

omit [Tracker τ] in
theorem itemAt_accounts {items : Array Ref} (kind : Kind) (index : Int64)
    (usable : ∀ item ∈ items.toList, store.Usable item) :
    Accounts (itemAt kind items index) store held inner (fun ref => [ref]) := by
  unfold itemAt
  split
  · rename_i item found
    obtain ⟨position, -, stored⟩ := Option.bind_eq_some_iff.mp found
    refine .acquire sound (usable item ?_)
    exact Array.mem_toList_iff.mpr (Array.mem_of_getElem? stored)
  · exact .raise sound

theorem index_accounts (member : ref ∈ held) (index : Int64) :
    Accounts (StoreM.index ref index) store held inner (fun ref => [ref]) := by
  obtain ⟨payload, found⟩ := (sound.usable member).filled
  refine .get_bind found ?_
  split
  · split
    · exact allocate_string sound _
    · exact .raise sound
  · exact itemAt_accounts sound _ _ (usable_items sound (Or.inl found))
  · exact itemAt_accounts sound _ _ (usable_items sound (Or.inr found))
  · exact .raise sound

theorem loopItem_accounts (member : ref ∈ held) (position : Nat) :
    Accounts (loopItem ref position) store held inner Option.toList := by
  obtain ⟨payload, found⟩ := (sound.usable member).filled
  refine .get_bind found ?_
  split
  · split
    · exact .pure sound
    · split
      · exact Ends.map (index_accounts sound member _)
      · exact .raise sound
  · exact .raise sound

theorem slice_accounts (member : ref ∈ held) (low high : Option Int64) :
    Accounts (slice ref low high) store held inner (fun ref => [ref]) := by
  obtain ⟨payload, found⟩ := (sound.usable member).filled
  have part : ∀ {items : Array Ref} {start stop : Nat},
      (∀ item ∈ items.toList, store.Usable item) →
      ∀ item ∈ (items.extract start stop).toList, store.Usable item := by
    intro items start stop usable item inside
    rw [Array.toList_extract, List.extract_eq_take_drop] at inside
    exact usable item (List.mem_of_mem_drop (List.mem_of_mem_take inside))
  refine .get_bind found ?_
  split
  · split
    split
    · exact .acquire sound (sound.usable member)
    · exact allocate_string sound _
  · split
    split
    · exact .acquire sound (sound.usable member)
    · exact allocateItems_accounts (Or.inr rfl) sound (part (usable_items sound (Or.inr found)))
  · split
    exact allocateItems_accounts (Or.inl rfl) sound (part (usable_items sound (Or.inl found)))
  · exact .raise sound

theorem subscript_accounts {key : Ref} (member : ref ∈ held) (keyHeld : key ∈ held) :
    Accounts (subscript ref key) store held inner (fun ref => [ref]) := by
  obtain ⟨payload, found⟩ := (sound.usable member).filled
  obtain ⟨keyPayload, keyFound⟩ := (sound.usable keyHeld).filled
  refine .get_bind found (.get_bind keyFound ?_)
  split
  · rename_i table name
    refine Ends.bind (lookup_ends (sound.tables ref table found) name) ?_
    rintro found? _ ⟨rfl, known⟩
    cases found? with
    | none => exact Accounts.raise sound
    | some value => exact Accounts.acquire sound (usable_entry sound found (known value rfl))
  · exact .raise sound
  · split
    · split
      · exact index_accounts sound member _
      · exact .raise sound
    · exact .raise sound

/-! ## Arithmetic -/

theorem arithmetic_accounts (operation : Arithmetic) (leftHeld : left ∈ held)
    (rightHeld : right ∈ held) :
    Accounts (arithmetic operation left right) store held inner (fun ref => [ref]) := by
  obtain ⟨leftPayload, leftFound⟩ := (sound.usable leftHeld).filled
  obtain ⟨rightPayload, rightFound⟩ := (sound.usable rightHeld).filled
  refine .get_bind leftFound (.get_bind rightFound ?_)
  split
  · split
    · exact allocate_int sound _
    · exact .raise sound
  · exact allocate_float sound _
  · split
    · exact concat_accounts sound leftHeld rightHeld
    · exact .raise sound

theorem negate_accounts (member : ref ∈ held) :
    Accounts (negate ref) store held inner (fun ref => [ref]) := by
  obtain ⟨payload, found⟩ := (sound.usable member).filled
  refine .get_bind found ?_
  split
  · exact allocate_int sound _
  · exact allocate_float sound _
  · exact .raise sound

end Sequences

end StoreM

end StackMachine
