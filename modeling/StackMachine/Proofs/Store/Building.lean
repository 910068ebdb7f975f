import StackMachine.Proofs.Store.Natives
import StackMachine.Store.Conversion
import StackMachine.Store.Loading

/-!
# Building objects from values and images

Values and images nest, and so do the objects built from them.  Where one part cannot
be built, the parts built before it are given back, so that either the whole is left
with the caller or nothing is.
-/

namespace StackMachine.StoreM

open Store Outcome

variable {τ α : Type} [Tracker τ] {store : Store τ} {held inner : List Ref}

/-! ## Images -/

/-- Code is made of constants that the caller gives to it. -/
theorem allocate_code_knowing {object : CodeObject}
    (sound : store.Sound (object.constants.toList ++ held) inner) :
    Ends (allocate (.code object) store)
      (fun ref after => store.Leaves held inner [ref] after ∧
        after.payload? ref = some (.code object))
      (fun _ => store.Leaves held inner []) := by
  refine Accounts.allocate_knowing sound (.of_roles (by simp [Payload.kind]) ?_)
    (by simp [Role.Allows, Payload.kind])
  intro child role member
  obtain ⟨constant, stored, same⟩ := List.mem_map.mp member
  obtain ⟨rfl, rfl⟩ := Prod.mk.inj same
  exact sound.values constant (List.mem_append_left _ stored)

theorem allocate_code {object : CodeObject}
    (sound : store.Sound (object.constants.toList ++ held) inner) :
    Accounts (allocate (.code object)) store held inner (fun ref => [ref]) :=
  (allocate_code_knowing sound).imp fun _ _ left => left.1

mutual

theorem loadImage_accounts (image : Image) {store : Store τ} {held : List Ref}
    (sound : store.Sound held inner) :
    Accounts (loadImage image) store held inner (fun ref => [ref]) := by
  match image with
  | { file, bytecode, constants, names } =>
      unfold loadImage
      have owned : store.Sound ((#[] : Array Ref).toList ++ held) inner := sound
      exact .bind (loadConstants_accounts constants owned) fun loaded final left =>
        allocate_code left.sound

theorem loadConstant_accounts (constant : Constant) {store : Store τ} {held : List Ref}
    (sound : store.Sound held inner) :
    Accounts (loadConstant constant) store held inner (fun ref => [ref]) := by
  match constant with
  | .none =>
      unfold loadConstant
      exact .acquire sound sound.usable_none
  | .int value =>
      unfold loadConstant
      exact allocate_int sound value
  | .float value =>
      unfold loadConstant
      exact allocate_float sound value
  | .text value =>
      unfold loadConstant
      exact allocate_string sound _
  | .code image =>
      unfold loadConstant
      exact loadImage_accounts image sound

theorem loadConstants_accounts (constants : List Constant) {store : Store τ} {held : List Ref}
    {loaded : Array Ref} (sound : store.Sound (loaded.toList ++ held) inner) :
    Accounts (loadConstants constants loaded) store held inner Array.toList := by
  match constants with
  | [] =>
      unfold loadConstants
      exact .pure sound
  | constant :: rest =>
      unfold loadConstants
      exact .collect (loadConstant_accounts constant sound) fun ref final finalSound =>
        loadConstants_accounts rest finalSound

end

/-! ## Values -/

omit [Tracker τ] in
theorem asInput_ends {act : StoreM τ α} {returns : α → Store τ → Prop}
    {fails : InputError → Store τ → Prop} {failure : Cause → InputError}
    (ends : Ends (act store) returns fun cause => fails (failure cause)) :
    Ends ((StoreM.asInput failure act : Input τ α) store) returns fails := by
  unfold StoreM.asInput
  cases result : act store with
  | ok value final =>
      rw [result] at ends
      exact ends
  | error stop final =>
      rw [result] at ends
      cases stop with
      | failed cause => exact ends
      | fault broken => exact ends
      | unfinished => trivial

omit [Tracker τ] in
theorem Accounts.asInput {act : StoreM τ α} {gives : α → List Ref}
    (accounts : Accounts act store held inner gives) (failure : Cause → InputError) :
    Accounts (StoreM.asInput failure act) store held inner gives :=
  asInput_ends accounts

/-- What waited for a value that was not built is given back. -/
theorem abandon_ends {refs : List Ref} {returns : α → Store τ → Prop}
    (sound : store.Sound (refs ++ held) inner) (error : InputError) :
    Ends ((abandon refs error : Input τ α) store) returns fun _ => store.Leaves held inner [] := by
  obtain ⟨final, released, left, -⟩ := releaseAll_sound sound
  have given : (StoreM.asInput .raised (releaseAll refs) : Input τ Unit) store = .ok () final := by
    unfold StoreM.asInput
    rw [released]
  unfold abandon
  rw [bind_ok given]
  exact left

/-- A value is built while others wait for it. -/
theorem Accounts.build_next {act : Input τ Ref} {next : Ref → Input τ α} {waiting : List Ref}
    {returns : α → Store τ → Prop}
    (accounts : Accounts act store (waiting ++ held) inner (fun ref => [ref]))
    (rest : ∀ ref after, after.Sound (ref :: (waiting ++ held)) inner →
      Keeps (held ++ inner) store after →
      Ends (next ref after) returns fun _ => store.Leaves held inner []) :
    Ends ((do
      match ← Outcome.attempt act with
      | .ok ref => next ref
      | .error error => abandon waiting error : Input τ α) store) returns
      fun _ => store.Leaves held inner [] := by
  refine Ends.bind (accounts.attempt _) ?_
  intro result middle left
  have kept : Keeps (held ++ inner) store middle := left.keeps.mono (by
    rw [List.append_assoc]
    exact List.subset_append_right _ _)
  cases result with
  | ok ref => exact rest ref middle left.sound kept
  | error error =>
      have sound : middle.Sound (waiting ++ held) inner := left.sound
      refine (abandon_ends sound error).mono (fun _ _ => id) ?_
      rintro _ final ⟨finalSound, later⟩
      exact ⟨finalSound, kept.trans later⟩

/-- A table that is not in the store yet is valid, and its values are in the hands of
the caller. -/
def LeavesTable (before : Store τ) (held inner : List Ref) (table : Table Ref)
    (after : Store τ) : Prop :=
  before.Leaves held inner table.values after ∧ table.Valid

theorem tableInsert_leaves {table : Table Ref} (valid : table.Valid) (key : Bytes) {value : Ref}
    (sound : store.Sound (value :: (table.values ++ held)) inner) {fails : Cause → Store τ → Prop} :
    Ends ((tableInsert key value table : StoreM τ _) store)
      (fun result after => LeavesTable store held inner result.1 after) fails := by
  have owed : store.Exact (table.values ++ ([value] ++ (roots ++ (held ++ inner)))) := by
    refine sound.exact.perm (List.perm_iff_count.mpr fun ref => ?_)
    simp only [List.cons_append, List.count_append, List.count_cons, List.count_nil]
    omega
  refine (tableInsert_works valid key value store _ owed).mono ?_ (fun _ _ => False.elim)
  rintro ⟨result, outcome⟩ after ⟨exact, remains, resultValid, known⟩
  have exact' : after.Exact (roots ++ ((result.values ++ held) ++ inner)) := by
    refine exact.perm ?_
    rw [List.append_assoc]
    exact List.perm_append_comm_assoc _ _ _
  refine ⟨⟨sound.of_remains remains exact' ?_, ?_⟩, resultValid⟩
  · intro ref member
    refine sound.values ref ?_
    simp only [List.mem_cons, List.mem_append] at member ⊢
    rcases member with stored | kept
    · rcases known ref stored with former | new
      · exact Or.inr (Or.inl former)
      · exact Or.inl (List.mem_singleton.mp new)
    · exact Or.inr (Or.inr kept)
  · exact (Sound.keeps_of_remains remains exact').mono (by simp)

theorem inputEntry_ends {table : Table Ref} (valid : table.Valid) (key : String) {value : Ref}
    (sound : store.Sound (value :: (table.values ++ held)) inner) :
    Ends ((inputEntry table key value : Input τ _) store)
      (fun result => LeavesTable store held inner result)
      (fun _ => store.Leaves held inner []) := by
  have inserted : Ends ((StoreM.asInput .raised
        (tableInsert (Bytes.ofString key) value table) : Input τ _) store)
      (fun result after => LeavesTable store held inner result.1 after)
      (fun _ => store.Leaves held inner []) :=
    asInput_ends (tableInsert_leaves valid _ sound)
  refine Ends.bind inserted ?_
  rintro ⟨result, outcome⟩ middle ⟨left, resultValid⟩
  cases outcome with
  | ok _ => exact ⟨left, resultValid⟩
  | error cause =>
      refine (abandon_ends left.sound _).mono (fun _ _ => id) ?_
      rintro _ final rest
      exact left.trans rest

/-- A dictionary is made of a table that is in the hands of the caller. -/
theorem allocate_table {table : Table Ref} (valid : table.Valid)
    (sound : store.Sound (table.values ++ held) inner) :
    Accounts (allocate (.dict table)) store held inner (fun ref => [ref]) := by
  refine .allocate sound ⟨?_, ?_, Payload.noConfusion⟩ (by simp [Role.Allows, Payload.kind])
  · intro child role member
    obtain ⟨value, stored, same⟩ := List.mem_map.mp member
    obtain ⟨rfl, rfl⟩ := Prod.mk.inj same
    exact sound.values value (List.mem_append_left _ stored)
  · rintro _ same
    obtain rfl := Payload.dict.inj same
    exact valid

mutual

theorem ofObject_accounts (object : Object) {store : Store τ} {held : List Ref}
    (sound : store.Sound held inner) :
    Accounts (ofObject object) store held inner (fun ref => [ref]) := by
  match object with
  | .none =>
      unfold ofObject
      exact (Accounts.acquire sound sound.usable_none).asInput _
  | .int value =>
      unfold ofObject
      exact (allocate_int sound value).asInput _
  | .float value =>
      unfold ofObject
      exact (allocate_float sound value).asInput _
  | .string text =>
      unfold ofObject
      exact (allocate_string sound _).asInput _
  | .list items =>
      unfold ofObject
      have owned : store.Sound ((#[] : Array Ref).toList ++ held) inner := sound
      exact .bind (ofItems_accounts items owned) fun made final left =>
        (allocate_sequence (Or.inl rfl) left.sound).asInput _
  | .tuple items =>
      unfold ofObject
      have owned : store.Sound ((#[] : Array Ref).toList ++ held) inner := sound
      exact .bind (ofItems_accounts items owned) fun made final left =>
        (allocate_sequence (Or.inr rfl) left.sound).asInput _
  | .dict entries =>
      unfold ofObject
      have owned : store.Sound ((Table.empty : Table Ref).values ++ held) inner := sound
      refine Ends.bind (ofEntries_ends entries Table.valid_empty owned) ?_
      rintro table final ⟨left, valid⟩
      exact Accounts.after_keeping left.keeps ((allocate_table valid left.sound).asInput _)
  | .module _ =>
      unfold ofObject
      exact .throw sound
  | .repr _ =>
      unfold ofObject
      exact .throw sound
  | .cycle _ _ =>
      unfold ofObject
      exact .throw sound

theorem ofItems_accounts (items : List Object) {store : Store τ} {held : List Ref}
    {made : Array Ref} (sound : store.Sound (made.toList ++ held) inner) :
    Accounts (ofItems items made) store held inner Array.toList := by
  match items with
  | [] =>
      unfold ofItems
      exact .pure sound
  | item :: rest =>
      unfold ofItems
      refine Accounts.build_next (ofObject_accounts item sound) fun ref final finalSound keeps => ?_
      refine Accounts.after_keeping keeps (ofItems_accounts rest ?_)
      refine finalSound.perm ?_ (List.Perm.refl _)
      rw [Array.toList_push, List.append_assoc]
      exact List.perm_middle.symm

theorem ofEntries_ends (entries : List (String × Object)) {store : Store τ} {held : List Ref}
    {table : Table Ref} (valid : table.Valid) (sound : store.Sound (table.values ++ held) inner) :
    Ends ((ofEntries entries table : Input τ _) store)
      (fun result => LeavesTable store held inner result)
      (fun _ => store.Leaves held inner []) := by
  match entries with
  | [] =>
      unfold ofEntries
      exact ⟨⟨sound, Keeps.refl _ store⟩, valid⟩
  | entry :: rest =>
      unfold ofEntries
      refine Ends.bind (ofEntry_ends entry valid sound) ?_
      rintro result middle ⟨left, resultValid⟩
      refine (ofEntries_ends rest resultValid left.sound).mono ?_ ?_
      · rintro last final ⟨later, lastValid⟩
        exact ⟨left.trans later, lastValid⟩
      · rintro _ final later
        exact left.trans later

theorem ofEntry_ends (entry : String × Object) {store : Store τ} {held : List Ref}
    {table : Table Ref} (valid : table.Valid) (sound : store.Sound (table.values ++ held) inner) :
    Ends ((ofEntry entry table : Input τ _) store)
      (fun result => LeavesTable store held inner result)
      (fun _ => store.Leaves held inner []) := by
  match entry with
  | (key, object) =>
      unfold ofEntry
      refine Accounts.build_next (ofObject_accounts object sound)
        fun ref middle middleSound keeps => ?_
      refine (inputEntry_ends valid key middleSound).mono ?_ ?_
      · rintro result final ⟨left, resultValid⟩
        exact ⟨⟨left.sound, keeps.trans left.keeps⟩, resultValid⟩
      · rintro _ final left
        exact ⟨left.sound, keeps.trans left.keeps⟩

end

end StackMachine.StoreM
