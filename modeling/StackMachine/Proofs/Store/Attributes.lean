import StackMachine.Proofs.Store.Values
import StackMachine.Store.Attributes

/-!
# Attributes and modules

An attribute is read from or written to the dictionary of an object that is held.
That dictionary belongs to the object, which keeps it in place while it changes.
-/

namespace StackMachine.StoreM

open Store Outcome

variable {τ : Type} {store after : Store τ} {ref value : Ref} {held inner : List Ref}

/-- The dictionary of an object that someone holds stays where it is. -/
theorem secured_part {payload : Payload} {child : Ref} {kind : Kind} {taken : List Ref}
    (sound : store.Sound taken inner) (member : ref ∈ roots ++ (held ++ inner))
    (found : store.payload? ref = some payload)
    (part : (child, Role.of kind) ∈ payload.roles) (different : payload.kind ≠ kind) :
    store.Secured (roots ++ (held ++ inner)) child := by
  have expected : store.kind? child = some kind := (sound.fits ref payload found _ _ part).allowed
  refine Or.inr ⟨ref, member, ?_, payload, found, Payload.mem_children_of_mem_roles part⟩
  rintro rfl
  rw [kind?_eq found] at expected
  exact different (Option.some.inj expected)

theorem acquireNamed_accounts {found? : Option Ref} (sound : store.Sound held inner)
    (name : String) (usable : ∀ value, found? = some value → store.Usable value) :
    Accounts (acquireNamed name found?) store held inner (fun ref => [ref]) := by
  cases found? with
  | none => exact .raise sound
  | some value => exact .acquire sound (usable value rfl)

/-- A key is looked up before an operation goes on. -/
theorem Accounts.dictLookup_bind {α : Type} {gives : α → List Ref} {taken : List Ref}
    {next : Option Ref → StoreM τ α} (sound : store.Sound taken inner)
    (filled : store.Filled ref) (key : Bytes)
    (rest : ∀ found?, (∀ value, found? = some value → store.Usable value) →
      Accounts (next found?) store held inner gives) :
    Accounts (dictLookup ref key >>= next) store held inner gives := by
  refine Ends.bind (dictLookup_ends sound filled key) ?_
  rintro found? _ ⟨rfl, usable⟩
  exact rest found? usable

variable [Tracker τ]

/-! ## Reading and assigning -/

theorem bind_accounts {function member : Ref} (sound : store.Sound held inner)
    (functionUsable : store.Usable function) (memberUsable : store.Usable member)
    (isFunction : store.kind? function = some .function)
    (isMember : store.kind? member = some .classMember) :
    Accounts (StoreM.bind function member) store held inner (fun ref => [ref]) := by
  refine .acquire_bind sound functionUsable fun first firstSound same => ?_
  refine .acquire_bind firstSound (same.usable memberUsable) fun second secondSound same' => ?_
  have kinds : ∀ ref, second.kind? ref = store.kind? ref := by
    intro ref
    rw [kind?, kind?, same' ref, same ref]
  refine .allocate (secondSound.perm (List.Perm.swap _ _ _) (List.Perm.refl _))
    (.of_roles (by simp [Payload.kind]) ?_) (by simp [Role.Allows, Payload.kind])
  intro child role part
  simp only [Payload.roles, List.mem_cons, Prod.mk.injEq, List.not_mem_nil, or_false] at part
  rcases part with ⟨rfl, rfl⟩ | ⟨rfl, rfl⟩
  · exact ⟨functionUsable.meets.ne_builtins, functionUsable.meets.ne_modules,
      (kinds _).trans isFunction⟩
  · exact ⟨memberUsable.meets.ne_builtins, memberUsable.meets.ne_modules,
      (kinds _).trans isMember⟩

theorem loadAttr_accounts (sound : store.Sound held inner) (member : ref ∈ held)
    (name : String) : Accounts (loadAttr ref name) store held inner (fun ref => [ref]) := by
  obtain ⟨payload, found⟩ := (sound.usable member).filled
  have part : ∀ child kind, (child, Role.of kind) ∈ payload.roles →
      kind ≠ .frame ∧ kind ≠ .traceback → store.Usable child := by
    intro child kind here plain
    exact sound.usable_child found here (by simpa using plain)
  refine .get_bind found ?_
  split
  · rename_i title attrs
    have attrsUsable := part attrs .dictionary (by simp [Payload.roles]) (by simp)
    split
    · exact .acquire sound attrsUsable
    split
    · exact .acquire sound (part title .string (by simp [Payload.roles]) (by simp))
    · exact .dictLookup_bind sound attrsUsable.filled _ fun _ =>
        acquireNamed_accounts sound name
  · rename_i attrs
    have attrsUsable := part attrs .dictionary (by simp [Payload.roles]) (by simp)
    exact .dictLookup_bind sound attrsUsable.filled _ fun _ => acquireNamed_accounts sound name
  · rename_i owner attrs
    have attrsUsable := part attrs .dictionary (by simp [Payload.roles]) (by simp)
    refine .dictLookup_bind sound attrsUsable.filled _ fun own? ownUsable => ?_
    split
    · rename_i value
      exact .acquire sound (ownUsable value rfl)
    · obtain ⟨ownerPayload, ownerFound⟩ :=
        (part owner .class_ (by simp [Payload.roles]) (by simp)).filled
      refine .get_bind ownerFound ?_
      split
      · rename_i shared
        have sharedUsable : store.Usable shared :=
          sound.usable_child ownerFound (by simp [Payload.roles]; rfl) (by simp)
        refine .dictLookup_bind sound sharedUsable.filled _ fun shared? sharedUsable => ?_
        split
        · exact .raise sound
        · rename_i value
          have usable := sharedUsable value rfl
          obtain ⟨content, valueFound⟩ := usable.filled
          refine .get_bind valueFound ?_
          split
          · exact bind_accounts sound usable (sound.usable member) (kind?_eq valueFound)
              (kind?_eq found)
          · exact .acquire sound usable
      · exact .raise sound
  · exact .raise sound

theorem storeAttr_accounts (sound : store.Sound (value :: held) inner) (member : ref ∈ held)
    (name : String) : Accounts (storeAttr ref name value) store held inner (fun _ => []) := by
  obtain ⟨payload, found⟩ := (sound.usable (List.mem_cons_of_mem _ member)).filled
  have anchored : ref ∈ roots ++ (held ++ inner) :=
    List.mem_append_right _ (List.mem_append_left _ member)
  have insert : ∀ attrs, (attrs, Role.of .dictionary) ∈ payload.roles →
      payload.kind ≠ .dictionary →
      Accounts (dictInsert attrs (Bytes.ofString name) value) store held inner (fun _ => []) := by
    intro attrs part different
    exact dictInsert_accounts sound (secured_part sound anchored found part different)
      (sound.fits ref payload found _ _ part).ne_builtins _
  have refuse : ∀ cause, Accounts (do release value; StoreM.raise cause : StoreM τ Unit)
      store held inner (fun _ => []) := by
    intro cause
    exact .releaseAll_bind sound (List.Subset.refl _) fun final left => .raise left.sound
  refine .get_bind found ?_
  split
  · exact insert _ (by simp [Payload.roles]) (by simp [Payload.kind])
  · split
    · exact refuse _
    · exact insert _ (by simp [Payload.roles]) (by simp [Payload.kind])
  · exact refuse _

/-! ## Modules -/

theorem enterModule_accounts {module : Ref} (sound : store.Sound (module :: held) inner)
    (name : String) : Accounts (enterModule name module) store held inner (fun ref => [ref]) := by
  have usable := sound.usable List.mem_cons_self
  refine .acquire_bind sound usable fun first firstSound same => ?_
  have inserted := dictInsert_accounts firstSound
    (Or.inl (List.mem_append_left _ (by decide)) : first.Secured _ .modules) (by decide)
    (Bytes.ofString name)
  exact .bind inserted.orRelease fun _ final left => .pure left.sound

/-- A module is made of a dictionary that the caller gives to it. -/
theorem newModule_accounts {attrs : Ref} (sound : store.Sound (attrs :: held) inner)
    (isDict : store.kind? attrs = some .dictionary) (name : String) :
    Accounts (newModule name attrs) store held inner (fun ref => [ref]) := by
  have meets := sound.values attrs List.mem_cons_self
  obtain ⟨payload, found⟩ := (sound.usable List.mem_cons_self).filled
  have titled : Ends (StoreM.allocate (.string (Bytes.ofString name)) store)
      (fun title after => store.Leaves ([attrs] ++ held) inner [title] after ∧
        after.payload? title = some (.string (Bytes.ofString name)))
      (fun _ => store.Leaves ([attrs] ++ held) inner []) :=
    allocate_leaf_knowing sound rfl (fun _ => Payload.noConfusion) (by simp [Payload.kind])
  refine Ends.bind (Accounts.orRelease_ends titled) ?_
  rintro title middle ⟨left, titleFound⟩
  have kept : middle.kind? attrs = some .dictionary := by
    rw [left.keeps.kind?_eq (by simp) found, ← kind?_eq found, isDict]
  have titleMeets := left.sound.values title List.mem_cons_self
  refine Accounts.after_keeping (left.keeps.mono (by simp)) ?_
  refine .allocate left.sound (.of_roles (by simp [Payload.kind]) ?_)
    (by simp [Role.Allows, Payload.kind])
  intro child role part
  simp only [Payload.roles, List.mem_cons, Prod.mk.injEq, List.not_mem_nil, or_false] at part
  rcases part with ⟨rfl, rfl⟩ | ⟨rfl, rfl⟩
  · exact ⟨titleMeets.ne_builtins, titleMeets.ne_modules, kind?_eq titleFound⟩
  · exact ⟨meets.ne_builtins, meets.ne_modules, kept⟩

theorem registerModule_accounts (sound : store.Sound held inner) (name : String) :
    Accounts (registerModule name) store held inner (fun ref => [ref]) := by
  refine Ends.bind (allocate_dict_knowing sound) ?_
  rintro attrs middle ⟨left, found⟩
  refine Accounts.after_keeping left.keeps ?_
  exact .bind (newModule_accounts left.sound (kind?_eq found) name) fun module final rest =>
    enterModule_accounts rest.sound name

theorem installMath_accounts {attrs : Ref} (sound : store.Sound held inner)
    (member : attrs ∈ held) (functions : List MathFunction) :
    Accounts (installMath attrs functions) store held inner (fun _ => []) := by
  induction functions generalizing store with
  | nil => exact .pure sound
  | cons function rest ih =>
      refine .bind (allocate_native sound _) fun value middle left => ?_
      have inserted := dictInsert_accounts left.sound
        (Or.inl (List.mem_append_right _ (List.mem_append_left _ member)))
        (left.sound.values attrs (List.mem_cons_of_mem _ member)).ne_builtins
        (Bytes.ofString function.name)
      exact .bind inserted fun _ final rest => ih rest.sound

theorem newMath_accounts (sound : store.Sound held inner) :
    Accounts newMath store held inner (fun ref => [ref]) := by
  refine Ends.bind (allocate_dict_knowing sound) ?_
  rintro attrs middle ⟨left, found⟩
  refine Accounts.after_keeping left.keeps ?_
  have installed := installMath_accounts left.sound List.mem_cons_self MathFunction.all
  refine Ends.bind (Accounts.orRelease_ends installed) ?_
  intro _ final rest
  refine Accounts.after_keeping (rest.keeps.mono (by simp)) ?_
  exact newModule_accounts rest.sound (rest.keeps.kind?_eq (by simp) found) mathName

theorem importModule_accounts (sound : store.Sound held inner) (name : String) :
    Accounts (importModule name) store held inner (fun ref => [ref]) := by
  refine .dictLookup_bind sound sound.modules_payload _ fun found? usable => ?_
  split
  · rename_i module
    exact .acquire sound (usable module rfl)
  · split
    · exact .bind (newMath_accounts sound) fun module final left =>
        enterModule_accounts left.sound name
    · exact .raise sound

end StackMachine.StoreM
