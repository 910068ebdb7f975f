import StackMachine.Proofs.Ending
import StackMachine.Proofs.Store.Counting
import StackMachine.Proofs.Table.Binding
import StackMachine.Store.Roots

/-!
# Sound stores

A store is sound if its counts are exact, no object is lent, and every object is
made of objects of the kinds it has to be made of.  The references outside the
store come in three groups: the roots, which the machine holds from the start;
`held`, which are values that programs and hosts may get hold of; and `inner`, the
frames and the entries of the traceback, which they never see.

`Keeps` says what an operation leaves of the objects that others hold: lists, tuples
and dictionaries may change what is in them, every other object stays as it is.
-/

namespace StackMachine

/-! ## Kinds of children -/

/-- What an object that is part of another may be. -/
inductive Role where
  /-- Any object that a program may get hold of. -/
  | value
  /-- An object of one kind. -/
  | of (kind : Kind)
  deriving DecidableEq

/-- May an object of the given kind play the role? -/
def Role.Allows : Role → Option Kind → Prop
  | value, kind => kind ≠ some .frame ∧ kind ≠ some .traceback
  | of expected, kind => kind = some expected

namespace Payload

/-- The references an object owns, each with what has to be there. -/
def roles : Payload → List (Ref × Role)
  | none | int _ | float _ | string _ | native _ => []
  | list items => items.toList.map (·, .value)
  | tuple items => items.toList.map (·, .value)
  | dict table => table.values.map (·, .value)
  | module title attrs => [(title, .of .string), (attrs, .of .dictionary)]
  | function program globals => [(program, .of .code), (globals, .of .dictionary)]
  | class_ attrs => [(attrs, .of .dictionary)]
  | member owner attrs => [(owner, .of .class_), (attrs, .of .dictionary)]
  | method callee self => [(callee, .of .function), (self, .of .classMember)]
  | code object => object.constants.toList.map (·, .value)
  | frame back program globals locals =>
      back.toList.map (·, .of .frame) ++
        [(program, .of .code), (globals, .of .dictionary), (locals, .of .dictionary)]
  | traceback next owner _ => next.toList.map (·, .of .traceback) ++ [(owner, .of .frame)]

theorem map_fst_roles (payload : Payload) : payload.roles.map Prod.fst = payload.children := by
  cases payload <;> simp [roles, children, Function.comp_def]

theorem mem_children_of_mem_roles {payload : Payload} {child : Ref} {role : Role}
    (member : (child, role) ∈ payload.roles) : child ∈ payload.children := by
  rw [← map_fst_roles]
  exact List.mem_map.mpr ⟨(child, role), member, rfl⟩

theorem exists_role_of_mem_children {payload : Payload} {child : Ref}
    (member : child ∈ payload.children) : ∃ role, (child, role) ∈ payload.roles := by
  rw [← map_fst_roles] at member
  obtain ⟨⟨ref, role⟩, found, rfl⟩ := List.mem_map.mp member
  exact ⟨role, found⟩

/-- What may become of an object while others hold it. -/
inductive Becomes : Payload → Payload → Prop where
  | same (payload : Payload) : Becomes payload payload
  | list (old new : Array Ref) : Becomes (.list old) (.list new)
  | tuple (old new : Array Ref) : Becomes (.tuple old) (.tuple new)
  | dict (old new : Table Ref) : Becomes (.dict old) (.dict new)

theorem Becomes.trans {first second third : Payload} (earlier : first.Becomes second)
    (later : second.Becomes third) : first.Becomes third := by
  cases earlier with
  | same => exact later
  | list => cases later <;> exact .list _ _
  | tuple => cases later <;> exact .tuple _ _
  | dict => cases later <;> exact .dict _ _

/-- Does the object change while others hold it? -/
def isContainer : Payload → Bool
  | .list _ | .tuple _ | .dict _ => true
  | _ => false

theorem Becomes.eq_of_fixed {first second : Payload} (becomes : first.Becomes second)
    (fixed : first.isContainer = false) : second = first := by
  cases becomes with
  | same => rfl
  | list => cases fixed
  | tuple => cases fixed
  | dict => cases fixed

theorem Becomes.kind_eq {first second : Payload} (becomes : first.Becomes second) :
    second.kind = first.kind := by
  cases becomes <;> rfl

end Payload

namespace Store

variable {τ : Type} {store before after : Store τ} {ref : Ref} {held inner : List Ref}

/-- The object at a reference, if there is one and it is not lent. -/
def payload? (store : Store τ) (ref : Ref) : Option Payload :=
  (store.cell? ref).bind Cell.payload

/-- The kind of the object at a reference. -/
def kind? (store : Store τ) (ref : Ref) : Option Kind :=
  (store.payload? ref).map Payload.kind

theorem get_eq_ok_iff {payload : Payload} :
    store.get ref = .ok payload ↔ store.payload? ref = some payload := by
  unfold get payload?
  rcases store.cell? ref with _ | ⟨count, _ | stored⟩ <;> simp

/-- A reference leads to an object that plays a role, and not to one of the machine's
own dictionaries. -/
structure Meets (store : Store τ) (ref : Ref) (role : Role) : Prop where
  ne_builtins : ref ≠ .builtins
  ne_modules : ref ≠ .modules
  allowed : role.Allows (store.kind? ref)

theorem Meets.of_kind? {role : Role} (meets : before.Meets ref role)
    (same : after.kind? ref = before.kind? ref) : after.Meets ref role :=
  ⟨meets.ne_builtins, meets.ne_modules, same ▸ meets.allowed⟩

/-- Every object of a given kind other than frames and tracebacks is a value. -/
theorem Meets.value {kind : Kind} (meets : store.Meets ref (.of kind))
    (plain : kind ≠ .frame ∧ kind ≠ .traceback) : store.Meets ref .value := by
  refine ⟨meets.ne_builtins, meets.ne_modules, ?_⟩
  have found : store.kind? ref = some kind := meets.allowed
  rw [found]
  exact ⟨fun same => plain.1 (Option.some.inj same), fun same => plain.2 (Option.some.inj same)⟩

/-- Is there an object at the reference? -/
def Filled (store : Store τ) (ref : Ref) : Prop :=
  ∃ payload, store.payload? ref = some payload

/-- There is a value at the reference. -/
structure Usable (store : Store τ) (ref : Ref) : Prop where
  filled : store.Filled ref
  meets : store.Meets ref .value

/-- The references that the machine holds from the start. -/
def roots : List Ref :=
  [.noneObject, .trueObject, .falseObject, .builtins, .modules] ++
    ErrorKind.all.map ErrorKind.object

/-- The object that a store starts with at a reference. -/
def original (ref : Ref) : Option Payload :=
  initialCells[ref.index]?.bind Cell.payload

/-- The promises a store makes to itself while `held` and `inner` list the references
to its objects that are held outside it, besides the roots. -/
structure Sound (store : Store τ) (held inner : List Ref) : Prop where
  exact : store.Exact (roots ++ (held ++ inner))
  whole : ∀ ref cell, store.cell? ref = some cell → cell.payload ≠ none
  fits : ∀ ref payload, store.payload? ref = some payload →
    ∀ child role, (child, role) ∈ payload.roles → store.Meets child role
  tables : ∀ ref table, store.payload? ref = some (.dict table) → table.Valid
  values : ∀ ref ∈ held, store.Meets ref .value
  lone_none : ∀ ref, store.payload? ref = some .none → ref = .noneObject
  originals : ∀ ref, ref.index < initialCells.length → ref ≠ .modules →
    store.payload? ref = original ref
  modules_dict : store.kind? .modules = some .dictionary

/-- What stays as long as some references are held: the objects there, and what belongs
to one of them that does not change. -/
inductive Anchored (store : Store τ) (anchors : List Ref) : Ref → Prop where
  | held {ref : Ref} (member : ref ∈ anchors) : Anchored store anchors ref
  | part {owner child : Ref} {payload : Payload} (anchored : Anchored store anchors owner)
      (found : store.payload? owner = some payload) (fixed : payload.isContainer = false)
      (member : child ∈ payload.children) : Anchored store anchors child

/-- What is held at some references is still there, and became what it may become. -/
def Keeps (anchors : List Ref) (before after : Store τ) : Prop :=
  ∀ ref, before.Anchored anchors ref → ∀ payload, before.payload? ref = some payload →
    ∃ new, after.payload? ref = some new ∧ payload.Becomes new

/-- What was anchored is anchored still. -/
theorem Anchored.of_keeps {anchors : List Ref} (anchored : before.Anchored anchors ref)
    (keeps : Keeps anchors before after) : after.Anchored anchors ref := by
  induction anchored with
  | held member => exact .held member
  | part anchored found fixed member ih =>
      obtain ⟨new, present, became⟩ := keeps _ anchored _ found
      obtain rfl := became.eq_of_fixed fixed
      exact .part ih present fixed member

theorem Anchored.mono {anchors others : List Ref} (anchored : store.Anchored anchors ref)
    (more : anchors ⊆ others) : store.Anchored others ref := by
  induction anchored with
  | held member => exact .held (more member)
  | part _ found fixed member ih => exact .part ih found fixed member

namespace Keeps

variable {anchors others : List Ref}

theorem refl (anchors : List Ref) (store : Store τ) : Keeps anchors store store :=
  fun _ _ payload found => ⟨payload, found, Payload.Becomes.same payload⟩

theorem trans {first second third : Store τ} (earlier : Keeps anchors first second)
    (later : Keeps anchors second third) : Keeps anchors first third := by
  intro ref anchored payload found
  obtain ⟨middle, stored, became⟩ := earlier ref anchored payload found
  obtain ⟨new, present, became'⟩ := later ref (anchored.of_keeps earlier) middle stored
  exact ⟨new, present, became.trans became'⟩

/-- What is anchored is kept, and so is all that it anchors. -/
theorem of_anchored (keeps : Keeps anchors before after)
    (known : ∀ ref ∈ others, before.Anchored anchors ref) : Keeps others before after := by
  intro ref anchored
  refine keeps ref ?_
  induction anchored with
  | held member => exact known _ member
  | part _ found fixed member ih => exact .part ih found fixed member

theorem mono (keeps : Keeps anchors before after) (fewer : others ⊆ anchors) :
    Keeps others before after :=
  keeps.of_anchored fun _ member => .held (fewer member)

/-- An object that does not change is as it was. -/
theorem fixed (keeps : Keeps anchors before after) (anchored : before.Anchored anchors ref)
    {payload : Payload} (found : before.payload? ref = some payload)
    (fixed : payload.isContainer = false) : after.payload? ref = some payload := by
  obtain ⟨new, present, became⟩ := keeps ref anchored payload found
  rw [present, became.eq_of_fixed fixed]

theorem kind?_eq (keeps : Keeps anchors before after) (member : ref ∈ anchors)
    {payload : Payload} (found : before.payload? ref = some payload) :
    after.kind? ref = some payload.kind := by
  obtain ⟨new, present, became⟩ := keeps ref (.held member) payload found
  rw [kind?, present, Option.map_some, became.kind_eq]

end Keeps

/-! ## What is there -/

theorem payload?_eq {cell : Cell} (found : store.cell? ref = some cell) :
    store.payload? ref = cell.payload := by
  simp [payload?, found]

theorem cell?_of_payload? {payload : Payload} (found : store.payload? ref = some payload) :
    ∃ count, store.cell? ref = some ⟨count, some payload⟩ := by
  simp only [payload?, Option.bind_eq_some_iff] at found
  obtain ⟨⟨count, stored⟩, present, same⟩ := found
  exact ⟨count, by rw [present, ← same]⟩

theorem kind?_eq {payload : Payload} (found : store.payload? ref = some payload) :
    store.kind? ref = some payload.kind := by
  rw [kind?, found, Option.map_some]

theorem Remains.payload?_eq (remains : after.Remains before) {cell : Cell}
    (found : after.cell? ref = some cell) : after.payload? ref = before.payload? ref := by
  obtain ⟨old, present, same⟩ := remains ref cell found
  rw [Store.payload?_eq found, Store.payload?_eq present, same]

theorem initialCells_length : initialCells.length = 19 := by
  decide

theorem exists_original (inside : ref.index < initialCells.length) :
    ∃ payload, original ref = some payload := by
  have all : ∀ index < 19, (original ⟨index⟩).isSome := by decide
  exact Option.isSome_iff_exists.mp (all ref.index (initialCells_length ▸ inside))

/-- Besides the roots, the objects a store starts with belong to the dictionary of
built-in names. -/
theorem mem_roots_or_builtins (inside : ref.index < initialCells.length) :
    ref ∈ roots ∨ ref ∈ (Table.ofEntries builtinEntries).values := by
  have all : ∀ index < 19, (⟨index⟩ : Ref) ∈ roots ∨
      (⟨index⟩ : Ref) ∈ (Table.ofEntries builtinEntries).values := by
    decide +kernel
  exact all ref.index (initialCells_length ▸ inside)

/-- The only containers among them are the machine's own dictionaries. -/
theorem original_fixed {payload : Payload} (inside : ref.index < initialCells.length)
    (ne_builtins : ref ≠ .builtins) (ne_modules : ref ≠ .modules)
    (found : original ref = some payload) : payload.isContainer = false := by
  have all : ∀ index < 19, index ≠ 3 → index ≠ 4 →
      (original ⟨index⟩).all (fun payload => !payload.isContainer) = true := by
    decide
  have fixed := all ref.index (initialCells_length ▸ inside)
    (fun same => ne_builtins (Ref.ext_index same)) (fun same => ne_modules (Ref.ext_index same))
  rw [found] at fixed
  simpa using fixed

theorem original_builtins :
    original .builtins = some (.dict (Table.ofEntries builtinEntries)) :=
  rfl

namespace Sound

variable {kept secret : List Ref}

theorem perm (sound : store.Sound held inner) (same : held.Perm kept)
    (sameInner : inner.Perm secret) : store.Sound kept secret where
  exact := sound.exact.perm (List.Perm.append_left _ (same.append sameInner))
  whole := sound.whole
  fits := sound.fits
  tables := sound.tables
  values ref member := sound.values ref (same.mem_iff.mpr member)
  lone_none := sound.lone_none
  originals := sound.originals
  modules_dict := sound.modules_dict

theorem payload_of_live {cell : Cell} (sound : store.Sound held inner)
    (found : store.cell? ref = some cell) : store.Filled ref := by
  obtain ⟨payload, present⟩ := Option.ne_none_iff_exists'.mp (sound.whole ref cell found)
  exact ⟨payload, by rw [payload?_eq found, present]⟩

/-- There is an object at every reference that someone holds. -/
theorem payload_of_held (sound : store.Sound held inner)
    (member : ref ∈ roots ++ (held ++ inner)) : store.Filled ref := by
  obtain ⟨cell, found⟩ := sound.exact.live_of_held member
  exact sound.payload_of_live found

theorem modules_payload (sound : store.Sound held inner) : store.Filled .modules :=
  sound.payload_of_held (List.mem_append_left _ (by decide))

/-- There is an object at every reference that an object owns. -/
theorem payload_of_child {payload : Payload} {child : Ref} (sound : store.Sound held inner)
    (found : store.payload? ref = some payload) (member : child ∈ payload.children) :
    store.Filled child := by
  obtain ⟨count, present⟩ := cell?_of_payload? found
  obtain ⟨cell, live⟩ := sound.exact.live_of_child present member
  exact sound.payload_of_live live

theorem usable (sound : store.Sound held inner) (member : ref ∈ held) : store.Usable ref :=
  ⟨sound.payload_of_held (List.mem_append_right _ (List.mem_append_left _ member)),
    sound.values ref member⟩

/-- What an object owns can be used. -/
theorem usable_child {payload : Payload} {child : Ref} {role : Role}
    (sound : store.Sound held inner) (found : store.payload? ref = some payload)
    (member : (child, role) ∈ payload.roles)
    (plain : role ≠ .of .frame ∧ role ≠ .of .traceback) : store.Usable child := by
  refine ⟨sound.payload_of_child found (Payload.mem_children_of_mem_roles member), ?_⟩
  have meets := sound.fits ref payload found child role member
  cases role with
  | value => exact meets
  | of kind =>
      exact meets.value ⟨fun same => plain.1 (same ▸ rfl), fun same => plain.2 (same ▸ rfl)⟩

theorem builtins_eq (sound : store.Sound held inner) :
    store.payload? .builtins = some (.dict (Table.ofEntries builtinEntries)) := by
  rw [sound.originals .builtins (by decide) (by decide), original_builtins]

/-- The machine's own dictionaries are dictionaries. -/
theorem meets_of_kind {kind : Kind} (sound : store.Sound held inner)
    (found : store.kind? ref = some kind) (other : kind ≠ .dictionary) :
    store.Meets ref (.of kind) := by
  refine ⟨?_, ?_, found⟩
  · rintro rfl
    rw [kind?, sound.builtins_eq] at found
    exact other (Option.some.inj found).symm
  · rintro rfl
    rw [sound.modules_dict] at found
    exact other (Option.some.inj found).symm

/-- References are taken or given back, and nothing else happens. -/
theorem of_remains (sound : before.Sound held inner) (remains : after.Remains before)
    (exact : after.Exact (roots ++ (kept ++ secret)))
    (values : ∀ ref ∈ kept, before.Meets ref .value) : after.Sound kept secret := by
  have same_kind : ∀ ref cell, after.cell? ref = some cell →
      after.kind? ref = before.kind? ref := by
    intro ref cell found
    rw [kind?, kind?, remains.payload?_eq found]
  have earlier : ∀ ref payload, after.payload? ref = some payload →
      before.payload? ref = some payload := by
    intro ref payload found
    obtain ⟨count, present⟩ := cell?_of_payload? found
    rw [← remains.payload?_eq present, found]
  have root_live : ∀ ref ∈ roots, ∃ cell, after.cell? ref = some cell :=
    fun ref member => exact.live_of_held (List.mem_append_left _ member)
  have same_root : ∀ ref ∈ roots, after.payload? ref = before.payload? ref := by
    intro ref member
    obtain ⟨cell, found⟩ := root_live ref member
    exact remains.payload?_eq found
  refine ⟨exact, ?_, ?_, ?_, ?_, ?_, ?_, ?_⟩
  · intro ref cell found
    obtain ⟨old, present, same⟩ := remains ref cell found
    rw [← same]
    exact sound.whole ref old present
  · intro ref payload found child role member
    obtain ⟨count, present⟩ := cell?_of_payload? found
    obtain ⟨cell, live⟩ := exact.live_of_child present (Payload.mem_children_of_mem_roles member)
    exact (sound.fits ref payload (earlier ref payload found) child role member).of_kind?
      (same_kind child cell live)
  · intro ref table found
    exact sound.tables ref table (earlier ref _ found)
  · intro ref member
    obtain ⟨cell, live⟩ :=
      exact.live_of_held (List.mem_append_right _ (List.mem_append_left _ member))
    exact (values ref member).of_kind? (same_kind ref cell live)
  · intro ref found
    exact sound.lone_none ref (earlier ref _ found)
  · intro ref inside different
    rw [← sound.originals ref inside different]
    rcases mem_roots_or_builtins inside with root | named
    · exact same_root ref root
    · have found := same_root .builtins (by decide)
      rw [sound.builtins_eq] at found
      obtain ⟨count, present⟩ := cell?_of_payload? found
      obtain ⟨cell, live⟩ := exact.live_of_child present named
      exact remains.payload?_eq live
  · obtain ⟨cell, live⟩ := root_live .modules (by decide)
    rw [same_kind .modules cell live, sound.modules_dict]

/-- Objects that are still held after that are kept. -/
theorem keeps_of_remains (remains : after.Remains before)
    (exact : after.Exact (roots ++ (kept ++ secret))) :
    Keeps (kept ++ secret) before after := by
  have live : ∀ ref, before.Anchored (kept ++ secret) ref →
      ∃ cell, after.cell? ref = some cell := by
    intro ref anchored
    induction anchored with
    | held member => exact exact.live_of_held (List.mem_append_right _ member)
    | part _ found _ member ih =>
        obtain ⟨cell, here⟩ := ih
        rw [← remains.payload?_eq here] at found
        obtain ⟨count, present⟩ := cell?_of_payload? found
        exact exact.live_of_child present member
  intro ref anchored payload found
  obtain ⟨cell, here⟩ := live ref anchored
  exact ⟨payload, by rw [remains.payload?_eq here, found], .same payload⟩

end Sound

/-! ## Making an object -/

theorem payload?_place (exact : store.Exact held) (payload : Payload) (other : Ref) :
    (store.place payload).2.payload? other =
      if other = (store.place payload).1 then some payload else store.payload? other := by
  rw [payload?, exact.cell?_place payload other]
  split
  · rfl
  · rfl

/-- The other objects are as they were. -/
theorem payload?_place_of_live {payload stored : Payload} (exact : store.Exact held)
    (found : store.payload? ref = some stored) :
    (store.place payload).2.payload? ref = some stored := by
  have vacant := exact.place_vacant payload
  rw [payload?_place exact, if_neg, found]
  rintro rfl
  obtain ⟨count, present⟩ := cell?_of_payload? found
  rw [vacant] at present
  cases present

/-- What objects can be made of. -/
structure Makes (store : Store τ) (payload : Payload) : Prop where
  fits : ∀ child role, (child, role) ∈ payload.roles → store.Meets child role
  valid : ∀ table, payload = .dict table → table.Valid
  ne_none : payload ≠ .none

/-- An object that is no dictionary is made of parts in their roles. -/
theorem Makes.of_roles {payload : Payload}
    (other : payload.kind ≠ .dictionary ∧ payload.kind ≠ .none)
    (fits : ∀ child role, (child, role) ∈ payload.roles → store.Meets child role) :
    store.Makes payload where
  fits := fits
  valid table same := by
    subst same
    exact absurd rfl other.1
  ne_none same := by
    subst same
    exact other.2 rfl

namespace Sound

variable {kept secret rest : List Ref} {payload : Payload}

theorem of_place (sound : store.Sound held inner) (makes : store.Makes payload)
    (owing : store.Exact (payload.children ++ rest))
    (exact : (store.place payload).2.Exact (roots ++ (kept ++ secret)))
    (values : ∀ ref ∈ kept, (store.place payload).2.Meets ref .value) :
    (store.place payload).2.Sound kept secret := by
  have same : ∀ ref stored, store.payload? ref = some stored →
      (store.place payload).2.payload? ref = some stored :=
    fun ref stored found => payload?_place_of_live owing found
  have meets : ∀ child role, (∃ stored, store.payload? child = some stored) →
      store.Meets child role → (store.place payload).2.Meets child role := by
    rintro child role ⟨stored, found⟩ met
    exact met.of_kind? (by rw [kind?, kind?, same child stored found, found])
  have earlier : ∀ ref stored, (store.place payload).2.payload? ref = some stored →
      stored = payload ∨ store.payload? ref = some stored := by
    intro ref stored found
    rw [payload?_place owing] at found
    split at found
    · exact Or.inl (Option.some.inj found).symm
    · exact Or.inr found
  refine ⟨exact, ?_, ?_, ?_, values, ?_, ?_, ?_⟩
  · intro ref cell found
    rw [owing.cell?_place] at found
    split at found
    · obtain rfl := Option.some.inj found
      exact Option.some_ne_none payload
    · exact sound.whole ref cell found
  · intro ref stored found child role member
    have owned := Payload.mem_children_of_mem_roles member
    rcases earlier ref stored found with rfl | present
    · obtain ⟨cell, live⟩ := owing.live_of_held (List.mem_append_left _ owned)
      exact meets child role (sound.payload_of_live live) (makes.fits child role member)
    · exact meets child role (sound.payload_of_child present owned)
        (sound.fits ref stored present child role member)
  · intro ref table found
    rcases earlier ref _ found with new | present
    · exact makes.valid table new.symm
    · exact sound.tables ref table present
  · intro ref found
    rcases earlier ref _ found with new | present
    · exact absurd new.symm makes.ne_none
    · exact sound.lone_none ref present
  · intro ref inside different
    have found := sound.originals ref inside different
    obtain ⟨stored, here⟩ := exists_original inside
    rw [here] at found ⊢
    exact same ref stored found
  · obtain ⟨stored, found⟩ := sound.modules_payload
    rw [kind?, same _ stored found, ← found, ← kind?, sound.modules_dict]

/-- Values that were held are values still. -/
theorem meets_place (sound : store.Sound held inner)
    (owing : store.Exact (payload.children ++ rest)) (member : ref ∈ held) :
    (store.place payload).2.Meets ref .value := by
  obtain ⟨stored, found⟩ := sound.payload_of_held
    (List.mem_append_right _ (List.mem_append_left _ member))
  refine (sound.values ref member).of_kind? ?_
  rw [kind?, kind?, payload?_place_of_live owing found, found]

theorem keeps_of_place (owing : store.Exact (payload.children ++ rest)) (anchors : List Ref) :
    Keeps anchors store (store.place payload).2 :=
  fun _ _ stored found => ⟨stored, payload?_place_of_live owing found, .same stored⟩

/-- A new value is held by whoever made it. -/
theorem place_value (sound : store.Sound held inner) (makes : store.Makes payload)
    (owing : store.Exact (payload.children ++ (roots ++ (kept ++ secret))))
    (fewer : kept ⊆ held) (plain : Role.value.Allows (some payload.kind)) :
    (store.place payload).2.Sound ((store.place payload).1 :: kept) secret := by
  have vacant := owing.place_vacant payload
  have exact : (store.place payload).2.Exact
      (roots ++ (((store.place payload).1 :: kept) ++ secret)) :=
    owing.place.perm List.perm_middle.symm
  refine sound.of_place makes owing exact ?_
  have new_ne : ∀ ref stored, store.payload? ref = some stored →
      (store.place payload).1 ≠ ref := by
    rintro ref stored found rfl
    obtain ⟨count, present⟩ := cell?_of_payload? found
    rw [vacant] at present
    cases present
  intro ref member
  rcases List.mem_cons.mp member with rfl | kept_member
  · refine ⟨new_ne _ _ sound.builtins_eq, ?_, ?_⟩
    · obtain ⟨stored, found⟩ := sound.modules_payload
      exact new_ne _ stored found
    · rw [kind?, payload?_place owing, if_pos rfl]
      exact plain
  · exact sound.meets_place owing (fewer kept_member)

/-- A frame or an entry of the traceback is held by the machine. -/
theorem place_inner (sound : store.Sound held inner) (makes : store.Makes payload)
    (owing : store.Exact (payload.children ++ (roots ++ (kept ++ secret))))
    (fewer : kept ⊆ held) :
    (store.place payload).2.Sound kept ((store.place payload).1 :: secret) := by
  have exact : (store.place payload).2.Exact
      (roots ++ (kept ++ ((store.place payload).1 :: secret))) := by
    refine owing.place.perm ?_
    rw [← List.append_assoc, ← List.append_assoc]
    exact List.perm_middle.symm
  exact sound.of_place makes owing exact fun ref member => sound.meets_place owing (fewer member)

end Sound

end Store

end StackMachine
