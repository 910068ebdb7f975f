import StackMachine.Proofs.Store.Soundness

/-!
# Operations that account for their references

`Accounts` describes an operation on a sound store by the references it leaves with
its caller.  What others hold stays theirs: it is neither given back nor replaced.
Where the operation fails, nothing is left with the caller.

The primitive operations come first, then one rule for each way in which operations
are put together.
-/

namespace StackMachine

variable {τ α β : Type} {store after : Store τ} {ref : Ref} {held inner refs : List Ref}
variable {payload : Payload}

namespace Store

/-- Do two stores hold the same objects? -/
def SamePayloads (before after : Store τ) : Prop :=
  ∀ ref, after.payload? ref = before.payload? ref

theorem SamePayloads.trans {first second third : Store τ} (earlier : SamePayloads first second)
    (later : SamePayloads second third) : SamePayloads first third :=
  fun ref => (later ref).trans (earlier ref)

theorem SamePayloads.keeps {before after : Store τ} (same : SamePayloads before after)
    (anchors : List Ref) : Keeps anchors before after :=
  fun ref _ payload found => ⟨payload, (same ref).trans found, .same payload⟩

theorem SamePayloads.usable {before after : Store τ} (same : SamePayloads before after)
    (usable : before.Usable ref) : after.Usable ref := by
  obtain ⟨⟨payload, found⟩, meets⟩ := usable
  exact ⟨⟨payload, (same ref).trans found⟩, meets.of_kind? (by rw [kind?, kind?, same])⟩

theorem Sound.withTracker (sound : store.Sound held inner) (tracker : τ) :
    ({ store with tracker } : Store τ).Sound held inner :=
  ⟨sound.exact.withTracker tracker, sound.whole,
    fun ref payload found child role member =>
      (sound.fits ref payload found child role member).of_kind? rfl,
    sound.tables, fun ref member => (sound.values ref member).of_kind? rfl, sound.lone_none,
    sound.originals, sound.modules_dict⟩

/-- A sound store is left, with `extra` in the hands of the caller, in which what others
hold is kept. -/
structure Leaves (before : Store τ) (held inner extra : List Ref) (after : Store τ) : Prop where
  sound : after.Sound (extra ++ held) inner
  keeps : Keeps (held ++ inner) before after

theorem Leaves.trans {middle : Store τ} {extra more : List Ref}
    (earlier : store.Leaves held inner extra middle)
    (later : middle.Leaves held inner more after) : store.Leaves held inner more after :=
  ⟨later.sound, earlier.keeps.trans later.keeps⟩

/-- What was held for the time being is in the hands of the caller. -/
theorem Leaves.borrowed {extra more : List Ref}
    (left : store.Leaves (more ++ held) inner extra after) :
    after.Sound (more ++ (extra ++ held)) inner :=
  left.sound.perm (List.perm_append_comm_assoc _ _ _) (List.Perm.refl _)

/-- What was held for the time being is given back. -/
theorem Leaves.give_back {middle : Store τ} {extra more : List Ref}
    (left : store.Leaves (more ++ held) inner extra middle)
    (released : middle.Leaves (extra ++ held) inner [] after) :
    store.Leaves held inner extra after := by
  refine ⟨released.sound, (left.keeps.mono ?_).trans (released.keeps.mono ?_)⟩
  · rw [List.append_assoc]
    exact List.subset_append_right _ _
  · rw [List.append_assoc]
    exact List.subset_append_right _ _

end Store

namespace StoreM

open Store Outcome

/-- An operation leaves the references that `gives` lists with its caller, or fails and
leaves none. -/
def Accounts {φ : Type} (act : EStateM (Stop φ) (Store τ) α) (store : Store τ)
    (held inner : List Ref) (gives : α → List Ref) : Prop :=
  Ends (act store) (fun value => store.Leaves held inner (gives value))
    (fun _ => store.Leaves held inner [])

/-- An operation that returns is followed by the next. -/
theorem bind_ok {φ σ : Type} {act : EStateM (Stop φ) σ α} {next : α → EStateM (Stop φ) σ β}
    {before after : σ} {value : α} (returned : act before = .ok value after) :
    (act >>= next) before = next value after := by
  show EStateM.bind act next before = next value after
  rw [EStateM.bind, returned]

/-! ## Primitive operations -/

theorem get_eq (found : store.payload? ref = some payload) :
    (get ref : StoreM τ Payload) store = .ok payload store := by
  have read : store.get ref = .ok payload := get_eq_ok_iff.mpr found
  simp only [StoreM.get, StoreM.reading, Outcome.reading, read]

/-- Reading an object that is there. -/
theorem get_bind (found : store.payload? ref = some payload) (next : Payload → StoreM τ α) :
    (get ref >>= next) store = next payload store :=
  bind_ok (get_eq found)

theorem acquire_exact (exact : store.Exact held) (found : store.payload? ref = some payload) :
    ∃ after, (acquire ref : StoreM τ Ref) store = .ok ref after ∧ after.Exact (ref :: held) ∧
      after.Remains store ∧ SamePayloads store after := by
  obtain ⟨count, present⟩ := cell?_of_payload? found
  have cells_eq := cell?_setCell (index_lt_of_cell? present) (some ⟨count + 1, some payload⟩)
  refine ⟨store.setCell ref (some ⟨count + 1, some payload⟩), ?_, exact.acquire present, ?_, ?_⟩
  · rw [acquire, present]
  · intro other cell stored
    rw [cells_eq] at stored
    split at stored
    · rename_i same
      obtain rfl := Option.some.inj stored
      exact ⟨⟨count, some payload⟩, same ▸ present, rfl⟩
    · exact ⟨cell, stored, rfl⟩
  · intro other
    rw [payload?, cells_eq]
    split
    · rename_i same
      rw [same, found]
      rfl
    · rfl

/-- One more reference to a value is taken. -/
theorem acquire_value (sound : store.Sound held inner) (usable : store.Usable ref) :
    ∃ after, (acquire ref : StoreM τ Ref) store = .ok ref after ∧
      after.Sound (ref :: held) inner ∧ SamePayloads store after := by
  obtain ⟨payload, found⟩ := usable.filled
  obtain ⟨after, returned, exact, remains, same⟩ := acquire_exact sound.exact found
  refine ⟨after, returned, sound.of_remains remains (exact.perm List.perm_middle.symm) ?_, same⟩
  intro other member
  rcases List.mem_cons.mp member with rfl | kept
  · exact usable.meets
  · exact sound.values other kept

/-- One more reference to a frame or an entry of the traceback is taken. -/
theorem acquire_inner (sound : store.Sound held inner)
    (found : store.payload? ref = some payload) :
    ∃ after, (acquire ref : StoreM τ Ref) store = .ok ref after ∧
      after.Sound held (ref :: inner) ∧ SamePayloads store after := by
  obtain ⟨after, returned, exact, remains, same⟩ := acquire_exact sound.exact found
  refine ⟨after, returned, sound.of_remains remains ?_ sound.values, same⟩
  refine exact.perm ?_
  rw [← List.append_assoc, ← List.append_assoc]
  exact List.perm_middle.symm

/-- One more reference to each of some values is taken. -/
theorem acquireAll_values (sound : store.Sound held inner)
    (usable : ∀ ref ∈ refs, store.Usable ref) :
    ∃ after, (acquireAll refs : StoreM τ Unit) store = .ok () after ∧
      after.Sound (refs ++ held) inner ∧ SamePayloads store after := by
  induction refs generalizing store held with
  | nil => exact ⟨store, rfl, sound, fun _ => rfl⟩
  | cons first rest ih =>
      obtain ⟨middle, returned, middleSound, same⟩ :=
        acquire_value sound (usable first List.mem_cons_self)
      obtain ⟨after, finished, afterSound, same'⟩ := ih middleSound fun ref member =>
        same.usable (usable ref (List.mem_cons_of_mem _ member))
      refine ⟨after, ?_, afterSound.perm List.perm_middle (List.Perm.refl _), same.trans same'⟩
      rw [acquireAll, bind_ok returned, finished]

/-- One more reference to each of some frames or entries of the traceback is taken. -/
theorem acquireAll_inner (sound : store.Sound held inner)
    (filled : ∀ ref ∈ refs, store.Filled ref) :
    ∃ after, (acquireAll refs : StoreM τ Unit) store = .ok () after ∧
      after.Sound held (refs ++ inner) ∧ SamePayloads store after := by
  induction refs generalizing store inner with
  | nil => exact ⟨store, rfl, sound, fun _ => rfl⟩
  | cons first rest ih =>
      obtain ⟨payload, found⟩ := filled first List.mem_cons_self
      obtain ⟨middle, returned, middleSound, same⟩ := acquire_inner sound found
      obtain ⟨after, finished, afterSound, same'⟩ := ih middleSound fun ref member => by
        obtain ⟨content, present⟩ := filled ref (List.mem_cons_of_mem _ member)
        exact ⟨content, (same ref).trans present⟩
      refine ⟨after, ?_, afterSound.perm (List.Perm.refl _) List.perm_middle, same.trans same'⟩
      rw [acquireAll, bind_ok returned, finished]

variable [Tracker τ]

/-- References to objects of any kind are given back. -/
theorem releaseAll_owed {taken secret : List Ref} (sound : store.Sound taken secret)
    (fewer : held ⊆ taken)
    (owing : (roots ++ (taken ++ secret)).Perm (refs ++ (roots ++ (held ++ inner)))) :
    ∃ after, (releaseAll refs : StoreM τ Unit) store = .ok () after ∧
      store.Leaves held inner [] after ∧ after.Remains store := by
  obtain ⟨after, drained, afterExact, remains⟩ := drain_exact refs store (sound.exact.perm owing)
  refine ⟨after, drained, ⟨sound.of_remains remains afterExact ?_,
    Sound.keeps_of_remains remains afterExact⟩, remains⟩
  exact fun ref member => sound.values ref (fewer member)

/-- References to values are given back. -/
theorem releaseAll_sound (sound : store.Sound (refs ++ held) inner) :
    ∃ after, (releaseAll refs : StoreM τ Unit) store = .ok () after ∧
      store.Leaves held inner [] after ∧ after.Remains store := by
  refine releaseAll_owed sound (List.subset_append_right _ _) ?_
  rw [List.append_assoc]
  exact List.perm_append_comm_assoc _ _ _

/-- A frame or entries of the traceback are given back. -/
theorem releaseAll_inner (sound : store.Sound held (refs ++ inner)) :
    ∃ after, (releaseAll refs : StoreM τ Unit) store = .ok () after ∧
      store.Leaves held inner [] after ∧ after.Remains store := by
  refine releaseAll_owed sound (List.Subset.refl _) ?_
  refine List.Perm.trans ?_ (List.perm_append_comm_assoc _ _ _)
  exact List.Perm.append_left _ (List.perm_append_comm_assoc _ _ _)

omit [Tracker τ] in
/-- Does the tracker agree to every allocation? -/
def Grants (τ : Type) [Tracker τ] : Prop :=
  ∀ (size : Nat) (tracker : τ), (Tracker.allocate size tracker).1 = none

theorem grants_unlimited : Grants Unlimited :=
  fun _ _ => rfl

theorem not_grants {size : Nat} {tracker : τ} {refusal : Refusal}
    (refused : (Tracker.allocate size tracker).1 = some refusal) : ¬ Grants τ := by
  intro grants
  rw [grants size tracker] at refused
  cases refused

/-- An object is made of references that are given to it, or they are given back. -/
theorem allocate_cases {taken secret : List Ref} (sound : store.Sound taken secret)
    (makes : store.Makes payload) (fewer : held ⊆ taken)
    (owing : (roots ++ (taken ++ secret)).Perm (payload.children ++ (roots ++ (held ++ inner)))) :
    (∃ ref after, allocate payload store = .ok ref after ∧
      (Role.value.Allows (some payload.kind) → after.Sound (ref :: held) inner) ∧
      after.Sound held (ref :: inner) ∧ Keeps (held ++ inner) store after ∧
      after.payload? ref = some payload ∧
      (Tracker.allocate payload.bytes store.tracker).1 = none) ∨
    (∃ refusal after, allocate payload store = .error (.failed (.refused refusal)) after ∧
      after.Sound held inner ∧ Keeps (held ++ inner) store after ∧
      (Tracker.allocate payload.bytes store.tracker).1 = some refusal) := by
  unfold allocate
  rcases answer : Tracker.allocate payload.bytes store.tracker with ⟨_ | refusal, tracker⟩
  · let charged : Store τ := { store with tracker }
    have same : SamePayloads store charged := fun _ => rfl
    have owed : charged.Exact (payload.children ++ (roots ++ (held ++ inner))) :=
      (sound.exact.perm owing).withTracker tracker
    have sound' : charged.Sound taken secret := sound.withTracker tracker
    have makes' : charged.Makes payload :=
      ⟨fun child role member => (makes.fits child role member).of_kind? rfl, makes.valid,
        makes.ne_none⟩
    refine Or.inl ⟨_, _, rfl, sound'.place_value makes' owed fewer,
      sound'.place_inner makes' owed fewer, (same.keeps _).trans (Sound.keeps_of_place owed _), ?_,
      rfl⟩
    rw [payload?_place owed, if_pos rfl]
  · let charged : Store τ := { store with tracker }
    have same : SamePayloads store charged := fun _ => rfl
    have owed : charged.Exact (payload.children ++ (roots ++ (held ++ inner))) :=
      (sound.exact.perm owing).withTracker tracker
    obtain ⟨after, drained, afterExact, remains⟩ := drain_exact payload.children charged owed
    simp only [charged] at drained
    simp only [drained]
    refine Or.inr ⟨refusal, after, rfl,
      (sound.withTracker tracker).of_remains remains afterExact ?_,
      (same.keeps _).trans (Sound.keeps_of_remains remains afterExact), rfl⟩
    exact fun ref member => (sound.values ref (fewer member)).of_kind? rfl

theorem allocate_ends {taken secret : List Ref} (sound : store.Sound taken secret)
    (makes : store.Makes payload) (fewer : held ⊆ taken)
    (owing : (roots ++ (taken ++ secret)).Perm (payload.children ++ (roots ++ (held ++ inner)))) :
    Ends ((allocate payload : StoreM τ Ref) store)
      (fun ref after =>
        (Role.value.Allows (some payload.kind) → after.Sound (ref :: held) inner) ∧
          after.Sound held (ref :: inner) ∧ Keeps (held ++ inner) store after ∧
          after.payload? ref = some payload)
      (fun _ after => after.Sound held inner ∧ Keeps (held ++ inner) store after) := by
  rcases allocate_cases sound makes fewer owing with
    ⟨ref, after, made, valued, held, keeps, found, -⟩ | ⟨refusal, after, refused, left, keeps, -⟩
  · rw [made]
    exact ⟨valued, held, keeps, found⟩
  · rw [refused]
    exact ⟨left, keeps⟩

end StoreM

/-! ## Working on an object -/

namespace Store

/-- What may be made of an object that receives some references. -/
structure Reworks (refs : List Ref) (old new : Payload) : Prop where
  becomes : old.Becomes new
  roles : ∀ child role, (child, role) ∈ new.roles →
    (child, role) ∈ old.roles ∨ (child ∈ refs ∧ role = .value)
  valid : ∀ table, new = .dict table → (∀ former, old = .dict former → former.Valid) → table.Valid

theorem Reworks.refl (refs : List Ref) (payload : Payload) : Reworks refs payload payload where
  becomes := .same payload
  roles _ _ member := Or.inl member
  valid table same former := former table same

/-- Someone other than the object itself makes sure that it stays. -/
def Secured (store : Store τ) (anchors : List Ref) (ref : Ref) : Prop :=
  ref ∈ anchors ∨ ∃ owner ∈ anchors, owner ≠ ref ∧
    ∃ payload, store.payload? owner = some payload ∧ ref ∈ payload.children

/-- An object was worked on, and references were given back: every other object that is left is
what it was. -/
structure Reworked (before : Store τ) (refs : List Ref) (ref : Ref) (old new : Payload)
    (after : Store τ) : Prop where
  found : before.payload? ref = some old
  here : after.payload? ref = some new
  reworks : Reworks refs old new
  elsewhere : ∀ other ≠ ref, ∀ cell, after.cell? other = some cell →
    ∃ old, before.cell? other = some old ∧ old.payload = cell.payload

namespace Reworked

variable {old new stored : Payload} {other : Ref} {cell : Cell}

theorem payload?_eq (reworked : Reworked store refs ref old new after) (different : other ≠ ref)
    (live : after.cell? other = some cell) : after.payload? other = store.payload? other := by
  obtain ⟨former, present, equal⟩ := reworked.elsewhere other different cell live
  rw [Store.payload?_eq live, Store.payload?_eq present, equal]

/-- What is left is the object that was worked on, or was there before. -/
theorem payload?_cases (reworked : Reworked store refs ref old new after)
    (present : after.payload? other = some stored) :
    (other = ref ∧ stored = new) ∨ store.payload? other = some stored := by
  by_cases same : other = ref
  · subst same
    exact Or.inl ⟨rfl, Option.some.inj (present.symm.trans reworked.here)⟩
  · obtain ⟨count, live⟩ := cell?_of_payload? present
    exact Or.inr (reworked.payload?_eq same live ▸ present)

/-- An object that was there before and is left is what it may become. -/
theorem becomes (reworked : Reworked store refs ref old new after)
    (live : after.cell? other = some cell) (present : store.payload? other = some stored) :
    ∃ now, after.payload? other = some now ∧ stored.Becomes now := by
  by_cases same : other = ref
  · subst same
    obtain rfl := Option.some.inj (reworked.found.symm.trans present)
    exact ⟨new, reworked.here, reworked.reworks.becomes⟩
  · exact ⟨stored, (reworked.payload?_eq same live).trans present, .same stored⟩

theorem kind?_eq (reworked : Reworked store refs ref old new after)
    (live : after.cell? other = some cell) : after.kind? other = store.kind? other := by
  by_cases same : other = ref
  · subst same
    rw [Store.kind?_eq reworked.here, Store.kind?_eq reworked.found,
      reworked.reworks.becomes.kind_eq]
  · rw [kind?, kind?, reworked.payload?_eq same live]

theorem whole (reworked : Reworked store refs ref old new after)
    (sound : store.Sound (refs ++ held) inner) (live : after.cell? other = some cell) :
    cell.payload ≠ none := by
  by_cases same : other = ref
  · subst same
    rw [← Store.payload?_eq live, reworked.here]
    exact Option.some_ne_none new
  · obtain ⟨former, present, unchanged⟩ := reworked.elsewhere other same cell live
    exact unchanged ▸ sound.whole other former present

/-- Its references are in their roles: those that the object received are values. -/
theorem fits {rest : List Ref} {child : Ref} {role : Role}
    (reworked : Reworked store refs ref old new after)
    (sound : store.Sound (refs ++ held) inner) (exact : after.Exact rest)
    (present : after.payload? other = some stored) (member : (child, role) ∈ stored.roles) :
    after.Meets child role := by
  obtain ⟨count, live⟩ := cell?_of_payload? present
  obtain ⟨cell, childLive⟩ := exact.live_of_child live (Payload.mem_children_of_mem_roles member)
  refine Meets.of_kind? ?_ (reworked.kind?_eq childLive)
  rcases reworked.payload?_cases present with ⟨rfl, rfl⟩ | before
  · rcases reworked.reworks.roles child role member with former | ⟨received, rfl⟩
    · exact sound.fits other old reworked.found child role former
    · exact sound.values child (List.mem_append_left _ received)
  · exact sound.fits other stored before child role member

theorem tables {table : Table Ref} (reworked : Reworked store refs ref old new after)
    (sound : store.Sound (refs ++ held) inner)
    (present : after.payload? other = some (.dict table)) : table.Valid := by
  rcases reworked.payload?_cases present with ⟨rfl, same⟩ | before
  · refine reworked.reworks.valid table same.symm ?_
    rintro former rfl
    exact sound.tables other former reworked.found
  · exact sound.tables other table before

theorem lone_none (reworked : Reworked store refs ref old new after)
    (sound : store.Sound (refs ++ held) inner) (present : after.payload? other = some .none) :
    other = .noneObject := by
  rcases reworked.payload?_cases present with ⟨rfl, rfl⟩ | before
  · have found := reworked.found
    have kind_eq := reworked.reworks.becomes.kind_eq
    cases old <;> cases kind_eq
    exact sound.lone_none other found
  · exact sound.lone_none other before

/-- An object of the machine that is left is what it was made as. -/
theorem original_eq (reworked : Reworked store refs ref old new after)
    (sound : store.Sound (refs ++ held) inner) (ne_builtins : ref ≠ .builtins)
    (inside : other.index < initialCells.length) (ne_modules : other ≠ .modules)
    (live : after.cell? other = some cell) : after.payload? other = original other := by
  have originally := sound.originals other inside ne_modules
  by_cases same : other = ref
  · subst same
    have fixed :=
      original_fixed inside ne_builtins ne_modules (originally.symm.trans reworked.found)
    rw [reworked.here, reworked.reworks.becomes.eq_of_fixed fixed, ← reworked.found, originally]
  · rw [reworked.payload?_eq same live, originally]

/-- All of these are left: the roots are, and what the builtins lead to. -/
theorem originals (reworked : Reworked store refs ref old new after)
    (sound : store.Sound (refs ++ held) inner) (ne_builtins : ref ≠ .builtins)
    {rest : List Ref} (exact : after.Exact (roots ++ rest))
    (inside : other.index < initialCells.length) (ne_modules : other ≠ .modules) :
    after.payload? other = original other := by
  have root_live : ∀ root ∈ roots, ∃ cell, after.cell? root = some cell :=
    fun root member => exact.live_of_held (List.mem_append_left _ member)
  rcases mem_roots_or_builtins inside with root | named
  · obtain ⟨cell, live⟩ := root_live other root
    exact reworked.original_eq sound ne_builtins inside ne_modules live
  · obtain ⟨cell, live⟩ := root_live .builtins (by decide)
    have builtins := reworked.original_eq sound ne_builtins (by decide) (by decide) live
    rw [original_builtins] at builtins
    obtain ⟨count, present⟩ := cell?_of_payload? builtins
    obtain ⟨cell, live⟩ := exact.live_of_child present named
    exact reworked.original_eq sound ne_builtins inside ne_modules live

theorem keeps {rest anchors : List Ref} (reworked : Reworked store refs ref old new after)
    (exact : after.Exact (rest ++ anchors)) : Keeps anchors store after := by
  have live : ∀ other, store.Anchored anchors other → ∃ cell, after.cell? other = some cell := by
    intro other anchored
    induction anchored with
    | held member => exact exact.live_of_held (List.mem_append_right _ member)
    | part _ present fixed member ih =>
        obtain ⟨cell, ownerLive⟩ := ih
        obtain ⟨now, here, becomes⟩ := reworked.becomes ownerLive present
        obtain rfl := becomes.eq_of_fixed fixed
        obtain ⟨count, stored⟩ := cell?_of_payload? here
        exact exact.live_of_child stored member
  intro other anchored stored present
  obtain ⟨cell, live⟩ := live other anchored
  exact reworked.becomes live present

end Reworked

/-- A sound store is left when an object other than the table of builtins was worked on. -/
theorem Sound.of_rework {old new : Payload} (sound : store.Sound (refs ++ held) inner)
    (ne_builtins : ref ≠ .builtins) (reworked : Reworked store refs ref old new after)
    (exact : after.Exact (roots ++ (held ++ inner))) : store.Leaves held inner [] after where
  sound := {
    exact
    whole := fun _ _ => reworked.whole sound
    fits := fun _ _ present _ _ => reworked.fits sound exact present
    tables := fun _ _ => reworked.tables sound
    values := by
      intro other member
      obtain ⟨cell, live⟩ :=
        exact.live_of_held (List.mem_append_right _ (List.mem_append_left _ member))
      exact (sound.values other (List.mem_append_right _ member)).of_kind? (reworked.kind?_eq live)
    lone_none := fun _ => reworked.lone_none sound
    originals := fun _ => reworked.originals sound ne_builtins exact
    modules_dict := by
      obtain ⟨cell, live⟩ :=
        exact.live_of_held (List.mem_append_left _ (by decide : .modules ∈ roots))
      exact (reworked.kind?_eq live).trans sound.modules_dict }
  keeps := reworked.keeps exact

end Store

namespace StoreM

open Store Outcome

/-- What working on an object comes down to: it is made into something it may become,
and what it received or held before is in it or given back. -/
def Works (refs : List Ref) (payload : Payload)
    (work : StoreM τ (Payload × Except Cause α)) : Prop :=
  ∀ store rest, store.Exact (payload.children ++ (refs ++ rest)) →
    Ends (work store)
      (fun result after => after.Exact (result.1.children ++ rest) ∧ after.Remains store ∧
        Reworks refs payload result.1)
      (fun _ _ => False)

theorem lending_ends {work : Payload → StoreM τ (Payload × Except Cause α)}
    (sound : store.Sound (refs ++ held) inner)
    (secured : store.Secured (roots ++ (held ++ inner)) ref) (ne_builtins : ref ≠ .builtins)
    (works : ∀ payload, store.payload? ref = some payload → Works refs payload (work payload)) :
    Accounts (lending ref work) store held inner (fun _ => []) := by
  have owners : ∀ owner ∈ roots ++ (held ++ inner), owner ∈ roots ++ ((refs ++ held) ++ inner) := by
    intro owner member
    simp only [List.mem_append] at member ⊢
    tauto
  obtain ⟨payload, found⟩ : store.Filled ref := by
    rcases secured with anchored | ⟨owner, member, -, stored, present, owned⟩
    · exact sound.payload_of_held (owners ref anchored)
    · exact sound.payload_of_child present owned
  obtain ⟨count, stored⟩ := cell?_of_payload? found
  have inside := index_lt_of_cell? stored
  have lent : (StoreM.lend ref : StoreM τ Payload) store =
      .ok payload (store.setCell ref (some ⟨count, none⟩)) := by
    rw [StoreM.lend, stored]
  have lentExact : (store.setCell ref (some ⟨count, none⟩)).Exact
      (payload.children ++ (refs ++ (roots ++ (held ++ inner)))) := by
    refine (sound.exact.lend stored).perm (List.Perm.append_left _ ?_)
    rw [List.append_assoc]
    exact List.perm_append_comm_assoc _ _ _
  unfold Accounts lending
  rw [bind_ok lent]
  refine Ends.bind ((works payload found _ _ lentExact).mono (fun _ _ => id)
    (fun _ _ impossible => impossible.elim)) ?_
  rintro ⟨new, result⟩ worked ⟨workedExact, remains, reworks⟩
  have lent_cell := cell?_setCell inside (some ⟨count, none⟩)
  -- The owner of the object is still there, and so is the object.
  obtain ⟨cell, live⟩ : ∃ cell, worked.cell? ref = some cell := by
    rcases secured with anchored | ⟨owner, member, different, owning, present, owned⟩
    · exact workedExact.live_of_held (List.mem_append_right _ anchored)
    · obtain ⟨cell, live⟩ :=
        workedExact.live_of_held (List.mem_append_right _ member)
      obtain ⟨old, former, same⟩ := remains owner cell live
      rw [lent_cell, if_neg different] at former
      have children : cell.payload = some owning := by
        rw [← same, ← payload?_eq former, present]
      exact workedExact.live_of_child live (by rwa [Cell.children, children])
  obtain ⟨old, former, same⟩ := remains ref cell live
  rw [lent_cell, if_pos rfl] at former
  obtain rfl := Option.some.inj former
  obtain ⟨count', content⟩ := cell
  obtain rfl : none = content := same
  have put : (StoreM.putBack ref new : StoreM τ Unit) worked =
      .ok () (worked.setCell ref (some ⟨count', some new⟩)) := by
    rw [StoreM.putBack, live]
  have put_cell := cell?_setCell (index_lt_of_cell? live) (some ⟨count', some new⟩)
  have here : (worked.setCell ref (some ⟨count', some new⟩)).payload? ref = some new := by
    rw [payload?, put_cell, if_pos rfl]
    rfl
  have elsewhere : ∀ other ≠ ref, ∀ cell,
      (worked.setCell ref (some ⟨count', some new⟩)).cell? other = some cell →
        ∃ old, store.cell? other = some old ∧ old.payload = cell.payload := by
    intro other different cell stored
    rw [put_cell, if_neg different] at stored
    obtain ⟨old, former, same⟩ := remains other cell stored
    rw [lent_cell, if_neg different] at former
    exact ⟨old, former, same⟩
  have final := sound.of_rework ne_builtins ⟨found, here, reworks, elsewhere⟩
    (workedExact.putBack live)
  show Ends ((StoreM.putBack ref new >>= fun _ => settle result) worked) _ _
  rw [bind_ok put]
  cases result with
  | ok value => exact final
  | error cause => exact final

/-! ## Putting operations together -/

namespace Accounts

variable {φ : Type} {act : EStateM (Stop φ) (Store τ) α} {gives : α → List Ref}

theorem pure {value : α} (sound : store.Sound (gives value ++ held) inner) :
    Accounts (Pure.pure value : EStateM (Stop φ) (Store τ) α) store held inner gives :=
  ⟨sound, Keeps.refl _ store⟩

theorem throw {failure : φ} (sound : store.Sound held inner) :
    Accounts (throwThe (Stop φ) (.failed failure) : EStateM (Stop φ) (Store τ) α) store held inner
      gives :=
  ⟨sound, Keeps.refl _ store⟩

theorem raise {cause : Cause} (sound : store.Sound held inner) :
    Accounts (StoreM.raise cause) store held inner gives :=
  throw sound

/-- What was done before kept what others hold. -/
theorem after_keeping {before : Store τ} (keeps : Keeps (held ++ inner) before store)
    (accounts : Accounts act store held inner gives) :
    Ends (act store) (fun value => before.Leaves held inner (gives value))
      (fun _ => before.Leaves held inner []) :=
  Ends.mono accounts (fun _ _ later => ⟨later.sound, keeps.trans later.keeps⟩)
    (fun _ _ later => ⟨later.sound, keeps.trans later.keeps⟩)

/-- One operation takes over what the one before left with its caller. -/
theorem bind {next : α → EStateM (Stop φ) (Store τ) β} {leaves : β → List Ref}
    (first : Accounts act store held inner gives)
    (second : ∀ value after, store.Leaves held inner (gives value) after →
      Accounts (next value) after held inner leaves) :
    Accounts (act >>= next) store held inner leaves :=
  Ends.bind first fun value middle left => after_keeping left.keeps (second value middle left)

/-- What is left with the caller where a failure is handed over as a value. -/
def orNothing (gives : α → List Ref) : Except φ α → List Ref
  | .ok value => gives value
  | .error _ => []

theorem attempt (accounts : Accounts act store held inner gives) (fails : φ → Store τ → Prop) :
    Ends (Outcome.attempt act store)
      (fun result => store.Leaves held inner (orNothing gives result)) fails :=
  Ends.attempt (Ends.mono accounts (fun _ _ left => left) (fun _ _ left => left))

theorem settle {result : Except φ α}
    (sound : store.Sound (orNothing gives result ++ held) inner) :
    Accounts (Outcome.settle result : EStateM (Stop φ) (Store τ) α) store held inner gives := by
  cases result with
  | ok value => exact pure sound
  | error failure => exact throw sound

variable [Tracker τ] {act : StoreM τ α}

/-- References are given back before an operation goes on. -/
theorem releaseAll_bind {next : Unit → StoreM τ α} {taken : List Ref}
    (sound : store.Sound (refs ++ taken) inner) (fewer : held ⊆ taken)
    (rest : ∀ after, store.Leaves taken inner [] after →
      Accounts (next ()) after held inner gives) :
    Accounts (StoreM.releaseAll refs >>= next) store held inner gives := by
  obtain ⟨after, released, left, -⟩ := releaseAll_sound sound
  unfold Accounts
  rw [bind_ok released]
  refine after_keeping (left.keeps.mono ?_) (rest after left)
  exact List.append_subset.mpr
    ⟨List.Subset.trans fewer (List.subset_append_left _ _), List.subset_append_right _ _⟩

/-- References are held while an operation runs, and given back in any case. -/
theorem releasing (accounts : Accounts act store (refs ++ held) inner gives) :
    Accounts (StoreM.releasing refs act) store held inner gives := by
  refine Ends.bind (accounts.attempt _) ?_
  intro result middle left
  obtain ⟨after, released, rest, -⟩ := releaseAll_sound left.borrowed
  have final := left.give_back rest
  rw [bind_ok released]
  exact after_keeping final.keeps (settle final.sound)

/-- References are held while an operation runs, and given back if it fails. -/
theorem orRelease_ends {returns : α → Store τ → Prop}
    (body : Ends (act store) returns fun _ => store.Leaves (refs ++ held) inner []) :
    Ends (StoreM.orRelease refs act store) returns fun _ => store.Leaves held inner [] := by
  refine Ends.bind body.handed ?_
  intro result middle left
  cases result with
  | ok value => exact left
  | error cause =>
      obtain ⟨after, released, rest, -⟩ := releaseAll_sound left.borrowed
      simp only
      rw [bind_ok released]
      exact left.give_back rest

theorem orRelease (accounts : Accounts act store (refs ++ held) inner gives) :
    Accounts (StoreM.orRelease refs act) store held inner (fun value => gives value ++ refs) := by
  refine orRelease_ends (Ends.imp accounts ?_)
  intro value after left
  refine ⟨?_, left.keeps.mono ?_⟩
  · rw [List.append_assoc]
    exact left.sound
  · rw [List.append_assoc]
    exact List.subset_append_right _ _

/-- An object is made of references that the caller gives to it. -/
theorem allocate_knowing (sound : store.Sound (payload.children ++ held) inner)
    (makes : store.Makes payload) (plain : Role.value.Allows (some payload.kind)) :
    Ends (StoreM.allocate payload store)
      (fun ref after => store.Leaves held inner [ref] after ∧ after.payload? ref = some payload)
      (fun _ => store.Leaves held inner []) := by
  have owing : (roots ++ ((payload.children ++ held) ++ inner)).Perm
      (payload.children ++ (roots ++ (held ++ inner))) := by
    rw [List.append_assoc]
    exact List.perm_append_comm_assoc _ _ _
  refine Ends.mono (allocate_ends sound makes (List.subset_append_right _ _) owing) ?_ ?_
  · rintro ref after ⟨value, -, keeps, found⟩
    exact ⟨⟨value plain, keeps⟩, found⟩
  · rintro cause after ⟨rest, keeps⟩
    exact ⟨rest, keeps⟩

theorem allocate (sound : store.Sound (payload.children ++ held) inner)
    (makes : store.Makes payload) (plain : Role.value.Allows (some payload.kind)) :
    Accounts (StoreM.allocate payload) store held inner (fun ref => [ref]) :=
  (allocate_knowing sound makes plain).imp fun _ _ left => left.1

omit [Tracker τ]

theorem acquire (sound : store.Sound held inner) (usable : store.Usable ref) :
    Accounts (StoreM.acquire ref) store held inner (fun ref => [ref]) := by
  obtain ⟨after, acquired, afterSound, same⟩ := acquire_value sound usable
  unfold Accounts
  rw [acquired]
  exact ⟨afterSound, same.keeps _⟩

/-- One more reference to an object is taken before an operation goes on. -/
theorem acquire_bind {next : Ref → StoreM τ α} {taken : List Ref}
    (sound : store.Sound taken inner) (usable : store.Usable ref)
    (rest : ∀ after, after.Sound (ref :: taken) inner → SamePayloads store after →
      Accounts (next ref) after held inner gives) :
    Accounts (StoreM.acquire ref >>= next) store held inner gives := by
  obtain ⟨after, acquired, afterSound, same⟩ := acquire_value sound usable
  unfold Accounts
  rw [bind_ok acquired]
  exact after_keeping (same.keeps _) (rest after afterSound same)

theorem acquireAll_bind {next : Unit → StoreM τ α} {taken : List Ref}
    (sound : store.Sound taken inner) (usable : ∀ ref ∈ refs, store.Usable ref)
    (rest : ∀ after, after.Sound (refs ++ taken) inner → SamePayloads store after →
      Accounts (next ()) after held inner gives) :
    Accounts (StoreM.acquireAll refs >>= next) store held inner gives := by
  obtain ⟨after, acquired, afterSound, same⟩ := acquireAll_values sound usable
  unfold Accounts
  rw [bind_ok acquired]
  exact after_keeping (same.keeps _) (rest after afterSound same)

/-- An object is read before an operation goes on. -/
theorem get_bind {next : Payload → StoreM τ α} (found : store.payload? ref = some payload)
    (rest : Accounts (next payload) store held inner gives) :
    Accounts (StoreM.get ref >>= next) store held inner gives := by
  unfold Accounts
  rw [StoreM.get_bind found]
  exact rest

end Accounts

end StoreM

end StackMachine
