import StackMachine.Proofs.Store.Releasing
import StackMachine.Store.Conversion

/-!
# What an object is shown as

What an object is shown as depends on the objects it leads to and on nothing else.  Objects that
somebody holds lead to the same objects while others are made and given back, so they are shown
as before.

An object that does not lead to itself never meets itself.  A container that has just been made is
one: everything its items lead to was there before it.
-/

namespace StackMachine

/-- The text of a string that was made of a text is that text. -/
theorem Bytes.toText_ofString (text : String) : (Bytes.ofString text).toText = text := by
  have valid : String.fromUTF8? ⟨Bytes.ofString text⟩ = some text := dif_pos text.isValidUTF8
  rw [Bytes.toText, valid]

theorem Bytes.ofString_injective : Function.Injective Bytes.ofString :=
  Function.LeftInverse.injective toText_ofString

namespace Store

open Relation

variable {τ : Type} {store before middle after : Store τ} {ref owner part : Ref}
variable {held more roots : List Ref} {payload : Payload} {room : Nat} {visiting : List Ref}

/-! ## What stays as it is -/

theorem owns_iff : store.Owns owner part ↔
    ∃ payload, store.payload? owner = some payload ∧ part ∈ payload.children := by
  constructor
  · rintro ⟨⟨count, content⟩, found, member⟩
    cases content with
    | none => cases member
    | some payload => exact ⟨payload, payload?_eq found, member⟩
  · rintro ⟨payload, found, member⟩
    obtain ⟨count, present⟩ := cell?_of_payload? found
    exact ⟨_, present, member⟩

theorem LeadsTo.refl (member : ref ∈ held) : store.LeadsTo held ref :=
  ⟨ref, member, .refl⟩

theorem LeadsTo.mono (fewer : held ⊆ more) (leads : store.LeadsTo held ref) :
    store.LeadsTo more ref := by
  obtain ⟨root, member, path⟩ := leads
  exact ⟨root, fewer member, path⟩

/-- What the parts of an object lead to, the object leads to. -/
theorem LeadsTo.of_children (found : store.payload? owner = some payload)
    (leads : store.LeadsTo payload.children ref) : store.LeadsTo [owner] ref := by
  obtain ⟨part, member, path⟩ := leads
  exact ⟨owner, List.mem_singleton_self owner, .head (owns_iff.mpr ⟨payload, found, member⟩) path⟩

/-- Everything that some references lead to is what it was. -/
def Untouched (held : List Ref) (before after : Store τ) : Prop :=
  ∀ ref, before.LeadsTo held ref →
    (after.cell? ref).map Cell.payload = (before.cell? ref).map Cell.payload

namespace Untouched

theorem refl (held : List Ref) (store : Store τ) : Untouched held store store :=
  fun _ _ => rfl

theorem mono (untouched : Untouched more before after) (fewer : held ⊆ more) :
    Untouched held before after :=
  fun ref leads => untouched ref (leads.mono fewer)

theorem payload?_eq (untouched : Untouched held before after) (leads : before.LeadsTo held ref) :
    after.payload? ref = before.payload? ref := by
  have same := untouched ref leads
  revert same
  unfold payload?
  cases before.cell? ref <;> cases after.cell? ref <;> simp

theorem get_eq (untouched : Untouched held before after) (leads : before.LeadsTo held ref) :
    after.get ref = before.get ref := by
  have same := untouched ref leads
  revert same
  unfold get
  rcases before.cell? ref with _ | ⟨_, _ | _⟩ <;> rcases after.cell? ref with _ | ⟨_, _ | _⟩ <;>
    simp

/-- The same references lead to the same objects. -/
theorem leadsTo_iff (untouched : Untouched held before after) :
    after.LeadsTo held ref ↔ before.LeadsTo held ref := by
  constructor
  · rintro ⟨root, member, path⟩
    induction path with
    | refl => exact .refl member
    | tail path owns ih =>
        obtain ⟨payload, found, isChild⟩ := owns_iff.mp owns
        rw [untouched.payload?_eq ih] at found
        exact ih.step (owns_iff.mpr ⟨payload, found, isChild⟩)
  · rintro ⟨root, member, path⟩
    induction path with
    | refl => exact .refl member
    | tail path owns ih =>
        obtain ⟨payload, found, isChild⟩ := owns_iff.mp owns
        rw [← untouched.payload?_eq ⟨root, member, path⟩] at found
        exact ih.step (owns_iff.mpr ⟨payload, found, isChild⟩)

theorem trans (earlier : Untouched held before middle) (later : Untouched held middle after) :
    Untouched held before after :=
  fun ref leads => (later ref (earlier.leadsTo_iff.mpr leads)).trans (earlier ref leads)

/-- What is held stays when other references are given back. -/
theorem of_remains (exact : after.Exact held) (remains : after.Remains before) :
    Untouched held before after := by
  intro ref leads
  obtain ⟨cell, found⟩ := isLive_iff.mp (exact.leadsTo remains leads).2
  obtain ⟨old, present, same⟩ := remains ref cell found
  simp [found, present, same]

/-- What is held stays when an object is made. -/
theorem of_place (exact : store.Exact held) (payload : Payload) :
    Untouched held store (store.place payload).2 := by
  intro ref leads
  obtain ⟨cell, found⟩ := isLive_iff.mp (exact.leadsTo (.refl store) leads).2
  rw [exact.cell?_place, if_neg]
  rintro rfl
  rw [exact.place_vacant] at found
  cases found

end Untouched

/-- A new object is in a slot that nothing led to. -/
theorem not_leadsTo_place (exact : store.Exact held) (payload : Payload) :
    ¬ (store.place payload).2.LeadsTo held (store.place payload).1 := by
  intro leads
  rw [(Untouched.of_place exact payload).leadsTo_iff] at leads
  obtain ⟨cell, found⟩ := isLive_iff.mp (exact.leadsTo (.refl store) leads).2
  rw [exact.place_vacant] at found
  cases found

/-! ## Showing -/

theorem showAll_congr {α β : Type} {show_ other : α → Except (Stop Cause) β} {items : List α}
    (same : ∀ item ∈ items, show_ item = other item) :
    showAll show_ items = showAll other items := by
  induction items with
  | nil => rfl
  | cons item rest ih =>
      have later := ih fun other member => same other (List.mem_cons_of_mem _ member)
      unfold showAll
      rw [same item List.mem_cons_self, later]

theorem showAll_eq_ok {α β : Type} {show_ : α → Except (Stop Cause) β} {items : List α}
    {shown : List β}
    (each : List.Forall₂ (fun item result => show_ item = .ok result) items shown) :
    showAll show_ items = .ok shown := by
  induction each with
  | nil => rfl
  | cons first _ ih =>
      unfold showAll
      rw [first, ih]
      rfl

namespace Untouched

theorem showLeaf_eq (untouched : Untouched [ref] before after)
    (found : before.payload? ref = some payload) :
    after.showLeaf payload = before.showLeaf payload := by
  cases payload with
  | module title attrs =>
      have leads : before.LeadsTo [ref] title := .of_children found (.refl List.mem_cons_self)
      simp only [showLeaf, untouched.get_eq leads]
  | _ => rfl

/-- Objects that lead to the same objects are shown in the same way. -/
theorem toObjectWithin_eq (untouched : Untouched [ref] before after) (room : Nat)
    (visiting : List Ref) :
    after.toObjectWithin room visiting ref = before.toObjectWithin room visiting ref := by
  induction room generalizing visiting ref with
  | zero =>
      unfold toObjectWithin
      rw [untouched.get_eq (.refl (List.mem_singleton_self ref))]
      cases got : before.get ref with
      | error stop => rfl
      | ok payload =>
          simp only [bind, Except.bind]
          rw [untouched.showLeaf_eq (get_eq_ok_iff.mp got)]
  | succ room ih =>
      unfold toObjectWithin
      rw [untouched.get_eq (.refl (List.mem_singleton_self ref))]
      cases got : before.get ref with
      | error stop => rfl
      | ok payload =>
          have found := get_eq_ok_iff.mp got
          have parts : ∀ part ∈ payload.children, ∀ visiting,
              after.toObjectWithin room visiting part =
                before.toObjectWithin room visiting part := by
            intro part member visiting
            have inside : Untouched [part] before after := by
              intro other leads
              exact untouched other (.of_children found (leads.mono (by simpa using member)))
            exact ih inside visiting
          have same : ∀ parts ⊆ payload.children,
              showAll (after.toObjectWithin room (ref :: visiting)) parts =
                showAll (before.toObjectWithin room (ref :: visiting)) parts :=
            fun _ inside => showAll_congr fun part member => parts part (inside member) _
          simp only [bind, Except.bind]
          rw [untouched.showLeaf_eq found]
          cases payload with
          | list items => simp only [same items.toList (List.Subset.refl _)]
          | tuple items => simp only [same items.toList (List.Subset.refl _)]
          | dict table =>
              have told : showAll (fun entry : Bytes × Ref => do
                    return (entry.1.toText, ← after.toObjectWithin room (ref :: visiting) entry.2))
                    table.entries = showAll (fun entry : Bytes × Ref => do
                      return (entry.1.toText,
                        ← before.toObjectWithin room (ref :: visiting) entry.2))
                      table.entries := by
                refine showAll_congr fun entry member => ?_
                rw [parts entry.2 (List.mem_map_of_mem member)]
              simp only [bind, Except.bind] at told
              simp only [told]
          | _ => rfl

end Untouched

/-- An object is shown as `shown`, inside of whatever it does not lead to. -/
def Shows (store : Store τ) (room : Nat) (ref : Ref) (shown : Object) : Prop :=
  ∀ visiting, (∀ outer ∈ visiting, ¬ store.LeadsTo [ref] outer) →
    store.toObjectWithin room visiting ref = .ok shown

namespace Shows

variable {shown : Object}

theorem toObject (shows_ : store.Shows (maxDepth + 1) ref shown) :
    store.toObject ref = .ok shown :=
  shows_ [] fun _ member => by cases member

theorem of_untouched (shows_ : before.Shows room ref shown)
    (untouched : Untouched [ref] before after) : after.Shows room ref shown := by
  intro visiting outside
  rw [untouched.toObjectWithin_eq]
  exact shows_ visiting fun outer member leads =>
    outside outer member (untouched.leadsTo_iff.mpr leads)

theorem leaf (found : store.payload? ref = some payload) (plain : payload.placeholder? = none)
    (told : store.showLeaf payload = .ok shown) (room : Nat) : store.Shows room ref shown := by
  intro visiting _
  have got := get_eq_ok_iff.mpr found
  cases room with
  | zero =>
      unfold toObjectWithin
      rw [got]
      simp only [bind, Except.bind, plain, told]
  | succ room =>
      unfold toObjectWithin
      rw [got]
      simp only [bind, Except.bind, plain, told]

/-- Inside of a container that its parts do not lead to, a part does not lead outside. -/
theorem outside_parts (found : store.payload? ref = some payload)
    (apart : ¬ store.LeadsTo payload.children ref)
    (outside : ∀ outer ∈ visiting, ¬ store.LeadsTo [ref] outer) :
    ∀ part ∈ payload.children, ∀ outer ∈ ref :: visiting, ¬ store.LeadsTo [part] outer := by
  intro part member outer listed leads
  have inside : store.LeadsTo payload.children outer := leads.mono (by simpa using member)
  rcases List.mem_cons.mp listed with rfl | further
  · exact apart inside
  · exact outside outer further (.of_children found inside)

theorem not_visited (outside : ∀ outer ∈ visiting, ¬ store.LeadsTo [ref] outer) :
    visiting.contains ref = false := by
  rw [← Bool.not_eq_true, List.contains_iff_mem]
  exact fun member => outside ref member (.refl (List.mem_singleton_self ref))

/-- The parts of a list or a tuple are shown inside of it. -/
theorem showAll_parts {parts : List Ref} {shown : List Object}
    (found : store.payload? ref = some payload) (owned : payload.children = parts)
    (apart : ¬ store.LeadsTo parts ref)
    (outside : ∀ outer ∈ visiting, ¬ store.LeadsTo [ref] outer)
    (each : List.Forall₂ (store.Shows room) parts shown) :
    showAll (store.toObjectWithin room (ref :: visiting)) parts = .ok shown := by
  subst owned
  have inside := (List.forall₂_and_left _ _).mpr ⟨outside_parts found apart outside, each⟩
  exact showAll_eq_ok (inside.imp fun _ _ known => known.2 _ known.1)

theorem list {items : Array Ref} {shown : List Object}
    (found : store.payload? ref = some (.list items)) (apart : ¬ store.LeadsTo items.toList ref)
    (each : List.Forall₂ (store.Shows room) items.toList shown) :
    store.Shows (room + 1) ref (.list shown) := by
  intro visiting outside
  have told : showAll (store.toObjectWithin room (ref :: visiting)) items.toList = .ok shown :=
    showAll_parts found rfl apart outside each
  unfold toObjectWithin
  rw [get_eq_ok_iff.mpr found]
  simp only [bind, Except.bind, Payload.placeholder?, not_visited outside, told]
  rfl

theorem tuple {items : Array Ref} {shown : List Object}
    (found : store.payload? ref = some (.tuple items)) (apart : ¬ store.LeadsTo items.toList ref)
    (each : List.Forall₂ (store.Shows room) items.toList shown) :
    store.Shows (room + 1) ref (.tuple shown) := by
  intro visiting outside
  have told : showAll (store.toObjectWithin room (ref :: visiting)) items.toList = .ok shown :=
    showAll_parts found rfl apart outside each
  unfold toObjectWithin
  rw [get_eq_ok_iff.mpr found]
  simp only [bind, Except.bind, Payload.placeholder?, not_visited outside, told]
  rfl

theorem dict {table : Table Ref} {shown : List (String × Object)}
    (found : store.payload? ref = some (.dict table)) (apart : ¬ store.LeadsTo table.values ref)
    (each : List.Forall₂ (fun entry pair => entry.1.toText = pair.1 ∧
      store.Shows room entry.2 pair.2) table.entries shown) :
    store.Shows (room + 1) ref (.dict shown) := by
  intro visiting outside
  have inside : ∀ entry ∈ table.entries, ∀ outer ∈ ref :: visiting,
      ¬ store.LeadsTo [entry.2] outer :=
    fun entry member => outside_parts found apart outside entry.2 (List.mem_map_of_mem member)
  have parts := (List.forall₂_and_left _ _).mpr ⟨inside, each⟩
  have told : showAll (fun entry : Bytes × Ref => do
      return (entry.1.toText, ← store.toObjectWithin room (ref :: visiting) entry.2))
      table.entries = .ok shown := by
    refine showAll_eq_ok (parts.imp fun _ _ known => ?_)
    rw [known.2.2 _ known.1, known.2.1]
    rfl
  simp only [bind, Except.bind] at told
  unfold toObjectWithin
  rw [get_eq_ok_iff.mpr found]
  simp only [bind, Except.bind, Payload.placeholder?, not_visited outside, told]
  rfl

end Shows

end Store

end StackMachine
