import StackMachine.Proofs.Evolution.Weighing

/-!
# What can happen to a store

All that ever happens to a store is that its tracker is asked something, that a reference is
taken or given back, that an object is freed or made, and that a container is worked on in
place.  `Change` lists these, and a `Path` is a number of them, one after the other, on which
no object becomes heavier than the tracker has agreed to.

Every operation of the machine takes its store along a path, so what one change keeps is
kept for good.  A path may be restricted in the objects that are made on it, or in those that are
freed.
-/

namespace StackMachine

open Relation

/-- Is this neither a frame nor an entry of a traceback? -/
def Payload.IsPlain (payload : Payload) : Prop :=
  payload.kind ≠ .frame ∧ payload.kind ≠ .traceback

instance (payload : Payload) : Decidable payload.IsPlain :=
  inferInstanceAs (Decidable (_ ∧ _))

/-- Is this no dictionary either? -/
def Payload.IsSimple (payload : Payload) : Prop :=
  payload.IsPlain ∧ payload.kind ≠ .dictionary

instance (payload : Payload) : Decidable payload.IsSimple :=
  inferInstanceAs (Decidable (_ ∧ _))

/-- No object is made or freed for the question: an object is only asked for in vain. -/
def Query.IsIdle {τ : Type} [Tracker τ] (query : Query) (tracker : τ) : Prop :=
  match query with
  | .allocate size => (Tracker.allocate size tracker).1.isSome
  | .free _ => False
  | .insert | .tick | .enter _ | .build _ => True

/-- Trackers that one comes to by asking another. -/
def Asked {τ : Type} [Tracker τ] : τ → τ → Prop :=
  ReflTransGen fun before after => ∃ query : Query, after = (query.pose before).2

/-- What no question changes holds of a tracker for good. -/
theorem Asked.keeps {τ : Type} [Tracker τ] {before after : τ} {holds : τ → Prop}
    (asked : Asked before after)
    (kept : ∀ (query : Query) tracker, holds tracker → holds (query.pose tracker).2)
    (initially : holds before) : holds after := by
  induction asked with
  | refl => exact initially
  | tail _ posed ih =>
      obtain ⟨query, rfl⟩ := posed
      exact kept query _ ih

/-- On the way from one tracker to another, a question got this answer. -/
def Answered {τ : Type} [Tracker τ] (query : Query) (answer : Option Refusal)
    (before after : τ) : Prop :=
  ∃ asked, Asked before asked ∧ (query.pose asked).1 = answer ∧ Asked (query.pose asked).2 after

section Answered

variable {τ ρ : Type} [Tracker τ] [Tracker ρ] {before middle after : τ} {query : Query}
variable {answer : Option Refusal}

theorem answered_once (query : Query) (tracker : τ) :
    Answered query (query.pose tracker).1 tracker (query.pose tracker).2 :=
  ⟨tracker, ReflTransGen.refl, rfl, ReflTransGen.refl⟩

theorem Answered.of_asked (answered : Answered query answer middle after)
    (asked : Asked before middle) : Answered query answer before after := by
  obtain ⟨there, earlier, same, later⟩ := answered
  exact ⟨there, ReflTransGen.trans asked earlier, same, later⟩

theorem Answered.before_asked (answered : Answered query answer before middle)
    (asked : Asked middle after) : Answered query answer before after := by
  obtain ⟨there, earlier, same, later⟩ := answered
  exact ⟨there, earlier, same, ReflTransGen.trans later asked⟩

theorem Asked.continues {before after : Watched τ ρ} (asked : Asked before after) :
    before.Continues after := by
  induction asked with
  | refl => exact .refl before
  | tail _ posed ih =>
      obtain ⟨query, rfl⟩ := posed
      rw [Watched.pose_eq]
      exact ih.trans (Watched.continues_note query _)

/-- With a watched tracker, the question and its answer are in the log since then. -/
theorem Answered.logged {before after : Watched τ ρ}
    (answered : Answered query answer before after) :
    ∃ earlier echo, before.log <:+ earlier ∧ ⟨query, answer, echo⟩ :: earlier <:+ after.log := by
  obtain ⟨there, asked, rfl, later⟩ := answered
  rw [Watched.pose_eq] at later ⊢
  exact ⟨there.log, _, asked.continues.log, later.continues.log⟩

end Answered

namespace Store

variable {τ : Type} [Tracker τ] {before middle after store : Store τ} {ref : Ref}
variable {allowed allowed' : Payload → Prop}

/-- The store after its tracker was asked. -/
def asking (query : Query) (store : Store τ) : Store τ :=
  { store with tracker := (query.pose store.tracker).2 }

/-- A change that leaves all objects as they are, but for those that are freed. -/
inductive Tidying (before : Store τ) : Store τ → Prop where
  | ask (query : Query) (idle : query.IsIdle before.tracker) : Tidying before (before.asking query)
  | recount {ref : Ref} {cell : Cell} (found : before.cell? ref = some cell) (count : Nat) :
      Tidying before (before.setCell ref (some { cell with count }))
  | vacate {ref : Ref} {cell : Cell} (found : before.cell? ref = some cell)
      (last : ¬ 1 < cell.count) : Tidying before (before.vacate ref cell.payload)

/-- Something that happens to a store.  An object that is worked on in place is out of its
slot meanwhile, and nothing is made until it is back. -/
inductive Change (allowed : Payload → Prop) (before : Store τ) : Store τ → Prop where
  | tidy {after : Store τ} (tidying : Tidying before after) : Change allowed before after
  | make (payload : Payload) (fits : allowed payload)
      (granted : (Tracker.allocate payload.bytes before.tracker).1 = none) :
      Change allowed before ((before.asking (.allocate payload.bytes)).place payload).2
  | rework {ref : Ref} {count : Nat} {payload new : Payload} {lent : Store τ} {cell : Cell}
      (found : before.cell? ref = some ⟨count, some payload⟩)
      (meanwhile : ReflTransGen Tidying (before.setCell ref (some ⟨count, none⟩)) lent)
      (kept : lent.cell? ref = some cell) (becomes : payload.Becomes new) :
      Change allowed before (lent.setCell ref (some { cell with payload := some new }))

theorem Change.mono (change : Change allowed before after)
    (more : ∀ payload, allowed payload → allowed' payload) : Change allowed' before after := by
  cases change with
  | tidy tidying => exact .tidy tidying
  | make payload fits granted => exact .make payload (more payload fits) granted
  | rework found meanwhile kept becomes => exact .rework found meanwhile kept becomes

/-! ## The tracker -/

theorem Tidying.asked (tidying : Tidying before after) : Asked before.tracker after.tracker := by
  cases tidying with
  | ask query idle => exact ReflTransGen.single ⟨query, rfl⟩
  | recount found count => exact ReflTransGen.refl
  | @vacate ref cell found last =>
      cases cell.payload with
      | none => exact ReflTransGen.refl
      | some payload => exact ReflTransGen.single ⟨.free payload.bytes, rfl⟩

theorem asked_of_tidyings (tidyings : ReflTransGen Tidying before after) :
    Asked before.tracker after.tracker := by
  induction tidyings with
  | refl => exact ReflTransGen.refl
  | tail _ tidying ih => exact ReflTransGen.trans ih tidying.asked

omit [Tracker τ] in
theorem tracker_place (store : Store τ) (payload : Payload) :
    (store.place payload).2.tracker = store.tracker := by
  unfold place
  split <;> rfl

theorem Change.asked (change : Change allowed before after) :
    Asked before.tracker after.tracker := by
  cases change with
  | tidy tidying => exact tidying.asked
  | make payload fits granted =>
      rw [tracker_place]
      exact ReflTransGen.single ⟨.allocate payload.bytes, rfl⟩
  | rework found meanwhile kept becomes => exact (asked_of_tidyings meanwhile :)

theorem asked_of_changes (changes : ReflTransGen (Change allowed) before after) :
    Asked before.tracker after.tracker := by
  induction changes with
  | refl => exact ReflTransGen.refl
  | tail _ change ih => exact ReflTransGen.trans ih change.asked

/-! ## Slots and kinds -/

/-- Every slot of the free list is vacant, and on it once. -/
structure Vacancies (store : Store τ) : Prop where
  nodup : store.free.Nodup
  inside : ∀ ref ∈ store.free, ref.index < store.cells.size
  vacant : ∀ ref ∈ store.free, store.cell? ref = none

omit [Tracker τ] in
theorem Exact.vacancies {held : List Ref} (exact : store.Exact held) : store.Vacancies :=
  ⟨exact.free_nodup, fun ref member => ((exact.mem_free ref).mp member).1,
    fun ref member => ((exact.mem_free ref).mp member).2⟩

omit [Tracker τ] in
/-- A slot that is not vacant may be filled with something else. -/
theorem Vacancies.setCell (vacancies : store.Vacancies) {cell : Cell}
    (found : store.cell? ref = some cell) (new : Option Cell) :
    (store.setCell ref new).Vacancies where
  nodup := vacancies.nodup
  inside other member := by
    rw [cells_size_setCell]
    exact vacancies.inside other member
  vacant other member := by
    rw [cell?_setCell (index_lt_of_cell? found), if_neg, vacancies.vacant other member]
    rintro rfl
    rw [vacancies.vacant other member] at found
    cases found

theorem Vacancies.vacate (vacancies : store.Vacancies) {cell : Cell}
    (found : store.cell? ref = some cell) : (store.vacate ref cell.payload).Vacancies where
  nodup := by
    refine List.nodup_cons.mpr ⟨fun member => ?_, vacancies.nodup⟩
    rw [vacancies.vacant ref member] at found
    cases found
  inside other member := by
    have size : (store.vacate ref cell.payload).cells.size = store.cells.size :=
      Array.size_setIfInBounds
    rw [size]
    rcases List.mem_cons.mp member with rfl | earlier
    · exact index_lt_of_cell? found
    · exact vacancies.inside other earlier
  vacant other member := by
    show (store.setCell ref none).cell? other = none
    rw [cell?_setCell (index_lt_of_cell? found)]
    split
    · rfl
    · rename_i different
      exact vacancies.vacant other ((List.mem_cons.mp member).resolve_left different)

omit [Tracker τ] in
/-- An object is made in a vacant slot, and the others stay as they are. -/
theorem Vacancies.place (vacancies : store.Vacancies) (payload : Payload) :
    (store.place payload).2.Vacancies ∧ store.cell? (store.place payload).1 = none ∧
      ∀ other, (store.place payload).2.cell? other = if other = (store.place payload).1
        then some ⟨1, some payload⟩ else store.cell? other := by
  unfold Store.place
  split
  · rename_i first free listed
    have member : first ∈ store.free := listed ▸ List.mem_cons_self
    have nodup := vacancies.nodup
    rw [listed, List.nodup_cons] at nodup
    have cells := cell?_setCell (vacancies.inside first member) (some ⟨1, some payload⟩)
    refine ⟨⟨nodup.2, fun other listed' => ?_, fun other listed' => ?_⟩,
      vacancies.vacant first member, cells⟩
    · rw [cells_size_setCell]
      exact vacancies.inside other (listed ▸ List.mem_cons_of_mem _ listed')
    · refine (cells other).trans ?_
      rw [if_neg]
      · exact vacancies.vacant other (listed ▸ List.mem_cons_of_mem _ listed')
      · rintro rfl
        exact nodup.1 listed'
  · rename_i listed
    refine ⟨⟨listed ▸ List.nodup_nil, by simp [listed], by simp [listed]⟩, by simp [cell?], ?_⟩
    intro other
    simp only [cell?, Array.getElem?_push]
    by_cases same : other = ⟨store.cells.size⟩
    · simp [same]
    · have different : other.index ≠ store.cells.size := fun equal => same (Ref.ext_index equal)
      simp [same, different]

theorem Tidying.vacancies (tidying : Tidying before after) (vacancies : before.Vacancies) :
    after.Vacancies := by
  cases tidying with
  | ask query idle => exact ⟨vacancies.nodup, vacancies.inside, vacancies.vacant⟩
  | recount found count => exact vacancies.setCell found _
  | vacate found last => exact vacancies.vacate found

theorem vacancies_of_tidyings (tidyings : ReflTransGen Tidying before after)
    (vacancies : before.Vacancies) : after.Vacancies := by
  induction tidyings with
  | refl => exact vacancies
  | tail _ tidying ih => exact tidying.vacancies ih

theorem Change.vacancies (change : Change allowed before after) (vacancies : before.Vacancies) :
    after.Vacancies := by
  cases change with
  | tidy tidying => exact tidying.vacancies vacancies
  | make payload fits granted =>
      have asked : (before.asking (.allocate payload.bytes)).Vacancies :=
        ⟨vacancies.nodup, vacancies.inside, vacancies.vacant⟩
      exact (asked.place payload).1
  | rework found meanwhile kept becomes =>
      exact (vacancies_of_tidyings meanwhile (vacancies.setCell found _)).setCell kept _

theorem vacancies_of_changes (changes : ReflTransGen (Change allowed) before after)
    (vacancies : before.Vacancies) : after.Vacancies := by
  induction changes with
  | refl => exact vacancies
  | tail _ change ih => exact change.vacancies ih

theorem Tidying.remains (tidying : Tidying before after) : after.Remains before := by
  intro other cell found
  cases tidying with
  | ask query idle => exact ⟨cell, found, rfl⟩
  | @recount ref old present count =>
      rw [cell?_setCell (index_lt_of_cell? present)] at found
      split at found
      · rename_i same
        obtain rfl := Option.some.inj found
        exact ⟨old, same ▸ present, rfl⟩
      · exact ⟨cell, found, rfl⟩
  | @vacate ref old present last =>
      have cells : (before.vacate ref old.payload).cell? other =
          (before.setCell ref none).cell? other := rfl
      rw [cells, cell?_setCell (index_lt_of_cell? present)] at found
      split at found
      · cases found
      · exact ⟨cell, found, rfl⟩

theorem remains_of_tidyings (tidyings : ReflTransGen Tidying before after) :
    after.Remains before := by
  induction tidyings with
  | refl => exact Remains.refl before
  | tail _ tidying ih => exact tidying.remains.trans ih

/-- What is in a slot after it was worked on in place. -/
theorem payload?_rework {count : Nat} {payload new : Payload} {lent : Store τ} {cell : Cell}
    (found : before.cell? ref = some ⟨count, some payload⟩)
    (meanwhile : ReflTransGen Tidying (before.setCell ref (some ⟨count, none⟩)) lent)
    (kept : lent.cell? ref = some cell) {other : Ref} {stored : Payload}
    (present : (lent.setCell ref (some { cell with payload := some new })).payload? other =
      some stored) :
    (other = ref ∧ stored = new) ∨ (other ≠ ref ∧ before.payload? other = some stored) := by
  have inside := index_lt_of_cell? kept
  rw [payload?, cell?_setCell inside] at present
  split at present
  · rename_i same
    exact Or.inl ⟨same, (Option.some.inj present).symm⟩
  · rename_i different
    have kept : lent.payload? other = some stored := present
    obtain ⟨old, earlier⟩ := cell?_of_payload? kept
    obtain ⟨first, there, same⟩ := remains_of_tidyings meanwhile other _ earlier
    rw [cell?_setCell (index_lt_of_cell? found), if_neg different] at there
    exact Or.inr ⟨different, by rw [payload?_eq there, same]⟩

/-- Where an object is made, the others stay as they are. -/
theorem payload?_make {payload : Payload} (vacancies : before.Vacancies) (made : Payload)
    (found : before.payload? ref = some payload) :
    ((before.asking (.allocate made.bytes)).place made).2.payload? ref = some payload := by
  have asked : (before.asking (.allocate made.bytes)).Vacancies :=
    ⟨vacancies.nodup, vacancies.inside, vacancies.vacant⟩
  obtain ⟨-, vacant, cells⟩ := asked.place made
  rw [payload?, cells, if_neg]
  · exact found
  · rintro rfl
    obtain ⟨count, stored⟩ := cell?_of_payload? found
    have there : before.cell? _ = none := vacant
    rw [there] at stored
    cases stored

/-- An object that stays is what it was, or it is a container that was worked on. -/
theorem Change.becomes {payload new : Payload} (change : Change allowed before after)
    (vacancies : before.Vacancies) (found : before.payload? ref = some payload)
    (present : after.payload? ref = some new) : payload.Becomes new := by
  cases change with
  | tidy tidying =>
      obtain ⟨count, stored⟩ := cell?_of_payload? present
      rw [tidying.remains.payload?_eq stored, found] at present
      obtain rfl := Option.some.inj present
      exact .same payload
  | make made fits granted =>
      rw [payload?_make vacancies made found] at present
      obtain rfl := Option.some.inj present
      exact .same payload
  | rework stored meanwhile kept becomes =>
      rcases payload?_rework stored meanwhile kept present with ⟨rfl, rfl⟩ | ⟨-, same⟩
      · rw [payload?_eq stored] at found
        obtain rfl := Option.some.inj found
        exact becomes
      · rw [found] at same
        obtain rfl := Option.some.inj same
        exact .same payload

/-- Some changes, one after the other, none of which frees any of these objects. -/
def Sparing (kept : List Ref) : Store τ → Store τ → Prop :=
  ReflTransGen fun before after =>
    Change (fun _ => True) before after ∧ ∀ ref ∈ kept, ∃ payload, after.payload? ref = some payload

theorem Sparing.becomes {kept : List Ref} {payload : Payload} (sparing : Sparing kept before after)
    (vacancies : before.Vacancies) (member : ref ∈ kept)
    (found : before.payload? ref = some payload) :
    ∃ new, after.payload? ref = some new ∧ payload.Becomes new := by
  induction sparing with
  | refl => exact ⟨payload, found, .same payload⟩
  | tail earlier last ih =>
      obtain ⟨middle, there, became⟩ := ih
      obtain ⟨change, spared⟩ := last
      obtain ⟨new, present⟩ := spared ref member
      have changes : ReflTransGen (Change fun _ => True) before _ :=
        ReflTransGen.mono (fun _ _ => And.left) _ _ earlier
      have inside := vacancies_of_changes changes vacancies
      exact ⟨new, present, became.trans (change.becomes inside there present)⟩

/-- The frames and the entries of tracebacks are among those that were there before. -/
def Tame (before after : Store τ) : Prop :=
  ∀ ref payload, after.payload? ref = some payload → ¬ payload.IsPlain →
    before.payload? ref = some payload

omit [Tracker τ] in
theorem payload?_place_cases {payload stored : Payload}
    (found : (store.place payload).2.payload? ref = some stored) :
    stored = payload ∨ store.payload? ref = some stored := by
  unfold place at found
  split at found
  · rename_i first free listed
    by_cases inside : first.index < store.cells.size
    · have cells :
          ({ store.setCell first (some ⟨1, some payload⟩) with free } : Store τ).cell? ref =
            (store.setCell first (some ⟨1, some payload⟩)).cell? ref := rfl
      rw [payload?, cells, cell?_setCell inside] at found
      split at found
      · exact Or.inl (Option.some.inj found).symm
      · exact Or.inr found
    · have same : store.cells.setIfInBounds first.index (some ⟨1, some payload⟩) = store.cells := by
        rw [Array.setIfInBounds, dif_neg inside]
      simp only [payload?, cell?, setCell, same] at found
      exact Or.inr found
  · simp only [payload?, cell?, Array.getElem?_push] at found
    split at found
    · exact Or.inl (Option.some.inj found).symm
    · exact Or.inr found

/-- A change that makes neither a frame nor an entry of a traceback leaves those that stay as
they are. -/
theorem Change.tame (change : Change Payload.IsPlain before after) : Tame before after := by
  cases change with
  | tidy tidying =>
      intro ref payload found _
      obtain ⟨count, stored⟩ := cell?_of_payload? found
      obtain ⟨old, there, same⟩ := tidying.remains ref _ stored
      rw [payload?_eq there, same]
  | make payload fits granted =>
      intro ref stored found inner
      rcases payload?_place_cases found with rfl | same
      · exact absurd fits inner
      · exact same
  | rework found meanwhile kept becomes =>
      intro ref stored present inner
      rcases payload?_rework found meanwhile kept present with ⟨rfl, rfl⟩ | ⟨-, same⟩
      · rw [payload?_eq found]
        cases becomes with
        | same => rfl
        | list => exact absurd ⟨Kind.noConfusion, Kind.noConfusion⟩ inner
        | tuple => exact absurd ⟨Kind.noConfusion, Kind.noConfusion⟩ inner
        | dict => exact absurd ⟨Kind.noConfusion, Kind.noConfusion⟩ inner
      · exact same

theorem tame_of_changes (changes : ReflTransGen (Change Payload.IsPlain) before after) :
    Tame before after := by
  induction changes with
  | refl => exact fun _ _ found _ => found
  | tail _ change ih =>
      exact fun ref payload found inner =>
        ih ref payload (change.tame ref payload found inner) inner

/-! ## What a change may add -/

theorem Tidying.covered (tidying : Tidying before after) : Covered 0 before 0 after := by
  intro sized
  refine ⟨fun ref payload present => ?_, fun ledger => ?_⟩
  · obtain ⟨count, stored⟩ := cell?_of_payload? present
    exact sized ref payload (tidying.remains.payload?_eq stored ▸ present)
  cases tidying with
  | ask query idle =>
      have booked := ledger.books query before.tracker
      have nothing : query.loss = 0 := by
        cases query with
        | free size => exact idle.elim
        | _ => rfl
      simp only [asking, mostBytes, nothing] at booked ⊢
      omega
  | @recount ref cell found count =>
      have set := mostBytes_setCell found (some { cell with count })
      rw [total_singleton, total_singleton] at set
      have same : (before.setCell ref (some { cell with count })).mostBytes = before.mostBytes :=
        Nat.add_right_cancel set
      rw [same]
      exact Nat.le_refl _
  | @vacate ref cell found last =>
      have set := mostBytes_setCell found none
      have cells : (before.vacate ref cell.payload).mostBytes =
          (before.setCell ref none).mostBytes :=
        rfl
      obtain ⟨count, _ | payload⟩ := cell
      · rw [cells]
        exact Nat.add_le_add_right set.le _
      · have booked := ledger.books (.free payload.bytes) before.tracker
        have light := (sized ref payload (payload?_eq found)).bytes_le
        simp only [Query.gain, Query.loss, Query.pose] at booked
        rw [total_filled, show total Payload.mostBytes [none] = 0 from rfl] at set
        rw [cells]
        show _ ≤ _ + ledger.balance (Tracker.free payload.bytes before.tracker)
        omega

theorem covered_of_tidyings (tidyings : ReflTransGen Tidying before after) :
    Covered 0 before 0 after := by
  induction tidyings with
  | refl => exact Covered.refl 0 before
  | tail _ tidying ih => exact ih.trans tidying.covered

/-- What an object may take besides what it is charged for has been there before. -/
theorem covered_make {payload : Payload} {given : Nat} (sized : payload.IsSized)
    (light : payload.mostBytes ≤ payload.bytes + given)
    (granted : (Tracker.allocate payload.bytes before.tracker).1 = none) :
    Covered given before 0 ((before.asking (.allocate payload.bytes)).place payload).2 := by
  intro storeSized
  refine ⟨fun ref stored present => ?_, fun ledger => ?_⟩
  · rcases payload?_place_cases present with rfl | same
    · exact sized
    · exact storeSized ref stored same
  · have booked := ledger.allocate granted
    have placed := mostBytes_place_le (before.asking (.allocate payload.bytes)) payload
    rw [tracker_place]
    simp only [asking, Query.pose, mostBytes] at placed ⊢
    omega

/-- While an object is worked on, it is out of the store. -/
theorem covered_rework {count : Nat} {payload new : Payload} {lent : Store τ} {cell : Cell}
    (found : before.cell? ref = some ⟨count, some payload⟩)
    (meanwhile : ReflTransGen Tidying (before.setCell ref (some ⟨count, none⟩)) lent)
    (kept : lent.cell? ref = some cell)
    (sized : payload.IsSized → new.IsSized ∧ Covered payload.mostBytes
      (before.setCell ref (some ⟨count, none⟩)) new.mostBytes lent) :
    Covered 0 before 0 (lent.setCell ref (some { cell with payload := some new })) := by
  intro storeSized
  obtain ⟨newSized, covered⟩ := sized (storeSized ref payload (payload?_eq found))
  have inside := index_lt_of_cell? found
  have emptied : (before.setCell ref (some ⟨count, none⟩)).IsSized := by
    intro other stored present
    rw [payload?, cell?_setCell inside] at present
    split at present
    · cases present
    · exact storeSized other stored present
  obtain ⟨-, grown⟩ := covered emptied
  refine ⟨fun other stored present => ?_, fun ledger => ?_⟩
  · rcases payload?_rework found meanwhile kept present with ⟨rfl, rfl⟩ | ⟨-, same⟩
    · exact newSized
    · exact storeSized other stored same
  · have out := mostBytes_setCell found (some ⟨count, none⟩)
    have back := mostBytes_setCell kept (some { cell with payload := some new })
    have meanwhile := grown ledger
    rw [total_filled, show total Payload.mostBytes [some ⟨count, none⟩] = 0 from rfl] at out
    rw [total_filled] at back
    have tracker : (before.setCell ref (some ⟨count, none⟩)).tracker = before.tracker := rfl
    rw [tracker] at meanwhile
    show _ ≤ _ + ledger.balance lent.tracker
    omega

/-! ## Paths -/

/-- Some changes, one after the other, on which no object becomes heavier than the tracker has
agreed to. -/
structure Path (allowed : Payload → Prop) (before after : Store τ) : Prop where
  changes : ReflTransGen (Change allowed) before after
  covered : Covered 0 before 0 after

/-- A path on which any object may be made. -/
abbrev AnyPath : Store τ → Store τ → Prop :=
  Path fun _ => True

/-- A path on which neither a frame nor an entry of a traceback is made. -/
abbrev PlainPath : Store τ → Store τ → Prop :=
  Path Payload.IsPlain

namespace Path

theorem refl (store : Store τ) : Path allowed store store :=
  ⟨ReflTransGen.refl, Covered.refl 0 store⟩

theorem trans (earlier : Path allowed before middle) (later : Path allowed middle after) :
    Path allowed before after :=
  ⟨ReflTransGen.trans earlier.changes later.changes, earlier.covered.trans later.covered⟩

instance : IsPreorder (Store τ) (Path allowed) where
  refl := refl
  trans _ _ _ := trans

theorem mono (path : Path allowed before after)
    (more : ∀ payload, allowed payload → allowed' payload) : Path allowed' before after :=
  ⟨ReflTransGen.mono (fun _ _ (change : Change allowed _ _) => change.mono more) _ _ path.changes,
    path.covered⟩

theorem any (path : Path allowed before after) : AnyPath before after :=
  path.mono fun _ _ => trivial

theorem of_tidyings (tidyings : ReflTransGen Tidying before after) : Path allowed before after :=
  ⟨ReflTransGen.mono (fun _ _ => Change.tidy) _ _ tidyings, covered_of_tidyings tidyings⟩

theorem make {payload : Payload} (fits : allowed payload) (light : payload.IsLight)
    (granted : (Tracker.allocate payload.bytes before.tracker).1 = none) :
    Path allowed before ((before.asking (.allocate payload.bytes)).place payload).2 :=
  ⟨ReflTransGen.single (.make payload fits granted),
    covered_make light.sized light.mostBytes_le granted⟩

/-- On a path, the tracker is asked and nothing else happens to it. -/
theorem asked (path : Path allowed before after) : Asked before.tracker after.tracker :=
  asked_of_changes path.changes

theorem vacancies (path : Path allowed before after) (vacancies : before.Vacancies) :
    after.Vacancies :=
  vacancies_of_changes path.changes vacancies

theorem tame (path : PlainPath before after) : Tame before after :=
  tame_of_changes path.changes

end Path

end Store

end StackMachine
