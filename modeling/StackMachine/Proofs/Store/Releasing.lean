import StackMachine.Proofs.Store.Soundness

/-!
# Giving references back

Giving references back frees the objects that nobody refers to any more, each of them once, and
leaves the others as they are.  What is held leads to other objects through the references that
objects own: all of these stay.  Where no object leads to itself, nothing else stays: an object
without an owner that is left has to be held, and owners cannot go on for ever.  Objects on a
cycle may stay although nothing that is held leads to them.
-/

namespace StackMachine.Store

open Relation

variable {τ : Type} {store before after : Store τ} {ref owner part : Ref} {held freed : List Ref}
variable {cell : Cell}

/-! ## What leads where -/

/-- An object owns a reference to another. -/
def Owns (store : Store τ) (owner part : Ref) : Prop :=
  ∃ cell, store.cell? owner = some cell ∧ part ∈ cell.children

/-- One of some references leads to an object. -/
def LeadsTo (store : Store τ) (roots : List Ref) (ref : Ref) : Prop :=
  ∃ root ∈ roots, ReflTransGen store.Owns root ref

/-- No object leads to itself. -/
def Acyclic (store : Store τ) : Prop :=
  ∀ ref, ¬ TransGen store.Owns ref ref

theorem isLive_iff : store.isLive ref ↔ ∃ cell, store.cell? ref = some cell :=
  Option.isSome_iff_exists

theorem LeadsTo.step {roots : List Ref} (leads : store.LeadsTo roots owner)
    (owns : store.Owns owner part) : store.LeadsTo roots part := by
  obtain ⟨root, member, path⟩ := leads
  exact ⟨root, member, path.tail owns⟩

/-- What is left of a store owns what it owned before. -/
theorem Remains.owns (remains : after.Remains before) (owns : after.Owns owner part) :
    before.Owns owner part := by
  obtain ⟨cell, found, member⟩ := owns
  obtain ⟨old, present, same⟩ := remains owner cell found
  refine ⟨old, present, ?_⟩
  rwa [Cell.children, same]

theorem Remains.leadsTo {roots : List Ref} (remains : after.Remains before)
    (leads : after.LeadsTo roots ref) : before.LeadsTo roots ref := by
  obtain ⟨root, member, path⟩ := leads
  exact ⟨root, member, ReflTransGen.mono (fun _ _ => remains.owns) _ _ path⟩

theorem Remains.acyclic (remains : after.Remains before) (acyclic : before.Acyclic) :
    after.Acyclic :=
  fun ref path => acyclic ref (TransGen.mono (fun _ _ => remains.owns) _ _ path)

/-- What led from a held reference to an object is still there. -/
theorem Exact.leadsTo (exact : after.Exact held) (remains : after.Remains before)
    (leads : before.LeadsTo held ref) : after.LeadsTo held ref ∧ after.isLive ref := by
  obtain ⟨root, member, path⟩ := leads
  induction path with
  | refl => exact ⟨⟨root, member, .refl⟩, isLive_iff.mpr (exact.live_of_held member)⟩
  | tail path owns ih =>
      obtain ⟨reached, live⟩ := ih
      obtain ⟨cell, found⟩ := isLive_iff.mp live
      obtain ⟨old, present, isChild⟩ := owns
      have same : cell.payload = old.payload := by
        rw [← payload?_eq found, remains.payload?_eq found, payload?_eq present]
      rw [Cell.children, ← same] at isChild
      exact ⟨reached.step ⟨cell, found, isChild⟩,
        isLive_iff.mpr (exact.live_of_child found isChild)⟩

/-- An object owns only what is in the store, so owners come to an end where there is no
cycle. -/
theorem Acyclic.wellFounded (acyclic : store.Acyclic) :
    WellFounded fun owner part : Fin store.cells.size =>
      TransGen store.Owns ⟨owner⟩ ⟨part⟩ := by
  have transitive : IsTrans (Fin store.cells.size) fun owner part =>
      TransGen store.Owns ⟨owner⟩ ⟨part⟩ := ⟨fun _ _ _ => .trans⟩
  have irreflexive : Std.Irrefl fun owner part : Fin store.cells.size =>
      TransGen store.Owns ⟨owner⟩ ⟨part⟩ := ⟨fun owner => acyclic ⟨owner⟩⟩
  exact Finite.wellFounded_of_trans_of_irrefl _

/-- Where objects own only what lies in later slots, no object leads to itself. -/
theorem acyclic_of_rising
    (rising : ∀ owner part, store.Owns owner part → owner.index < part.index) :
    store.Acyclic := by
  have later : ∀ {owner part}, TransGen store.Owns owner part → owner.index < part.index := by
    intro owner part path
    induction path with
    | single owns => exact rising _ _ owns
    | tail _ owns ih => exact ih.trans (rising _ _ owns)
  exact fun ref path => (later path).false

theorem exists_owner (member : ref ∈ store.links) : ∃ owner, store.Owns owner ref := by
  obtain ⟨slot, present, owned⟩ := List.mem_flatMap.mp member
  cases slot with
  | none => cases owned
  | some cell =>
      obtain ⟨index, inside, same⟩ := List.getElem_of_mem present
      refine ⟨⟨index⟩, cell, ?_, owned⟩
      rw [cell?, ← Array.getElem?_toList, List.getElem?_eq_getElem inside, same]
      rfl

/-- Where counts are exact and nothing leads to itself, every object has been led to. -/
theorem Exact.leadsTo_of_live (exact : store.Exact held) (acyclic : store.Acyclic)
    (live : store.isLive ref) : store.LeadsTo held ref := by
  obtain ⟨cell, found⟩ := isLive_iff.mp live
  have every : ∀ index : Fin store.cells.size, store.isLive ⟨index⟩ →
      store.LeadsTo held ⟨index⟩ := by
    intro index
    induction index using acyclic.wellFounded.induction with
    | _ index ih =>
        intro live
        obtain ⟨cell, found⟩ := isLive_iff.mp live
        have positive := exact.count_pos _ cell found
        rw [← countAt_eq found, exact.count_eq] at positive
        by_cases member : (⟨index⟩ : Ref) ∈ held
        · exact ⟨⟨index⟩, member, .refl⟩
        · rw [List.count_eq_zero_of_not_mem member, Nat.add_zero, List.count_pos_iff] at positive
          obtain ⟨owner, owns⟩ := exists_owner positive
          obtain ⟨ownerCell, ownerFound, -⟩ := id owns
          have inside := index_lt_of_cell? ownerFound
          exact (ih ⟨owner.index, inside⟩ (.single owns) (isLive_iff.mpr ⟨_, ownerFound⟩)).step owns
  exact every ⟨ref.index, index_lt_of_cell? found⟩ live

/-! ## What is freed -/

variable [Tracker τ]

/-- What the tracker is told when an object is freed: its size.  It is not told of an object
that is lent. -/
def noteFreed (payload : Option Payload) (tracker : τ) : τ :=
  match payload with
  | some payload => Tracker.free payload.bytes tracker
  | none => tracker

/-- Some objects of a store were freed, one after the other, and the others are left. -/
structure Frees (before after : Store τ) (freed : List Ref) : Prop where
  /-- No slot is freed twice. -/
  nodup : freed.Nodup
  mem_iff : ∀ ref, ref ∈ freed ↔ before.isLive ref ∧ ¬ after.isLive ref
  remains : after.Remains before
  /-- Each of them is put in front of the free list. -/
  free_eq : after.free = freed.reverse ++ before.free
  /-- The tracker is told of each of them. -/
  tracker_eq : after.tracker =
    freed.foldl (fun tracker ref => noteFreed (before.payload? ref) tracker) before.tracker

theorem Frees.refl (store : Store τ) : Frees store store [] where
  nodup := .nil
  mem_iff ref := by simp
  remains := .refl store
  free_eq := rfl
  tracker_eq := rfl

/-- A count that is lowered first makes no difference. -/
theorem Frees.lower {count : Nat} (found : before.cell? ref = some cell)
    (frees : Frees (before.setCell ref (some { cell with count })) after freed) :
    Frees before after freed := by
  have inside := index_lt_of_cell? found
  have live : ∀ other, (before.setCell ref (some { cell with count })).isLive other =
      before.isLive other := by
    intro other
    rw [isLive, isLive, cell?_setCell inside]
    by_cases same : other = ref
    · simp [same, found]
    · simp [same]
  have payloads : ∀ other, (before.setCell ref (some { cell with count })).payload? other =
      before.payload? other := by
    intro other
    rw [payload?, payload?, cell?_setCell inside]
    by_cases same : other = ref
    · simp [same, found]
    · simp [same]
  refine ⟨frees.nodup, fun other => ?_, fun other kept stored => ?_, frees.free_eq, ?_⟩
  · rw [frees.mem_iff, live]
  · obtain ⟨lowered, present, same⟩ := frees.remains other kept stored
    have isLive : before.isLive other := by rw [← live, isLive_iff]; exact ⟨lowered, present⟩
    obtain ⟨old, earlier⟩ := isLive_iff.mp isLive
    refine ⟨old, earlier, ?_⟩
    rw [← same, ← payload?_eq earlier, ← payloads, payload?_eq present]
  · rw [frees.tracker_eq]
    simp only [payloads]
    rfl

/-- The object that is freed first is the first of the list. -/
theorem Frees.vacate (found : before.cell? ref = some cell)
    (frees : Frees (before.vacate ref cell.payload) after freed) :
    Frees before after (ref :: freed) := by
  have inside := index_lt_of_cell? found
  have cells : ∀ other, (before.vacate ref cell.payload).cell? other =
      if other = ref then none else before.cell? other :=
    fun other => cell?_setCell inside none other
  have gone : ¬ (before.vacate ref cell.payload).isLive ref := by simp [isLive, cells]
  have fresh : ref ∉ freed := fun member => gone ((frees.mem_iff ref).mp member).1
  have remains : after.Remains before := by
    refine frees.remains.trans fun other kept stored => ?_
    rw [cells] at stored
    split at stored
    · cases stored
    · exact ⟨kept, stored, rfl⟩
  refine ⟨List.nodup_cons.mpr ⟨fresh, frees.nodup⟩, fun other => ?_, remains, ?_, ?_⟩
  · rw [List.mem_cons, frees.mem_iff, isLive, cells]
    by_cases same : other = ref
    · subst same
      have dead : ¬ after.isLive other := by
        intro live
        obtain ⟨kept, stored⟩ := isLive_iff.mp live
        obtain ⟨old, present, -⟩ := frees.remains other kept stored
        exact gone (isLive_iff.mpr ⟨old, present⟩)
      have alive : before.isLive other := isLive_iff.mpr ⟨cell, found⟩
      simp [alive, dead]
    · simp [same, isLive]
  · rw [frees.free_eq, List.reverse_cons, List.append_assoc]
    rfl
  · have payloads : ∀ other ∈ freed,
        (before.vacate ref cell.payload).payload? other = before.payload? other := by
      intro other member
      have different : other ≠ ref := fun same => fresh (same ▸ member)
      rw [payload?, cells, if_neg different, payload?]
    rw [frees.tracker_eq, List.foldl_cons, payload?_eq found]
    refine List.foldl_ext _ _ _ fun tracker other member => ?_
    rw [payloads other member]

/-- Giving references back frees objects. -/
theorem drain_frees {pending : List Ref} (drained : drain pending store = .ok () after) :
    ∃ freed, Frees store after freed := by
  induction pending, store using drain.induct with
  | case1 store =>
      rw [drain] at drained
      cases drained
      exact ⟨[], .refl _⟩
  | case2 store ref rest missing =>
      rw [drain_of_missing missing] at drained
      cases drained
  | case3 store ref rest cell found shared ih =>
      rw [drain_of_found found, dif_pos shared] at drained
      obtain ⟨freed, frees⟩ := ih drained
      exact ⟨freed, frees.lower found⟩
  | case4 store ref rest cell found last ih =>
      rw [drain_of_found found, dif_neg last] at drained
      obtain ⟨freed, frees⟩ := ih drained
      exact ⟨ref :: freed, frees.vacate found⟩

/-! ## What giving references back does -/

/-- What references that are given back leave behind, where `held` lists those that are not. -/
structure Settles (before after : Store τ) (held freed : List Ref) : Prop where
  /-- Every object that is left has as many references as it counts. -/
  exact : after.Exact held
  /-- What the references that are left lead to is live, and is what it was. -/
  keeps : ∀ ref, before.LeadsTo held ref →
    after.isLive ref ∧ after.payload? ref = before.payload? ref
  frees : Frees before after freed
  /-- There is nothing else, unless there are cycles. -/
  complete : before.Acyclic → ∀ ref, after.isLive ref ↔ before.LeadsTo held ref

/-- References that are held can be given back, and that leaves just what it should. -/
theorem releaseAll_settles (refs : List Ref) (exact : store.Exact (refs ++ held)) :
    ∃ after freed, StoreM.releaseAll refs store = .ok () after ∧
      Settles store after held freed := by
  obtain ⟨after, drained, afterExact, remains⟩ := drain_exact refs store exact
  obtain ⟨freed, frees⟩ := drain_frees drained
  refine ⟨after, freed, drained, afterExact, fun ref leads => ?_, frees, fun acyclic ref => ?_⟩
  · have live := (afterExact.leadsTo remains leads).2
    obtain ⟨cell, found⟩ := isLive_iff.mp live
    exact ⟨live, remains.payload?_eq found⟩
  · constructor
    · intro live
      exact remains.leadsTo (afterExact.leadsTo_of_live (remains.acyclic acyclic) live)
    · exact fun leads => (afterExact.leadsTo remains leads).2

/-- A list that is an item of itself, and a pair it shares with someone else. -/
def knot : Store Unlimited where
  cells := #[some ⟨2, some (.list #[⟨0⟩, ⟨1⟩])⟩, some ⟨2, some (.tuple #[⟨2⟩, ⟨2⟩])⟩,
    some ⟨2, some (.int 7)⟩]
  free := []
  tracker := {}

theorem knot_exact : knot.Exact [⟨0⟩, ⟨1⟩] where
  count_eq := by
    rintro ⟨_ | _ | _ | index⟩
    · decide
    · decide
    · decide
    · simp [countAt, cell?, links, knot, slotCount, slotLinks, Cell.children, Payload.children]
  count_pos := by
    rintro ⟨_ | _ | _ | index⟩ cell found
    all_goals simp [cell?, knot] at found
    all_goals simp [← found]
  free_nodup := .nil
  mem_free := by
    rintro ⟨_ | _ | _ | index⟩ <;> simp [cell?, knot]

/-- A list with one pair for both of its items, and the pair with an item that it shares with
someone else. -/
def shelf : Store Unlimited where
  cells := #[some ⟨1, some (.list #[⟨1⟩, ⟨1⟩])⟩, some ⟨2, some (.tuple #[⟨2⟩, ⟨3⟩])⟩,
    some ⟨1, some (.int 3)⟩, some ⟨2, some (.int 7)⟩]
  free := []
  tracker := {}

theorem shelf_exact : shelf.Exact [⟨0⟩, ⟨3⟩] where
  count_eq := by
    rintro ⟨_ | _ | _ | _ | index⟩
    · decide
    · decide
    · decide
    · decide
    · simp [countAt, cell?, links, shelf, slotCount, slotLinks, Cell.children, Payload.children]
  count_pos := by
    rintro ⟨_ | _ | _ | _ | index⟩ cell found
    all_goals simp [cell?, shelf] at found
    all_goals simp [← found]
  free_nodup := .nil
  mem_free := by
    rintro ⟨_ | _ | _ | _ | index⟩ <;> simp [cell?, shelf]

theorem shelf_acyclic : shelf.Acyclic := by
  refine acyclic_of_rising ?_
  rintro ⟨_ | _ | _ | _ | index⟩ part ⟨cell, found, member⟩
  all_goals simp [cell?, shelf] at found
  all_goals subst found
  all_goals simp [Cell.children, Payload.children] at member
  · simp [member]
  · rcases member with rfl | rfl <;> decide

theorem shelf_released {after : Store Unlimited}
    (released : StoreM.releaseAll [⟨0⟩] shelf = .ok () after) :
    after.free = [⟨2⟩, ⟨1⟩, ⟨0⟩] := by
  have computed : (match StoreM.releaseAll [⟨0⟩] shelf with
    | .ok _ after => after.free
    | .error _ _ => []) = [⟨2⟩, ⟨1⟩, ⟨0⟩] := by decide +kernel
  rwa [released] at computed

/-- The list of the knot stays, though nothing that is held leads to it.  The list of the shelf
goes with all that is its own, and the shared item stays. -/
theorem release_knot :
    (knot.Exact ([⟨0⟩] ++ [⟨1⟩]) ∧
      ∃ after freed, StoreM.releaseAll [⟨0⟩] knot = .ok () after ∧
        Settles knot after [⟨1⟩] freed) ∧
    shelf.Exact ([⟨0⟩] ++ [⟨3⟩]) ∧ shelf.Acyclic ∧
      ∃ after, StoreM.releaseAll [⟨0⟩] shelf = .ok () after ∧
        Settles shelf after [⟨3⟩] [⟨0⟩, ⟨1⟩, ⟨2⟩] ∧ after.isLive ⟨3⟩ := by
  refine ⟨⟨knot_exact, releaseAll_settles [⟨0⟩] knot_exact⟩, shelf_exact, shelf_acyclic, ?_⟩
  obtain ⟨after, freed, released, settles⟩ := releaseAll_settles [⟨0⟩] shelf_exact
  have order : freed = [⟨0⟩, ⟨1⟩, ⟨2⟩] := by
    rw [← List.reverse_inj, ← List.append_nil freed.reverse]
    exact settles.frees.free_eq.symm.trans (shelf_released released)
  subst order
  exact ⟨after, released, settles, (settles.keeps ⟨3⟩ ⟨_, .head _, .refl⟩).1⟩

end StackMachine.Store
