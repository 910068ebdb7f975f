import StackMachine.Proofs.Store.Soundness

/-!
# What is left when references are given back

Giving references back leaves a part of the store that those who still hold references need.
It is the largest such part: what giving back frees could not stay without references of its
own.  So it is known by what is held alone, whatever the order in which references were given
back, and whatever else was made and freed meanwhile.

A table that was rebuilt has its entries in other slots.  Where that may happen to an object,
it is `loose`, and likeness looks past it.
-/

namespace StackMachine

/-- Are two objects alike?  They are the same, or two dictionaries with the same entries, where
the object is loose. -/
inductive Payload.Like (loose : Prop) : Payload → Payload → Prop where
  | same (payload : Payload) : Like loose payload payload
  | rebuilt {old new : Table Ref} (allowed : loose) (entries : new.entries.Perm old.entries)
      (used : new.used = old.used) (finds : ∀ key, new.find? key = old.find? key) :
      Like loose (.dict old) (.dict new)

namespace Payload.Like

variable {loose : Prop} {first second third : Payload}

theorem symm (like : first.Like loose second) : second.Like loose first := by
  cases like with
  | same => exact .same _
  | rebuilt allowed entries used finds =>
      exact .rebuilt allowed entries.symm used.symm fun key => (finds key).symm

theorem trans (like : first.Like loose second) (like' : second.Like loose third) :
    first.Like loose third := by
  cases like with
  | same => exact like'
  | rebuilt allowed entries used finds =>
      cases like' with
      | same => exact .rebuilt allowed entries used finds
      | rebuilt _ entries' used' finds' =>
          exact .rebuilt allowed (entries'.trans entries) (used'.trans used)
            fun key => (finds' key).trans (finds key)

/-- Objects that are alike own the same references. -/
theorem children_perm (like : first.Like loose second) : second.children.Perm first.children := by
  cases like with
  | same => exact .refl _
  | rebuilt allowed entries used finds => exact entries.map Prod.snd

/-- What is not loose is the same. -/
theorem eq_of_strict (like : first.Like loose second) (strict : ¬ loose) : second = first := by
  cases like with
  | same => rfl
  | rebuilt allowed => exact absurd allowed strict

end Payload.Like

/-- Are the objects of two cells alike?  The counts are of no concern. -/
def Cell.Like (loose : Prop) (old new : Cell) : Prop :=
  Option.Rel (Payload.Like loose) old.payload new.payload

namespace Cell.Like

variable {loose : Prop} {first second third : Cell}

theorem of_eq (same : first.payload = second.payload) : first.Like loose second := by
  rw [Cell.Like, same]
  cases second.payload with
  | none => exact .none
  | some payload => exact .some (.same payload)

theorem trans (like : first.Like loose second) (like' : second.Like loose third) :
    first.Like loose third := by
  obtain ⟨count, payload⟩ := first
  obtain ⟨count', payload'⟩ := second
  obtain ⟨count'', payload''⟩ := third
  rw [Cell.Like] at like like' ⊢
  cases like with
  | none => exact like'
  | some like =>
      cases like' with
      | some like' => exact .some (like.trans like')

theorem children_perm (like : first.Like loose second) : second.children.Perm first.children := by
  obtain ⟨count, payload⟩ := first
  obtain ⟨count', payload'⟩ := second
  rw [Cell.Like] at like
  cases like with
  | none => exact .refl _
  | some like => exact like.children_perm

end Cell.Like

namespace Store

variable {τ : Type} {loose : Ref → Prop} {store before after whole rest other : Store τ}
variable {ref : Ref} {cell : Cell} {held others refs : List Ref}

/-! ## Parts of a store -/

/-- The objects of a store are objects of another, up to likeness. -/
def PartOf (loose : Ref → Prop) (part whole : Store τ) : Prop :=
  ∀ ref cell, part.cell? ref = some cell →
    ∃ old, whole.cell? ref = some old ∧ old.Like (loose ref) cell

namespace PartOf

theorem refl (store : Store τ) : PartOf loose store store :=
  fun _ cell found => ⟨cell, found, .of_eq rfl⟩

theorem trans {first second third : Store τ} (part : PartOf loose first second)
    (part' : PartOf loose second third) : PartOf loose first third := by
  intro ref cell found
  obtain ⟨middle, stored, like⟩ := part ref cell found
  obtain ⟨old, present, like'⟩ := part' ref middle stored
  exact ⟨old, present, like'.trans like⟩

end PartOf

theorem PartOf.of_cells (same : ∀ ref, after.cell? ref = before.cell? ref) :
    PartOf loose after before :=
  fun ref cell found => ⟨cell, (same ref).symm.trans found, .of_eq rfl⟩

theorem Remains.partOf (remains : after.Remains before) : PartOf loose after before := by
  intro ref cell found
  obtain ⟨old, present, same⟩ := remains ref cell found
  exact ⟨old, present, .of_eq same⟩

/-- Where every slot has its counterpart, every reference has, too. -/
theorem count_flatMap_le {first second : List (Option Cell)} (ref : Ref)
    (part : ∀ (index : Nat) (cell : Cell), first[index]? = some (some cell) →
      ∃ old, second[index]? = some (some old) ∧ cell.children.Perm old.children) :
    (first.flatMap slotLinks).count ref ≤ (second.flatMap slotLinks).count ref := by
  induction first generalizing second with
  | nil => simp
  | cons head tail ih =>
      cases second with
      | nil =>
          have empty : head = none := by
            cases head with
            | none => rfl
            | some cell =>
                obtain ⟨old, present, -⟩ := part 0 cell rfl
                simp at present
          have later : (tail.flatMap slotLinks).count ref ≤
              (([] : List (Option Cell)).flatMap slotLinks).count ref :=
            ih fun index cell present => part (index + 1) cell (by simpa using present)
          simpa [empty, slotLinks] using later
      | cons head' tail' =>
          have later : (tail.flatMap slotLinks).count ref ≤ (tail'.flatMap slotLinks).count ref :=
            ih fun index cell present => by
              simpa using part (index + 1) cell (by simpa using present)
          have here : (slotLinks head).count ref ≤ (slotLinks head').count ref := by
            cases head with
            | none => simp [slotLinks]
            | some cell =>
                obtain ⟨old, present, perm⟩ := part 0 cell rfl
                rw [List.getElem?_cons_zero, Option.some.injEq] at present
                rw [present, slotLinks, slotLinks, perm.count_eq]
          simp only [List.flatMap_cons, List.count_append]
          omega

/-- What the objects of a part own is owned in the whole. -/
theorem PartOf.count_links_le (part : PartOf loose rest whole) (ref : Ref) :
    rest.links.count ref ≤ whole.links.count ref := by
  refine count_flatMap_le ref fun index cell present => ?_
  have found : rest.cell? ⟨index⟩ = some cell := by
    rw [cell?, ← Array.getElem?_toList, present, Option.join_some]
  obtain ⟨old, stored, like⟩ := part ⟨index⟩ cell found
  exact ⟨old, slot_of_cell? stored, like.children_perm⟩

/-- A part has no object to which nothing refers. -/
theorem PartOf.vacant (part : PartOf loose rest whole) (exact : rest.Exact held)
    (unlinked : whole.links.count ref = 0) (unheld : held.count ref = 0) :
    rest.cell? ref = none := by
  cases found : rest.cell? ref with
  | none => rfl
  | some cell =>
      have positive := exact.count_pos ref cell found
      have counted := exact.count_eq ref
      have fewer := part.count_links_le ref
      rw [countAt_eq found] at counted
      omega

/-! ## The largest part -/

/-- What is left of a store for those who hold some references: the largest part of it in which
every count is exact. -/
structure Residue (loose : Ref → Prop) (whole : Store τ) (held : List Ref) (rest : Store τ) :
    Prop where
  exact : rest.Exact held
  part : PartOf loose rest whole
  largest : ∀ (other : Store τ) others, other.Exact others →
    (∀ ref, others.count ref ≤ held.count ref) → PartOf loose other whole →
      PartOf loose other rest

namespace Residue

theorem refl (exact : store.Exact held) : Residue loose store held store :=
  ⟨exact, .refl store, fun _ _ _ _ part => part⟩

/-- The same is left of two stores with the same objects. -/
theorem of_parts (residue : Residue loose whole held rest) (part : PartOf loose whole other)
    (part' : PartOf loose other whole) : Residue loose other held rest where
  exact := residue.exact
  part := residue.part.trans part
  largest smaller others exact fewer within :=
    residue.largest smaller others exact fewer (within.trans part')

/-- The same is left when something else was left before. -/
theorem narrow (residue : Residue loose whole held rest) {middle : Store τ} {more : List Ref}
    (earlier : Residue loose whole (more ++ held) middle) : Residue loose middle held rest where
  exact := residue.exact
  part := by
    refine earlier.largest rest held residue.exact (fun ref => ?_) residue.part
    rw [List.count_append]
    exact Nat.le_add_left _ _
  largest smaller others exact fewer within :=
    residue.largest smaller others exact fewer (within.trans earlier.part)

/-- Giving references back leaves the largest part. -/
theorem of_drain [Tracker τ] (exact : store.Exact (refs ++ held))
    (drained : drain refs store = .ok () after) : Residue loose store held after := by
  induction refs, store using drain.induct with
  | case1 store =>
      rw [drain] at drained
      cases drained
      exact .refl exact
  | case2 store ref rest missing =>
      rw [drain_of_missing missing] at drained
      cases drained
  | case3 store ref rest cell found shared ih =>
      rw [drain_of_found found, dif_pos shared] at drained
      have lowered := cell?_setCell (index_lt_of_cell? found)
        (some { cell with count := cell.count - 1 })
      refine (ih (exact.lower found shared) drained).of_parts ?_ ?_
      · intro other present stored
        rw [lowered] at stored
        split at stored
        · rename_i same
          cases stored
          exact ⟨cell, same ▸ found, .of_eq rfl⟩
        · exact ⟨present, stored, .of_eq rfl⟩
      · intro other present stored
        rw [lowered]
        split
        · rename_i same
          rw [same, found, Option.some.injEq] at stored
          exact ⟨_, rfl, .of_eq (by rw [stored])⟩
        · exact ⟨present, stored, .of_eq rfl⟩
  | case4 store ref rest cell found last ih =>
      rw [drain_of_found found, dif_neg last] at drained
      rw [List.cons_append] at exact
      have vacated := exact.vacate found last
      rw [← List.append_assoc] at vacated
      have residue := ih vacated drained
      have cells : ∀ other, (store.vacate ref cell.payload).cell? other =
          if other = ref then none else store.cell? other :=
        fun other => cell?_setCell (index_lt_of_cell? found) none other
      -- The last reference was the one that is given back: nobody else refers to the object.
      have counted := exact.count_eq ref
      rw [countAt_eq found, List.count_cons_self, List.count_append] at counted
      refine ⟨residue.exact, residue.part.trans ?_, fun smaller others kept fewer part => ?_⟩
      · intro other present stored
        rw [cells] at stored
        split at stored
        · cases stored
        · exact ⟨present, stored, .of_eq rfl⟩
      · have gone : smaller.cell? ref = none :=
          part.vacant kept (by omega) (by have := fewer ref; omega)
        refine residue.largest smaller others kept fewer fun other present stored => ?_
        rw [cells, if_neg]
        · exact part other present stored
        · rintro rfl
          rw [gone] at stored
          cases stored

/-- An object that was out of its slot is put back and is like before. -/
theorem of_lent {count count' : Nat} {payload new : Payload}
    (found : store.cell? ref = some ⟨count, some payload⟩)
    (residue :
      Residue loose (store.setCell ref (some ⟨count, none⟩)) (payload.children ++ held) rest)
    (left : rest.cell? ref = some ⟨count', none⟩) (like : payload.Like (loose ref) new) :
    Residue loose store held (rest.setCell ref (some ⟨count', some new⟩)) := by
  have lent := cell?_setCell (index_lt_of_cell? found) (some ⟨count, none⟩)
  have put := cell?_setCell (index_lt_of_cell? left) (some ⟨count', some new⟩)
  refine ⟨?_, fun other cell stored => ?_, fun smaller others kept fewer within => ?_⟩
  · refine Exact.putBack (residue.exact.perm ?_) left
    exact like.children_perm.symm.append_right held
  · rw [put] at stored
    split at stored
    · rename_i same
      cases stored
      subst same
      exact ⟨_, found, Option.Rel.some like⟩
    · rename_i different
      obtain ⟨old, present, alike⟩ := residue.part other cell stored
      rw [lent, if_neg different] at present
      exact ⟨old, present, alike⟩
  · cases live : smaller.cell? ref with
    | none =>
        have away : ∀ other cell, smaller.cell? other = some cell → other ≠ ref := by
          rintro other cell stored rfl
          rw [live] at stored
          cases stored
        have later : PartOf loose smaller rest := by
          refine residue.largest smaller others kept (fun other => ?_) fun other cell stored => ?_
          · rw [List.count_append]
            exact Nat.le_add_left_of_le (fewer other)
          · rw [lent, if_neg (away other cell stored)]
            exact within other cell stored
        intro other cell stored
        rw [put, if_neg (away other cell stored)]
        exact later other cell stored
    | some cell =>
        obtain ⟨old, present, alike⟩ := within ref cell live
        rw [found, Option.some.injEq] at present
        subst present
        obtain ⟨shared, content⟩ := cell
        rw [Cell.Like] at alike
        cases alike with
        | @some _ kin alike =>
            -- It has the object as well; out of its slot it is a part of what was lent.
            have out := cell?_setCell (index_lt_of_cell? live) (some ⟨shared, none⟩)
            have later : PartOf loose (smaller.setCell ref (some ⟨shared, none⟩)) rest := by
              refine residue.largest _ (kin.children ++ others) (kept.lend live)
                (fun other => ?_) fun other cell stored => ?_
              · rw [List.count_append, List.count_append, alike.children_perm.count_eq]
                exact Nat.add_le_add_left (fewer other) _
              · rw [out] at stored
                rw [lent]
                split at stored
                · rename_i same
                  cases stored
                  rw [if_pos same]
                  exact ⟨_, rfl, Option.Rel.none⟩
                · rename_i different
                  rw [if_neg different]
                  exact within other cell stored
            intro other cell stored
            rw [put]
            split
            · rename_i same
              subst same
              rw [live, Option.some.injEq] at stored
              subst stored
              exact ⟨_, rfl, Option.Rel.some (like.symm.trans alike)⟩
            · rename_i different
              exact later other cell (by rw [out, if_neg different, stored])

/-- An object that nobody refers to but those who give their references back is no part of what
is left, whatever it holds. -/
theorem of_lone (ref : Ref) (residue : Residue loose before held rest)
    (unlinked : before.links.count ref = 0)
    (unlinked' : after.links.count ref = 0) (unheld : held.count ref = 0)
    (elsewhere : ∀ other ≠ ref, after.cell? other = before.cell? other) :
    Residue loose after held rest := by
  have carry {first second smaller : Store τ} {others : List Ref}
      (same : ∀ other ≠ ref, first.cell? other = second.cell? other)
      (free : first.links.count ref = 0) (exact : smaller.Exact others)
      (fewer : ∀ ref, others.count ref ≤ held.count ref) (part : PartOf loose smaller first) :
      PartOf loose smaller second := by
    have gone : smaller.cell? ref = none :=
      part.vacant exact free (by have := fewer ref; omega)
    intro other cell found
    rw [← same other]
    · exact part other cell found
    · rintro rfl
      rw [gone] at found
      cases found
  refine ⟨residue.exact, ?_, fun smaller others exact fewer within => ?_⟩
  · exact carry (fun other different => (elsewhere other different).symm) unlinked residue.exact
      (fun _ => Nat.le_refl _) residue.part
  · exact residue.largest smaller others exact fewer (carry elsewhere unlinked' exact fewer within)

end Residue

/-! ## The same objects -/

/-- Two stores have the same objects, and as many references to each of them. -/
structure SameObjects (loose : Ref → Prop) (before after : Store τ) : Prop where
  live_eq : ∀ ref, after.isLive ref = before.isLive ref
  count_eq : ∀ ref, after.countAt ref = before.countAt ref
  like : ∀ ref payload, before.payload? ref = some payload →
    ∃ new, after.payload? ref = some new ∧ payload.Like (loose ref) new

/-- Where nothing is loose, every object is equal to what it was. -/
theorem SameObjects.payload?_eq {payload : Payload}
    (same : SameObjects (fun _ => False) before after)
    (found : before.payload? ref = some payload) :
    after.payload? ref = some payload := by
  obtain ⟨new, present, like⟩ := same.like ref payload found
  rw [present, like.eq_of_strict id]

/-- What is left for those who hold some references is left by any way of giving back. -/
theorem Residue.sameObjects (residue : Residue loose whole held before)
    (residue' : Residue loose whole held after) : SameObjects loose before after := by
  have part : PartOf loose before after :=
    residue'.largest before held residue.exact (fun _ => Nat.le_refl _) residue.part
  have part' : PartOf loose after before :=
    residue.largest after held residue'.exact (fun _ => Nat.le_refl _) residue'.part
  refine ⟨fun ref => ?_, fun ref => ?_, fun ref payload found => ?_⟩
  · rw [Bool.eq_iff_iff, isLive, isLive, Option.isSome_iff_exists, Option.isSome_iff_exists]
    exact ⟨fun ⟨cell, found⟩ => (part' ref cell found).imp fun _ known => known.1,
      fun ⟨cell, found⟩ => (part ref cell found).imp fun _ known => known.1⟩
  · rw [residue.exact.count_eq, residue'.exact.count_eq,
      Nat.le_antisymm (part'.count_links_le ref) (part.count_links_le ref)]
  · obtain ⟨count, stored⟩ := cell?_of_payload? found
    obtain ⟨⟨count', content⟩, present, like⟩ := part ref _ stored
    rw [Cell.Like] at like
    cases like with
    | some like => exact ⟨_, payload?_eq present, like.symm⟩

end Store

end StackMachine
