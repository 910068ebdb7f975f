import StackMachine.Proofs.Store.Accounting
import StackMachine.Store.Containers

/-!
# Changing containers

A container takes over the reference it is given, or that reference is given back.
What it held before is in it or given back as well.  This is shown for the change of
a table or of some items on its own, and carries over to the object in the store.
-/

namespace StackMachine

variable {τ α : Type} [Tracker τ] {store after : Store τ} {ref value : Ref}
variable {held inner refs : List Ref}

namespace Table

variable {table result : Table Ref} {key : Bytes}

/-- The values that an insertion leaves and the one it displaces are those before and
the new one. -/
theorem values_perm_of_insert {displaced : Option Ref} {others : List (Bytes × Ref)}
    (perm : ((displaced.map (key, ·)).toList ++ others).Perm ((key, value) :: table.entries)) :
    (displaced.toList ++ others.map Prod.snd).Perm (value :: table.values) := by
  have mapped := perm.map Prod.snd
  cases displaced <;> simpa [values] using mapped

theorem values_perm (perm : result.entries.Perm table.entries) :
    result.values.Perm table.values :=
  perm.map Prod.snd

theorem values_perm_of_erase {old : Ref}
    (perm : ((key, old) :: result.entries).Perm table.entries) :
    (old :: result.values).Perm table.values :=
  perm.map Prod.snd

end Table

namespace StoreM

open Store Outcome

theorem seqRight_ok {φ σ β : Type} {act : EStateM (Stop φ) σ α} {next : EStateM (Stop φ) σ β}
    {before after : σ} {result : α} (returned : act before = .ok result after) :
    (act *> next) before = next after := by
  show EStateM.seqRight act (fun _ => next) before = next after
  rw [EStateM.seqRight, returned]

/-- Give back references and go on with the store that is left. -/
theorem releaseAll_ends {next : StoreM τ α} {returns : α → Store τ → Prop}
    {fails : Cause → Store τ → Prop} (exact : store.Exact (refs ++ held))
    (rest : ∀ after, after.Exact held → after.Remains store → Ends (next after) returns fails) :
    Ends ((releaseAll refs *> next) store) returns fails := by
  obtain ⟨after, drained, afterExact, remains⟩ := drain_exact refs store exact
  have released : (releaseAll refs : StoreM τ Unit) store = .ok () after := drained
  rw [seqRight_ok released]
  exact rest after afterExact remains

/-! ## Tables and items on their own -/

/-- What changing a table comes down to. -/
def TableWorks (refs : List Ref) (table : Table Ref)
    (work : StoreM τ (Table Ref × Except Cause α)) : Prop :=
  ∀ store rest, store.Exact (table.values ++ (refs ++ rest)) →
    Ends (work store)
      (fun result after => after.Exact (result.1.values ++ rest) ∧ after.Remains store ∧
        result.1.Valid ∧ ∀ value ∈ result.1.values, value ∈ table.values ∨ value ∈ refs)
      (fun _ _ => False)

theorem tableInsert_works {table : Table Ref} (valid : table.Valid) (key : Bytes) (value : Ref) :
    TableWorks [value] table (tableInsert key value table : StoreM τ _) := by
  intro store rest exact
  have means := valid.insert_means store.tracker key value
  unfold tableInsert
  generalize table.insert store.tracker key value = outcome at means ⊢
  obtain ⟨result, after, tracker⟩ := outcome
  have charged := exact.withTracker tracker
  rcases result with (cause | broken | _) | displaced
  · obtain ⟨afterValid, perm, -⟩ := means
    have values := Table.values_perm perm
    have owed : Exact { store with tracker } ([value] ++ (after.values ++ rest)) :=
      charged.perm ((values.symm.append_right _).trans (List.perm_append_comm_assoc _ _ _))
    refine releaseAll_ends owed fun final finalExact remains => ?_
    exact ⟨finalExact, remains, afterValid, fun item member => Or.inl (values.mem_iff.mp member)⟩
  · exact means.elim
  · trivial
  · obtain ⟨afterValid, -, perm⟩ := means
    have values := Table.values_perm_of_insert perm
    have owed : Exact { store with tracker } (displaced.toList ++ (after.values ++ rest)) := by
      refine charged.perm ?_
      rw [← List.append_assoc, ← List.append_assoc]
      exact ((values.trans (List.perm_append_singleton _ _).symm).symm).append_right rest
    refine releaseAll_ends owed fun final finalExact remains => ?_
    refine ⟨finalExact, remains, afterValid, fun item member => ?_⟩
    have known := values.mem_iff.mp (List.mem_append_right _ member)
    rcases List.mem_cons.mp known with rfl | former
    · exact Or.inr List.mem_cons_self
    · exact Or.inl former

theorem tableErase_works {table : Table Ref} (valid : table.Valid) (key : Bytes) :
    TableWorks [] table (tableErase key table : StoreM τ _) := by
  intro store rest exact
  have means := valid.erase_means key
  unfold tableErase
  generalize table.erase key = outcome at means ⊢
  rcases outcome with ⟨(cause | broken | _) | old, after⟩
  · obtain ⟨rfl, -, -⟩ := means
    exact ⟨exact, Remains.refl store, valid, fun item member => Or.inl member⟩
  · exact means.elim
  · trivial
  · obtain ⟨afterValid, perm⟩ := means
    have values := Table.values_perm_of_erase perm
    have owed : store.Exact ([old] ++ (after.values ++ rest)) :=
      exact.perm (values.symm.append_right rest)
    refine releaseAll_ends owed fun final finalExact remains => ?_
    exact ⟨finalExact, remains, afterValid,
      fun item member => Or.inl (values.mem_iff.mp (List.mem_cons_of_mem _ member))⟩

/-- What changing some items comes down to. -/
def ItemsWork (refs : List Ref) (items : Array Ref)
    (work : StoreM τ (Array Ref × Except Cause α)) : Prop :=
  ∀ store rest, store.Exact (items.toList ++ (refs ++ rest)) →
    Ends (work store)
      (fun result after => after.Exact (result.1.toList ++ rest) ∧ after.Remains store ∧
        ∀ item ∈ result.1.toList, item ∈ items.toList ∨ item ∈ refs)
      (fun _ _ => False)

/-- An item is given back where it cannot be stored. -/
theorem refuseItem_works (items : Array Ref) (value : Ref) (cause : Cause) :
    ItemsWork [value] items
      (release value *> pure (items, .error cause) : StoreM τ (Array Ref × Except Cause Unit)) := by
  intro store rest exact
  have owed : store.Exact ([value] ++ (items.toList ++ rest)) :=
    exact.perm (List.perm_append_comm_assoc _ _ _)
  refine releaseAll_ends owed fun final finalExact remains => ?_
  exact ⟨finalExact, remains, fun item member => Or.inl member⟩

/-- Replacing an item exchanges it for another. -/
theorem set_perm {items : List Ref} {index : Nat} {old : Ref} (found : items[index]? = some old)
    (new : Ref) : (old :: items.set index new).Perm (new :: items) := by
  have replaced := Table.filterMap_set_perm some found new
  simpa using replaced

theorem replaceItem_works (kind : Kind) (index : Nat) (value : Ref) (items : Array Ref) :
    ItemsWork [value] items (replaceItem kind index value items : StoreM τ _) := by
  intro store rest exact
  cases found : items[index]? with
  | none =>
      simp only [replaceItem, found]
      exact refuseItem_works items value _ store rest exact
  | some displaced =>
      have perm : (displaced :: (items.setIfInBounds index value).toList).Perm
          (value :: items.toList) := by
        rw [Array.toList_setIfInBounds]
        exact set_perm (by simpa using found) value
      have owed :
          store.Exact ([displaced] ++ ((items.setIfInBounds index value).toList ++ rest)) := by
        refine exact.perm ?_
        refine (List.perm_append_comm_assoc _ _ _).trans ?_
        exact perm.symm.append_right rest
      simp only [replaceItem, found]
      refine releaseAll_ends owed fun final finalExact remains => ?_
      refine ⟨finalExact, remains, fun item member => ?_⟩
      have known := perm.mem_iff.mp (List.mem_cons_of_mem _ member)
      rcases List.mem_cons.mp known with rfl | former
      · exact Or.inr List.mem_cons_self
      · exact Or.inl former

theorem chargeInsert_cases (store : Store τ) :
    ∃ tracker, (chargeInsert : StoreM τ Unit) store = .ok () { store with tracker } ∨
      ∃ refusal, (chargeInsert : StoreM τ Unit) store =
        .error (.failed (.refused refusal)) { store with tracker } := by
  unfold chargeInsert
  rcases Tracker.insert store.tracker with ⟨_ | refusal, tracker⟩
  · exact ⟨tracker, Or.inl rfl⟩
  · exact ⟨tracker, Or.inr ⟨refusal, rfl⟩⟩

theorem growItems_works {position : Nat} {items : Array Ref} (inside : position ≤ items.size)
    (value : Ref) : ItemsWork [value] items (growItems position value items : StoreM τ _) := by
  intro store rest exact
  unfold growItems
  obtain ⟨tracker, charged | ⟨refusal, refused⟩⟩ := chargeInsert_cases store
  · have attempted : (Outcome.attempt chargeInsert : StoreM τ _) store =
        .ok (.ok ()) { store with tracker } := by
      rw [Outcome.attempt, charged]
    rw [bind_ok attempted]
    have perm : (items.insertIdxIfInBounds position value).toList.Perm (value :: items.toList) := by
      rw [Array.insertIdxIfInBounds, dif_pos inside, Array.toList_insertIdx]
      exact List.perm_insertIdx _ _ (by simpa using inside)
    refine ⟨?_, Remains.refl _, fun item member => ?_⟩
    · refine (exact.withTracker tracker).perm ?_
      refine (List.perm_append_comm_assoc _ _ _).trans ?_
      exact perm.symm.append_right rest
    · rcases List.mem_cons.mp (perm.mem_iff.mp member) with rfl | former
      · exact Or.inr List.mem_cons_self
      · exact Or.inl former
  · have attempted : (Outcome.attempt chargeInsert : StoreM τ _) store =
        .ok (.error (.refused refusal)) { store with tracker } := by
      rw [Outcome.attempt, refused]
    rw [bind_ok attempted]
    exact refuseItem_works items value _ _ rest (exact.withTracker tracker)

/-! ## Containers in the store -/

theorem refuseObject_works (refs : List Ref) (payload : Payload) :
    Works refs payload (refuseObject refs payload : StoreM τ _) := by
  intro store rest exact
  have owed : store.Exact (refs ++ (payload.children ++ rest)) :=
    exact.perm (List.perm_append_comm_assoc _ _ _)
  exact releaseAll_ends owed fun final finalExact remains =>
    ⟨finalExact, remains, Reworks.refl refs payload⟩

omit [Tracker τ] in
/-- A table in a dictionary is changed as it is on its own. -/
theorem TableWorks.dict {table : Table Ref} {work : StoreM τ (Table Ref × Except Cause Unit)}
    (works : TableWorks refs table work) :
    Works refs (.dict table) (do
      let (table, result) ← work
      return (.dict table, result)) := by
  intro store rest exact
  refine Ends.bind (works store rest exact) ?_
  rintro ⟨new, result⟩ final ⟨finalExact, remains, valid, known⟩
  refine ⟨finalExact, remains, .dict table new, ?_, ?_⟩
  · intro child role member
    simp only [Payload.roles, List.mem_map, Prod.mk.injEq] at member ⊢
    obtain ⟨value, stored, rfl, rfl⟩ := member
    rcases known value stored with former | received
    · exact Or.inl ⟨value, former, rfl, rfl⟩
    · exact Or.inr ⟨received, rfl⟩
  · rintro _ same -
    obtain rfl := Payload.dict.inj same
    exact valid

omit [Tracker τ] in
/-- The items of a list or a tuple are changed as they are on their own. -/
theorem ItemsWork.sequence {pack : Array Ref → Payload} {items : Array Ref}
    {work : StoreM τ (Array Ref × Except Cause Unit)}
    (packs : pack = Payload.list ∨ pack = Payload.tuple) (works : ItemsWork refs items work) :
    Works refs (pack items) (do
      let (items, result) ← work
      return (pack items, result)) := by
  have roles : ∀ items, (pack items).roles = items.toList.map (·, .value) := by
    rcases packs with rfl | rfl <;> exact fun _ => rfl
  have children : ∀ items, (pack items).children = items.toList := by
    rcases packs with rfl | rfl <;> exact fun _ => rfl
  intro store rest exact
  rw [children] at exact
  refine Ends.bind (works store rest exact) ?_
  rintro ⟨new, result⟩ final ⟨finalExact, remains, known⟩
  refine ⟨(children new).symm ▸ finalExact, remains, ?_, ?_, ?_⟩
  · rcases packs with rfl | rfl
    · exact .list items new
    · exact .tuple items new
  · intro child role member
    simp only [roles, List.mem_map, Prod.mk.injEq] at member ⊢
    obtain ⟨value, stored, rfl, rfl⟩ := member
    rcases known value stored with former | received
    · exact Or.inl ⟨value, former, rfl, rfl⟩
    · exact Or.inr ⟨received, rfl⟩
  · rintro table same -
    rcases packs with rfl | rfl <;> cases same

theorem lendingTable_accounts {work : Table Ref → StoreM τ (Table Ref × Except Cause Unit)}
    (sound : store.Sound (refs ++ held) inner)
    (secured : store.Secured (roots ++ (held ++ inner)) ref) (ne_builtins : ref ≠ .builtins)
    (works : ∀ table, table.Valid → TableWorks refs table (work table)) :
    Accounts (lendingTable ref refs work) store held inner (fun _ => []) := by
  refine lending_ends sound secured ne_builtins fun payload found => ?_
  split
  · rename_i table
    exact (works table (sound.tables ref table found)).dict
  · exact refuseObject_works refs _

theorem lendingList_accounts {work : Array Ref → StoreM τ (Array Ref × Except Cause Unit)}
    (sound : store.Sound (refs ++ held) inner)
    (secured : store.Secured (roots ++ (held ++ inner)) ref) (ne_builtins : ref ≠ .builtins)
    (works : ∀ items, ItemsWork refs items (work items)) :
    Accounts (lendingList ref refs work) store held inner (fun _ => []) := by
  refine lending_ends sound secured ne_builtins fun payload found => ?_
  split
  · exact (works _).sequence (Or.inl rfl)
  · exact refuseObject_works refs _

theorem lendingTuple_accounts {work : Array Ref → StoreM τ (Array Ref × Except Cause Unit)}
    (sound : store.Sound (refs ++ held) inner)
    (secured : store.Secured (roots ++ (held ++ inner)) ref) (ne_builtins : ref ≠ .builtins)
    (works : ∀ items, ItemsWork refs items (work items)) :
    Accounts (lendingTuple ref refs work) store held inner (fun _ => []) := by
  refine lending_ends sound secured ne_builtins fun payload found => ?_
  split
  · exact (works _).sequence (Or.inr rfl)
  · exact refuseObject_works refs _

section Containers

variable (sound : store.Sound (value :: held) inner)
  (secured : store.Secured (roots ++ (held ++ inner)) ref) (ne_builtins : ref ≠ .builtins)

include sound secured ne_builtins

theorem dictInsert_accounts (key : Bytes) :
    Accounts (dictInsert ref key value) store held inner (fun _ => []) :=
  lendingTable_accounts sound secured ne_builtins fun _ valid =>
    tableInsert_works valid key value

theorem listSet_accounts (index : Nat) :
    Accounts (listSet ref index value) store held inner (fun _ => []) :=
  lendingList_accounts sound secured ne_builtins fun items =>
    replaceItem_works .list index value items

theorem tupleSet_accounts (index : Nat) :
    Accounts (tupleSet ref index value) store held inner (fun _ => []) :=
  lendingTuple_accounts sound secured ne_builtins fun items =>
    replaceItem_works .tuple index value items

theorem listInsert_accounts (index : Int64) :
    Accounts (listInsert ref index value) store held inner (fun _ => []) :=
  lendingList_accounts sound secured ne_builtins fun _ =>
    growItems_works (Nat.min_le_right _ _) value

theorem listAppend_accounts : Accounts (listAppend ref value) store held inner (fun _ => []) :=
  lendingList_accounts sound secured ne_builtins fun items =>
    growItems_works (Nat.le_refl items.size) value

end Containers

theorem dictRemove_accounts (sound : store.Sound held inner)
    (secured : store.Secured (roots ++ (held ++ inner)) ref) (ne_builtins : ref ≠ .builtins)
    (key : Bytes) : Accounts (dictRemove ref key) store held inner (fun _ => []) :=
  lendingTable_accounts sound secured ne_builtins fun _ valid => tableErase_works valid key

end StoreM

end StackMachine
