import StackMachine.Proofs.Table.Binding
import StackMachine.Store.Containers

/-!
# Tables as finite maps

A table stands for a map from keys to values.  Operations are performed on a new
table, one after the other, each under a tracker of its own; what a key is bound to
after them is read off the list of what was done, without a table.

`Represents` is everything a table promises that stands for such a map.  It follows
from two facts that each operation keeps: the table is valid, and it finds for each
key what the key is bound to.
-/

namespace StackMachine.Table

variable {τ : Type} [Tracker τ]

/-- An operation on a table.  Binding a key meets a tracker. -/
inductive Operation (τ : Type) where
  | insert (tracker : τ) (key : Bytes) (value : Ref)
  | remove (key : Bytes)
  | lookup (key : Bytes)

namespace Operation

/-- The key an operation searches for. -/
def key : Operation τ → Bytes
  | insert _ key _ => key
  | remove key => key
  | lookup key => key

/-- Whether an operation succeeded, where it came to an end. -/
def verdict? {α : Type} : Except (Stop Cause) α → Option Bool
  | .ok _ => some true
  | .error (.failed _) => some false
  | .error _ => none

/-- The table after an operation, and whether the operation succeeded. -/
def perform (table : Table Ref) : Operation τ → Option (Table Ref × Bool)
  | insert tracker key value =>
      let outcome := table.insert tracker key value
      (verdict? outcome.1).map (outcome.2.1, ·)
  | remove key =>
      let outcome := table.erase key
      (verdict? outcome.1).map (outcome.2, ·)
  | lookup key => (verdict? (table.lookup key)).map (table, ·)

end Operation

/-- What a key is bound to after some operations, the latest of which is first: the
value of the last insertion of the key that succeeded, unless the key was removed
since. -/
def boundTo (key : Bytes) : List (Operation τ × Bool) → Option Ref
  | [] => none
  | (.insert _ other value, true) :: earlier =>
      if other = key then some value else boundTo key earlier
  | (.remove other, true) :: earlier => if other = key then none else boundTo key earlier
  | _ :: earlier => boundTo key earlier

/-- Perform some operations on a new table; the last one of the list is performed
first. -/
def run : List (Operation τ) → Option (Table Ref × List (Operation τ × Bool))
  | [] => some (.empty, [])
  | operation :: earlier => do
      let (table, done) ← run earlier
      let (after, succeeded) ← operation.perform table
      return (after, (operation, succeeded) :: done)

/-- A search that has no step, for one of some keys. -/
def Endless (stuck : Bytes → Prop) : Prop :=
  ∃ size ∈ sizes, ∃ key, stuck key ∧ step? size key = none

/-! ## What a table promises -/

/-- Why a key could not be bound. -/
inductive Declines (table : Table Ref) (tracker : τ) : Prop where
  /-- A rebuild was due, there was no size for it or the tracker refused it, and no
  slot is empty. -/
  | noRoom (due : table.isCrowded = true)
      (denied : (∀ size ∈ sizes, size ≤ 2 * table.used) ∨
        ∃ size refusal, nextSize? table.used = some size ∧
          Tracker.build (size * slotBytes) tracker = some refusal)
      (filled : ∀ index : Nat, table.slots[index]? ≠ some .empty)
  /-- The tracker refused one more entry. -/
  | noEntry (refusal : Refusal)
      (answer : (Tracker.insert (table.askRoom tracker)).1 = some refusal)

variable (table : Table Ref) (bound : Bytes → Option Ref)

/-- How binding a key ends, for the table and for the references in the store. -/
inductive Binds (tracker : τ) (key : Bytes) (value : Ref) : Prop where
  /-- The key is bound, and the value it was bound to is released. -/
  | succeeds (after : Table Ref) (final : τ)
      (result : table.insert tracker key value = (.ok (bound key), after, final))
      (rebound : ∀ other, after.find? other = if key = other then some value else bound other)
      (releases : ∀ store : Store τ, store.tracker = tracker →
        StoreM.tableInsert key value table store =
          (StoreM.releaseOption (bound key) *> pure (after, .ok ()))
            { store with tracker := final })
  /-- All keys are bound as before, and the value that was passed is released. -/
  | fails (cause : Cause) (after : Table Ref) (final : τ) (reason : table.Declines tracker)
      (result : table.insert tracker key value = (.error (.failed cause), after, final))
      (same : ∀ other, after.find? other = bound other)
      (releases : ∀ store : Store τ, store.tracker = tracker →
        StoreM.tableInsert key value table store =
          (StoreM.release value *> pure (after, .error cause)) { store with tracker := final })
  | endless (result : (table.insert tracker key value).1 = .error .unfinished)
      (stuck : Endless fun other => other = key ∨ (bound other).isSome)

/-- How removing a key ends. -/
inductive Removes (key : Bytes) : Prop where
  | succeeds (value : Ref) (after : Table Ref) (isBound : bound key = some value)
      (result : table.erase key = (.ok value, after))
      (removed : ∀ other, after.find? other = if key = other then none else bound other)
  | fails (absent : bound key = none)
      (result : table.erase key = (.error (.failed .missingKey), table))
  | endless (result : (table.erase key).1 = .error .unfinished)
      (stuck : step? table.size key = none)

/-- What a table promises that stands for a map. -/
structure Represents (τ : Type) [Tracker τ] : Prop where
  /-- Where a search has a step, it finds what the key is bound to. -/
  lookup_eq : ∀ key, (step? table.size key).isSome →
    table.lookup key = (.ok (bound key) : Except (Stop Cause) (Option Ref))
  distinct : (table.entries.map Prod.fst).Nodup
  used_eq : table.used = table.slots.toList.countP isLive
  fill_eq : table.fill = table.slots.toList.countP isFilled
  /-- A rebuild moves the entries and does nothing else. -/
  rebuild_keeps : ∀ (tracker : τ) rebuilt, table.rebuild tracker = .ok rebuilt →
    rebuilt.entries.Perm table.entries
  binds : ∀ (tracker : τ) key value, table.Binds bound tracker key value
  removes : ∀ key, table.Removes bound key
  /-- Where there is room for a new entry, the search for its key never sees every slot. -/
  insert_fits : ∀ (tracker : τ) roomy key, table.makeRoom tracker = .ok roomy →
    roomy.probe key ≠ .full
  /-- The entries always fit into the table they are moved to. -/
  rebuild_fits : ∀ size cause, nextSize? table.used = some size →
    occupyAll table.entries (ofSize size) ≠ .error (.failed cause)

/-! ## One operation -/

variable {table bound} {key : Bytes} {value : Ref}

/-- What is found after a change is read off the entries. -/
theorem Valid.find?_congr {after : Table Ref} (valid : table.Valid) (afterValid : after.Valid)
    {other : Bytes}
    (same : ∀ value, (other, value) ∈ after.entries ↔ (other, value) ∈ table.entries) :
    after.find? other = table.find? other := by
  apply Option.ext
  intro value
  rw [afterValid.find?_eq_some_iff, valid.find?_eq_some_iff, same]

/-- Two entries with one key are never in a table. -/
theorem Valid.not_mem_of_cons {rest : List (Bytes × Ref)} {entry : Bytes × Ref}
    (valid : table.Valid) (perm : (entry :: rest).Perm table.entries) (value : Ref) :
    (entry.1, value) ∉ rest := by
  have distinct := ((perm.map Prod.fst).nodup_iff).mpr valid.nodup_keys
  rw [List.map_cons, List.nodup_cons] at distinct
  exact fun member => distinct.1 (List.mem_map.mpr ⟨(entry.1, value), member, rfl⟩)

theorem Valid.find?_insert {after : Table Ref} {displaced : Option Ref} (valid : table.Valid)
    (afterValid : after.Valid) (displaced_eq : displaced = table.find? key)
    (perm : ((displaced.map (key, ·)).toList ++ after.entries).Perm
      ((key, value) :: table.entries)) (other : Bytes) :
    after.find? other = if key = other then some value else table.find? other := by
  split
  · rename_i same
    subst same
    rw [afterValid.find?_eq_some_iff]
    cases displaced with
    | none => exact (perm.mem_iff).mpr List.mem_cons_self
    | some old =>
        -- The entry that went is the one the table had, so the new one is what came instead.
        have stored : (key, old) ∈ table.entries := valid.find?_eq_some_iff.mp displaced_eq.symm
        have split := List.perm_cons_erase stored
        have swapped : ((key, old) :: after.entries).Perm
            ((key, old) :: (key, value) :: table.entries.erase (key, old)) :=
          perm.trans ((split.cons _).trans (List.Perm.swap _ _ _))
        exact (swapped.cons_inv.mem_iff).mpr List.mem_cons_self
  · rename_i different
    apply valid.find?_congr afterValid
    intro stored
    have outside : (other, stored) ∉ (displaced.map (key, ·)).toList := by
      intro member
      cases displaced with
      | none => cases member
      | some old => simp_all
    have moved := perm.mem_iff (a := (other, stored))
    simp only [List.mem_append, outside, false_or, List.mem_cons, Prod.mk.injEq] at moved
    rw [moved]
    simp [Ne.symm different]

theorem Valid.find?_erase {after : Table Ref} (valid : table.Valid) (afterValid : after.Valid)
    (perm : ((key, value) :: after.entries).Perm table.entries) (other : Bytes) :
    after.find? other = if key = other then none else table.find? other := by
  split
  · rename_i same
    subst same
    cases found : after.find? key with
    | none => rfl
    | some left =>
        have member := afterValid.find?_eq_some_iff.mp found
        exact absurd member (valid.not_mem_of_cons perm left)
  · rename_i different
    apply valid.find?_congr afterValid
    intro stored
    rw [← perm.mem_iff, List.mem_cons, Prod.mk.injEq]
    simp [Ne.symm different]

theorem Valid.binds (valid : table.Valid) (finds : ∀ key, table.find? key = bound key)
    (tracker : τ) (key : Bytes) (value : Ref) : table.Binds bound tracker key value := by
  have means := valid.insert_means tracker key value
  cases result : table.insert tracker key value with
  | mk outcome rest =>
      obtain ⟨after, final⟩ := rest
      rw [result] at means
      cases outcome with
      | ok displaced =>
          obtain ⟨afterValid, displaced_eq, perm⟩ := means
          have known : displaced = bound key := displaced_eq.trans (finds key)
          subst known
          refine .succeeds after final result ?_ ?_
          · intro other
            rw [valid.find?_insert afterValid displaced_eq perm, finds]
          · intro store same
            subst same
            simp only [StoreM.tableInsert, result]
      | error stop =>
          cases stop with
          | failed cause =>
              obtain ⟨afterValid, perm, reason⟩ := means
              refine .fails cause after final ?_ result ?_ ?_
              · cases reason with
                | noRoom due refused filled =>
                    refine .noRoom due ((valid.denied_of_rebuild refused).imp And.right ?_) filled
                    rintro ⟨size, refusal, next, answer, -⟩
                    exact ⟨size, refusal, next, answer⟩
                | refused refusal absent answer same => exact .noEntry refusal answer
              · intro other
                rw [afterValid.find?_eq_of_perm valid perm, finds]
              · intro store same
                subst same
                simp only [StoreM.tableInsert, result]
          | fault broken => exact means.elim
          | unfinished =>
              obtain ⟨-, -, size, member, stuck, isStuck, endless⟩ := means
              refine .endless (by rw [result])
                ⟨size, member, stuck, isStuck.imp_right fun stored => ?_, endless⟩
              obtain ⟨⟨_, content⟩, present, rfl⟩ := List.mem_map.mp stored
              rw [← finds, valid.find?_eq_some_iff.mpr present]
              rfl

theorem Valid.removes (valid : table.Valid) (finds : ∀ key, table.find? key = bound key)
    (key : Bytes) : table.Removes bound key := by
  have means := valid.erase_means key
  cases result : table.erase key with
  | mk outcome after =>
      rw [result] at means
      cases outcome with
      | ok value =>
          obtain ⟨afterValid, perm⟩ := means
          refine .succeeds value after ?_ result ?_
          · rw [← finds, valid.find?_eq_some_iff]
            exact (perm.mem_iff).mp List.mem_cons_self
          · intro other
            rw [valid.find?_erase afterValid perm, finds]
      | error stop =>
          cases stop with
          | failed cause =>
              obtain ⟨rfl, rfl, absent⟩ := means
              exact .fails ((finds key).symm.trans absent) result
          | fault broken => exact means.elim
          | unfinished => exact .endless (by rw [result]) means.2

theorem Valid.represents (valid : table.Valid) (finds : ∀ key, table.find? key = bound key) :
    table.Represents bound τ where
  lookup_eq key searchable := by rw [lookup_eq_ok valid.size_pos searchable, finds]
  distinct := valid.nodup_keys
  used_eq := valid.used_eq
  fill_eq := valid.fill_eq
  rebuild_keeps tracker rebuilt result := by
    have means := valid.rebuild_means tracker
    rw [result] at means
    exact means.2.1
  binds := valid.binds finds
  removes := valid.removes finds
  insert_fits tracker roomy key room := by
    have means := valid.makeRoom_means tracker
    rw [room] at means
    exact means.1.probe_ne_full means.2.2
  rebuild_fits _ cause next := by
    have means := valid.moved_means next
    intro failed
    rw [failed] at means
    exact means

/-! ## Any number of operations -/

/-- How some operations on a new table end: the table stands for the map that was
made, or the search for one of the keys has no step. -/
def RunMeans (operations : List (Operation τ)) :
    Option (Table Ref × List (Operation τ × Bool)) → Prop
  | some (table, done) =>
      done.map Prod.fst = operations ∧ table.Represents (boundTo · done) τ
  | none => Endless fun key => ∃ operation ∈ operations, operation.key = key

/-- What the table and the list of what was done have in common. -/
structure Mirrors (table : Table Ref) (done : List (Operation τ × Bool)) : Prop where
  valid : table.Valid
  finds : ∀ key, table.find? key = boundTo key done

omit [Tracker τ] in
/-- Only keys that an operation was about are bound. -/
theorem exists_operation_of_boundTo {done : List (Operation τ × Bool)} {key : Bytes}
    (isBound : (boundTo key done).isSome) :
    ∃ operation ∈ done.map Prod.fst, operation.key = key := by
  induction done with
  | nil => cases isBound
  | cons latest earlier ih =>
      have before : (boundTo key earlier).isSome →
          ∃ operation ∈ (latest :: earlier).map Prod.fst, operation.key = key := by
        intro isBound
        obtain ⟨operation, member, same⟩ := ih isBound
        exact ⟨operation, List.mem_cons_of_mem _ member, same⟩
      obtain ⟨operation, succeeded⟩ := latest
      cases operation with
      | insert tracker other value =>
          cases succeeded with
          | false => exact before isBound
          | true =>
              by_cases same : other = key
              · exact ⟨.insert tracker other value, List.mem_cons_self, same⟩
              · rw [boundTo, if_neg same] at isBound
                exact before isBound
      | remove other =>
          cases succeeded with
          | false => exact before isBound
          | true =>
              by_cases same : other = key
              · exact ⟨.remove other, List.mem_cons_self, same⟩
              · rw [boundTo, if_neg same] at isBound
                exact before isBound
      | lookup other => exact before isBound

omit [Tracker τ] in
theorem mirrors_empty : Mirrors .empty ([] : List (Operation τ × Bool)) where
  valid := valid_empty
  finds key := by
    apply Option.ext
    intro value
    rw [valid_empty.find?_eq_some_iff]
    simp [empty, boundTo]

/-- What an operation does to the map. -/
theorem Mirrors.perform {after : Table Ref} {done : List (Operation τ × Bool)}
    {operation : Operation τ} {succeeded : Bool} (mirrors : Mirrors table done)
    (performed : operation.perform table = some (after, succeeded)) :
    Mirrors after ((operation, succeeded) :: done) := by
  cases operation with
  | insert tracker key value =>
      have afterValid := mirrors.valid.insert_valid tracker key value
      cases mirrors.valid.binds mirrors.finds tracker key value with
      | succeeds result final same rebound releases =>
          simp only [Operation.perform, same, Operation.verdict?, Option.map_some,
            Option.some.injEq, Prod.mk.injEq] at performed afterValid
          obtain ⟨rfl, rfl⟩ := performed
          exact ⟨afterValid, fun other => by rw [rebound, boundTo]⟩
      | fails cause result final reason same unchanged releases =>
          simp only [Operation.perform, same, Operation.verdict?, Option.map_some,
            Option.some.injEq, Prod.mk.injEq] at performed afterValid
          obtain ⟨rfl, rfl⟩ := performed
          exact ⟨afterValid, unchanged⟩
      | endless unfinished stuck =>
          rw [Operation.perform, unfinished] at performed
          cases performed
  | remove key =>
      have afterValid := mirrors.valid.erase_valid key
      cases mirrors.valid.removes mirrors.finds key with
      | succeeds value result isBound same removed =>
          simp only [Operation.perform, same, Operation.verdict?, Option.map_some,
            Option.some.injEq, Prod.mk.injEq] at performed afterValid
          obtain ⟨rfl, rfl⟩ := performed
          exact ⟨afterValid, fun other => by rw [removed, boundTo]⟩
      | fails absent same =>
          simp only [Operation.perform, same, Operation.verdict?, Option.map_some,
            Option.some.injEq, Prod.mk.injEq] at performed
          obtain ⟨rfl, rfl⟩ := performed
          exact ⟨mirrors.valid, mirrors.finds⟩
      | endless unfinished stuck =>
          rw [Operation.perform, unfinished] at performed
          cases performed
  | lookup key =>
      obtain ⟨answer, ended, same⟩ := Option.map_eq_some_iff.mp performed
      obtain ⟨rfl, rfl⟩ := Prod.mk.inj same
      exact ⟨mirrors.valid, mirrors.finds⟩

/-- An operation does not end only where the search for a key has no step. -/
theorem Mirrors.endless {done : List (Operation τ × Bool)} {operation : Operation τ}
    (mirrors : Mirrors table done) (performed : operation.perform table = none) :
    Endless fun key => key = operation.key ∨ (boundTo key done).isSome := by
  cases operation with
  | insert tracker key value =>
      cases mirrors.valid.binds mirrors.finds tracker key value with
      | succeeds after final same rebound releases =>
          simp [Operation.perform, same, Operation.verdict?] at performed
      | fails cause after final reason same unchanged releases =>
          simp [Operation.perform, same, Operation.verdict?] at performed
      | endless unfinished stuck => exact stuck
  | remove key =>
      cases mirrors.valid.removes mirrors.finds key with
      | succeeds value after isBound same removed =>
          simp [Operation.perform, same, Operation.verdict?] at performed
      | fails absent same => simp [Operation.perform, same, Operation.verdict?] at performed
      | endless unfinished stuck =>
          exact ⟨table.size, mirrors.valid.size_mem, key, Or.inl rfl, stuck⟩
  | lookup key =>
      refine ⟨table.size, mirrors.valid.size_mem, key, Or.inl rfl, ?_⟩
      by_contra searchable
      have answered := lookup_eq_ok (φ := Cause) mirrors.valid.size_pos
        (Option.isSome_iff_ne_none.mpr searchable)
      simp [Operation.perform, answered, Operation.verdict?] at performed

/-- The table is valid after any run and finds what was bound in it. -/
theorem run_mirrors (operations : List (Operation τ)) :
    (∃ table done, run operations = some (table, done) ∧ done.map Prod.fst = operations ∧
      Mirrors table done) ∨
    (run operations = none ∧ Endless fun key => ∃ operation ∈ operations, operation.key = key) := by
  induction operations with
  | nil => exact Or.inl ⟨.empty, [], rfl, rfl, mirrors_empty⟩
  | cons operation earlier ih =>
      rcases ih with ⟨table, done, ran, same, mirrors⟩ | ⟨ran, size, member, key, known, stuck⟩
      · cases performed : operation.perform table with
        | some outcome =>
            obtain ⟨after, succeeded⟩ := outcome
            have kept := mirrors.perform performed
            refine Or.inl ⟨after, (operation, succeeded) :: done, ?_, ?_, kept⟩
            · simp [run, ran, performed]
            · simp [same]
        | none =>
            obtain ⟨size, member, key, known, stuck⟩ := mirrors.endless performed
            refine Or.inr ⟨by simp [run, ran, performed], size, member, key, ?_, stuck⟩
            rcases known with rfl | isBound
            · exact ⟨operation, List.mem_cons_self, rfl⟩
            · obtain ⟨other, past, about⟩ := exists_operation_of_boundTo isBound
              exact ⟨other, List.mem_cons_of_mem _ (same ▸ past), about⟩
      · obtain ⟨other, past, about⟩ := known
        exact Or.inr ⟨by simp [run, ran], size, member, key,
          ⟨other, List.mem_cons_of_mem _ past, about⟩, stuck⟩

/-- After any operations, under any trackers, a table stands for the map that was made. -/
theorem run_represents (operations : List (Operation τ)) :
    RunMeans operations (run operations) := by
  rcases run_mirrors operations with ⟨table, done, ran, same, mirrors⟩ | ⟨ran, endless⟩
  · rw [ran]
    exact ⟨same, mirrors.valid.represents mirrors.finds⟩
  · rw [ran]
    exact endless

end StackMachine.Table
