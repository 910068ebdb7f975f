import StackMachine.Proofs.Table.Stepping

/-!
# Binding a key again

A key that is in a table has a slot already, and binding it again takes no other.  Room for
one more entry is asked for all the same, before the key is looked for.  So it happens that a
table with no empty slot, for which there is no rebuild, does not bind its own keys again.

Whether there is room is all that matters.  An entry is not asked for, so that a tracker that
counts entries does not count this one.
-/

namespace StackMachine.Table

variable {τ : Type} [Tracker τ] {tracker : τ} {table : Table Ref} {key : Bytes} {old value : Ref}
variable {cause : Cause}

/-- There is no room for one more entry: a rebuild is due, no slot is empty, and either there is
no size to rebuild the table at or the tracker refuses it. -/
structure OutOfRoom (table : Table Ref) (tracker : τ) (cause : Cause) : Prop where
  due : table.isCrowded = true
  filled : ∀ index : Nat, table.slots[index]? ≠ some .empty
  denied : (cause = .tableFull ∧ ∀ size ∈ sizes, size ≤ 2 * table.used) ∨
    ∃ size refusal, nextSize? table.used = some size ∧
      Tracker.build (size * slotBytes) tracker = some refusal ∧ cause = .refused refusal

/-- How binding a key ends that is bound to `old`. -/
inductive Overwrites (table : Table Ref) (tracker : τ) (key : Bytes) (old value : Ref) : Prop where
  /-- The key is bound, the value it was bound to is released, and no other key is concerned.
  The tracker was asked for room at most. -/
  | succeeds (after : Table Ref) (room : ∀ cause, ¬ table.OutOfRoom tracker cause)
      (result : table.insert tracker key value = (.ok (some old), after, table.askRoom tracker))
      (rebound : ∀ other, after.find? other = if key = other then some value else table.find? other)
      (length : after.used = table.used)
      (releases : ∀ store : Store τ, store.tracker = tracker →
        StoreM.tableInsert key value table store =
          (StoreM.release old *> pure (after, .ok ()))
            { store with tracker := table.askRoom tracker })
  /-- There was no room: the table stays as it is, and the value that was passed is released. -/
  | fails (cause : Cause) (reason : table.OutOfRoom tracker cause)
      (result : table.insert tracker key value =
        (.error (.failed cause), table, table.askRoom tracker))
      (releases : ∀ store : Store τ, store.tracker = tracker →
        StoreM.tableInsert key value table store =
          (StoreM.release value *> pure (table, .error cause))
            { store with tracker := table.askRoom tracker })
  /-- The key is the only one, the table is rebuilt at size three for it, and at this size there
  is no step for it. -/
  | endless (alone : table.entries = [(key, old)]) (due : table.isCrowded = true)
      (isOnes : HashesToOnes key)
      (result : (table.insert tracker key value).1 = .error .unfinished)

/-! ## Making room -/

/-- Where a rebuild does not end, it is one at size three, for a key that hashes to ones. -/
theorem Valid.rebuild_endless (valid : table.Valid)
    (endless : table.rebuild tracker = .error .unfinished) :
    nextSize? table.used = some 3 ∧ ∃ entry ∈ table.entries, HashesToOnes entry.1 := by
  rw [rebuild] at endless
  cases next : nextSize? table.used with
  | none => simp [next] at endless
  | some size =>
      cases answer : Tracker.build (size * slotBytes) tracker with
      | some refusal => simp [next, answer] at endless
      | none =>
          simp only [next, answer] at endless
          obtain ⟨member, larger⟩ := nextSize?_eq_some next
          have count : table.entries.length = table.used := by rw [length_entries, valid.used_eq]
          have size_eq : (ofSize size : Table Ref).size = size := by simp [Table.size, ofSize]
          have means : OccupyAllMeans table.entries (ofSize size)
              (occupyAll table.entries (ofSize size)) :=
            occupyAll_means (valid_ofSize member) (by simpa using valid.nodup_keys) (by
              rw [size_eq]
              simp only [ofSize]
              omega)
          rw [endless] at means
          obtain ⟨entry, present, missing⟩ := means
          rw [size_eq, step?_eq_none_iff member] at missing
          exact ⟨congrArg some missing.1, entry, present, missing.2⟩

/-- Room is made for one more entry unless there is none to be had. -/
theorem OutOfRoom.makeRoom_eq (out : table.OutOfRoom tracker cause) (valid : table.Valid) :
    table.makeRoom tracker = .error (.failed cause) := by
  have refused : table.rebuild tracker = .error (.failed cause) := by
    rw [rebuild]
    rcases out.denied with ⟨rfl, small⟩ | ⟨size, refusal, next, answer, rfl⟩
    · have none_left : nextSize? table.used = none :=
        List.find?_eq_none.mpr fun size member => by simpa using small size member
      rw [none_left]
    · simp only [next, answer]
  have full : table.size < table.fill + 1 := by
    by_contra spacious
    obtain ⟨index, -, empty⟩ := valid.exists_empty (by omega)
    exact out.filled index empty
  simp [makeRoom, out.due, refused, full]

/-! ## One insertion -/

/-- A key that is bound is found again. -/
theorem probe_of_find? (isBound : table.find? key = some old) :
    ∃ index, table.probe key = .found index ∧ table.valueAt? index = some old := by
  rw [find?] at isBound
  cases ended : table.probe key with
  | found index => exact ⟨index, rfl, by simpa [ended] using isBound⟩
  | vacant index => simp [ended] at isBound
  | full => simp [ended] at isBound
  | endless => simp [ended] at isBound

theorem Valid.overwrites (valid : table.Valid) (isBound : table.find? key = some old)
    (tracker : τ) (value : Ref) : table.Overwrites tracker key old value := by
  have means := valid.makeRoom_means tracker
  cases room : table.makeRoom tracker with
  | error stop =>
      rw [room] at means
      cases stop with
      | fault broken => exact means.elim
      | failed cause =>
          obtain ⟨due, refused, filled⟩ := means
          have result : table.insert tracker key value =
              (.error (.failed cause), table, table.askRoom tracker) := by
            simp only [insert, room]
          refine .fails cause ⟨due, valid.no_empty filled, valid.denied_of_rebuild refused⟩
            result ?_
          intro store same
          subst same
          simp only [StoreM.tableInsert, result]
      | unfinished =>
          have due : table.isCrowded = true := by
            by_contra spacious
            simp [makeRoom, spacious] at room
          have endless : table.rebuild tracker = .error .unfinished := by
            simp only [makeRoom, due, ↓reduceIte] at room
            split at room
            · split at room <;> simp at room
            · exact room
          obtain ⟨next, entry, present, isOnes⟩ := valid.rebuild_endless endless
          have few : table.entries.length ≤ 1 := by
            rw [length_entries, ← valid.used_eq]
            have larger := (nextSize?_eq_some next).2
            omega
          have stored : (key, old) ∈ table.entries := valid.find?_eq_some_iff.mp isBound
          obtain ⟨only, alone⟩ :=
            List.length_eq_one_iff.mp (Nat.le_antisymm few (List.length_pos_of_mem stored))
          rw [alone, List.mem_singleton] at stored present
          subst stored present
          exact .endless alone due isOnes (by simp only [insert, room])
  | ok roomy =>
      rw [room] at means
      obtain ⟨roomyValid, perm, -⟩ := means
      have kept : roomy.find? key = some old :=
        (roomyValid.find?_eq_of_perm valid perm key).trans isBound
      obtain ⟨index, ended, read⟩ := probe_of_find? kept
      have result : table.insert tracker key value =
          (.ok (some old), roomy.rebind index key value, table.askRoom tracker) := by
        simp only [insert, room, ended, read]
      have inserted := valid.insert_means tracker key value
      rw [result] at inserted
      obtain ⟨afterValid, displaced, moved⟩ := inserted
      refine .succeeds (roomy.rebind index key value) ?_ result
        (valid.find?_insert afterValid displaced moved) ?_ ?_
      · intro cause out
        rw [out.makeRoom_eq valid] at room
        cases room
      · have lengths := moved.length_eq
        simp only [Option.map_some, Option.toList_some, List.cons_append, List.nil_append,
          List.length_cons, Nat.add_right_cancel_iff] at lengths
        rw [afterValid.used_eq, valid.used_eq, ← length_entries, ← length_entries, lengths]
      · intro store same
        subst same
        simp only [StoreM.tableInsert, result]
        rfl

/-- A meter counts nothing when it is asked for room. -/
theorem askRoom_meter (table : Table Ref) (meter : Meter) : table.askRoom meter = meter := by
  rw [askRoom]
  split
  · split <;> rfl
  · rfl

/-! ## Any table -/

/-- In a table that any operations have left, under any tracker, a key that is bound is bound
again, unless there is no room for one more entry or there is no step for the key where the table
is rebuilt.  A meter counts nothing for it. -/
theorem overwriting_ends (operations : List (Operation τ)) (table : Table Ref)
    (done : List (Operation τ × Bool)) (ran : run operations = some (table, done)) (tracker : τ)
    (key : Bytes) (old value : Ref) (isBound : boundTo key done = some old) :
    table.Overwrites tracker key old value ∧ ∀ meter : Meter, table.askRoom meter = meter := by
  rcases run_mirrors operations with ⟨left, performed, same, -, mirrors⟩ | ⟨stuck, -⟩
  · rw [ran] at same
    cases same
    have found : table.find? key = some old := (mirrors.finds key).trans isBound
    exact ⟨mirrors.valid.overwrites found tracker value, askRoom_meter table⟩
  · rw [ran] at stuck
    cases stuck

/-- Three keys are bound while rebuilding is refused, so that a table of size three is full. -/
def filling : List (Operation Meter) :=
  let frugal := Meter.start { Limits.standard with memory := some 1 } ⟨0, 0⟩
  [.insert frugal #[99] ⟨2⟩, .insert frugal #[98] ⟨1⟩, .insert frugal #[97] ⟨0⟩]

/-- A key of the full table is bound again by a tracker that refuses nothing. -/
theorem overwriting_ends_filling : ∃ table done,
    run filling = some (table, done) ∧ boundTo #[97] done = some ⟨0⟩ ∧
      table.Overwrites (Meter.start .standard ⟨0, 0⟩) #[97] ⟨0⟩ ⟨3⟩ ∧
        ∀ meter : Meter, table.askRoom meter = meter :=
  ⟨_, _, rfl, rfl, overwriting_ends filling _ _ rfl _ _ _ _ rfl⟩

/-- Where rebuilding is refused still, none of its keys is bound again. -/
theorem overwriting_refused : ∃ table done refusal,
    run filling = some (table, done) ∧ boundTo #[97] done = some ⟨0⟩ ∧
      (table.insert (Meter.start { Limits.standard with memory := some 1 } ⟨0, 0⟩) #[97] ⟨3⟩).1 =
        .error (.failed (.refused refusal)) :=
  ⟨_, _, .memory 1 224, rfl, rfl, rfl⟩

end StackMachine.Table
