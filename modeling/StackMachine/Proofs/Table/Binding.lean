import StackMachine.Proofs.Table.Validity

/-!
# Binding and removing keys

What a rebuild, an insertion and a removal do to the entries of a valid table, and
in which cases they fail.  A rebuild moves the entries and nothing else.  An
insertion makes room first; once it has, the table has an empty slot, so the search
for the key comes to an end.
-/

namespace StackMachine.Table

variable {α τ : Type} [Tracker τ] {table : Table α} {key : Bytes} {value : α}

/-! ## Empty slots -/

/-- A table that is not filled has an empty slot. -/
theorem Valid.exists_empty (valid : table.Valid) (room : table.fill < table.size) :
    ∃ index < table.size, table.slots[index]? = some .empty := by
  rw [valid.fill_eq, Table.size, ← Array.length_toList, List.countP_lt_length_iff] at room
  obtain ⟨slot, member, unfilled⟩ := room
  obtain ⟨index, present⟩ := List.mem_iff_getElem?.mp member
  have inside := (List.getElem?_eq_some_iff.mp present).1
  rw [Array.getElem?_toList] at present
  refine ⟨index, by simpa [Table.size] using inside, ?_⟩
  cases slot with
  | empty => exact present
  | removed => simp [isFilled] at unfilled
  | live stored content => simp [isFilled] at unfilled

/-- A filled table has no empty slot. -/
theorem Valid.no_empty (valid : table.Valid) (filled : table.size ≤ table.fill) (index : Nat) :
    table.slots[index]? ≠ some .empty := by
  intro empty
  have member : (.empty : Slot α) ∈ table.slots.toList :=
    List.mem_iff_getElem?.mpr ⟨index, by rw [Array.getElem?_toList, empty]⟩
  have less : table.slots.toList.countP isFilled < table.slots.toList.length :=
    List.countP_lt_length_iff.mpr ⟨.empty, member, by simp [isFilled]⟩
  rw [← valid.fill_eq, Array.length_toList] at less
  exact absurd filled (Nat.not_le_of_lt less)

/-- A search in a table that is not filled ends, if it has a step. -/
theorem Valid.probe_ne_full (valid : table.Valid) (room : table.fill < table.size) :
    table.probe key ≠ .full := by
  intro full
  obtain ⟨index, inside, empty⟩ := valid.exists_empty room
  exact not_stops_of_full valid.size_prime full inside (Or.inl empty)

/-! ## Rebuilding -/

/-- How putting entries into a table ends. -/
def OccupyAllMeans (pending : List (Bytes × α)) (table : Table α) :
    Except (Stop Cause) (Table α) → Prop
  | .ok result =>
      result.Valid ∧ result.entries.Perm (pending ++ table.entries) ∧
        result.size = table.size ∧ result.fill = table.fill + pending.length
  | .error .unfinished => ∃ entry ∈ pending, step? table.size entry.1 = none
  | .error _ => False

/-- Entries with new keys fit into a table that has as many empty slots. -/
theorem occupyAll_means {pending : List (Bytes × α)} (valid : table.Valid)
    (distinct : ((pending ++ table.entries).map Prod.fst).Nodup)
    (room : table.fill + pending.length ≤ table.size) :
    OccupyAllMeans pending table (occupyAll pending table) := by
  induction pending generalizing table with
  | nil => exact ⟨valid, List.Perm.refl _, rfl, rfl⟩
  | cons entry rest ih =>
      obtain ⟨key, value⟩ := entry
      rw [List.length_cons] at room
      unfold occupyAll
      cases ended : table.probe key with
      | full => exact absurd ended (valid.probe_ne_full (by omega))
      | endless =>
          exact ⟨(key, value), List.mem_cons_self, (probe_eq_endless_iff valid.size_pos).mp ended⟩
      | found index =>
          obtain ⟨stored, live⟩ := live_of_probe_found valid.size_pos ended
          have member : (key, stored) ∈ table.entries := mem_entries_iff.mpr ⟨index, live⟩
          rw [List.cons_append, List.map_cons, List.nodup_cons] at distinct
          refine absurd (List.mem_map.mpr ⟨(key, stored), ?_, rfl⟩) distinct.1
          exact List.mem_append_right rest member
      | vacant index =>
          have sameSize : (table.occupy index key value).size = table.size := by
            simp [Table.occupy, Table.size]
          have moved : (rest ++ (table.occupy index key value).entries).Perm
              ((key, value) :: rest ++ table.entries) :=
            ((occupy_entries_perm valid.size_pos ended value).append_left rest).trans
              List.perm_middle
          have rest_means := ih (valid.occupy ended value)
            (((moved.map Prod.fst).nodup_iff).mpr distinct) (by
              rw [sameSize]
              simp only [Table.occupy]
              omega)
          revert rest_means
          simp only
          cases occupyAll rest (table.occupy index key value) with
          | ok result =>
              rintro ⟨validResult, perm, size, fill⟩
              refine ⟨validResult, perm.trans moved, size.trans sameSize, ?_⟩
              rw [fill, List.length_cons]
              simp only [Table.occupy]
              omega
          | error stop =>
              cases stop with
              | unfinished =>
                  rintro ⟨entry, member, stuck⟩
                  exact ⟨entry, List.mem_cons_of_mem _ member, sameSize ▸ stuck⟩
              | failed cause => exact id
              | fault broken => exact id

theorem nextSize?_eq_some {used size : Nat} (found : nextSize? used = some size) :
    size ∈ sizes ∧ 2 * used < size := by
  rw [nextSize?] at found
  exact ⟨List.mem_of_find?_eq_some found, by simpa using List.find?_some found⟩

omit [Tracker τ] in
/-- The entries fit into the table a rebuild moves them to. -/
theorem Valid.moved_means (valid : table.Valid) {size : Nat}
    (next : nextSize? table.used = some size) :
    OccupyAllMeans table.entries (ofSize size) (occupyAll table.entries (ofSize size)) := by
  obtain ⟨member, larger⟩ := nextSize?_eq_some next
  refine occupyAll_means (valid_ofSize member) (by simpa using valid.nodup_keys) ?_
  rw [valid.length_eq_used]
  simp only [Table.size, ofSize, Array.size_replicate]
  omega

/-- How a rebuild ends. -/
def RebuildMeans (table : Table α) (tracker : τ) : Except (Stop Cause) (Table α) → Prop
  | .ok result =>
      result.Valid ∧ result.entries.Perm table.entries ∧ result.fill < result.size
  | .error .unfinished =>
      ∃ size ∈ sizes, ∃ entry ∈ table.entries, step? size entry.1 = none
  | .error (.failed cause) =>
      (nextSize? table.used = none ∧ cause = .tableFull) ∨
        ∃ size refusal, nextSize? table.used = some size ∧
          Tracker.build (size * slotBytes) tracker = some refusal ∧ cause = .refused refusal
  | .error (.fault _) => False

theorem Valid.rebuild_means (valid : table.Valid) (tracker : τ) :
    table.RebuildMeans tracker (table.rebuild tracker) := by
  cases next : nextSize? table.used with
  | none =>
      simp only [rebuild, next]
      exact Or.inl ⟨next, rfl⟩
  | some size =>
      simp only [rebuild, next]
      cases answer : Tracker.build (size * slotBytes) tracker with
      | some refusal => exact Or.inr ⟨size, refusal, next, answer, rfl⟩
      | none =>
          obtain ⟨member, larger⟩ := nextSize?_eq_some next
          have size_eq : (ofSize size : Table α).size = size := by simp [Table.size, ofSize]
          have means := valid.moved_means next
          revert means
          simp only
          cases occupyAll table.entries (ofSize size) with
          | ok result =>
              rintro ⟨validResult, perm, sameSize, fill⟩
              refine ⟨validResult, by simpa using perm, ?_⟩
              rw [sameSize, size_eq, fill, valid.length_eq_used]
              simp only [ofSize]
              omega
          | error stop =>
              cases stop with
              | unfinished =>
                  rintro ⟨entry, present, stuck⟩
                  exact ⟨size, member, entry, present, size_eq ▸ stuck⟩
              | failed cause => exact False.elim
              | fault broken => exact False.elim

/-- Where a rebuild fails, there is no size for it or the tracker refuses it. -/
theorem Valid.denied_of_rebuild {tracker : τ} {cause : Cause} (valid : table.Valid)
    (refused : table.rebuild tracker = .error (.failed cause)) :
    (cause = .tableFull ∧ ∀ size ∈ sizes, size ≤ 2 * table.used) ∨
      ∃ size refusal, nextSize? table.used = some size ∧
        Tracker.build (size * slotBytes) tracker = some refusal ∧ cause = .refused refusal := by
  have means := valid.rebuild_means tracker
  rw [refused] at means
  rcases means with ⟨none_left, same⟩ | answered
  · refine Or.inl ⟨same, fun size member => ?_⟩
    simpa using List.find?_eq_none.mp none_left size member
  · exact Or.inr answered

/-- How making room for an entry ends. -/
def MakeRoomMeans (table : Table α) (tracker : τ) : Except (Stop Cause) (Table α) → Prop
  | .ok result =>
      result.Valid ∧ result.entries.Perm table.entries ∧ result.fill < result.size
  | .error (.failed cause) =>
      table.isCrowded = true ∧ table.rebuild tracker = .error (.failed cause) ∧
        table.size ≤ table.fill
  | .error .unfinished =>
      ∃ size ∈ sizes, ∃ entry ∈ table.entries, step? size entry.1 = none
  | .error (.fault _) => False

theorem Valid.makeRoom_means (valid : table.Valid) (tracker : τ) :
    table.MakeRoomMeans tracker (table.makeRoom tracker) := by
  have means := valid.rebuild_means tracker
  unfold makeRoom
  split
  · rename_i crowded
    cases rebuilt : table.rebuild tracker with
    | ok result =>
        rw [rebuilt] at means
        exact means
    | error stop =>
        rw [rebuilt] at means
        cases stop with
        | unfinished => exact means
        | fault broken => exact means
        | failed cause =>
            simp only
            split
            · rename_i filled
              exact ⟨crowded, rebuilt, Nat.le_of_lt_succ filled⟩
            · rename_i unfilled
              exact ⟨valid, List.Perm.refl _, by omega⟩
  · rename_i spacious
    simp only [isCrowded, decide_eq_true_eq] at spacious
    exact ⟨valid, List.Perm.refl _, by omega⟩

/-! ## Binding a key -/

/-- Why binding a key fails: room was needed and could not be made, or the tracker
refuses another entry. -/
inductive InsertFails (table : Table α) (tracker : τ) (key : Bytes) (cause : Cause) : Prop where
  | noRoom (crowded : table.isCrowded = true)
      (refused : table.rebuild tracker = .error (.failed cause))
      (filled : ∀ index : Nat, table.slots[index]? ≠ some .empty)
  | refused (refusal : Refusal) (absent : table.find? key = none)
      (answer : (Tracker.insert (table.askRoom tracker)).1 = some refusal)
      (same : cause = .refused refusal)

/-- How binding a key ends. -/
def InsertMeans (table : Table α) (tracker : τ) (key : Bytes) (value : α) :
    Except (Stop Cause) (Option α) × Table α × τ → Prop
  | (.ok displaced, after, _) =>
      after.Valid ∧ displaced = table.find? key ∧
        ((displaced.map (key, ·)).toList ++ after.entries).Perm ((key, value) :: table.entries)
  | (.error (.failed cause), after, _) =>
      after.Valid ∧ after.entries.Perm table.entries ∧ table.InsertFails tracker key cause
  | (.error .unfinished, after, _) =>
      after.Valid ∧ after.entries.Perm table.entries ∧
        ∃ size ∈ sizes, ∃ stuck, (stuck = key ∨ stuck ∈ table.entries.map Prod.fst) ∧
          step? size stuck = none
  | (.error (.fault _), _, _) => False

/-- Tables with the same entries bind the same keys. -/
theorem Valid.find?_eq_of_perm {first second : Table α} (firstValid : first.Valid)
    (secondValid : second.Valid) (perm : first.entries.Perm second.entries) (key : Bytes) :
    first.find? key = second.find? key := by
  apply Option.ext
  intro value
  rw [firstValid.find?_eq_some_iff, secondValid.find?_eq_some_iff, perm.mem_iff]

theorem Valid.insert_means (valid : table.Valid) (tracker : τ) (key : Bytes) (value : α) :
    table.InsertMeans tracker key value (table.insert tracker key value) := by
  have means := valid.makeRoom_means tracker
  cases room : table.makeRoom tracker with
  | error stop =>
      rw [room] at means
      simp only [insert, room]
      cases stop with
      | failed cause =>
          obtain ⟨crowded, refused, filled⟩ := means
          exact ⟨valid, List.Perm.refl _, .noRoom crowded refused (valid.no_empty filled)⟩
      | unfinished =>
          obtain ⟨size, member, entry, present, stuck⟩ := means
          exact ⟨valid, List.Perm.refl _, size, member, entry.1,
            Or.inr (List.mem_map_of_mem present), stuck⟩
      | fault broken => exact means
  | ok roomy =>
      rw [room] at means
      obtain ⟨roomyValid, perm, notFilled⟩ := means
      have sameFind := roomyValid.find?_eq_of_perm valid perm key
      simp only [insert, room]
      cases ended : roomy.probe key with
      | full => exact absurd ended (roomyValid.probe_ne_full notFilled)
      | endless =>
          exact ⟨roomyValid, perm, roomy.size, roomyValid.size_mem, key, Or.inl rfl,
            (probe_eq_endless_iff roomyValid.size_pos).mp ended⟩
      | found index =>
          obtain ⟨old, live⟩ := live_of_probe_found roomyValid.size_pos ended
          have read : roomy.valueAt? index = some old := by simp [valueAt?, live]
          refine ⟨roomyValid.rebind live value, ?_, ?_⟩
          · rw [← sameFind, find?, ended]
          · rw [read]
            exact (rebind_entries_perm live value).trans (perm.cons _)
      | vacant index =>
          have absent : table.find? key = none :=
            sameFind.symm.trans (find?_eq_none_of_vacant ended)
          simp only
          split
          · rename_i refusal tracker' answer
            exact ⟨roomyValid, perm, .refused refusal absent (by rw [answer]) rfl⟩
          · rename_i tracker' answer
            refine ⟨roomyValid.occupy ended value, absent.symm, ?_⟩
            exact (occupy_entries_perm roomyValid.size_pos ended value).trans (perm.cons _)

theorem Valid.insert_valid (valid : table.Valid) (tracker : τ) (key : Bytes) (value : α) :
    (table.insert tracker key value).2.1.Valid := by
  have means := valid.insert_means tracker key value
  cases result : table.insert tracker key value with
  | mk outcome rest =>
      rw [result] at means
      rcases outcome with (cause | broken | _) | displaced
      · exact means.1
      · exact means.elim
      · exact means.1
      · exact means.1

/-! ## Removing a key -/

/-- How removing a key ends. -/
def EraseMeans (table : Table α) (key : Bytes) : Except (Stop Cause) α × Table α → Prop
  | (.ok old, after) => after.Valid ∧ ((key, old) :: after.entries).Perm table.entries
  | (.error (.failed cause), after) =>
      after = table ∧ cause = .missingKey ∧ table.find? key = none
  | (.error .unfinished, after) => after = table ∧ step? table.size key = none
  | (.error (.fault _), _) => False

theorem Valid.erase_means (valid : table.Valid) (key : Bytes) :
    table.EraseMeans key (table.erase key) := by
  unfold erase
  cases ended : table.probe key with
  | endless => exact ⟨rfl, (probe_eq_endless_iff valid.size_pos).mp ended⟩
  | full => exact ⟨rfl, rfl, by rw [find?, ended]⟩
  | vacant index => exact ⟨rfl, rfl, find?_eq_none_of_vacant ended⟩
  | found index =>
      obtain ⟨old, live⟩ := live_of_probe_found valid.size_pos ended
      have read : table.valueAt? index = some old := by simp [valueAt?, live]
      simp only [read]
      exact ⟨valid.unbind live, unbind_entries_perm live⟩

theorem Valid.erase_valid (valid : table.Valid) (key : Bytes) : (table.erase key).2.Valid := by
  have means := valid.erase_means key
  cases result : table.erase key with
  | mk outcome after =>
      rw [result] at means
      rcases outcome with (cause | broken | _) | value
      · exact means.1 ▸ valid
      · exact means.elim
      · exact means.1 ▸ valid
      · exact means.1

/-! ## Looking a key up -/

/-- Where the search for a key has a step, looking it up gives what it is bound
to. -/
theorem lookup_eq_ok {φ : Type} (positive : 0 < table.size)
    (searchable : (step? table.size key).isSome) :
    (table.lookup key : Except (Stop φ) (Option α)) = .ok (table.find? key) := by
  have ends : table.probe key ≠ .endless := by
    rw [Ne, probe_eq_endless_iff positive]
    exact Option.isSome_iff_ne_none.mp searchable
  unfold lookup find?
  cases ended : table.probe key with
  | endless => exact absurd ended ends
  | found index => rfl
  | vacant index => rfl
  | full => rfl

end StackMachine.Table
