import StackMachine.Proofs.Table.Stepping

/-!
# The slots on the way of a search

A search with a step visits as many slots as the table has, each one step further around the
table than the one before.  These are all slots, and each of them is visited once, whatever is in
them.  So a search ends without a slot only where the table has none that is empty or holds the
key; and where it ends at an empty slot, that is the first empty one on the way.
-/

namespace StackMachine.Table

variable {α : Type} {table : Table α} {key : Bytes} {size step start visits index : Nat}

/-- The slots that are visited from `start` on, in their order. -/
def route (size step start visits : Nat) : List Nat :=
  List.iterate (fun index => (index + step) % size) start visits

/-- Search for a key in some slots, one after the other. -/
def probeAlong (table : Table α) (key : Bytes) : (slots : List Nat) → Probe
  | [] => .full
  | index :: rest =>
      match table.slots[index]? with
      | some .empty => .vacant index
      | some (.live other _) => if other == key then .found index else probeAlong table key rest
      | _ => probeAlong table key rest

/-- A search visits the slots on its way until it ends. -/
theorem probeFrom_eq_along (table : Table α) (key : Bytes) (step visits start : Nat) :
    table.probeFrom key step visits start =
      table.probeAlong key (route table.size step start visits) := by
  induction visits generalizing start with
  | zero => rfl
  | succ visits ih =>
      unfold probeFrom route List.iterate probeAlong
      rw [ih]
      rfl

/-! ## Which slots are visited -/

theorem length_route : (route size step start visits).length = visits :=
  List.length_iterate _ _ _

theorem getElem?_route {turns : Nat} (inside : start < size) (early : turns < visits) :
    (route size step start visits)[turns]? = some (walk size step start turns) := by
  induction visits generalizing start turns with
  | zero => exact absurd early (Nat.not_lt_zero turns)
  | succ visits ih =>
      unfold route List.iterate
      cases turns with
      | zero => simp [Nat.mod_eq_of_lt inside]
      | succ turns =>
          rw [List.getElem?_cons_succ, walk_succ]
          exact ih (Nat.mod_lt _ (Nat.zero_lt_of_lt inside)) (Nat.lt_of_succ_lt_succ early)

/-- A search of as many visits as there are slots comes to every slot, and to each of them
once. -/
theorem route_perm (prime : size.Prime) (bounds : 0 < step ∧ step < size) (inside : start < size) :
    (route size step start size).Perm (List.range size) := by
  have visited {turns : Nat} (early : turns < size) :
      (route size step start size)[turns]? = some (walk size step start turns) :=
    getElem?_route inside early
  have once : (route size step start size).Nodup := by
    refine List.nodup_iff_getElem?_ne_getElem?.mpr fun first second less early same => ?_
    rw [length_route] at early
    rw [visited (less.trans early), visited early, Option.some.injEq] at same
    exact less.ne (walk_injOn prime bounds (less.trans early) early same)
  refine (List.perm_ext_iff_of_nodup once List.nodup_range).mpr fun index => ?_
  rw [List.mem_range]
  constructor
  · intro member
    obtain ⟨turns, early, rfl⟩ := List.getElem_of_mem member
    have there := visited (length_route ▸ early)
    rw [List.getElem?_eq_getElem early, Option.some.injEq] at there
    exact there ▸ walk_lt prime.pos start turns
  · intro low
    obtain ⟨turns, early, reached⟩ := exists_walk_eq prime bounds start low
    exact List.mem_of_getElem? (reached ▸ visited early)

/-! ## Where a search ends -/

/-- A search passes the slots that are not empty and do not hold the key. -/
theorem probeAlong_pass {slots : List Nat} (passed : ¬ table.Stops key index) :
    table.probeAlong key (index :: slots) = table.probeAlong key slots := by
  rw [probeAlong]
  split
  · rename_i empty
    exact absurd (Or.inl empty) passed
  · rename_i other value live
    split
    · rename_i same
      exact absurd (Or.inr ⟨value, eq_of_beq same ▸ live⟩) passed
    · rfl
  · rfl

/-- A search ends at the first slot that is empty or holds the key. -/
theorem probeAlong_stop {slots : List Nat} (stops : table.Stops key index) :
    table.slots[index]? = some .empty ∧ table.probeAlong key (index :: slots) = .vacant index ∨
      (∃ value, table.slots[index]? = some (.live key value)) ∧
        table.probeAlong key (index :: slots) = .found index := by
  rcases stops with empty | ⟨value, live⟩
  · exact Or.inl ⟨empty, by simp [probeAlong, empty]⟩
  · exact Or.inr ⟨⟨value, live⟩, by simp [probeAlong, live]⟩

/-- Either a search passes all slots on its way, or there is a first one at which it ends. -/
theorem probeAlong_cases (table : Table α) (key : Bytes) (slots : List Nat) :
    (table.probeAlong key slots = .full ∧ ∀ index ∈ slots, ¬ table.Stops key index) ∨
    ∃ earlier index later, slots = earlier ++ index :: later ∧
      (∀ other ∈ earlier, ¬ table.Stops key other) ∧
      (table.slots[index]? = some .empty ∧ table.probeAlong key slots = .vacant index ∨
        (∃ value, table.slots[index]? = some (.live key value)) ∧
          table.probeAlong key slots = .found index) := by
  induction slots with
  | nil => exact Or.inl ⟨rfl, by simp⟩
  | cons first rest ih =>
      by_cases stops : table.Stops key first
      · exact Or.inr ⟨[], first, rest, rfl, by simp, probeAlong_stop stops⟩
      · rw [probeAlong_pass stops]
        rcases ih with ⟨full, passed⟩ | ⟨earlier, index, later, split, passed, ended⟩
        · exact Or.inl ⟨full, List.forall_mem_cons.mpr ⟨stops, passed⟩⟩
        · refine Or.inr ⟨first :: earlier, index, later, by rw [split, List.cons_append], ?_, ended⟩
          exact List.forall_mem_cons.mpr ⟨stops, passed⟩

/-- What a search does that comes to the slots of a table in some order. -/
structure Searches (table : Table α) (key : Bytes) (slots : List Nat) : Prop where
  /-- Every slot is visited, and each of them once. -/
  visits : slots.Perm (List.range table.size)
  /-- The search goes from slot to slot until it ends. -/
  along : table.probe key = table.probeAlong key slots
  /-- It ends without a slot just where none is empty and none holds the key. -/
  full_iff : table.probe key = .full ↔ (∀ index < table.size, table.slots[index]? ≠ some .empty) ∧
    ∀ index < table.size, ∀ value, table.slots[index]? ≠ some (.live key value)
  /-- Where a slot is empty, it ends at one that holds the key, or at the first empty slot on its
  way. -/
  ends : (∃ index < table.size, table.slots[index]? = some .empty) →
    (∃ index value, table.probe key = .found index ∧
      table.slots[index]? = some (.live key value)) ∨
    ∃ earlier index later, slots = earlier ++ index :: later ∧ table.probe key = .vacant index ∧
      table.slots[index]? = some .empty ∧
      ∀ other ∈ earlier, table.slots[other]? ≠ some .empty

theorem searches_of_perm {slots : List Nat} (visits : slots.Perm (List.range table.size))
    (along : table.probe key = table.probeAlong key slots) : table.Searches key slots where
  visits := visits
  along := along
  full_iff := by
    have listed {index : Nat} : index < table.size ↔ index ∈ slots := by
      rw [visits.mem_iff, List.mem_range]
    rw [along]
    rcases probeAlong_cases table key slots with
      ⟨full, passed⟩ | ⟨earlier, index, later, split, -, ended⟩
    · refine iff_of_true full ⟨fun index low empty => ?_, fun index low value live => ?_⟩
      · exact passed index (listed.mp low) (Or.inl empty)
      · exact passed index (listed.mp low) (Or.inr ⟨value, live⟩)
    · have low : index < table.size := listed.mpr (by simp [split])
      rcases ended with ⟨empty, result⟩ | ⟨⟨value, live⟩, result⟩
      · exact iff_of_false (by simp [result]) fun none => none.1 index low empty
      · exact iff_of_false (by simp [result]) fun none => none.2 index low value live
  ends := by
    rintro ⟨empty, low, isEmpty⟩
    rw [along]
    rcases probeAlong_cases table key slots with
      ⟨-, passed⟩ | ⟨earlier, index, later, split, passed, ended⟩
    · exact absurd (Or.inl isEmpty) (passed empty (visits.mem_iff.mpr (List.mem_range.mpr low)))
    · rcases ended with ⟨vacant, result⟩ | ⟨⟨value, live⟩, result⟩
      · exact Or.inr ⟨earlier, index, later, split, result, vacant,
          fun other member isEmpty => passed other member (Or.inl isEmpty)⟩
      · exact Or.inl ⟨index, value, result, live⟩

/-- In a table of any of the sizes, whatever its slots hold, a search for a key that has a step
visits every slot once if nothing ends it, and where it ends is the first slot on its way that
holds the key or is empty. -/
theorem probe_searches (table : Table α) (key : Bytes) (member : table.size ∈ sizes)
    (finds : FindsStep table.size key) : ∃ step, step? table.size key = some step ∧
      table.Searches key
        (route table.size step ((hash key).toNat % table.size) table.size) := by
  have prime := prime_of_mem_sizes member
  obtain ⟨step, found⟩ := Option.isSome_iff_exists.mp (step?_isSome_iff.mpr finds)
  refine ⟨step, found, searches_of_perm ?_ ?_⟩
  · exact route_perm prime (step?_bounds prime.pos found) (Nat.mod_lt _ prime.pos)
  · rw [probe, found]
    exact probeFrom_eq_along _ _ _ _ _

/-- A table of size seven in which the way of a key leads past a removed entry and another key. -/
def passing : Table Nat :=
  ⟨#[.live #[98] 1, .empty, .removed, .empty, .empty, .live #[97] 2, .empty], 3, 2⟩

theorem probe_searches_passing : passing.size ∈ sizes ∧ FindsStep passing.size #[97] ∧
    ∃ step, step? passing.size #[97] = some step ∧ passing.Searches #[97]
      (route passing.size step ((hash #[97]).toNat % passing.size) passing.size) := by
  have finds : FindsStep passing.size #[97] := ⟨0, by decide +kernel⟩
  exact ⟨by decide, finds, probe_searches passing #[97] (by decide) finds⟩

example : route 7 5 2 7 = [2, 0, 5, 3, 1, 6, 4] ∧ passing.probe #[97] = .found 5 := by
  decide +kernel

end StackMachine.Table
