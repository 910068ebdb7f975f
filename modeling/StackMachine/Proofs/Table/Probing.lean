import Mathlib
import StackMachine.Table

/-!
# Searches in a table

A search walks around the table in equal steps.  The size of the table is a prime
and the step is smaller, so the walk meets every slot once before it repeats.  It
ends at the first slot that is empty or holds the key, and the three ways in which
it may end are described here by where that slot lies on the walk.
-/

namespace StackMachine.Table

variable {α : Type} {table other : Table α} {key : Bytes} {size step index : Nat}

/-- The slot a search reaches after `turns` steps. -/
def walk (size step start turns : Nat) : Nat :=
  (start + turns * step) % size

@[simp] theorem walk_zero (size step start : Nat) : walk size step start 0 = start % size := by
  simp [walk]

theorem walk_succ (size step start turns : Nat) :
    walk size step start (turns + 1) = walk size step ((start + step) % size) turns := by
  simp only [walk, Nat.mod_add_mod]
  congr 1
  ring

theorem walk_lt (positive : 0 < size) (start turns : Nat) :
    walk size step start turns < size :=
  Nat.mod_lt _ positive

/-! ## Sizes and steps -/

theorem prime_of_mem_sizes (member : size ∈ sizes) : size.Prime := by
  simp only [sizes, List.mem_cons, List.not_mem_nil, or_false] at member
  rcases member with rfl | rfl | rfl | rfl | rfl | rfl | rfl | rfl | rfl | rfl | rfl | rfl | rfl |
    rfl | rfl | rfl <;> norm_num

theorem stepFrom_bounds (positive : 0 < size) {attempts : Nat} {sum : UInt64}
    (found : stepFrom size attempts sum = some step) : 0 < step ∧ step < size := by
  induction attempts generalizing sum with
  | zero => simp [stepFrom] at found
  | succ attempts ih =>
      simp only [stepFrom] at found
      split at found
      · exact ih found
      · rename_i nonzero
        obtain rfl := Option.some.inj found
        exact ⟨Nat.pos_of_ne_zero nonzero, Nat.mod_lt _ positive⟩

theorem step?_bounds (positive : 0 < size) (found : step? size key = some step) :
    0 < step ∧ step < size :=
  stepFrom_bounds positive found

/-- Two visits at the same slot are a whole number of rounds apart. -/
theorem walk_injOn (prime : size.Prime) (bounds : 0 < step ∧ step < size) {start first second : Nat}
    (firstLt : first < size) (secondLt : second < size)
    (same : walk size step start first = walk size step start second) : first = second := by
  have congruent : start + first * step ≡ start + second * step [MOD size] := same
  have scaled : first * step ≡ second * step [MOD size] := Nat.ModEq.add_left_cancel' _ congruent
  have coprime : Nat.gcd size step = 1 :=
    (Nat.Prime.coprime_iff_not_dvd prime).mpr (Nat.not_dvd_of_pos_of_lt bounds.1 bounds.2)
  have turns : first ≡ second [MOD size] := Nat.ModEq.cancel_right_of_coprime coprime scaled
  rwa [Nat.ModEq, Nat.mod_eq_of_lt firstLt, Nat.mod_eq_of_lt secondLt] at turns

/-- A search that is not cut short meets every slot. -/
theorem exists_walk_eq (prime : size.Prime) (bounds : 0 < step ∧ step < size) (start : Nat)
    (inside : index < size) : ∃ turns < size, walk size step start turns = index := by
  let visit : Fin size → Fin size :=
    fun turns => ⟨walk size step start turns, walk_lt prime.pos _ _⟩
  have injective : Function.Injective visit := by
    intro first second same
    have slots : walk size step start first = walk size step start second := by
      simpa [visit] using same
    exact Fin.ext (walk_injOn prime bounds first.isLt second.isLt slots)
  obtain ⟨turns, reached⟩ := Finite.surjective_of_injective injective ⟨index, inside⟩
  exact ⟨turns, turns.isLt, by simpa [visit] using reached⟩

/-! ## Where a search ends -/

/-- Does a search for a key end at a slot? -/
def Stops (table : Table α) (key : Bytes) (index : Nat) : Prop :=
  table.slots[index]? = some .empty ∨ ∃ value, table.slots[index]? = some (.live key value)

/-- The search for a key passes the slots of its first `turns` steps. -/
def Passes (table : Table α) (key : Bytes) (step start turns : Nat) : Prop :=
  ∀ earlier < turns, ¬ table.Stops key (walk table.size step start earlier)

/-- The first slot is passed, and so are the ones after it. -/
theorem passes_succ {start turns : Nat} (first : ¬ table.Stops key (start % table.size))
    (rest : table.Passes key step ((start + step) % table.size) turns) :
    table.Passes key step start (turns + 1) := by
  intro earlier early
  cases earlier with
  | zero => simpa using first
  | succ earlier =>
      rw [walk_succ]
      exact rest earlier (Nat.lt_of_succ_lt_succ early)

/-- What the end of a search says about the table. -/
def ProbeMeans (table : Table α) (key : Bytes) (step start visits : Nat) : Probe → Prop
  | .found index =>
      ∃ turns < visits, walk table.size step start turns = index ∧
        (∃ value, table.slots[index]? = some (.live key value)) ∧
        table.Passes key step start turns
  | .vacant index =>
      ∃ turns < visits, walk table.size step start turns = index ∧
        table.slots[index]? = some .empty ∧ table.Passes key step start turns
  | .full => table.Passes key step start visits
  | .endless => False

/-- A search that passes its first slot goes on from the next. -/
theorem ProbeMeans.pass {start visits : Nat} {outcome : Probe}
    (first : ¬ table.Stops key (start % table.size))
    (rest : table.ProbeMeans key step ((start + step) % table.size) visits outcome) :
    table.ProbeMeans key step start (visits + 1) outcome := by
  cases outcome with
  | found index =>
      obtain ⟨turns, early, reached, present, passed⟩ := rest
      exact ⟨turns + 1, Nat.succ_lt_succ early, by rw [walk_succ, reached], present,
        passes_succ first passed⟩
  | vacant index =>
      obtain ⟨turns, early, reached, empty, passed⟩ := rest
      exact ⟨turns + 1, Nat.succ_lt_succ early, by rw [walk_succ, reached], empty,
        passes_succ first passed⟩
  | full => exact passes_succ first rest
  | endless => exact rest

theorem probeFrom_means (table : Table α) (key : Bytes) (step visits start : Nat)
    (inside : start < table.size) :
    table.ProbeMeans key step start visits (table.probeFrom key step visits start) := by
  induction visits generalizing start with
  | zero =>
      intro earlier early
      exact absurd early (Nat.not_lt_zero earlier)
  | succ visits ih =>
      have rest := ih ((start + step) % table.size) (Nat.mod_lt _ (Nat.zero_lt_of_lt inside))
      have here : start % table.size = start := Nat.mod_eq_of_lt inside
      have none_earlier : table.Passes key step start 0 :=
        fun earlier early => absurd early (Nat.not_lt_zero earlier)
      unfold probeFrom
      split
      · rename_i slot
        exact ⟨0, Nat.succ_pos visits, by simpa using here, slot, none_earlier⟩
      · rename_i stored value slot
        split
        · rename_i same
          obtain rfl := eq_of_beq same
          exact ⟨0, Nat.succ_pos visits, by simpa using here, ⟨value, slot⟩, none_earlier⟩
        · rename_i different
          refine ProbeMeans.pass ?_ rest
          rintro (empty | ⟨value', live⟩)
          · simp [here, slot] at empty
          · rw [here, slot, Option.some.injEq, Slot.live.injEq] at live
            exact different (by simp [live.1])
      · rename_i notEmpty notLive
        refine ProbeMeans.pass ?_ rest
        rw [here]
        rintro (empty | ⟨value', live⟩)
        · exact notEmpty empty
        · exact notLive key value' live

/-- A search that has a step starts at the slot the hash of the key names. -/
theorem probe_means (positive : 0 < table.size) (found : step? table.size key = some step) :
    table.ProbeMeans key step ((hash key).toNat % table.size) table.size (table.probe key) := by
  rw [probe, found]
  exact probeFrom_means _ _ _ _ _ (Nat.mod_lt _ positive)

theorem probe_eq_endless_iff (positive : 0 < table.size) :
    table.probe key = .endless ↔ step? table.size key = none := by
  constructor
  · intro endless
    cases found : step? table.size key with
    | none => rfl
    | some step =>
        have means := probe_means positive found
        rw [endless] at means
        exact means.elim
  · intro missing
    rw [probe, missing]

/-- A search has one first slot at which it stops. -/
theorem turns_unique {start first second : Nat}
    (firstStops : table.Stops key (walk table.size step start first))
    (secondStops : table.Stops key (walk table.size step start second))
    (firstPasses : table.Passes key step start first)
    (secondPasses : table.Passes key step start second) : first = second := by
  rcases Nat.lt_trichotomy first second with less | same | greater
  · exact absurd firstStops (secondPasses first less)
  · exact same
  · exact absurd secondStops (firstPasses second greater)

/-- What the end of a search says determines it. -/
theorem ProbeMeans.unique {start visits : Nat} {first second : Probe}
    (firstMeans : table.ProbeMeans key step start visits first)
    (secondMeans : table.ProbeMeans key step start visits second) : first = second := by
  cases first with
  | endless => exact firstMeans.elim
  | full =>
      cases second with
      | endless => exact secondMeans.elim
      | full => rfl
      | found index =>
          obtain ⟨turns, early, rfl, present, -⟩ := secondMeans
          exact absurd (Or.inr present) (firstMeans turns early)
      | vacant index =>
          obtain ⟨turns, early, rfl, empty, -⟩ := secondMeans
          exact absurd (Or.inl empty) (firstMeans turns early)
  | found index =>
      obtain ⟨turns, early, rfl, ⟨value, present⟩, passed⟩ := firstMeans
      cases second with
      | endless => exact secondMeans.elim
      | full => exact absurd (Or.inr ⟨value, present⟩) (secondMeans turns early)
      | found index =>
          obtain ⟨others, -, rfl, present', passed'⟩ := secondMeans
          rw [turns_unique (Or.inr ⟨value, present⟩) (Or.inr present') passed passed']
      | vacant index =>
          obtain ⟨others, -, rfl, empty, passed'⟩ := secondMeans
          rw [turns_unique (Or.inr ⟨value, present⟩) (Or.inl empty) passed passed',
            empty] at present
          cases present
  | vacant index =>
      obtain ⟨turns, early, rfl, empty, passed⟩ := firstMeans
      cases second with
      | endless => exact secondMeans.elim
      | full => exact absurd (Or.inl empty) (secondMeans turns early)
      | found index =>
          obtain ⟨others, -, rfl, ⟨value, present⟩, passed'⟩ := secondMeans
          rw [turns_unique (Or.inl empty) (Or.inr ⟨value, present⟩) passed passed',
            present] at empty
          cases empty
      | vacant index =>
          obtain ⟨others, -, rfl, empty', passed'⟩ := secondMeans
          rw [turns_unique (Or.inl empty) (Or.inl empty') passed passed']

/-- A search that has a step ends in the way that its description says. -/
theorem probe_eq_iff (positive : 0 < table.size) (found : step? table.size key = some step)
    {outcome : Probe} :
    table.probe key = outcome ↔
      table.ProbeMeans key step ((hash key).toNat % table.size) table.size outcome := by
  constructor
  · rintro rfl
    exact probe_means positive found
  · intro means
    exact (probe_means positive found).unique means

/-- A search that finds no end has passed every slot of the table. -/
theorem not_stops_of_full (prime : table.size.Prime) (full : table.probe key = .full)
    (inside : index < table.size) : ¬ table.Stops key index := by
  cases found : step? table.size key with
  | none =>
      rw [probe, found] at full
      cases full
  | some step =>
      have passed := probe_means prime.pos found
      rw [full] at passed
      obtain ⟨turns, early, rfl⟩ :=
        exists_walk_eq prime (step?_bounds prime.pos found) ((hash key).toNat % table.size) inside
      exact passed turns early

/-- The slot at which a search finds its key holds an entry of it. -/
theorem live_of_probe_found (positive : 0 < table.size) (result : table.probe key = .found index) :
    ∃ value, table.slots[index]? = some (.live key value) := by
  cases found : step? table.size key with
  | none =>
      rw [probe, found] at result
      cases result
  | some step =>
      obtain ⟨turns, early, reached, present, passed⟩ := (probe_eq_iff positive found).mp result
      exact present

/-- The slot at which a search finds its key missing is empty. -/
theorem empty_of_probe_vacant (positive : 0 < table.size)
    (result : table.probe key = .vacant index) : table.slots[index]? = some .empty := by
  cases found : step? table.size key with
  | none =>
      rw [probe, found] at result
      cases result
  | some step =>
      obtain ⟨turns, early, reached, empty, passed⟩ := (probe_eq_iff positive found).mp result
      exact empty

/-- A table whose slots differ from those of another at one slot, which the search
for the key never has a reason to stop at in the new table, and did not stop at
before its end. -/
theorem probe_found_of_passing (positive : 0 < table.size) (sameSize : other.size = table.size)
    {place : Nat} (different : place ≠ index)
    (elsewhere : ∀ slot, slot ≠ place → other.slots[slot]? = table.slots[slot]?)
    (passing : ¬ other.Stops key place) (result : table.probe key = .found index) :
    other.probe key = .found index := by
  cases found : step? table.size key with
  | none =>
      rw [probe, found] at result
      cases result
  | some step =>
      obtain ⟨turns, early, reached, ⟨value, present⟩, passed⟩ :=
        (probe_eq_iff positive found).mp result
      have otherPositive : 0 < other.size := sameSize ▸ positive
      refine (probe_eq_iff otherPositive (sameSize ▸ found)).mpr ?_
      rw [sameSize]
      refine ⟨turns, early, by rw [sameSize, reached], ⟨value, ?_⟩, ?_⟩
      · rw [elsewhere index different.symm, present]
      · intro earlier less stops
        rw [sameSize] at stops
        by_cases here : walk table.size step ((hash key).toNat % table.size) earlier = place
        · exact passing (here ▸ stops)
        · rw [Stops, elsewhere _ here] at stops
          exact passed earlier less stops

/-- A search finds the key at the slot where it ended once the key is put
there. -/
theorem probe_found_of_ended (positive : 0 < table.size) (sameSize : other.size = table.size)
    {value : α} (elsewhere : ∀ slot, slot ≠ index → other.slots[slot]? = table.slots[slot]?)
    (placed : other.slots[index]? = some (.live key value))
    (ended : table.probe key = .vacant index ∨ table.probe key = .found index) :
    other.probe key = .found index := by
  cases found : step? table.size key with
  | none => simp [probe, found] at ended
  | some step =>
      obtain ⟨turns, early, reached, stops, passed⟩ :
          ∃ turns < table.size,
            walk table.size step ((hash key).toNat % table.size) turns = index ∧
              table.Stops key index ∧
              table.Passes key step ((hash key).toNat % table.size) turns := by
        rw [probe_eq_iff positive found, probe_eq_iff positive found] at ended
        rcases ended with ⟨turns, early, reached, empty, passed⟩ |
          ⟨turns, early, reached, present, passed⟩
        · exact ⟨turns, early, reached, Or.inl empty, passed⟩
        · exact ⟨turns, early, reached, Or.inr present, passed⟩
      have otherPositive : 0 < other.size := sameSize ▸ positive
      refine (probe_eq_iff otherPositive (sameSize ▸ found)).mpr ?_
      rw [sameSize]
      refine ⟨turns, early, by rw [sameSize, reached], ⟨value, placed⟩, ?_⟩
      intro earlier less stopsNow
      rw [sameSize] at stopsNow
      by_cases here : walk table.size step ((hash key).toNat % table.size) earlier = index
      · exact passed earlier less (here ▸ stops)
      · rw [Stops, elsewhere _ here] at stopsNow
        exact passed earlier less stopsNow

end StackMachine.Table
