import StackMachine.Proofs.Table.Refinement

/-!
# The step of a search

A search takes its step from the hash of the key: a sum is doubled and one is added until its
remainder by the size of the table is not zero.  Sums have 64 bits.  Where they wrap, being a
multiple of the size is passed on, and after 64 turns every sum is 64 ones and stays so.  Of the
sizes only three divides that number, and a table of size three has keys for which there is no
step: those with hashes of ones, in all bits or in all but the first.
-/

namespace StackMachine.Table

variable {α τ φ : Type} {size : Nat} {key : Bytes} {sum : UInt64}

/-- One turn of the search for a step. -/
def turn (sum : UInt64) : UInt64 :=
  sum + sum + 1

/-- The search for a step comes to an end: after some turns, and one at least, the sum is no
multiple of the size. -/
def FindsStep (size : Nat) (key : Bytes) : Prop :=
  ∃ turns, (turn^[turns + 1] (hash key)).toNat % size ≠ 0

/-- The number of 64 ones. -/
def ones : UInt64 := 0xffffffffffffffff

/-- The hash of a key is ones in all its bits, or in all but the first. -/
def HashesToOnes (key : Bytes) : Prop :=
  hash key = ones ∨ hash key = 0x7fffffffffffffff

/-! ## Turns -/

theorem toNat_turn (sum : UInt64) : (turn sum).toNat = (2 * sum.toNat + 1) % 2 ^ 64 := by
  simp only [turn, UInt64.toNat_add, UInt64.toNat_one]
  omega

theorem toNat_ones : ones.toNat = 2 ^ 64 - 1 :=
  rfl

theorem turn_ones : turn ones = ones := by
  decide

theorem iterate_ones (turns : Nat) : turn^[turns] ones = ones :=
  Function.iterate_fixed turn_ones turns

/-- A turn doubles the successor of the sum, up to wrapping. -/
theorem iterate_modEq (turns : Nat) (sum : UInt64) :
    (turn^[turns] sum).toNat + 1 ≡ 2 ^ turns * (sum.toNat + 1) [MOD 2 ^ 64] := by
  induction turns generalizing sum with
  | zero =>
      rw [Function.iterate_zero_apply, pow_zero, one_mul]
  | succ turns ih =>
      have doubled : (turn sum).toNat + 1 ≡ 2 * (sum.toNat + 1) [MOD 2 ^ 64] := by
        rw [toNat_turn]
        exact (Nat.mod_modEq _ _).add_right 1
      have power : 2 ^ (turns + 1) * (sum.toNat + 1) = 2 ^ turns * (2 * (sum.toNat + 1)) := by ring
      rw [Function.iterate_succ_apply, power]
      exact (ih (turn sum)).trans (doubled.mul_left _)

/-- In the end there are only ones. -/
theorem iterate_eq_ones {turns : Nat} (enough : 64 ≤ turns) (sum : UInt64) :
    turn^[turns] sum = ones := by
  have gone : 2 ^ 64 ∣ (turn^[64] sum).toNat + 1 := by
    rw [(iterate_modEq 64 sum).dvd_iff (Nat.dvd_refl _)]
    exact Nat.dvd_mul_right _ _
  have last : turn^[64] sum = ones := by
    have bounded := (turn^[64] sum).toNat_lt
    rw [← UInt64.toNat_inj, toNat_ones]
    omega
  rw [← Nat.sub_add_cancel enough, Function.iterate_add_apply, last, iterate_ones]

/-! ## When there is a step -/

theorem stepFrom_eq_none_iff {attempts : Nat} : stepFrom size attempts sum = none ↔
    ∀ turns < attempts, (turn^[turns + 1] sum).toNat % size = 0 := by
  induction attempts generalizing sum with
  | zero => simp [stepFrom]
  | succ attempts ih =>
      rw [Nat.forall_lt_succ_left]
      simp only [stepFrom, ← turn.eq_def]
      split
      · rename_i multiple
        rw [ih]
        exact ⟨fun later => ⟨multiple, later⟩, And.right⟩
      · rename_i found
        simp only [reduceCtorEq, false_iff]
        exact fun multiples => found multiples.1

/-- The turns that are allowed for are enough: where they find no step, no turns do. -/
theorem step?_isSome_iff : (step? size key).isSome ↔ FindsStep size key := by
  rw [← Option.ne_none_iff_isSome, Ne, step?, stepFrom_eq_none_iff, FindsStep, not_forall]
  constructor
  · rintro ⟨turns, found⟩
    exact ⟨turns, fun multiple => found fun _ => multiple⟩
  · rintro ⟨turns, found⟩
    by_cases early : turns < 64
    · exact ⟨turns, fun multiples => found (multiples early)⟩
    · refine ⟨63, fun multiples => found ?_⟩
      have multiple := multiples (by decide)
      rw [iterate_eq_ones (by omega)] at multiple ⊢
      exact multiple

/-- A search has a step wherever the size does not divide a number of ones. -/
theorem step?_isSome (other : ¬ size ∣ 2 ^ 64 - 1) (key : Bytes) : (step? size key).isSome := by
  refine step?_isSome_iff.mpr ⟨63, fun multiple => other (Nat.dvd_of_mod_eq_zero ?_)⟩
  rwa [iterate_eq_ones (Nat.le_refl _), toNat_ones] at multiple

/-- A turn from one multiple of three to another has to wrap. -/
theorem turn_wraps (here : sum.toNat % 3 = 0) (next : (turn sum).toNat % 3 = 0) :
    (turn sum).toNat + 2 ^ 64 = 2 * sum.toNat + 1 := by
  have bounded := sum.toNat_lt
  rw [toNat_turn] at next ⊢
  have large : 2 ^ 64 ≤ 2 * sum.toNat + 1 := by
    by_contra small
    rw [Nat.mod_eq_of_lt (Nat.lt_of_not_le small)] at next
    clear small bounded
    omega
  clear here next
  rw [Nat.mod_eq_sub_mod large, Nat.mod_eq_of_lt (by omega)]
  omega

/-- A sum that stays a multiple of three falls short of the number of ones by less and less:
each turn doubles what is missing. -/
theorem short_of_ones {turns : Nat}
    (multiples : ∀ earlier ≤ turns, (turn^[earlier] sum).toNat % 3 = 0) :
    2 ^ turns * (2 ^ 64 - 1 - sum.toNat) < 2 ^ 64 := by
  induction turns generalizing sum with
  | zero =>
      have bounded := sum.toNat_lt
      rw [pow_zero, one_mul]
      omega
  | succ turns ih =>
      have later : 2 ^ turns * (2 ^ 64 - 1 - (turn sum).toNat) < 2 ^ 64 :=
        ih fun earlier early => multiples (earlier + 1) (Nat.succ_le_succ early)
      have wraps : (turn sum).toNat + 2 ^ 64 = 2 * sum.toNat + 1 :=
        turn_wraps (multiples 0 (Nat.zero_le _)) (multiples 1 (by omega))
      have doubled : 2 ^ 64 - 1 - (turn sum).toNat = 2 * (2 ^ 64 - 1 - sum.toNat) := by
        have bounded := sum.toNat_lt
        clear multiples ih later
        omega
      rw [pow_succ, mul_assoc, ← doubled]
      exact later

/-- Only three divides the number of ones, of all sizes. -/
theorem eq_three_of_dvd (member : size ∈ sizes) (divides : size ∣ 2 ^ 64 - 1) : size = 3 := by
  revert size
  decide

/-- There is a step for every key and every size, but for a table of size three and hashes of
ones. -/
theorem findsStep_iff (member : size ∈ sizes) (key : Bytes) :
    FindsStep size key ↔ ¬ (size = 3 ∧ HashesToOnes key) := by
  constructor
  · rintro ⟨turns, found⟩ ⟨rfl, isOnes⟩
    have first : turn (hash key) = ones := by
      rcases isOnes with same | same <;> rw [same] <;> decide
    rw [Function.iterate_succ_apply, first, iterate_ones, toNat_ones] at found
    exact found (by decide)
  · intro other
    by_contra missing
    have multiples : ∀ turns, (turn^[turns + 1] (hash key)).toNat % size = 0 := by
      simpa [FindsStep] using missing
    have three : size = 3 := by
      refine eq_three_of_dvd member (Nat.dvd_of_mod_eq_zero ?_)
      have last := multiples 63
      rwa [iterate_eq_ones (Nat.le_refl _), toNat_ones] at last
    subst three
    have short : 2 ^ 64 * (2 ^ 64 - 1 - (turn (hash key)).toNat) < 2 ^ 64 :=
      short_of_ones fun turns _ => multiples turns
    have bounded := (hash key).toNat_lt
    rw [toNat_turn] at short
    refine other ⟨rfl, ?_⟩
    have halved : (0x7fffffffffffffff : UInt64).toNat = 2 ^ 63 - 1 := rfl
    rw [HashesToOnes, ← UInt64.toNat_inj, ← UInt64.toNat_inj, toNat_ones, halved]
    omega

/-! ## Which operations come to an end -/

theorem step?_eq_none_iff (member : size ∈ sizes) :
    step? size key = none ↔ size = 3 ∧ HashesToOnes key := by
  rw [← Option.not_isSome_iff_eq_none, step?_isSome_iff, findsStep_iff member, not_not]

/-- The keys that searches without a step are for hash to ones. -/
theorem Endless.hashesToOnes {stuck : Bytes → Prop} (endless : Endless stuck) :
    ∃ key, stuck key ∧ HashesToOnes key := by
  obtain ⟨size, member, key, isStuck, missing⟩ := endless
  exact ⟨key, isStuck, ((step?_eq_none_iff member).mp missing).2⟩

theorem Valid.probe_eq_endless_iff {table : Table α} (valid : table.Valid) :
    table.probe key = .endless ↔ table.size = 3 ∧ HashesToOnes key := by
  rw [Table.probe_eq_endless_iff valid.size_pos, step?_eq_none_iff valid.size_mem]

theorem Valid.lookup_unfinished_iff {table : Table α} (valid : table.Valid) :
    table.lookup key = (.error .unfinished : Except (Stop φ) (Option α)) ↔
      table.size = 3 ∧ HashesToOnes key := by
  rw [← valid.probe_eq_endless_iff, lookup]
  split <;> simp_all

theorem Valid.erase_unfinished_iff {table : Table α} (valid : table.Valid) :
    (table.erase key).1 = .error .unfinished ↔ table.size = 3 ∧ HashesToOnes key := by
  rw [← valid.probe_eq_endless_iff, erase]
  split
  · simp_all
  · split <;> simp_all
  · simp_all

/-- Which operations on a table come to an end. -/
structure Ends (τ : Type) [Tracker τ] (table : Table Ref) : Prop where
  /-- There is a step for all keys but those with hashes of ones, in a table of size three. -/
  steps : ∀ key, FindsStep table.size key ↔ ¬ (table.size = 3 ∧ HashesToOnes key)
  /-- Keys are looked up and removed where there is a step, and nowhere else. -/
  lookup : ∀ key, table.lookup key = (.error .unfinished : Except (Stop Cause) (Option Ref)) ↔
    ¬ FindsStep table.size key
  erase : ∀ key, (table.erase key).1 = .error .unfinished ↔ ¬ FindsStep table.size key
  /-- Binding a key ends unless its hash or that of a key in the table is of ones: a rebuild
  searches for all of them. -/
  insert : ∀ (tracker : τ) key value, (table.insert tracker key value).1 = .error .unfinished →
    HashesToOnes key ∨ ∃ other, (table.find? other).isSome ∧ HashesToOnes other
  /-- Where the size stays, it ends just where there is a step. -/
  insert_roomy : ∀ (tracker : τ) key value, table.isCrowded = false →
    ((table.insert tracker key value).1 = .error .unfinished ↔ ¬ FindsStep table.size key)

theorem Valid.ends [Tracker τ] {table : Table Ref} (valid : table.Valid) : table.Ends τ where
  steps key := findsStep_iff valid.size_mem key
  lookup key := by rw [valid.lookup_unfinished_iff, findsStep_iff valid.size_mem, not_not]
  erase key := by rw [valid.erase_unfinished_iff, findsStep_iff valid.size_mem, not_not]
  insert tracker key value unfinished := by
    cases valid.binds (fun _ => rfl) tracker key value with
    | succeeds after final result => simp [result] at unfinished
    | fails cause after final reason result => simp [result] at unfinished
    | endless result stuck =>
        obtain ⟨other, known, isOnes⟩ := stuck.hashesToOnes
        rcases known with rfl | isBound
        · exact Or.inl isOnes
        · exact Or.inr ⟨other, isBound, isOnes⟩
  insert_roomy tracker key value roomy := by
    rw [findsStep_iff valid.size_mem, not_not, ← valid.probe_eq_endless_iff, Table.insert,
      makeRoom, roomy]
    simp only [Bool.false_eq_true, ↓reduceIte]
    split
    · simp_all
    · simp_all
    · simp_all
    · split <;> simp_all

/-- Operations on a new table all come to an end unless the key of one of them has a hash of
ones; of the table that results it is known what else ends. -/
theorem run_ends [Tracker τ] (operations : List (Operation τ)) :
    match run operations with
    | some (table, _) => table.size ∈ sizes ∧ table.Ends τ
    | none => ∃ operation ∈ operations, HashesToOnes operation.key := by
  rcases run_mirrors operations with ⟨table, done, ran, same, mirrors⟩ | ⟨ran, endless⟩
  · rw [ran]
    exact ⟨mirrors.valid.size_mem, mirrors.valid.ends⟩
  · rw [ran]
    obtain ⟨key, ⟨operation, member, rfl⟩, isOnes⟩ := endless.hashesToOnes
    exact ⟨operation, member, isOnes⟩

/-- Not every search comes to an end: 64 bytes of one have a hash of ones, and in a new table
there is no step for them. -/
theorem search_without_end : (empty : Table Ref).size ∈ sizes ∧
    ¬ FindsStep (empty : Table Ref).size (Array.replicate 64 1) ∧
    (empty : Table Ref).lookup (Array.replicate 64 1) =
      (.error .unfinished : Except (Stop Cause) (Option Ref)) := by
  have isOnes : HashesToOnes (Array.replicate 64 1) := Or.inl (by decide +kernel)
  have member : (empty : Table Ref).size ∈ sizes := valid_empty.size_mem
  exact ⟨member, fun found => (findsStep_iff member _).mp found ⟨rfl, isOnes⟩,
    valid_empty.lookup_unfinished_iff.mpr ⟨rfl, isOnes⟩⟩

end StackMachine.Table
