import StackMachine.Proofs.Evolution.Machine

/-!
# What a meter holds a machine to

A meter refuses whatever would take one of its counts beyond a limit, and a refusal leaves
the allocations and the memory it counts as they are.  So its counts stay within its limits,
however often it is asked and whatever it is told.  Where instructions are limited, it has
counted each one that it granted.
-/

namespace StackMachine

/-- The limits of a meter, and counts that are within them. -/
structure Meter.Obeys (meter : Meter) (limits : Limits) : Prop where
  limits_eq : meter.limits = limits
  allocations_le : ∀ limit ∈ limits.allocations, meter.allocations ≤ limit
  memory_le : ∀ limit ∈ limits.memory, meter.memory ≤ limit

namespace Meter

variable {meter : Meter} {limits : Limits} {used : Nat}

theorem start_obeys (limits : Limits) (elapsed : Duration) : (start limits elapsed).Obeys limits :=
  ⟨rfl, fun _ _ => Nat.zero_le _, fun _ _ => Nat.zero_le _⟩

theorem allocationRefusal?_eq_none :
    meter.allocationRefusal? = none ↔
      ∀ limit ∈ meter.limits.allocations, meter.allocations < limit := by
  unfold allocationRefusal?
  cases meter.limits.allocations with
  | none => simp
  | some limit => simp

theorem memoryRefusal?_eq_none :
    meter.memoryRefusal? used = none ↔ ∀ limit ∈ meter.limits.memory, used ≤ limit := by
  unfold memoryRefusal?
  cases meter.limits.memory with
  | none => simp
  | some limit => simp

/-- An allocation is granted if it is within the limits, and else it changes nothing. -/
theorem allocate_cases (meter : Meter) (size : Nat) :
    (∃ refusal, meter.allocate size = (some refusal, meter)) ∨
      (meter.allocationRefusal? = none ∧ meter.memoryRefusal? (meter.memory + size) = none ∧
        meter.allocate size = (none, { meter with
          allocations := meter.allocations + 1, memory := meter.memory + size })) := by
  unfold allocate
  cases count : meter.allocationRefusal? with
  | some refusal => exact Or.inl ⟨refusal, rfl⟩
  | none =>
      cases bytes : meter.memoryRefusal? (meter.memory + size) with
      | some refusal => exact Or.inl ⟨refusal, by simp⟩
      | none => exact Or.inr ⟨rfl, rfl, by simp⟩

/-- A new entry is granted if it is within the limit, and else it changes nothing. -/
theorem insert_cases (meter : Meter) :
    (∃ refusal, meter.insert = (some refusal, meter)) ∨
      (meter.allocationRefusal? = none ∧
        meter.insert = (none, { meter with allocations := meter.allocations + 1 })) := by
  unfold insert
  cases meter.allocationRefusal? with
  | some refusal => exact Or.inl ⟨refusal, rfl⟩
  | none => exact Or.inr ⟨rfl, rfl⟩

/-- An instruction is counted where instructions are limited, also if it is refused. -/
theorem tick_snd (meter : Meter) :
    (tick meter).2 =
      { meter with operations := meter.operations + meter.limits.operations.toList.length } := by
  unfold tick
  cases meter.limits.operations with
  | none => rfl
  | some limit =>
      simp only
      split <;> rfl

/-- Where instructions are limited, one that is granted is within the limit. -/
theorem tick_granted (granted : (tick meter).1 = none) :
    ∀ limit ∈ meter.limits.operations, meter.operations + 1 ≤ limit := by
  intro limit limited
  have limited : meter.limits.operations = some limit := limited
  unfold tick at granted
  rw [limited] at granted
  by_contra beyond
  have refused : limit < meter.operations + 1 := Nat.lt_of_not_ge beyond
  simp [refused] at granted

/-- A call that is granted stays within the limit on the depth of calls. -/
theorem enter_granted {depth : Nat} (granted : meter.enter depth = none) :
    ∀ limit ∈ meter.limits.recursion, depth + 1 ≤ limit := by
  intro limit limited
  have limited : meter.limits.recursion = some limit := limited
  unfold enter at granted
  rw [limited] at granted
  by_contra beyond
  have refused : limit ≤ depth := Nat.le_of_not_lt beyond
  simp [refused] at granted

/-- Whatever a meter is asked or told, it obeys its limits. -/
theorem Obeys.pose (obeys : meter.Obeys limits) (query : Query) :
    (query.pose meter).2.Obeys limits := by
  obtain ⟨rfl, allocations, memory⟩ := obeys
  cases query with
  | allocate size =>
      show (meter.allocate size).2.Obeys meter.limits
      obtain ⟨refusal, refused⟩ | ⟨count, bytes, granted⟩ := meter.allocate_cases size
      · rw [refused]
        exact ⟨rfl, allocations, memory⟩
      · rw [granted]
        exact ⟨rfl, allocationRefusal?_eq_none.mp count, memoryRefusal?_eq_none.mp bytes⟩
  | insert =>
      show meter.insert.2.Obeys meter.limits
      obtain ⟨refusal, refused⟩ | ⟨count, granted⟩ := meter.insert_cases
      · rw [refused]
        exact ⟨rfl, allocations, memory⟩
      · rw [granted]
        exact ⟨rfl, allocationRefusal?_eq_none.mp count, memory⟩
  | free size =>
      exact ⟨rfl, allocations, fun limit limited =>
        (Nat.sub_le meter.memory size).trans (memory limit limited)⟩
  | tick =>
      show (tick meter).2.Obeys meter.limits
      rw [tick_snd]
      exact ⟨rfl, allocations, memory⟩
  | enter depth => exact ⟨rfl, allocations, memory⟩
  | build size => exact ⟨rfl, allocations, memory⟩

theorem obeys_of_asked {elapsed : Duration} (asked : Asked (start limits elapsed) meter) :
    meter.Obeys limits :=
  asked.keeps (fun query tracker (obeys : tracker.Obeys limits) => obeys.pose query)
    (start_obeys limits elapsed)

/-- A refusal leaves the allocations and the memory as they are. -/
theorem pose_refused {query : Query} {refusal : Refusal}
    (refused : (query.pose meter).1 = some refusal) :
    (query.pose meter).2.allocations = meter.allocations ∧
      (query.pose meter).2.memory = meter.memory := by
  cases query with
  | allocate size =>
      have refused : (meter.allocate size).1 = some refusal := refused
      show (meter.allocate size).2.allocations = _ ∧ (meter.allocate size).2.memory = _
      obtain ⟨_, same⟩ | ⟨_, _, granted⟩ := meter.allocate_cases size
      · rw [same]
        exact ⟨rfl, rfl⟩
      · rw [granted] at refused
        cases refused
  | insert =>
      have refused : meter.insert.1 = some refusal := refused
      show meter.insert.2.allocations = _ ∧ meter.insert.2.memory = _
      obtain ⟨_, same⟩ | ⟨_, granted⟩ := meter.insert_cases
      · rw [same]
        exact ⟨rfl, rfl⟩
      · rw [granted] at refused
        cases refused
  | free size => cases refused
  | tick =>
      show (tick meter).2.allocations = _ ∧ (tick meter).2.memory = _
      rw [tick_snd]
      exact ⟨rfl, rfl⟩
  | enter depth => exact ⟨rfl, rfl⟩
  | build size => exact ⟨rfl, rfl⟩

/-- The instructions that a meter has counted do not become fewer. -/
theorem operations_le_pose (query : Query) (meter : Meter) :
    meter.operations ≤ (query.pose meter).2.operations := by
  cases query with
  | allocate size =>
      show meter.operations ≤ (meter.allocate size).2.operations
      obtain ⟨_, same⟩ | ⟨_, _, granted⟩ := meter.allocate_cases size
      · rw [same]
      · rw [granted]
  | insert =>
      show meter.operations ≤ meter.insert.2.operations
      obtain ⟨_, same⟩ | ⟨_, granted⟩ := meter.insert_cases
      · rw [same]
      · rw [granted]
  | tick =>
      show meter.operations ≤ (tick meter).2.operations
      rw [tick_snd]
      exact Nat.le_add_right _ _
  | free size => exact Nat.le_refl _
  | enter depth => exact Nat.le_refl _
  | build size => exact Nat.le_refl _

end Meter

/-- The instructions that a limited meter granted were counted, and are within the limit. -/
theorem Spends.count_le {count limit : Nat} {limits : Limits} {elapsed : Duration} {meter : Meter}
    (spends : Spends count (Meter.start limits elapsed) meter)
    (limited : limit ∈ limits.operations) : count ≤ meter.operations ∧ count ≤ limit := by
  generalize first : Meter.start limits elapsed = start at spends
  induction spends with
  | start => exact ⟨Nat.zero_le _, Nat.zero_le _⟩
  | asked query _ ih =>
      obtain ⟨counted, within⟩ := ih first
      exact ⟨counted.trans (Meter.operations_le_pose query _), within⟩
  | @ticked count _ last earlier granted ih =>
      obtain ⟨counted, -⟩ := ih first
      have granted : (Meter.tick last).1 = none := granted
      have obeys := Meter.obeys_of_asked (first ▸ earlier.to_asked)
      have limited : last.limits.operations = some limit := obeys.limits_eq ▸ limited
      have within := Meter.tick_granted granted limit limited
      show count + 1 ≤ (Meter.tick last).2.operations ∧ count + 1 ≤ limit
      rw [Meter.tick_snd, limited]
      exact ⟨Nat.succ_le_succ counted, (Nat.succ_le_succ counted).trans within⟩

end StackMachine
