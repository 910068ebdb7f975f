import StackMachine.Proofs.Table.Stepping

/-!
# Filling a table

A table that is only ever filled has no marks of removed entries: the slots that are not empty
are those with entries.  It is rebuilt before it is two thirds full, as long as there is a larger
size.  So where nobody refuses, and where there is a step for every key, keys always go in while
they are fewer than the slots of the largest table.
-/

namespace StackMachine.Table

variable {table : Table Ref} {key : Bytes} {value : Ref}

/-- There is a step for the key, whatever the size of the table. -/
def Searchable (key : Bytes) : Prop :=
  ∀ size ∈ sizes, FindsStep size key

/-- Only keys with hashes of ones have no step, in a table of size three. -/
theorem searchable_iff : Searchable key ↔ ¬ HashesToOnes key := by
  constructor
  · exact fun searchable isOnes =>
      (findsStep_iff (by decide) key).mp (searchable 3 (by decide)) ⟨rfl, isOnes⟩
  · exact fun other size member => (findsStep_iff member key).mpr fun isOnes => other isOnes.2

/-- The largest size of a table. -/
def largestSize : Nat := 31397

theorem mem_sizes_largestSize : largestSize ∈ sizes := by
  decide

/-- The second largest size is 19609. -/
theorem eq_largestSize_or_le {size : Nat} (member : size ∈ sizes) :
    size = largestSize ∨ size ≤ 19609 := by
  revert size
  decide

/-- Nothing was removed from the table, and it has been rebuilt when it was due. -/
structure Filling (table : Table Ref) : Prop where
  valid : table.Valid
  unmarked : table.fill = table.used
  /-- One entry more than a table takes until it is crowded, at most. -/
  spacious : table.size = largestSize ∨ 3 * table.fill < 2 * table.size + 3

theorem filling_empty : (empty : Table Ref).Filling where
  valid := valid_empty
  unmarked := rfl
  spacious := Or.inr (by decide)

theorem Valid.probe_ne_endless (valid : table.Valid) (searchable : Searchable key) :
    table.probe key ≠ .endless := by
  rw [Ne, Table.probe_eq_endless_iff valid.size_pos, ← Option.not_isSome_iff_eq_none, not_not]
  exact step?_isSome_iff.mpr (searchable table.size valid.size_mem)

/-- There is a larger size for all tables that are less than half as large as the largest. -/
theorem exists_nextSize {used : Nat} (few : 2 * used < largestSize) :
    ∃ size, nextSize? used = some size := by
  have large : decide (2 * used < largestSize) = true := by simpa using few
  exact Option.isSome_iff_exists.mp
    (List.find?_isSome.mpr ⟨largestSize, mem_sizes_largestSize, large⟩)

namespace Filling

/-- The entries move to a table in which they take less than half of the slots. -/
theorem rebuild (filling : table.Filling) (few : 2 * table.used < largestSize)
    (searchable : ∀ entry ∈ table.entries, Searchable entry.1) :
    ∃ rebuilt, table.rebuild Unlimited.mk = .ok rebuilt ∧ rebuilt.Valid ∧
      rebuilt.entries.Perm table.entries ∧ rebuilt.fill = table.used ∧
      2 * rebuilt.fill < rebuilt.size := by
  obtain ⟨size, next⟩ := exists_nextSize few
  obtain ⟨member, larger⟩ := nextSize?_eq_some next
  have size_eq : (ofSize size : Table Ref).size = size := by simp [Table.size, ofSize]
  have means := filling.valid.moved_means next
  have moved : table.rebuild Unlimited.mk = occupyAll table.entries (ofSize size) := by
    unfold Table.rebuild
    rw [next]
    rfl
  rw [moved]
  generalize occupyAll table.entries (ofSize size) = result at means
  rcases result with (cause | broken | _) | rebuilt
  · exact means.elim
  · exact means.elim
  · obtain ⟨entry, stored, stuck⟩ := means
    rw [size_eq] at stuck
    have found := step?_isSome_iff.mpr (searchable entry stored size member)
    rw [stuck] at found
    cases found
  · obtain ⟨valid, perm, sameSize, fill⟩ := means
    have all : rebuilt.fill = table.used := by
      rw [fill, filling.valid.length_eq_used]
      simp only [ofSize, Nat.zero_add]
    refine ⟨rebuilt, rfl, valid, by simpa using perm, all, ?_⟩
    rw [sameSize, size_eq, all]
    exact larger

/-- There is room for one more entry. -/
theorem makeRoom (filling : table.Filling) (fewer : table.used < largestSize)
    (searchable : ∀ entry ∈ table.entries, Searchable entry.1) :
    ∃ roomy, table.makeRoom Unlimited.mk = .ok roomy ∧ roomy.Valid ∧
      roomy.entries.Perm table.entries ∧ roomy.fill = table.used ∧ roomy.fill < roomy.size ∧
      (roomy.size = largestSize ∨ 3 * roomy.fill < 2 * roomy.size) := by
  unfold Table.makeRoom
  split
  case isFalse spacious =>
    simp only [isCrowded, decide_eq_true_eq] at spacious
    exact ⟨table, rfl, filling.valid, .refl _, filling.unmarked, by omega, Or.inr (by omega)⟩
  case isTrue crowded =>
    simp only [isCrowded, decide_eq_true_eq] at crowded
    by_cases few : 2 * table.used < largestSize
    · obtain ⟨rebuilt, result, valid, perm, fill, half⟩ := filling.rebuild few searchable
      rw [result]
      exact ⟨rebuilt, rfl, valid, perm, fill, by omega, Or.inr (by omega)⟩
    · -- There is no larger size, but this one is the largest and has an empty slot.
      have largest : table.size = largestSize := by
        have spacious := filling.spacious
        have unmarked := filling.unmarked
        rcases eq_largestSize_or_le filling.valid.size_mem with largest | small
        · exact largest
        · simp only [largestSize] at few spacious ⊢
          omega
      have none_left : nextSize? table.used = none := by
        refine List.find?_eq_none.mpr fun size member => ?_
        have small : size ≤ largestSize := by
          rcases eq_largestSize_or_le member with rfl | small
          · exact Nat.le_refl _
          · exact small.trans (by decide)
        simp only [decide_eq_true_eq]
        omega
      have unmarked := filling.unmarked
      have result : table.rebuild Unlimited.mk = .error (.failed .tableFull) := by
        unfold Table.rebuild
        rw [none_left]
      rw [result]
      simp only
      rw [if_neg (by omega)]
      exact ⟨table, rfl, filling.valid, .refl _, unmarked, by omega, Or.inl largest⟩

/-- A key is bound, and the table can be filled further. -/
theorem insert (filling : table.Filling) (fewer : table.used < largestSize)
    (searchable : ∀ entry ∈ table.entries, Searchable entry.1) (ends : Searchable key)
    (value : Ref) :
    ∃ after, table.insert Unlimited.mk key value = (.ok (table.find? key), after, Unlimited.mk) ∧
      after.Filling ∧
      (((table.find? key).map (key, ·)).toList ++ after.entries).Perm
        ((key, value) :: table.entries) := by
  obtain ⟨roomy, room, valid, perm, fill, notFilled, spacious⟩ :=
    filling.makeRoom fewer searchable
  have used : roomy.used = table.used := by
    rw [← valid.length_eq_used, ← filling.valid.length_eq_used, perm.length_eq]
  have sameFind := valid.find?_eq_of_perm filling.valid perm key
  unfold Table.insert
  rw [room]
  simp only
  cases ended : roomy.probe key with
  | full => exact absurd ended (valid.probe_ne_full notFilled)
  | endless => exact absurd ended (valid.probe_ne_endless ends)
  | found index =>
      obtain ⟨old, live⟩ := live_of_probe_found valid.size_pos ended
      have read : roomy.valueAt? index = some old := by simp [valueAt?, live]
      have known : table.find? key = some old := by
        rw [← sameFind, find?, ended]
        exact read
      have sameSize : (roomy.rebind index key value).size = roomy.size := by
        simp [Table.rebind, Table.size]
      refine ⟨roomy.rebind index key value, ?_, ⟨valid.rebind live value, ?_, ?_⟩, ?_⟩
      · rw [known, ← read]
      · exact fill.trans used.symm
      · rw [sameSize]
        simp only [Table.rebind]
        omega
      · rw [known]
        exact (rebind_entries_perm live value).trans (perm.cons _)
  | vacant index =>
      have absent : table.find? key = none :=
        sameFind.symm.trans (Valid.find?_eq_none_of_vacant ended)
      have sameSize : (roomy.occupy index key value).size = roomy.size := by
        simp [Table.occupy, Table.size]
      refine ⟨roomy.occupy index key value, ?_, ⟨valid.occupy ended value, ?_, ?_⟩, ?_⟩
      · rw [absent]
        rfl
      · simp only [Table.occupy]
        omega
      · rw [sameSize]
        simp only [Table.occupy]
        omega
      · rw [absent]
        exact (occupy_entries_perm valid.size_pos ended value).trans (perm.cons _)

end Filling

end StackMachine.Table
