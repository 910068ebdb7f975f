import StackMachine.Proofs.Table.Binding

/-!
# How large tables become

A rebuild takes the smallest size that is more than twice the number of entries.  No size is more
than about twice the one before it, so a table has hardly more than four slots for each slot that
is filled, besides those that a new table has.

A slot is only ever filled for a new entry, and the tracker is asked for that.  So it is asked
once for every `entryBytes` bytes by which a table outgrows a new one.
-/

namespace StackMachine.Table

variable {α τ : Type} [Tracker τ] {table : Table α} {key : Bytes} {value : α}

/-- The most bytes that a table is larger than a new one, for each slot that is filled. -/
def entryBytes : Nat := 130

/-- The bytes of the slots of a new table. -/
def leastBytes : Nat := 96

/-- The size found is one to which the sizes lead up in small steps. -/
theorem find?_bytes_le {used size before : Nat} {sizes : List Nat}
    (steps : (before :: sizes).IsChain fun smaller larger =>
      slotBytes * larger ≤ leastBytes + entryBytes * ((smaller + 1) / 2))
    (passed : before ≤ 2 * used) (found : sizes.find? (2 * used < ·) = some size) :
    slotBytes * size ≤ leastBytes + entryBytes * used := by
  induction sizes generalizing before with
  | nil => cases found
  | cons next rest ih =>
      rw [List.isChain_cons_cons] at steps
      rw [List.find?_cons] at found
      split at found
      case h_1 =>
        cases found
        have half : (before + 1) / 2 ≤ used := by omega
        exact steps.1.trans (Nat.add_le_add_left (Nat.mul_le_mul_left entryBytes half) leastBytes)
      case h_2 below =>
        simp only [decide_eq_false_iff_not, Nat.not_lt] at below
        exact ih steps.2 below found

theorem nextSize?_bytes_le {used size : Nat} (next : nextSize? used = some size) :
    slotBytes * size ≤ leastBytes + entryBytes * used := by
  have steps : (0 :: sizes).IsChain fun smaller larger =>
      slotBytes * larger ≤ leastBytes + entryBytes * ((smaller + 1) / 2) := by
    decide
  exact find?_bytes_le steps (Nat.zero_le _) next

/-- The table is valid, and as large as its filled slots account for. -/
structure Sized (table : Table α) : Prop where
  valid : table.Valid
  bytes_le : slotBytes * table.size ≤ leastBytes + entryBytes * table.fill

theorem sized_empty : (empty : Table α).Sized where
  valid := valid_empty
  bytes_le := by simp [empty, ofSize, Table.size, slotBytes, leastBytes]

theorem Sized.leastBytes_le (sized : table.Sized) : leastBytes ≤ slotBytes * table.size := by
  have least : ∀ size ∈ sizes, leastBytes ≤ slotBytes * size := by decide
  exact least table.size sized.valid.size_mem

theorem Valid.rebuild_sized (valid : table.Valid) {tracker : τ} {rebuilt : Table α}
    (result : table.rebuild tracker = .ok rebuilt) :
    rebuilt.Sized ∧ rebuilt.fill ≤ table.fill := by
  cases next : nextSize? table.used with
  | none =>
      rw [rebuild, next] at result
      cases result
  | some size =>
      have means := valid.moved_means next
      simp only [rebuild, next] at result
      split at result
      · cases result
      · rw [result] at means
        obtain ⟨sound, -, size_eq, fill⟩ := means
        have size_eq : rebuilt.size = size := by
          rw [size_eq]
          simp [Table.size, ofSize]
        have fill : rebuilt.fill = table.used := by
          rw [fill, valid.length_eq_used]
          simp [ofSize]
        refine ⟨⟨sound, ?_⟩, fill ▸ valid.used_le_fill⟩
        rw [size_eq, fill]
        exact nextSize?_bytes_le next

theorem Sized.makeRoom (sized : table.Sized) {tracker : τ} {roomy : Table α}
    (room : table.makeRoom tracker = .ok roomy) : roomy.Sized ∧ roomy.fill ≤ table.fill := by
  unfold Table.makeRoom at room
  split at room
  · cases rebuilt : table.rebuild tracker with
    | ok result =>
        rw [rebuilt] at room
        cases room
        exact sized.valid.rebuild_sized rebuilt
    | error stop =>
        rw [rebuilt] at room
        cases stop with
        | failed cause =>
            simp only at room
            split at room
            · cases room
            · cases room
              exact ⟨sized, Nat.le_refl _⟩
        | fault broken => cases room
        | unfinished => cases room
  · cases room
    exact ⟨sized, Nat.le_refl _⟩

/-- The table keeps its size in check, and no more slots are filled unless the tracker agrees to
one more entry. -/
theorem Sized.insert (sized : table.Sized) (tracker : τ) (key : Bytes) (value : α) :
    (table.insert tracker key value).2.1.Sized ∧
      ((table.insert tracker key value).2.1.fill ≤ table.fill ∨
        (table.insert tracker key value).2.1.fill ≤ table.fill + 1 ∧
          (Tracker.insert (table.askRoom tracker)).1 = none ∧
          (table.insert tracker key value).2.2 = (Tracker.insert (table.askRoom tracker)).2) := by
  have valid := sized.valid.insert_valid tracker key value
  cases room : table.makeRoom tracker with
  | error stop =>
      simp only [Table.insert, room]
      exact ⟨sized, Or.inl (Nat.le_refl _)⟩
  | ok roomy =>
      obtain ⟨roomySized, fewer⟩ := sized.makeRoom room
      simp only [Table.insert, room] at valid ⊢
      cases ended : roomy.probe key with
      | full => exact ⟨roomySized, Or.inl fewer⟩
      | endless => exact ⟨roomySized, Or.inl fewer⟩
      | found index =>
          simp only [ended] at valid
          refine ⟨⟨valid, ?_⟩, Or.inl fewer⟩
          simpa [Table.rebind, Table.size] using roomySized.bytes_le
      | vacant index =>
          rcases answer : Tracker.insert (table.askRoom tracker) with ⟨_ | refusal, after⟩
          · simp only [ended, answer] at valid
            refine ⟨⟨valid, ?_⟩, Or.inr ⟨Nat.succ_le_succ fewer, rfl, rfl⟩⟩
            have bytes := roomySized.bytes_le
            simp only [Table.occupy, Table.size, Array.size_setIfInBounds, entryBytes] at bytes ⊢
            omega
          · exact ⟨roomySized, Or.inl fewer⟩

omit [Tracker τ] in
/-- A removed entry leaves its slot filled. -/
theorem Sized.erase (sized : table.Sized) (key : Bytes) :
    (table.erase key).2.Sized ∧ (table.erase key).2.fill = table.fill := by
  have valid := sized.valid.erase_valid key
  have same : (table.erase key).2.size = table.size ∧ (table.erase key).2.fill = table.fill := by
    unfold Table.erase
    split
    · exact ⟨rfl, rfl⟩
    · split
      · exact ⟨by simp [Table.size], rfl⟩
      · exact ⟨rfl, rfl⟩
    · exact ⟨rfl, rfl⟩
  refine ⟨⟨valid, ?_⟩, same.2⟩
  rw [same.1, same.2]
  exact sized.bytes_le

end StackMachine.Table
