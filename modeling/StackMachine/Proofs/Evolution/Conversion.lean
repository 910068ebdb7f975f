import StackMachine.Proofs.Evolution.Operations

/-!
# Paths of values that are put into a store

A value of a host is put into the store along a path on which neither frames nor entries of
tracebacks are made.  A dictionary is the only object that has something in it when it is made
which it is not charged for: its table is filled before, and the tracker is asked for each entry.
-/

namespace StackMachine.StoreM

open Outcome Relation Store

variable {τ α : Type} [Tracker τ]

omit [Tracker τ] in
/-- It does not matter how a failure is read. -/
theorem asInput_advances {goes : Store τ → Store τ → Prop} {act : StoreM τ α}
    (failure : Cause → InputError) (advances : Advances goes act) :
    Advances goes (asInput failure act) := by
  intro before
  have known := advances before
  unfold asInput
  cases ran : act before with
  | ok value after =>
      rw [ran] at known
      exact known
  | error stop after =>
      rw [ran] at known
      cases stop with
      | failed cause => exact known
      | fault broken => trivial
      | unfinished => trivial

theorem inputObject_evolves (payload : Payload) (simple : decide payload.IsSimple = true) :
    Evolves (inputObject payload : Input τ Ref) :=
  asInput_advances _ (allocate_evolves payload simple)

theorem abandon_evolves (refs : List Ref) (error : InputError) :
    Evolves (abandon refs error : Input τ α) :=
  (asInput_advances _ (releaseAll_evolves refs)).bind fun _ => .throw error

/-! ## Tables that are in no slot yet -/

/-- The store has gone on, and of the entries that were there for a table, so many are left. -/
structure Trail (given : Nat) (before : Store τ) (kept : Nat) (after : Store τ) : Prop where
  changes : ReflTransGen (Change Payload.IsPlain) before after
  covered : Covered (Table.entryBytes * given) before (Table.entryBytes * kept) after

theorem Trail.trans {given kept used : Nat} {before middle after : Store τ}
    (earlier : Trail given before kept middle) (later : Trail kept middle used after) :
    Trail given before used after :=
  ⟨ReflTransGen.trans earlier.changes later.changes, earlier.covered.trans later.covered⟩

theorem Trail.of_path {given kept : Nat} {before after : Store τ} (path : PlainPath before after)
    (less : kept ≤ given) : Trail given before kept after where
  changes := path.changes
  covered := by
    have covered := (covered_add_iff (Table.entryBytes * given)).mpr path.covered
    rw [Nat.zero_add] at covered
    exact covered.mono (Nat.mul_le_mul_left _ less)

theorem Trail.path {before after : Store τ} (trail : Trail 0 before 0 after) :
    PlainPath before after :=
  ⟨trail.changes, trail.covered⟩

/-- How an operation ends that adds to a table which is in no slot.  What the entries may take is
there for the object that is made of them; where the operation fails, nothing is left. -/
def Stocked (table : Table Ref) (before : Store τ) :
    EStateM.Result (Stop InputError) (Store τ) (Table Ref) → Prop
  | .ok filled after => filled.Sized ∧ Trail table.fill before filled.fill after
  | .error (.failed _) after => Trail table.fill before 0 after
  | .error (.fault _) _ => True
  | .error .unfinished _ => True

theorem Stocked.head {table other : Table Ref} {before middle : Store τ}
    {result : EStateM.Result (Stop InputError) (Store τ) (Table Ref)}
    (earlier : Trail table.fill before other.fill middle) (later : Stocked other middle result) :
    Stocked table before result := by
  cases result with
  | ok filled after => exact ⟨later.1, earlier.trans later.2⟩
  | error stop after =>
      cases stop with
      | failed error => exact earlier.trans later
      | fault broken => trivial
      | unfinished => trivial

/-- The operation adds to a table that is in no slot. -/
def Fills (table : Table Ref) (act : Input τ (Table Ref)) : Prop :=
  table.Sized → ∀ before, Stocked table before (act before)

namespace Fills

variable {table : Table Ref} {act : Input τ (Table Ref)}

theorem pure (table : Table Ref) : Fills table (pure table : Input τ (Table Ref)) :=
  fun sized before => ⟨sized, .of_path (Store.Path.refl before) (Nat.le_refl _)⟩

theorem throw (table : Table Ref) (error : InputError) :
    Fills table (throw (.failed error) : Input τ (Table Ref)) :=
  fun _ before => .of_path (Store.Path.refl before) (Nat.zero_le _)

/-- Something else is done first. -/
theorem after {first : Input τ α} {next : α → Input τ (Table Ref)} (evolves : Evolves first)
    (rest : ∀ value, Fills table (next value)) : Fills table (first >>= next) := by
  intro sized before
  cases ran : first before with
  | ok value middle =>
      rw [bind_ok ran]
      exact (rest value sized middle).head (.of_path (evolves.of_ok ran) (Nat.le_refl _))
  | error stop after =>
      rw [bind_error ran]
      cases stop with
      | failed error => exact .of_path (evolves.of_failed ran) (Nat.zero_le _)
      | fault broken => trivial
      | unfinished => trivial

/-- The table goes from hand to hand. -/
theorem bind {next : Table Ref → Input τ (Table Ref)} (fills : Fills table act)
    (rest : ∀ filled, Fills filled (next filled)) : Fills table (act >>= next) := by
  intro sized before
  have known := fills sized before
  cases ran : act before with
  | ok filled middle =>
      rw [ran] at known
      rw [bind_ok ran]
      exact (rest filled known.1 middle).head known.2
  | error stop after =>
      rw [ran] at known
      rw [bind_error ran]
      cases stop <;> exact known

theorem abandon (table : Table Ref) (refs : List Ref) (error : InputError) :
    Fills table (abandon refs error : Input τ (Table Ref)) :=
  .after (asInput_advances _ (releaseAll_evolves refs)) fun _ => .throw table error

end Fills

/-- The account grows with the table. -/
theorem tableInsert_trail {key : Bytes} {value : Ref} {table : Table Ref} {before after : Store τ}
    {worked : Table Ref × Except Cause Unit} (sized : table.Sized)
    (ran : tableInsert key value table before = .ok worked after) :
    worked.1.Sized ∧ Trail table.fill before worked.1.fill after := by
  have refits := tableInsert_refits (τ := τ) key value table
  have path := refits.tidies.evolves.of_ok ran
  obtain ⟨newSized, covered⟩ := refits.covered before worked after ran sized
  have apart : ∀ content : Table Ref, (Payload.dict content).mostBytes =
      Table.entryBytes * content.fill + (Payload.baseBytes + Table.leastBytes) := by
    intro content
    simp only [Payload.mostBytes]
    omega
  rw [apart, apart, covered_add_iff] at covered
  exact ⟨newSized, path.changes, covered⟩

theorem inputEntry_fills (table : Table Ref) (key : String) (value : Ref) :
    Fills table (inputEntry table key value : Input τ (Table Ref)) := by
  intro sized before
  have never := tableInsert_tidies (τ := τ) (Bytes.ofString key) value table before
  unfold inputEntry
  cases ran : (tableInsert (Bytes.ofString key) value table : StoreM τ _) before with
  | ok worked middle =>
      obtain ⟨newSized, trail⟩ := tableInsert_trail sized ran
      have read : asInput .raised (tableInsert (Bytes.ofString key) value table) before =
          .ok worked middle := by rw [asInput, ran]
      rw [bind_ok read]
      obtain ⟨changed, _ | _⟩ := worked
      · exact (Fills.abandon changed changed.values _ newSized middle).head trail
      · exact ⟨newSized, trail⟩
  | error stop after =>
      rw [ran] at never
      cases stop with
      | failed cause => exact never.elim
      | fault broken =>
          have read : asInput .raised (tableInsert (Bytes.ofString key) value table) before =
              .error (.fault broken) after := by rw [asInput, ran]
          rw [bind_error read]
          trivial
      | unfinished =>
          have read : asInput .raised (tableInsert (Bytes.ofString key) value table) before =
              .error .unfinished after := by rw [asInput, ran]
          rw [bind_error read]
          trivial

/-- The object takes what was there for the entries. -/
theorem inputTable_trails {table : Table Ref} (sized : table.Sized) :
    Advances (fun before after => Trail table.fill before 0 after)
      (inputObject (.dict table) : Input τ Ref) := by
  refine asInput_advances _ fun before => ?_
  have outcome := allocate_outcome (.dict table) before
  cases ran : allocate (.dict table) before with
  | ok ref after =>
      rw [ran] at outcome
      obtain ⟨granted, placed⟩ := outcome
      have changes : ReflTransGen (Change Payload.IsPlain) before _ :=
        ReflTransGen.single (.make (.dict table) ⟨nofun, nofun⟩ granted)
      have dictSized : (Payload.dict table).IsSized := sized
      have covered := covered_make dictSized (Payload.mostBytes_dict_le sized) granted
      rw [placed] at changes covered
      exact ⟨changes, covered⟩
  | error stop after =>
      rw [ran] at outcome
      cases stop with
      | failed cause => exact .of_path outcome (Nat.zero_le _)
      | fault broken => trivial
      | unfinished => trivial

theorem Fills.evolves {act : Input τ (Table Ref)} (fills : Fills .empty act) :
    Evolves (act >>= fun table => inputObject (.dict table)) := by
  intro before
  have known := fills Table.sized_empty before
  cases ran : act before with
  | ok filled middle =>
      rw [ran] at known
      obtain ⟨sized, trail⟩ := known
      have later := inputTable_trails (τ := τ) sized middle
      rw [bind_ok ran]
      cases went : (inputObject (.dict filled) : Input τ Ref) middle with
      | ok ref after =>
          rw [went] at later
          exact (trail.trans later).path
      | error stop after =>
          rw [went] at later
          cases stop with
          | failed error => exact (trail.trans later).path
          | fault broken => trivial
          | unfinished => trivial
  | error stop after =>
      rw [ran] at known
      rw [bind_error ran]
      cases stop with
      | failed error => exact known.path
      | fault broken => trivial
      | unfinished => trivial

/-! ## Values -/

mutual

theorem ofObject_evolves (object : Object) : Evolves (ofObject object : Input τ Ref) := by
  match object with
  | .none =>
      unfold ofObject
      exact asInput_advances _ (acquire_evolves _)
  | .int _ | .float _ | .string _ =>
      unfold ofObject
      exact inputObject_evolves _ rfl
  | .list items =>
      unfold ofObject
      exact (ofItems_evolves items #[]).bind fun _ => inputObject_evolves _ rfl
  | .tuple items =>
      unfold ofObject
      exact (ofItems_evolves items #[]).bind fun _ => inputObject_evolves _ rfl
  | .dict entries =>
      unfold ofObject
      exact (ofEntries_fills entries .empty).evolves
  | .module _ | .repr _ | .cycle _ _ =>
      unfold ofObject
      exact .throw _

theorem ofItems_evolves (items : List Object) (made : Array Ref) :
    Evolves (ofItems items made : Input τ (Array Ref)) := by
  match items with
  | [] =>
      unfold ofItems
      exact .pure made
  | item :: rest =>
      unfold ofItems
      refine (ofObject_evolves item).attempt.bind fun result => ?_
      cases result with
      | ok ref => exact ofItems_evolves rest (made.push ref)
      | error error => exact abandon_evolves made.toList error

theorem ofEntries_fills (entries : List (String × Object)) (table : Table Ref) :
    Fills table (ofEntries entries table : Input τ (Table Ref)) := by
  match entries with
  | [] =>
      unfold ofEntries
      exact .pure table
  | entry :: rest =>
      unfold ofEntries
      exact (ofEntry_fills entry table).bind fun filled => ofEntries_fills rest filled

theorem ofEntry_fills (entry : String × Object) (table : Table Ref) :
    Fills table (ofEntry entry table : Input τ (Table Ref)) := by
  match entry with
  | (key, object) =>
      unfold ofEntry
      refine .after (ofObject_evolves object).attempt fun result => ?_
      cases result with
      | ok ref => exact inputEntry_fills table key ref
      | error error => exact .abandon table table.values error

end

end StackMachine.StoreM
