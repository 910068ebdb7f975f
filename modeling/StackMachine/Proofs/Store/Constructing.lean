import StackMachine.Proofs.Evolution.Advancing
import StackMachine.Proofs.Store.Reverting

/-!
# Constructions that can be taken back

Values, images and modules are built of many objects.  Each construction reverts as a whole: where
one part cannot be made, those before it are given back.

The module `math` is made of a dictionary that functions are put into one by one.  The dictionary
changes meanwhile, but nobody else refers to it yet, so that nobody can tell.
-/

namespace StackMachine.Checkpoint

open Store StoreM Outcome

variable {τ φ α : Type} [Tracker τ] {point : Checkpoint τ} {before after : Store τ}
variable {dict value : Ref} {refs more taken : List Ref}

/-! ## The module `math` -/

/-- A dictionary that is being made: only those refer to it who give their references back. -/
structure Fresh (point : Checkpoint τ) (dict : Ref) (more : List Ref) (store : Store τ) : Prop where
  owes : point.Owes (dict :: more) store
  alone : store.countAt dict ≤ (dict :: more).count dict
  table : ∃ table, store.payload? dict = some (.dict table)

omit [Tracker τ] in
theorem Fresh.withTracker (fresh : point.Fresh dict more before) (tracker : τ) :
    point.Fresh dict more { before with tracker } :=
  ⟨fresh.owes.withTracker tracker, fresh.alone, fresh.table⟩

/-- An empty dictionary is fresh. -/
theorem allocate_fresh (owes : point.Owes more before)
    (made : (StoreM.allocate (.dict .empty) : StoreM τ Ref) before = .ok dict after) :
    point.Fresh dict more after := by
  have valid : ∀ table, (.dict .empty : Payload) = .dict table → table.Valid :=
    fun table same => Payload.dict.inj same ▸ Table.valid_empty
  have owed := (Reverts.allocate valid).returns more before dict after owes made
  unfold StoreM.allocate at made
  split at made
  · rename_i tracker answer
    cases made
    have exact := (owes.exact.withTracker tracker)
    have cells := exact.cell?_place (.dict .empty)
    refine ⟨owed, ?_, .empty, ?_⟩
    · simp [countAt, cells, slotCount]
    · rw [payload?, cells, if_pos rfl]
      rfl
  · split at made <;> cases made

/-- Another object is made. -/
theorem Fresh.allocate {payload : Payload} (fresh : point.Fresh dict more before)
    (childless : payload.children = []) (plain : payload.kind ≠ .dictionary)
    (made : (StoreM.allocate payload : StoreM τ Ref) before = .ok value after) :
    point.Owes (value :: dict :: more) after ∧ after.cell? dict = before.cell? dict := by
  have owes : point.Owes (payload.children ++ dict :: more) before := by
    rw [childless]
    exact fresh.owes
  have owed := (Reverts.allocate_plain plain).returns (dict :: more) before value after owes made
  unfold StoreM.allocate at made
  split at made
  · rename_i tracker answer
    cases made
    have exact := fresh.owes.exact.withTracker tracker
    obtain ⟨table, isDict⟩ := fresh.table
    obtain ⟨count, found⟩ := cell?_of_payload? isDict
    refine ⟨owed, ?_⟩
    rw [exact.cell?_place payload, if_neg]
    · rfl
    · rintro rfl
      exact absurd ((exact.place_vacant payload).symm.trans found) nofun
  · split at made <;> cases made

/-- The tracker refuses an object that is made of nothing. -/
theorem Fresh.refused {payload : Payload} {stop : Stop Cause} (fresh : point.Fresh dict more before)
    (childless : payload.children = [])
    (stopped : (StoreM.allocate payload : StoreM τ Ref) before = .error stop after) :
    point.Fresh dict more after := by
  unfold StoreM.allocate at stopped
  split at stopped
  · cases stopped
  · rw [childless, drain] at stopped
    cases stopped
    exact fresh.withTracker _

omit [Tracker τ] in
/-- An object that only those refer to who give their references back is taken out of its slot. -/
theorem Owes.lent_lone {payload : Payload} {count : Nat} (owes : point.Owes refs before)
    (found : before.cell? dict = some ⟨count, some payload⟩) (few : count ≤ refs.count dict)
    (same : (payload.children ++ refs).Perm taken) :
    point.Owes taken (before.setCell dict (some ⟨count, none⟩)) := by
  have cells := cell?_setCell (index_lt_of_cell? found) (some ⟨count, none⟩)
  have exact := owes.exact.lend found
  rw [← List.append_assoc] at exact
  refine owes.of_lone dict (exact.perm (same.append_right _)) ?_ ?_ (fun table stored => ?_)
    fun other different => by rw [cells, if_neg different]
  · rwa [countAt_eq found]
  · rw [countAt, cells, if_pos rfl, ← same.count_eq, List.count_append]
    exact Nat.le_add_left_of_le few
  · rw [payload?, cells, if_pos rfl] at stored
    cases stored

omit [Tracker τ] in
/-- It is put back. -/
theorem Owes.filled_lone {payload : Payload} {count : Nat}
    (owes : point.Owes (payload.children ++ more) before)
    (left : before.cell? dict = some ⟨count, none⟩) (few : count ≤ more.count dict)
    (valid : ∀ table, payload = .dict table → table.Valid) :
    point.Owes more (before.setCell dict (some ⟨count, some payload⟩)) := by
  have cells := cell?_setCell (index_lt_of_cell? left) (some ⟨count, some payload⟩)
  have exact := owes.exact
  rw [List.append_assoc] at exact
  refine owes.of_lone dict (exact.putBack left) ?_ ?_ (fun table stored => ?_)
    fun other different => by rw [cells, if_neg different]
  · rw [countAt_eq left, List.count_append]
    exact Nat.le_add_left_of_le few
  · rwa [countAt, cells, if_pos rfl]
  · rw [payload?, cells, if_pos rfl] at stored
    exact valid table (Option.some.inj stored)

/-- A key of a fresh dictionary is bound to another object, or it is not. -/
theorem dictInsert_fresh {result : Except Cause Unit} (key : Bytes)
    (owes : point.Owes (value :: dict :: more) before)
    (alone : before.countAt dict ≤ (dict :: more).count dict)
    (isDict : ∃ table, before.payload? dict = some (.dict table))
    (ran : attempt (StoreM.dictInsert dict key value) before = .ok result after) :
    point.Fresh dict more after := by
  obtain ⟨table, filled⟩ := isDict
  have valid := owes.tables dict table filled
  obtain ⟨payload, count, new, worked, ⟨count', content⟩, found, went, left, rfl⟩ :=
    lending_ended (fun payload valid => (GivesUp.binding valid trivial key value).never)
      (owes.tables dict) ran
  obtain rfl : payload = .dict table := Option.some.inj ((payload?_eq found).symm.trans filled)
  obtain ⟨⟨table', result'⟩, middle, inserted, went⟩ := bind_eq_ok went
  cases went
  obtain ⟨valid', tracker, released, drained, perm, -⟩ := tableInsert_cases valid inserted
  replace alone : count ≤ (dict :: more).count dict := by rwa [countAt_eq found] at alone
  have few : count ≤ (value :: dict :: more).count dict := by
    rw [List.count_cons]
    exact Nat.le_add_right_of_le alone
  -- Nothing in the dictionary refers to it, and nothing that is given back does.
  have lent : point.Owes (released ++ (table'.values ++ dict :: more))
      (before.setCell dict (some ⟨count, none⟩)) := by
    refine owes.lent_lone found few ?_
    rw [← List.append_assoc]
    refine List.Perm.trans ?_ (perm.symm.append_right _)
    exact List.perm_middle
  have lentExact := (lent.withTracker tracker).exact
  rw [List.append_assoc] at lentExact
  obtain ⟨_, again, -, remains⟩ := drain_exact released _ lentExact
  rw [drained] at again
  cases again
  have owed := (lent.withTracker tracker).released drained
  have cells := cell?_setCell (index_lt_of_cell? found) (some ⟨count, none⟩)
  obtain rfl : none = content := by
    obtain ⟨old, earlier, same⟩ := remains dict _ left
    rw [show ({ before.setCell dict (some ⟨count, none⟩) with tracker } : Store τ).cell? dict = _
      from cells dict, if_pos rfl, Option.some.injEq] at earlier
    rw [← earlier] at same
    exact same
  have counted := lent.exact.count_eq dict
  have counted' := owed.exact.count_eq dict
  have fewer : worked.links.count dict ≤
      (before.setCell dict (some ⟨count, none⟩)).links.count dict :=
    (remains.partOf : PartOf point.loose _ _).count_links_le dict
  rw [countAt, cells, if_pos rfl] at counted
  rw [countAt_eq left] at counted'
  simp only [slotCount, List.count_append] at counted counted'
  have lone : count' ≤ (dict :: more).count dict := by omega
  have filled := cell?_setCell (index_lt_of_cell? left) (some ⟨count', some (.dict table')⟩)
  refine ⟨owed.filled_lone left lone fun _ same => Payload.dict.inj same ▸ valid', ?_, table', ?_⟩
  · rwa [countAt, filled, if_pos rfl]
  · rw [payload?, filled, if_pos rfl]
    rfl

/-- A function is made and put into a fresh dictionary, or it is not. -/
theorem Fresh.install (fresh : point.Fresh dict more before) (function : MathFunction) :
    Lands (point.Fresh dict more) ((do
      let value ← StoreM.allocate (.native (.math function))
      StoreM.dictInsert dict (Bytes.ofString function.name) value : StoreM τ Unit) before) := by
  generalize Bytes.ofString function.name = key
  cases made : (StoreM.allocate (.native (.math function)) : StoreM τ Ref) before with
  | error stop after =>
      rw [bind_error made]
      have left := fresh.refused rfl made
      cases stop with
      | failed cause => exact left
      | fault broken => trivial
      | unfinished => trivial
  | ok value middle =>
      rw [bind_ok made]
      have plain : (Payload.native (.math function)).kind ≠ .dictionary := nofun
      obtain ⟨owes, same⟩ := fresh.allocate rfl plain made
      have alone : middle.countAt dict ≤ (dict :: more).count dict := by
        rw [countAt, same]
        exact fresh.alone
      have isDict : ∃ table, middle.payload? dict = some (.dict table) := by
        rw [payload?, same]
        exact fresh.table
      cases ran : (StoreM.dictInsert dict key value : StoreM τ Unit) middle with
      | ok result after => exact dictInsert_fresh key owes alone isDict (attempt_ok ran)
      | error stop after =>
          cases stop with
          | failed cause => exact dictInsert_fresh key owes alone isDict (attempt_failed ran)
          | fault broken => trivial
          | unfinished => trivial

theorem installMath_fresh (functions : List MathFunction) (fresh : point.Fresh dict more before) :
    Lands (point.Fresh dict more) ((StoreM.installMath dict functions : StoreM τ Unit) before) := by
  induction functions generalizing before with
  | nil => exact fresh
  | cons function rest ih =>
      unfold StoreM.installMath
      rw [← bind_assoc]
      exact Lands.bind (fresh.install function) fun _ middle _ left => ih left

namespace Reverts

/-- The dictionary of the module. -/
theorem mathAttributes : point.Reverts (do
    let attrs ← StoreM.allocate (.dict .empty)
    StoreM.orRelease [attrs] (StoreM.installMath attrs MathFunction.all)
    return attrs : StoreM τ Ref) [] (fun ref => [ref]) where
  returns more before value after owes ran := by
    obtain ⟨attrs, middle, made, went⟩ := bind_eq_ok ran
    have installed := installMath_fresh MathFunction.all (allocate_fresh owes made)
    obtain ⟨_, last, kept, went⟩ := bind_eq_ok went
    cases went
    obtain ⟨result, final, attempted, kept⟩ := bind_eq_ok kept
    rcases attempt_cases attempted with ⟨_, rfl, ended⟩ | ⟨cause, rfl, ended⟩
    · cases kept
      exact (installed.of_ok ended).owes
    · obtain ⟨_, _, _, raised⟩ := bind_eq_ok kept
      cases raised
  fails more before failure after owes failed := by
    rcases bind_eq_failed failed with failed | ⟨attrs, middle, made, failed⟩
    · exact (allocate fun _ same => Payload.dict.inj same ▸ Table.valid_empty).fails
        more before failure after owes failed
    have installed := (installMath_fresh MathFunction.all (allocate_fresh owes made)).attempt
    have stopped := NeverFails.bind_failed (fun _ => .pure attrs) failed
    rcases bind_eq_failed stopped with never | ⟨result, final, attempted, stopped⟩
    · exact absurd never (neverFails_attempt _ _ _ _)
    have owed := (installed.of_ok attempted).owes
    cases result with
    | ok _ => cases stopped
    | error cause =>
        exact (releaseAll_then (.raise cause) : point.Reverts _ [attrs] fun _ : Unit => []).fails
          more final failure after owed stopped

theorem newMath : point.Reverts (StoreM.newMath : StoreM τ Ref) [] (fun ref => [ref]) := by
  have parts : (StoreM.newMath : StoreM τ Ref) = (do
      let attrs ← StoreM.allocate (.dict .empty)
      StoreM.orRelease [attrs] (StoreM.installMath attrs MathFunction.all)
      return attrs) >>= StoreM.newModule mathName := by
    simp only [StoreM.newMath, bind_assoc, pure_bind]
  rw [parts]
  exact mathAttributes.bind fun attrs => newModule mathName attrs

end Reverts

/-! ## Modules -/

namespace Aborts

theorem registerModule (loose : point.loose .modules) (name : String) :
    point.Aborts (StoreM.registerModule name : StoreM τ Ref) [] := by
  have attributes : point.Reverts (StoreM.allocate (.dict .empty) : StoreM τ Ref) []
      (fun ref => [ref]) :=
    .allocate fun table same => Payload.dict.inj same ▸ Table.valid_empty
  refine bind attributes fun attrs => bind (.newModule name attrs) fun module => ?_
  exact enterModule loose name module

theorem importModule (loose : point.loose .modules) (name : String) :
    point.Aborts (StoreM.importModule name : StoreM τ Ref) [] := by
  refine look_bind (looks_dictLookup _ _) fun found => ?_
  split
  · exact .of_never (neverFails_acquire _)
  · split
    · exact bind .newMath fun module => enterModule loose name module
    · exact raise _

end Aborts

/-! ## Images -/

namespace Reverts

mutual

theorem loadImage (image : Image) :
    point.Reverts (StoreM.loadImage image : StoreM τ Ref) [] (fun ref => [ref]) := by
  match image with
  | { file, bytecode, constants, names } =>
      unfold StoreM.loadImage
      exact (loadConstants constants #[]).bind fun loaded => allocate_plain nofun

theorem loadConstant (constant : Constant) :
    point.Reverts (StoreM.loadConstant constant : StoreM τ Ref) [] (fun ref => [ref]) := by
  match constant with
  | .none =>
      unfold StoreM.loadConstant
      exact acquire .noneObject
  | .int value =>
      unfold StoreM.loadConstant
      exact allocate_plain nofun
  | .float value =>
      unfold StoreM.loadConstant
      exact allocate_plain nofun
  | .text value =>
      unfold StoreM.loadConstant
      exact allocate_plain nofun
  | .code image =>
      unfold StoreM.loadConstant
      exact loadImage image

theorem loadConstants (constants : List Constant) (loaded : Array Ref) :
    point.Reverts (StoreM.loadConstants constants loaded : StoreM τ (Array Ref)) loaded.toList
      Array.toList := by
  match constants with
  | [] =>
      unfold StoreM.loadConstants
      exact .pure Array.toList loaded
  | constant :: rest =>
      unfold StoreM.loadConstants
      exact collect (loadConstant constant) fun ref => loadConstants rest (loaded.push ref)

end

/-! ## Values -/

omit [Tracker τ] in
theorem asInput {act : StoreM τ α} {gives : α → List Ref} (reverts : point.Reverts act taken gives)
    (failure : Cause → InputError) : point.Reverts (StoreM.asInput failure act) taken gives where
  returns more before value after owes ran := by
    unfold StoreM.asInput at ran
    split at ran <;> cases ran
    exact reverts.returns more before value after owes ‹_›
  fails more before error after owes failed := by
    unfold StoreM.asInput at failed
    split at failed <;> cases failed
    exact reverts.fails more before _ after owes ‹_›

theorem inputObject {payload : Payload} (plain : payload.kind ≠ .dictionary) :
    point.Reverts (StoreM.inputObject payload : Input τ Ref) payload.children (fun ref => [ref]) :=
  (allocate_plain plain).asInput _

theorem abandon {gives : α → List Ref} (refs : List Ref) (error : InputError) :
    point.Reverts (StoreM.abandon refs error : Input τ α) refs gives :=
  ((releaseAll refs).asInput .raised).bind fun _ => throw error

/-- A value is built while others wait for it, which are given back if it cannot be built. -/
theorem build_next {act : Input τ Ref} {next : Ref → Input τ α} {waiting : List Ref}
    {gives : α → List Ref} (first : point.Reverts act [] fun ref => [ref])
    (rest : ∀ ref, point.Reverts (next ref) (ref :: waiting) gives) :
    point.Reverts (do
      match ← Outcome.attempt act with
      | .ok ref => next ref
      | .error error => StoreM.abandon waiting error) waiting gives := by
  refine first.attempt.bind_keeping (neverFails_attempt act) fun result => ?_
  cases result with
  | ok ref => exact rest ref
  | error error => exact abandon waiting error

theorem inputEntry {table : Table Ref} (valid : table.Valid) (key : String) (value : Ref) :
    point.Reverts (StoreM.inputEntry table key value : Input τ (Table Ref))
      (value :: table.values) Table.values := by
  have inserted : point.Reverts (StoreM.tableInsert (Bytes.ofString key) value table : StoreM τ _)
      (value :: table.values) (fun result => result.1.values) := by
    refine ⟨fun more before result after owes ran => ?_, fun _ before cause after _ failed =>
      absurd failed (neverFails_tableInsert _ value table before cause after)⟩
    obtain ⟨-, tracker, released, drained, perm, -⟩ := tableInsert_cases valid ran
    refine Owes.released ((owes.withTracker tracker).perm ?_) drained
    rw [← List.append_assoc]
    exact perm.symm.append_right more
  refine (inserted.asInput .raised).bind fun result => ?_
  obtain ⟨table, outcome⟩ := result
  cases outcome with
  | ok _ => exact .pure Table.values table
  | error cause => exact abandon table.values _

/-- A table to which entries are added stays valid. -/
theorem valid_of_inputEntry {table result : Table Ref} {key : String} (valid : table.Valid)
    (ran : (StoreM.inputEntry table key value : Input τ _) before = .ok result after) :
    result.Valid := by
  obtain ⟨⟨new, outcome⟩, middle, inserted, went⟩ := bind_eq_ok ran
  have newValid : new.Valid := by
    unfold StoreM.asInput at inserted
    split at inserted <;> cases inserted
    exact (tableInsert_cases valid ‹_›).1
  cases outcome with
  | ok _ =>
      cases went
      exact newValid
  | error cause =>
      obtain ⟨_, _, _, thrown⟩ := bind_eq_ok went
      cases thrown

theorem valid_of_ofEntry (entry : String × Object) {table result : Table Ref} (valid : table.Valid)
    (ran : (StoreM.ofEntry entry table : Input τ _) before = .ok result after) :
    result.Valid := by
  unfold StoreM.ofEntry at ran
  obtain ⟨made, middle, _, went⟩ := bind_eq_ok ran
  cases made with
  | ok ref => exact valid_of_inputEntry valid went
  | error error =>
      obtain ⟨_, _, _, thrown⟩ := bind_eq_ok went
      cases thrown

theorem valid_of_ofEntries (entries : List (String × Object)) {table result : Table Ref}
    (valid : table.Valid)
    (ran : (StoreM.ofEntries entries table : Input τ _) before = .ok result after) :
    result.Valid := by
  induction entries generalizing before table with
  | nil =>
      unfold StoreM.ofEntries at ran
      cases ran
      exact valid
  | cons entry rest ih =>
      unfold StoreM.ofEntries at ran
      obtain ⟨middle, _, added, went⟩ := bind_eq_ok ran
      exact ih (valid_of_ofEntry entry valid added) went

mutual

theorem ofObject (object : Object) :
    point.Reverts (StoreM.ofObject object : Input τ Ref) [] (fun ref => [ref]) := by
  match object with
  | .none =>
      unfold StoreM.ofObject
      exact (acquire .noneObject).asInput _
  | .int value =>
      unfold StoreM.ofObject
      exact inputObject nofun
  | .float value =>
      unfold StoreM.ofObject
      exact inputObject nofun
  | .string text =>
      unfold StoreM.ofObject
      exact inputObject nofun
  | .list items =>
      unfold StoreM.ofObject
      exact (ofItems items #[]).bind fun made => inputObject nofun
  | .tuple items =>
      unfold StoreM.ofObject
      exact (ofItems items #[]).bind fun made => inputObject nofun
  | .dict entries =>
      unfold StoreM.ofObject
      refine (ofEntries entries Table.valid_empty).bind_of fun before table after ran => ?_
      have valid := valid_of_ofEntries entries Table.valid_empty ran
      exact (allocate fun _ same => Payload.dict.inj same ▸ valid).asInput _
  | .module _ =>
      unfold StoreM.ofObject
      exact throw _
  | .repr _ =>
      unfold StoreM.ofObject
      exact throw _
  | .cycle _ _ =>
      unfold StoreM.ofObject
      exact throw _

theorem ofItems (items : List Object) (made : Array Ref) :
    point.Reverts (StoreM.ofItems items made : Input τ (Array Ref)) made.toList Array.toList := by
  match items with
  | [] =>
      unfold StoreM.ofItems
      exact .pure Array.toList made
  | item :: rest =>
      unfold StoreM.ofItems
      refine build_next (ofObject item) fun ref => (ofItems rest (made.push ref)).perm ?_
      rw [Array.toList_push]
      exact (List.perm_append_singleton ref made.toList).symm

theorem ofEntries (entries : List (String × Object)) {table : Table Ref} (valid : table.Valid) :
    point.Reverts (StoreM.ofEntries entries table : Input τ (Table Ref)) table.values
      Table.values := by
  match entries with
  | [] =>
      unfold StoreM.ofEntries
      exact .pure Table.values table
  | entry :: rest =>
      unfold StoreM.ofEntries
      exact (ofEntry entry valid).bind_of fun before result after ran =>
        ofEntries rest (valid_of_ofEntry entry valid ran)

theorem ofEntry (entry : String × Object) {table : Table Ref} (valid : table.Valid) :
    point.Reverts (StoreM.ofEntry entry table : Input τ (Table Ref)) table.values
      Table.values := by
  match entry with
  | (key, object) =>
      unfold StoreM.ofEntry
      exact build_next (ofObject object) fun ref => inputEntry valid key ref

end

end Reverts

end StackMachine.Checkpoint
