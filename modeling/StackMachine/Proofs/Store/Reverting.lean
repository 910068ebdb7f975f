import StackMachine.Machine.Run
import StackMachine.Proofs.Store.Building
import StackMachine.Proofs.Store.Restoring

/-!
# What is taken back when operations fail

Operations that make objects out of others revert: what they made can be given back.  Operations
that change containers revert where they fail.  A table may have been rebuilt by then, though, so
that its object has to be loose.
-/

namespace StackMachine

open Store StoreM Outcome

variable {τ α : Type} [Tracker τ] {point : Checkpoint τ} {before after : Store τ}
variable {ref value : Ref} {refs more taken : List Ref} {payload : Payload}

/-! ## Tables and items on their own -/

namespace StoreM

variable {table new : Table Ref} {key : Bytes} {result : Except Cause Unit}

theorem neverFails_tableInsert (key : Bytes) (value : Ref) (table : Table Ref) :
    NeverFails (tableInsert key value table : StoreM τ _) := by
  have finish (refs : List Ref) (last : Table Ref × Except Cause Unit) :
      NeverFails (releaseAll refs *> pure last : StoreM τ _) :=
    (neverFails_releaseAll refs).bind fun _ => .pure last
  intro before failure after failed
  unfold tableInsert at failed
  split at failed
  · exact finish _ _ _ failure after failed
  · exact finish _ _ _ failure after failed
  · cases failed
  · cases failed

/-- What is given back when a key is bound: the value it was bound to or, where it is not bound,
the new one. -/
theorem tableInsert_cases (valid : table.Valid)
    (ran : tableInsert key value table before = .ok (new, result) after) :
    new.Valid ∧ ∃ tracker released, drain released { before with tracker } = .ok () after ∧
      (released ++ new.values).Perm (value :: table.values) ∧
      ∀ cause, result = .error cause → released = [value] ∧ new.entries.Perm table.entries := by
  have finish {refs : List Ref} {last : Table Ref × Except Cause Unit} {store : Store τ}
      (ran : (releaseAll refs *> pure last : StoreM τ _) store = .ok (new, result) after) :
      last = (new, result) ∧ drain refs store = .ok () after := by
    obtain ⟨_, middle, released, ran⟩ := bind_eq_ok ran
    cases ran
    exact ⟨rfl, released⟩
  have means := valid.insert_means before.tracker key value
  unfold tableInsert at ran
  generalize table.insert before.tracker key value = outcome at means ran
  obtain ⟨(cause | broken | _) | displaced, middle, tracker⟩ := outcome
  · obtain ⟨same, drained⟩ := finish ran
    cases same
    obtain ⟨newValid, perm, -⟩ := means
    exact ⟨newValid, tracker, [value], drained, (Table.values_perm perm).cons value,
      fun _ _ => ⟨rfl, perm⟩⟩
  · exact means.elim
  · cases ran
  · obtain ⟨same, drained⟩ := finish ran
    cases same
    obtain ⟨newValid, -, perm⟩ := means
    exact ⟨newValid, tracker, displaced.toList, drained, Table.values_perm_of_insert perm, nofun⟩

end StoreM

namespace Checkpoint

/-- Where the work on an object fails, the object is as before, up to likeness, and what it
should have received has been given back. -/
structure GivesUp (loose : Prop) (refs : List Ref) (payload : Payload)
    (work : StoreM τ (Payload × Except Cause α)) : Prop where
  never : NeverFails work
  refuses : ∀ before new cause after, work before = .ok (new, .error cause) after →
    payload.Like loose new ∧ (∀ table, new = .dict table → table.Valid) ∧
      ∃ tracker, drain refs { before with tracker } = .ok () after

/-- The same for some items. -/
structure ItemsGiveUp (refs : List Ref) (items : Array Ref)
    (work : StoreM τ (Array Ref × Except Cause Unit)) : Prop where
  never : NeverFails work
  refuses : ∀ before new cause after, work before = .ok (new, .error cause) after →
    new = items ∧ ∃ tracker, drain refs { before with tracker } = .ok () after

theorem ItemsGiveUp.refuse (items : Array Ref) (value : Ref) (cause : Cause) :
    ItemsGiveUp [value] items
      (release value *> pure (items, .error cause) : StoreM τ (Array Ref × Except Cause Unit)) where
  never := (neverFails_releaseAll [value]).bind fun _ => .pure _
  refuses before new cause' after ran := by
    obtain ⟨_, middle, released, ran⟩ := bind_eq_ok ran
    cases ran
    exact ⟨rfl, before.tracker, released⟩

theorem ItemsGiveUp.replaceItem (kind : Kind) (index : Nat) (value : Ref) (items : Array Ref) :
    ItemsGiveUp [value] items (StoreM.replaceItem kind index value items : StoreM τ _) := by
  unfold StoreM.replaceItem
  cases items[index]? with
  | some displaced =>
      refine ⟨(neverFails_releaseAll [displaced]).bind fun _ => .pure _, ?_⟩
      intro before new cause after ran
      obtain ⟨_, middle, released, ran⟩ := bind_eq_ok ran
      cases ran
  | none => exact .refuse items value _

theorem ItemsGiveUp.growItems (position : Nat) (value : Ref) (items : Array Ref) :
    ItemsGiveUp [value] items (StoreM.growItems position value items : StoreM τ _) := by
  unfold StoreM.growItems
  refine ⟨(neverFails_attempt _).bind fun charged => ?_, ?_⟩
  · cases charged with
    | ok _ => exact .pure _
    | error cause => exact (neverFails_releaseAll [value]).bind fun _ => .pure _
  · intro before new cause after ran
    obtain ⟨charged, middle, attempted, ran⟩ := bind_eq_ok ran
    rcases attempt_cases attempted with ⟨_, rfl, -⟩ | ⟨refusal, rfl, refused⟩
    · cases ran
    · obtain ⟨_, last, released, ran⟩ := bind_eq_ok ran
      cases ran
      unfold chargeInsert at refused
      split at refused <;> cases refused
      exact ⟨rfl, _, released⟩

theorem GivesUp.refuseObject (loose : Prop) (refs : List Ref)
    (valid : ∀ table, payload = .dict table → table.Valid) :
    GivesUp loose refs payload (StoreM.refuseObject refs payload : StoreM τ _) where
  never := (neverFails_releaseAll refs).bind fun _ => .pure _
  refuses before new cause after ran := by
    obtain ⟨_, middle, released, ran⟩ := bind_eq_ok ran
    cases ran
    exact ⟨.same _, valid, before.tracker, released⟩

theorem GivesUp.list {items : Array Ref} {work : StoreM τ (Array Ref × Except Cause Unit)}
    (works : ItemsGiveUp refs items work) (loose : Prop) :
    GivesUp loose refs (.list items) (do
      let (items, result) ← work
      return (.list items, result)) where
  never := works.never.bind fun _ => .pure _
  refuses before new cause after ran := by
    obtain ⟨⟨left, result⟩, middle, worked, ran⟩ := bind_eq_ok ran
    cases ran
    obtain ⟨rfl, drained⟩ := works.refuses before left cause after worked
    exact ⟨.same _, nofun, drained⟩

theorem GivesUp.dict {loose : Prop} {table : Table Ref} (valid : table.Valid) (allowed : loose)
    (key : Bytes) (value : Ref) :
    GivesUp loose [value] (.dict table) (do
      let (table, result) ← (tableInsert key value table : StoreM τ _)
      return (.dict table, result)) where
  never := (neverFails_tableInsert key value table).bind fun _ => .pure _
  refuses before new cause after ran := by
    obtain ⟨⟨left, result⟩, middle, worked, ran⟩ := bind_eq_ok ran
    cases ran
    obtain ⟨leftValid, tracker, released, drained, -, refused⟩ := tableInsert_cases valid worked
    obtain ⟨rfl, perm⟩ := refused cause rfl
    refine ⟨.rebuilt allowed perm ?_ (leftValid.find?_eq_of_perm valid perm), ?_, tracker, drained⟩
    · rw [leftValid.used_eq, valid.used_eq, ← Table.length_entries, ← Table.length_entries,
        perm.length_eq]
    · rintro _ same
      cases same
      exact leftValid

/-- Binding a key of an object, which has to be a dictionary. -/
theorem GivesUp.binding {loose : Prop} (valid : ∀ table, payload = .dict table → table.Valid)
    (allowed : loose) (key : Bytes) (value : Ref) :
    GivesUp loose [value] payload (match payload with
      | .dict table => do
          let (table, result) ← (tableInsert key value table : StoreM τ _)
          return (.dict table, result)
      | other => StoreM.refuseObject [value] other) := by
  cases payload
  case dict table => exact .dict (valid table rfl) allowed key value
  all_goals exact .refuseObject _ _ valid

/-! ## Containers -/

omit [Tracker τ] in
/-- Working on an object ended: the work returned something, and what it made of the object is in
its slot. -/
theorem lending_ended {work : Payload → StoreM τ (Payload × Except Cause α)}
    {result : Except Cause α}
    (never : ∀ payload, (∀ table, payload = .dict table → table.Valid) → NeverFails (work payload))
    (tables : ∀ table, before.payload? ref = some (.dict table) → table.Valid)
    (ran : attempt (StoreM.lending ref work) before = .ok result after) :
    ∃ payload count new worked cell, before.cell? ref = some ⟨count, some payload⟩ ∧
      work payload (before.setCell ref (some ⟨count, none⟩)) = .ok (new, result) worked ∧
      worked.cell? ref = some cell ∧
      after = worked.setCell ref (some { cell with payload := some new }) := by
  unfold StoreM.lending at ran
  rw [attempt_bind (neverFails_lend ref)] at ran
  obtain ⟨payload, lent, gotten, ran⟩ := bind_eq_ok ran
  obtain ⟨count, found, rfl⟩ : ∃ count, before.cell? ref = some ⟨count, some payload⟩ ∧
      lent = before.setCell ref (some ⟨count, none⟩) := by
    unfold StoreM.lend at gotten
    split at gotten <;> cases gotten
    exact ⟨_, ‹_›, rfl⟩
  have valid : ∀ table, payload = .dict table → table.Valid := by
    rintro table rfl
    exact tables table (payload?_eq found)
  rw [attempt_bind (never payload valid)] at ran
  obtain ⟨⟨new, worked⟩, middle, worked_eq, ran⟩ := bind_eq_ok ran
  simp only at ran
  rw [attempt_bind (neverFails_putBack ref new)] at ran
  obtain ⟨_, put, filled, ran⟩ := bind_eq_ok ran
  rw [attempt_settle] at ran
  cases ran
  unfold StoreM.putBack at filled
  split at filled <;> cases filled
  exact ⟨payload, count, new, middle, _, found, worked_eq, ‹_›, rfl⟩

/-- An object was out of its slot while references were given back, and is like before. -/
theorem Owes.of_lent {count : Nat} {new : Payload} {tracker : τ} {worked : Store τ} {cell : Cell}
    (owes : point.Owes (refs ++ more) before)
    (found : before.cell? ref = some ⟨count, some payload⟩)
    (drained : drain refs { before.setCell ref (some ⟨count, none⟩) with tracker } = .ok () worked)
    (left : worked.cell? ref = some cell) (like : payload.Like (point.loose ref) new)
    (valid : ∀ table, new = .dict table → table.Valid) :
    point.Owes more (worked.setCell ref (some { cell with payload := some new })) := by
  have exact : ({ before.setCell ref (some ⟨count, none⟩) with tracker } : Store τ).Exact
      (refs ++ (payload.children ++ (more ++ point.held))) := by
    refine ((owes.exact.lend found).withTracker tracker).perm ?_
    rw [List.append_assoc]
    exact List.perm_append_comm_assoc _ _ _
  obtain ⟨_, same, -, remains⟩ := drain_exact refs _ exact
  rw [drained] at same
  cases same
  have remains : worked.Remains (before.setCell ref (some ⟨count, none⟩)) := remains
  have residue : Residue point.loose (before.setCell ref (some ⟨count, none⟩))
      (payload.children ++ (more ++ point.held)) worked :=
    (Residue.of_drain exact drained).of_parts (.of_cells fun _ => rfl) (.of_cells fun _ => rfl)
  have lent := cell?_setCell (index_lt_of_cell? found) (some ⟨count, none⟩)
  have put := cell?_setCell (index_lt_of_cell? left) (some { cell with payload := some new })
  obtain ⟨count', content⟩ := cell
  obtain rfl : none = content := by
    obtain ⟨old, earlier, same⟩ := remains ref _ left
    rw [lent, if_pos rfl, Option.some.injEq] at earlier
    subst earlier
    exact same
  have final := residue.of_lent found left like
  refine ⟨final.exact, fun other table stored => ?_, owes.residue.narrow final⟩
  rw [payload?, put] at stored
  split at stored
  · exact valid table (Option.some.inj stored)
  · rename_i different
    obtain ⟨shared, present⟩ : ∃ shared, worked.cell? other = some ⟨shared, some (.dict table)⟩ :=
      cell?_of_payload? stored
    obtain ⟨old, earlier, same⟩ := remains other _ present
    rw [lent, if_neg different] at earlier
    exact owes.tables other table ((payload?_eq earlier).trans same)

namespace Aborts

theorem lending {work : Payload → StoreM τ (Payload × Except Cause α)}
    (works : ∀ payload, (∀ table, payload = .dict table → table.Valid) →
      GivesUp (point.loose ref) refs payload (work payload)) :
    point.Aborts (StoreM.lending ref work) refs := by
  intro more before cause after owes failed
  obtain ⟨payload, count, new, worked, cell, found, ran, left, rfl⟩ :=
    lending_ended (fun payload valid => (works payload valid).never) (owes.tables ref) (attempt_failed failed)
  have valid : ∀ table, payload = .dict table → table.Valid := by
    rintro table rfl
    exact owes.tables ref table (payload?_eq found)
  obtain ⟨like, newValid, tracker, drained⟩ := (works payload valid).refuses _ new cause worked ran
  exact owes.of_lent found drained left like newValid

theorem dictInsert (loose : point.loose ref) (key : Bytes) (value : Ref) :
    point.Aborts (StoreM.dictInsert ref key value : StoreM τ Unit) [value] :=
  lending fun _ valid => .binding valid loose key value

theorem lendingList {work : Array Ref → StoreM τ (Array Ref × Except Cause Unit)}
    (works : ∀ items, ItemsGiveUp refs items (work items)) :
    point.Aborts (StoreM.lendingList ref refs work) refs := by
  refine lending fun payload valid => ?_
  cases payload
  case list items => exact .list (works items) _
  all_goals exact .refuseObject _ _ valid

theorem listInsert (list : Ref) (index : Int64) (value : Ref) :
    point.Aborts (StoreM.listInsert list index value : StoreM τ Unit) [value] :=
  lendingList fun items => .growItems _ value items

theorem listAppend (list value : Ref) :
    point.Aborts (StoreM.listAppend list value : StoreM τ Unit) [value] :=
  lendingList fun items => .growItems _ value items

end Aborts

/-! ## Looking -/

omit [Tracker τ] in
theorem looks_get (ref : Ref) : Looks (StoreM.get ref : StoreM τ Payload) where
  never := neverFails_get ref
  keeps _ _ _ ran := (get_cases ran).1

omit [Tracker τ] in
theorem looks_dictLookup (dict : Ref) (key : Bytes) :
    Looks (StoreM.dictLookup dict key : StoreM τ (Option Ref)) where
  never := neverFails_dictLookup dict key
  keeps _ _ _ ran := dictLookup_keeps ran

omit [Tracker τ] in
theorem looks_getOption (argument : Option Ref) :
    Looks (StoreM.getOption argument : StoreM τ (Option Payload)) where
  never := neverFails_getOption argument
  keeps _ _ _ ran := getOption_keeps ran

omit [Tracker τ] in
theorem looks_getAll (refs : List Ref) : Looks (StoreM.getAll refs : StoreM τ (List Payload)) := by
  induction refs with
  | nil => exact .pure []
  | cons ref rest ih => exact (looks_get ref).bind fun _ => ih.bind fun _ => .pure _

omit [Tracker τ] in
theorem looks_rangeBounds? (argument : Option Ref) :
    Looks (StoreM.rangeBounds? argument : StoreM τ _) := by
  refine (looks_getOption argument).bind fun payload => ?_
  split
  · exact .pure _
  · split
    · refine (looks_getAll _).bind fun payloads => ?_
      split <;> exact .pure _
    · exact .pure _
  · exact .pure _

omit [Tracker τ] in
theorem looks_mathOperands? (function : MathFunction) (argument : Option Ref) :
    Looks (StoreM.mathOperands? function argument : StoreM τ _) := by
  refine (looks_getOption argument).bind fun payload => ?_
  split
  · exact .pure _
  · split
    · split
      · split
        · refine (looks_get _).bind fun first => (looks_get _).bind fun second => ?_
          split <;> exact .pure _
        · exact .pure _
      · exact .pure _
    · exact .pure _

omit [Tracker τ] in
theorem looks_appendTarget? (argument : Option Ref) :
    Looks (StoreM.appendTarget? argument : StoreM τ _) := by
  refine (looks_getOption argument).bind fun payload => ?_
  split
  · split
    · refine (looks_get _).bind fun payload => ?_
      split <;> exact .pure _
    · exact .pure _
  · exact .pure _

omit [Tracker τ] in
theorem looks_insertTarget? (argument : Option Ref) :
    Looks (StoreM.insertTarget? argument : StoreM τ _) := by
  refine (looks_getOption argument).bind fun payload => ?_
  split
  · split
    · refine (looks_get _).bind fun first => (looks_get _).bind fun second => ?_
      split <;> exact .pure _
    · exact .pure _
  · exact .pure _

namespace Reverts

variable {gives : α → List Ref}

omit [Tracker τ] in
theorem get_bind {next : Payload → StoreM τ α}
    (rest : ∀ payload, point.Reverts (next payload) taken gives) :
    point.Reverts (StoreM.get ref >>= next) taken gives :=
  look_bind (looks_get ref) rest

omit [Tracker τ] in
/-- References to some objects are taken before an operation goes on. -/
theorem acquireAll_bind {next : Unit → StoreM τ α}
    (rest : point.Reverts (next ()) (refs ++ taken) gives) :
    point.Reverts (StoreM.acquireAll refs >>= next) taken gives :=
  (acquireAll refs).bind_keeping (neverFails_acquireAll refs) fun _ => rest

/-! ## Sequences and arithmetic -/

theorem allocateItems {pack : Array Ref → Payload} {items : Array Ref}
    (plain : (pack items).kind ≠ .dictionary) (owned : (pack items).children = items.toList) :
    point.Reverts (StoreM.allocateItems pack items : StoreM τ Ref) [] (fun ref => [ref]) := by
  refine acquireAll_bind ?_
  rw [List.append_nil, ← owned]
  exact allocate_plain plain

theorem concat (left right : Ref) :
    point.Reverts (StoreM.concat left right : StoreM τ Ref) [] (fun ref => [ref]) := by
  refine get_bind fun first => get_bind fun second => ?_
  cases first <;> cases second
  case string.string first second =>
      simp only
      split
      · exact acquire left
      split
      · exact acquire right
      · exact allocate_plain nofun
  case tuple.tuple first second =>
      simp only
      split
      · exact acquire left
      split
      · exact acquire right
      · exact allocateItems nofun rfl
  case list.list first second => exact allocateItems nofun rfl
  all_goals exact raise _

theorem arithmetic (operation : Arithmetic) (left right : Ref) :
    point.Reverts (StoreM.arithmetic operation left right : StoreM τ Ref) []
      (fun ref => [ref]) := by
  have otherwise (first second : Payload) :
      point.Reverts (if operation = .add then StoreM.concat left right
          else StoreM.raise (.badOperands operation first.kind second.kind) : StoreM τ Ref) []
        (fun ref => [ref]) := by
    split
    · exact concat left right
    · exact raise _
  refine get_bind fun first => get_bind fun second => ?_
  cases first <;> cases second
  case int.int x y =>
      simp only
      cases operation.onInts? x y with
      | some result => exact allocate_plain nofun
      | none => exact raise _
  case float.float x y => exact allocate_plain nofun
  all_goals exact otherwise _ _

theorem negate (operand : Ref) :
    point.Reverts (StoreM.negate operand : StoreM τ Ref) [] (fun ref => [ref]) := by
  refine get_bind fun payload => ?_
  cases payload
  case int value => exact allocate_plain nofun
  case float value => exact allocate_plain nofun
  all_goals exact raise _

omit [Tracker τ] in
theorem itemAt (kind : Kind) (items : Array Ref) (position : Int64) :
    point.Reverts (StoreM.itemAt kind items position : StoreM τ Ref) [] (fun ref => [ref]) := by
  unfold StoreM.itemAt
  cases (resolveIndex? position items.size).bind (items[·]?) with
  | some item => exact acquire item
  | none => exact raise _

theorem index (sequence : Ref) (position : Int64) :
    point.Reverts (StoreM.index sequence position : StoreM τ Ref) [] (fun ref => [ref]) := by
  refine get_bind fun payload => ?_
  cases payload
  case string bytes =>
      simp only
      cases (resolveIndex? position bytes.size).bind (bytes[·]?) with
      | some byte => exact allocate_plain nofun
      | none => exact raise _
  case list items => exact itemAt .list items position
  case tuple items => exact itemAt .tuple items position
  all_goals exact raise _

theorem loopItem (sequence : Ref) (position : Nat) :
    point.Reverts (StoreM.loopItem sequence position : StoreM τ (Option Ref)) []
      Option.toList := by
  refine get_bind fun payload => ?_
  split
  · split
    · exact .pure Option.toList none
    · split
      · exact .map (index sequence _)
      · exact raise _
  · exact raise _

theorem slice (sequence : Ref) (low high : Option Int64) :
    point.Reverts (StoreM.slice sequence low high : StoreM τ Ref) [] (fun ref => [ref]) := by
  refine get_bind fun payload => ?_
  cases payload
  case string bytes =>
      simp only
      split
      · exact acquire sequence
      · exact allocate_plain nofun
  case tuple items =>
      simp only
      split
      · exact acquire sequence
      · exact allocateItems nofun rfl
  case list items => exact allocateItems nofun rfl
  all_goals exact raise _

/-- Where an object is no dictionary, a subscript of it is an index. -/
theorem subscriptIndex (container : Ref) (place : Payload) (kind : Kind) :
    point.Reverts (if kind.isSequence then
        match place with
        | .int position => StoreM.index container position
        | _ => StoreM.raise (.indexNotInt kind)
      else StoreM.raise (.unsupported .subscript kind) : StoreM τ Ref) [] (fun ref => [ref]) := by
  split
  · split
    · exact index container _
    · exact raise _
  · exact raise _

theorem subscript (container key : Ref) :
    point.Reverts (StoreM.subscript container key : StoreM τ Ref) [] (fun ref => [ref]) := by
  refine get_bind fun payload => get_bind fun place => ?_
  cases payload
  case dict table =>
      cases place
      case string key =>
          refine (Reverts.reading _).bind fun found => ?_
          cases found with
          | some value => exact acquire value
          | none => exact raise _
      all_goals exact raise _
  all_goals exact subscriptIndex container place _

/-! ## Attributes and modules -/

omit [Tracker τ] in
theorem acquireNamed (name : String) (found : Option Ref) :
    point.Reverts (StoreM.acquireNamed name found : StoreM τ Ref) [] (fun ref => [ref]) := by
  cases found with
  | some ref => exact acquire ref
  | none => exact raise _

theorem bindMethod (function member : Ref) :
    point.Reverts (StoreM.bind function member : StoreM τ Ref) [] (fun ref => [ref]) := by
  have made : point.Reverts (StoreM.allocate (.method function member) : StoreM τ Ref)
      [function, member] (fun ref => [ref]) := allocate_plain nofun
  exact acquire_bind (acquire_bind (made.perm (.swap _ _ _)))

theorem loadAttr (object : Ref) (name : String) :
    point.Reverts (StoreM.loadAttr object name : StoreM τ Ref) [] (fun ref => [ref]) := by
  refine get_bind fun payload => ?_
  cases payload
  case module title attrs =>
      simp only
      split
      · exact acquire attrs
      split
      · exact acquire title
      · exact look_bind (looks_dictLookup _ _) fun found => acquireNamed name found
  case class_ attrs => exact look_bind (looks_dictLookup _ _) fun found => acquireNamed name found
  case member owner attrs =>
      refine look_bind (looks_dictLookup _ _) fun found => ?_
      cases found with
      | some value => exact acquire value
      | none =>
          refine get_bind fun owning => ?_
          cases owning
          case class_ shared =>
              refine look_bind (looks_dictLookup _ _) fun found => ?_
              cases found with
              | none => exact raise _
              | some value =>
                  refine get_bind fun content => ?_
                  cases content
                  case function code globals => exact bindMethod value object
                  all_goals exact acquire value
          all_goals exact raise _
  all_goals exact raise _

theorem newModule (name : String) (attrs : Ref) :
    point.Reverts (StoreM.newModule name attrs : StoreM τ Ref) [attrs] (fun ref => [ref]) := by
  have titled : point.Reverts
      (StoreM.allocate (.string (Bytes.ofString name)) : StoreM τ Ref) [] (fun ref => [ref]) :=
    allocate_plain nofun
  exact (titled.orRelease [attrs]).bind fun title => allocate_plain nofun

end Reverts

namespace Aborts

theorem storeAttr (loose : ∀ ref, point.loose ref) (object : Ref) (name : String) (value : Ref) :
    point.Aborts (StoreM.storeAttr object name value : StoreM τ Unit) [value] := by
  refine look_bind (looks_get object) fun payload => ?_
  cases payload
  case member owner attrs => exact dictInsert (loose attrs) _ value
  case module title attrs =>
      simp only
      split
      · exact releaseAll_bind (.raise _)
      · exact dictInsert (loose attrs) _ value
  all_goals exact releaseAll_bind (.raise _)

theorem enterModule (loose : point.loose .modules) (name : String) (module : Ref) :
    point.Aborts (StoreM.enterModule name module : StoreM τ Ref) [module] :=
  acquire_bind ((orRelease [module] (dictInsert loose _ module)).followed fun _ =>
    .pure module)

end Aborts

/-! ## Functions the machine carries out itself -/

namespace Reverts

theorem callFloat (argument : Option Ref) :
    point.Reverts (StoreM.callFloat argument : StoreM τ Ref) argument.toList
      (fun ref => [ref]) := by
  refine look_bind (looks_getOption argument) fun payload => ?_
  split
  · exact .pure (fun ref => [ref]) _
  · exact releaseAll_then (allocate_plain nofun)
  · exact releaseAll_then (.raise _)

theorem callInt (argument : Option Ref) :
    point.Reverts (StoreM.callInt argument : StoreM τ Ref) argument.toList (fun ref => [ref]) := by
  refine look_bind (looks_getOption argument) fun payload => ?_
  split
  · exact .pure (fun ref => [ref]) _
  · exact releaseAll_then (allocate_plain nofun)
  · exact releaseAll_then (.raise _)

theorem callNotv (argument : Option Ref) :
    point.Reverts (StoreM.callNotv argument : StoreM τ Ref) argument.toList (fun ref => [ref]) := by
  refine look_bind (looks_getOption argument) fun payload => releaseAll_then ?_
  split
  · exact acquire _
  · exact raise _

theorem callLen (argument : Option Ref) :
    point.Reverts (StoreM.callLen argument : StoreM τ Ref) argument.toList (fun ref => [ref]) := by
  cases argument with
  | none =>
      refine look_bind (looks_getOption none) fun payload => ?_
      cases payload with
      | none => exact raise _
      | some payload =>
          refine releaseAll_then ?_
          split
          · exact allocate_plain nofun
          · exact raise _
  | some ref =>
      unfold StoreM.callLen StoreM.getOption
      rw [bind_map_left]
      refine get_bind fun payload => releaseAll_then ?_
      split
      · exact allocate_plain nofun
      · exact raise _

/-- One more object is made, and where it cannot be made those before it are given back. -/
theorem collect {act : StoreM τ Ref} {next : Ref → StoreM τ α} {made : Array Ref}
    {gives : α → List Ref} (first : point.Reverts act [] fun ref => [ref])
    (rest : ∀ ref, point.Reverts (next ref) (made.push ref).toList gives) :
    point.Reverts (do
      match ← Outcome.attempt act with
      | .ok ref => next ref
      | .error cause => do
          StoreM.releaseAll made.toList
          StoreM.raise cause) made.toList gives := by
  refine first.attempt.bind_keeping (neverFails_attempt act) fun result => ?_
  cases result with
  | ok ref =>
      refine (rest ref).perm ?_
      rw [Array.toList_push]
      exact (List.perm_append_singleton ref made.toList).symm
  | error cause => exact releaseAll_then (.raise cause)

theorem allocateInts (step : Int64) (count : Nat) (current : Int64) (made : Array Ref) :
    point.Reverts (StoreM.allocateInts step count current made : StoreM τ (Array Ref)) made.toList
      Array.toList := by
  induction count generalizing current made with
  | zero => exact .pure Array.toList made
  | succ count ih =>
      exact collect (allocate_plain nofun) fun item => ih (current + step) (made.push item)

theorem callRange (argument : Option Ref) :
    point.Reverts (StoreM.callRange argument : StoreM τ Ref) argument.toList
      (fun ref => [ref]) := by
  refine look_bind (looks_rangeBounds? argument) fun bounds => releaseAll_then ?_
  split
  · exact raise _
  · split
    · exact raise _
    · refine (chargeTable _).bind fun _ => ?_
      exact (allocateInts _ _ _ #[]).bind fun items => allocate_plain nofun

theorem callPass (argument : Option Ref) :
    point.Reverts (StoreM.callPass argument : StoreM τ Ref) argument.toList (fun ref => [ref]) :=
  releaseAll_then (acquire .noneObject)

theorem callMath (function : MathFunction) (argument : Option Ref) :
    point.Reverts (StoreM.callMath function argument : StoreM τ Ref) argument.toList
      (fun ref => [ref]) := by
  refine look_bind (looks_mathOperands? function argument) fun operands => releaseAll_then ?_
  split
  · exact raise _
  · rename_i x y
    cases evaluated : function.evaluate x y with
    | ok result => exact allocate_plain nofun
    | error cause => exact raise cause

/-- Making a member of a class. -/
theorem instantiate (owner : Ref) (argument : Option Ref) :
    point.Reverts (MachineM.instantiate owner argument : StoreM τ Ref) argument.toList
      (fun ref => [ref]) := by
  cases argument with
  | some argument => exact releaseAll_then (.raise _)
  | none =>
      have attributes : point.Reverts (StoreM.allocate (.dict .empty) : StoreM τ Ref) []
          (fun ref => [ref]) :=
        allocate fun table same => Payload.dict.inj same ▸ Table.valid_empty
      refine attributes.bind fun attrs => acquire_bind ?_
      exact allocate_plain nofun

end Reverts

namespace Aborts

theorem appendTo (target : Option (Ref × Ref)) : point.Aborts (match target with
    | some (list, item) => do
        let _ ← StoreM.acquire item
        StoreM.listAppend list item
    | none => StoreM.raise .badArgument : StoreM τ Unit) [] := by
  cases target with
  | some pair => exact acquire_bind (listAppend pair.1 pair.2)
  | none => exact raise _

theorem callAppend (argument : Option Ref) :
    point.Aborts (StoreM.callAppend argument : StoreM τ Ref) argument.toList := by
  refine look_bind (looks_appendTarget? argument) fun target => ?_
  refine followed ?_ fun _ => neverFails_acquire _
  exact ((appendTo target).releasing argument.toList).perm (by simp)

theorem insertInto (target : Option (Ref × Int64 × Ref)) : point.Aborts (match target with
    | some (list, index, item) => do
        let _ ← StoreM.acquire item
        StoreM.listInsert list index item
    | none => StoreM.raise .badArgument : StoreM τ Unit) [] := by
  cases target with
  | some parts => exact acquire_bind (listInsert parts.1 parts.2.1 parts.2.2)
  | none => exact raise _

theorem callInsert (argument : Option Ref) :
    point.Aborts (StoreM.callInsert argument : StoreM τ Ref) argument.toList := by
  refine look_bind (looks_insertTarget? argument) fun target => ?_
  refine followed ?_ fun _ => neverFails_acquire _
  exact ((insertInto target).releasing argument.toList).perm (by simp)

theorem callNative (function : Native) (argument : Option Ref) :
    point.Aborts (StoreM.callNative function argument : StoreM τ Ref) argument.toList := by
  rcases function with (_ | _ | _ | _ | _ | _ | _ | _) | function
  · exact (Reverts.callFloat argument).aborts
  · exact (Reverts.callInt argument).aborts
  · exact (Reverts.callLen argument).aborts
  · exact (Reverts.callRange argument).aborts
  · exact callAppend argument
  · exact callInsert argument
  · exact (Reverts.callPass argument).aborts
  · exact (Reverts.callNotv argument).aborts
  · exact (Reverts.callMath function argument).aborts

end Aborts

end Checkpoint

end StackMachine
