import StackMachine.Proofs.Store.BadCalls

/-!
# Why operations on the store fail

Some errors are the fault of the code: the byte is no operation code, the code ends too early,
the operand is not in its table, or the instruction wants values or blocks that the frame does
not have.  An operation on the store knows nothing of instructions, so it never fails for such a
cause, whatever the store is like.
-/

namespace StackMachine

/-- Does the error arise while an instruction is read, or its operand looked up? -/
def Cause.isDecoding : Cause → Bool
  | unknownOpcode | codeEnd | constantIndex | nameIndex | badComparison => true
  | _ => false

/-- Does the error say that the code is wrong: that an instruction cannot be read, or cannot be
carried out in the frame it is in? -/
def Cause.blamesCode : Cause → Bool
  | valueUnderflow | blockUnderflow | blockOverflow | breakOutsideLoop => true
  | cause => cause.isDecoding

theorem Cause.isDecoding_of_blamesCode {cause : Cause} (other : cause.blamesCode = false) :
    cause.isDecoding = false := by
  cases cause <;> first | rfl | exact other

namespace Outcome

variable {φ σ α β : Type} {allowed : φ → Prop}

/-- The operation fails in allowed ways only, whatever the state is. -/
def FailsWith (allowed : φ → Prop) (act : EStateM (Stop φ) σ α) : Prop :=
  ∀ before failure after, act before = .error (.failed failure) after → allowed failure

namespace FailsWith

variable {act : EStateM (Stop φ) σ α} {next : α → EStateM (Stop φ) σ β}

theorem of_neverFails (never : NeverFails act) : FailsWith allowed act :=
  fun before failure after failed => absurd failed (never before failure after)

theorem pure (value : α) : FailsWith allowed (pure value : EStateM (Stop φ) σ α) :=
  .of_neverFails (.pure value)

theorem fault (broken : Fault) : FailsWith allowed (throw (.fault broken) : EStateM (Stop φ) σ α) :=
  .of_neverFails (.fault broken)

theorem throw {failure : φ} (fine : allowed failure) :
    FailsWith allowed (throw (.failed failure) : EStateM (Stop φ) σ α) := by
  intro _ _ _ failed
  cases failed
  exact fine

theorem bind (first : FailsWith allowed act) (second : ∀ value, FailsWith allowed (next value)) :
    FailsWith allowed (act >>= next) := by
  intro before failure after failed
  change EStateM.bind act next before = _ at failed
  unfold EStateM.bind at failed
  cases ran : act before with
  | ok value middle =>
      rw [ran] at failed
      exact second value middle failure after failed
  | error stop middle =>
      rw [ran] at failed
      cases failed
      exact first before failure _ ran

theorem map {function : α → β} (fails : FailsWith allowed act) :
    FailsWith allowed (function <$> act) := by
  rw [map_eq_pure_bind]
  exact fails.bind fun _ => .pure _

/-- A failure that is caught was an allowed one. -/
theorem caught {next : Except φ α → EStateM (Stop φ) σ β} (fails : FailsWith allowed act)
    (returned : ∀ value, FailsWith allowed (next (.ok value)))
    (failed : ∀ failure, allowed failure → FailsWith allowed (next (.error failure))) :
    FailsWith allowed (attempt act >>= next) := by
  intro before failure after stopped
  cases ran : act before with
  | ok value middle =>
      rw [StoreM.bind_ok (attempt_ok ran)] at stopped
      exact returned value middle failure after stopped
  | error stop middle =>
      cases stop with
      | failed other =>
          rw [StoreM.bind_ok (attempt_failed ran)] at stopped
          exact failed other (fails before other middle ran) middle failure after stopped
      | fault broken =>
          rw [bind_error (attempt_fault ran)] at stopped
          cases stopped
      | unfinished =>
          rw [bind_error (attempt_unfinished ran)] at stopped
          cases stopped

theorem reading {read : σ → Except (Stop φ) α}
    (fails : ∀ state failure, read state = .error (.failed failure) → allowed failure) :
    FailsWith allowed (reading read) := by
  intro before failure after failed
  unfold Outcome.reading at failed
  split at failed
  · cases failed
  · rename_i found
    cases failed
    exact fails before failure found

theorem mono {fewer : φ → Prop} (fails : FailsWith fewer act)
    (weaker : ∀ failure, fewer failure → allowed failure) : FailsWith allowed act :=
  fun before failure after failed => weaker failure (fails before failure after failed)

end FailsWith

end Outcome

open Outcome

/-! ## Tables -/

namespace Table

variable {α τ : Type} [Tracker τ] {table : Table α} {tracker : τ} {cause : Cause}

theorem occupyAll_failed {entries : List (Bytes × α)}
    (failed : occupyAll entries table = .error (.failed cause)) : cause = .tableFull := by
  induction entries generalizing table with
  | nil => cases failed
  | cons entry rest ih =>
      unfold occupyAll at failed
      split at failed
      · exact ih failed
      · exact ih failed
      · cases failed
        rfl
      · cases failed

theorem makeRoom_failed (failed : table.makeRoom tracker = .error (.failed cause)) :
    cause.blamesCode = false := by
  have rebuilt : ∀ {cause}, table.rebuild tracker = .error (.failed cause) →
      cause.blamesCode = false := by
    intro cause failed
    unfold rebuild at failed
    split at failed
    · cases failed
      rfl
    · split at failed
      · cases failed
        rfl
      · rw [occupyAll_failed failed]
        rfl
  unfold makeRoom at failed
  split at failed
  · split at failed
    · rename_i found
      split at failed
      · cases failed
        exact rebuilt found
      · cases failed
    · exact rebuilt failed
  · cases failed

theorem insert_failed {key : Bytes} {value : α}
    (failed : (table.insert tracker key value).1 = .error (.failed cause)) :
    cause.blamesCode = false := by
  unfold insert at failed
  simp only at failed
  split at failed
  · rename_i found
    cases failed
    exact makeRoom_failed found
  · split at failed
    · cases failed
    · cases failed
      rfl
    · cases failed
    · split at failed <;> cases failed
      rfl

end Table

/-! ## Comparing -/

namespace Store

variable {τ : Type} {store : Store τ} {cause : Cause}

/-- The read fails for no cause that blames the code. -/
def SparesCode {α : Type} (read : Except (Stop Cause) α) : Prop :=
  ∀ cause, read = .error (.failed cause) → cause.blamesCode = false

namespace SparesCode

variable {α β : Type} {read : Except (Stop Cause) α} {next : α → Except (Stop Cause) β}

theorem ok (value : α) : SparesCode (.ok value) :=
  fun _ failed => by cases failed

theorem error {cause : Cause} (other : cause.blamesCode = false) :
    SparesCode (.error (.failed cause) : Except (Stop Cause) α) := by
  intro _ failed
  cases failed
  exact other

theorem bind (first : SparesCode read) (second : ∀ value, SparesCode (next value)) :
    SparesCode (read >>= next) := by
  intro cause failed
  cases result : read with
  | ok value =>
      rw [result] at failed
      exact second value cause failed
  | error stop =>
      rw [result] at failed
      cases failed
      exact first cause result

theorem map (spares : SparesCode read) (function : α → β) : SparesCode (read.map function) := by
  intro cause failed
  cases result : read with
  | ok value =>
      rw [result] at failed
      cases failed
  | error stop =>
      rw [result] at failed
      cases failed
      exact spares cause result

end SparesCode

theorem get_sparesCode (store : Store τ) (ref : Ref) : SparesCode (store.get ref) := by
  intro cause failed
  unfold get at failed
  split at failed <;> cases failed

theorem compareItems_sparesCode {compareItem : Ref → Ref → Except (Stop Cause) Ordering}
    (each : ∀ left right, SparesCode (compareItem left right)) (lefts rights : List Ref) :
    SparesCode (compareItems compareItem lefts rights) := by
  induction lefts generalizing rights with
  | nil => cases rights <;> exact .ok _
  | cons left lefts ih =>
      cases rights with
      | nil => exact .ok _
      | cons right rights =>
          refine (each left right).bind fun ordering => ?_
          cases ordering with
          | eq => exact ih rights
          | lt | gt => exact .ok _

theorem compareWithin_sparesCode (store : Store τ) (room : Nat) (left right : Ref) :
    SparesCode (store.compareWithin room left right) := by
  induction room generalizing left right with
  | zero =>
      unfold compareWithin
      split
      · exact .ok _
      · exact .error rfl
  | succ room ih =>
      unfold compareWithin
      split
      · exact .ok _
      refine (get_sparesCode store left).bind fun first =>
        (get_sparesCode store right).bind fun second => ?_
      split
      case h_4 | h_5 => exact compareItems_sparesCode ih _ _
      case h_6 => split <;> exact .ok _
      all_goals exact .ok _

theorem anyEqual_sparesCode (store : Store τ) (item : Ref) (candidates : List Ref) :
    SparesCode (store.anyEqual item candidates) := by
  induction candidates with
  | nil => exact .ok _
  | cons candidate rest ih =>
      refine (compareWithin_sparesCode store _ candidate item).bind fun ordering => ?_
      cases ordering with
      | eq => exact .ok _
      | lt | gt => exact ih

theorem contains_sparesCode (store : Store τ) (sequence item : Ref) :
    SparesCode (store.contains sequence item) := by
  refine (get_sparesCode store sequence).bind fun payload => ?_
  split
  · refine (get_sparesCode store item).bind fun found => ?_
    split
    · split
      · exact .ok _
      · exact .error rfl
    · exact .error rfl
  · exact anyEqual_sparesCode store item _
  · exact anyEqual_sparesCode store item _
  · exact .error rfl

theorem errorMatches_sparesCode (store : Store τ) (error pattern : Ref) :
    SparesCode (store.errorMatches error pattern) := by
  unfold errorMatches
  split
  · exact .ok _
  · refine (get_sparesCode store pattern).bind fun payload => ?_
    split <;> exact .ok _

theorem test_sparesCode (store : Store τ) (comparison : Comparison) (left right : Ref) :
    SparesCode (store.test comparison left right) := by
  have compared := compareWithin_sparesCode store (maxDepth + 1) left right
  cases comparison with
  | same | notSame => exact .ok _
  | member => exact contains_sparesCode store right left
  | notMember => exact (contains_sparesCode store right left).map _
  | errorMatch => exact errorMatches_sparesCode store left right
  | less | lessEqual | equal | notEqual | greater | greaterEqual => exact compared.map _

end Store

/-! ## Operations on the store -/

namespace StoreM

variable {τ α : Type} {act : StoreM τ α}

/-- The operation fails for no cause that blames the code. -/
abbrev SparesCode (act : StoreM τ α) : Prop :=
  FailsWith (fun cause => cause.blamesCode = false) act

theorem get_sparesCode (ref : Ref) : SparesCode (get ref : StoreM τ Payload) :=
  .of_neverFails (neverFails_get ref)

theorem acquire_sparesCode (ref : Ref) : SparesCode (acquire ref : StoreM τ Ref) :=
  .of_neverFails (neverFails_acquire ref)

theorem dictLookup_sparesCode (dict : Ref) (key : Bytes) :
    SparesCode (dictLookup dict key : StoreM τ (Option Ref)) :=
  .of_neverFails (neverFails_dictLookup dict key)

theorem getOption_sparesCode (argument : Option Ref) :
    SparesCode (getOption argument : StoreM τ (Option Payload)) :=
  .of_neverFails (neverFails_getOption argument)

theorem acquireAll_sparesCode (refs : List Ref) : SparesCode (acquireAll refs : StoreM τ Unit) := by
  induction refs with
  | nil => exact .pure ()
  | cons ref rest ih => exact (acquire_sparesCode ref).bind fun _ => ih

theorem settle_sparesCode {result : Except Cause α}
    (fine : ∀ cause, result = .error cause → cause.blamesCode = false) :
    SparesCode (settle result : StoreM τ α) := by
  cases result with
  | ok value => exact .pure value
  | error cause => exact .throw (fine cause rfl)

variable [Tracker τ]

theorem releaseAll_sparesCode (refs : List Ref) : SparesCode (releaseAll refs : StoreM τ Unit) :=
  .of_neverFails (neverFails_releaseAll refs)

theorem releasing_sparesCode (refs : List Ref) (body : SparesCode act) :
    SparesCode (releasing refs act) :=
  body.caught (fun value => (releaseAll_sparesCode refs).bind fun _ => .pure value)
    fun _ fine => (releaseAll_sparesCode refs).bind fun _ => .throw fine

theorem orRelease_sparesCode (refs : List Ref) (body : SparesCode act) :
    SparesCode (orRelease refs act) :=
  body.caught (fun value => .pure value) fun _ fine =>
    (releaseAll_sparesCode refs).bind fun _ => .throw fine

theorem allocate_sparesCode (payload : Payload) : SparesCode (allocate payload : StoreM τ Ref) := by
  intro before cause after failed
  obtain ⟨refusal, rfl⟩ := allocate_refused failed
  rfl

/-- What only asks the tracker is refused by it or not at all. -/
theorem ask_sparesCode (query : Query) : SparesCode (ask query : StoreM τ Unit) := by
  intro before cause after failed
  unfold ask at failed
  rcases answer : (query.pose before.tracker).1 with _ | refusal <;> rw [answer] at failed <;>
    cases failed
  rfl

theorem chargeTable_sparesCode (bytes : Nat) : SparesCode (chargeTable bytes : StoreM τ Unit) := by
  rw [chargeTable_eq]
  exact ask_sparesCode _

/-! ### Containers -/

/-- The work on an object fails for no such cause, and hands none over. -/
structure WorksFine {γ : Type} (work : StoreM τ (γ × Except Cause α)) : Prop where
  fails : SparesCode work
  hands : ∀ before new cause after, work before = .ok (new, .error cause) after →
    cause.blamesCode = false

namespace WorksFine

variable {γ : Type}

omit [Tracker τ] in
theorem finish {first : StoreM τ Unit} {new : γ} {result : Except Cause α}
    (never : NeverFails first)
    (fine : ∀ cause, result = .error cause → cause.blamesCode = false) :
    WorksFine (first >>= fun _ => pure (new, result)) where
  fails := (FailsWith.of_neverFails never).bind fun _ => .pure _
  hands := by
    intro _ _ cause _ ran
    obtain ⟨_, _, _, returned⟩ := bind_eq_ok ran
    cases returned
    exact fine cause rfl

omit [Tracker τ] in
theorem repacked {work : StoreM τ (γ × Except Cause α)} (works : WorksFine work)
    (pack : γ → Payload) : WorksFine (work >>= fun pair => pure (pack pair.1, pair.2)) where
  fails := works.fails.bind fun _ => .pure _
  hands := by
    intro _ _ cause _ ran
    obtain ⟨⟨new, result⟩, _, worked, returned⟩ := bind_eq_ok ran
    cases returned
    exact works.hands _ new cause _ worked

theorem tableInsert (key : Bytes) (value : Ref) (table : Table Ref) :
    WorksFine (StoreM.tableInsert key value table : StoreM τ _) := by
  have at_ : ∀ before : Store τ, ∃ work : StoreM τ (Table Ref × Except Cause Unit),
      WorksFine work ∧ ∃ middle, StoreM.tableInsert key value table before = work middle := by
    intro before
    unfold StoreM.tableInsert
    rcases result : table.insert before.tracker key value with
        ⟨(cause | broken | _) | displaced, _, _⟩
    · refine ⟨_, finish (neverFails_releaseAll [value]) ?_, _, rfl⟩
      rintro _ ⟨⟩
      exact Table.insert_failed (congrArg Prod.fst result)
    · exact ⟨throw (.fault broken), ⟨.fault broken, fun _ _ _ _ ran => by cases ran⟩, _, rfl⟩
    · exact ⟨throw .unfinished, ⟨fun _ _ _ failed => (by cases failed),
        fun _ _ _ _ ran => by cases ran⟩, _, rfl⟩
    · exact ⟨_, finish (neverFails_releaseAll displaced.toList) (by rintro _ ⟨⟩), _, rfl⟩
  constructor
  case fails =>
    intro before cause after failed
    obtain ⟨work, works, middle, same⟩ := at_ before
    exact works.fails middle cause after (same ▸ failed)
  case hands =>
    intro before new cause after ran
    obtain ⟨work, works, middle, same⟩ := at_ before
    exact works.hands middle new cause after (same ▸ ran)

theorem replaceItem (kind : Kind) (index : Nat) (value : Ref) (items : Array Ref) :
    WorksFine (StoreM.replaceItem kind index value items : StoreM τ _) := by
  unfold StoreM.replaceItem
  cases items[index]? with
  | some displaced => exact finish (neverFails_releaseAll [displaced]) (by rintro _ ⟨⟩)
  | none =>
      refine finish (neverFails_releaseAll [value]) ?_
      rintro _ ⟨⟩
      rfl

theorem growItems (position : Nat) (value : Ref) (items : Array Ref) :
    WorksFine (StoreM.growItems position value items : StoreM τ _) where
  fails := (FailsWith.of_neverFails (neverFails_attempt _)).bind fun result => by
    cases result with
    | ok _ => exact .pure _
    | error cause => exact (releaseAll_sparesCode [value]).bind fun _ => .pure _
  hands := by
    intro before new cause after ran
    obtain ⟨result, middle, asked, rest⟩ := bind_eq_ok ran
    cases result with
    | ok _ => cases rest
    | error refused =>
        obtain ⟨_, _, _, returned⟩ := bind_eq_ok rest
        cases returned
        rw [chargeInsert_eq] at asked
        unfold attempt at asked
        split at asked
        · cases asked
        · rename_i found
          cases asked
          exact ask_sparesCode .insert before _ _ found
        · cases asked
        · cases asked

end WorksFine

theorem refuseObject_worksFine (refs : List Ref) (payload : Payload) :
    WorksFine (refuseObject refs payload : StoreM τ (Payload × Except Cause Unit)) :=
  .finish (neverFails_releaseAll refs) (by rintro _ ⟨⟩; rfl)

omit [Tracker τ] in
theorem lending_sparesCode {work : Payload → StoreM τ (Payload × Except Cause α)} (ref : Ref)
    (works : ∀ payload, WorksFine (work payload)) : SparesCode (lending ref work) := by
  refine FailsWith.bind (.of_neverFails (neverFails_lend ref)) fun payload => ?_
  intro before cause after failed
  change EStateM.bind (work payload) _ before = _ at failed
  unfold EStateM.bind at failed
  cases ran : work payload before with
  | ok worked middle =>
      obtain ⟨new, result⟩ := worked
      rw [ran] at failed
      refine FailsWith.bind (.of_neverFails (neverFails_putBack ref new))
        (fun _ => settle_sparesCode ?_) middle cause after failed
      rintro other rfl
      exact (works payload).hands before new other middle ran
  | error stop middle =>
      rw [ran] at failed
      cases failed
      exact (works payload).fails before cause _ ran

theorem lendingTable_sparesCode {work : Table Ref → StoreM τ (Table Ref × Except Cause Unit)}
    (dict : Ref) (refs : List Ref) (works : ∀ table, WorksFine (work table)) :
    SparesCode (lendingTable dict refs work) := by
  refine lending_sparesCode dict fun payload => ?_
  cases payload
  case dict table => exact (works table).repacked .dict
  all_goals exact refuseObject_worksFine refs _

theorem lendingList_sparesCode {work : Array Ref → StoreM τ (Array Ref × Except Cause Unit)}
    (list : Ref) (refs : List Ref) (works : ∀ items, WorksFine (work items)) :
    SparesCode (lendingList list refs work) := by
  refine lending_sparesCode list fun payload => ?_
  cases payload
  case list items => exact (works items).repacked .list
  all_goals exact refuseObject_worksFine refs _

theorem dictInsert_sparesCode (dict : Ref) (key : Bytes) (value : Ref) :
    SparesCode (dictInsert dict key value : StoreM τ Unit) :=
  lendingTable_sparesCode dict [value] (.tableInsert key value)

theorem listInsert_sparesCode (list : Ref) (index : Int64) (value : Ref) :
    SparesCode (listInsert list index value : StoreM τ Unit) :=
  lendingList_sparesCode list [value] fun items => .growItems _ value items

theorem listAppend_sparesCode (list value : Ref) :
    SparesCode (listAppend list value : StoreM τ Unit) :=
  lendingList_sparesCode list [value] fun items => .growItems _ value items

/-! ### Sequences and arithmetic -/

theorem allocateItems_sparesCode {pack : Array Ref → Payload} (items : Array Ref) :
    SparesCode (allocateItems pack items : StoreM τ Ref) :=
  (acquireAll_sparesCode items.toList).bind fun _ => allocate_sparesCode _

theorem concat_sparesCode (left right : Ref) : SparesCode (concat left right : StoreM τ Ref) := by
  refine (get_sparesCode left).bind fun first => (get_sparesCode right).bind fun second => ?_
  cases first <;> cases second
  case string.string | tuple.tuple =>
    simp only
    split
    · exact acquire_sparesCode left
    split
    · exact acquire_sparesCode right
    · first | exact allocate_sparesCode _ | exact allocateItems_sparesCode _
  case list.list => exact allocateItems_sparesCode _
  all_goals exact .throw rfl

theorem arithmetic_sparesCode (operation : Arithmetic) (left right : Ref) :
    SparesCode (arithmetic operation left right : StoreM τ Ref) := by
  have otherwise (first second : Payload) : SparesCode (if operation = .add then concat left right
      else raise (.badOperands operation first.kind second.kind) : StoreM τ Ref) := by
    split
    · exact concat_sparesCode left right
    · exact .throw rfl
  refine (get_sparesCode left).bind fun first => (get_sparesCode right).bind fun second => ?_
  cases first <;> cases second
  case int.int x y =>
    simp only
    cases operation.onInts? x y with
    | some result => exact allocate_sparesCode _
    | none => exact .throw rfl
  case float.float => exact allocate_sparesCode _
  all_goals exact otherwise _ _

theorem negate_sparesCode (operand : Ref) : SparesCode (negate operand : StoreM τ Ref) := by
  refine (get_sparesCode operand).bind fun payload => ?_
  cases payload
  case int | float => exact allocate_sparesCode _
  all_goals exact .throw rfl

omit [Tracker τ] in
theorem itemAt_sparesCode (kind : Kind) (items : Array Ref) (index : Int64) :
    SparesCode (itemAt kind items index : StoreM τ Ref) := by
  unfold itemAt
  split
  · exact acquire_sparesCode _
  · exact .throw rfl

theorem index_sparesCode (sequence : Ref) (position : Int64) :
    SparesCode (index sequence position : StoreM τ Ref) := by
  refine (get_sparesCode sequence).bind fun payload => ?_
  cases payload
  case string bytes =>
    simp only
    cases (resolveIndex? position bytes.size).bind (bytes[·]?) with
    | some byte => exact allocate_sparesCode _
    | none => exact .throw rfl
  case list items => exact itemAt_sparesCode .list items position
  case tuple items => exact itemAt_sparesCode .tuple items position
  all_goals exact .throw rfl

theorem loopItem_sparesCode (sequence : Ref) (position : Nat) :
    SparesCode (loopItem sequence position : StoreM τ (Option Ref)) := by
  refine (get_sparesCode sequence).bind fun payload => ?_
  split
  · split
    · exact .pure none
    · split
      · exact (index_sparesCode sequence _).map
      · exact .throw rfl
  · exact .throw rfl

theorem slice_sparesCode (sequence : Ref) (low high : Option Int64) :
    SparesCode (slice sequence low high : StoreM τ Ref) := by
  refine (get_sparesCode sequence).bind fun payload => ?_
  cases payload
  case string | tuple =>
    simp only
    split
    · exact acquire_sparesCode sequence
    · first | exact allocate_sparesCode _ | exact allocateItems_sparesCode _
  case list => exact allocateItems_sparesCode _
  all_goals exact .throw rfl

theorem subscript_sparesCode (container key : Ref) :
    SparesCode (subscript container key : StoreM τ Ref) := by
  refine (get_sparesCode container).bind fun payload => (get_sparesCode key).bind fun found => ?_
  cases payload
  case dict table =>
    cases found
    case string bytes =>
      refine FailsWith.bind (.reading fun _ _ failed => ?_) fun value => ?_
      · unfold Table.lookup at failed
        split at failed <;> cases failed
      · cases value with
        | some value => exact acquire_sparesCode value
        | none => exact .throw rfl
    all_goals exact .throw rfl
  all_goals
    cases found
    case int position => first | exact index_sparesCode container position | exact .throw rfl
    all_goals exact .throw rfl

/-! ### Built-in functions -/

omit [Tracker τ] in
theorem getAll_sparesCode (refs : List Ref) : SparesCode (getAll refs : StoreM τ _) := by
  induction refs with
  | nil => exact .pure []
  | cons ref rest ih => exact (get_sparesCode ref).bind fun _ => ih.bind fun _ => .pure _

omit [Tracker τ] in
theorem rangeBounds?_sparesCode (argument : Option Ref) :
    SparesCode (rangeBounds? argument : StoreM τ _) := by
  refine (getOption_sparesCode argument).bind fun payload => ?_
  split
  · exact .pure _
  · split
    · refine (getAll_sparesCode _).bind fun payloads => ?_
      split <;> exact .pure _
    · exact .pure _
  · exact .pure _

omit [Tracker τ] in
theorem mathOperands?_sparesCode (function : MathFunction) (argument : Option Ref) :
    SparesCode (mathOperands? function argument : StoreM τ _) := by
  refine (getOption_sparesCode argument).bind fun payload => ?_
  split
  · exact .pure _
  split
  · split
    · split
      · refine (get_sparesCode _).bind fun first => (get_sparesCode _).bind fun second => ?_
        split <;> exact .pure _
      · exact .pure _
    · exact .pure _
  · exact .pure _

theorem releaseOption_sparesCode (argument : Option Ref) {next : StoreM τ α}
    (rest : SparesCode next) : SparesCode (releaseOption argument >>= fun _ => next) :=
  (releaseAll_sparesCode argument.toList).bind fun _ => rest

theorem callFloat_sparesCode (argument : Option Ref) :
    SparesCode (callFloat argument : StoreM τ Ref) := by
  refine (getOption_sparesCode argument).bind fun payload => ?_
  split
  · exact .pure _
  · exact releaseOption_sparesCode _ (allocate_sparesCode _)
  · exact releaseOption_sparesCode _ (.throw rfl)

theorem callInt_sparesCode (argument : Option Ref) :
    SparesCode (callInt argument : StoreM τ Ref) := by
  refine (getOption_sparesCode argument).bind fun payload => ?_
  split
  · exact .pure _
  · exact releaseOption_sparesCode _ (allocate_sparesCode _)
  · exact releaseOption_sparesCode _ (.throw rfl)

theorem callNotv_sparesCode (argument : Option Ref) :
    SparesCode (callNotv argument : StoreM τ Ref) := by
  refine (getOption_sparesCode argument).bind fun payload => releaseOption_sparesCode argument ?_
  split
  · exact acquire_sparesCode _
  · exact .throw rfl

theorem callLen_sparesCode (argument : Option Ref) :
    SparesCode (callLen argument : StoreM τ Ref) := by
  refine (getOption_sparesCode argument).bind fun payload => ?_
  split
  · exact .throw rfl
  refine releaseOption_sparesCode argument ?_
  split
  · exact allocate_sparesCode _
  · exact .throw rfl

theorem allocateInts_sparesCode (step : Int64) (count : Nat) (current : Int64) (made : Array Ref) :
    SparesCode (allocateInts step count current made : StoreM τ _) := by
  induction count generalizing current made with
  | zero => exact .pure made
  | succ count ih =>
      exact (allocate_sparesCode _).caught (fun item => ih _ _) fun _ fine =>
        (releaseAll_sparesCode made.toList).bind fun _ => .throw fine

theorem callRange_sparesCode (argument : Option Ref) :
    SparesCode (callRange argument : StoreM τ Ref) := by
  refine (rangeBounds?_sparesCode argument).bind fun bounds =>
    releaseOption_sparesCode argument ?_
  split
  · exact .throw rfl
  split
  · exact .throw rfl
  · exact (chargeTable_sparesCode _).bind fun _ => (allocateInts_sparesCode _ _ _ _).bind fun _ =>
      allocate_sparesCode _

theorem callAppend_sparesCode (argument : Option Ref) :
    SparesCode (callAppend argument : StoreM τ Ref) := by
  refine FailsWith.bind (.of_neverFails (neverFails_appendTarget? argument)) fun target => ?_
  refine FailsWith.bind (releasing_sparesCode _ ?_) fun _ => acquire_sparesCode _
  rcases target with _ | ⟨list, item⟩
  · exact .throw rfl
  · exact (acquire_sparesCode item).bind fun _ => listAppend_sparesCode list item

theorem callInsert_sparesCode (argument : Option Ref) :
    SparesCode (callInsert argument : StoreM τ Ref) := by
  refine FailsWith.bind (.of_neverFails (neverFails_insertTarget? argument)) fun target => ?_
  refine FailsWith.bind (releasing_sparesCode _ ?_) fun _ => acquire_sparesCode _
  rcases target with _ | ⟨list, index, item⟩
  · exact .throw rfl
  · exact (acquire_sparesCode item).bind fun _ => listInsert_sparesCode list index item

theorem callMath_sparesCode (function : MathFunction) (argument : Option Ref) :
    SparesCode (callMath function argument : StoreM τ Ref) := by
  refine (mathOperands?_sparesCode function argument).bind fun operands =>
    releaseOption_sparesCode argument ?_
  rcases operands with _ | ⟨x, y⟩
  · exact .throw rfl
  refine FailsWith.bind (settle_sparesCode fun cause refused => ?_) fun _ => allocate_sparesCode _
  unfold MathFunction.evaluate at refused
  simp only at refused
  split at refused
  · cases refused
    rfl
  split at refused
  · cases refused
    rfl
  · cases refused

theorem callNative_sparesCode (function : Native) (argument : Option Ref) :
    SparesCode (callNative function argument : StoreM τ Ref) := by
  cases function with
  | math function => exact callMath_sparesCode function argument
  | builtin builtin =>
      cases builtin with
      | float => exact callFloat_sparesCode argument
      | int => exact callInt_sparesCode argument
      | len => exact callLen_sparesCode argument
      | range => exact callRange_sparesCode argument
      | append => exact callAppend_sparesCode argument
      | insert => exact callInsert_sparesCode argument
      | pass => exact releaseOption_sparesCode argument (acquire_sparesCode _)
      | notv => exact callNotv_sparesCode argument

/-! ### Attributes and modules -/

omit [Tracker τ] in
theorem acquireNamed_sparesCode (name : String) (found : Option Ref) :
    SparesCode (acquireNamed name found : StoreM τ Ref) := by
  cases found with
  | some ref => exact acquire_sparesCode ref
  | none => exact .throw rfl

theorem bind_sparesCode (function member : Ref) :
    SparesCode (bind function member : StoreM τ Ref) :=
  (acquire_sparesCode function).bind fun _ => (acquire_sparesCode member).bind fun _ =>
    allocate_sparesCode _

theorem loadAttr_sparesCode (object : Ref) (name : String) :
    SparesCode (loadAttr object name : StoreM τ Ref) := by
  refine (get_sparesCode object).bind fun payload => ?_
  cases payload
  case module title attrs =>
      simp only
      split
      · exact acquire_sparesCode attrs
      split
      · exact acquire_sparesCode title
      · exact (dictLookup_sparesCode attrs _).bind fun found => acquireNamed_sparesCode name found
  case class_ attrs =>
      exact (dictLookup_sparesCode attrs _).bind fun found => acquireNamed_sparesCode name found
  case member owner attrs =>
      refine (dictLookup_sparesCode attrs _).bind fun found => ?_
      cases found with
      | some value => exact acquire_sparesCode value
      | none =>
          refine (get_sparesCode owner).bind fun owner => ?_
          cases owner
          case class_ shared =>
              refine (dictLookup_sparesCode shared _).bind fun found => ?_
              cases found with
              | none => exact .throw rfl
              | some value =>
                  refine (get_sparesCode value).bind fun payload => ?_
                  split
                  · exact bind_sparesCode value object
                  · exact acquire_sparesCode value
          all_goals exact .throw rfl
  all_goals exact .throw rfl

theorem storeAttr_sparesCode (object : Ref) (name : String) (value : Ref) :
    SparesCode (storeAttr object name value : StoreM τ Unit) := by
  have refused (cause : Cause) (other : cause.blamesCode = false) :
      SparesCode (release value >>= fun _ => raise cause : StoreM τ Unit) :=
    (releaseAll_sparesCode [value]).bind fun _ => .throw other
  refine (get_sparesCode object).bind fun payload => ?_
  cases payload
  case member owner attrs => exact dictInsert_sparesCode attrs _ value
  case module title attrs =>
      simp only
      split
      · exact refused _ rfl
      · exact dictInsert_sparesCode attrs _ value
  all_goals exact refused _ rfl

theorem enterModule_sparesCode (name : String) (module : Ref) :
    SparesCode (enterModule name module : StoreM τ Ref) :=
  (acquire_sparesCode module).bind fun _ =>
    (orRelease_sparesCode [module] (dictInsert_sparesCode .modules _ module)).bind fun _ =>
      .pure module

theorem newModule_sparesCode (name : String) (attrs : Ref) :
    SparesCode (newModule name attrs : StoreM τ Ref) :=
  (orRelease_sparesCode [attrs] (allocate_sparesCode _)).bind fun _ => allocate_sparesCode _

theorem installMath_sparesCode (attrs : Ref) (functions : List MathFunction) :
    SparesCode (installMath attrs functions : StoreM τ Unit) := by
  induction functions with
  | nil => exact .pure ()
  | cons function rest ih =>
      exact (allocate_sparesCode _).bind fun value =>
        (dictInsert_sparesCode attrs _ value).bind fun _ => ih

theorem newMath_sparesCode : SparesCode (newMath : StoreM τ Ref) :=
  (allocate_sparesCode _).bind fun attrs =>
    (orRelease_sparesCode [attrs] (installMath_sparesCode attrs _)).bind fun _ =>
      newModule_sparesCode mathName attrs

theorem importModule_sparesCode (name : String) :
    SparesCode (importModule name : StoreM τ Ref) := by
  refine (dictLookup_sparesCode .modules _).bind fun found => ?_
  cases found with
  | some module => exact acquire_sparesCode module
  | none =>
      simp only
      split
      · exact newMath_sparesCode.bind fun module => enterModule_sparesCode name module
      · exact .throw rfl

end StoreM

end StackMachine
