import StackMachine.Proofs.Tracking.Store
import StackMachine.Store.Loading

/-!
# Programs' operations on a watched store

What the instructions of a program do to the store is put together from operations that
account for the refusals they meet, so it accounts for them as well.
-/

namespace StackMachine.StoreM

open Outcome Watching

variable {τ ρ π α : Type} [Tracker τ] [Tracker ρ] [Tracker π] {view : View τ ρ π}

/-! ## Containers -/

/-- Work that hands over its failure and that no refusal escapes from. -/
abbrev Changes (view : View τ ρ π) {γ : Type}
    (act : StoreM (Seen view) (γ × Except Cause Unit))
    (other : StoreM π (γ × Except Cause Unit)) : Prop :=
  Watches .fine act other worked

/-- Binding a key gives back what is displaced, or the value where that fails. -/
theorem tableInsert_changes (key : Bytes) (value : Ref) (table : Table Ref) :
    Changes view (tableInsert key value table) (tableInsert key value table) := by
  intro store since accounts
  obtain ⟨continues, known, same⟩ := insert_accounts table store.tracker key value accounts
  have plainly : (plain store : Store π).tracker = view.shows store.tracker := rfl
  rcases result : table.insert store.tracker key value with ⟨outcome, changed, tracker⟩
  rw [result] at continues known same
  let after : Store (Seen view) := { store with tracker }
  have alike (agreed : Agreed after) :
      table.insert (plain store : Store π).tracker key value =
        (outcome, changed, (plain after : Store π).tracker) := plainly ▸ same agreed
  rcases outcome with (cause | broken | _) | displaced
  · refine (worked_after (release_cleans value) (changed, .error cause) after since known).rebase
      ?_ (fun agreed => ?_) continues
    · simp only [tableInsert, result, after]
      rfl
    · simp only [tableInsert, alike agreed]
      rfl
  · refine .error (.fault broken) after ?_ (fun agreed => ?_) continues trivial
    · simp only [tableInsert, result, after]
    · simp only [tableInsert, alike agreed]
      rfl
  · refine .error .unfinished after ?_ (fun agreed => ?_) continues known
    · simp only [tableInsert, result, after]
    · simp only [tableInsert, alike agreed]
      rfl
  · refine (worked_after (releaseOption_cleans displaced) (changed, .ok ()) after since
      known).rebase ?_ (fun agreed => ?_) continues
    · simp only [tableInsert, result, after]
      rfl
    · simp only [tableInsert, alike agreed]
      rfl

theorem replaceItem_changes (kind : Kind) (index : Nat) (value : Ref) (items : Array Ref) :
    Changes view (replaceItem kind index value items) (replaceItem kind index value items) := by
  unfold replaceItem
  cases items[index]? with
  | some displaced => exact worked_after (release_cleans displaced) (_, .ok ())
  | none => exact (worked_after (release_cleans value) (_, .error _)).weaken

theorem growItems_changes (position : Nat) (value : Ref) (items : Array Ref) :
    Changes view (growItems position value items) (growItems position value items) := by
  refine chargeInsert_heeds.attempt.bind fun result => ?_
  cases result with
  | ok _ => exact .pure worked (_, .ok ())
  | error cause => exact worked_after (release_cleans value) (items, .error cause)

theorem refuseObject_changes (refs : List Ref) (payload : Payload) :
    Changes view (refuseObject refs payload) (refuseObject refs payload) :=
  (worked_after (releaseAll_cleans refs) (payload, .error .badCall)).weaken

/-- What was worked on is put back into its container. -/
theorem repacked {γ : Type} {act : StoreM (Seen view) (γ × Except Cause Unit)}
    {other : StoreM π (γ × Except Cause Unit)} (pack : γ → Payload)
    (changes : Changes view act other) :
    Changes view (act >>= fun pair => pure (pack pair.1, pair.2))
      (other >>= fun pair => pure (pack pair.1, pair.2)) :=
  changes.bind fun pair => .pure worked (pack pair.1, pair.2)

theorem lendingTable_heeds {work : Table Ref → StoreM (Seen view) (Table Ref × Except Cause Unit)}
    {other : Table Ref → StoreM π (Table Ref × Except Cause Unit)} (dict : Ref) (refs : List Ref)
    (changes : ∀ table, Changes view (work table) (other table)) :
    Heeds view (lendingTable dict refs work) (lendingTable dict refs other) := by
  refine lending_heeds dict fun payload => ?_
  cases payload
  case dict table => exact repacked .dict (changes table)
  all_goals exact refuseObject_changes refs _

theorem lendingList_heeds {work : Array Ref → StoreM (Seen view) (Array Ref × Except Cause Unit)}
    {other : Array Ref → StoreM π (Array Ref × Except Cause Unit)} (list : Ref) (refs : List Ref)
    (changes : ∀ items, Changes view (work items) (other items)) :
    Heeds view (lendingList list refs work) (lendingList list refs other) := by
  refine lending_heeds list fun payload => ?_
  cases payload
  case list items => exact repacked .list (changes items)
  all_goals exact refuseObject_changes refs _

theorem dictInsert_heeds (dict : Ref) (key : Bytes) (value : Ref) :
    Heeds view (dictInsert dict key value) (dictInsert dict key value) :=
  lendingTable_heeds dict [value] (tableInsert_changes key value)

theorem listInsert_heeds (list : Ref) (index : Int64) (value : Ref) :
    Heeds view (listInsert list index value) (listInsert list index value) :=
  lendingList_heeds list [value] fun items => growItems_changes _ value items

theorem listAppend_heeds (list value : Ref) :
    Heeds view (listAppend list value) (listAppend list value) :=
  lendingList_heeds list [value] fun items => growItems_changes _ value items

theorem dictLookup_heeds (dict : Ref) (key : Bytes) :
    Heeds view (dictLookup dict key) (dictLookup dict key) := by
  refine (get_heeds dict).bind fun payload => ?_
  cases payload
  case dict table => exact .reading fun _ => rfl
  all_goals exact .well none

/-! ## Sequences and arithmetic -/

theorem allocateItems_heeds (pack : Array Ref → Payload) (items : Array Ref) :
    Heeds view (allocateItems pack items) (allocateItems pack items) :=
  (acquireAll_cleans items.toList).heeds.bind fun _ => allocate_heeds (pack items)

theorem concat_heeds (left right : Ref) : Heeds view (concat left right) (concat left right) := by
  refine (get_heeds left).bind fun first => (get_heeds right).bind fun second => ?_
  cases first <;> cases second
  case string.string first second =>
      simp only
      split
      · exact (acquire_cleans left).heeds
      split
      · exact (acquire_cleans right).heeds
      · exact allocate_heeds _
  case tuple.tuple first second =>
      simp only
      split
      · exact (acquire_cleans left).heeds
      split
      · exact (acquire_cleans right).heeds
      · exact allocateItems_heeds .tuple _
  case list.list first second => exact allocateItems_heeds .list _
  all_goals exact .raise _

theorem arithmetic_heeds (operation : Arithmetic) (left right : Ref) :
    Heeds view (arithmetic operation left right) (arithmetic operation left right) := by
  have otherwise (first second : Payload) :
      Heeds view
        (if operation = .add then concat left right
          else raise (.badOperands operation first.kind second.kind))
        (if operation = .add then concat left right
          else raise (.badOperands operation first.kind second.kind)) := by
    split
    · exact concat_heeds left right
    · exact .raise _
  refine (get_heeds left).bind fun first => (get_heeds right).bind fun second => ?_
  cases first <;> cases second
  case int.int x y =>
      simp only
      cases operation.onInts? x y with
      | some result => exact allocate_heeds (.int result)
      | none => exact .raise _
  case float.float x y => exact allocate_heeds _
  all_goals exact otherwise _ _

theorem negate_heeds (operand : Ref) : Heeds view (negate operand) (negate operand) := by
  refine (get_heeds operand).bind fun payload => ?_
  cases payload
  case int value => exact allocate_heeds _
  case float value => exact allocate_heeds _
  all_goals exact .raise _

theorem itemAt_heeds (kind : Kind) (items : Array Ref) (index : Int64) :
    Heeds view (itemAt kind items index) (itemAt kind items index) := by
  unfold itemAt
  cases (resolveIndex? index items.size).bind (items[·]?) with
  | some item => exact (acquire_cleans item).heeds
  | none => exact .raise _

theorem index_heeds (sequence : Ref) (position : Int64) :
    Heeds view (index sequence position) (index sequence position) := by
  refine (get_heeds sequence).bind fun payload => ?_
  cases payload
  case string bytes =>
      simp only
      cases (resolveIndex? position bytes.size).bind (bytes[·]?) with
      | some byte => exact allocate_heeds _
      | none => exact .raise _
  case list items => exact itemAt_heeds .list items position
  case tuple items => exact itemAt_heeds .tuple items position
  all_goals exact .raise _

theorem loopItem_heeds (sequence : Ref) (position : Nat) :
    Heeds view (loopItem sequence position) (loopItem sequence position) := by
  refine (get_heeds sequence).bind fun payload => ?_
  split
  · split
    · exact .well none
    · split
      · exact .map some (index_heeds sequence _)
      · exact .raise _
  · exact .raise _

theorem slice_heeds (sequence : Ref) (low high : Option Int64) :
    Heeds view (slice sequence low high) (slice sequence low high) := by
  refine (get_heeds sequence).bind fun payload => ?_
  cases payload
  case string bytes =>
      simp only
      split
      · exact (acquire_cleans sequence).heeds
      · exact allocate_heeds _
  case tuple items =>
      simp only
      split
      · exact (acquire_cleans sequence).heeds
      · exact allocateItems_heeds .tuple _
  case list items => exact allocateItems_heeds .list _
  all_goals exact .raise _

theorem subscript_heeds (container key : Ref) :
    Heeds view (subscript container key) (subscript container key) := by
  refine (get_heeds container).bind fun payload => (get_heeds key).bind fun found => ?_
  cases payload
  case dict table =>
      cases found
      case string bytes =>
          have read : Heeds view (reading fun _ => table.lookup bytes)
              (reading fun _ => table.lookup bytes) := .reading fun _ => rfl
          refine read.bind fun value => ?_
          cases value with
          | some value => exact (acquire_cleans value).heeds
          | none => exact .raise _
      all_goals exact .raise _
  all_goals
    cases found
    case int position => first | exact index_heeds container position | exact .raise _
    all_goals exact .raise _

/-! ## Native functions -/

theorem getOption_heeds (argument : Option Ref) :
    Heeds view (getOption argument) (getOption argument) := by
  cases argument with
  | none => exact .well none
  | some ref => exact .map some (get_heeds ref)

theorem getAll_heeds (refs : List Ref) : Heeds view (getAll refs) (getAll refs) := by
  induction refs with
  | nil => exact .well []
  | cons ref rest ih =>
      exact (get_heeds ref).bind fun first => ih.bind fun others => .well (first :: others)

theorem rangeBounds?_heeds (argument : Option Ref) :
    Heeds view (rangeBounds? argument) (rangeBounds? argument) := by
  refine (getOption_heeds argument).bind fun payload => ?_
  rcases payload with _ | payload
  · exact .well none
  cases payload
  case int high => exact .well _
  case tuple items =>
      simp only
      split
      · refine (getAll_heeds items.toList).bind fun payloads => ?_
        split <;> exact .well _
      · exact .well none
  all_goals exact .well none

theorem mathOperands?_heeds (function : MathFunction) (argument : Option Ref) :
    Heeds view (mathOperands? function argument) (mathOperands? function argument) := by
  refine (getOption_heeds argument).bind fun payload => ?_
  rcases payload with _ | payload
  · exact .well none
  simp only
  split
  · cases payload
    case tuple items =>
        simp only
        rcases items.toList with _ | ⟨first, _ | ⟨second, _ | ⟨third, rest⟩⟩⟩
        case cons.cons.nil =>
            refine (get_heeds first).bind fun x => (get_heeds second).bind fun y => ?_
            cases asDouble? x <;> cases asDouble? y <;> exact .well _
        all_goals exact .well none
    all_goals exact .well none
  · exact .well _

theorem appendTarget?_heeds (argument : Option Ref) :
    Heeds view (appendTarget? argument) (appendTarget? argument) := by
  refine (getOption_heeds argument).bind fun payload => ?_
  rcases payload with _ | payload
  · exact .well none
  cases payload
  case tuple items =>
      simp only
      rcases items.toList with _ | ⟨list, _ | ⟨item, _ | ⟨third, rest⟩⟩⟩
      case cons.cons.nil =>
          refine (get_heeds list).bind fun payload => ?_
          cases payload <;> exact .well _
      all_goals exact .well none
  all_goals exact .well none

theorem insertTarget?_heeds (argument : Option Ref) :
    Heeds view (insertTarget? argument) (insertTarget? argument) := by
  refine (getOption_heeds argument).bind fun payload => ?_
  rcases payload with _ | payload
  · exact .well none
  cases payload
  case tuple items =>
      simp only
      rcases items.toList with _ | ⟨list, _ | ⟨index, _ | ⟨item, _ | ⟨fourth, rest⟩⟩⟩⟩
      case cons.cons.cons.nil =>
          refine (get_heeds list).bind fun found => (get_heeds index).bind fun position => ?_
          cases found <;> cases position <;> exact .well _
      all_goals exact .well none
  all_goals exact .well none

/-- The argument is given back before the function goes on. -/
theorem releaseOption_heeds {next : StoreM (Seen view) α} {otherNext : StoreM π α}
    (argument : Option Ref) (rest : Heeds view next otherNext) :
    Heeds view (releaseOption argument >>= fun _ => next)
      (releaseOption argument >>= fun _ => otherNext) :=
  (releaseOption_cleans argument).heeds.bind fun _ => rest

theorem callFloat_heeds (argument : Option Ref) :
    Heeds view (callFloat argument) (callFloat argument) := by
  refine (getOption_heeds argument).bind fun payload => ?_
  rcases argument with _ | ref <;> rcases payload with _ | payload
  case some.some =>
      cases payload
      case float value => exact .well ref
      case int value => exact releaseOption_heeds _ (allocate_heeds _)
      all_goals exact releaseOption_heeds _ (.raise _)
  case none.some =>
      cases payload
      case int value => exact releaseOption_heeds _ (allocate_heeds _)
      all_goals exact releaseOption_heeds _ (.raise _)
  all_goals exact releaseOption_heeds _ (.raise _)

theorem callInt_heeds (argument : Option Ref) :
    Heeds view (callInt argument) (callInt argument) := by
  refine (getOption_heeds argument).bind fun payload => ?_
  rcases argument with _ | ref <;> rcases payload with _ | payload
  case some.some =>
      cases payload
      case int value => exact .well ref
      case float value => exact releaseOption_heeds _ (allocate_heeds _)
      all_goals exact releaseOption_heeds _ (.raise _)
  case none.some =>
      cases payload
      case float value => exact releaseOption_heeds _ (allocate_heeds _)
      all_goals exact releaseOption_heeds _ (.raise _)
  all_goals exact releaseOption_heeds _ (.raise _)

theorem callNotv_heeds (argument : Option Ref) :
    Heeds view (callNotv argument) (callNotv argument) := by
  refine (getOption_heeds argument).bind fun payload => releaseOption_heeds argument ?_
  rcases payload with _ | payload
  · exact .raise _
  cases payload
  case int value => exact (acquire_cleans _).heeds
  all_goals exact .raise _

theorem callLen_heeds (argument : Option Ref) :
    Heeds view (callLen argument) (callLen argument) := by
  refine (getOption_heeds argument).bind fun payload => ?_
  rcases payload with _ | payload
  · exact .raise _
  refine releaseOption_heeds argument ?_
  cases payload.length? with
  | some length => exact allocate_heeds _
  | none => exact .raise _

theorem allocateInts_heeds (step : Int64) (count : Nat) (current : Int64) (made : Array Ref) :
    Heeds view (allocateInts step count current made) (allocateInts step count current made) := by
  induction count generalizing current made with
  | zero => exact .well made
  | succ count ih =>
      refine (allocate_heeds (.int current)).attempt.bind fun result => ?_
      cases result with
      | ok item => exact ih (current + step) (made.push item)
      | error cause =>
          exact ((releaseAll_cleans made.toList).keeps _).bind fun _ => .throw cause

theorem callRange_heeds (argument : Option Ref) :
    Heeds view (callRange argument) (callRange argument) := by
  refine (rangeBounds?_heeds argument).bind fun bounds => releaseOption_heeds argument ?_
  rcases bounds with _ | ⟨low, high, step⟩
  · exact .raise _
  simp only
  split
  · exact .raise _
  · exact (chargeTable_heeds _).bind fun _ =>
      (allocateInts_heeds step _ low #[]).bind fun items => allocate_heeds (.list items)

theorem callAppend_heeds (argument : Option Ref) :
    Heeds view (callAppend argument) (callAppend argument) := by
  refine (appendTarget?_heeds argument).bind fun target => ?_
  refine Watches.bind (releasing_watches _ ?_) fun _ => (acquire_cleans .noneObject).heeds
  rcases target with _ | ⟨list, item⟩
  · exact .raise _
  · exact (acquire_cleans item).heeds.bind fun _ => listAppend_heeds list item

theorem callInsert_heeds (argument : Option Ref) :
    Heeds view (callInsert argument) (callInsert argument) := by
  refine (insertTarget?_heeds argument).bind fun target => ?_
  refine Watches.bind (releasing_watches _ ?_) fun _ => (acquire_cleans .noneObject).heeds
  rcases target with _ | ⟨list, index, item⟩
  · exact .raise _
  · exact (acquire_cleans item).heeds.bind fun _ => listInsert_heeds list index item

theorem callPass_heeds (argument : Option Ref) :
    Heeds view (callPass argument) (callPass argument) :=
  releaseOption_heeds argument (acquire_cleans .noneObject).heeds

theorem callMath_heeds (function : MathFunction) (argument : Option Ref) :
    Heeds view (callMath function argument) (callMath function argument) := by
  refine (mathOperands?_heeds function argument).bind fun operands =>
    releaseOption_heeds argument ?_
  rcases operands with _ | ⟨x, y⟩
  · exact .raise _
  · refine Watches.bind ?_ fun result => allocate_heeds (.float result)
    cases function.evaluate x y with
    | ok result => exact .well result
    | error cause => exact .raise cause

theorem callNative_heeds (function : Native) (argument : Option Ref) :
    Heeds view (callNative function argument) (callNative function argument) := by
  cases function with
  | math function => exact callMath_heeds function argument
  | builtin builtin =>
      cases builtin with
      | float => exact callFloat_heeds argument
      | int => exact callInt_heeds argument
      | len => exact callLen_heeds argument
      | range => exact callRange_heeds argument
      | append => exact callAppend_heeds argument
      | insert => exact callInsert_heeds argument
      | pass => exact callPass_heeds argument
      | notv => exact callNotv_heeds argument

/-! ## Attributes and modules -/

theorem acquireNamed_heeds (name : String) (found : Option Ref) :
    Heeds view (acquireNamed name found) (acquireNamed name found) := by
  cases found with
  | some ref => exact (acquire_cleans ref).heeds
  | none => exact .raise _

theorem bind_heeds (function member : Ref) :
    Heeds view (bind function member) (bind function member) :=
  (acquire_cleans function).heeds.bind fun _ => (acquire_cleans member).heeds.bind fun _ =>
    allocate_heeds (.method function member)

theorem loadAttr_heeds (object : Ref) (name : String) :
    Heeds view (loadAttr object name) (loadAttr object name) := by
  refine (get_heeds object).bind fun payload => ?_
  cases payload
  case module title attrs =>
      simp only
      split
      · exact (acquire_cleans attrs).heeds
      split
      · exact (acquire_cleans title).heeds
      · exact (dictLookup_heeds attrs _).bind fun found => acquireNamed_heeds name found
  case class_ attrs =>
      exact (dictLookup_heeds attrs _).bind fun found => acquireNamed_heeds name found
  case member owner attrs =>
      refine (dictLookup_heeds attrs _).bind fun found => ?_
      cases found with
      | some value => exact (acquire_cleans value).heeds
      | none =>
          refine (get_heeds owner).bind fun owner => ?_
          cases owner
          case class_ shared =>
              refine (dictLookup_heeds shared _).bind fun found => ?_
              cases found with
              | none => exact .raise _
              | some value =>
                  refine (get_heeds value).bind fun payload => ?_
                  cases payload
                  case function code globals => exact bind_heeds value object
                  all_goals exact (acquire_cleans value).heeds
          all_goals exact .raise _
  all_goals exact .raise _

theorem storeAttr_heeds (object : Ref) (name : String) (value : Ref) :
    Heeds view (storeAttr object name value) (storeAttr object name value) := by
  refine (get_heeds object).bind fun payload => ?_
  cases payload
  case member owner attrs => exact dictInsert_heeds attrs _ value
  case module title attrs =>
      simp only
      split
      · exact (release_cleans value).heeds.bind fun _ => .raise _
      · exact dictInsert_heeds attrs _ value
  all_goals exact (release_cleans value).heeds.bind fun _ => .raise _

theorem enterModule_heeds (name : String) (module : Ref) :
    Heeds view (enterModule name module) (enterModule name module) :=
  (acquire_cleans module).heeds.bind fun _ =>
    (orRelease_watches [module] (dictInsert_heeds .modules _ module)).bind fun _ => .well module

theorem newModule_heeds (name : String) (attrs : Ref) :
    Heeds view (newModule name attrs) (newModule name attrs) :=
  (orRelease_watches [attrs] (allocate_heeds _)).bind fun title =>
    allocate_heeds (.module title attrs)

theorem registerModule_heeds (name : String) :
    Heeds view (registerModule name) (registerModule name) :=
  (allocate_heeds (.dict .empty)).bind fun attrs =>
    (newModule_heeds name attrs).bind fun module => enterModule_heeds name module

theorem installMath_heeds (attrs : Ref) (functions : List MathFunction) :
    Heeds view (installMath attrs functions) (installMath attrs functions) := by
  induction functions with
  | nil => exact .well ()
  | cons function rest ih =>
      exact (allocate_heeds (.native (.math function))).bind fun value =>
        (dictInsert_heeds attrs _ value).bind fun _ => ih

theorem newMath_heeds : Heeds view newMath newMath :=
  (allocate_heeds (.dict .empty)).bind fun attrs =>
    (orRelease_watches [attrs] (installMath_heeds attrs _)).bind fun _ =>
      newModule_heeds mathName attrs

theorem importModule_heeds (name : String) :
    Heeds view (importModule name) (importModule name) := by
  refine (dictLookup_heeds .modules _).bind fun found => ?_
  cases found with
  | some module => exact (acquire_cleans module).heeds
  | none =>
      simp only
      split
      · exact newMath_heeds.bind fun module => enterModule_heeds name module
      · exact .raise _

/-! ## Comparisons -/

section Comparing

variable (store : Store (Seen view))

theorem compareWithin_plain (room : Nat) :
    (plain store : Store π).compareWithin room = store.compareWithin room := by
  induction room with
  | zero => rfl
  | succ room ih =>
      funext left right
      unfold Store.compareWithin
      simp only [ih]
      rfl

theorem compareRefs_plain (left right : Ref) :
    (plain store : Store π).compareRefs left right = store.compareRefs left right := by
  unfold Store.compareRefs
  rw [compareWithin_plain]

theorem anyEqual_plain (item : Ref) (candidates : List Ref) :
    (plain store : Store π).anyEqual item candidates = store.anyEqual item candidates := by
  induction candidates with
  | nil => rfl
  | cons candidate rest ih =>
      unfold Store.anyEqual
      rw [compareRefs_plain, ih]

theorem contains_plain (sequence item : Ref) :
    (plain store : Store π).contains sequence item = store.contains sequence item := by
  have same : (plain store : Store π).get = store.get := rfl
  unfold Store.contains
  simp only [anyEqual_plain, same]

theorem test_plain (comparison : Comparison) (left right : Ref) :
    (plain store : Store π).test comparison left right = store.test comparison left right := by
  cases comparison
  case errorMatch => rfl
  all_goals simp only [Store.test, contains_plain, compareRefs_plain]

end Comparing

/-! ## Frames and instructions -/

theorem getCode_heeds (code : Ref) :
    Heeds view (MachineM.getCode code) (MachineM.getCode code) := by
  refine (get_heeds code).bind fun payload => ?_
  cases payload
  case code object => exact .well object
  all_goals exact .raise _

theorem requireDict_heeds (ref : Ref) :
    Heeds view (MachineM.requireDict ref) (MachineM.requireDict ref) := by
  refine (get_heeds ref).bind fun payload => ?_
  cases payload
  case dict table => exact .well ()
  all_goals exact .raise _

theorem openFrame_heeds (back : Option Ref) (depth base : Nat) (code globals locals : Ref) :
    Heeds view (MachineM.openFrame back depth base code globals locals)
      (MachineM.openFrame back depth base code globals locals) := by
  have charged : Heeds view (MachineM.chargeFrame depth) (MachineM.chargeFrame depth) := by
    rw [chargeFrame_eq, chargeFrame_eq]
    exact ask_heeds (.enter depth)
  have made : Heeds view (MachineM.newFrame back code globals locals)
      (MachineM.newFrame back code globals locals) :=
    (acquireAll_cleans _).heeds.bind fun _ => allocate_heeds (.frame back code globals locals)
  exact charged.bind fun _ => (getCode_heeds code).bind fun object =>
    (requireDict_heeds globals).bind fun _ => (requireDict_heeds locals).bind fun _ =>
      made.bind fun frame => .well _

theorem instantiate_heeds (owner : Ref) (argument : Option Ref) :
    Heeds view (MachineM.instantiate owner argument) (MachineM.instantiate owner argument) := by
  cases argument with
  | some argument => exact (release_cleans argument).heeds.bind fun _ => .raise _
  | none =>
      exact (allocate_heeds (.dict .empty)).bind fun attrs =>
        (acquire_cleans owner).heeds.bind fun _ => allocate_heeds (.member owner attrs)

theorem methodArgument_heeds (function self : Ref) (argument : Option Ref) :
    Heeds view (MachineM.methodArgument function self argument)
      (MachineM.methodArgument function self argument) := by
  cases argument with
  | none => exact .well self
  | some argument => exact orRelease_watches [function] (allocate_heeds _)

theorem subscriptPlace_heeds (container key : Ref) :
    Heeds view (FrameM.subscriptPlace container key) (FrameM.subscriptPlace container key) := by
  refine (get_heeds container).bind fun payload => (get_heeds key).bind fun found => ?_
  cases payload
  case list items =>
      cases found
      case int index => exact .well _
      all_goals exact .raise _
  case dict table =>
      cases found
      case string bytes => exact .well _
      all_goals exact .raise _
  all_goals exact .raise _

theorem assignItem_heeds (list : Ref) (index : Int64) (value : Ref) :
    Heeds view (FrameM.assignItem list index value) (FrameM.assignItem list index value) := by
  refine lendingList_heeds list [value] fun items => ?_
  cases resolveIndex? index items.size with
  | some position => exact replaceItem_changes .list position value items
  | none => exact (worked_after (release_cleans value) (items, .error _)).weaken

theorem sliceBound_heeds (bound : Option Ref) :
    Heeds view (FrameM.sliceBound bound) (FrameM.sliceBound bound) := by
  cases bound with
  | none => exact .well none
  | some ref =>
      refine (get_heeds ref).bind fun payload => ?_
      cases payload
      case int value => exact .well _
      all_goals exact .raise _

theorem firstOf_heeds (key : Bytes) (dicts : List Ref) :
    Heeds view (FrameM.firstOf key dicts) (FrameM.firstOf key dicts) := by
  induction dicts with
  | nil => exact .well none
  | cons dict rest ih =>
      refine (dictLookup_heeds dict key).bind fun found => ?_
      cases found with
      | some value => exact .well _
      | none => exact ih

end StackMachine.StoreM
