import StackMachine.Proofs.Evolution.Store

/-!
# Paths of programs' operations

What programs and hosts do to the store is put together from operations that take it along
paths, so it takes the store along a path as well.
-/

namespace StackMachine.StoreM

open Outcome Relation Store

variable {τ α : Type} [Tracker τ]

/-! ## Sequences and arithmetic -/

theorem allocateItems_evolves {pack : Array Ref → Payload} (items : Array Ref)
    (simple : decide (pack items).IsSimple = true) :
    Evolves (allocateItems pack items : StoreM τ Ref) :=
  (acquireAll_evolves items.toList).bind fun _ => allocate_evolves (pack items) simple

theorem concat_evolves (left right : Ref) : Evolves (concat left right : StoreM τ Ref) := by
  refine (get_evolves left).bind fun first => (get_evolves right).bind fun second => ?_
  cases first <;> cases second
  case string.string first second =>
      simp only
      split
      · exact acquire_evolves left
      split
      · exact acquire_evolves right
      · exact allocate_evolves _ rfl
  case tuple.tuple first second =>
      simp only
      split
      · exact acquire_evolves left
      split
      · exact acquire_evolves right
      · exact allocateItems_evolves _ rfl
  case list.list first second => exact allocateItems_evolves _ rfl
  all_goals exact .throw _

theorem arithmetic_evolves (operation : Arithmetic) (left right : Ref) :
    Evolves (arithmetic operation left right : StoreM τ Ref) := by
  have otherwise (first second : Payload) :
      Evolves (if operation = .add then concat left right
          else raise (.badOperands operation first.kind second.kind) : StoreM τ Ref) := by
    split
    · exact concat_evolves left right
    · exact .throw _
  refine (get_evolves left).bind fun first => (get_evolves right).bind fun second => ?_
  cases first <;> cases second
  case int.int x y =>
      simp only
      cases operation.onInts? x y with
      | some result => exact allocate_evolves (.int result) rfl
      | none => exact .throw _
  case float.float x y => exact allocate_evolves _ rfl
  all_goals exact otherwise _ _

theorem negate_evolves (operand : Ref) : Evolves (negate operand : StoreM τ Ref) := by
  refine (get_evolves operand).bind fun payload => ?_
  cases payload
  case int value => exact allocate_evolves _ rfl
  case float value => exact allocate_evolves _ rfl
  all_goals exact .throw _

theorem itemAt_evolves (kind : Kind) (items : Array Ref) (index : Int64) :
    Evolves (itemAt kind items index : StoreM τ Ref) := by
  unfold itemAt
  cases (resolveIndex? index items.size).bind (items[·]?) with
  | some item => exact acquire_evolves item
  | none => exact .throw _

theorem index_evolves (sequence : Ref) (position : Int64) :
    Evolves (index sequence position : StoreM τ Ref) := by
  refine (get_evolves sequence).bind fun payload => ?_
  cases payload
  case string bytes =>
      simp only
      cases (resolveIndex? position bytes.size).bind (bytes[·]?) with
      | some byte => exact allocate_evolves _ rfl
      | none => exact .throw _
  case list items => exact itemAt_evolves .list items position
  case tuple items => exact itemAt_evolves .tuple items position
  all_goals exact .throw _

theorem loopItem_evolves (sequence : Ref) (position : Nat) :
    Evolves (loopItem sequence position : StoreM τ (Option Ref)) := by
  refine (get_evolves sequence).bind fun payload => ?_
  split
  · split
    · exact .pure none
    · split
      · exact .map (index_evolves sequence _) some
      · exact .throw _
  · exact .throw _

theorem slice_evolves (sequence : Ref) (low high : Option Int64) :
    Evolves (slice sequence low high : StoreM τ Ref) := by
  refine (get_evolves sequence).bind fun payload => ?_
  cases payload
  case string bytes =>
      simp only
      split
      · exact acquire_evolves sequence
      · exact allocate_evolves _ rfl
  case tuple items =>
      simp only
      split
      · exact acquire_evolves sequence
      · exact allocateItems_evolves _ rfl
  case list items => exact allocateItems_evolves _ rfl
  all_goals exact .throw _

theorem subscript_evolves (container key : Ref) :
    Evolves (subscript container key : StoreM τ Ref) := by
  refine (get_evolves container).bind fun payload => (get_evolves key).bind fun found => ?_
  cases payload
  case dict table =>
      cases found
      case string bytes =>
          refine Advances.bind (.reading _) fun value => ?_
          cases value with
          | some value => exact acquire_evolves value
          | none => exact .throw _
      all_goals exact .throw _
  all_goals
    cases found
    case int position => first | exact index_evolves container position | exact .throw _
    all_goals exact .throw _

/-! ## Native functions -/

theorem getOption_evolves (argument : Option Ref) :
    Evolves (getOption argument : StoreM τ (Option Payload)) := by
  cases argument with
  | none => exact .pure none
  | some ref => exact .map (get_evolves ref) some

theorem getAll_evolves (refs : List Ref) : Evolves (getAll refs : StoreM τ (List Payload)) := by
  induction refs with
  | nil => exact .pure []
  | cons ref rest ih =>
      exact (get_evolves ref).bind fun first => ih.bind fun others => .pure (first :: others)

theorem rangeBounds?_evolves (argument : Option Ref) :
    Evolves (rangeBounds? argument : StoreM τ _) := by
  refine (getOption_evolves argument).bind fun payload => ?_
  rcases payload with _ | payload
  · exact .pure none
  cases payload
  case int high => exact .pure _
  case tuple items =>
      simp only
      split
      · refine (getAll_evolves items.toList).bind fun payloads => ?_
        split <;> exact .pure _
      · exact .pure none
  all_goals exact .pure none

theorem mathOperands?_evolves (function : MathFunction) (argument : Option Ref) :
    Evolves (mathOperands? function argument : StoreM τ _) := by
  refine (getOption_evolves argument).bind fun payload => ?_
  rcases payload with _ | payload
  · exact .pure none
  simp only
  split
  · cases payload
    case tuple items =>
        simp only
        rcases items.toList with _ | ⟨first, _ | ⟨second, _ | ⟨third, rest⟩⟩⟩
        case cons.cons.nil =>
            refine (get_evolves first).bind fun x => (get_evolves second).bind fun y => ?_
            cases asDouble? x <;> cases asDouble? y <;> exact .pure _
        all_goals exact .pure none
    all_goals exact .pure none
  · exact .pure _

theorem appendTarget?_evolves (argument : Option Ref) :
    Evolves (appendTarget? argument : StoreM τ _) := by
  refine (getOption_evolves argument).bind fun payload => ?_
  rcases payload with _ | payload
  · exact .pure none
  cases payload
  case tuple items =>
      simp only
      rcases items.toList with _ | ⟨list, _ | ⟨item, _ | ⟨third, rest⟩⟩⟩
      case cons.cons.nil =>
          refine (get_evolves list).bind fun payload => ?_
          cases payload <;> exact .pure _
      all_goals exact .pure none
  all_goals exact .pure none

theorem insertTarget?_evolves (argument : Option Ref) :
    Evolves (insertTarget? argument : StoreM τ _) := by
  refine (getOption_evolves argument).bind fun payload => ?_
  rcases payload with _ | payload
  · exact .pure none
  cases payload
  case tuple items =>
      simp only
      rcases items.toList with _ | ⟨list, _ | ⟨index, _ | ⟨item, _ | ⟨fourth, rest⟩⟩⟩⟩
      case cons.cons.cons.nil =>
          refine (get_evolves list).bind fun found => (get_evolves index).bind fun position => ?_
          cases found <;> cases position <;> exact .pure _
      all_goals exact .pure none
  all_goals exact .pure none

theorem callFloat_evolves (argument : Option Ref) :
    Evolves (callFloat argument : StoreM τ Ref) := by
  refine (getOption_evolves argument).bind fun payload => ?_
  rcases argument with _ | ref <;> rcases payload with _ | payload
  case some.some =>
      cases payload
      case float value => exact .pure ref
      case int value => exact releaseOption_evolves _ (allocate_evolves _ rfl)
      all_goals exact releaseOption_evolves _ (.throw _)
  case none.some =>
      cases payload
      case int value => exact releaseOption_evolves _ (allocate_evolves _ rfl)
      all_goals exact releaseOption_evolves _ (.throw _)
  all_goals exact releaseOption_evolves _ (.throw _)

theorem callInt_evolves (argument : Option Ref) :
    Evolves (callInt argument : StoreM τ Ref) := by
  refine (getOption_evolves argument).bind fun payload => ?_
  rcases argument with _ | ref <;> rcases payload with _ | payload
  case some.some =>
      cases payload
      case int value => exact .pure ref
      case float value => exact releaseOption_evolves _ (allocate_evolves _ rfl)
      all_goals exact releaseOption_evolves _ (.throw _)
  case none.some =>
      cases payload
      case float value => exact releaseOption_evolves _ (allocate_evolves _ rfl)
      all_goals exact releaseOption_evolves _ (.throw _)
  all_goals exact releaseOption_evolves _ (.throw _)

theorem callNotv_evolves (argument : Option Ref) :
    Evolves (callNotv argument : StoreM τ Ref) := by
  refine (getOption_evolves argument).bind fun payload => releaseOption_evolves argument ?_
  rcases payload with _ | payload
  · exact .throw _
  cases payload
  case int value => exact acquire_evolves _
  all_goals exact .throw _

theorem callLen_evolves (argument : Option Ref) :
    Evolves (callLen argument : StoreM τ Ref) := by
  refine (getOption_evolves argument).bind fun payload => ?_
  rcases payload with _ | payload
  · exact .throw _
  refine releaseOption_evolves argument ?_
  cases payload.length? with
  | some length => exact allocate_evolves _ rfl
  | none => exact .throw _

theorem allocateInts_evolves (step : Int64) (count : Nat) (current : Int64) (made : Array Ref) :
    Evolves (allocateInts step count current made : StoreM τ (Array Ref)) := by
  induction count generalizing current made with
  | zero => exact .pure made
  | succ count ih =>
      refine (allocate_evolves (.int current) rfl).attempt.bind fun result => ?_
      cases result with
      | ok item => exact ih (current + step) (made.push item)
      | error cause =>
          exact (releaseAll_evolves made.toList).bind fun _ => .throw cause

theorem callRange_evolves (argument : Option Ref) :
    Evolves (callRange argument : StoreM τ Ref) := by
  refine (rangeBounds?_evolves argument).bind fun bounds => releaseOption_evolves argument ?_
  rcases bounds with _ | ⟨low, high, step⟩
  · exact .throw _
  simp only
  split
  · exact .throw _
  · exact (chargeTable_evolves _).bind fun _ =>
      (allocateInts_evolves step _ low #[]).bind fun items => allocate_evolves (.list items) rfl

theorem callAppend_evolves (argument : Option Ref) :
    Evolves (callAppend argument : StoreM τ Ref) := by
  refine (appendTarget?_evolves argument).bind fun target => ?_
  refine Advances.bind (releasing_evolves _ ?_) fun _ => (acquire_evolves .noneObject)
  rcases target with _ | ⟨list, item⟩
  · exact .throw _
  · exact (acquire_evolves item).bind fun _ => listAppend_evolves list item

theorem callInsert_evolves (argument : Option Ref) :
    Evolves (callInsert argument : StoreM τ Ref) := by
  refine (insertTarget?_evolves argument).bind fun target => ?_
  refine Advances.bind (releasing_evolves _ ?_) fun _ => (acquire_evolves .noneObject)
  rcases target with _ | ⟨list, index, item⟩
  · exact .throw _
  · exact (acquire_evolves item).bind fun _ => listInsert_evolves list index item

theorem callPass_evolves (argument : Option Ref) :
    Evolves (callPass argument : StoreM τ Ref) :=
  releaseOption_evolves argument (acquire_evolves .noneObject)

theorem callMath_evolves (function : MathFunction) (argument : Option Ref) :
    Evolves (callMath function argument : StoreM τ Ref) := by
  refine (mathOperands?_evolves function argument).bind fun operands =>
    releaseOption_evolves argument ?_
  rcases operands with _ | ⟨x, y⟩
  · exact .throw _
  · refine Advances.bind ?_ fun result => allocate_evolves (.float result) rfl
    cases function.evaluate x y with
    | ok result => exact .pure result
    | error cause => exact .throw cause

theorem callNative_evolves (function : Native) (argument : Option Ref) :
    Evolves (callNative function argument : StoreM τ Ref) := by
  cases function with
  | math function => exact callMath_evolves function argument
  | builtin builtin =>
      cases builtin with
      | float => exact callFloat_evolves argument
      | int => exact callInt_evolves argument
      | len => exact callLen_evolves argument
      | range => exact callRange_evolves argument
      | append => exact callAppend_evolves argument
      | insert => exact callInsert_evolves argument
      | pass => exact callPass_evolves argument
      | notv => exact callNotv_evolves argument

/-! ## Attributes and modules -/

theorem acquireNamed_evolves (name : String) (found : Option Ref) :
    Evolves (acquireNamed name found : StoreM τ Ref) := by
  cases found with
  | some ref => exact acquire_evolves ref
  | none => exact .throw _

theorem bind_evolves (function member : Ref) :
    Evolves (bind function member : StoreM τ Ref) :=
  (acquire_evolves function).bind fun _ => (acquire_evolves member).bind fun _ =>
    allocate_evolves (.method function member) rfl

theorem loadAttr_evolves (object : Ref) (name : String) :
    Evolves (loadAttr object name : StoreM τ Ref) := by
  refine (get_evolves object).bind fun payload => ?_
  cases payload
  case module title attrs =>
      simp only
      split
      · exact acquire_evolves attrs
      split
      · exact acquire_evolves title
      · exact (dictLookup_evolves attrs _).bind fun found => acquireNamed_evolves name found
  case class_ attrs =>
      exact (dictLookup_evolves attrs _).bind fun found => acquireNamed_evolves name found
  case member owner attrs =>
      refine (dictLookup_evolves attrs _).bind fun found => ?_
      cases found with
      | some value => exact acquire_evolves value
      | none =>
          refine (get_evolves owner).bind fun owner => ?_
          cases owner
          case class_ shared =>
              refine (dictLookup_evolves shared _).bind fun found => ?_
              cases found with
              | none => exact .throw _
              | some value =>
                  refine (get_evolves value).bind fun payload => ?_
                  cases payload
                  case function code globals => exact bind_evolves value object
                  all_goals exact acquire_evolves value
          all_goals exact .throw _
  all_goals exact .throw _

theorem storeAttr_evolves (object : Ref) (name : String) (value : Ref) :
    Evolves (storeAttr object name value : StoreM τ Unit) := by
  refine (get_evolves object).bind fun payload => ?_
  cases payload
  case member owner attrs => exact dictInsert_evolves attrs _ value
  case module title attrs =>
      simp only
      split
      · exact (release_evolves value).bind fun _ => .throw _
      · exact dictInsert_evolves attrs _ value
  all_goals exact (release_evolves value).bind fun _ => .throw _

theorem enterModule_evolves (name : String) (module : Ref) :
    Evolves (enterModule name module : StoreM τ Ref) :=
  (acquire_evolves module).bind fun _ =>
    (orRelease_evolves [module] (dictInsert_evolves .modules _ module)).bind fun _ => .pure module

theorem newModule_evolves (name : String) (attrs : Ref) :
    Evolves (newModule name attrs : StoreM τ Ref) :=
  (orRelease_evolves [attrs] (allocate_evolves (.string (Bytes.ofString name)) rfl)).bind
    fun title => allocate_evolves (.module title attrs) rfl

theorem registerModule_evolves (name : String) :
    Evolves (registerModule name : StoreM τ Ref) :=
  allocateDict_evolves.bind fun attrs =>
    (newModule_evolves name attrs).bind fun module => enterModule_evolves name module

theorem installMath_evolves (attrs : Ref) (functions : List MathFunction) :
    Evolves (installMath attrs functions : StoreM τ Unit) := by
  induction functions with
  | nil => exact .pure ()
  | cons function rest ih =>
      exact (allocate_evolves (.native (.math function)) rfl).bind fun value =>
        (dictInsert_evolves attrs _ value).bind fun _ => ih

theorem newMath_evolves : Evolves (newMath : StoreM τ Ref) :=
  allocateDict_evolves.bind fun attrs =>
    (orRelease_evolves [attrs] (installMath_evolves attrs _)).bind fun _ =>
      newModule_evolves mathName attrs

theorem importModule_evolves (name : String) :
    Evolves (importModule name : StoreM τ Ref) := by
  refine (dictLookup_evolves .modules _).bind fun found => ?_
  cases found with
  | some module => exact acquire_evolves module
  | none =>
      simp only
      split
      · exact newMath_evolves.bind fun module => enterModule_evolves name module
      · exact .throw _

/-! ## Frames and instructions -/

theorem getCode_evolves (code : Ref) :
    Evolves (MachineM.getCode code : StoreM τ CodeObject) := by
  refine (get_evolves code).bind fun payload => ?_
  cases payload
  case code object => exact .pure object
  all_goals exact .throw _

theorem requireDict_evolves (ref : Ref) :
    Evolves (MachineM.requireDict ref : StoreM τ Unit) := by
  refine (get_evolves ref).bind fun payload => ?_
  cases payload
  case dict table => exact .pure ()
  all_goals exact .throw _

theorem instantiate_evolves (owner : Ref) (argument : Option Ref) :
    Evolves (MachineM.instantiate owner argument : StoreM τ Ref) := by
  cases argument with
  | some argument => exact (release_evolves argument).bind fun _ => .throw _
  | none =>
      exact allocateDict_evolves.bind fun attrs =>
        (acquire_evolves owner).bind fun _ => allocate_evolves (.member owner attrs) rfl

theorem methodArgument_evolves (function self : Ref) (argument : Option Ref) :
    Evolves (MachineM.methodArgument function self argument : StoreM τ Ref) := by
  cases argument with
  | none => exact .pure self
  | some argument => exact orRelease_evolves [function] (allocate_evolves _ rfl)

theorem subscriptPlace_evolves (container key : Ref) :
    Evolves (FrameM.subscriptPlace container key : StoreM τ FrameM.Place) := by
  refine (get_evolves container).bind fun payload => (get_evolves key).bind fun found => ?_
  cases payload
  case list items =>
      cases found
      case int index => exact .pure _
      all_goals exact .throw _
  case dict table =>
      cases found
      case string bytes => exact .pure _
      all_goals exact .throw _
  all_goals exact .throw _

theorem assignItem_evolves (list : Ref) (index : Int64) (value : Ref) :
    Evolves (FrameM.assignItem list index value : StoreM τ Unit) := by
  refine lendingList_evolves list [value] fun items => ?_
  cases resolveIndex? index items.size with
  | some position => exact replaceItem_refits_list position value items
  | none => exact refused_refits items _ (release_tidies value)

theorem sliceBound_evolves (bound : Option Ref) :
    Evolves (FrameM.sliceBound bound : StoreM τ (Option Int64)) := by
  cases bound with
  | none => exact .pure none
  | some ref =>
      refine (get_evolves ref).bind fun payload => ?_
      cases payload
      case int value => exact .pure _
      all_goals exact .throw _

theorem firstOf_evolves (key : Bytes) (dicts : List Ref) :
    Evolves (FrameM.firstOf key dicts : StoreM τ (Option Ref)) := by
  induction dicts with
  | nil => exact .pure none
  | cons dict rest ih =>
      refine (dictLookup_evolves dict key).bind fun found => ?_
      cases found with
      | some value => exact .pure _
      | none => exact ih

/-! ## Loading images -/

mutual

theorem loadImage_evolves (image : Image) : Evolves (loadImage image : StoreM τ Ref) := by
  match image with
  | { file, bytecode, constants, names } =>
      unfold loadImage
      exact (loadConstants_evolves constants #[]).bind fun _ => allocate_evolves _ rfl

theorem loadConstant_evolves (constant : Constant) :
    Evolves (loadConstant constant : StoreM τ Ref) := by
  match constant with
  | .none =>
      unfold loadConstant
      exact acquire_evolves _
  | .int _ | .float _ | .text _ =>
      unfold loadConstant
      exact allocate_evolves _ rfl
  | .code image =>
      unfold loadConstant
      exact loadImage_evolves image

theorem loadConstants_evolves (constants : List Constant) (loaded : Array Ref) :
    Evolves (loadConstants constants loaded : StoreM τ (Array Ref)) := by
  match constants with
  | [] =>
      unfold loadConstants
      exact .pure loaded
  | constant :: rest =>
      unfold loadConstants
      refine (loadConstant_evolves constant).attempt.bind fun result => ?_
      cases result with
      | ok ref => exact loadConstants_evolves rest (loaded.push ref)
      | error cause => exact (releaseAll_evolves loaded.toList).bind fun _ => .throw cause

end

end StackMachine.StoreM
