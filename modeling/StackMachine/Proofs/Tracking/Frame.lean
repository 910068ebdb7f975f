import StackMachine.Proofs.Tracking.Operations

/-!
# Instructions on a watched store

An instruction works on the values and the activation of its frame, which the tracker
knows nothing of, and on the store.  So it accounts for the refusals it meets as its
operations on the store do.
-/

namespace StackMachine

variable {τ ρ π α : Type} [Tracker τ] [Tracker ρ] [Tracker π] {view : View τ ρ π}

instance : Watching (FrameState (Seen view)) (FrameState π) τ ρ where
  plain state := ⟨Watching.plain state.store, state.values, state.activation⟩
  watched state := state.store.tracker
  agrees := view.agrees

namespace FrameM

open Outcome Watching

/-- An operation within a frame, with a watched tracker and with what is seen of it, that fails for
every refusal it meets. -/
abbrev Heeds (view : View τ ρ π) (act : FrameM (Seen view) α)
    (other : FrameM π α) : Prop :=
  Outcome.Heeds act other

/-- An operation within a frame, with a watched tracker and with what is seen of it, that meets no
refusal and does not fail. -/
abbrev Cleans (view : View τ ρ π) (act : FrameM (Seen view) α)
    (other : FrameM π α) : Prop :=
  Tidies Entry.Granted act other

/-- What an operation on the store does does not depend on the frame. -/
theorem onStore_mirrors {act : StoreM (Seen view) α} {other : StoreM π α}
    {state : FrameState (Seen view)} {returns : α → Store (Seen view) → Prop}
    {stops : Stop Cause → Store (Seen view) → Prop}
    (mirrors : Mirrors act other state.store returns stops) :
    Mirrors (onStore act) (onStore other) state (fun value after => returns value after.store)
      fun stop after => stops stop after.store := by
  obtain ⟨store, values, activation⟩ := state
  have plainly : onStore other (plain (⟨store, values, activation⟩ : FrameState (Seen view))) =
      onStore other ⟨plain store, values, activation⟩ := rfl
  cases mirrors with
  | ok value after ran same continues holds =>
      refine .ok value ⟨after, values, activation⟩ ?_ (fun agreed => ?_) continues holds
      · rw [onStore, ran]
      · rw [plainly, onStore, same agreed]
        rfl
  | error stop after ran same continues holds =>
      refine .error stop ⟨after, values, activation⟩ ?_ (fun agreed => ?_) continues holds
      · rw [onStore, ran]
      · rw [plainly, onStore, same agreed]
        rfl

theorem onStore_watches {act : StoreM (Seen view) α} {other : StoreM π α} {before : Fate}
    {fate : α → Fate} (watches : Watches before act other fate) :
    Watches before (onStore act) (onStore other) fate := by
  intro state since accounts
  refine (onStore_mirrors (watches state.store since accounts)).mono (fun _ _ => id) ?_
  intro stop after
  cases stop <;> exact id

theorem onStore_cleans {act : StoreM (Seen view) α} {other : StoreM π α}
    (cleans : StoreM.Cleans view act other) : Cleans view (onStore act) (onStore other) :=
  fun state => onStore_mirrors (cleans state.store)

theorem releaseAll_cleans (refs : List Ref) : Cleans view (releaseAll refs) (releaseAll refs) :=
  onStore_cleans (StoreM.releaseAll_cleans refs)

theorem acquire_heeds (ref : Ref) :
    Heeds view (onStore (StoreM.acquire ref)) (onStore (StoreM.acquire ref)) :=
  (onStore_cleans (StoreM.acquire_cleans ref)).heeds

theorem get_heeds (ref : Ref) :
    Heeds view (onStore (StoreM.get ref)) (onStore (StoreM.get ref)) :=
  onStore_watches (StoreM.get_heeds ref)

/-! ## Values and activations -/

theorem asks_cleans (read : Activation → α) : Cleans view (asks read) (asks read) :=
  fun state => .ok _ state rfl (fun _ => rfl) (.refl _) (.refl _ state)

theorem update_cleans (change : Activation → Activation) :
    Cleans view (update change) (update change) :=
  fun state => .ok () { state with activation := change state.activation } rfl (fun _ => rfl)
    (.refl _) (.refl _ state)

theorem allValues_cleans : Cleans view allValues allValues :=
  fun state => .ok _ state rfl (fun _ => rfl) (.refl _) (.refl _ state)

theorem setValues_cleans (values : Stack Ref) : Cleans view (setValues values) (setValues values) :=
  fun state => .ok () { state with values } rfl (fun _ => rfl) (.refl _) (.refl _ state)

theorem drainTo_cleans (level : Nat) : Cleans view (drainTo level) (drainTo level) :=
  allValues_cleans.bind fun _ => (asks_cleans _).bind fun _ => (setValues_cleans _).bind fun _ =>
    onStore_cleans (StoreM.releaseAll_cleans _)

theorem asks_heeds (read : Activation → α) : Heeds view (asks read) (asks read) :=
  (asks_cleans read).heeds

theorem update_heeds (change : Activation → Activation) :
    Heeds view (update change) (update change) :=
  (update_cleans change).heeds

theorem allValues_heeds : Heeds view allValues allValues :=
  allValues_cleans.heeds

theorem setValues_heeds (values : Stack Ref) : Heeds view (setValues values) (setValues values) :=
  (setValues_cleans values).heeds

theorem push_heeds (value : Ref) : Heeds view (push value) (push value) :=
  allValues_heeds.bind fun _ => setValues_heeds _

theorem pushAll_heeds (values : List Ref) : Heeds view (pushAll values) (pushAll values) :=
  allValues_heeds.bind fun _ => setValues_heeds _

theorem depth_heeds : Heeds view depth depth := by
  intro state since accounts
  by_cases reaches : state.activation.base ≤ state.values.height
  · have enough : (plain state : FrameState π).activation.base ≤
        (plain state : FrameState π).values.height := reaches
    refine .ok (state.values.height - state.activation.base) state ?_ (fun _ => ?_) (.refl _)
      accounts
    · rw [depth, if_pos reaches]
    · rw [depth, if_pos enough]
      rfl
  · have short : ¬ (plain state : FrameState π).activation.base ≤
        (plain state : FrameState π).values.height := reaches
    refine .error (.fault .shortStack) state ?_ (fun _ => ?_) (.refl _) trivial
    · rw [depth, if_neg reaches]
    · rw [depth, if_neg short]

theorem requireDepth_heeds (count : Nat) :
    Heeds view (requireDepth count) (requireDepth count) := by
  refine depth_heeds.bind fun depth => ?_
  split
  · exact .raise _
  · exact .well ()

theorem takeTop_heeds : Heeds view takeTop takeTop := by
  refine allValues_heeds.bind fun values => ?_
  cases values.items with
  | nil => exact .fault _
  | cons top rest => exact (setValues_heeds _).bind fun _ => .well top

theorem takeMany_heeds (count : Nat) : Heeds view (takeMany count) (takeMany count) := by
  refine allValues_heeds.bind fun values => ?_
  split
  · exact .fault _
  · exact (setValues_heeds _).bind fun _ => .well _

theorem pop_heeds : Heeds view pop pop :=
  (requireDepth_heeds 1).bind fun _ => takeTop_heeds

theorem popTwo_heeds : Heeds view popTwo popTwo :=
  (requireDepth_heeds 2).bind fun _ => takeTop_heeds.bind fun _ => takeTop_heeds.bind fun _ =>
    .well _

theorem popThree_heeds : Heeds view popThree popThree :=
  (requireDepth_heeds 3).bind fun _ => takeTop_heeds.bind fun _ => takeTop_heeds.bind fun _ =>
    takeTop_heeds.bind fun _ => .well _

theorem popMany_heeds (count : Nat) : Heeds view (popMany count) (popMany count) :=
  (requireDepth_heeds count).bind fun _ => takeMany_heeds count

theorem peek_heeds : Heeds view peek peek := by
  refine (requireDepth_heeds 1).bind fun _ => allValues_heeds.bind fun values => ?_
  cases values.top? with
  | some top => exact .well top
  | none => exact .fault _

theorem jumpTo_heeds (offset : Nat) : Heeds view (jumpTo offset) (jumpTo offset) :=
  update_heeds _

theorem nameAt_heeds (index : Nat) : Heeds view (nameAt index) (nameAt index) := by
  refine (asks_heeds _).bind fun name => ?_
  cases name with
  | some name => exact .well name
  | none => exact .raise _

theorem pushBlock_heeds (kind : BlockKind) (handler : Nat) :
    Heeds view (pushBlock kind handler) (pushBlock kind handler) := by
  refine (asks_heeds _).bind fun blocks => ?_
  split
  · exact .raise _
  · exact depth_heeds.bind fun _ => update_heeds _

theorem popBlock_heeds : Heeds view popBlock popBlock := by
  refine (asks_heeds _).bind fun blocks => ?_
  cases blocks with
  | nil => exact .raise _
  | cons block rest => exact (update_heeds _).bind fun _ => .well block

/-! ## Instructions -/

theorem rotateTwo_heeds : Heeds view rotateTwo rotateTwo := by
  refine (requireDepth_heeds 2).bind fun _ => allValues_heeds.bind fun values => ?_
  rcases values.items with _ | ⟨top, _ | ⟨second, rest⟩⟩
  · exact .fault _
  · exact .fault _
  · exact setValues_heeds _

theorem rotateThree_heeds : Heeds view rotateThree rotateThree := by
  refine (requireDepth_heeds 3).bind fun _ => allValues_heeds.bind fun values => ?_
  rcases values.items with _ | ⟨top, _ | ⟨second, _ | ⟨third, rest⟩⟩⟩
  · exact .fault _
  · exact .fault _
  · exact .fault _
  · exact setValues_heeds _

/-- The result of an operation on the store is put on top. -/
theorem pushing {act : StoreM (Seen view) Ref} {other : StoreM π Ref}
    (heeds : StoreM.Heeds view act other) :
    Heeds view (onStore act >>= push) (onStore other >>= push) :=
  (onStore_watches heeds).bind fun value => push_heeds value

theorem applyUnary_heeds {operation : Ref → StoreM (Seen view) Ref} {other : Ref → StoreM π Ref}
    (heeds : ∀ operand, StoreM.Heeds view (operation operand) (other operand)) :
    Heeds view (applyUnary operation) (applyUnary other) :=
  pop_heeds.bind fun operand => pushing (StoreM.releasing_watches _ (heeds operand))

theorem applyBinary_heeds {operation : Ref → Ref → StoreM (Seen view) Ref}
    {other : Ref → Ref → StoreM π Ref}
    (heeds : ∀ left right, StoreM.Heeds view (operation left right) (other left right)) :
    Heeds view (applyBinary operation) (applyBinary other) :=
  popTwo_heeds.bind fun operands =>
    pushing (StoreM.releasing_watches _ (heeds operands.1 operands.2))

theorem invert_heeds : Heeds view invert invert :=
  pop_heeds.bind fun operand => (get_heeds operand).bind fun _ =>
    (releaseAll_cleans [operand]).heeds.bind fun _ => pushing (StoreM.acquire_cleans _).heeds

theorem compare_heeds (operand : Nat) : Heeds view (compare operand) (compare operand) := by
  unfold compare
  cases Comparison.ofOperand? operand with
  | none => exact .raise _
  | some comparison =>
      refine popTwo_heeds.bind fun operands => ?_
      have tested : StoreM.Heeds view
          (StoreM.reading fun store => store.test comparison operands.1 operands.2)
          (StoreM.reading fun store => store.test comparison operands.1 operands.2) :=
        .reading fun store => StoreM.test_plain store comparison operands.1 operands.2
      exact (onStore_watches (StoreM.releasing_watches _ tested)).bind fun _ =>
        pushing (StoreM.acquire_cleans _).heeds

theorem storeSubscript_heeds : Heeds view storeSubscript storeSubscript := by
  refine popThree_heeds.bind fun operands => ?_
  obtain ⟨value, container, key⟩ := operands
  refine (onStore_watches (StoreM.subscriptPlace_heeds container key).attempt).bind fun place => ?_
  refine ((releaseAll_cleans [key]).keeps _).bind fun _ =>
    onStore_watches (StoreM.releasing_watches _ ?_)
  rcases place with cause | (index | key)
  · exact ((StoreM.release_cleans value).keeps _).bind fun _ => .throw cause
  · exact StoreM.assignItem_heeds container index value
  · exact StoreM.dictInsert_heeds container key value

theorem slice_heeds (low high : Bool) : Heeds view (slice low high) (slice low high) := by
  refine (popMany_heeds _).bind fun operands => ?_
  cases operands with
  | nil => exact .raise _
  | cons sequence bounds =>
      refine (onStore_watches (StoreM.releasing_watches _ ?_)).bind fun result => push_heeds result
      exact (StoreM.sliceBound_heeds _).bind fun _ => (StoreM.sliceBound_heeds _).bind fun _ =>
        StoreM.slice_heeds sequence _ _

theorem buildFunction_heeds : Heeds view buildFunction buildFunction := by
  refine pop_heeds.bind fun code => (get_heeds code).bind fun payload => ?_
  cases payload
  case code object =>
      exact (asks_heeds _).bind fun globals => (acquire_heeds globals).bind fun _ =>
        pushing (StoreM.allocate_heeds _)
  all_goals exact (releaseAll_cleans [code]).heeds.bind fun _ => .raise _

theorem buildClass_heeds : Heeds view buildClass buildClass := by
  refine pop_heeds.bind fun attrs => (get_heeds attrs).bind fun payload => ?_
  cases payload
  case dict table => exact pushing (StoreM.allocate_heeds _)
  all_goals exact (releaseAll_cleans [attrs]).heeds.bind fun _ => .raise _

theorem buildSequence_heeds (pack : Array Ref → Payload) (count : Nat) :
    Heeds view (buildSequence pack count) (buildSequence pack count) :=
  (popMany_heeds count).bind fun _ => pushing (StoreM.allocate_heeds _)

theorem unpack_heeds (kind : Kind) (count : Nat) :
    Heeds view (unpack kind count) (unpack kind count) := by
  refine pop_heeds.bind fun sequence => ?_
  refine (onStore_watches (StoreM.releasing_watches _ ?_)).bind fun items => pushAll_heeds items
  refine (StoreM.get_heeds sequence).bind fun payload => ?_
  cases itemsOf? kind payload with
  | none => exact .raise _
  | some items =>
      simp only
      split
      · exact (StoreM.acquireAll_cleans _).heeds.bind fun _ => .well _
      · exact .raise _

theorem loadConst_heeds (index : Nat) : Heeds view (loadConst index) (loadConst index) := by
  refine (asks_heeds _).bind fun code => (get_heeds code).bind fun payload => ?_
  cases payload
  case code object =>
      simp only
      cases object.constants[index]? with
      | some constant => exact pushing (StoreM.acquire_cleans constant).heeds
      | none => exact .raise _
  all_goals exact .raise _

theorem loadName_heeds (index : Nat) : Heeds view (loadName index) (loadName index) :=
  (nameAt_heeds index).bind fun name => (asks_heeds _).bind fun scopes =>
    (onStore_watches (StoreM.firstOf_heeds _ scopes)).bind fun found =>
      pushing (StoreM.acquireNamed_heeds name found)

theorem storeName_heeds (index : Nat) : Heeds view (storeName index) (storeName index) :=
  (nameAt_heeds index).bind fun _ => pop_heeds.bind fun value => (asks_heeds _).bind fun locals =>
    onStore_watches (StoreM.dictInsert_heeds locals _ value)

theorem loadAttr_heeds (index : Nat) : Heeds view (loadAttr index) (loadAttr index) :=
  (nameAt_heeds index).bind fun name => applyUnary_heeds fun object =>
    StoreM.loadAttr_heeds object name

theorem storeAttr_heeds (index : Nat) : Heeds view (storeAttr index) (storeAttr index) :=
  (nameAt_heeds index).bind fun name => popTwo_heeds.bind fun operands =>
    onStore_watches (StoreM.releasing_watches _ (StoreM.storeAttr_heeds operands.2 name operands.1))

theorem importFrom_heeds (index : Nat) : Heeds view (importFrom index) (importFrom index) := by
  refine (nameAt_heeds index).bind fun name => peek_heeds.bind fun top =>
    (get_heeds top).bind fun payload => ?_
  cases payload
  case module title attrs =>
      exact (onStore_watches (StoreM.dictLookup_heeds attrs _)).bind fun found =>
        (onStore_watches (StoreM.acquireNamed_heeds name found)).bind fun value =>
          (asks_heeds _).bind fun locals =>
            onStore_watches (StoreM.dictInsert_heeds locals _ value)
  all_goals exact .raise _

theorem jumpIf_heeds (condition : Bool) (target : Nat) :
    Heeds view (jumpIf condition target) (jumpIf condition target) := by
  refine peek_heeds.bind fun top => (get_heeds top).bind fun payload => ?_
  split
  · exact jumpTo_heeds target
  · exact .well ()

theorem forLoop_heeds (exhausted : Nat) : Heeds view (forLoop exhausted) (forLoop exhausted) := by
  refine popTwo_heeds.bind fun operands => ?_
  obtain ⟨sequence, index⟩ := operands
  refine (get_heeds index).bind fun payload => (releaseAll_cleans [index]).heeds.bind fun _ => ?_
  cases loopPosition? payload with
  | none => exact (releaseAll_cleans [sequence]).heeds.bind fun _ => .raise _
  | some position =>
      refine (onStore_watches (StoreM.orRelease_watches _
        (StoreM.loopItem_heeds sequence position))).bind fun item => ?_
      cases item with
      | some item =>
          exact (onStore_watches (StoreM.orRelease_watches _ (StoreM.allocate_heeds _))).bind
            fun _ => pushAll_heeds _
      | none => exact (releaseAll_cleans [sequence]).heeds.bind fun _ => jumpTo_heeds exhausted

/-- Every instruction that stays within its frame accounts for the refusals it meets. -/
theorem execute_heeds (op : Opcode) (operand next : Nat) :
    Heeds view (execute op operand next) (execute op operand next) := by
  cases op with
  | popTop => exact pop_heeds.bind fun value => (releaseAll_cleans [value]).heeds
  | printTop => exact pop_heeds.bind fun value => (releaseAll_cleans [value]).heeds
  | rotTwo => exact rotateTwo_heeds
  | rotThree => exact rotateThree_heeds
  | dupTop => exact peek_heeds.bind fun value => pushing (StoreM.acquire_cleans value).heeds
  | negate => exact applyUnary_heeds StoreM.negate_heeds
  | invert => exact invert_heeds
  | arithmetic operation => exact applyBinary_heeds (StoreM.arithmetic_heeds operation)
  | subscript => exact applyBinary_heeds StoreM.subscript_heeds
  | slice low high => exact slice_heeds low high
  | storeSubscript => exact storeSubscript_heeds
  | loadLocals =>
      exact (asks_heeds _).bind fun locals => pushing (StoreM.acquire_cleans locals).heeds
  | requireArgs =>
      refine depth_heeds.bind fun depth => ?_
      split
      · exact .raise _
      · exact .well ()
  | refuseArgs =>
      refine depth_heeds.bind fun depth => ?_
      split
      · exact .well ()
      · exact .raise _
  | buildFunction => exact buildFunction_heeds
  | buildClass => exact buildClass_heeds
  | storeName => exact storeName_heeds operand
  | unpackTuple => exact unpack_heeds .tuple operand
  | unpackList => exact unpack_heeds .list operand
  | storeAttr => exact storeAttr_heeds operand
  | loadConst => exact loadConst_heeds operand
  | loadName => exact loadName_heeds operand
  | buildTuple => exact buildSequence_heeds .tuple operand
  | buildList => exact buildSequence_heeds .list operand
  | buildMap => exact pushing (StoreM.allocate_heeds (.dict .empty))
  | loadAttr => exact loadAttr_heeds operand
  | compare => exact compare_heeds operand
  | importName =>
      exact (nameAt_heeds operand).bind fun name => pushing (StoreM.importModule_heeds name)
  | importFrom => exact importFrom_heeds operand
  | jumpForward => exact jumpTo_heeds (next + operand)
  | jumpIfFalse => exact jumpIf_heeds false (next + operand)
  | jumpIfTrue => exact jumpIf_heeds true (next + operand)
  | jumpAbsolute => exact jumpTo_heeds operand
  | forLoop => exact forLoop_heeds (next + operand)
  | setLine => exact update_heeds fun activation => { activation with line := operand }
  | callBare => exact .well ()
  | callWith => exact .well ()
  | breakLoop => exact .well ()
  | returnValue => exact .well ()
  | popBlock => exact .well ()
  | setup kind => exact .well ()

end FrameM

end StackMachine
