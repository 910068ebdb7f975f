import StackMachine.Machine.Instructions
import StackMachine.Proofs.Evolution.Operations
import StackMachine.Proofs.Trace.Outline

/-!
# Paths of instructions

An instruction that stays within its frame takes the store along a path on which neither
frames nor entries of tracebacks are made, and leaves the frame in as many blocks as before.
-/

namespace StackMachine

variable {τ α : Type} [Tracker τ]

/-- The store has gone along a path, on which no frame and no entry of a traceback was made, and
what is told of the frame is still so. -/
structure FrameState.Evolved (before after : FrameState τ) : Prop where
  path : Store.PlainPath before.store after.store
  opened : after.activation.opened = before.activation.opened

theorem FrameState.Evolved.refl (state : FrameState τ) : state.Evolved state :=
  ⟨Store.Path.refl state.store, rfl⟩

instance : IsPreorder (FrameState τ) FrameState.Evolved where
  refl := FrameState.Evolved.refl
  trans _ _ _ earlier later := ⟨earlier.path.trans later.path, later.opened.trans earlier.opened⟩

namespace FrameM

open Outcome

/-- The operation takes the store along a path. -/
abbrev Evolves (act : FrameM τ α) : Prop :=
  Advances FrameState.Evolved act

theorem onStore_evolves {act : StoreM τ α} (evolves : StoreM.Evolves act) :
    Evolves (onStore act) := by
  intro before
  obtain ⟨store, values, activation⟩ := before
  have known := evolves store
  unfold onStore
  simp only
  cases ran : act store with
  | ok value after =>
      rw [ran] at known
      exact ⟨known, rfl⟩
  | error stop after =>
      rw [ran] at known
      cases stop with
      | failed cause => exact ⟨known, rfl⟩
      | fault broken => trivial
      | unfinished => trivial

theorem releaseAll_evolves (refs : List Ref) : Evolves (releaseAll refs : FrameM τ Unit) :=
  onStore_evolves (StoreM.releaseAll_evolves refs)

theorem acquire_evolves (ref : Ref) : Evolves (onStore (StoreM.acquire ref) : FrameM τ Ref) :=
  onStore_evolves (StoreM.acquire_evolves ref)

theorem get_evolves (ref : Ref) : Evolves (onStore (StoreM.get ref) : FrameM τ Payload) :=
  onStore_evolves (StoreM.get_evolves ref)

/-! ## Values and activations -/

theorem asks_evolves (read : Activation → α) : Evolves (asks read : FrameM τ α) :=
  FrameState.Evolved.refl

/-- The activation changes, but for its file and the number of its blocks. -/
theorem update_evolves {change : Activation → Activation}
    (opened : ∀ activation, (change activation).opened = activation.opened) :
    Evolves (update change : FrameM τ Unit) :=
  fun before => ⟨Store.Path.refl before.store, opened before.activation⟩

theorem allValues_evolves : Evolves (allValues : FrameM τ (Stack Ref)) :=
  FrameState.Evolved.refl

theorem setValues_evolves (values : Stack Ref) : Evolves (setValues values : FrameM τ Unit) :=
  fun before => ⟨Store.Path.refl before.store, rfl⟩

theorem drainTo_evolves (level : Nat) : Evolves (drainTo level : FrameM τ Unit) :=
  allValues_evolves.bind fun _ => (asks_evolves _).bind fun _ => (setValues_evolves _).bind fun _ =>
    releaseAll_evolves _

theorem push_evolves (value : Ref) : Evolves (push value : FrameM τ Unit) :=
  allValues_evolves.bind fun _ => setValues_evolves _

theorem pushAll_evolves (values : List Ref) : Evolves (pushAll values : FrameM τ Unit) :=
  allValues_evolves.bind fun _ => setValues_evolves _

theorem depth_evolves : Evolves (depth : FrameM τ Nat) := by
  intro before
  unfold depth
  by_cases reaches : before.activation.base ≤ before.values.height
  · rw [if_pos reaches]
    exact FrameState.Evolved.refl before
  · rw [if_neg reaches]
    trivial

theorem requireDepth_evolves (count : Nat) : Evolves (requireDepth count : FrameM τ Unit) := by
  refine depth_evolves.bind fun depth => ?_
  split
  · exact .throw _
  · exact .pure ()

theorem takeTop_evolves : Evolves (takeTop : FrameM τ Ref) := by
  refine allValues_evolves.bind fun values => ?_
  cases values.items with
  | nil => exact .fault _
  | cons top rest => exact (setValues_evolves _).bind fun _ => .pure top

theorem takeMany_evolves (count : Nat) : Evolves (takeMany count : FrameM τ (List Ref)) := by
  refine allValues_evolves.bind fun values => ?_
  split
  · exact .fault _
  · exact (setValues_evolves _).bind fun _ => .pure _

theorem pop_evolves : Evolves (pop : FrameM τ Ref) :=
  (requireDepth_evolves 1).bind fun _ => takeTop_evolves

theorem popTwo_evolves : Evolves (popTwo : FrameM τ (Ref × Ref)) :=
  (requireDepth_evolves 2).bind fun _ => takeTop_evolves.bind fun _ => takeTop_evolves.bind fun _ =>
    .pure _

theorem popThree_evolves : Evolves (popThree : FrameM τ (Ref × Ref × Ref)) :=
  (requireDepth_evolves 3).bind fun _ => takeTop_evolves.bind fun _ => takeTop_evolves.bind fun _ =>
    takeTop_evolves.bind fun _ => .pure _

theorem popMany_evolves (count : Nat) : Evolves (popMany count : FrameM τ (List Ref)) :=
  (requireDepth_evolves count).bind fun _ => takeMany_evolves count

theorem peek_evolves : Evolves (peek : FrameM τ Ref) := by
  refine (requireDepth_evolves 1).bind fun _ => allValues_evolves.bind fun values => ?_
  cases values.top? with
  | some top => exact .pure top
  | none => exact .fault _

theorem jumpTo_evolves (offset : Nat) : Evolves (jumpTo offset : FrameM τ Unit) :=
  update_evolves fun _ => rfl

theorem nameAt_evolves (index : Nat) : Evolves (nameAt index : FrameM τ String) := by
  refine (asks_evolves _).bind fun name => ?_
  cases name with
  | some name => exact .pure name
  | none => exact .throw _

omit [Tracker τ] in
/-- A block is pushed where there is room for it. -/
theorem pushBlock_cases (kind : BlockKind) (handler : Nat) (state : FrameState τ) :
    pushBlock kind handler state = .error (.failed .blockOverflow) state ∨
      (state.activation.blocks.length < maxBlocks ∧ ∃ block, pushBlock kind handler state =
        .ok () { state with activation := { state.activation with
          blocks := block :: state.activation.blocks } }) ∨
      pushBlock kind handler state = .error (.fault .shortStack) state := by
  rw [pushBlock, asks_bind]
  by_cases full : maxBlocks ≤ state.activation.blocks.length
  · exact .inl (by rw [if_pos full]; rfl)
  rw [if_neg full]
  by_cases reaches : state.activation.base ≤ state.values.height
  · have measured : depth state = .ok (state.values.height - state.activation.base) state :=
      if_pos reaches
    exact .inr (.inl ⟨Nat.lt_of_not_le full, _, StoreM.bind_ok measured⟩)
  · have short : depth state = .error (.fault .shortStack) state := if_neg reaches
    exact .inr (.inr (bind_error short))

/-! ## Instructions -/

theorem rotateTwo_evolves : Evolves (rotateTwo : FrameM τ Unit) := by
  refine (requireDepth_evolves 2).bind fun _ => allValues_evolves.bind fun values => ?_
  rcases values.items with _ | ⟨top, _ | ⟨second, rest⟩⟩
  · exact .fault _
  · exact .fault _
  · exact setValues_evolves _

theorem rotateThree_evolves : Evolves (rotateThree : FrameM τ Unit) := by
  refine (requireDepth_evolves 3).bind fun _ => allValues_evolves.bind fun values => ?_
  rcases values.items with _ | ⟨top, _ | ⟨second, _ | ⟨third, rest⟩⟩⟩
  · exact .fault _
  · exact .fault _
  · exact .fault _
  · exact setValues_evolves _

/-- The result of an operation on the store is put on top. -/
theorem pushing_evolves {act : StoreM τ Ref} (evolves : StoreM.Evolves act) :
    Evolves (onStore act >>= push) :=
  (onStore_evolves evolves).bind fun value => push_evolves value

theorem applyUnary_evolves {operation : Ref → StoreM τ Ref}
    (evolves : ∀ operand, StoreM.Evolves (operation operand)) : Evolves (applyUnary operation) :=
  pop_evolves.bind fun operand =>
    pushing_evolves (StoreM.releasing_evolves _ (evolves operand))

theorem applyBinary_evolves {operation : Ref → Ref → StoreM τ Ref}
    (evolves : ∀ left right, StoreM.Evolves (operation left right)) :
    Evolves (applyBinary operation) :=
  popTwo_evolves.bind fun operands =>
    pushing_evolves (StoreM.releasing_evolves _ (evolves operands.1 operands.2))

theorem invert_evolves : Evolves (invert : FrameM τ Unit) :=
  pop_evolves.bind fun operand => (get_evolves operand).bind fun _ =>
    (releaseAll_evolves [operand]).bind fun _ => pushing_evolves (StoreM.acquire_evolves _)

theorem compare_evolves (operand : Nat) : Evolves (compare operand : FrameM τ Unit) := by
  unfold compare
  cases Comparison.ofOperand? operand with
  | none => exact .throw _
  | some comparison =>
      refine popTwo_evolves.bind fun operands => ?_
      exact (onStore_evolves (StoreM.releasing_evolves _ (.reading _))).bind fun _ =>
        pushing_evolves (StoreM.acquire_evolves _)

theorem storeSubscript_evolves : Evolves (storeSubscript : FrameM τ Unit) := by
  refine popThree_evolves.bind fun operands => ?_
  obtain ⟨value, container, key⟩ := operands
  refine (onStore_evolves
    (StoreM.subscriptPlace_evolves container key).attempt).bind fun place => ?_
  refine (releaseAll_evolves [key]).bind fun _ => onStore_evolves (StoreM.releasing_evolves _ ?_)
  rcases place with cause | (index | key)
  · exact (StoreM.release_evolves value).bind fun _ => .throw cause
  · exact StoreM.assignItem_evolves container index value
  · exact StoreM.dictInsert_evolves container key value

theorem slice_evolves (low high : Bool) : Evolves (slice low high : FrameM τ Unit) := by
  refine (popMany_evolves _).bind fun operands => ?_
  cases operands with
  | nil => exact .throw _
  | cons sequence bounds =>
      refine (onStore_evolves (StoreM.releasing_evolves _ ?_)).bind fun result =>
        push_evolves result
      exact (StoreM.sliceBound_evolves _).bind fun _ => (StoreM.sliceBound_evolves _).bind fun _ =>
        StoreM.slice_evolves sequence _ _

theorem buildFunction_evolves : Evolves (buildFunction : FrameM τ Unit) := by
  refine pop_evolves.bind fun code => (get_evolves code).bind fun payload => ?_
  cases payload
  case code object =>
      exact (asks_evolves _).bind fun globals => (acquire_evolves globals).bind fun _ =>
        pushing_evolves (StoreM.allocate_evolves _ rfl)
  all_goals exact (releaseAll_evolves [code]).bind fun _ => .throw _

theorem buildClass_evolves : Evolves (buildClass : FrameM τ Unit) := by
  refine pop_evolves.bind fun attrs => (get_evolves attrs).bind fun payload => ?_
  cases payload
  case dict table => exact pushing_evolves (StoreM.allocate_evolves _ rfl)
  all_goals exact (releaseAll_evolves [attrs]).bind fun _ => .throw _

theorem buildSequence_evolves {pack : Array Ref → Payload} (count : Nat)
    (simple : ∀ items, decide (pack items).IsSimple = true) :
    Evolves (buildSequence pack count : FrameM τ Unit) :=
  (popMany_evolves count).bind fun _ => pushing_evolves (StoreM.allocate_evolves _ (simple _))

theorem unpack_evolves (kind : Kind) (count : Nat) :
    Evolves (unpack kind count : FrameM τ Unit) := by
  refine pop_evolves.bind fun sequence => ?_
  refine (onStore_evolves (StoreM.releasing_evolves _ ?_)).bind fun items => pushAll_evolves items
  refine (StoreM.get_evolves sequence).bind fun payload => ?_
  cases itemsOf? kind payload with
  | none => exact .throw _
  | some items =>
      simp only
      split
      · exact (StoreM.acquireAll_evolves _).bind fun _ => .pure _
      · exact .throw _

theorem loadConst_evolves (index : Nat) : Evolves (loadConst index : FrameM τ Unit) := by
  refine (asks_evolves _).bind fun code => (get_evolves code).bind fun payload => ?_
  cases payload
  case code object =>
      simp only
      cases object.constants[index]? with
      | some constant => exact pushing_evolves (StoreM.acquire_evolves constant)
      | none => exact .throw _
  all_goals exact .throw _

theorem loadName_evolves (index : Nat) : Evolves (loadName index : FrameM τ Unit) :=
  (nameAt_evolves index).bind fun name => (asks_evolves _).bind fun scopes =>
    (onStore_evolves (StoreM.firstOf_evolves _ scopes)).bind fun found =>
      pushing_evolves (StoreM.acquireNamed_evolves name found)

theorem storeName_evolves (index : Nat) : Evolves (storeName index : FrameM τ Unit) :=
  (nameAt_evolves index).bind fun _ => pop_evolves.bind fun value =>
    (asks_evolves _).bind fun locals => onStore_evolves (StoreM.dictInsert_evolves locals _ value)

theorem loadAttr_evolves (index : Nat) : Evolves (loadAttr index : FrameM τ Unit) :=
  (nameAt_evolves index).bind fun name => applyUnary_evolves fun object =>
    StoreM.loadAttr_evolves object name

theorem storeAttr_evolves (index : Nat) : Evolves (storeAttr index : FrameM τ Unit) :=
  (nameAt_evolves index).bind fun name => popTwo_evolves.bind fun operands =>
    onStore_evolves (StoreM.releasing_evolves _
      (StoreM.storeAttr_evolves operands.2 name operands.1))

theorem importFrom_evolves (index : Nat) : Evolves (importFrom index : FrameM τ Unit) := by
  refine (nameAt_evolves index).bind fun name => peek_evolves.bind fun top =>
    (get_evolves top).bind fun payload => ?_
  cases payload
  case module title attrs =>
      exact (onStore_evolves (StoreM.dictLookup_evolves attrs _)).bind fun found =>
        (onStore_evolves (StoreM.acquireNamed_evolves name found)).bind fun value =>
          (asks_evolves _).bind fun locals =>
            onStore_evolves (StoreM.dictInsert_evolves locals _ value)
  all_goals exact .throw _

theorem jumpIf_evolves (condition : Bool) (target : Nat) :
    Evolves (jumpIf condition target : FrameM τ Unit) := by
  refine peek_evolves.bind fun top => (get_evolves top).bind fun payload => ?_
  split
  · exact jumpTo_evolves target
  · exact .pure ()

theorem forLoop_evolves (exhausted : Nat) : Evolves (forLoop exhausted : FrameM τ Unit) := by
  refine popTwo_evolves.bind fun operands => ?_
  obtain ⟨sequence, index⟩ := operands
  refine (get_evolves index).bind fun payload => (releaseAll_evolves [index]).bind fun _ => ?_
  cases loopPosition? payload with
  | none => exact (releaseAll_evolves [sequence]).bind fun _ => .throw _
  | some position =>
      refine (onStore_evolves (StoreM.orRelease_evolves _
        (StoreM.loopItem_evolves sequence position))).bind fun item => ?_
      cases item with
      | some item =>
          refine (onStore_evolves (StoreM.orRelease_evolves _
            (StoreM.allocate_evolves (.int _) rfl))).bind fun _ => pushAll_evolves _
      | none => exact (releaseAll_evolves [sequence]).bind fun _ => jumpTo_evolves exhausted

/-- Every instruction that stays within its frame takes the store along a path. -/
theorem execute_evolves (op : Opcode) (operand next : Nat) :
    Evolves (execute op operand next : FrameM τ Unit) := by
  cases op with
  | popTop => exact pop_evolves.bind fun value => releaseAll_evolves [value]
  | printTop => exact pop_evolves.bind fun value => releaseAll_evolves [value]
  | rotTwo => exact rotateTwo_evolves
  | rotThree => exact rotateThree_evolves
  | dupTop => exact peek_evolves.bind fun value => pushing_evolves (StoreM.acquire_evolves value)
  | negate => exact applyUnary_evolves StoreM.negate_evolves
  | invert => exact invert_evolves
  | arithmetic operation => exact applyBinary_evolves (StoreM.arithmetic_evolves operation)
  | subscript => exact applyBinary_evolves StoreM.subscript_evolves
  | slice low high => exact slice_evolves low high
  | storeSubscript => exact storeSubscript_evolves
  | loadLocals =>
      exact (asks_evolves _).bind fun locals => pushing_evolves (StoreM.acquire_evolves locals)
  | requireArgs =>
      refine depth_evolves.bind fun depth => ?_
      split
      · exact .throw _
      · exact .pure ()
  | refuseArgs =>
      refine depth_evolves.bind fun depth => ?_
      split
      · exact .pure ()
      · exact .throw _
  | buildFunction => exact buildFunction_evolves
  | buildClass => exact buildClass_evolves
  | storeName => exact storeName_evolves operand
  | unpackTuple => exact unpack_evolves .tuple operand
  | unpackList => exact unpack_evolves .list operand
  | storeAttr => exact storeAttr_evolves operand
  | loadConst => exact loadConst_evolves operand
  | loadName => exact loadName_evolves operand
  | buildTuple => exact buildSequence_evolves operand fun _ => rfl
  | buildList => exact buildSequence_evolves operand fun _ => rfl
  | buildMap => exact pushing_evolves StoreM.allocateDict_evolves
  | loadAttr => exact loadAttr_evolves operand
  | compare => exact compare_evolves operand
  | importName =>
      exact (nameAt_evolves operand).bind fun name =>
        pushing_evolves (StoreM.importModule_evolves name)
  | importFrom => exact importFrom_evolves operand
  | jumpForward => exact jumpTo_evolves (next + operand)
  | jumpIfFalse => exact jumpIf_evolves false (next + operand)
  | jumpIfTrue => exact jumpIf_evolves true (next + operand)
  | jumpAbsolute => exact jumpTo_evolves operand
  | forLoop => exact forLoop_evolves (next + operand)
  | setLine =>
      show Evolves (update fun activation => { activation with line := operand } : FrameM τ Unit)
      exact update_evolves fun _ => rfl
  | callBare => exact .pure ()
  | callWith => exact .pure ()
  | breakLoop => exact .pure ()
  | returnValue => exact .pure ()
  | popBlock => exact .pure ()
  | setup kind => exact .pure ()

end FrameM

end StackMachine
