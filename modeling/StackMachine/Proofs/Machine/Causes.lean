import StackMachine.Proofs.Machine.Calls
import StackMachine.Proofs.Store.Causes

/-!
# Why instructions fail

An instruction is read, its operand is looked up where it has a table, and then it is carried
out.  The errors of the first two steps have causes of their own.  What comes after never
fails for one of these: neither does an instruction once its operand is found, nor a call,
since a frame records its errors before it passes them on.  For the same reason a call never
fails as an instruction does that lacks values.
-/

namespace StackMachine

open Outcome

variable {τ α β : Type}

/-! ## Instructions -/

namespace FrameM

variable {act : FrameM τ α}

/-- The operation fails for no cause that has to do with reading instructions. -/
abbrev SparesDecoding (act : FrameM τ α) : Prop :=
  FailsWith (fun cause => cause.isDecoding = false) act

theorem onStore_failsWith {allowed : Cause → Prop} {act : StoreM τ α}
    (fails : FailsWith allowed act) : FailsWith allowed (onStore act : FrameM τ α) := by
  intro before cause after failed
  obtain ⟨store, values, activation⟩ := before
  simp only [onStore] at failed
  split at failed
  · cases failed
  · rename_i stop store' stopped
    cases failed
    exact fails store cause store' stopped

theorem onStore_sparesDecoding {act : StoreM τ α} (spares : StoreM.SparesCode act) :
    SparesDecoding (onStore act) :=
  (onStore_failsWith spares).mono fun _ => Cause.isDecoding_of_blamesCode

theorem neverFails_onStore {act : StoreM τ α} (never : NeverFails act) :
    NeverFails (onStore act : FrameM τ α) := by
  have impossible : FailsWith (fun _ => False) act := never
  exact onStore_failsWith impossible

theorem onStore_attempt (act : StoreM τ α) :
    (onStore (attempt act) : FrameM τ _) = attempt (onStore act) := by
  funext state
  obtain ⟨store, values, activation⟩ := state
  simp only [onStore, attempt]
  cases act store with
  | ok value after => rfl
  | error stop after => cases stop <;> rfl

theorem get_sparesDecoding (ref : Ref) : SparesDecoding (onStore (StoreM.get ref) : FrameM τ _) :=
  onStore_sparesDecoding (StoreM.get_sparesCode ref)

theorem acquire_sparesDecoding (ref : Ref) :
    SparesDecoding (onStore (StoreM.acquire ref) : FrameM τ Ref) :=
  onStore_sparesDecoding (StoreM.acquire_sparesCode ref)

/-! ### Values and activations -/

theorem asks_sparesDecoding (read : Activation → α) : SparesDecoding (asks read : FrameM τ α) :=
  fun _ _ _ failed => by cases failed

theorem update_sparesDecoding (change : Activation → Activation) :
    SparesDecoding (update change : FrameM τ Unit) :=
  fun _ _ _ failed => by cases failed

theorem allValues_sparesDecoding : SparesDecoding (allValues : FrameM τ (Stack Ref)) :=
  fun _ _ _ failed => by cases failed

theorem setValues_sparesDecoding (values : Stack Ref) :
    SparesDecoding (setValues values : FrameM τ Unit) :=
  fun _ _ _ failed => by cases failed

theorem push_sparesDecoding (value : Ref) : SparesDecoding (push value : FrameM τ Unit) :=
  allValues_sparesDecoding.bind fun _ => setValues_sparesDecoding _

theorem pushAll_sparesDecoding (values : List Ref) :
    SparesDecoding (pushAll values : FrameM τ Unit) :=
  allValues_sparesDecoding.bind fun _ => setValues_sparesDecoding _

theorem depth_sparesDecoding : SparesDecoding (depth : FrameM τ Nat) := by
  intro before cause after failed
  unfold depth at failed
  split at failed <;> cases failed

theorem requireDepth_sparesDecoding (count : Nat) :
    SparesDecoding (requireDepth count : FrameM τ Unit) := by
  refine depth_sparesDecoding.bind fun depth => ?_
  split
  · exact .throw rfl
  · exact .pure ()

theorem takeTop_sparesDecoding : SparesDecoding (takeTop : FrameM τ Ref) := by
  refine allValues_sparesDecoding.bind fun values => ?_
  cases values.items with
  | nil => exact .fault _
  | cons top rest => exact (setValues_sparesDecoding _).bind fun _ => .pure top

theorem pop_sparesDecoding : SparesDecoding (pop : FrameM τ Ref) :=
  (requireDepth_sparesDecoding 1).bind fun _ => takeTop_sparesDecoding

theorem popTwo_sparesDecoding : SparesDecoding (popTwo : FrameM τ (Ref × Ref)) :=
  (requireDepth_sparesDecoding 2).bind fun _ => takeTop_sparesDecoding.bind fun _ =>
    takeTop_sparesDecoding.bind fun _ => .pure _

theorem popThree_sparesDecoding : SparesDecoding (popThree : FrameM τ (Ref × Ref × Ref)) :=
  (requireDepth_sparesDecoding 3).bind fun _ => takeTop_sparesDecoding.bind fun _ =>
    takeTop_sparesDecoding.bind fun _ => takeTop_sparesDecoding.bind fun _ => .pure _

theorem popMany_sparesDecoding (count : Nat) :
    SparesDecoding (popMany count : FrameM τ (List Ref)) := by
  refine (requireDepth_sparesDecoding count).bind fun _ =>
    allValues_sparesDecoding.bind fun values => ?_
  split
  · exact .fault _
  · exact (setValues_sparesDecoding _).bind fun _ => .pure _

theorem peek_sparesDecoding : SparesDecoding (peek : FrameM τ Ref) := by
  refine (requireDepth_sparesDecoding 1).bind fun _ =>
    allValues_sparesDecoding.bind fun values => ?_
  cases values.top? with
  | some top => exact .pure top
  | none => exact .fault _

theorem jumpTo_sparesDecoding (offset : Nat) : SparesDecoding (jumpTo offset : FrameM τ Unit) :=
  update_sparesDecoding _

theorem pushBlock_sparesDecoding (kind : BlockKind) (handler : Nat) :
    SparesDecoding (pushBlock kind handler : FrameM τ Unit) := by
  refine (asks_sparesDecoding _).bind fun blocks => ?_
  split
  · exact .throw rfl
  · exact depth_sparesDecoding.bind fun _ => update_sparesDecoding _

theorem popBlock_sparesDecoding : SparesDecoding (popBlock : FrameM τ Block) := by
  refine (asks_sparesDecoding _).bind fun blocks => ?_
  cases blocks with
  | nil => exact .throw rfl
  | cons block rest => exact (update_sparesDecoding _).bind fun _ => .pure block

/-! ### Instructions without a table -/

theorem rotateTwo_sparesDecoding : SparesDecoding (rotateTwo : FrameM τ Unit) := by
  refine (requireDepth_sparesDecoding 2).bind fun _ =>
    allValues_sparesDecoding.bind fun values => ?_
  split
  · exact setValues_sparesDecoding _
  · exact .fault _

theorem rotateThree_sparesDecoding : SparesDecoding (rotateThree : FrameM τ Unit) := by
  refine (requireDepth_sparesDecoding 3).bind fun _ =>
    allValues_sparesDecoding.bind fun values => ?_
  split
  · exact setValues_sparesDecoding _
  · exact .fault _

theorem firstOf_sparesCode (key : Bytes) (dicts : List Ref) :
    StoreM.SparesCode (firstOf key dicts : StoreM τ (Option Ref)) := by
  induction dicts with
  | nil => exact .pure none
  | cons dict rest ih =>
      refine (StoreM.dictLookup_sparesCode dict key).bind fun found => ?_
      cases found with
      | some value => exact .pure _
      | none => exact ih

theorem pushing_sparesDecoding {act : StoreM τ Ref} (spares : StoreM.SparesCode act) :
    SparesDecoding (onStore act >>= push) :=
  (onStore_sparesDecoding spares).bind fun value => push_sparesDecoding value

theorem jumpIf_sparesDecoding (condition : Bool) (target : Nat) :
    SparesDecoding (jumpIf condition target : FrameM τ Unit) := by
  refine peek_sparesDecoding.bind fun top => (get_sparesDecoding top).bind fun payload => ?_
  split
  · exact jumpTo_sparesDecoding target
  · exact .pure ()

variable [Tracker τ]

theorem releaseAll_sparesDecoding (refs : List Ref) :
    SparesDecoding (releaseAll refs : FrameM τ Unit) :=
  onStore_sparesDecoding (StoreM.releaseAll_sparesCode refs)

theorem applyUnary_sparesDecoding {operation : Ref → StoreM τ Ref}
    (spares : ∀ operand, StoreM.SparesCode (operation operand)) :
    SparesDecoding (applyUnary operation) :=
  pop_sparesDecoding.bind fun operand =>
    pushing_sparesDecoding (StoreM.releasing_sparesCode _ (spares operand))

theorem applyBinary_sparesDecoding {operation : Ref → Ref → StoreM τ Ref}
    (spares : ∀ left right, StoreM.SparesCode (operation left right)) :
    SparesDecoding (applyBinary operation) :=
  popTwo_sparesDecoding.bind fun operands =>
    pushing_sparesDecoding (StoreM.releasing_sparesCode _ (spares operands.1 operands.2))

theorem invert_sparesDecoding : SparesDecoding (invert : FrameM τ Unit) :=
  pop_sparesDecoding.bind fun operand => (get_sparesDecoding operand).bind fun _ =>
    (releaseAll_sparesDecoding [operand]).bind fun _ =>
      pushing_sparesDecoding (StoreM.acquire_sparesCode _)

omit [Tracker τ] in
theorem subscriptPlace_sparesCode (container key : Ref) :
    StoreM.SparesCode (subscriptPlace container key : StoreM τ Place) := by
  refine (StoreM.get_sparesCode container).bind fun payload =>
    (StoreM.get_sparesCode key).bind fun found => ?_
  split
  · exact .pure _
  · exact .pure _
  all_goals exact .throw rfl

theorem assignItem_sparesCode (list : Ref) (index : Int64) (value : Ref) :
    StoreM.SparesCode (assignItem list index value : StoreM τ Unit) := by
  refine StoreM.lendingList_sparesCode list [value] fun items => ?_
  cases resolveIndex? index items.size with
  | some position => exact .replaceItem .list position value items
  | none => exact .finish (StoreM.neverFails_releaseAll [value]) (by rintro _ ⟨⟩; rfl)

theorem storeSubscript_sparesDecoding : SparesDecoding (storeSubscript : FrameM τ Unit) := by
  refine popThree_sparesDecoding.bind fun operands =>
    FailsWith.mono ?_ fun _ => Cause.isDecoding_of_blamesCode
  obtain ⟨value, container, key⟩ := operands
  have released : FailsWith (fun cause => cause.blamesCode = false)
      (releaseAll [key] : FrameM τ Unit) :=
    onStore_failsWith (StoreM.releaseAll_sparesCode [key])
  simp only [onStore_attempt]
  refine (onStore_failsWith (subscriptPlace_sparesCode container key)).caught
    (fun place => released.bind fun _ =>
      onStore_failsWith (StoreM.releasing_sparesCode [container] ?_))
    fun cause other => released.bind fun _ =>
      onStore_failsWith (StoreM.releasing_sparesCode [container] ?_)
  · cases place with
    | item index => exact assignItem_sparesCode container index value
    | entry key => exact StoreM.dictInsert_sparesCode container key value
  · exact (StoreM.releaseAll_sparesCode [value]).bind fun _ => .throw other

omit [Tracker τ] in
theorem sliceBound_sparesCode (bound : Option Ref) :
    StoreM.SparesCode (sliceBound bound : StoreM τ (Option Int64)) := by
  cases bound with
  | none => exact .pure none
  | some ref =>
      refine (StoreM.get_sparesCode ref).bind fun payload => ?_
      split
      · exact .pure _
      · exact .throw rfl

theorem slice_sparesDecoding (low high : Bool) :
    SparesDecoding (slice low high : FrameM τ Unit) := by
  refine (popMany_sparesDecoding _).bind fun operands => ?_
  split
  · refine (onStore_sparesDecoding (StoreM.releasing_sparesCode _ ?_)).bind fun result =>
      push_sparesDecoding result
    exact (sliceBound_sparesCode _).bind fun _ => (sliceBound_sparesCode _).bind fun _ =>
      StoreM.slice_sparesCode _ _ _
  · exact .throw rfl

theorem buildFunction_sparesDecoding : SparesDecoding (buildFunction : FrameM τ Unit) := by
  refine pop_sparesDecoding.bind fun code => (get_sparesDecoding code).bind fun payload => ?_
  split
  · exact (asks_sparesDecoding _).bind fun globals => (acquire_sparesDecoding globals).bind fun _ =>
      pushing_sparesDecoding (StoreM.allocate_sparesCode _)
  · exact (releaseAll_sparesDecoding [code]).bind fun _ => .throw rfl

theorem buildClass_sparesDecoding : SparesDecoding (buildClass : FrameM τ Unit) := by
  refine pop_sparesDecoding.bind fun attrs => (get_sparesDecoding attrs).bind fun payload => ?_
  split
  · exact pushing_sparesDecoding (StoreM.allocate_sparesCode _)
  · exact (releaseAll_sparesDecoding [attrs]).bind fun _ => .throw rfl

theorem buildSequence_sparesDecoding (pack : Array Ref → Payload) (count : Nat) :
    SparesDecoding (buildSequence pack count : FrameM τ Unit) :=
  (popMany_sparesDecoding count).bind fun _ =>
    pushing_sparesDecoding (StoreM.allocate_sparesCode _)

theorem unpack_sparesDecoding (kind : Kind) (count : Nat) :
    SparesDecoding (unpack kind count : FrameM τ Unit) := by
  refine pop_sparesDecoding.bind fun sequence => ?_
  refine (onStore_sparesDecoding (StoreM.releasing_sparesCode _ ?_)).bind fun items =>
    pushAll_sparesDecoding items
  refine (StoreM.get_sparesCode sequence).bind fun payload => ?_
  split
  · exact .throw rfl
  split
  · exact (StoreM.acquireAll_sparesCode _).bind fun _ => .pure _
  · exact .throw rfl

theorem forLoop_sparesDecoding (exhausted : Nat) :
    SparesDecoding (forLoop exhausted : FrameM τ Unit) := by
  refine popTwo_sparesDecoding.bind fun operands => ?_
  obtain ⟨sequence, index⟩ := operands
  refine (get_sparesDecoding index).bind fun payload =>
    (releaseAll_sparesDecoding [index]).bind fun _ => ?_
  split
  · exact (releaseAll_sparesDecoding [sequence]).bind fun _ => .throw rfl
  refine (onStore_sparesDecoding (StoreM.orRelease_sparesCode _
    (StoreM.loopItem_sparesCode sequence _))).bind fun item => ?_
  split
  · exact (onStore_sparesDecoding (StoreM.orRelease_sparesCode _
      (StoreM.allocate_sparesCode _))).bind fun _ => pushAll_sparesDecoding _
  · exact (releaseAll_sparesDecoding [sequence]).bind fun _ => jumpTo_sparesDecoding exhausted

/-- Carrying out an instruction whose operand is not looked up anywhere. -/
theorem execute_sparesDecoding {op : Opcode} (named : op.takesName = false)
    (constant : op ≠ .loadConst) (comparison : op ≠ .compare) (operand next : Nat) :
    SparesDecoding (execute op operand next : FrameM τ Unit) := by
  cases op with
  | popTop | printTop =>
      exact pop_sparesDecoding.bind fun value => releaseAll_sparesDecoding [value]
  | rotTwo => exact rotateTwo_sparesDecoding
  | rotThree => exact rotateThree_sparesDecoding
  | dupTop =>
      exact peek_sparesDecoding.bind fun value =>
        pushing_sparesDecoding (StoreM.acquire_sparesCode value)
  | negate => exact applyUnary_sparesDecoding StoreM.negate_sparesCode
  | invert => exact invert_sparesDecoding
  | arithmetic operation =>
      exact applyBinary_sparesDecoding (StoreM.arithmetic_sparesCode operation)
  | subscript => exact applyBinary_sparesDecoding StoreM.subscript_sparesCode
  | slice low high => exact slice_sparesDecoding low high
  | storeSubscript => exact storeSubscript_sparesDecoding
  | loadLocals =>
      exact (asks_sparesDecoding _).bind fun locals =>
        pushing_sparesDecoding (StoreM.acquire_sparesCode locals)
  | requireArgs =>
      refine depth_sparesDecoding.bind fun depth => ?_
      split
      · exact .throw rfl
      · exact .pure ()
  | refuseArgs =>
      refine depth_sparesDecoding.bind fun depth => ?_
      split
      · exact .pure ()
      · exact .throw rfl
  | buildFunction => exact buildFunction_sparesDecoding
  | buildClass => exact buildClass_sparesDecoding
  | unpackTuple => exact unpack_sparesDecoding .tuple operand
  | unpackList => exact unpack_sparesDecoding .list operand
  | buildTuple => exact buildSequence_sparesDecoding .tuple operand
  | buildList => exact buildSequence_sparesDecoding .list operand
  | buildMap => exact pushing_sparesDecoding (StoreM.allocate_sparesCode _)
  | jumpForward => exact jumpTo_sparesDecoding (next + operand)
  | jumpIfFalse => exact jumpIf_sparesDecoding false (next + operand)
  | jumpIfTrue => exact jumpIf_sparesDecoding true (next + operand)
  | jumpAbsolute => exact jumpTo_sparesDecoding operand
  | forLoop => exact forLoop_sparesDecoding (next + operand)
  | setLine => exact update_sparesDecoding fun activation => { activation with line := operand }
  | callBare | callWith | breakLoop | returnValue | popBlock | setup => exact .pure ()
  | loadConst => exact absurd rfl constant
  | compare => exact absurd rfl comparison
  | storeName | loadName | loadAttr | storeAttr | importName | importFrom => cases named

/-! ### Instructions with a table -/

/-- An instruction whose operand is a name first looks it up. -/
theorem execute_named {op : Opcode} (named : op.takesName = true) (operand next : Nat) :
    ∃ rest : String → FrameM τ Unit, (∀ name, SparesDecoding (rest name)) ∧
      execute op operand next = nameAt operand >>= rest := by
  cases op with
  | loadName =>
      refine ⟨_, fun name => ?_, rfl⟩
      exact (asks_sparesDecoding _).bind fun scopes =>
        (onStore_sparesDecoding (firstOf_sparesCode _ scopes)).bind fun found =>
          pushing_sparesDecoding (StoreM.acquireNamed_sparesCode name found)
  | storeName =>
      refine ⟨_, fun name => ?_, rfl⟩
      exact pop_sparesDecoding.bind fun value => (asks_sparesDecoding _).bind fun locals =>
        onStore_sparesDecoding (StoreM.dictInsert_sparesCode locals _ value)
  | loadAttr =>
      refine ⟨_, fun name => ?_, rfl⟩
      exact applyUnary_sparesDecoding fun object => StoreM.loadAttr_sparesCode object name
  | storeAttr =>
      refine ⟨_, fun name => ?_, rfl⟩
      exact popTwo_sparesDecoding.bind fun operands => onStore_sparesDecoding
        (StoreM.releasing_sparesCode _ (StoreM.storeAttr_sparesCode _ name _))
  | importName =>
      refine ⟨_, fun name => ?_, rfl⟩
      exact pushing_sparesDecoding (StoreM.importModule_sparesCode name)
  | importFrom =>
      refine ⟨_, fun name => ?_, rfl⟩
      refine peek_sparesDecoding.bind fun top => (get_sparesDecoding top).bind fun payload => ?_
      split
      · exact (onStore_sparesDecoding (StoreM.dictLookup_sparesCode _ _)).bind fun found =>
          (onStore_sparesDecoding (StoreM.acquireNamed_sparesCode name found)).bind fun value =>
            (asks_sparesDecoding _).bind fun locals =>
              onStore_sparesDecoding (StoreM.dictInsert_sparesCode locals _ value)
      · exact .throw rfl
  | _ => cases named

theorem compare_sparesDecoding {operand : Nat} {comparison : Comparison}
    (found : Comparison.ofOperand? operand = some comparison) :
    SparesDecoding (compare operand : FrameM τ Unit) := by
  unfold compare
  rw [found]
  refine popTwo_sparesDecoding.bind fun operands => ?_
  exact (onStore_sparesDecoding (StoreM.releasing_sparesCode _
    (.reading fun store => store.test_sparesCode comparison operands.1 operands.2))).bind
      fun _ => pushing_sparesDecoding (StoreM.acquire_sparesCode _)

end FrameM

/-- Has the failure a cause that has to do with reading instructions, not recorded yet? -/
def Failure.isDecoding : Failure → Bool
  | raised cause => cause.isDecoding
  | recorded => false

/-- Has the failure a cause that blames the code, not recorded yet? -/
def Failure.blamesCode : Failure → Bool
  | raised cause => cause.blamesCode
  | recorded => false

/-! ## Errors and frames -/

namespace MachineM

variable {act : MachineM τ α} {run : MachineM τ Ref}

theorem neverFails_tell (event : Stack Activation → Event) :
    NeverFails (tell event : MachineM τ Unit) :=
  .modify _

theorem onFrame_failsWith {allowed : Cause → Prop} {act : FrameM τ α}
    (fails : FailsWith allowed act) :
    FailsWith (fun failure => ∃ cause, failure = .raised cause ∧ allowed cause) (onFrame act) := by
  intro before failure after failed
  obtain ⟨store, values, ⟨items, height, height_eq⟩, error, traceback, tracer⟩ := before
  cases items with
  | nil => cases failed
  | cons activation rest =>
      simp only [onFrame] at failed
      split at failed
      · cases failed
      · rename_i stop _ _ _ stopped
        cases stop with
        | failed cause =>
            cases failed
            exact ⟨cause, rfl, fails _ cause _ stopped⟩
        | fault broken => cases failed
        | unfinished => cases failed

theorem neverFails_onFrame {act : FrameM τ α} (never : NeverFails act) :
    NeverFails (onFrame act : MachineM τ α) := by
  intro before failure after failed
  have impossible : FailsWith (fun _ => False) act := never
  obtain ⟨_, _, absurd⟩ := onFrame_failsWith impossible before failure after failed
  exact absurd

theorem neverFails_asks (read : Activation → α) :
    NeverFails (onFrame (FrameM.asks read) : MachineM τ α) :=
  neverFails_onFrame fun _ _ _ failed => by cases failed

theorem neverFails_update (change : Activation → Activation) :
    NeverFails (onFrame (FrameM.update change) : MachineM τ Unit) :=
  neverFails_onFrame fun _ _ _ failed => by cases failed

theorem neverFails_pushAll (values : List Ref) :
    NeverFails (onFrame (FrameM.pushAll values) : MachineM τ Unit) :=
  neverFails_onFrame fun _ _ _ failed => by cases failed

theorem neverFails_acquire (ref : Ref) :
    NeverFails (onStore (StoreM.acquire ref) : MachineM τ Ref) :=
  neverFails_onStore (StoreM.neverFails_acquire ref)

variable [Tracker τ]

theorem neverFails_drainTo (level : Nat) :
    NeverFails (onFrame (FrameM.drainTo level) : MachineM τ Unit) := by
  refine neverFails_onFrame (NeverFails.bind ?_ fun values => .bind ?_ fun base => .bind ?_ fun _ =>
    FrameM.neverFails_onStore (StoreM.neverFails_releaseAll _))
  all_goals exact fun _ _ _ failed => by cases failed

/-! ### Recording errors -/

theorem neverFails_setErrorValue (error value : Ref) :
    NeverFails (setErrorValue error value : MachineM τ Unit) := by
  refine .bind .get fun machine => .bind (.modify _) fun _ => ?_
  split
  · exact neverFails_releaseAll _
  · exact .pure ()

theorem neverFails_setErrorCause (cause : Cause) :
    NeverFails (setErrorCause cause : MachineM τ Unit) := by
  unfold setErrorCause
  split
  · refine .bind (neverFails_acquire _) fun error => .bind (neverFails_onStore ?_) fun value =>
      neverFails_setErrorValue error value
    refine (neverFails_attempt _).bind fun result => ?_
    split
    · exact .pure _
    · exact StoreM.neverFails_acquire _
  · exact .bind (neverFails_acquire _) fun error => .bind (neverFails_acquire _) fun value =>
      neverFails_setErrorValue error value

theorem neverFails_record (failure : Failure) : NeverFails (record failure : MachineM τ Unit) := by
  cases failure with
  | raised cause => exact neverFails_setErrorCause cause
  | recorded => exact .pure ()

theorem neverFails_pushTraceback : NeverFails (pushTraceback : MachineM τ Unit) := by
  refine .bind (neverFails_asks _) fun place => .bind .get fun machine => ?_
  refine .bind (neverFails_onStore (neverFails_attempt _)) fun result => ?_
  split
  · exact .bind (.modify _) fun _ => neverFails_releaseAll _
  · exact .pure ()

theorem neverFails_unwindBlocks (reason : Unwinding) (blocks : List Block) :
    NeverFails (unwindBlocks reason blocks : MachineM τ Bool) := by
  induction blocks with
  | nil => exact .pure false
  | cons block rest ih =>
      refine .bind (.bind (neverFails_update _) fun _ => .bind (neverFails_tell _) fun _ =>
        neverFails_drainTo _) fun _ => ?_
      split
      · exact .bind (neverFails_update _) fun _ => .pure true
      · exact ih

theorem neverFails_unwind (reason : Unwinding) : NeverFails (unwind reason : MachineM τ Bool) := by
  have left : NeverFails (do
      unwindBlocks reason (← onFrame (FrameM.asks (·.blocks))) : MachineM τ Bool) :=
    .bind (neverFails_asks _) fun blocks => neverFails_unwindBlocks reason blocks
  have told : NeverFails (do
      tell fun frames => .unwound reason frames.height
      if reason = .error then pushTraceback
      unwindBlocks reason (← onFrame (FrameM.asks (·.blocks))) : MachineM τ Bool) := by
    refine .bind (neverFails_tell _) fun _ => ?_
    split
    · exact .bind neverFails_pushTraceback fun _ => left
    · exact left
  have checked (wrong : Prop) [Decidable wrong] (broken : Fault) {rest : MachineM τ Bool}
      (never : NeverFails rest) : NeverFails (do
        if wrong then throw (.fault broken)
        rest : MachineM τ Bool) := by
    split
    · exact .bind (.fault broken) fun _ => never
    · exact never
  exact .bind .get fun machine => checked _ _ (checked _ _ told)

/-- A frame records its error before it fails. -/
theorem runFrame_failsRecorded (fuel : Nat) :
    FailsWith (· = .recorded) (runFrame fuel : MachineM τ Ref) := by
  induction fuel with
  | zero => exact fun _ _ _ failed => by cases failed
  | succ fuel ih =>
      refine FailsWith.bind (.of_neverFails (neverFails_attempt _)) fun result => ?_
      split
      · exact ih
      · exact .of_neverFails (.bind (neverFails_unwind _) fun _ => .pure _)
      · refine FailsWith.bind (.of_neverFails (neverFails_unwind _)) fun found => ?_
        split
        · exact ih
        · exact FailsWith.bind (.of_neverFails (neverFails_setErrorCause _)) fun _ =>
            FailsWith.bind (.of_neverFails neverFails_pushTraceback) fun _ => .throw rfl
      · exact FailsWith.bind (.of_neverFails (neverFails_record _)) fun _ =>
          FailsWith.bind (.of_neverFails (neverFails_unwind _)) fun _ => .throw rfl

/-! ### Calls -/

/-- The operation fails for no cause that has to do with reading instructions, unless that has
been recorded. -/
abbrev SparesDecoding (act : MachineM τ α) : Prop :=
  FailsWith (fun failure => failure.isDecoding = false) act

/-- The operation fails for no cause that blames the code, unless that has been recorded. -/
abbrev SparesCode (act : MachineM τ α) : Prop :=
  FailsWith (fun failure => failure.blamesCode = false) act

omit [Tracker τ] in
theorem SparesCode.sparesDecoding (spares : SparesCode act) : SparesDecoding act :=
  spares.mono fun failure other => by
    cases failure with
    | raised cause => exact Cause.isDecoding_of_blamesCode other
    | recorded => rfl

omit [Tracker τ] in
theorem onStore_sparesCode {act : StoreM τ α} (spares : StoreM.SparesCode act) :
    SparesCode (onStore act : MachineM τ α) := by
  intro before failure after failed
  obtain ⟨store, values, frames, error, traceback, tracer⟩ := before
  simp only [onStore] at failed
  split at failed
  · cases failed
  · rename_i stop store' stopped
    cases stop with
    | failed cause =>
        cases failed
        exact spares store cause store' stopped
    | fault broken => cases failed
    | unfinished => cases failed

omit [Tracker τ] in
theorem onFrame_sparesDecoding {act : FrameM τ α} (spares : FrameM.SparesDecoding act) :
    SparesDecoding (onFrame act : MachineM τ α) :=
  (onFrame_failsWith spares).mono fun _ ⟨_, same, other⟩ => same ▸ other

theorem releaseAll_sparesCode (refs : List Ref) :
    SparesCode (releaseAll refs : MachineM τ Unit) :=
  .of_neverFails (neverFails_releaseAll refs)

theorem releasing_sparesCode (refs : List Ref) (body : SparesCode act) :
    SparesCode (releasing refs act) :=
  body.caught (fun value => (releaseAll_sparesCode refs).bind fun _ => .pure value)
    fun _ other => (releaseAll_sparesCode refs).bind fun _ => .throw other

theorem chargeFrame_sparesCode (depth : Nat) :
    StoreM.SparesCode (chargeFrame depth : StoreM τ Unit) := by
  intro before cause after failed
  unfold chargeFrame at failed
  simp only at failed
  split at failed <;> cases failed
  rfl

omit [Tracker τ] in
theorem getCode_sparesCode (code : Ref) :
    StoreM.SparesCode (getCode code : StoreM τ CodeObject) := by
  refine (StoreM.get_sparesCode code).bind fun payload => ?_
  split
  · exact .pure _
  · exact .throw rfl

omit [Tracker τ] in
theorem requireDict_sparesCode (ref : Ref) :
    StoreM.SparesCode (requireDict ref : StoreM τ Unit) := by
  refine (StoreM.get_sparesCode ref).bind fun payload => ?_
  split
  · exact .pure _
  · exact .throw rfl

theorem openFrame_sparesCode (back : Option Ref) (depth base : Nat)
    (code globals locals : Ref) :
    StoreM.SparesCode (openFrame back depth base code globals locals : StoreM τ _) :=
  (chargeFrame_sparesCode depth).bind fun _ => (getCode_sparesCode code).bind fun _ =>
    (requireDict_sparesCode globals).bind fun _ =>
      (requireDict_sparesCode locals).bind fun _ =>
        FailsWith.bind ((StoreM.acquireAll_sparesCode _).bind fun _ =>
          StoreM.allocate_sparesCode _) fun _ => .pure _

theorem enterFrame_sparesCode (code globals locals : Ref) :
    SparesCode (enterFrame code globals locals : MachineM τ Unit) :=
  FailsWith.bind (.of_neverFails .get) fun _ =>
    (onStore_sparesCode (openFrame_sparesCode _ _ _ _ _ _)).bind fun _ =>
      FailsWith.bind (.of_neverFails (.modify _)) fun _ => .of_neverFails (neverFails_tell _)

theorem evaluateCode_sparesCode (runs : SparesCode run) (code globals locals : Ref)
    (argument : Option Ref) :
    SparesCode (evaluateCode run code globals locals argument) := by
  refine (enterFrame_sparesCode code globals locals).caught (fun _ => ?_) fun _ other =>
    (releaseAll_sparesCode _).bind fun _ => .throw other
  refine FailsWith.bind (.of_neverFails (neverFails_pushAll _)) fun _ => ?_
  exact runs.caught
    (fun value => FailsWith.bind (.of_neverFails neverFails_leaveFrame) fun _ => .pure value)
    fun _ other => FailsWith.bind (.of_neverFails neverFails_leaveFrame) fun _ => .throw other

theorem instantiate_sparesCode (owner : Ref) (argument : Option Ref) :
    StoreM.SparesCode (instantiate owner argument : StoreM τ Ref) := by
  cases argument with
  | some argument => exact (StoreM.releaseAll_sparesCode [argument]).bind fun _ => .throw rfl
  | none =>
      exact (StoreM.allocate_sparesCode _).bind fun attrs =>
        (StoreM.acquire_sparesCode owner).bind fun _ => StoreM.allocate_sparesCode _

theorem callPlain_sparesCode (runs : SparesCode run) (callee : Ref)
    (argument : Option Ref) : SparesCode (callPlain run callee argument) := by
  refine (onStore_sparesCode (StoreM.get_sparesCode callee)).bind fun payload => ?_
  split
  · exact onStore_sparesCode (StoreM.callNative_sparesCode _ argument)
  · exact onStore_sparesCode (instantiate_sparesCode callee argument)
  · refine (onStore_sparesCode (StoreM.acquireAll_sparesCode _)).bind fun _ =>
      releasing_sparesCode _ ?_
    exact (onStore_sparesCode (StoreM.orRelease_sparesCode _
      (StoreM.allocate_sparesCode _))).bind fun locals =>
        releasing_sparesCode _ (evaluateCode_sparesCode runs _ _ locals argument)
  · exact .fault _
  · exact (releaseAll_sparesCode _).bind fun _ => .throw rfl

theorem methodArgument_sparesCode (function self : Ref) (argument : Option Ref) :
    StoreM.SparesCode (methodArgument function self argument : StoreM τ Ref) := by
  cases argument with
  | none => exact .pure self
  | some argument =>
      exact StoreM.orRelease_sparesCode [function] (StoreM.allocate_sparesCode _)

theorem call_sparesCode (runs : SparesCode run) (callee : Ref) (argument : Option Ref) :
    SparesCode (call run callee argument) := by
  refine (onStore_sparesCode (StoreM.get_sparesCode callee)).bind fun payload => ?_
  split
  · exact (onStore_sparesCode (StoreM.acquireAll_sparesCode _)).bind fun _ =>
      (onStore_sparesCode (methodArgument_sparesCode _ _ argument)).bind fun argument =>
        releasing_sparesCode _ (callPlain_sparesCode runs _ (some argument))
  · exact callPlain_sparesCode runs callee argument

/-- An instruction fails while it is read only where it does so within its frame. -/
theorem dispatch_sparesDecoding (runs : SparesCode run) {op : Opcode} {operand next : Nat}
    (inFrame : FrameM.SparesDecoding (FrameM.execute op operand next : FrameM τ Unit)) :
    SparesDecoding (dispatch run op operand next) := by
  have calls (callee : Ref) (argument : Option Ref) : SparesDecoding (do
      let result ← releasing [callee] (call run callee argument)
      onFrame (FrameM.push result)
      return .next : MachineM τ Flow) :=
    (releasing_sparesCode _ (call_sparesCode runs callee argument)).sparesDecoding.bind fun value =>
      (onFrame_sparesDecoding (FrameM.push_sparesDecoding value)).bind fun _ => .pure _
  cases op with
  | returnValue => exact (onFrame_sparesDecoding FrameM.pop_sparesDecoding).bind fun _ => .pure _
  | breakLoop => exact .pure _
  | callBare =>
      exact (onFrame_sparesDecoding FrameM.pop_sparesDecoding).bind fun callee => calls callee none
  | callWith =>
      exact (onFrame_sparesDecoding FrameM.popTwo_sparesDecoding).bind fun operands =>
        calls operands.1 (some operands.2)
  | popBlock =>
      exact (onFrame_sparesDecoding FrameM.popBlock_sparesDecoding).bind fun block =>
        FailsWith.bind (.of_neverFails (neverFails_tell _)) fun _ =>
          FailsWith.bind (.of_neverFails (neverFails_drainTo _)) fun _ => .pure _
  | setup kind =>
      exact (onFrame_sparesDecoding (FrameM.pushBlock_sparesDecoding kind _)).bind fun _ =>
        FailsWith.bind (.of_neverFails (neverFails_tell _)) fun _ => .pure _
  | _ => exact (onFrame_sparesDecoding inFrame).bind fun _ => .pure _

/-- Running frames that are called does not fail for such a cause. -/
theorem runFrame_sparesCode (fuel : Nat) : SparesCode (runFrame fuel : MachineM τ Ref) :=
  (runFrame_failsRecorded fuel).mono fun _ recorded => recorded ▸ rfl

end MachineM

end StackMachine
