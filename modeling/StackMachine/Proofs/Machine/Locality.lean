import StackMachine.Machine.Instructions
import StackMachine.Proofs.Store.Accounting

/-!
# What a frame leaves alone

All frames share one stack of values.  An operation is `Local` if those of the frames
around are nothing to it: whatever they are, it ends in the same way, and it leaves
them where they are.  This says that none of them is read, taken away or moved.

Locality is kept when operations are put together.  Taking a value off is local
because it asks first whether the frame has one; so the operations that ask and take
are local as wholes, and their parts are not.
-/

namespace StackMachine

/-- A stack on top of other items. -/
def Stack.on {α : Type} (stack : Stack α) (below : List α) : Stack α :=
  ⟨stack.items ++ below, stack.height + below.length,
    by rw [List.length_append, stack.height_eq]⟩

namespace Stack

variable {α : Type} {stack : Stack α} {below : List α}

@[simp] theorem items_on : (stack.on below).items = stack.items ++ below :=
  rfl

theorem height_on : (stack.on below).height = stack.items.length + below.length :=
  congrArg (· + below.length) stack.height_eq

theorem pushAll_on (items : List α) :
    (stack.on below).pushAll items = (stack.pushAll items).on below :=
  ext_items (List.append_assoc items stack.items below).symm

theorem push_on (item : α) : (stack.on below).push item = (stack.push item).on below :=
  ext_items rfl

theorem drop_on {count : Nat} (enough : count ≤ stack.items.length) :
    (stack.on below).drop count = (stack.drop count).on below :=
  ext_items (List.drop_append_of_le_length enough)

end Stack

/-- A state with values of which the lowest belong to others. -/
class Layered (σ : Type) where
  /-- The state with some values below those it has. -/
  on : σ → List Ref → σ
  /-- How many values belong to others. -/
  base : σ → Nat
  /-- Is all that belongs to others, but for their values, the same? -/
  Kept : σ → σ → Prop
  kept_refl : ∀ state, Kept state state
  kept_trans : ∀ {first second third}, Kept first second → Kept second third → Kept first third
  base_eq : ∀ {first second}, Kept first second → base second = base first

namespace Outcome

variable {φ σ α β : Type}

/-- What holds of the state in which an operation returned or failed. -/
def Returns (result : EStateM.Result (Stop φ) σ α) (holds : σ → Prop) : Prop :=
  match result with
  | .ok _ state => holds state
  | .error (.failed _) state => holds state
  | .error _ _ => True

/-- The same result in another state. -/
def mapState (change : σ → σ) : EStateM.Result (Stop φ) σ α → EStateM.Result (Stop φ) σ α
  | .ok value state => .ok value (change state)
  | .error stop state => .error stop (change state)

theorem Returns.mono {result : EStateM.Result (Stop φ) σ α} {holds holds' : σ → Prop}
    (returns : Returns result holds) (imp : ∀ state, holds state → holds' state) :
    Returns result holds' := by
  cases result with
  | ok value state => exact imp state returns
  | error stop state =>
      cases stop with
      | failed failure => exact imp state returns
      | fault broken => trivial
      | unfinished => trivial

variable [Layered σ]

/-- An operation ends in the same way above all lists of `size` values and leaves them
in place.  What `kept` says holds of the state where it returned or failed. -/
def Oblivious (size : Nat) (kept : σ → Prop) (act : EStateM (Stop φ) σ α) (state : σ) : Prop :=
  ∃ result, Returns result kept ∧
    ∀ below : List Ref, below.length = size →
      act (Layered.on state below) = mapState (Layered.on · below) result

/-- Is an operation, in some state, the same above all values that belong to others? -/
def LocalAt (act : EStateM (Stop φ) σ α) (state : σ) : Prop :=
  Oblivious (Layered.base state) (Layered.Kept state) act state

/-- Is an operation the same above all values that belong to others? -/
def Local (act : EStateM (Stop φ) σ α) : Prop :=
  ∀ state, LocalAt act state

section Composition

variable {act : EStateM (Stop φ) σ α} {next : α → EStateM (Stop φ) σ β} {state : σ}

theorem Oblivious.mono {size : Nat} {kept kept' : σ → Prop} (body : Oblivious size kept act state)
    (imp : ∀ after, kept after → kept' after) : Oblivious size kept' act state := by
  obtain ⟨result, returns, same⟩ := body
  exact ⟨result, returns.mono imp, same⟩

theorem Oblivious.bind {size : Nat} {kept middle : σ → Prop}
    (first : Oblivious size middle act state) (failed : ∀ after, middle after → kept after)
    (second : ∀ value after, middle after → Oblivious size kept (next value) after) :
    Oblivious size kept (act >>= next) state := by
  obtain ⟨result, returns, same⟩ := first
  cases result with
  | ok value after =>
      obtain ⟨final, returnsFinal, sameFinal⟩ := second value after returns
      refine ⟨final, returnsFinal, fun below length => ?_⟩
      show EStateM.bind act next _ = _
      rw [EStateM.bind, same below length]
      exact sameFinal below length
  | error stop after =>
      refine ⟨.error stop after, ?_, fun below length => ?_⟩
      · cases stop with
        | failed failure => exact failed after returns
        | fault broken => trivial
        | unfinished => trivial
      · show EStateM.bind act next _ = _
        rw [EStateM.bind, same below length]
        rfl

theorem LocalAt.bind (first : LocalAt act state)
    (second : ∀ value after, Layered.Kept state after → LocalAt (next value) after) :
    LocalAt (act >>= next) state := by
  refine Oblivious.bind first (fun _ => id) fun value after kept => ?_
  have rest := second value after kept
  rw [LocalAt, Layered.base_eq kept] at rest
  exact rest.mono fun _ => Layered.kept_trans kept

/-- What comes after an operation whose outcome is known. -/
theorem LocalAt.bind_ok {value : α} {after : σ} (kept : Layered.Kept state after)
    (returned : ∀ below : List Ref, below.length = Layered.base state →
      act (Layered.on state below) = .ok value (Layered.on after below))
    (rest : LocalAt (next value) after) : LocalAt (act >>= next) state := by
  obtain ⟨result, keptFinal, same⟩ := rest
  refine ⟨result, keptFinal.mono fun last => Layered.kept_trans kept, fun below length => ?_⟩
  show EStateM.bind act next _ = _
  rw [EStateM.bind, returned below length]
  exact same below (length.trans (Layered.base_eq kept).symm)

theorem Local.bind (first : Local act) (second : ∀ value, Local (next value)) :
    Local (act >>= next) :=
  fun state => (first state).bind fun value after _ => second value after

theorem Local.pure (value : α) : Local (pure value : EStateM (Stop φ) σ α) :=
  fun state => ⟨.ok value state, Layered.kept_refl state, fun _ _ => rfl⟩

theorem Local.throw (stop : Stop φ) : Local (throw stop : EStateM (Stop φ) σ α) := by
  intro state
  refine ⟨.error stop state, ?_, fun _ _ => rfl⟩
  cases stop with
  | failed failure => exact Layered.kept_refl state
  | fault broken => trivial
  | unfinished => trivial

theorem Local.ite {condition : Prop} [Decidable condition] {other : EStateM (Stop φ) σ α}
    (first : Local act) (second : Local other) :
    Local (if condition then act else other) := by
  split
  · exact first
  · exact second

theorem Oblivious.attempt {size : Nat} {kept : σ → Prop} (body : Oblivious size kept act state) :
    Oblivious size kept (attempt act) state := by
  obtain ⟨result, returns, same⟩ := body
  cases result with
  | ok value after =>
      refine ⟨.ok (.ok value) after, returns, fun below length => ?_⟩
      rw [Outcome.attempt, same below length]
      rfl
  | error stop after =>
      cases stop with
      | failed failure =>
          refine ⟨.ok (.error failure) after, returns, fun below length => ?_⟩
          rw [Outcome.attempt, same below length]
          rfl
      | fault broken =>
          refine ⟨.error (.fault broken) after, trivial, fun below length => ?_⟩
          rw [Outcome.attempt, same below length]
          rfl
      | unfinished =>
          refine ⟨.error .unfinished after, trivial, fun below length => ?_⟩
          rw [Outcome.attempt, same below length]
          rfl

theorem Local.attempt (body : Local act) : Local (attempt act) :=
  fun state => (body state).attempt

end Composition

end Outcome

namespace FrameM

open Outcome

variable {τ α β : Type}

/-- Within a frame, the values of others are those below the frame's base. -/
instance : Layered (FrameState τ) where
  on state below := { state with values := state.values.on below }
  base state := state.activation.base
  Kept before after := after.activation.base = before.activation.base
  kept_refl _ := rfl
  kept_trans first second := second.trans first
  base_eq same := same

/-! ## Parts that do not touch the values -/

theorem onStore_local (act : StoreM τ α) : Local (onStore act) := by
  rintro ⟨store, values, activation⟩
  cases result : act store with
  | ok value after =>
      refine ⟨.ok value ⟨after, values, activation⟩, rfl, fun below _ => ?_⟩
      show onStore act ⟨store, values.on below, activation⟩ = _
      rw [onStore, result]
      rfl
  | error stop after =>
      refine ⟨.error stop ⟨after, values, activation⟩, ?_, fun below _ => ?_⟩
      · cases stop with
        | failed cause => exact rfl
        | fault broken => trivial
        | unfinished => trivial
      · show onStore act ⟨store, values.on below, activation⟩ = _
        rw [onStore, result]
        rfl

theorem raise_local (cause : Cause) : Local (raise cause : FrameM τ α) :=
  .throw (.failed cause)

theorem asks_local (read : Activation → α) : Local (asks read : FrameM τ α) :=
  fun state => ⟨.ok (read state.activation) state, rfl, fun _ _ => rfl⟩

theorem update_local {change : Activation → Activation}
    (fixed : ∀ activation, (change activation).base = activation.base) :
    Local (update change : FrameM τ Unit) :=
  fun state => ⟨.ok () { state with activation := change state.activation },
    fixed state.activation, fun _ _ => rfl⟩

theorem nameAt_local (index : Nat) : Local (nameAt index : FrameM τ String) := by
  refine (asks_local _).bind fun name? => ?_
  cases name? with
  | some name => exact .pure name
  | none => exact raise_local _

theorem jumpTo_local (offset : Nat) : Local (jumpTo offset : FrameM τ Unit) :=
  update_local fun _ => rfl

/-! ## Putting values on and taking them off -/

/-- The values of others may be looked at, if nothing that is done with them shows. -/
theorem allValues_bind_localAt {state : FrameState τ} {next : Stack Ref → FrameM τ α}
    (value : α) (after : FrameState τ) (kept : after.activation.base = state.activation.base)
    (same : ∀ below, below.length = state.activation.base →
      next (state.values.on below) (Layered.on state below) = .ok value (Layered.on after below)) :
    LocalAt (allValues >>= next) state :=
  ⟨.ok value after, kept, same⟩

/-- The values are replaced by others above those that belong to others. -/
theorem setValues_on {state : FrameState τ} {values : Stack Ref} (below : List Ref) :
    setValues (values.on below) (Layered.on state below) =
      .ok () (Layered.on { state with values } below) :=
  rfl

theorem pushAll_local (values : List Ref) : Local (pushAll values : FrameM τ Unit) := by
  intro state
  let after : FrameState τ := { state with values := state.values.pushAll values }
  refine allValues_bind_localAt () after rfl fun below _ => ?_
  rw [Stack.pushAll_on, setValues_on]

theorem push_local (value : Ref) : Local (push value : FrameM τ Unit) := by
  intro state
  let after : FrameState τ := { state with values := state.values.push value }
  refine allValues_bind_localAt () after rfl fun below _ => ?_
  rw [Stack.push_on, setValues_on]

/-- Above the values of others, a frame has as many values as lie there. -/
theorem depth_on {state : FrameState τ} {below : List Ref}
    (length : below.length = state.activation.base) :
    (depth : FrameM τ Nat) (Layered.on state below) =
      .ok state.values.items.length (Layered.on state below) := by
  show (if state.activation.base ≤ (state.values.on below).height then _ else _) = _
  rw [Stack.height_on, if_pos (by omega)]
  congr 1
  show (state.values.on below).height - state.activation.base = _
  rw [Stack.height_on]
  omega

theorem depth_local : Local (depth : FrameM τ Nat) :=
  fun state => ⟨.ok state.values.items.length state, rfl, fun _ length => depth_on length⟩

/-- What follows the check that there are enough values is local if it is where there are. -/
theorem requireDepth_bind_local {count : Nat} {next : Unit → FrameM τ α}
    (enough : ∀ state : FrameState τ, count ≤ state.values.items.length → LocalAt (next ()) state) :
    Local (requireDepth count >>= next) := by
  intro state
  have asked : ∀ below : List Ref, below.length = state.activation.base →
      (requireDepth count : FrameM τ Unit) (Layered.on state below) =
        if state.values.items.length < count then
          .error (.failed .valueUnderflow) (Layered.on state below)
        else .ok () (Layered.on state below) := by
    intro below length
    show EStateM.bind depth _ _ = _
    rw [EStateM.bind, depth_on length]
    simp only
    split <;> rfl
  by_cases few : state.values.items.length < count
  · refine ⟨.error (.failed .valueUnderflow) state, rfl, fun below length => ?_⟩
    show EStateM.bind (requireDepth count) next _ = _
    rw [EStateM.bind, asked below length, if_pos few]
    rfl
  · obtain ⟨result, kept, same⟩ := enough state (Nat.le_of_not_lt few)
    refine ⟨result, kept, fun below length => ?_⟩
    show EStateM.bind (requireDepth count) next _ = _
    rw [EStateM.bind, asked below length, if_neg few]
    exact same below length

/-- The topmost value is the frame's own where the frame has one. -/
theorem takeTop_bind_localAt {state : FrameState τ} {next : Ref → FrameM τ α} {top : Ref}
    {rest : List Ref} (items : state.values.items = top :: rest)
    (following : ∀ after : FrameState τ, after.values.items = rest → LocalAt (next top) after) :
    LocalAt (takeTop >>= next) state := by
  have kept : Layered.Kept state { state with values := state.values.drop 1 } := rfl
  refine LocalAt.bind_ok kept (fun below _ => ?_) (following _ (by simp [items]))
  have read : (allValues : FrameM τ (Stack Ref)) (Layered.on state below) =
      .ok (state.values.on below) (Layered.on state below) := rfl
  rw [takeTop, StoreM.bind_ok read, Stack.items_on, items, List.cons_append]
  simp only
  rw [Stack.drop_on (by simp [items]), StoreM.bind_ok (setValues_on below)]
  rfl

theorem pop_local : Local (pop : FrameM τ Ref) := by
  refine requireDepth_bind_local fun state enough => ?_
  cases items : state.values.items with
  | nil => simp [items] at enough
  | cons top rest =>
      have whole : LocalAt (takeTop >>= pure : FrameM τ Ref) state :=
        takeTop_bind_localAt items fun after _ => Local.pure top after
      rwa [bind_pure] at whole

theorem popTwo_local : Local (popTwo : FrameM τ (Ref × Ref)) := by
  refine requireDepth_bind_local fun state enough => ?_
  rcases items : state.values.items with _ | ⟨top, _ | ⟨second, rest⟩⟩
  · simp [items] at enough
  · simp [items] at enough
  · refine takeTop_bind_localAt items fun _ left => ?_
    exact takeTop_bind_localAt left fun last _ => Local.pure _ last

theorem popThree_local : Local (popThree : FrameM τ (Ref × Ref × Ref)) := by
  refine requireDepth_bind_local fun state enough => ?_
  rcases items : state.values.items with _ | ⟨top, _ | ⟨second, _ | ⟨third, rest⟩⟩⟩
  · simp [items] at enough
  · simp [items] at enough
  · simp [items] at enough
  · refine takeTop_bind_localAt items fun _ left => ?_
    refine takeTop_bind_localAt left fun _ left => ?_
    exact takeTop_bind_localAt left fun last _ => Local.pure _ last

theorem popMany_local (count : Nat) : Local (popMany count : FrameM τ (List Ref)) := by
  refine requireDepth_bind_local fun state enough => ?_
  let after : FrameState τ := { state with values := state.values.drop count }
  refine allValues_bind_localAt (state.values.items.take count).reverse after rfl fun below _ => ?_
  rw [if_neg (by rw [Stack.height_on]; omega), Stack.drop_on enough,
    StoreM.bind_ok (setValues_on below), Stack.items_on, List.take_append_of_le_length enough]
  rfl

theorem peek_local : Local (peek : FrameM τ Ref) := by
  refine requireDepth_bind_local fun state enough => ?_
  cases items : state.values.items with
  | nil => simp [items] at enough
  | cons top rest =>
      refine allValues_bind_localAt top state rfl fun below _ => ?_
      rw [Stack.top?, Stack.items_on, items]
      rfl

/-- What is above a level is given back; the level is one of the frame's own values. -/
theorem drainTo_local [Tracker τ] (level : Nat) : Local (drainTo level : FrameM τ Unit) := by
  intro state
  let surplus := state.values.items.length - level
  have enough : surplus ≤ state.values.items.length := Nat.sub_le _ _
  obtain ⟨result, kept, same⟩ := onStore_local (StoreM.releaseAll (state.values.items.take surplus))
    { state with values := state.values.drop surplus }
  refine ⟨result, kept, fun below length => ?_⟩
  have counted : (state.values.on below).height - (state.activation.base + level) = surplus := by
    have owned : below.length = state.activation.base := length
    rw [Stack.height_on, owned]
    omega
  show (setValues ((state.values.on below).drop
      ((state.values.on below).height - (state.activation.base + level))) >>= fun _ =>
    onStore (StoreM.releaseAll ((state.values.on below).items.take
      ((state.values.on below).height - (state.activation.base + level)))) : FrameM τ Unit)
    (Layered.on state below) = _
  rw [counted, Stack.drop_on enough, StoreM.bind_ok (setValues_on below), Stack.items_on,
    List.take_append_of_le_length enough]
  exact same below length

/-! ## Blocks -/

theorem pushBlock_local (kind : BlockKind) (handler : Nat) :
    Local (pushBlock kind handler : FrameM τ Unit) := by
  refine (asks_local _).bind fun blocks => .ite (raise_local _) ?_
  exact depth_local.bind fun level => update_local fun _ => rfl

theorem popBlock_local : Local (popBlock : FrameM τ Block) := by
  refine (asks_local _).bind fun blocks => ?_
  cases blocks with
  | nil => exact raise_local _
  | cons block rest =>
      refine Local.bind ?_ fun _ => .pure block
      exact update_local fun _ => rfl

/-! ## Instructions -/

section Instructions

variable [Tracker τ]

theorem releaseAll_local (refs : List Ref) : Local (releaseAll refs : FrameM τ Unit) :=
  onStore_local _

omit [Tracker τ] in
theorem rotateTwo_local : Local (rotateTwo : FrameM τ Unit) := by
  refine requireDepth_bind_local fun state enough => ?_
  rcases items : state.values.items with _ | ⟨top, _ | ⟨second, rest⟩⟩
  · simp [items] at enough
  · simp [items] at enough
  · let values := (state.values.drop 2).pushAll [second, top]
    refine allValues_bind_localAt () { state with values } rfl fun below _ => ?_
    rw [Stack.items_on, items]
    simp only [List.cons_append]
    rw [Stack.drop_on enough, Stack.pushAll_on, setValues_on]

omit [Tracker τ] in
theorem rotateThree_local : Local (rotateThree : FrameM τ Unit) := by
  refine requireDepth_bind_local fun state enough => ?_
  rcases items : state.values.items with _ | ⟨top, _ | ⟨second, _ | ⟨third, rest⟩⟩⟩
  · simp [items] at enough
  · simp [items] at enough
  · simp [items] at enough
  · let values := (state.values.drop 3).pushAll [second, third, top]
    refine allValues_bind_localAt () { state with values } rfl fun below _ => ?_
    rw [Stack.items_on, items]
    simp only [List.cons_append]
    rw [Stack.drop_on enough, Stack.pushAll_on, setValues_on]

omit [Tracker τ] in
/-- What an operation on the store yields is put on top. -/
theorem pushing_local (act : StoreM τ Ref) : Local (do push (← onStore act) : FrameM τ Unit) :=
  (onStore_local act).bind push_local

theorem applyUnary_local (operation : Ref → StoreM τ Ref) :
    Local (applyUnary operation : FrameM τ Unit) :=
  pop_local.bind fun _ => pushing_local _

theorem applyBinary_local (operation : Ref → Ref → StoreM τ Ref) :
    Local (applyBinary operation : FrameM τ Unit) :=
  popTwo_local.bind fun _ => pushing_local _

theorem invert_local : Local (invert : FrameM τ Unit) := by
  refine pop_local.bind fun operand => (onStore_local _).bind fun payload => ?_
  exact (releaseAll_local _).bind fun _ => pushing_local _

theorem compare_local (operand : Nat) : Local (compare operand : FrameM τ Unit) := by
  unfold compare
  cases Comparison.ofOperand? operand with
  | none => exact raise_local _
  | some comparison =>
      exact popTwo_local.bind fun _ => (onStore_local _).bind fun _ => pushing_local _

theorem storeSubscript_local : Local (storeSubscript : FrameM τ Unit) := by
  refine popThree_local.bind fun operands => (onStore_local _).bind fun place => ?_
  exact (releaseAll_local _).bind fun _ => onStore_local _

theorem slice_local (low high : Bool) : Local (slice low high : FrameM τ Unit) := by
  refine (popMany_local _).bind fun operands => ?_
  cases operands with
  | nil => exact raise_local _
  | cons sequence bounds => exact (onStore_local _).bind push_local

theorem buildFunction_local : Local (buildFunction : FrameM τ Unit) := by
  refine pop_local.bind fun code => (onStore_local _).bind fun payload => ?_
  split
  · exact (asks_local _).bind fun globals => (onStore_local _).bind fun _ => pushing_local _
  · exact (releaseAll_local _).bind fun _ => raise_local _

theorem buildClass_local : Local (buildClass : FrameM τ Unit) := by
  refine pop_local.bind fun attrs => (onStore_local _).bind fun payload => ?_
  split
  · exact pushing_local _
  · exact (releaseAll_local _).bind fun _ => raise_local _

theorem buildSequence_local (pack : Array Ref → Payload) (count : Nat) :
    Local (buildSequence pack count : FrameM τ Unit) :=
  (popMany_local count).bind fun _ => pushing_local _

theorem unpack_local (kind : Kind) (count : Nat) : Local (unpack kind count : FrameM τ Unit) :=
  pop_local.bind fun _ => (onStore_local _).bind pushAll_local

omit [Tracker τ] in
theorem loadConst_local (index : Nat) : Local (loadConst index : FrameM τ Unit) := by
  refine (asks_local _).bind fun code => (onStore_local _).bind fun payload => ?_
  split
  · split
    · exact pushing_local _
    · exact raise_local _
  · exact raise_local _

omit [Tracker τ] in
theorem loadName_local (index : Nat) : Local (loadName index : FrameM τ Unit) := by
  refine (nameAt_local index).bind fun name => (asks_local _).bind fun scopes => ?_
  exact (onStore_local _).bind fun found => pushing_local _

theorem storeName_local (index : Nat) : Local (storeName index : FrameM τ Unit) := by
  refine (nameAt_local index).bind fun name => pop_local.bind fun value => ?_
  exact (asks_local _).bind fun locals => onStore_local _

theorem loadAttr_local (index : Nat) : Local (loadAttr index : FrameM τ Unit) :=
  (nameAt_local index).bind fun _ => applyUnary_local _

theorem storeAttr_local (index : Nat) : Local (storeAttr index : FrameM τ Unit) :=
  (nameAt_local index).bind fun _ => popTwo_local.bind fun _ => onStore_local _

theorem importFrom_local (index : Nat) : Local (importFrom index : FrameM τ Unit) := by
  refine (nameAt_local index).bind fun name => peek_local.bind fun top => ?_
  refine (onStore_local _).bind fun payload => ?_
  split
  · refine (onStore_local _).bind fun found => (onStore_local _).bind fun value => ?_
    exact (asks_local _).bind fun locals => onStore_local _
  · exact raise_local _

omit [Tracker τ] in
theorem jumpIf_local (condition : Bool) (target : Nat) :
    Local (jumpIf condition target : FrameM τ Unit) :=
  peek_local.bind fun _ => (onStore_local _).bind fun _ => .ite (jumpTo_local _) (.pure ())

theorem forLoop_local (exhausted : Nat) : Local (forLoop exhausted : FrameM τ Unit) := by
  refine popTwo_local.bind fun operands => (onStore_local _).bind fun payload => ?_
  refine (releaseAll_local _).bind fun _ => ?_
  split
  · exact (releaseAll_local _).bind fun _ => raise_local _
  · refine (onStore_local _).bind fun item? => ?_
    cases item? with
    | none => exact (releaseAll_local _).bind fun _ => jumpTo_local _
    | some item => exact (onStore_local _).bind fun next => pushAll_local _

theorem execute_local (op : Opcode) (operand next : Nat) :
    Local (execute op operand next : FrameM τ Unit) := by
  cases op with
  | popTop => exact pop_local.bind fun _ => releaseAll_local _
  | printTop => exact pop_local.bind fun _ => releaseAll_local _
  | rotTwo => exact rotateTwo_local
  | rotThree => exact rotateThree_local
  | dupTop => exact peek_local.bind fun _ => pushing_local _
  | negate => exact applyUnary_local _
  | invert => exact invert_local
  | arithmetic operation => exact applyBinary_local _
  | subscript => exact applyBinary_local _
  | slice low high => exact slice_local low high
  | storeSubscript => exact storeSubscript_local
  | loadLocals => exact (asks_local _).bind fun _ => pushing_local _
  | requireArgs => exact depth_local.bind fun _ => .ite (raise_local _) (.pure ())
  | refuseArgs => exact depth_local.bind fun _ => .ite (.pure ()) (raise_local _)
  | buildFunction => exact buildFunction_local
  | buildClass => exact buildClass_local
  | storeName => exact storeName_local operand
  | unpackTuple => exact unpack_local .tuple operand
  | unpackList => exact unpack_local .list operand
  | storeAttr => exact storeAttr_local operand
  | loadConst => exact loadConst_local operand
  | loadName => exact loadName_local operand
  | buildTuple => exact buildSequence_local .tuple operand
  | buildList => exact buildSequence_local .list operand
  | buildMap => exact pushing_local _
  | loadAttr => exact loadAttr_local operand
  | compare => exact compare_local operand
  | importName => exact (nameAt_local operand).bind fun _ => pushing_local _
  | importFrom => exact importFrom_local operand
  | jumpForward => exact jumpTo_local _
  | jumpIfFalse => exact jumpIf_local false _
  | jumpIfTrue => exact jumpIf_local true _
  | jumpAbsolute => exact jumpTo_local _
  | forLoop => exact forLoop_local _
  | setLine =>
      unfold execute
      exact update_local fun _ => rfl
  | callBare => exact .pure ()
  | callWith => exact .pure ()
  | breakLoop => exact .pure ()
  | returnValue => exact .pure ()
  | popBlock => exact .pure ()
  | setup kind => exact .pure ()

end Instructions

end FrameM

end StackMachine
