import StackMachine.Proofs.Machine.Causes
import StackMachine.Proofs.Machine.Frame

/-!
# Operands of instructions

How many values an instruction asks its frame for depends on the operation code and the operand
alone.  The number is checked before anything else is done to the store: an instruction is put
together from an operation that takes values, `FrameM.Takes`, and others that never fail for want
of them.  So if the frame has too few, nothing was done, and if the instruction is carried out, it
took a number of values off the top and put others on.
-/

namespace StackMachine

namespace Opcode

/-- How many values of its frame an instruction asks for. -/
def need (op : Opcode) (operand : Nat) : Nat :=
  match op with
  | .popTop | .printTop | .dupTop | .negate | .invert | .callBare | .returnValue | .buildFunction
  | .buildClass | .storeName | .unpackTuple | .unpackList | .loadAttr | .importFrom
  | .jumpIfFalse | .jumpIfTrue => 1
  | .rotTwo | .arithmetic _ | .subscript | .callWith | .storeAttr | .compare | .forLoop => 2
  | .rotThree | .storeSubscript => 3
  | .slice low high => 1 + low.toNat + high.toNat
  | .buildTuple | .buildList => operand
  | .breakLoop | .loadLocals | .requireArgs | .refuseArgs | .popBlock | .loadConst | .loadName
  | .buildMap | .importName | .jumpForward | .jumpAbsolute | .setup _ | .setLine => 0

/-- How many of them it takes off; the others are only looked at. -/
def takes (op : Opcode) (operand : Nat) : Nat :=
  match op with
  | .dupTop | .importFrom | .jumpIfFalse | .jumpIfTrue => 0
  | _ => op.need operand

/-- How many values it puts on.  A loop that goes on gives the sequence back, and an index and an
item; `Opcode.Continues` says what one does that is over. -/
def gives (op : Opcode) (operand : Nat) : Nat :=
  match op with
  | .dupTop | .negate | .invert | .callBare | .callWith | .arithmetic _ | .subscript | .slice _ _
  | .loadLocals | .buildFunction | .buildClass | .loadConst | .loadName | .buildTuple | .buildList
  | .buildMap | .loadAttr | .compare | .importName => 1
  | .rotTwo => 2
  | .rotThree | .forLoop => 3
  | .unpackTuple | .unpackList => operand
  | .popTop | .printTop | .storeSubscript | .breakLoop | .returnValue | .requireArgs | .refuseArgs
  | .popBlock | .storeName | .storeAttr | .importFrom | .jumpForward | .jumpIfFalse | .jumpIfTrue
  | .jumpAbsolute | .setup _ | .setLine => 0

/-- How many values an instruction puts on, and how the frame goes on if it does not simply do so
behind the instruction, at `next`.  A jump may be taken or not; a loop takes it once it is over, and
puts nothing on then.  A block that is set up ends where a jump would lead. -/
def Continues (op : Opcode) (operand next : Nat) (before after : Activation) (given : Nat) : Prop :=
  match op with
  | .forLoop =>
      given = 3 ∧ after.offset = before.offset ∨ given = 0 ∧ after.offset = next + operand
  | .jumpIfFalse | .jumpIfTrue =>
      given = 0 ∧ (after.offset = before.offset ∨ after.offset = next + operand)
  | .jumpForward => given = 0 ∧ after.offset = next + operand
  | .jumpAbsolute => given = 0 ∧ after.offset = operand
  | .setup kind =>
      given = 0 ∧ ∃ level,
        after = { before with blocks := ⟨kind, next + operand, level⟩ :: before.blocks }
  | _ => given = op.gives operand

/-- How many of `count` values an instruction leaves where they are.  The one that leaves a block
takes the values above the level of that block. -/
def leaves (op : Opcode) (operand : Nat) (blocks : List Block) (count : Nat) : Nat :=
  match op, blocks with
  | .popBlock, block :: _ => min count block.level
  | _, _ => count - op.takes operand

/-- Does the instruction concern more than the frame itself? -/
def reachesOut : Opcode → Bool
  | .callBare | .callWith | .breakLoop | .returnValue | .popBlock | .setup _ => true
  | _ => false

end Opcode

open Outcome

variable {τ α β : Type}

/-! ## Operations within a frame -/

namespace FrameM

variable {act : FrameM τ α} {need taken count index : Nat} {gives : α → List Ref}
variable {change : Activation → Activation → Nat → Prop}

/-- An operation that asks for `need` values takes the `taken` topmost ones, if it returns, and
puts others on.  `change` knows how many they are and what becomes of the activation.  Where the
frame has fewer values than that the operation does nothing but say so. -/
structure Handles (act : FrameM τ α) (need taken : Nat)
    (change : Activation → Activation → Nat → Prop) : Prop where
  returns : ∀ {state after : FrameState τ} {own below : List Ref} {value : α},
    state.Splits own below → act state = .ok value after → need ≤ own.length ∧
      ∃ fresh, after.Splits (fresh ++ own.drop taken) below ∧
        change state.activation after.activation fresh.length
  lacks : ∀ {state after : FrameState τ} {own below : List Ref},
    state.Splits own below → act state = .error (.failed .valueUnderflow) after →
      own.length < need ∧ after = state

/-- The operation asks for no values and takes none. -/
abbrev Adds (act : FrameM τ α) (change : Activation → Activation → Nat → Prop) : Prop :=
  Handles act 0 0 change

theorem peek_takes : Takes (peek : FrameM τ Ref) 1 0 (fun _ => []) := by
  refine .of_enough (Nat.zero_le 1) fun {state own below} splits enough => ?_
  obtain ⟨top, rest, rfl⟩ := List.exists_cons_of_length_pos enough
  have read : (allValues : FrameM τ (Stack Ref)) state = .ok state.values state := rfl
  have found : state.values.top? = some top := by rw [Stack.top?, splits.items]; rfl
  exact ⟨top, by rw [StoreM.bind_ok read, found]; rfl, List.Perm.refl _⟩

theorem onStore_bind_cases (act : StoreM τ α) (next : α → FrameM τ β) (state : FrameState τ) :
    (∃ value store, act state.store = .ok value store ∧
      (onStore act >>= next) state = next value { state with store }) ∨
    (∃ stop store, act state.store = .error stop store ∧
      (onStore act >>= next) state = .error stop { state with store }) := by
  cases worked : act state.store with
  | ok value store => exact Or.inl ⟨value, store, rfl, StoreM.bind_ok (onStore_eq worked)⟩
  | error stop store =>
      have stopped : onStore act state = .error stop { state with store } := by
        rw [onStore, worked]
      exact Or.inr ⟨stop, store, rfl, bind_error stopped⟩

/-- Where values are taken, there are too few of them or it goes on with those that are left. -/
theorem Takes.bind_cases {next : α → FrameM τ β} {state : FrameState τ} {own below : List Ref}
    (takes : Takes act need taken gives) (splits : state.Splits own below) :
    (own.length < need ∧ (act >>= next) state = .error (.failed .valueUnderflow) state) ∨
    (need ≤ own.length ∧ ∃ value values, (gives value).length = taken ∧
      ({ state with values } : FrameState τ).Splits (own.drop taken) below ∧
      (act >>= next) state = next value { state with values }) := by
  rcases Nat.lt_or_ge own.length need with few | inside
  · exact Or.inl ⟨few, bind_error (takes.few splits few)⟩
  · obtain ⟨value, took, perm⟩ := takes.enough splits inside
    have enough : taken ≤ own.length := takes.le.trans inside
    refine Or.inr ⟨inside, value, state.values.drop taken, ?_, ⟨?_, splits.base⟩,
      StoreM.bind_ok took⟩
    · rw [← perm.length_eq, List.length_take_of_le enough]
    · rw [Stack.items_drop, splits.items, List.drop_append_of_le_length enough]

/-- Values are taken before anything else is done. -/
theorem Takes.bind {next : α → FrameM τ β} (takes : Takes act need taken gives)
    (rest : ∀ value, (gives value).length = taken → Adds (next value) change) :
    Handles (act >>= next) need taken change where
  returns splits ran := by
    rcases takes.bind_cases splits with ⟨-, same⟩ | ⟨inside, value, values, length, left, same⟩
    · rw [same] at ran
      cases ran
    · rw [same] at ran
      exact ⟨inside, ((rest value length).returns left ran).2⟩
  lacks splits ran := by
    rcases takes.bind_cases splits with ⟨few, same⟩ | ⟨inside, value, values, length, left, same⟩
    · rw [same] at ran
      cases ran
      exact ⟨few, rfl⟩
    · rw [same] at ran
      exact absurd ((rest value length).lacks left ran).1 (Nat.not_lt_zero _)

namespace Handles

variable {next : α → FrameM τ β}

theorem asks_bind {read : Activation → α} (rest : ∀ value, Handles (next value) need taken change) :
    Handles (asks read >>= next) need taken change where
  returns splits ran := (rest _).returns splits ran
  lacks splits ran := (rest _).lacks splits ran

theorem raise {cause : Cause} (other : cause ≠ .valueUnderflow) :
    Handles (FrameM.raise cause : FrameM τ α) need taken change where
  returns _ ran := by cases ran
  lacks _ ran := by
    cases ran
    exact absurd rfl other

/-- A name is looked up before values are taken. -/
theorem nameAt_bind {next : String → FrameM τ β}
    (rest : ∀ name, Handles (next name) need taken change) :
    Handles (nameAt index >>= next) need taken change := by
  unfold nameAt
  rw [bind_assoc]
  refine asks_bind fun found => ?_
  cases found with
  | some name => exact rest name
  | none => exact raise nofun

theorem pure {value : α} (nothing : ∀ activation, change activation activation 0) :
    Adds (Pure.pure value : FrameM τ α) change where
  returns splits ran := by
    cases ran
    exact ⟨Nat.zero_le _, [], splits, nothing _⟩
  lacks _ ran := by cases ran

/-- What is done to the store does not show in the values. -/
theorem onStore_bind_of {act : StoreM τ α} (spares : StoreM.SparesCode act)
    (rest : ∀ before value after, act before = .ok value after → Adds (next value) change) :
    Adds (onStore act >>= next) change where
  returns {state after own below value} splits ran := by
    rcases onStore_bind_cases act next state with
      ⟨first, store, worked, same⟩ | ⟨stop, store, -, same⟩
    · have left : ({ state with store } : FrameState τ).Splits own below :=
        ⟨splits.items, splits.base⟩
      have added := (rest _ first _ worked).returns left (same ▸ ran)
      exact added
    · rw [same] at ran
      cases ran
  lacks {state after own below} splits ran := by
    rcases onStore_bind_cases act next state with
      ⟨first, store, worked, same⟩ | ⟨stop, store, worked, same⟩
    · have left : ({ state with store } : FrameState τ).Splits own below :=
        ⟨splits.items, splits.base⟩
      exact absurd ((rest _ first _ worked).lacks left (same ▸ ran)).1 (Nat.not_lt_zero _)
    · rw [same] at ran
      cases ran
      cases spares state.store .valueUnderflow store worked

theorem onStore_bind {act : StoreM τ α} (spares : StoreM.SparesCode act)
    (rest : ∀ value, Adds (next value) change) : Adds (onStore act >>= next) change :=
  onStore_bind_of spares fun _ value _ _ => rest value

/-- A failure that is handed over blames something else than the code. -/
theorem attempt_bind {act : StoreM τ α} {next : Except Cause α → FrameM τ β}
    (spares : StoreM.SparesCode act) (returned : ∀ value, Adds (next (.ok value)) change)
    (failed : ∀ cause, cause.blamesCode = false → Adds (next (.error cause)) change) :
    Adds (FrameM.onStore (attempt act) >>= next) change := by
  refine onStore_bind_of (.of_neverFails (neverFails_attempt act)) fun before result after ran => ?_
  cases result with
  | ok value => exact returned value
  | error cause =>
      refine failed cause (spares before cause after ?_)
      unfold attempt at ran
      split at ran <;> cases ran
      assumption

theorem onStore {act : StoreM τ α} (spares : StoreM.SparesCode act)
    (nothing : ∀ activation, change activation activation 0) : Adds (onStore act) change := by
  have whole : Adds (FrameM.onStore act >>= Pure.pure : FrameM τ α) change :=
    onStore_bind spares fun _ => pure nothing
  rwa [bind_pure] at whole

theorem pushAll (values : List Ref)
    (counted : ∀ activation, change activation activation values.length) :
    Adds (FrameM.pushAll values : FrameM τ Unit) change where
  returns splits ran := by
    cases ran
    refine ⟨Nat.zero_le _, values, ⟨?_, splits.base⟩, counted _⟩
    rw [Stack.items_pushAll, splits.items, List.append_assoc]
    rfl
  lacks _ ran := by cases ran

theorem push (value : Ref) (one : ∀ activation, change activation activation 1) :
    Adds (FrameM.push value : FrameM τ Unit) change where
  returns splits ran := by
    cases ran
    refine ⟨Nat.zero_le _, [value], ⟨?_, splits.base⟩, one _⟩
    rw [Stack.items_push, splits.items]
    rfl
  lacks _ ran := by cases ran

theorem update {function : Activation → Activation}
    (fixed : ∀ activation, (function activation).base = activation.base)
    (changed : ∀ activation, change activation (function activation) 0) :
    Adds (FrameM.update function : FrameM τ Unit) change where
  returns splits ran := by
    cases ran
    exact ⟨Nat.zero_le _, [], ⟨splits.items, (fixed _).trans splits.base⟩, changed _⟩
  lacks _ ran := by cases ran

/-- An object or what is done with it goes on top. -/
theorem pushing {act : StoreM τ Ref} (spares : StoreM.SparesCode act)
    (one : ∀ activation, change activation activation 1) :
    Adds (FrameM.onStore act >>= FrameM.push) change :=
  onStore_bind spares fun value => push value one

end Handles

/-! ### Instructions -/

/-- A number of values is put on, and nothing is said of the activation. -/
abbrev Exactly (count : Nat) : Activation → Activation → Nat → Prop :=
  fun _ _ given => given = count

theorem jumpTo_adds (offset : Nat) :
    Adds (jumpTo offset : FrameM τ Unit)
      (fun _ after given => given = 0 ∧ after.offset = offset) :=
  .update (fun _ => rfl) fun _ => ⟨rfl, rfl⟩

/-- The values are rearranged once it is known that there are enough. -/
theorem Handles.of_enough {act : Unit → FrameM τ α}
    (enough : ∀ {state : FrameState τ} {own below : List Ref}, state.Splits own below →
      need ≤ own.length → ∃ value values fresh, act () state = .ok value { state with values } ∧
        values.items = (fresh ++ own.drop taken) ++ below ∧ fresh.length = count) :
    Handles (requireDepth need >>= act) need taken (Exactly count) where
  returns {state after own below value} splits ran := by
    have required := requireDepth_eq splits need
    split at required
    · rw [bind_error required] at ran
      cases ran
    · rename_i inside
      obtain ⟨other, values, fresh, rearranged, items, length⟩ :=
        enough splits (Nat.le_of_not_lt inside)
      rw [StoreM.bind_ok required, rearranged] at ran
      cases ran
      exact ⟨Nat.le_of_not_lt inside, fresh, ⟨items, splits.base⟩, length⟩
  lacks {state after own below} splits ran := by
    have required := requireDepth_eq splits need
    split at required
    · rename_i few
      rw [bind_error required] at ran
      cases ran
      exact ⟨few, rfl⟩
    · rename_i inside
      obtain ⟨other, values, fresh, rearranged, -⟩ := enough splits (Nat.le_of_not_lt inside)
      rw [StoreM.bind_ok required, rearranged] at ran
      cases ran

theorem rotateTwo_handles : Handles (rotateTwo : FrameM τ Unit) 2 2 (Exactly 2) := by
  refine .of_enough fun {state own below} splits enough => ?_
  match own, enough, splits.items with
  | top :: second :: rest, _, items =>
      refine ⟨(), (state.values.drop 2).pushAll [second, top], [second, top], ?_, ?_, rfl⟩
      · have read : (allValues : FrameM τ (Stack Ref)) state = .ok state.values state := rfl
        rw [StoreM.bind_ok read, items]
        rfl
      · simp [items]

theorem rotateThree_handles : Handles (rotateThree : FrameM τ Unit) 3 3 (Exactly 3) := by
  refine .of_enough fun {state own below} splits enough => ?_
  match own, enough, splits.items with
  | top :: second :: third :: rest, _, items =>
      refine ⟨(), (state.values.drop 3).pushAll [second, third, top], [second, third, top], ?_, ?_,
        rfl⟩
      · have read : (allValues : FrameM τ (Stack Ref)) state = .ok state.values state := rfl
        rw [StoreM.bind_ok read, items]
        rfl
      · simp [items]

variable [Tracker τ]

omit [Tracker τ] in
theorem attempt_eq_ok {act : StoreM τ α} {value : α} {before after : Store τ}
    (ran : attempt act before = .ok (.ok value) after) : act before = .ok value after := by
  unfold attempt at ran
  split at ran <;> cases ran
  assumption

/-- What an operation returned is returned when references have been given back. -/
theorem releasing_eq_ok {act : StoreM τ α} {refs : List Ref} {value : α} {before after : Store τ}
    (ran : StoreM.releasing refs act before = .ok value after) :
    ∃ middle, act before = .ok value middle := by
  obtain ⟨result, middle, attempted, ran⟩ := bind_eq_ok ran
  obtain ⟨_, last, -, settled⟩ := bind_eq_ok ran
  cases result with
  | ok other =>
      cases settled
      exact ⟨middle, attempt_eq_ok attempted⟩
  | error cause => cases settled

theorem applyUnary_handles {operation : Ref → StoreM τ Ref}
    (spares : ∀ operand, StoreM.SparesCode (operation operand)) :
    Handles (applyUnary operation) 1 1 (Exactly 1) :=
  pop_takes.bind fun operand _ =>
    .pushing (StoreM.releasing_sparesCode _ (spares operand)) fun _ => rfl

theorem applyBinary_handles {operation : Ref → Ref → StoreM τ Ref}
    (spares : ∀ left right, StoreM.SparesCode (operation left right)) :
    Handles (applyBinary operation) 2 2 (Exactly 1) :=
  popTwo_takes.bind fun operands _ =>
    .pushing (StoreM.releasing_sparesCode _ (spares operands.1 operands.2)) fun _ => rfl

theorem invert_handles : Handles (invert : FrameM τ Unit) 1 1 (Exactly 1) :=
  pop_takes.bind fun operand _ => .onStore_bind (StoreM.get_sparesCode operand) fun _ =>
    .onStore_bind (StoreM.releaseAll_sparesCode _) fun _ =>
      .pushing (StoreM.acquire_sparesCode _) fun _ => rfl

theorem compare_handles (operand : Nat) :
    Handles (compare operand : FrameM τ Unit) 2 2 (Exactly 1) := by
  unfold compare
  split
  · exact .raise nofun
  · rename_i comparison _
    exact popTwo_takes.bind fun operands _ =>
      .onStore_bind (StoreM.releasing_sparesCode _
        (.reading fun store => store.test_sparesCode comparison operands.1 operands.2)) fun _ =>
          .pushing (StoreM.acquire_sparesCode _) fun _ => rfl

theorem storeSubscript_handles : Handles (storeSubscript : FrameM τ Unit) 3 3 (Exactly 0) := by
  refine popThree_takes.bind fun operands _ => ?_
  obtain ⟨value, container, key⟩ := operands
  refine .attempt_bind (subscriptPlace_sparesCode container key) (fun place => ?_)
    fun cause other => ?_
  · refine .onStore_bind (StoreM.releaseAll_sparesCode _) fun _ =>
      .onStore (StoreM.releasing_sparesCode _ ?_) fun _ => rfl
    cases place with
    | item index => exact assignItem_sparesCode container index value
    | entry key => exact StoreM.dictInsert_sparesCode container key value
  · exact .onStore_bind (StoreM.releaseAll_sparesCode _) fun _ =>
      .onStore (StoreM.releasing_sparesCode _
        ((StoreM.releaseAll_sparesCode [value]).bind fun _ => .throw other)) fun _ => rfl

theorem slice_handles (low high : Bool) :
    Handles (slice low high : FrameM τ Unit) (1 + low.toNat + high.toNat)
      (1 + low.toNat + high.toNat) (Exactly 1) := by
  refine (popMany_takes _).bind fun operands length => ?_
  cases operands with
  | nil =>
      rw [id, List.length_nil] at length
      omega
  | cons sequence bounds =>
      refine .onStore_bind (StoreM.releasing_sparesCode _ ?_)
        fun result => .push result fun _ => rfl
      exact (sliceBound_sparesCode _).bind fun _ => (sliceBound_sparesCode _).bind fun _ =>
        StoreM.slice_sparesCode _ _ _

theorem buildFunction_handles : Handles (buildFunction : FrameM τ Unit) 1 1 (Exactly 1) := by
  refine pop_takes.bind fun code _ => .onStore_bind (StoreM.get_sparesCode code) fun payload => ?_
  split
  · exact .asks_bind fun globals => .onStore_bind (StoreM.acquire_sparesCode globals) fun _ =>
      .pushing (StoreM.allocate_sparesCode _) fun _ => rfl
  · exact .onStore_bind (StoreM.releaseAll_sparesCode _) fun _ => .raise nofun

theorem buildClass_handles : Handles (buildClass : FrameM τ Unit) 1 1 (Exactly 1) := by
  refine pop_takes.bind fun attrs _ => .onStore_bind (StoreM.get_sparesCode attrs) fun payload => ?_
  split
  · exact .pushing (StoreM.allocate_sparesCode _) fun _ => rfl
  · exact .onStore_bind (StoreM.releaseAll_sparesCode _) fun _ => .raise nofun

theorem buildSequence_handles (pack : Array Ref → Payload) (count : Nat) :
    Handles (buildSequence pack count : FrameM τ Unit) count count (Exactly 1) :=
  (popMany_takes count).bind fun _ _ => .pushing (StoreM.allocate_sparesCode _) fun _ => rfl

/-- A sequence has as many items as the instruction says, or it is not unpacked. -/
theorem unpack_handles (kind : Kind) (count : Nat) :
    Handles (unpack kind count : FrameM τ Unit) 1 1 (Exactly count) := by
  refine pop_takes.bind fun sequence _ => ?_
  refine .onStore_bind_of (StoreM.releasing_sparesCode _ ?_) fun before items after ran =>
    .pushAll items fun _ => ?_
  · refine (StoreM.get_sparesCode sequence).bind fun payload => ?_
    split
    · exact .throw rfl
    split
    · exact (StoreM.acquireAll_sparesCode _).bind fun _ => .pure _
    · exact .throw rfl
  · obtain ⟨middle, ran⟩ := releasing_eq_ok ran
    obtain ⟨payload, _, -, ran⟩ := bind_eq_ok ran
    cases found : itemsOf? kind payload with
    | none =>
        rw [found] at ran
        cases ran
    | some all =>
        rw [found] at ran
        simp only at ran
        split at ran
        · rename_i size
          obtain ⟨_, _, -, returned⟩ := bind_eq_ok ran
          cases returned
          exact size
        · cases ran

omit [Tracker τ] in
theorem loadConst_handles (index : Nat) : Adds (loadConst index : FrameM τ Unit) (Exactly 1) := by
  refine .asks_bind fun code => .onStore_bind (StoreM.get_sparesCode code) fun payload => ?_
  split
  · split
    · exact .pushing (StoreM.acquire_sparesCode _) fun _ => rfl
    · exact .raise nofun
  · exact .raise nofun

theorem importFrom_handles (index : Nat) :
    Handles (importFrom index : FrameM τ Unit) 1 0 (Exactly 0) := by
  refine .nameAt_bind fun name => peek_takes.bind fun top _ =>
    .onStore_bind (StoreM.get_sparesCode top) fun payload => ?_
  split
  · exact .onStore_bind (StoreM.dictLookup_sparesCode _ _) fun found =>
      .onStore_bind (StoreM.acquireNamed_sparesCode name found) fun value =>
        .asks_bind fun locals => .onStore (StoreM.dictInsert_sparesCode locals _ value) fun _ => rfl
  · exact .raise nofun

omit [Tracker τ] in
theorem jumpIf_handles (condition : Bool) (target : Nat) :
    Handles (jumpIf condition target : FrameM τ Unit) 1 0 (fun before after given =>
      given = 0 ∧ (after.offset = before.offset ∨ after.offset = target)) := by
  refine peek_takes.bind fun top _ => .onStore_bind (StoreM.get_sparesCode top) fun payload => ?_
  split
  · exact .update (fun _ => rfl) fun _ => ⟨rfl, Or.inr rfl⟩
  · exact .pure fun _ => ⟨rfl, Or.inl rfl⟩

/-- A loop goes on with three values, or it is over and jumps. -/
theorem forLoop_handles (operand next : Nat) :
    Handles (forLoop (next + operand) : FrameM τ Unit) 2 2
      (Opcode.Continues .forLoop operand next) := by
  refine popTwo_takes.bind fun operands _ => ?_
  obtain ⟨sequence, index⟩ := operands
  refine .onStore_bind (StoreM.get_sparesCode index) fun payload =>
    .onStore_bind (StoreM.releaseAll_sparesCode _) fun _ => ?_
  split
  · exact .onStore_bind (StoreM.releaseAll_sparesCode _) fun _ => .raise nofun
  · refine .onStore_bind (StoreM.orRelease_sparesCode _ (StoreM.loopItem_sparesCode sequence _))
      fun item => ?_
    split
    · exact .onStore_bind (StoreM.orRelease_sparesCode _ (StoreM.allocate_sparesCode _)) fun _ =>
        .pushAll _ fun _ => Or.inl ⟨rfl, rfl⟩
    · exact .onStore_bind (StoreM.releaseAll_sparesCode _) fun _ =>
        .update (fun _ => rfl) fun _ => Or.inr ⟨rfl, rfl⟩

omit [Tracker τ] in
theorem depth_bind {change : Activation → Activation → Nat → Prop} {next : Nat → FrameM τ α}
    (rest : ∀ count, Adds (next count) change) : Adds (depth >>= next) change where
  returns splits ran := by
    rw [StoreM.bind_ok (depth_eq splits)] at ran
    exact (rest _).returns splits ran
  lacks splits ran := by
    rw [StoreM.bind_ok (depth_eq splits)] at ran
    exact (rest _).lacks splits ran

omit [Tracker τ] in
theorem pushBlock_handles (kind : BlockKind) (handler : Nat) :
    Adds (pushBlock kind handler : FrameM τ Unit) (fun before after given => given = 0 ∧
      ∃ level, after = { before with blocks := ⟨kind, handler, level⟩ :: before.blocks }) where
  returns splits ran := by
    rw [pushBlock, asks_bind] at ran
    split at ran
    · cases ran
    · rw [StoreM.bind_ok (depth_eq splits)] at ran
      cases ran
      exact ⟨Nat.zero_le _, [], ⟨splits.items, splits.base⟩, rfl, _, rfl⟩
  lacks splits ran := by
    rw [pushBlock, asks_bind] at ran
    split at ran
    · cases ran
    · rw [StoreM.bind_ok (depth_eq splits)] at ran
      cases ran

/-- Every instruction that stays within the frame. -/
theorem execute_handles {op : Opcode} (inside : op.reachesOut = false) (operand next : Nat) :
    Handles (execute op operand next : FrameM τ Unit) (op.need operand) (op.takes operand)
      (op.Continues operand next) := by
  cases op with
  | popTop | printTop =>
      exact pop_takes.bind fun value _ => .onStore (StoreM.releaseAll_sparesCode _) fun _ => rfl
  | rotTwo => exact rotateTwo_handles
  | rotThree => exact rotateThree_handles
  | dupTop =>
      exact peek_takes.bind fun value _ => .pushing (StoreM.acquire_sparesCode value) fun _ => rfl
  | negate => exact applyUnary_handles StoreM.negate_sparesCode
  | invert => exact invert_handles
  | arithmetic operation => exact applyBinary_handles (StoreM.arithmetic_sparesCode operation)
  | subscript => exact applyBinary_handles StoreM.subscript_sparesCode
  | slice low high => exact slice_handles low high
  | storeSubscript => exact storeSubscript_handles
  | loadLocals =>
      exact .asks_bind fun locals => .pushing (StoreM.acquire_sparesCode locals) fun _ => rfl
  | requireArgs | refuseArgs =>
      refine depth_bind fun count => ?_
      split <;> first | exact .raise nofun | exact .pure fun _ => rfl
  | buildFunction => exact buildFunction_handles
  | buildClass => exact buildClass_handles
  | storeName =>
      exact .nameAt_bind fun name => pop_takes.bind fun value _ => .asks_bind fun locals =>
        .onStore (StoreM.dictInsert_sparesCode locals _ value) fun _ => rfl
  | unpackTuple => exact unpack_handles .tuple operand
  | unpackList => exact unpack_handles .list operand
  | storeAttr =>
      exact .nameAt_bind fun name => popTwo_takes.bind fun operands _ =>
        .onStore (StoreM.releasing_sparesCode _ (StoreM.storeAttr_sparesCode _ name _)) fun _ => rfl
  | loadConst => exact loadConst_handles operand
  | loadName =>
      exact .nameAt_bind fun name => .asks_bind fun scopes =>
        .onStore_bind (firstOf_sparesCode _ scopes) fun found =>
          .pushing (StoreM.acquireNamed_sparesCode name found) fun _ => rfl
  | buildTuple => exact buildSequence_handles .tuple operand
  | buildList => exact buildSequence_handles .list operand
  | buildMap => exact .pushing (StoreM.allocate_sparesCode _) fun _ => rfl
  | loadAttr =>
      exact .nameAt_bind fun name =>
        applyUnary_handles fun object => StoreM.loadAttr_sparesCode object name
  | compare => exact compare_handles operand
  | importName =>
      exact .nameAt_bind fun name => .pushing (StoreM.importModule_sparesCode name) fun _ => rfl
  | importFrom => exact importFrom_handles operand
  | jumpForward => exact jumpTo_adds (next + operand)
  | jumpAbsolute => exact jumpTo_adds operand
  | setLine =>
      have lined : Adds (update fun activation => { activation with line := operand } : FrameM τ _)
          (Exactly 0) := .update (fun _ => rfl) fun _ => rfl
      exact lined
  | jumpIfFalse => exact jumpIf_handles false (next + operand)
  | jumpIfTrue => exact jumpIf_handles true (next + operand)
  | forLoop => exact forLoop_handles operand next
  | callBare | callWith | breakLoop | returnValue | popBlock | setup => cases inside

end FrameM

end StackMachine
