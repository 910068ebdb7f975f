import StackMachine.Machine.Activation
import StackMachine.Proofs.Store.Accounting

/-!
# Operations within a frame

The values of a frame lie above those of its callers.  An operation within the frame
moves references between the frame's own values and its own hands; it neither touches
what lies below nor what others hold, and it stays the same frame.
-/

namespace StackMachine

variable {τ α β : Type}

theorem Stack.drop_drop (stack : Stack α) (first second : Nat) :
    (stack.drop first).drop second = stack.drop (first + second) :=
  Stack.ext_items (by simp)

namespace Activation

/-- Two activations are the same but for where they are in the code and the blocks they
are in. -/
structure Same (first second : Activation) : Prop where
  frame : first.frame = second.frame
  code : first.code = second.code
  globals : first.globals = second.globals
  locals : first.locals = second.locals
  file : first.file = second.file
  bytecode : first.bytecode = second.bytecode
  names : first.names = second.names
  line : first.line = second.line
  base : first.base = second.base

theorem Same.refl (activation : Activation) : activation.Same activation :=
  ⟨rfl, rfl, rfl, rfl, rfl, rfl, rfl, rfl, rfl⟩

theorem Same.trans {first second third : Activation} (left : first.Same second)
    (right : second.Same third) : first.Same third :=
  ⟨left.frame.trans right.frame, left.code.trans right.code, left.globals.trans right.globals,
    left.locals.trans right.locals, left.file.trans right.file,
    left.bytecode.trans right.bytecode, left.names.trans right.names, left.line.trans right.line,
    left.base.trans right.base⟩

/-- The objects of the store that an activation is made for. -/
structure Placed (activation : Activation) (store : Store τ) : Prop where
  frame : ∃ back, store.payload? activation.frame =
    some (.frame back activation.code activation.globals activation.locals)
  code : ∃ object, store.payload? activation.code = some (.code object) ∧
    object.file = activation.file ∧ object.bytecode = activation.bytecode ∧
    object.names = activation.names

variable {first second : Activation} {store before after : Store τ} {anchors : List Ref}

theorem Placed.of_same (placed : first.Placed store) (same : second.Same first) :
    second.Placed store := by
  refine ⟨?_, ?_⟩
  · rw [same.frame, same.code, same.globals, same.locals]
    exact placed.frame
  · rw [same.code, same.file, same.bytecode, same.names]
    exact placed.code

/-- As long as its frame object is held, an activation has its place. -/
theorem Placed.of_keeps (placed : first.Placed before) (member : first.frame ∈ anchors)
    (keeps : Store.Keeps anchors before after) : first.Placed after := by
  obtain ⟨back, found⟩ := placed.frame
  obtain ⟨object, stored, same⟩ := placed.code
  have anchored : before.Anchored anchors first.frame := .held member
  have part : before.Anchored anchors first.code :=
    .part anchored found rfl (by simp [Payload.children])
  exact ⟨⟨back, keeps.fixed anchored found rfl⟩, object, keeps.fixed part stored rfl, same⟩

end Activation

/-- What surrounds a frame: the values below its own, all references that others hold,
those among them included, and the frames and entries of the traceback. -/
structure Surroundings where
  below : List Ref
  outer : List Ref
  inner : List Ref

namespace FrameState

open Store

variable {around : Surroundings} {state before middle after : FrameState τ}
variable {own extra more : List Ref}

/-- The frame has `own` values above those of its callers, and holds `extra` in its
hands. -/
structure Fits (state : FrameState τ) (around : Surroundings) (own extra : List Ref) : Prop where
  items : state.values.items = own ++ around.below
  base : state.activation.base = around.below.length
  sound : state.store.Sound (extra ++ (own ++ around.outer)) around.inner
  framed : state.activation.frame ∈ around.inner
  placed : state.activation.Placed state.store

/-- The frame has `own` values, above those of others. -/
structure Splits (state : FrameState τ) (own below : List Ref) : Prop where
  items : state.values.items = own ++ below
  base : state.activation.base = below.length

theorem Splits.height_eq {below : List Ref} (splits : state.Splits own below) :
    state.values.height = own.length + state.activation.base := by
  rw [state.values.height_eq, splits.items, List.length_append, splits.base]

theorem Fits.splits (fits : state.Fits around own extra) : state.Splits own around.below :=
  ⟨fits.items, fits.base⟩

/-- What an operation within the frame makes of it. -/
structure Leads (before : FrameState τ) (around : Surroundings) (extra : List Ref)
    (after : FrameState τ) : Prop where
  fits : ∃ own, after.Fits around own extra
  keeps : Keeps (around.outer ++ around.inner) before.store after.store
  same : after.activation.Same before.activation

theorem Leads.trans (earlier : before.Leads around extra middle)
    (later : middle.Leads around more after) : before.Leads around more after :=
  ⟨later.fits, earlier.keeps.trans later.keeps, later.same.trans earlier.same⟩

theorem Fits.leads (fits : state.Fits around own extra) : state.Leads around extra state :=
  ⟨⟨own, fits⟩, Keeps.refl _ _, .refl _⟩

/-- The store goes on, and the rest stays. -/
theorem Fits.of_leaves {store : Store τ} (fits : state.Fits around own extra)
    (left : state.store.Leaves (own ++ around.outer) around.inner more store) :
    ({ state with store } : FrameState τ).Fits around own more where
  items := fits.items
  base := fits.base
  sound := left.sound
  framed := fits.framed
  placed := fits.placed.of_keeps (List.mem_append_right _ fits.framed) left.keeps

theorem Fits.leads_of_leaves {store : Store τ} (fits : state.Fits around own extra)
    (left : state.store.Leaves (own ++ around.outer) around.inner more store) :
    state.Leads around more { state with store } := by
  refine ⟨⟨own, fits.of_leaves left⟩, left.keeps.mono ?_, .refl _⟩
  rw [List.append_assoc]
  exact List.subset_append_right _ _

/-- What is in the hands goes on top. -/
theorem Fits.pushAll (fits : state.Fits around own (extra ++ more)) :
    ({ state with values := state.values.pushAll extra } : FrameState τ).Fits around
      (extra ++ own) more where
  items := by rw [Stack.items_pushAll, fits.items, List.append_assoc]
  base := fits.base
  sound := by
    refine fits.sound.perm ?_ (List.Perm.refl _)
    rw [List.append_assoc, List.append_assoc]
    exact List.perm_append_comm_assoc _ _ _
  framed := fits.framed
  placed := fits.placed

/-- What is on top goes into the hands. -/
theorem Fits.drop (fits : state.Fits around own []) (count : Nat) (enough : count ≤ own.length) :
    ({ state with values := state.values.drop count } : FrameState τ).Fits around
      (own.drop count) (own.take count) where
  items := by rw [Stack.items_drop, fits.items, List.drop_append_of_le_length enough]
  base := fits.base
  sound := by
    rw [← List.append_assoc, List.take_append_drop]
    exact fits.sound
  framed := fits.framed
  placed := fits.placed

theorem Fits.perm (fits : state.Fits around own extra) (same : extra.Perm more) :
    state.Fits around own more :=
  { fits with sound := fits.sound.perm (same.append_right _) (List.Perm.refl _) }

/-- The activation goes on, and stays the same frame. -/
theorem Fits.activation {activation : Activation} (fits : state.Fits around own extra)
    (same : activation.Same state.activation) :
    ({ state with activation } : FrameState τ).Fits around own extra where
  items := fits.items
  base := same.base.trans fits.base
  sound := fits.sound
  framed := same.frame ▸ fits.framed
  placed := fits.placed.of_same same

/-- The frame's own values can be used. -/
theorem Fits.usable_own {ref : Ref} (fits : state.Fits around own extra) (member : ref ∈ own) :
    state.store.Usable ref :=
  fits.sound.usable (List.mem_append_right _ (List.mem_append_left _ member))

end FrameState

namespace FrameM

open Store Outcome

variable {around : Surroundings} {state : FrameState τ} {own extra : List Ref}

/-- An operation within a frame leaves what `gives` lists in its hands, or fails and
leaves nothing there. -/
def Runs (act : FrameM τ α) (state : FrameState τ) (around : Surroundings)
    (gives : α → List Ref) : Prop :=
  Ends (act state) (fun value => state.Leads around (gives value))
    (fun _ => state.Leads around [])

namespace Runs

variable {act : FrameM τ α} {gives : α → List Ref}

theorem pure {value : α} (fits : state.Fits around own (gives value)) :
    Runs (Pure.pure value) state around gives :=
  fits.leads

theorem raise {cause : Cause} (fits : state.Fits around own []) :
    Runs (FrameM.raise cause) state around gives :=
  fits.leads

theorem after_leading {before : FrameState τ} (led : before.Leads around extra state)
    (runs : Runs act state around gives) :
    Ends (act state) (fun value => before.Leads around (gives value))
      (fun _ => before.Leads around []) :=
  Ends.mono runs (fun _ _ later => led.trans later) (fun _ _ later => led.trans later)

/-- One operation after the other. -/
theorem bind {next : α → FrameM τ β} {leaves : β → List Ref} (first : Runs act state around gives)
    (second : ∀ value after own, after.Fits around own (gives value) →
      after.activation.Same state.activation →
      Runs (next value) after around leaves) :
    Runs (act >>= next) state around leaves := by
  refine Ends.bind first fun value after led => ?_
  obtain ⟨own, fits⟩ := led.fits
  exact after_leading led (second value after own fits led.same)

/-- What is known of an operation on the store holds within the frame. -/
theorem onStore_ends {act : StoreM τ α} {returns : α → Store τ → Prop}
    {fails : Cause → Store τ → Prop} (ends : Ends (act state.store) returns fails) :
    Ends (FrameM.onStore act state)
      (fun value after => after = { state with store := after.store } ∧ returns value after.store)
      (fun cause after => after = { state with store := after.store } ∧
        fails cause after.store) := by
  obtain ⟨store, values, activation⟩ := state
  unfold FrameM.onStore
  simp only at ends ⊢
  cases result : act store with
  | ok value final =>
      rw [result] at ends
      exact ⟨rfl, ends⟩
  | error stop final =>
      rw [result] at ends
      cases stop with
      | failed cause => exact ⟨rfl, ends⟩
      | fault broken => exact ends
      | unfinished => trivial

/-- An operation on the store that accounts for its references. -/
theorem onStore {act : StoreM τ α} (fits : state.Fits around own extra)
    (accounts : StoreM.Accounts act state.store (own ++ around.outer) around.inner gives) :
    Runs (FrameM.onStore act) state around gives := by
  refine (onStore_ends accounts).mono ?_ ?_
  · rintro value after ⟨same, left⟩
    rw [same]
    exact fits.leads_of_leaves left
  · rintro cause after ⟨same, left⟩
    rw [same]
    exact fits.leads_of_leaves left

end Runs

/-! ## Taking values and putting them back -/

theorem depth_eq {below : List Ref} (splits : state.Splits own below) :
    (depth : FrameM τ Nat) state = .ok own.length state := by
  have height := splits.height_eq
  unfold depth
  rw [if_pos (by omega)]
  congr 1
  omega

theorem depth_runs (fits : state.Fits around own extra) :
    Runs depth state around (fun _ => extra) := by
  unfold Runs
  rw [depth_eq fits.splits]
  exact fits.leads

theorem requireDepth_eq {below : List Ref} (splits : state.Splits own below) (count : Nat) :
    (requireDepth count : FrameM τ Unit) state =
      if own.length < count then .error (.failed .valueUnderflow) state else .ok () state := by
  unfold requireDepth
  rw [StoreM.bind_ok (depth_eq splits)]
  split <;> rfl

theorem Runs.requireDepth_bind {next : Unit → FrameM τ α} {gives : α → List Ref} {count : Nat}
    (fits : state.Fits around own [])
    (rest : count ≤ own.length → Runs (next ()) state around gives) :
    Runs (requireDepth count >>= next) state around gives := by
  have required : Ends ((requireDepth count : FrameM τ Unit) state)
      (fun _ after => after = state ∧ count ≤ own.length) (fun _ => state.Leads around []) := by
    rw [requireDepth_eq fits.splits]
    split
    · exact fits.leads
    · rename_i enough
      exact ⟨rfl, Nat.le_of_not_lt enough⟩
  refine Ends.bind required ?_
  rintro _ _ ⟨rfl, enough⟩
  exact rest enough

/-- The topmost value of all is taken after some others. -/
theorem takeTop_eq (state : FrameState τ) (taken : Nat) {top : Ref} {rest : List Ref}
    (items : state.values.items.drop taken = top :: rest) :
    (takeTop : FrameM τ Ref) { state with values := state.values.drop taken } =
      .ok top { state with values := state.values.drop (taken + 1) } := by
  have read : (allValues : FrameM τ (Stack Ref)) { state with values := state.values.drop taken } =
      .ok (state.values.drop taken) { state with values := state.values.drop taken } := rfl
  unfold takeTop
  rw [StoreM.bind_ok read, Stack.items_drop, items, ← Stack.drop_drop]
  rfl

theorem takeTop_first (state : FrameState τ) {top : Ref} {rest : List Ref}
    (items : state.values.items = top :: rest) :
    (takeTop : FrameM τ Ref) state = .ok top { state with values := state.values.drop 1 } :=
  takeTop_eq state 0 items

/-- The operation asks for `need` values.  Where the frame has them, the `taken` topmost ones go
into what `gives` lists; otherwise it fails and does nothing else. -/
structure Takes (act : FrameM τ α) (need taken : Nat) (gives : α → List Ref) : Prop where
  le : taken ≤ need
  few : ∀ {state : FrameState τ} {own below : List Ref}, state.Splits own below →
    own.length < need → act state = .error (.failed .valueUnderflow) state
  enough : ∀ {state : FrameState τ} {own below : List Ref}, state.Splits own below →
    need ≤ own.length → ∃ value,
      act state = .ok value { state with values := state.values.drop taken } ∧
        (own.take taken).Perm (gives value)

/-- The check comes first. -/
theorem Takes.of_enough {act : FrameM τ α} {need taken : Nat} {gives : α → List Ref}
    (le : taken ≤ need)
    (enough : ∀ {state : FrameState τ} {own below : List Ref}, state.Splits own below →
      need ≤ own.length → ∃ value,
        act state = .ok value { state with values := state.values.drop taken } ∧
          (own.take taken).Perm (gives value)) :
    Takes (do requireDepth need; act) need taken gives where
  le := le
  few splits lacking := by
    have refused := requireDepth_eq splits need
    rw [if_pos lacking] at refused
    exact bind_error refused
  enough splits inside := by
    have granted := requireDepth_eq splits need
    rw [if_neg (Nat.not_lt.mpr inside)] at granted
    rw [StoreM.bind_ok granted]
    exact enough splits inside

theorem Takes.runs {act : FrameM τ α} {count : Nat} {gives : α → List Ref}
    (takes : Takes act count count gives) (fits : state.Fits around own []) :
    Runs act state around gives := by
  unfold Runs
  by_cases inside : count ≤ own.length
  · obtain ⟨value, taken, perm⟩ := takes.enough fits.splits inside
    rw [taken]
    exact ⟨⟨_, (fits.drop count inside).perm perm⟩, Keeps.refl _ _, .refl _⟩
  · rw [takes.few fits.splits (Nat.lt_of_not_le inside)]
    exact fits.leads

theorem pop_takes : Takes (pop : FrameM τ Ref) 1 1 (fun ref => [ref]) := by
  refine .of_enough (Nat.le_refl _) fun {state own below} splits enough => ?_
  obtain ⟨top, rest, rfl⟩ := List.exists_cons_of_length_pos enough
  exact ⟨top, takeTop_first state splits.items, List.Perm.refl _⟩

theorem popTwo_takes :
    Takes (popTwo : FrameM τ (Ref × Ref)) 2 2 (fun pair => [pair.1, pair.2]) := by
  refine .of_enough (Nat.le_refl _) fun {state own below} splits enough => ?_
  match own, enough, splits.items with
  | top :: second :: rest, _, items =>
      refine ⟨(second, top), ?_, List.Perm.swap _ _ _⟩
      rw [StoreM.bind_ok (takeTop_first state items),
        StoreM.bind_ok (takeTop_eq state 1 (by rw [items]; rfl))]
      rfl

theorem popThree_takes : Takes (popThree : FrameM τ (Ref × Ref × Ref)) 3 3
    (fun triple => [triple.1, triple.2.1, triple.2.2]) := by
  refine .of_enough (Nat.le_refl _) fun {state own below} splits enough => ?_
  match own, enough, splits.items with
  | top :: second :: third :: rest, _, items =>
      refine ⟨(third, second, top), ?_, List.reverse_perm [third, second, top]⟩
      rw [StoreM.bind_ok (takeTop_first state items),
        StoreM.bind_ok (takeTop_eq state 1 (by rw [items]; rfl)),
        StoreM.bind_ok (takeTop_eq state 2 (by rw [items]; rfl))]
      rfl

theorem popMany_takes (count : Nat) :
    Takes (popMany count : FrameM τ (List Ref)) count count id := by
  refine .of_enough (Nat.le_refl _) fun {state own below} splits enough => ?_
  refine ⟨(own.take count).reverse, ?_, (List.reverse_perm _).symm⟩
  have read : (allValues : FrameM τ (Stack Ref)) state = .ok state.values state := rfl
  have height := splits.height_eq
  unfold takeMany
  rw [StoreM.bind_ok read, if_neg (by omega), splits.items, List.take_append_of_le_length enough]
  rfl

theorem pop_runs (fits : state.Fits around own []) :
    Runs pop state around (fun ref => [ref]) :=
  pop_takes.runs fits

theorem popTwo_runs (fits : state.Fits around own []) :
    Runs popTwo state around (fun pair => [pair.1, pair.2]) :=
  popTwo_takes.runs fits

theorem popThree_runs (fits : state.Fits around own []) :
    Runs popThree state around (fun triple => [triple.1, triple.2.1, triple.2.2]) :=
  popThree_takes.runs fits

theorem popMany_runs (fits : state.Fits around own []) (count : Nat) :
    Runs (popMany count) state around id :=
  (popMany_takes count).runs fits

/-- The topmost value is looked at. -/
theorem peek_ends (fits : state.Fits around own []) :
    Ends ((peek : FrameM τ Ref) state) (fun top after => after = state ∧ top ∈ own)
      (fun _ after => after = state) := by
  have required := requireDepth_eq fits.splits 1
  have read : (allValues : FrameM τ (Stack Ref)) state = .ok state.values state := rfl
  unfold peek
  match own, fits.items with
  | [], _ =>
      have refused : Ends ((requireDepth 1 : FrameM τ Unit) state) (fun _ _ => False)
          (fun _ after => after = state) := by
        rw [required]
        rfl
      exact refused.bind fun _ _ impossible => impossible.elim
  | top :: rest, items =>
      have found : state.values.top? = some top := by rw [Stack.top?, items]; rfl
      rw [if_neg (by simp)] at required
      rw [StoreM.bind_ok required, StoreM.bind_ok read, found]
      exact ⟨rfl, List.mem_cons_self⟩

theorem push_runs {value : Ref} (fits : state.Fits around own [value]) :
    Runs (push value) state around (fun _ => []) := by
  have same : state.values.push value = state.values.pushAll [value] := Stack.ext_items rfl
  have pushed : (push value : FrameM τ Unit) state =
      .ok () { state with values := state.values.pushAll [value] } := by
    rw [← same]
    rfl
  unfold Runs
  rw [pushed]
  exact ⟨⟨_, fits.pushAll⟩, Keeps.refl _ _, .refl _⟩

theorem pushAll_runs {values : List Ref} (fits : state.Fits around own values) :
    Runs (pushAll values) state around (fun _ => []) := by
  have pushed : (pushAll values : FrameM τ Unit) state =
      .ok () { state with values := state.values.pushAll values } := rfl
  have fits' : state.Fits around own (values ++ []) := by rwa [List.append_nil]
  unfold Runs
  rw [pushed]
  exact ⟨⟨_, fits'.pushAll⟩, Keeps.refl _ _, .refl _⟩

/-! ## The activation -/

theorem update_ok {change : Activation → Activation} (fits : state.Fits around own extra)
    (same : (change state.activation).Same state.activation) :
    ∃ after, update change state = .ok () after ∧ state.Leads around extra after :=
  ⟨_, rfl, ⟨own, fits.activation same⟩, Keeps.refl _ _, same⟩

theorem update_runs {change : Activation → Activation} (fits : state.Fits around own extra)
    (same : (change state.activation).Same state.activation) :
    Runs (update change) state around (fun _ => extra) :=
  ⟨⟨own, fits.activation same⟩, Keeps.refl _ _, same⟩

theorem jumpTo_runs (fits : state.Fits around own extra) (offset : Nat) :
    Runs (jumpTo offset) state around (fun _ => extra) :=
  update_runs fits ⟨rfl, rfl, rfl, rfl, rfl, rfl, rfl, rfl, rfl⟩

theorem asks_bind {read : Activation → α} {next : α → FrameM τ β} :
    (asks read >>= next) state = next (read state.activation) state :=
  rfl

theorem nameAt_runs (fits : state.Fits around own []) (index : Nat) :
    Runs (nameAt index) state around (fun _ => []) := by
  unfold Runs nameAt
  rw [asks_bind]
  cases state.activation.names[index]? with
  | some name => exact fits.leads
  | none => exact fits.leads

theorem pushBlock_runs (fits : state.Fits around own []) (kind : BlockKind) (handler : Nat) :
    Runs (pushBlock kind handler) state around (fun _ => []) := by
  unfold Runs pushBlock
  rw [asks_bind]
  split
  · exact fits.leads
  · rw [StoreM.bind_ok (depth_eq fits.splits)]
    exact update_runs fits ⟨rfl, rfl, rfl, rfl, rfl, rfl, rfl, rfl, rfl⟩

theorem popBlock_runs (fits : state.Fits around own []) :
    Runs popBlock state around (fun _ => []) := by
  unfold Runs popBlock
  rw [asks_bind]
  cases state.activation.blocks with
  | cons block rest =>
      exact Runs.bind (update_runs fits ⟨rfl, rfl, rfl, rfl, rfl, rfl, rfl, rfl, rfl⟩)
        fun _ _ _ fits _ => .pure fits
  | nil => exact fits.leads

theorem onStore_eq {act : StoreM τ α} {value : α} {store : Store τ}
    (returned : act state.store = .ok value store) :
    onStore act state = .ok value { state with store } := by
  rw [onStore, returned]

/-- References in the hands of the frame are given back. -/
theorem releaseAll_ok [Tracker τ] {refs : List Ref}
    (fits : state.Fits around own (refs ++ extra)) :
    ∃ after, onStore (StoreM.releaseAll refs) state = .ok () after ∧
      state.Leads around extra after := by
  have sound : state.store.Sound (refs ++ (extra ++ (own ++ around.outer))) around.inner := by
    rw [← List.append_assoc]
    exact fits.sound
  obtain ⟨store, released, left, -⟩ := StoreM.releaseAll_sound sound
  have kept : own ++ around.outer ++ around.inner ⊆
      extra ++ (own ++ around.outer) ++ around.inner := by
    rw [List.append_assoc extra]
    exact List.subset_append_right _ _
  exact ⟨{ state with store }, onStore_eq released,
    fits.leads_of_leaves ⟨left.sound, left.keeps.mono kept⟩⟩

theorem releaseAll_runs [Tracker τ] {refs : List Ref}
    (fits : state.Fits around own (refs ++ extra)) :
    Runs (onStore (StoreM.releaseAll refs)) state around (fun _ => extra) := by
  obtain ⟨after, released, led⟩ := releaseAll_ok fits
  unfold Runs
  rw [released]
  exact led

/-- Draining takes the frame's own values down to a level. -/
theorem drainTo_eq [Tracker τ] {below : List Ref} (splits : state.Splits own below) (level : Nat) :
    drainTo level state = onStore (StoreM.releaseAll (own.take (own.length - level)))
      { state with values := state.values.drop (own.length - level) } := by
  have height := splits.height_eq
  have surplus : state.values.height - (state.activation.base + level) = own.length - level := by
    omega
  have few : own.length - level ≤ own.length := Nat.sub_le _ _
  rw [← List.take_append_of_le_length few, ← splits.items, ← surplus]
  rfl

/-- Surplus values are given back. -/
theorem drainTo_ok [Tracker τ] (fits : state.Fits around own []) (level : Nat) :
    ∃ after, drainTo level state = .ok () after ∧ state.Leads around [] after := by
  have dropped := fits.drop (own.length - level) (Nat.sub_le _ _)
  rw [← List.append_nil (own.take _)] at dropped
  have taken : state.Leads around (own.take (own.length - level) ++ [])
      { state with values := state.values.drop (own.length - level) } :=
    ⟨⟨_, dropped⟩, Keeps.refl _ _, .refl _⟩
  obtain ⟨after, released, led⟩ := releaseAll_ok dropped
  exact ⟨after, (drainTo_eq fits.splits level).trans released, taken.trans led⟩

theorem drainTo_runs [Tracker τ] (fits : state.Fits around own []) (level : Nat) :
    Runs (drainTo level) state around (fun _ => []) := by
  obtain ⟨after, drained, led⟩ := drainTo_ok fits level
  unfold Runs
  rw [drained]
  exact led

end FrameM

end StackMachine
