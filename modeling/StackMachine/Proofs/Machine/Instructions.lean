import StackMachine.Machine.Instructions
import StackMachine.Proofs.Machine.Frame
import StackMachine.Proofs.Store.Attributes

/-!
# Instructions within a frame

Every instruction that stays within the frame takes its operands off the frame's
own values and leaves nothing in the frame's hands, whether it fails or not.  The
main result is `execute_runs`, which rests on one lemma for each instruction.
-/

namespace StackMachine.FrameM

open Store Outcome

variable {τ α : Type} {around : Surroundings} {state : FrameState τ} {own extra : List Ref}

/-! ## Steps that instructions are made of -/

namespace Runs

variable {gives : α → List Ref}

theorem asks_bind {β : Type} {read : Activation → β} {next : β → FrameM τ α}
    (rest : Runs (next (read state.activation)) state around gives) :
    Runs (asks read >>= next) state around gives :=
  rest

theorem peek_bind {next : Ref → FrameM τ α} (fits : state.Fits around own [])
    (rest : ∀ top ∈ own, Runs (next top) state around gives) :
    Runs (peek >>= next) state around gives := by
  have peeked : Ends ((peek : FrameM τ Ref) state) (fun top after => after = state ∧ top ∈ own)
      (fun _ => state.Leads around []) := by
    refine (peek_ends fits).mono (fun _ _ => id) ?_
    rintro _ _ rfl
    exact fits.leads
  refine Ends.bind peeked ?_
  rintro top _ ⟨rfl, member⟩
  exact rest top member

theorem get_bind {ref : Ref} {next : Payload → FrameM τ α} (filled : state.store.Filled ref)
    (rest : ∀ payload, state.store.payload? ref = some payload →
      Runs (next payload) state around gives) :
    Runs (FrameM.onStore (StoreM.get ref) >>= next) state around gives := by
  obtain ⟨payload, found⟩ := filled
  have read : FrameM.onStore (StoreM.get ref) state = .ok payload state := by
    rw [FrameM.onStore, StoreM.get_eq found]
  unfold Runs
  rw [StoreM.bind_ok read]
  exact rest payload found

/-- Something is read off the store before the operation goes on. -/
theorem reads_bind {β : Type} {act : StoreM τ β} {next : β → FrameM τ α} {knows : β → Prop}
    (ends : Ends (act state.store) (fun value final => final = state.store ∧ knows value)
      fun _ _ => False)
    (rest : ∀ value, knows value → Runs (next value) state around gives) :
    Runs (FrameM.onStore act >>= next) state around gives := by
  have read := (onStore_ends ends).mono (fun _ _ => id)
    fun cause after failed => show state.Leads around [] after from failed.2.elim
  refine Ends.bind read ?_
  rintro value after ⟨same, unchanged, known⟩
  rw [unchanged] at same
  rw [same]
  exact rest value known

theorem acquire_bind {ref : Ref} {next : Ref → FrameM τ α} (fits : state.Fits around own extra)
    (usable : state.store.Usable ref)
    (rest : ∀ store, SamePayloads state.store store →
      ({ state with store } : FrameState τ).Fits around own (ref :: extra) →
      Runs (next ref) { state with store } around gives) :
    Runs (FrameM.onStore (StoreM.acquire ref) >>= next) state around gives := by
  obtain ⟨store, acquired, sound, same⟩ := StoreM.acquire_value fits.sound usable
  have taken : FrameM.onStore (StoreM.acquire ref) state = .ok ref { state with store } := by
    rw [FrameM.onStore, acquired]
  have fits' : ({ state with store } : FrameState τ).Fits around own (ref :: extra) :=
    fits.of_leaves ⟨sound, same.keeps _⟩
  have led : state.Leads around (ref :: extra) { state with store } :=
    ⟨⟨own, fits'⟩, same.keeps _, .refl _⟩
  unfold Runs
  rw [StoreM.bind_ok taken]
  exact after_leading led (rest store same fits')

/-- What an operation on the store yields is put on top. -/
theorem pushing {act : StoreM τ Ref} (fits : state.Fits around own extra)
    (accounts : StoreM.Accounts act state.store (own ++ around.outer) around.inner
      fun ref => [ref]) :
    Runs (do push (← FrameM.onStore act)) state around (fun _ => []) :=
  .bind (.onStore fits accounts) fun _ _ _ pushed _ => push_runs pushed

end Runs

/-- The frame's own values change places. -/
theorem setValues_runs {values : Stack Ref} (others : List Ref) (fits : state.Fits around own [])
    (items : values.items = others ++ around.below) (same : own.Perm others) :
    Runs (setValues values) state around (fun _ => []) := by
  have sound : state.store.Sound ([] ++ (others ++ around.outer)) around.inner :=
    fits.sound.perm (same.append_right _) (List.Perm.refl _)
  exact ⟨⟨others, items, fits.base, sound, fits.framed, fits.placed⟩, Keeps.refl _ _, .refl _⟩

theorem rotateTwo_runs (fits : state.Fits around own []) :
    Runs rotateTwo state around (fun _ => []) := by
  refine .requireDepth_bind fits fun enough => ?_
  have read : (allValues : FrameM τ (Stack Ref)) state = .ok state.values state := rfl
  unfold Runs
  rw [StoreM.bind_ok read]
  match own, enough, fits with
  | top :: second :: rest, _, fits =>
      rw [fits.items]
      refine setValues_runs (second :: top :: rest) fits ?_ (List.Perm.swap _ _ _)
      simp [fits.items]

theorem rotateThree_runs (fits : state.Fits around own []) :
    Runs rotateThree state around (fun _ => []) := by
  refine .requireDepth_bind fits fun enough => ?_
  have read : (allValues : FrameM τ (Stack Ref)) state = .ok state.values state := rfl
  unfold Runs
  rw [StoreM.bind_ok read]
  match own, enough, fits with
  | top :: second :: third :: rest, _, fits =>
      rw [fits.items]
      refine setValues_runs (second :: third :: top :: rest) fits ?_ ?_
      · simp [fits.items]
      · exact (List.Perm.swap _ _ _).trans ((List.Perm.swap _ _ _).cons _)

/-! ## What belongs to the frame -/

/-- The objects a frame is made of, each with its kind. -/
def parts (activation : Activation) : List (Ref × Kind) :=
  [(activation.code, .code), (activation.globals, .dictionary), (activation.locals, .dictionary)]

/-- What a frame is made of can be used, and stays in place while the frame does. -/
theorem usable_part {child : Ref} {kind : Kind} (fits : state.Fits around own extra)
    (part : (child, kind) ∈ parts state.activation) :
    state.store.Usable child ∧ state.store.kind? child = some kind ∧
      ∀ held, state.store.Secured (roots ++ (held ++ around.inner)) child := by
  obtain ⟨back, found⟩ := fits.placed.frame
  have role : (child, Role.of kind) ∈ (Payload.frame back state.activation.code
      state.activation.globals state.activation.locals).roles := by
    refine List.mem_append_right _ ?_
    exact List.mem_map_of_mem (f := fun entry : Ref × Kind => (entry.1, Role.of entry.2)) part
  have plain : kind ≠ .frame ∧ kind ≠ .traceback := by
    simp only [parts, List.mem_cons, Prod.mk.injEq, List.not_mem_nil, or_false] at part
    rcases part with ⟨-, rfl⟩ | ⟨-, rfl⟩ | ⟨-, rfl⟩ <;> simp
  refine ⟨fits.sound.usable_child found role (by simpa using plain),
    (fits.sound.fits _ _ found _ _ role).allowed, fun held => ?_⟩
  have framed : state.activation.frame ∈ roots ++ (held ++ around.inner) :=
    List.mem_append_right _ (List.mem_append_right _ fits.framed)
  exact StoreM.secured_part fits.sound framed found role fun same => plain.1 same.symm

theorem usable_code (fits : state.Fits around own extra) :
    state.store.Usable state.activation.code :=
  (usable_part fits (List.mem_cons_self : (_, Kind.code) ∈ _)).1

theorem usable_globals (fits : state.Fits around own extra) :
    state.store.Usable state.activation.globals :=
  (usable_part fits (by simp [parts] : (_, Kind.dictionary) ∈ _)).1

theorem usable_locals (fits : state.Fits around own extra) :
    state.store.Usable state.activation.locals :=
  (usable_part fits (by simp [parts] : (_, Kind.dictionary) ∈ _)).1

variable [Tracker τ]

/-- A value is bound in the locals. -/
theorem bindLocal_runs {value : Ref} (fits : state.Fits around own [value]) (key : Bytes) :
    Runs (do onStore (StoreM.dictInsert (← asks (·.locals)) key value)) state around
      (fun _ => []) := by
  obtain ⟨usable, -, secured⟩ := usable_part fits
    (by simp [parts] : (state.activation.locals, Kind.dictionary) ∈ _)
  exact Runs.asks_bind (.onStore fits (StoreM.dictInsert_accounts fits.sound (secured _)
    usable.meets.ne_builtins key))

/-! ## Operations on the topmost values -/

theorem applyUnary_runs {operation : Ref → StoreM τ Ref} (fits : state.Fits around own [])
    (accounts : ∀ {store : Store τ} {held inner : List Ref} {operand : Ref},
      store.Sound held inner → operand ∈ held →
      StoreM.Accounts (operation operand) store held inner (fun ref => [ref])) :
    Runs (applyUnary operation) state around (fun _ => []) :=
  .bind (pop_runs fits) fun _ _ _ taken _ =>
    .pushing taken (.releasing (accounts taken.sound List.mem_cons_self))

theorem applyBinary_runs {operation : Ref → Ref → StoreM τ Ref} (fits : state.Fits around own [])
    (accounts : ∀ {store : Store τ} {held inner : List Ref} {left right : Ref},
      store.Sound held inner → left ∈ held → right ∈ held →
      StoreM.Accounts (operation left right) store held inner (fun ref => [ref])) :
    Runs (applyBinary operation) state around (fun _ => []) :=
  .bind (popTwo_runs fits) fun _ _ _ taken _ =>
    .pushing taken (.releasing (accounts taken.sound List.mem_cons_self
      (List.mem_cons_of_mem _ List.mem_cons_self)))

theorem popTop_runs (fits : state.Fits around own []) :
    Runs (do releaseAll [← pop]) state around (fun _ => []) :=
  .bind (pop_runs fits) fun _ _ _ taken _ => releaseAll_runs taken

theorem invert_runs (fits : state.Fits around own []) :
    Runs invert state around (fun _ => []) := by
  refine .bind (pop_runs fits) fun operand popped rest taken _ => ?_
  refine .get_bind (taken.sound.usable List.mem_cons_self).filled fun payload _ => ?_
  refine .bind (releaseAll_runs taken) fun _ after own left _ => ?_
  exact .pushing left (.acquire left.sound (left.sound.usable_bool _))

theorem compare_runs (fits : state.Fits around own []) (operand : Nat) :
    Runs (compare operand) state around (fun _ => []) := by
  unfold compare
  split
  · exact .raise fits
  · rename_i comparison _
    refine .bind (popTwo_runs fits) fun pair popped rest taken _ => ?_
    have filled : ∀ ref ∈ [pair.1, pair.2], popped.store.Filled ref := fun ref member =>
      (taken.sound.usable (List.mem_append_left _ member)).filled
    have tested : StoreM.Accounts
        (StoreM.reading fun store => store.test comparison pair.1 pair.2) popped.store
        ([pair.1, pair.2] ++ (rest ++ around.outer)) around.inner (fun _ => []) :=
      Ends.reading (fun _ _ => ⟨taken.sound, Keeps.refl _ _⟩)
        (fun _ _ => ⟨taken.sound, Keeps.refl _ _⟩)
        (taken.sound.closed.intact_test comparison (filled _ (by simp)) (filled _ (by simp)))
    refine .bind (.onStore taken (.releasing tested)) fun outcome after own left _ => ?_
    exact .pushing left (.acquire left.sound (left.sound.usable_bool outcome))

/-! ## Subscripts and slices -/

omit [Tracker τ] in
/-- Looking where an assignment goes leaves the store as it is. -/
theorem subscriptPlace_ends {store : Store τ} {container key : Ref}
    (containerFilled : store.Filled container) (keyFilled : store.Filled key) :
    Ends ((subscriptPlace container key : StoreM τ Place) store) (fun _ final => final = store)
      (fun _ final => final = store) := by
  obtain ⟨payload, found⟩ := containerFilled
  obtain ⟨keyPayload, keyFound⟩ := keyFilled
  unfold subscriptPlace
  rw [StoreM.get_bind found, StoreM.get_bind keyFound]
  cases payload <;> cases keyPayload <;> rfl

theorem assignItem_accounts {store : Store τ} {held inner : List Ref} {list value : Ref}
    (sound : store.Sound (value :: held) inner) (member : list ∈ held) (index : Int64) :
    StoreM.Accounts (assignItem list index value) store held inner (fun _ => []) := by
  have secured : store.Secured (roots ++ (held ++ inner)) list :=
    Or.inl (List.mem_append_right _ (List.mem_append_left _ member))
  have ne_builtins := (sound.values list (List.mem_cons_of_mem _ member)).ne_builtins
  refine StoreM.lendingList_accounts sound secured ne_builtins fun items => ?_
  split
  · exact StoreM.replaceItem_works _ _ value items
  · exact StoreM.refuseItem_works items value _

theorem storeSubscript_runs (fits : state.Fits around own []) :
    Runs storeSubscript state around (fun _ => []) := by
  refine .bind (popThree_runs fits) ?_
  rintro ⟨value, container, key⟩ popped rest taken -
  have filled : ∀ ref ∈ [value, container, key], popped.store.Filled ref := fun ref member =>
    (taken.sound.usable (List.mem_append_left _ member)).filled
  have looked : Ends (attempt (subscriptPlace container key) popped.store)
      (fun _ final => final = popped.store ∧ True) (fun _ _ => False) :=
    Ends.attempt ((subscriptPlace_ends (filled container (by simp)) (filled key (by simp))).mono
      (fun _ _ same => ⟨same, trivial⟩) (fun _ _ same => ⟨same, trivial⟩))
  refine .reads_bind looked fun place _ => ?_
  have keyFirst : popped.Fits around rest ([key] ++ [value, container]) :=
    taken.perm ((List.Perm.swap key container []).cons value |>.trans (List.Perm.swap _ _ _))
  refine .bind (releaseAll_runs keyFirst) fun _ after own left _ => ?_
  refine .onStore left (.releasing ?_)
  have containerHeld : container ∈ [container] ++ (own ++ around.outer) := List.mem_cons_self
  split
  · exact assignItem_accounts left.sound containerHeld _
  · exact StoreM.dictInsert_accounts left.sound
      (Or.inl (List.mem_append_right _ (List.mem_append_left _ containerHeld)))
      (left.sound.values _ (List.mem_cons_of_mem _ containerHeld)).ne_builtins _
  · exact .releaseAll_bind left.sound (List.Subset.refl _) fun final rest => .raise rest.sound

omit [Tracker τ] in
theorem sliceBound_accounts {store : Store τ} {held inner : List Ref} {bound : Option Ref}
    (sound : store.Sound held inner) (boundHeld : ∀ ref, bound = some ref → ref ∈ held) :
    StoreM.Accounts (sliceBound bound) store held inner (fun _ => []) := by
  cases bound with
  | none => exact .pure sound
  | some ref =>
      obtain ⟨payload, found⟩ := (sound.usable (boundHeld ref rfl)).filled
      refine .get_bind found ?_
      split
      · exact .pure sound
      · exact .raise sound

theorem slice_runs (fits : state.Fits around own []) (low high : Bool) :
    Runs (slice low high) state around (fun _ => []) := by
  refine .bind (popMany_runs fits _) fun operands popped rest taken _ => ?_
  cases operands with
  | nil => exact .raise taken
  | cons sequence bounds =>
      have bound_held : ∀ (present : Bool) (index : Nat) (ref : Ref),
          (if present then bounds[index]? else none) = some ref →
          ref ∈ (sequence :: bounds) ++ (rest ++ around.outer) := by
        intro present index ref found
        split at found
        · exact List.mem_append_left _ (List.mem_cons_of_mem _ (List.mem_of_getElem? found))
        · cases found
      refine .bind (.onStore taken (.releasing ?_)) fun _ _ _ pushed _ => push_runs pushed
      refine .bind (sliceBound_accounts taken.sound (bound_held low 0))
        fun lowBound middle left => ?_
      refine .bind (sliceBound_accounts left.sound (bound_held high low.toNat)) ?_
      exact fun highBound final left => StoreM.slice_accounts left.sound List.mem_cons_self _ _

/-! ## Making objects -/

theorem buildFunction_runs (fits : state.Fits around own []) :
    Runs buildFunction state around (fun _ => []) := by
  refine .bind (pop_runs fits) fun code popped rest taken _ => ?_
  refine .get_bind (taken.sound.usable List.mem_cons_self).filled fun payload found => ?_
  split
  · obtain ⟨usable, isDict, -⟩ := usable_part taken
      (by simp [parts] : (popped.activation.globals, Kind.dictionary) ∈ _)
    refine .asks_bind (.acquire_bind taken usable fun store same acquired => ?_)
    have codeMeets := taken.sound.values code List.mem_cons_self
    have makes : store.Makes (.function code popped.activation.globals) := by
      refine .of_roles (by simp [Payload.kind]) ?_
      intro child role part
      simp only [Payload.roles, List.mem_cons, Prod.mk.injEq, List.not_mem_nil, or_false] at part
      rcases part with ⟨rfl, rfl⟩ | ⟨rfl, rfl⟩
      · exact ⟨codeMeets.ne_builtins, codeMeets.ne_modules, kind?_eq ((same _).trans found)⟩
      · refine ⟨usable.meets.ne_builtins, usable.meets.ne_modules, ?_⟩
        show store.kind? _ = _
        rw [kind?, same, ← kind?, isDict]
    exact .pushing acquired (.allocate
      (acquired.perm (List.Perm.swap _ _ _)).sound makes (by simp [Role.Allows, Payload.kind]))
  · exact .bind (releaseAll_runs taken) fun _ _ _ left _ => .raise left

theorem buildClass_runs (fits : state.Fits around own []) :
    Runs buildClass state around (fun _ => []) := by
  refine .bind (pop_runs fits) fun attrs popped rest taken _ => ?_
  refine .get_bind (taken.sound.usable List.mem_cons_self).filled fun payload found => ?_
  split
  · have meets := taken.sound.values attrs List.mem_cons_self
    have makes : popped.store.Makes (.class_ attrs) := by
      refine .of_roles (by simp [Payload.kind]) ?_
      intro child role part
      simp only [Payload.roles, List.mem_cons, Prod.mk.injEq, List.not_mem_nil, or_false] at part
      obtain ⟨rfl, rfl⟩ := part
      exact ⟨meets.ne_builtins, meets.ne_modules, kind?_eq found⟩
    exact .pushing taken (.allocate taken.sound makes (by simp [Role.Allows, Payload.kind]))
  · exact .bind (releaseAll_runs taken) fun _ _ _ left _ => .raise left

theorem buildSequence_runs {pack : Array Ref → Payload} (fits : state.Fits around own [])
    (packs : pack = Payload.list ∨ pack = Payload.tuple) (count : Nat) :
    Runs (buildSequence pack count) state around (fun _ => []) := by
  refine .bind (popMany_runs fits count) fun items popped rest taken _ => ?_
  exact .pushing taken (StoreM.allocate_sequence packs taken.sound)

omit [Tracker τ] in
theorem usable_itemsOf {store : Store τ} {held inner : List Ref} {ref : Ref} {kind : Kind}
    {payload : Payload} {items : Array Ref} (sound : store.Sound held inner)
    (found : store.payload? ref = some payload) (listed : itemsOf? kind payload = some items) :
    ∀ item ∈ items.toList, store.Usable item := by
  cases payload with
  | list stored =>
      simp only [itemsOf?] at listed
      split at listed
      · obtain rfl := Option.some.inj listed
        exact StoreM.usable_items sound (Or.inl found)
      · cases listed
  | tuple stored =>
      simp only [itemsOf?] at listed
      split at listed
      · obtain rfl := Option.some.inj listed
        exact StoreM.usable_items sound (Or.inr found)
      · cases listed
  | _ => cases listed

theorem unpack_runs (fits : state.Fits around own []) (kind : Kind) (count : Nat) :
    Runs (unpack kind count) state around (fun _ => []) := by
  refine .bind (pop_runs fits) fun sequence popped rest taken _ => ?_
  obtain ⟨payload, found⟩ := (taken.sound.usable List.mem_cons_self).filled
  refine .bind (?_ : Runs _ popped around id) fun items _ _ pushed _ => pushAll_runs pushed
  refine .onStore taken (.releasing (.get_bind found ?_))
  split
  · exact .raise taken.sound
  · rename_i items listed
    split
    · refine .acquireAll_bind taken.sound (usable_itemsOf taken.sound found listed) ?_
      exact fun final sound _ => .pure sound
    · exact .raise taken.sound

/-! ## Constants, names and attributes -/

omit [Tracker τ] in
theorem loadConst_runs (fits : state.Fits around own []) (index : Nat) :
    Runs (loadConst index) state around (fun _ => []) := by
  refine .asks_bind (.get_bind (usable_code fits).filled fun payload found => ?_)
  split
  · rename_i object
    split
    · rename_i constant listed
      have part : (constant, Role.value) ∈ (Payload.code object).roles := by
        refine List.mem_map.mpr ⟨constant, ?_, rfl⟩
        exact Array.mem_toList_iff.mpr (Array.mem_of_getElem? listed)
      exact .pushing fits (.acquire fits.sound (fits.sound.usable_child found part (by simp)))
    · exact .raise fits
  · exact .raise fits

omit [Tracker τ] in
theorem firstOf_ends {store : Store τ} {held inner scopes : List Ref}
    (sound : store.Sound held inner) (filled : ∀ scope ∈ scopes, store.Filled scope)
    (key : Bytes) :
    Ends ((firstOf key scopes : StoreM τ (Option Ref)) store)
      (fun found? final => final = store ∧ ∀ value, found? = some value → store.Usable value)
      (fun _ _ => False) := by
  induction scopes with
  | nil => exact ⟨rfl, nofun⟩
  | cons scope rest ih =>
      refine Ends.bind (StoreM.dictLookup_ends sound (filled scope List.mem_cons_self) key) ?_
      rintro found? _ ⟨rfl, usable⟩
      cases found? with
      | some value => exact ⟨rfl, usable⟩
      | none => exact ih fun scope member => filled scope (List.mem_cons_of_mem _ member)

omit [Tracker τ] in
theorem loadName_runs (fits : state.Fits around own []) (index : Nat) :
    Runs (loadName index) state around (fun _ => []) := by
  refine .bind (nameAt_runs fits index) fun name named rest fits _ => .asks_bind ?_
  have filled : ∀ scope ∈ [named.activation.locals, named.activation.globals, Ref.builtins],
      named.store.Filled scope := by
    simp only [List.mem_cons, List.not_mem_nil, or_false]
    rintro scope (rfl | rfl | rfl)
    · exact (usable_locals fits).filled
    · exact (usable_globals fits).filled
    · exact ⟨_, fits.sound.builtins_eq⟩
  refine .reads_bind (firstOf_ends fits.sound filled _) fun found? usable => ?_
  exact .pushing fits (StoreM.acquireNamed_accounts fits.sound name usable)

theorem storeName_runs (fits : state.Fits around own []) (index : Nat) :
    Runs (storeName index) state around (fun _ => []) := by
  refine .bind (nameAt_runs fits index) fun name named rest fits _ => ?_
  exact .bind (pop_runs fits) fun value popped rest taken _ => bindLocal_runs taken _

theorem loadAttr_runs (fits : state.Fits around own []) (index : Nat) :
    Runs (loadAttr index) state around (fun _ => []) := by
  refine .bind (nameAt_runs fits index) fun name named rest fits _ => ?_
  exact applyUnary_runs fits fun sound member => StoreM.loadAttr_accounts sound member name

theorem storeAttr_runs (fits : state.Fits around own []) (index : Nat) :
    Runs (storeAttr index) state around (fun _ => []) := by
  refine .bind (nameAt_runs fits index) fun name named rest fits _ => ?_
  refine .bind (popTwo_runs fits) ?_
  rintro ⟨value, object⟩ popped rest taken -
  exact .onStore taken (.releasing (StoreM.storeAttr_accounts taken.sound List.mem_cons_self name))

theorem importFrom_runs (fits : state.Fits around own []) (index : Nat) :
    Runs (importFrom index) state around (fun _ => []) := by
  refine .bind (nameAt_runs fits index) fun name named rest fits _ => ?_
  refine .peek_bind fits fun top member => ?_
  have filled := (fits.usable_own member).filled
  refine .get_bind filled fun payload found => ?_
  split
  · rename_i title attrs
    have attrsUsable : named.store.Usable attrs :=
      fits.sound.usable_child found (List.mem_cons_of_mem _ List.mem_cons_self) (by simp)
    refine .reads_bind (StoreM.dictLookup_ends fits.sound attrsUsable.filled _)
      fun found? usable => ?_
    refine .bind (.onStore fits (StoreM.acquireNamed_accounts fits.sound name usable)) ?_
    exact fun value after own taken _ => bindLocal_runs taken _
  · exact .raise fits

/-! ## Jumps and loops -/

omit [Tracker τ] in
theorem jumpIf_runs (fits : state.Fits around own []) (condition : Bool) (target : Nat) :
    Runs (jumpIf condition target) state around (fun _ => []) := by
  refine .peek_bind fits fun top member => ?_
  have filled := (fits.usable_own member).filled
  refine .get_bind filled fun payload found => ?_
  split
  · exact jumpTo_runs fits target
  · exact .pure fits

theorem forLoop_runs (fits : state.Fits around own []) (exhausted : Nat) :
    Runs (forLoop exhausted) state around (fun _ => []) := by
  refine .bind (popTwo_runs fits) ?_
  rintro ⟨sequence, index⟩ popped rest taken -
  have filled := (taken.sound.usable (List.mem_cons_of_mem _ List.mem_cons_self)).filled
  refine .get_bind filled fun payload _ => ?_
  refine .bind (releaseAll_runs (taken.perm (List.Perm.swap _ _ _))) fun _ after own left _ => ?_
  split
  · exact .bind (releaseAll_runs left) fun _ _ _ left _ => .raise left
  · rename_i position _
    have item := (StoreM.loopItem_accounts left.sound List.mem_cons_self position).orRelease
    refine .bind (.onStore left item) fun item? looped own held _ => ?_
    cases item? with
    | some item =>
        have held' := held.perm (List.Perm.swap sequence item [])
        refine .bind (.onStore held' (StoreM.allocate_int held'.sound _).orRelease)
          fun next after own made _ => pushAll_runs (made.perm ?_)
        exact (List.perm_append_comm : ([next, sequence] ++ [item]).Perm _)
    | none =>
        exact .bind (releaseAll_runs held) fun _ _ _ left _ => jumpTo_runs left exhausted

/-! ## Every instruction -/

omit [Tracker τ] in
/-- A frame asks how many values it has. -/
theorem depth_bind_runs {next : Nat → FrameM τ Unit} (fits : state.Fits around own [])
    (rest : Runs (next own.length) state around (fun _ => [])) :
    Runs (depth >>= next) state around (fun _ => []) := by
  unfold Runs
  rw [StoreM.bind_ok (depth_eq fits.splits)]
  exact rest

/-- An instruction that stays within the frame accounts for its references.  The one that
only says which line comes next is another matter. -/
theorem execute_runs (fits : state.Fits around own []) (op : Opcode) (other : op ≠ .setLine)
    (operand next : Nat) : Runs (execute op operand next) state around (fun _ => []) := by
  cases op with
  | popTop => exact popTop_runs fits
  | printTop => exact popTop_runs fits
  | rotTwo => exact rotateTwo_runs fits
  | rotThree => exact rotateThree_runs fits
  | dupTop =>
      exact .peek_bind fits fun top member =>
        .pushing fits (.acquire fits.sound (fits.usable_own member))
  | negate => exact applyUnary_runs fits StoreM.negate_accounts
  | invert => exact invert_runs fits
  | arithmetic operation =>
      exact applyBinary_runs fits fun sound => StoreM.arithmetic_accounts sound operation
  | subscript => exact applyBinary_runs fits fun sound => StoreM.subscript_accounts sound
  | slice low high => exact slice_runs fits low high
  | storeSubscript => exact storeSubscript_runs fits
  | loadLocals => exact .asks_bind (.pushing fits (.acquire fits.sound (usable_locals fits)))
  | requireArgs =>
      refine depth_bind_runs fits ?_
      split
      · exact .raise fits
      · exact .pure fits
  | refuseArgs =>
      refine depth_bind_runs fits ?_
      split
      · exact .pure fits
      · exact .raise fits
  | buildFunction => exact buildFunction_runs fits
  | buildClass => exact buildClass_runs fits
  | storeName => exact storeName_runs fits operand
  | unpackTuple => exact unpack_runs fits .tuple operand
  | unpackList => exact unpack_runs fits .list operand
  | storeAttr => exact storeAttr_runs fits operand
  | loadConst => exact loadConst_runs fits operand
  | loadName => exact loadName_runs fits operand
  | buildTuple => exact buildSequence_runs fits (Or.inr rfl) operand
  | buildList => exact buildSequence_runs fits (Or.inl rfl) operand
  | buildMap => exact .pushing fits (StoreM.allocate_dict fits.sound)
  | loadAttr => exact loadAttr_runs fits operand
  | compare => exact compare_runs fits operand
  | importName =>
      exact .bind (nameAt_runs fits operand) fun name named rest fits _ =>
        .pushing fits (StoreM.importModule_accounts fits.sound name)
  | importFrom => exact importFrom_runs fits operand
  | jumpForward => exact jumpTo_runs fits _
  | jumpIfFalse => exact jumpIf_runs fits false _
  | jumpIfTrue => exact jumpIf_runs fits true _
  | jumpAbsolute => exact jumpTo_runs fits _
  | forLoop => exact forLoop_runs fits _
  | setLine => exact absurd rfl other
  | callBare => exact .pure fits
  | callWith => exact .pure fits
  | breakLoop => exact .pure fits
  | returnValue => exact .pure fits
  | popBlock => exact .pure fits
  | setup kind => exact .pure fits

end StackMachine.FrameM
