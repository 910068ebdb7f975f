import StackMachine.Machine.Instructions
import StackMachine.Proofs.Evolution.Frame
import StackMachine.Proofs.Store.Typing
import StackMachine.Store.Natives

/-!
# Bad calls that do not happen

Where an operation follows a reference that another object holds, or that a frame was entered
with, it takes the object for what it has to be and refuses anything else as a bad call.
Since references lead where they should, that never comes to pass: no member of a class is
refused for its class, no constant for the code of the frame, no name for the locals, and no
list for being something else by the time it is changed.
-/

namespace StackMachine

open Store Outcome

namespace StoreM

variable {τ α : Type} {store : Store τ} {ref : Ref} {held : List Ref}

/-! ## Operations that never fail -/

theorem neverFails_reading {read : Store τ → Except (Stop Cause) α}
    (never : ∀ store failure, read store ≠ .error (.failed failure)) :
    NeverFails (StoreM.reading read) := by
  intro store failure after failed
  unfold StoreM.reading Outcome.reading at failed
  split at failed
  · cases failed
  · rename_i found
    cases failed
    exact never store failure found

theorem neverFails_get (ref : Ref) : NeverFails (get ref : StoreM τ Payload) := by
  refine neverFails_reading fun store failure => ?_
  unfold Store.get
  split <;> simp

theorem neverFails_acquire (ref : Ref) : NeverFails (acquire ref : StoreM τ Ref) := by
  intro store failure after failed
  unfold acquire at failed
  split at failed <;> cases failed

theorem neverFails_dictLookup (dict : Ref) (key : Bytes) :
    NeverFails (dictLookup dict key : StoreM τ (Option Ref)) := by
  refine (neverFails_get dict).bind fun payload => ?_
  cases payload with
  | dict table =>
      refine neverFails_reading fun store failure => ?_
      unfold Table.lookup
      split <;> simp
  | _ => exact .pure Option.none

/-- Reading leaves the store as it is. -/
theorem reading_cases {read : Store τ → Except (Stop Cause) α} {value : α} {after : Store τ}
    (ran : StoreM.reading read store = .ok value after) :
    after = store ∧ read store = .ok value := by
  unfold StoreM.reading Outcome.reading at ran
  split at ran
  · rename_i found
    cases ran
    exact ⟨rfl, found⟩
  · cases ran

theorem get_cases {payload : Payload} {after : Store τ}
    (read : (get ref : StoreM τ Payload) store = .ok payload after) :
    after = store ∧ store.payload? ref = some payload := by
  obtain ⟨same, found⟩ := reading_cases read
  exact ⟨same, get_eq_ok_iff.mp found⟩

/-- Looking up a name leaves the store as it is. -/
theorem dictLookup_keeps {dict : Ref} {key : Bytes} {found : Option Ref} {after : Store τ}
    (read : (dictLookup dict key : StoreM τ (Option Ref)) store = .ok found after) :
    after = store := by
  obtain ⟨payload, middle, got, rest⟩ := bind_eq_ok read
  obtain ⟨rfl, -⟩ := get_cases got
  cases payload with
  | dict table => exact (reading_cases rest).1
  | _ =>
      cases rest
      rfl

/-- Another reference to an object leaves all objects as they are. -/
theorem acquire_payload? {other value : Ref} {after : Store τ}
    (acquired : (acquire ref : StoreM τ Ref) store = .ok value after) :
    after.payload? other = store.payload? other := by
  unfold acquire at acquired
  split at acquired
  · rename_i cell found
    cases acquired
    rw [payload?, payload?, cell?_setCell (index_lt_of_cell? found)]
    split
    · rename_i same
      rw [same, found]
      rfl
    · rfl
  · cases acquired

variable [Tracker τ]

theorem neverFails_releaseAll (refs : List Ref) : NeverFails (releaseAll refs : StoreM τ Unit) :=
  neverFails_drain refs

/-- An object that is not made was refused. -/
theorem allocate_refused {payload : Payload} {cause : Cause} {after : Store τ}
    (failed : (allocate payload : StoreM τ Ref) store = .error (.failed cause) after) :
    ∃ refusal, cause = .refused refusal := by
  unfold allocate at failed
  split at failed
  · cases failed
  · rename_i refusal tracker answer
    have never := neverFails_releaseAll payload.children ({ store with tracker } : Store τ)
    split at failed
    · cases failed
      exact ⟨refusal, rfl⟩
    · rename_i stop final stopped
      cases failed
      exact absurd stopped (never _ _)

theorem allocate_avoids (payload : Payload) :
    Avoids .badCall ((allocate payload : StoreM τ Ref) store) := by
  intro after failed
  obtain ⟨refusal, same⟩ := allocate_refused failed
  cases same

omit [Tracker τ] in
theorem acquireNamed_avoids (name : String) (found : Option Ref) :
    Avoids .badCall ((acquireNamed name found : StoreM τ Ref) store) := by
  cases found with
  | some value => exact .of_neverFails (neverFails_acquire value)
  | none => exact .throw Cause.noConfusion

/-! ## Attributes -/

theorem bind_avoids (function member : Ref) :
    Avoids .badCall ((StoreM.bind function member : StoreM τ Ref) store) :=
  .bind (.of_neverFails (neverFails_acquire function)) fun _ _ _ =>
    .bind (.of_neverFails (neverFails_acquire member)) fun _ _ _ => allocate_avoids _

/-- The class of a member is a class. -/
theorem loadAttr_avoids (typed : store.Typed) (object : Ref) (name : String) :
    Avoids .badCall ((loadAttr object name : StoreM τ Ref) store) := by
  refine .bind (.of_neverFails (neverFails_get object)) fun payload _ read => ?_
  obtain ⟨rfl, found⟩ := get_cases read
  cases payload
  case module title attrs =>
      simp only
      split
      · exact .of_neverFails (neverFails_acquire attrs)
      split
      · exact .of_neverFails (neverFails_acquire title)
      · exact .bind (.of_neverFails (neverFails_dictLookup attrs _)) fun found _ _ =>
          acquireNamed_avoids name found
  case class_ attrs =>
      exact .bind (.of_neverFails (neverFails_dictLookup attrs _)) fun found _ _ =>
        acquireNamed_avoids name found
  case member owner attrs =>
      refine .bind (.of_neverFails (neverFails_dictLookup attrs _)) fun own _ looked => ?_
      obtain rfl := dictLookup_keeps looked
      cases own with
      | some value => exact .of_neverFails (neverFails_acquire value)
      | none =>
          refine .bind (.of_neverFails (neverFails_get owner)) fun payload _ read => ?_
          obtain ⟨rfl, owned⟩ := get_cases read
          have kind := (typed.member found).1
          rw [kind?_eq owned] at kind
          cases payload
          case class_ shared =>
              refine .bind (.of_neverFails (neverFails_dictLookup shared _)) fun found _ _ => ?_
              cases found with
              | none => exact .throw Cause.noConfusion
              | some value =>
                  refine .bind (.of_neverFails (neverFails_get value)) fun payload _ _ => ?_
                  cases payload
                  case function code globals => exact bind_avoids value object
                  all_goals exact .of_neverFails (neverFails_acquire value)
          all_goals cases kind
  all_goals exact .throw Cause.noConfusion

/-! ## Containers -/

omit [Tracker τ] in
theorem neverFails_lend (ref : Ref) : NeverFails (lend ref : StoreM τ Payload) := by
  intro store failure after failed
  unfold lend at failed
  split at failed <;> cases failed

omit [Tracker τ] in
theorem neverFails_putBack (ref : Ref) (payload : Payload) :
    NeverFails (putBack ref payload : StoreM τ Unit) := by
  intro store failure after failed
  unfold putBack at failed
  split at failed <;> cases failed

omit [Tracker τ] in
theorem lend_payload? {payload : Payload} {after : Store τ}
    (lent : (lend ref : StoreM τ Payload) store = .ok payload after) :
    store.payload? ref = some payload := by
  unfold lend at lent
  split at lent
  · rename_i found
    cases lent
    exact payload?_eq found
  · cases lent
  · cases lent

/-- The work on an object neither fails for a reason nor hands it over. -/
structure Spares {γ : Type} (avoided : Cause)
    (outcome : EStateM.Result (Stop Cause) (Store τ) (γ × Except Cause α)) : Prop where
  avoids : Avoids avoided outcome
  left : ∀ new result after, outcome = .ok (new, result) after → result ≠ .error avoided

namespace Spares

variable {γ : Type} {avoided : Cause}

omit [Tracker τ] in
theorem error {stop : Stop Cause} (other : stop ≠ .failed avoided) :
    Spares avoided (.error stop store : EStateM.Result _ _ (γ × Except Cause α)) where
  avoids := by
    intro _ same
    cases same
    exact other rfl
  left := nofun

omit [Tracker τ] in
/-- What is handed over in the end is all that matters. -/
theorem finish {act : StoreM τ Unit} {new : γ} {result : Except Cause α} (never : NeverFails act)
    (other : result ≠ .error avoided) :
    Spares avoided ((act >>= fun _ => pure (new, result)) store) where
  avoids := .bind (.of_neverFails never) fun _ _ _ => .pure (new, result)
  left := by
    intro _ _ _ ran
    obtain ⟨_, _, _, returned⟩ := bind_eq_ok ran
    cases returned
    exact other

omit [Tracker τ] in
theorem map {δ : Type} {act : StoreM τ (γ × Except Cause α)} (spares : Spares avoided (act store))
    (change : γ → δ) :
    Spares avoided ((act >>= fun outcome => pure (change outcome.1, outcome.2)) store) where
  avoids := .bind spares.avoids fun _ _ _ => .pure _
  left := by
    intro _ _ _ ran
    obtain ⟨⟨new, result⟩, _, worked, returned⟩ := bind_eq_ok ran
    cases returned
    exact spares.left new result _ worked

theorem tableInsert (key : Bytes) (value : Ref) (table : Table Ref) :
    Spares .badCall (StoreM.tableInsert key value table store) := by
  have other : (table.insert store.tracker key value).1 ≠ .error (.failed .badCall) :=
    Table.insert_ne_badCall key value
  unfold StoreM.tableInsert
  split
  · exact finish (neverFails_releaseAll _) (by simp)
  · rename_i found
    rw [found] at other
    refine finish (neverFails_releaseAll _) fun same => other ?_
    cases same
    rfl
  · exact .error (by simp)
  · exact .error (by simp)

theorem growItems (position : Nat) (value : Ref) (items : Array Ref) :
    Spares .badCall (StoreM.growItems position value items store) := by
  obtain ⟨tracker, granted | ⟨refusal, refused⟩⟩ := chargeInsert_cases store
  · rw [StoreM.growItems, bind_ok (attempt_ok granted)]
    refine ⟨.pure _, fun _ _ _ ran => ?_⟩
    cases ran
    simp
  · rw [StoreM.growItems, bind_ok (attempt_failed refused)]
    exact finish (neverFails_releaseAll _) (by simp)

end Spares

omit [Tracker τ] in
/-- An object that is worked on is what it was before. -/
theorem lending_avoids {payload : Payload} {avoided : Cause}
    {work : Payload → StoreM τ (Payload × Except Cause α)}
    (found : store.payload? ref = some payload)
    (worked : ∀ lent, Spares avoided (work payload lent)) :
    Avoids avoided (lending ref work store) := by
  refine .bind (.of_neverFails (neverFails_lend ref)) fun other lent read => ?_
  obtain rfl := Option.some.inj (found.symm.trans (lend_payload? read))
  refine .bind (worked lent).avoids fun outcome after ran => ?_
  obtain ⟨new, result⟩ := outcome
  exact .bind (.of_neverFails (neverFails_putBack ref new)) fun _ _ _ =>
    .settle ((worked lent).left new result after ran)

/-- A name is bound in a dictionary, if there is room for it. -/
theorem dictInsert_avoids {dict value : Ref} {key : Bytes} {table : Table Ref}
    (found : store.payload? dict = some (.dict table)) :
    Avoids .badCall ((dictInsert dict key value : StoreM τ Unit) store) :=
  lending_avoids found fun _ => (Spares.tableInsert key value table).map Payload.dict

theorem listInsert_avoids {list value : Ref} {index : Int64} {items : Array Ref}
    (found : store.payload? list = some (.list items)) :
    Avoids .badCall ((listInsert list index value : StoreM τ Unit) store) :=
  lending_avoids found fun _ => (Spares.growItems _ value items).map Payload.list

theorem listAppend_avoids {list value : Ref} {items : Array Ref}
    (found : store.payload? list = some (.list items)) :
    Avoids .badCall ((listAppend list value : StoreM τ Unit) store) :=
  lending_avoids found fun _ => (Spares.growItems _ value items).map Payload.list

/-! ## Built-in functions -/

theorem releasing_avoids {avoided : Cause} {refs : List Ref} {act : StoreM τ α}
    (body : Avoids avoided (act store)) : Avoids avoided (releasing refs act store) :=
  .attempt_bind body fun _ _ other =>
    .bind (.of_neverFails (neverFails_releaseAll refs)) fun _ _ _ => .settle other

omit [Tracker τ] in
theorem neverFails_getOption (argument : Option Ref) :
    NeverFails (getOption argument : StoreM τ (Option Payload)) := by
  cases argument with
  | none => exact .pure Option.none
  | some ref => exact (neverFails_get ref).bind fun payload => .pure (some payload)

omit [Tracker τ] in
theorem getOption_keeps {argument : Option Ref} {payload : Option Payload} {after : Store τ}
    (read : (getOption argument : StoreM τ _) store = .ok payload after) : after = store := by
  cases argument with
  | none =>
      cases read
      rfl
  | some ref =>
      obtain ⟨_, middle, got, returned⟩ : ∃ value middle,
          (get ref : StoreM τ Payload) store = .ok value middle ∧ _ := bind_eq_ok read
      cases returned
      exact (get_cases got).1

omit [Tracker τ] in
theorem neverFails_appendTarget? (argument : Option Ref) :
    NeverFails (appendTarget? argument : StoreM τ _) := by
  refine (neverFails_getOption argument).bind fun payload => ?_
  split
  · split
    · refine (neverFails_get _).bind fun payload => ?_
      split <;> exact .pure _
    · exact .pure _
  · exact .pure _

omit [Tracker τ] in
theorem appendTarget?_cases {argument : Option Ref} {list item : Ref} {after : Store τ}
    (found : (appendTarget? argument : StoreM τ _) store = .ok (some (list, item)) after) :
    after = store ∧ ∃ items, store.payload? list = some (.list items) := by
  obtain ⟨payload, middle, got, rest⟩ := bind_eq_ok found
  obtain rfl := getOption_keeps got
  rcases payload with _ | payload
  · cases rest
  cases payload
  case tuple items =>
      rcases listed : items.toList with _ | ⟨first, _ | ⟨second, _ | ⟨third, others⟩⟩⟩ <;>
        simp only [listed] at rest
      case cons.cons.nil =>
          obtain ⟨content, final, read, rest⟩ := bind_eq_ok rest
          obtain ⟨rfl, present⟩ := get_cases read
          cases content <;> cases rest
          exact ⟨rfl, _, present⟩
      all_goals cases rest
  all_goals cases rest

omit [Tracker τ] in
theorem neverFails_insertTarget? (argument : Option Ref) :
    NeverFails (insertTarget? argument : StoreM τ _) := by
  refine (neverFails_getOption argument).bind fun payload => ?_
  split
  · split
    · refine (neverFails_get _).bind fun first => (neverFails_get _).bind fun second => ?_
      split <;> exact .pure _
    · exact .pure _
  · exact .pure _

omit [Tracker τ] in
theorem insertTarget?_cases {argument : Option Ref} {list item : Ref} {index : Int64}
    {after : Store τ}
    (found : (insertTarget? argument : StoreM τ _) store = .ok (some (list, index, item)) after) :
    after = store ∧ ∃ items, store.payload? list = some (.list items) := by
  obtain ⟨payload, middle, got, rest⟩ := bind_eq_ok found
  obtain rfl := getOption_keeps got
  rcases payload with _ | payload
  · cases rest
  cases payload
  case tuple items =>
      rcases listed : items.toList with
        _ | ⟨first, _ | ⟨second, _ | ⟨third, _ | ⟨fourth, others⟩⟩⟩⟩ <;> simp only [listed] at rest
      case cons.cons.cons.nil =>
          obtain ⟨content, final, read, second⟩ := bind_eq_ok rest
          obtain ⟨rfl, present⟩ := get_cases read
          obtain ⟨place, last, read, chosen⟩ := bind_eq_ok second
          obtain ⟨rfl, -⟩ := get_cases read
          clear rest second
          cases content <;> cases place <;> cases chosen
          exact ⟨rfl, _, present⟩
      all_goals cases rest
  all_goals cases rest

/-- Appending to a list and inserting into one find it to be a list still. -/
theorem callAppend_avoids (argument : Option Ref) :
    Avoids .badCall ((callAppend argument : StoreM τ Ref) store) := by
  refine .bind (.of_neverFails (neverFails_appendTarget? argument)) fun target _ found => ?_
  refine .bind (releasing_avoids ?_) fun _ _ _ => .of_neverFails (neverFails_acquire _)
  cases target with
  | none => exact .throw Cause.noConfusion
  | some target =>
      obtain ⟨list, item⟩ := target
      obtain ⟨rfl, items, present⟩ := appendTarget?_cases found
      exact .bind (.of_neverFails (neverFails_acquire item)) fun _ _ acquired =>
        listAppend_avoids ((acquire_payload? acquired).trans present)

theorem callInsert_avoids (argument : Option Ref) :
    Avoids .badCall ((callInsert argument : StoreM τ Ref) store) := by
  refine .bind (.of_neverFails (neverFails_insertTarget? argument)) fun target _ found => ?_
  refine .bind (releasing_avoids ?_) fun _ _ _ => .of_neverFails (neverFails_acquire _)
  cases target with
  | none => exact .throw Cause.noConfusion
  | some target =>
      obtain ⟨list, index, item⟩ := target
      obtain ⟨rfl, items, present⟩ := insertTarget?_cases found
      exact .bind (.of_neverFails (neverFails_acquire item)) fun _ _ acquired =>
        listInsert_avoids ((acquire_payload? acquired).trans present)

end StoreM

/-! ## Instructions -/

namespace FrameM

variable {τ α β : Type} {state after : FrameState τ}

theorem avoids_onStore {avoided : Cause} {act : StoreM τ α}
    (avoids : Avoids avoided (act state.store)) : Avoids avoided (onStore act state) := by
  intro final failed
  obtain ⟨store, values, activation⟩ := state
  simp only [onStore] at failed
  split at failed
  · cases failed
  · rename_i stop store stopped
    cases failed
    exact avoids store stopped

theorem onStore_cases {act : StoreM τ α} {value : α}
    (ran : onStore act state = .ok value after) :
    act state.store = .ok value after.store ∧ after.activation = state.activation := by
  obtain ⟨store, values, activation⟩ := state
  simp only [onStore] at ran
  split at ran
  · rename_i final returned
    cases ran
    exact ⟨returned, rfl⟩
  · cases ran

/-- An operation that may move values, but leaves the store and the activation alone, and that
is never a bad call. -/
structure MovesValues (act : FrameM τ α) : Prop where
  avoids : ∀ state, Avoids .badCall (act state)
  keeps : ∀ {state value after}, act state = .ok value after →
    after.store = state.store ∧ after.activation = state.activation

namespace MovesValues

variable {act : FrameM τ α} {next : α → FrameM τ β}

theorem bind (first : MovesValues act) (second : ∀ value, MovesValues (next value)) :
    MovesValues (act >>= next) where
  avoids state := .bind (first.avoids state) fun value after _ => (second value).avoids after
  keeps ran := by
    obtain ⟨value, middle, moved, rest⟩ := bind_eq_ok ran
    obtain ⟨store, activation⟩ := first.keeps moved
    obtain ⟨store', activation'⟩ := (second value).keeps rest
    exact ⟨store'.trans store, activation'.trans activation⟩

theorem pure (value : α) : MovesValues (pure value : FrameM τ α) :=
  ⟨fun _ => .pure value, fun ran => by cases ran; exact ⟨rfl, rfl⟩⟩

theorem raise {cause : Cause} (other : cause ≠ .badCall) :
    MovesValues (FrameM.raise cause : FrameM τ α) :=
  ⟨fun _ => .throw other, nofun⟩

theorem fault (broken : Fault) : MovesValues (throw (.fault broken) : FrameM τ α) :=
  ⟨fun _ => .of_neverFails (.fault broken), nofun⟩

theorem asks (read : Activation → α) : MovesValues (FrameM.asks read : FrameM τ α) :=
  ⟨fun _ _ => nofun, fun ran => by cases ran; exact ⟨rfl, rfl⟩⟩

theorem allValues : MovesValues (FrameM.allValues : FrameM τ (Stack Ref)) :=
  ⟨fun _ _ => nofun, fun ran => by cases ran; exact ⟨rfl, rfl⟩⟩

theorem setValues (values : Stack Ref) : MovesValues (FrameM.setValues values : FrameM τ Unit) :=
  ⟨fun _ _ => nofun, fun ran => by cases ran; exact ⟨rfl, rfl⟩⟩

theorem depth : MovesValues (FrameM.depth : FrameM τ Nat) where
  avoids state after failed := by
    unfold FrameM.depth at failed
    split at failed <;> cases failed
  keeps ran := by
    unfold FrameM.depth at ran
    split at ran <;> cases ran
    exact ⟨rfl, rfl⟩

theorem requireDepth (count : Nat) : MovesValues (FrameM.requireDepth count : FrameM τ Unit) := by
  refine depth.bind fun depth => ?_
  split
  · exact .raise Cause.noConfusion
  · exact .pure ()

theorem takeTop : MovesValues (FrameM.takeTop : FrameM τ Ref) := by
  refine allValues.bind fun values => ?_
  cases values.items with
  | nil => exact .fault _
  | cons top rest => exact (setValues _).bind fun _ => .pure top

theorem pop : MovesValues (FrameM.pop : FrameM τ Ref) :=
  (requireDepth 1).bind fun _ => takeTop

theorem peek : MovesValues (FrameM.peek : FrameM τ Ref) := by
  refine (requireDepth 1).bind fun _ => allValues.bind fun values => ?_
  cases values.top? with
  | none => exact .fault _
  | some top => exact .pure top

theorem push (value : Ref) : MovesValues (FrameM.push value : FrameM τ Unit) :=
  allValues.bind fun _ => setValues _

theorem nameAt (index : Nat) : MovesValues (FrameM.nameAt index : FrameM τ String) := by
  refine (asks _).bind fun name => ?_
  cases name with
  | some name => exact .pure name
  | none => exact .raise Cause.noConfusion

end MovesValues

/-- The code of a frame is code. -/
theorem loadConst_avoids {object : CodeObject}
    (coded : state.store.payload? state.activation.code = some (.code object)) (index : Nat) :
    Avoids .badCall (loadConst index state) := by
  refine .bind ((MovesValues.asks _).avoids state) fun code middle asked => ?_
  cases asked
  refine .bind (avoids_onStore (.of_neverFails (StoreM.neverFails_get _)))
    fun payload middle got => ?_
  obtain ⟨-, found⟩ := StoreM.get_cases (onStore_cases got).1
  obtain rfl := Option.some.inj (coded.symm.trans found)
  simp only
  cases object.constants[index]? with
  | none => exact .throw Cause.noConfusion
  | some constant =>
      exact .bind (avoids_onStore (.of_neverFails (StoreM.neverFails_acquire constant)))
        fun value middle _ => (MovesValues.push value).avoids middle

variable [Tracker τ]

/-- The locals of a frame are a dictionary. -/
theorem storeName_avoids {table : Table Ref}
    (bound : state.store.payload? state.activation.locals = some (.dict table)) (index : Nat) :
    Avoids .badCall (storeName index state) := by
  refine .bind ((MovesValues.nameAt index).avoids state) fun name named read => ?_
  refine .bind (MovesValues.pop.avoids named) fun value middle popped => ?_
  refine .bind ((MovesValues.asks _).avoids middle) fun locals _ asked => ?_
  cases asked
  obtain ⟨store, activation⟩ := (MovesValues.nameAt index).keeps read
  obtain ⟨store', activation'⟩ := MovesValues.pop.keeps popped
  refine avoids_onStore (StoreM.dictInsert_avoids (?_ : _ = some (Payload.dict table)))
  rw [store', store, activation', activation, bound]

omit [Tracker τ] in
theorem nameAt_keeps {index : Nat} {name : String} (read : nameAt index state = .ok name after) :
    after = state := by
  obtain ⟨found, middle, asked, rest⟩ := bind_eq_ok read
  cases asked
  generalize (fun activation : Activation => activation.names[index]?) state.activation = found
    at rest
  cases found <;> cases rest
  rfl

/-- What is imported from a module is bound in the locals. -/
theorem importFrom_avoids {table : Table Ref} {top title attrs : Ref} {peeked : FrameState τ}
    (bound : state.store.payload? state.activation.locals = some (.dict table))
    (seen : peek state = .ok top peeked)
    (imported : state.store.payload? top = some (.module title attrs)) (index : Nat) :
    Avoids .badCall (importFrom index state) := by
  refine .bind ((MovesValues.nameAt index).avoids state) fun name _ read => ?_
  obtain rfl := nameAt_keeps read
  refine .bind (MovesValues.peek.avoids _) fun module middle got => ?_
  obtain ⟨rfl, rfl⟩ := EStateM.Result.ok.inj (seen.symm.trans got)
  obtain ⟨store, activation⟩ := MovesValues.peek.keeps seen
  refine .bind (avoids_onStore (.of_neverFails (StoreM.neverFails_get _)))
    fun payload next read => ?_
  obtain ⟨read, same⟩ := onStore_cases read
  obtain ⟨store', found⟩ := StoreM.get_cases read
  rw [store, imported] at found
  cases found
  refine .bind (avoids_onStore (.of_neverFails (StoreM.neverFails_dictLookup attrs _)))
    fun found looked ran => ?_
  obtain ⟨ran, same'⟩ := onStore_cases ran
  have store'' := StoreM.dictLookup_keeps ran
  refine .bind (avoids_onStore (StoreM.acquireNamed_avoids name found)) fun value final ran => ?_
  obtain ⟨acquired, same''⟩ := onStore_cases ran
  refine .bind ((MovesValues.asks _).avoids final) fun locals _ asked => ?_
  cases asked
  refine avoids_onStore (StoreM.dictInsert_avoids (?_ : _ = some (Payload.dict table)))
  rw [same'', same', same, activation, ← bound, ← store, ← store', ← store'']
  cases found with
  | none => cases acquired
  | some ref => exact StoreM.acquire_payload? acquired

/-- No attribute is refused for what it is looked up in. -/
theorem loadAttr_avoids (typed : state.store.Typed) (index : Nat) :
    Avoids .badCall (loadAttr index state) := by
  refine .bind ((MovesValues.nameAt index).avoids state) fun name named read => ?_
  refine .bind (MovesValues.pop.avoids named) fun operand middle popped => ?_
  obtain ⟨store, -⟩ := (MovesValues.nameAt index).keeps read
  obtain ⟨store', -⟩ := MovesValues.pop.keeps popped
  have same : middle.store = state.store := store'.trans store
  exact .bind (avoids_onStore (StoreM.releasing_avoids (StoreM.loadAttr_avoids (same ▸ typed) _ _)))
    fun value after _ => (MovesValues.push value).avoids after

end FrameM

end StackMachine
