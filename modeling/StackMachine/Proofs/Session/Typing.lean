import StackMachine.Proofs.Session.Moving
import StackMachine.Proofs.Store.BadCalls

/-!
# Kinds in every state that is attained

Whatever is run and asked for, every reference leads to an object of the kind that it has to
be.  So nothing that the machine follows a reference to is ever refused as a bad call, and
modules and the entries of a traceback always have a name to show.

An object is of the same kind for as long as it lives.  Whichever way a session goes on, the
objects that are held all the while are there and of the same kind afterwards; and where a slot
has an object of another kind, the tracker was told on the way that the first was freed, and
granted the other afterwards.  That is so of whatever tracker is put in the place of the one the
session has, also of one that remembers all it was told.
-/

namespace StackMachine

open Store Outcome Machine Session

variable {τ : Type}

namespace Store

variable {store : Store τ}

theorem Typed.withTracker (typed : store.Typed) (tracker : τ) :
    ({ store with tracker } : Store τ).Typed :=
  ⟨typed.module, typed.class_, typed.member, typed.function, typed.method, typed.frame,
    typed.traceback, typed.none⟩

theorem dict_of_kind? {ref : Ref} (kind : store.kind? ref = some .dictionary) :
    ∃ table, store.payload? ref = some (.dict table) := by
  obtain ⟨payload, found, same⟩ := Option.map_eq_some_iff.mp kind
  cases payload with
  | dict table => exact ⟨table, found⟩
  | _ => cases same

end Store

variable [Tracker τ]

/-- The instructions of a frame that follow the references it was entered with find there what
they have to. -/
structure Activation.Finds (activation : Activation) (store : Store τ) : Prop where
  constant : ∀ values index, Avoids .badCall (FrameM.loadConst index ⟨store, values, activation⟩)
  binding : ∀ values index, Avoids .badCall (FrameM.storeName index ⟨store, values, activation⟩)
  member : ∀ values index, Avoids .badCall (FrameM.loadAttr index ⟨store, values, activation⟩)
  imported : ∀ values index {top title attrs : Ref} {peeked : FrameState τ},
    FrameM.peek ⟨store, values, activation⟩ = .ok top peeked →
      store.payload? top = some (.module title attrs) →
        Avoids .badCall (FrameM.importFrom index ⟨store, values, activation⟩)

theorem Activation.Placed.finds {activation : Activation} {store : Store τ}
    (placed : activation.Placed store) (typed : store.Typed) : activation.Finds store := by
  obtain ⟨object, coded, -⟩ := placed.code
  obtain ⟨back, framed⟩ := placed.frame
  obtain ⟨-, -, locals, -⟩ := typed.frame framed
  obtain ⟨table, bound⟩ := dict_of_kind? locals
  constructor
  case constant => exact fun values index => FrameM.loadConst_avoids coded index
  case binding => exact fun values index => FrameM.storeName_avoids bound index
  case member => exact fun values index => FrameM.loadAttr_avoids typed index
  case imported =>
    exact fun values index {_ _ _ _} seen module => FrameM.importFrom_avoids bound seen module index

/-! ## Kinds -/

omit [Tracker τ] in
/-- The same session with another tracker. -/
def Session.under {σ : Type} (session : Session τ) (tracker : σ) : Session σ where
  machine := {
    store := ⟨session.machine.store.cells, session.machine.store.free, tracker⟩
    values := session.machine.values
    frames := session.machine.frames
    error := session.machine.error
    traceback := session.machine.traceback
    tracer := session.machine.tracer }
  registers := session.registers
  seen := session.seen

/-- Objects are of the kinds that they have to be, and what that rules out does not happen. -/
structure Session.TypesHold (session : Session τ) (lost : List Ref) : Prop where
  typed : session.machine.store.Typed
  /-- However the session goes on, what is held all the while, and what belongs to it for good,
  is there and of the same kind. -/
  kept : ∀ {held after}, session.Moves lost held after → ∀ ref,
    session.machine.store.Anchored held ref → ∃ kind,
      session.machine.store.kind? ref = some kind ∧ after.machine.store.kind? ref = some kind
  /-- Whatever is in a slot is of the same kind at any later time, unless the object was freed and
  another one made on the way: whichever tracker the session goes on with, its own or one that is
  watched, was told the one and granted the other afterwards. -/
  slots : ∀ {σ : Type} [Tracker σ] (tracker : σ) {after : Session σ},
    (session.under tracker).GetsTo after → ∀ {ref old new},
      session.machine.store.payload? ref = some old →
        after.machine.store.payload? ref = some new →
          new.kind = old.kind ∨ Replaced old new tracker after.machine.store.tracker
  /-- A member is never refused for its class. -/
  attributes : ∀ object name, Avoids .badCall (StoreM.loadAttr object name session.machine.store)
  /-- A list is never refused for being something else when it is changed. -/
  lists : ∀ argument, Avoids .badCall (StoreM.callAppend argument session.machine.store) ∧
    Avoids .badCall (StoreM.callInsert argument session.machine.store)
  /-- A frame is never refused for its code or its locals, wherever it is by then and
  whatever the tracker was asked. -/
  frames : ∀ activation ∈ session.machine.frames.items, ∀ (offset : Nat) (tracker : τ),
    ({ activation with offset } : Activation).Finds { session.machine.store with tracker }
  /-- A module is shown by its name, -/
  modules : ∀ {ref title attrs}, session.machine.store.payload? ref = some (.module title attrs) →
    ∃ bytes, session.machine.store.payload? title = some (.string bytes) ∧
      session.machine.store.toObject ref = .ok (.module bytes.toText)
  /-- and an entry of a traceback by the file of its code. -/
  entries : ∀ {ref next frame line},
    session.machine.store.payload? ref = some (.traceback next frame line) →
      ∃ back code globals locals object,
        session.machine.store.payload? frame = some (.frame back code globals locals) ∧
          session.machine.store.payload? code = some (.code object) ∧
            session.machine.store.frameFile frame = .ok object.file

namespace Session

variable {initial : τ} {session : Session τ} {lost : List Ref} {log : List Event}

theorem Attained.types_hold (attained : session.Attained initial lost log) :
    session.TypesHold lost := by
  obtain ⟨held, ready, -⟩ := attained.ready
  have typed := ready.sound.typed
  constructor
  case typed => exact typed
  case kept => exact fun moves ref anchored => moves.kinds attained anchored
  case slots =>
    intro σ _ tracker after gets ref old new found present
    have vacancies := ready.sound.exact.vacancies
    have elsewhere : (session.under tracker).machine.store.Vacancies :=
      ⟨vacancies.nodup, vacancies.inside, vacancies.vacant⟩
    exact (gets.path.succeeds elsewhere found).kind_eq present
  case attributes => exact StoreM.loadAttr_avoids typed
  case lists =>
    exact fun argument => ⟨StoreM.callAppend_avoids argument, StoreM.callInsert_avoids argument⟩
  case frames =>
    intro activation member offset tracker
    have placed := ready.placed activation member
    have elsewhere : ({ activation with offset } : Activation).Placed
        { session.machine.store with tracker } := ⟨placed.frame, placed.code⟩
    exact elsewhere.finds (typed.withTracker tracker)
  case modules => exact fun {_ _ _} found => typed.showLeaf_module found
  case entries => exact fun {_ _ _ _} found => typed.frameFile found

/-- A frame is about to take a constant and to bind it in its locals.  It goes on to do so, and
then the request that it runs for is over. -/
theorem types_hold_binding :
    let loaded := (Session.start Unlimited.mk .off).next 0
      (.loadCode "code" ⟨"main", #[100, 0, 0, 90, 0, 0, 100, 0, 0, 83], [.int 42], ["answer"]⟩)
    let bound := loaded.next 0 (.dict "names")
    let request := Request.evaluate "result" "code" "names" "names" none
    let entered := bound.next 0 request
    entered.machine.frames.height = 1 ∧ entered.TypesHold [] ∧
      entered.Moves [] (entered.standing [] [])
        { entered with machine := entered.machine.next } ∧
      entered.Moves [] (bound.standing [] request.touches) (bound.next 5 request) := by
  obtain ⟨_, loaded⟩ : ∃ events, (next 0
      (.loadCode "code" ⟨"main", #[100, 0, 0, 90, 0, 0, 100, 0, 0, 83], [.int 42], ["answer"]⟩)
      (Session.start Unlimited.mk .off)).Logged Unlimited.mk [] events :=
    (Logged.start .off).next (by decide +kernel)
  obtain ⟨_, bound⟩ : ∃ events, (next 0 (.dict "names") _).Logged Unlimited.mk [] events :=
    ⟨_, (loaded.next (by decide +kernel)).choose_spec⟩
  obtain ⟨_, entered⟩ :
      ∃ events, (next 0 (.evaluate "result" "code" "names" "names" none) _).Attained
      Unlimited.mk [] events :=
    ⟨_, (bound.enter (by decide +kernel)).choose_spec⟩
  refine ⟨by decide +kernel, entered.types_hold, moves_next [] ?_ (by decide +kernel),
    bound.moves_reply (by decide +kernel) (by decide +kernel)⟩
  exact List.ne_nil_of_length_pos (by decide +kernel)

end Session

end StackMachine
