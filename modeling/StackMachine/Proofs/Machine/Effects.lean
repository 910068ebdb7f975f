import StackMachine.Proofs.Machine.Delivery
import StackMachine.Proofs.Machine.Isolation
import StackMachine.Proofs.Machine.Operands

/-!
# What instructions do to the values of their frame

If a frame has fewer values than its instruction asks for, the instruction fails and has done
nothing; no other lack of values, in a frame that it calls say, is reported as its own.  If it is
carried out, it has replaced the topmost values by others, and what was below is as before.  That
holds of calls as well, whatever they run: a call gives the frame back the values it had.
-/

namespace StackMachine

open Outcome

variable {τ α β : Type}

namespace MachineM

variable {machine middle after : Machine τ} {activation current : Activation}
variable {callers : List Activation} {own below : List Ref} {op : Opcode} {operand next : Nat}

/-- The innermost frame is at `current` and has `own` values. -/
structure Stands (machine : Machine τ) (current : Activation) (callers : List Activation)
    (own below : List Ref) : Prop where
  frames : machine.frames.items = current :: callers
  items : machine.values.items = own ++ below
  base : current.base = below.length

/-- What an instruction, carried out by a frame that was at `current` and had `own` values, has
done to these: there were enough, the topmost are replaced by others and the rest is in place. -/
structure Affects (op : Opcode) (operand : Nat) (current : Activation) (callers : List Activation)
    (own below : List Ref) (after : Machine τ) : Prop where
  enough : op.need operand ≤ own.length
  replaced : ∃ new taken kept fresh, own = taken ++ kept ∧
    kept.length = op.leaves operand current.blocks own.length ∧
    op.Continues operand current.offset current new fresh.length ∧
    Stands after new callers (fresh ++ kept) below

/-- An instruction affects the values as it should, or fails for want of them and does nothing, or
fails for another reason. -/
structure Acts (act : MachineM τ Flow) (op : Opcode) (operand : Nat) (machine : Machine τ)
    (current : Activation) (callers : List Activation) (own below : List Ref) : Prop where
  returns : ∀ {after}, act machine = .ok .next after →
    Affects op operand current callers own below after
  lacks : ∀ {after}, act machine = .error (.failed (.raised .valueUnderflow)) after →
    own.length < op.need operand ∧ after = machine

theorem onFrame_error {act : FrameM τ α} {stop : Stop Cause} {state : FrameState τ}
    (frames : machine.frames.items = current :: callers)
    (stopped : act ⟨machine.store, machine.values, current⟩ = .error stop state) :
    ∃ frames : Stack Activation, frames.items = state.activation :: callers ∧
      onFrame act machine =
        .error stop.raised
          { machine with store := state.store, values := state.values, frames } := by
  obtain ⟨store, values, ⟨items, height, height_eq⟩, error, traceback, tracer⟩ := machine
  obtain rfl : items = current :: callers := frames
  refine ⟨⟨state.activation :: callers, height, height_eq⟩, rfl, ?_⟩
  unfold onFrame
  simp only at stopped ⊢
  rw [stopped]

/-- What stops and does nothing within the frame does nothing to the machine. -/
theorem onFrame_unchanged {act : FrameM τ α} {stop : Stop Cause}
    (frames : machine.frames.items = current :: callers)
    (stopped : act ⟨machine.store, machine.values, current⟩ =
      .error stop ⟨machine.store, machine.values, current⟩) :
    onFrame act machine = .error stop.raised machine := by
  obtain ⟨same, items, done⟩ := onFrame_error frames stopped
  obtain rfl : same = machine.frames := Stack.ext_items (items.trans frames.symm)
  exact done

theorem Stands.splits (stands : Stands machine current callers own below) :
    (⟨machine.store, machine.values, current⟩ : FrameState τ).Splits own below :=
  ⟨stands.items, stands.base⟩

theorem leaves_eq (other : op ≠ .popBlock) (blocks : List Block) (count : Nat) :
    op.leaves operand blocks count = count - op.takes operand := by
  cases op <;> first | rfl | exact absurd rfl other

theorem Stands.of_same (stands : Stands machine current callers own below)
    (frames : after.frames = machine.frames) (values : after.values = machine.values) :
    Stands after current callers own below :=
  ⟨by rw [frames, stands.frames], by rw [values, stands.items], stands.base⟩

/-- An instruction within the frame, after which nothing is done but to tell. -/
theorem acts_onFrame {act : FrameM τ Unit} {rest : MachineM τ Flow}
    (stands : Stands machine current callers own below) (other : op ≠ .popBlock)
    (handles : FrameM.Handles act (op.need operand) (op.takes operand)
      (op.Continues operand current.offset))
    (tells : ∀ machine : Machine τ, ∃ tracer, rest machine = .ok .next { machine with tracer }) :
    Acts (onFrame act >>= fun _ => rest) op operand machine current callers own below where
  returns {after} ran := by
    cases result : act ⟨machine.store, machine.values, current⟩ with
    | ok value state =>
        obtain ⟨frames, items, done⟩ := onFrame_eq stands.frames result
        obtain ⟨tracer, told⟩ := tells
          { machine with store := state.store, values := state.values, frames }
        obtain ⟨enough, fresh, splits, continues⟩ := handles.returns stands.splits result
        rw [StoreM.bind_ok done, told] at ran
        cases ran
        refine ⟨enough, state.activation, own.take (op.takes operand), own.drop (op.takes operand),
          fresh, (List.take_append_drop _ _).symm, ?_, continues, items, splits.items, splits.base⟩
        rw [List.length_drop, leaves_eq other]
    | error stop state =>
        obtain ⟨_, -, done⟩ := onFrame_error stands.frames result
        cases (bind_error done).symm.trans ran
  lacks {after} ran := by
    cases result : act ⟨machine.store, machine.values, current⟩ with
    | ok value state =>
        obtain ⟨frames, -, done⟩ := onFrame_eq stands.frames result
        obtain ⟨tracer, told⟩ := tells
          { machine with store := state.store, values := state.values, frames }
        cases ((StoreM.bind_ok done).trans told).symm.trans ran
    | error stop state =>
        obtain ⟨_, -, done⟩ := onFrame_error stands.frames result
        have same := (bind_error done).symm.trans ran
        cases stop with
        | failed cause =>
            obtain rfl : .valueUnderflow = cause := by cases same; rfl
            obtain ⟨few, rfl⟩ := handles.lacks stands.splits result
            have failed := (bind_error (onFrame_unchanged stands.frames result)).symm.trans ran
            exact ⟨few, (EStateM.Result.error.inj failed).2.symm⟩
        | fault broken => cases same
        | unfinished => cases same

/-- Values are taken off the frame, or there are too few of them. -/
theorem onFrame_takes {act : FrameM τ α} {need taken : Nat} {gives : α → List Ref}
    (stands : Stands machine current callers own below)
    (takes : FrameM.Takes act need taken gives) :
    (own.length < need ∧
      onFrame act machine = .error (.failed (.raised .valueUnderflow)) machine) ∨
    (need ≤ own.length ∧ ∃ value middle, onFrame act machine = .ok value middle ∧
      Stands middle current callers (own.drop taken) below) := by
  rcases Nat.lt_or_ge own.length need with few | inside
  · exact Or.inl ⟨few, onFrame_unchanged stands.frames (takes.few stands.splits few)⟩
  · obtain ⟨value, took, -⟩ := takes.enough stands.splits inside
    have enough : taken ≤ own.length := takes.le.trans inside
    obtain ⟨frames, items, done⟩ := onFrame_eq stands.frames took
    refine Or.inr ⟨inside, value, _, done, items, ?_, stands.base⟩
    exact (congrArg (List.drop taken) stands.items).trans (List.drop_append_of_le_length enough)

/-- A result is put on top of the values. -/
theorem onFrame_push (stands : Stands machine current callers own below) (value : Ref) :
    ∃ after, onFrame (FrameM.push value) machine = .ok () after ∧
      Stands after current callers (value :: own) below := by
  have pushed : FrameM.push value ⟨machine.store, machine.values, current⟩ =
      .ok () ⟨machine.store, machine.values.push value, current⟩ := rfl
  obtain ⟨frames, items, done⟩ := onFrame_eq stands.frames pushed
  refine ⟨_, done, items, ?_, stands.base⟩
  rw [Stack.items_push, stands.items, List.cons_append]

variable [Tracker τ] {run : MachineM τ Ref}

/-- Whatever a call runs, the frame that makes it has its values back and the result on top. -/
theorem call_returns (stands : Stands machine current callers own below) (runs : Local run)
    {callee : Ref} {argument : Option Ref} {flow : Flow}
    (ran : (do
      let result ← releasing [callee] (call run callee argument)
      onFrame (FrameM.push result)
      return .next : MachineM τ Flow) machine = .ok flow after) :
    ∃ value, Stands after current callers (value :: own) below := by
  obtain ⟨value, middle, called, ran⟩ := bind_eq_ok ran
  have isolated : Outcome.Returns (releasing [callee] (call run callee argument) machine) _ :=
    (releasing_isolated [callee] (call_isolated runs machine)).returns
  rw [called] at isolated
  obtain ⟨final, pushed, left⟩ := onFrame_push (stands.of_same isolated.1 isolated.2) value
  rw [StoreM.bind_ok pushed] at ran
  cases ran
  exact ⟨value, left⟩

/-- A call reports no lack of values: a frame that it runs has recorded its own. -/
theorem call_spares (spares : SparesCode run) (callee : Ref) (argument : Option Ref) :
    SparesCode (do
      let result ← releasing [callee] (call run callee argument)
      onFrame (FrameM.push result)
      return .next : MachineM τ Flow) :=
  (releasing_sparesCode _ (call_sparesCode spares callee argument)).bind fun value =>
    FailsWith.bind (.of_neverFails (neverFails_onFrame fun _ _ _ failed => by cases failed))
      fun _ => .pure _

/-- A call takes its operands and puts its result in their place. -/
theorem acts_call {act : FrameM τ α} {gives : α → List Ref} {callee : α → Ref}
    {argument : α → Option Ref} (stands : Stands machine current callers own below)
    (runs : Local run) (spares : SparesCode run)
    (takes : FrameM.Takes act (op.need operand) (op.takes operand) gives)
    (counted : ∀ count, op.leaves operand current.blocks count = count - op.takes operand)
    (one : op.Continues operand current.offset current current 1) :
    Acts (do
      let operands ← onFrame act
      let result ← releasing [callee operands] (call run (callee operands) (argument operands))
      onFrame (FrameM.push result)
      return .next) op operand machine current callers own below where
  returns {after} ran := by
    rcases onFrame_takes stands takes with ⟨-, few⟩ | ⟨enough, operands, middle, took, left⟩
    · rw [bind_error few] at ran
      cases ran
    · rw [StoreM.bind_ok took] at ran
      obtain ⟨value, final⟩ := call_returns left runs ran
      refine ⟨enough, current, own.take (op.takes operand), own.drop (op.takes operand), [value],
        (List.take_append_drop _ _).symm, ?_, one, final⟩
      rw [List.length_drop, counted]
  lacks {after} ran := by
    rcases onFrame_takes stands takes with ⟨few, same⟩ | ⟨enough, operands, middle, took, left⟩
    · rw [bind_error same] at ran
      exact ⟨few, (EStateM.Result.error.inj ran).2.symm⟩
    · rw [StoreM.bind_ok took] at ran
      cases call_spares spares _ _ middle _ after ran

/-- The values above a level go, and nothing is put on. -/
theorem drainTo_returns {level : Nat} (stands : Stands machine current callers own below)
    (ran : onFrame (FrameM.drainTo level) machine = .ok () after) :
    Stands after current callers (own.drop (own.length - level)) below := by
  have drains : FrameM.drainTo level ⟨machine.store, machine.values, current⟩ = _ :=
    FrameM.drainTo_eq stands.splits level
  cases released : StoreM.releaseAll (own.take (own.length - level)) machine.store with
  | ok value store =>
      obtain ⟨frames, items, done⟩ :=
        onFrame_eq stands.frames (drains.trans (FrameM.onStore_eq released))
      cases done.symm.trans ran
      refine ⟨items, ?_, stands.base⟩
      rw [Stack.items_drop, stands.items, List.drop_append_of_le_length (Nat.sub_le _ _)]
  | error stop store =>
      rw [FrameM.onStore, released] at drains
      obtain ⟨frames, -, done⟩ := onFrame_error stands.frames drains
      cases done.symm.trans ran

/-- Leaving a block takes the values above its level. -/
theorem acts_popBlock (stands : Stands machine current callers own below) :
    Acts (dispatch run .popBlock operand next) .popBlock operand machine current callers own
      below := by
  cases blocks : current.blocks with
  | nil =>
      have lacking : FrameM.popBlock ⟨machine.store, machine.values, current⟩ =
          .error (.failed .blockUnderflow) ⟨machine.store, machine.values, current⟩ := by
        unfold FrameM.popBlock
        rw [FrameM.asks_bind, blocks]
        rfl
      have stopped : dispatch run .popBlock operand next machine = _ :=
        bind_error (onFrame_unchanged stands.frames lacking)
      constructor
      · intro after ran
        cases stopped.symm.trans ran
      · intro after ran
        cases stopped.symm.trans ran
  | cons block rest =>
      have leaving : FrameM.popBlock ⟨machine.store, machine.values, current⟩ =
          .ok block ⟨machine.store, machine.values, { current with blocks := rest }⟩ := by
        unfold FrameM.popBlock
        rw [FrameM.asks_bind, blocks]
        rfl
      obtain ⟨frames, items, popped⟩ := onFrame_eq stands.frames leaving
      obtain ⟨middle, inside, same⟩ :
          ∃ middle, Stands middle { current with blocks := rest } callers own below ∧
            dispatch run .popBlock operand next machine =
              (onFrame (FrameM.drainTo block.level) >>= fun _ => pure .next) middle := by
        refine ⟨_, ?_, (StoreM.bind_ok popped).trans (StoreM.bind_ok (tell_eq _))⟩
        exact ⟨items, stands.items, stands.base⟩
      constructor
      · intro after ran
        obtain ⟨_, last, drained, returned⟩ := bind_eq_ok (same ▸ ran)
        cases returned
        refine ⟨Nat.zero_le _, _, own.take (own.length - block.level),
          own.drop (own.length - block.level), [], (List.take_append_drop _ _).symm, ?_, rfl,
          drainTo_returns inside drained⟩
        rw [List.length_drop, blocks, Opcode.leaves]
        omega
      · intro after ran
        exact absurd (same ▸ ran)
          ((neverFails_drainTo block.level).bind (fun _ => .pure _) middle _ after)

theorem acts_setup (stands : Stands machine current callers own below) (kind : BlockKind) :
    Acts (dispatch run (.setup kind) operand current.offset) (.setup kind) operand machine current
      callers own below :=
  acts_onFrame stands nofun (FrameM.pushBlock_handles kind _) fun _ => ⟨_, rfl⟩

theorem dispatch_acts (stands : Stands machine current callers own below) (runs : Local run)
    (spares : SparesCode run) :
    Acts (dispatch run op operand current.offset) op operand machine current callers own below := by
  cases op with
  | callBare => exact acts_call stands runs spares FrameM.pop_takes (fun _ => rfl) rfl
  | callWith => exact acts_call stands runs spares FrameM.popTwo_takes (fun _ => rfl) rfl
  | returnValue =>
      constructor
      · intro after ran
        obtain ⟨value, middle, -, returned⟩ := bind_eq_ok ran
        cases returned
      · intro after ran
        rcases onFrame_takes stands FrameM.pop_takes with ⟨few, same⟩ | ⟨-, value, middle, took, -⟩
        · exact ⟨few, (EStateM.Result.error.inj ((bind_error same).symm.trans ran)).2.symm⟩
        · cases (StoreM.bind_ok took).symm.trans ran
  | breakLoop => exact ⟨nofun, nofun⟩
  | popBlock => exact acts_popBlock stands
  | setup kind => exact acts_setup stands kind
  | _ => exact acts_onFrame stands nofun (FrameM.execute_handles rfl _ _) fun _ => ⟨_, rfl⟩

/-! ## Steps -/

/-- What the step of a frame does to its values, which are `own`, and to those of others. -/
structure StackEffect (run : MachineM τ Ref) (op : Opcode) (operand : Nat) (machine : Machine τ)
    (current : Activation) (callers : List Activation) (own below : List Ref) : Prop where
  /-- If it is carried out, it replaces the topmost values. -/
  returns : ∀ {after}, step run machine = .ok .next after →
    Affects op operand current callers own below after
  /-- If it reports that there are too few values, there are.  The tracker has granted the step,
  the frame is behind the instruction and the tracer knows; nothing else has been done. -/
  lacks : ∀ {after}, step run machine = .error (.failed (.raised .valueUnderflow)) after →
    own.length < op.need operand ∧
      ∃ (frames : Stack Activation) (tracer : Tracer), frames.items = current :: callers ∧
        after = { machine.ticked with frames, tracer }

/-- The frame goes on to the next instruction before it carries out this one. -/
theorem step_stackEffect (fuel : Nat) (stands : Stands machine activation callers own below)
    (here : Fetched.read activation.bytecode activation.offset = .instruction op operand next) :
    StackEffect (runFrame fuel) op operand machine { activation with offset := next } callers own
      below := by
  cases granted : (Tracker.tick machine.store.tracker).1 with
  | some refusal =>
      have stopped : step (runFrame fuel) machine = _ := bind_error (onStore_tick_refused granted)
      constructor
      · intro after ran
        cases stopped.symm.trans ran
      · intro after ran
        cases stopped.symm.trans ran
  | none =>
      obtain ⟨frames, tracer, items, same⟩ := step_dispatches (onStore_tick granted) stands.frames
        stands.items stands.base here
      have told : Stands { machine.ticked with frames, tracer } { activation with offset := next }
          callers own below := ⟨items, stands.items, stands.base⟩
      have acts : Acts (dispatch (runFrame fuel) op operand next) _ _ _ _ _ _ _ :=
        dispatch_acts told (runFrame_local fuel) (runFrame_sparesCode fuel)
      constructor
      · intro after ran
        exact acts.returns (same ▸ ran)
      · intro after ran
        obtain ⟨few, rfl⟩ := acts.lacks (same ▸ ran)
        exact ⟨few, frames, tracer, items, rfl⟩

/-- The first instruction of a frame may want two values where there are none. -/
theorem stackEffect_lacking : ∃ (machine : Machine Unlimited) (activation : Activation),
    machine.Within activation [] [] [⟨20⟩, ⟨19⟩] ∧ Stands machine activation [] [] [] ∧
    Fetched.read activation.bytecode activation.offset = .instruction .buildTuple 2 3 ∧
    (∃ after, step (runFrame 0) machine = .error (.failed (.raised .valueUnderflow)) after) ∧
    StackEffect (runFrame 0) .buildTuple 2 machine { activation with offset := 3 } [] [] [] := by
  obtain ⟨opened, opens, stops⟩ :
      ∃ opened, Opened #[102, 2, 0] Unlimited.mk Unlimited.mk opened ∧
        ∃ after, step (runFrame 0) opened = .error (.failed (.raised .valueUnderflow)) after :=
    ⟨_, ⟨⟨_, _, rfl, rfl, rfl⟩, rfl, rfl, rfl, rfl, rfl⟩, _, rfl⟩
  obtain ⟨activation, within, -, code, offset, -⟩ := opens.within
  have here : Fetched.read activation.bytecode activation.offset =
      .instruction .buildTuple 2 3 := by
    rw [code, offset]
    decide
  have stands : Stands opened activation [] [] [] := ⟨within.frames, opens.values, within.base⟩
  exact ⟨opened, activation, within, stands, here, stops, step_stackEffect 0 stands here⟩

end MachineM

end StackMachine
