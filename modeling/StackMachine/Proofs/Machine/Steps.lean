import StackMachine.Proofs.Machine.Calls

/-!
# Steps

An instruction either stays within its frame, or it is a call that gets to where it
runs another frame.  In both cases the frames of the callers and their values stay as
they are, and the frame itself stays the same but for its line, which only one
instruction changes.
-/

namespace StackMachine

namespace Activation

/-- The line of a frame after the instruction it is at: another one if that is what the
instruction says. -/
def lineAfter (activation : Activation) : Nat :=
  match Fetched.read activation.bytecode activation.offset with
  | .instruction .setLine operand _ => operand
  | _ => activation.line

/-- The same frame, on another line. -/
def onLine (activation : Activation) (line : Nat) : Activation :=
  { activation with line }

theorem Same.onLine {first second : Activation} (same : first.Same second) (line : Nat) :
    (first.onLine line).Same (second.onLine line) :=
  ⟨same.frame, same.code, same.globals, same.locals, same.file, same.bytecode, same.names, rfl,
    same.base⟩

end Activation

namespace Machine

/-- A machine that asked its tracker for one more instruction. -/
def ticked {τ : Type} [Tracker τ] (machine : Machine τ) : Machine τ :=
  { machine with
    store := { machine.store with tracker := (Tracker.tick machine.store.tracker).2 } }

end Machine

namespace MachineM

open Store Outcome Machine

variable {τ α : Type} {machine before middle after : Machine τ}
variable {start activation new : Activation} {callers : List Activation} {line : Nat}
variable {below held extra more pending : List Ref} {gives : α → List Ref}

/-- The references that an instruction hands over. -/
def Flow.refs : Flow → List Ref
  | .returning value => [value]
  | .next | .breaking => []

/-- What an instruction makes of the machine: the same frame is at work. -/
structure Moves (before : Machine τ) (activation : Activation) (callers : List Activation)
    (below held extra : List Ref) (after : Machine τ) : Prop where
  passes : ∃ events, before.Passes (below ++ held) events after
  within : ∃ new, new.Same activation ∧ after.Within new callers below (extra ++ held)

theorem Moves.trans {told : List Event} (earlier : before.Passes (below ++ held) told middle)
    (same : new.Same activation)
    (later : Moves middle new callers below held extra after) :
    Moves before activation callers below held extra after := by
  obtain ⟨events, passes⟩ := later.passes
  obtain ⟨newer, newerSame, within⟩ := later.within
  exact ⟨⟨_, earlier.trans passes⟩, newer, newerSame.trans same, within⟩

/-- An instruction that fails, still within its frame. -/
def FailsWithin (before : Machine τ) (activation : Activation) (callers : List Activation)
    (below held : List Ref) (failure : Failure) (after : Machine τ) : Prop :=
  (∃ cause, failure = .raised cause) ∧ Moves before activation callers below held [] after

/-- What a call does with its result. -/
def resume (result : Ref) : MachineM τ Flow := do
  onFrame (FrameM.push result)
  return .next

/-- The result of a call goes on top of the values of the frame that made it. -/
theorem resume_ends {value : Ref} (within : machine.Within start callers below (value :: held)) :
    Ends ((resume value : MachineM τ Flow) machine)
      (fun flow after => flow = .next ∧ machine.Passes (below ++ held) [] after ∧
        ∃ new, new.Same start ∧ after.Within new callers below held)
      (fun failure after => (∃ cause, failure = .raised cause) ∧
        machine.Passes (below ++ held) [] after ∧
        ∃ new, new.Same start ∧ after.Within new callers below held) := by
  have holding : machine.Within start callers below ([value] ++ held) := within
  refine Ends.bind (onFrame_ends holding fun own fits => FrameM.push_runs fits) ?_
  rintro _ after ⟨passes, new, same, left⟩
  exact ⟨rfl, passes, new, same, left⟩

theorem bind_congr_at {β : Type} {first second : MachineM τ α} {next : α → MachineM τ β}
    (same : first before = second after) : (first >>= next) before = (second >>= next) after := by
  show EStateM.bind first next before = EStateM.bind second next after
  unfold EStateM.bind
  rw [same]

/-- A frame goes to another line. -/
theorem onFrame_setLine (within : machine.Within start callers below held) (line : Nat) :
    ∃ after, onFrame (FrameM.update fun activation => { activation with line }) machine =
        .ok () after ∧
      machine.Passes (below ++ held) [] after ∧
      after.Within (start.onLine line) callers below held := by
  obtain ⟨ready, frames, values, base⟩ := within
  obtain ⟨sound, placed, headed, stacked⟩ := ready
  obtain ⟨store, stack, ⟨items, height, height_eq⟩, error, traceback, tracer⟩ := machine
  obtain rfl : items = start :: callers := frames
  refine ⟨_, rfl, ⟨rfl, rfl, rfl, Keeps.refl _ _, rfl⟩, ⟨sound, ?_, headed, stacked⟩, rfl, values,
    base⟩
  intro other member
  rcases List.mem_cons.mp member with rfl | caller
  · have here := placed start List.mem_cons_self
    exact ⟨here.frame, here.code⟩
  · exact placed other (List.mem_cons_of_mem _ caller)

variable [Tracker τ]

/-- An instruction stays within its frame, or runs another one and finishes as calls do.
It starts out in `start` and ends on `line`. -/
inductive Steps (act : MachineM τ Ref → MachineM τ Flow) (machine : Machine τ)
    (start : Activation) (line : Nat) (callers : List Activation) (below held : List Ref) :
    Prop where
  | direct (result : EStateM.Result (Stop Failure) (Machine τ) Flow)
      (always : ∀ run, act run machine = result)
      (ends : Ends result
        (fun flow => Moves machine (start.onLine line) callers below held flow.refs)
        (FailsWithin machine start callers below held))
  | calls (taken pending : List Ref) (middle inside : Machine τ)
      (always : ∀ run, act run machine = (finishCall pending run >>= resume) inside)
      (moves : Moves machine (start.onLine line) callers below held taken middle)
      (entered : Entered middle held pending inside)

/-- Something else is done first. -/
theorem Steps.rebase {act other : MachineM τ Ref → MachineM τ Flow} {told : List Event}
    (steps : Steps act middle new line callers below held)
    (passes : machine.Passes (below ++ held) told middle)
    (same : new.Same start) (always : ∀ run, other run machine = act run middle) :
    Steps other machine start line callers below held := by
  cases steps with
  | direct result unchanging ends =>
      refine .direct result (fun run => (always run).trans (unchanging run)) (ends.mono ?_ ?_)
      · exact fun flow after moves => .trans passes (same.onLine line) moves
      · exact fun failure after failed => ⟨failed.1, .trans passes same failed.2⟩
  | calls taken pending further inside unchanging moves entered =>
      exact .calls taken pending further inside (fun run => (always run).trans (unchanging run))
        (.trans passes (same.onLine line) moves) entered

theorem Steps.failed {act : MachineM τ Ref → MachineM τ Flow} (stop : Stop Failure)
    (after : Machine τ) (always : ∀ run, act run machine = .error stop after)
    (ends : Ends (.error stop after : EStateM.Result (Stop Failure) (Machine τ) Flow)
      (fun _ _ => False) (FailsWithin machine start callers below held)) :
    Steps act machine start line callers below held :=
  .direct (.error stop after) always (ends.mono (fun _ _ impossible => impossible.elim)
    fun _ _ => id)

theorem Steps.bind {first : MachineM τ α} {next : MachineM τ Ref → α → MachineM τ Flow}
    {returns : α → Machine τ → Activation → Prop}
    (ends : Ends (first machine)
      (fun value after => machine.Passes (below ++ held) [] after ∧ ∃ new, new.Same start ∧
        returns value after new)
      (fun failure after => (∃ cause, failure = .raised cause) ∧
        machine.Passes (below ++ held) [] after ∧
        ∃ new, new.Same start ∧ after.Within new callers below held))
    (rest : ∀ value after new, new.Same start → returns value after new →
      Steps (next · value) after new line callers below held) :
    Steps (fun run => first >>= next run) machine start line callers below held := by
  cases result : first machine with
  | ok value after =>
      rw [result] at ends
      obtain ⟨passes, new, same, within⟩ := ends
      refine (rest value after new same within).rebase passes same fun run => ?_
      exact StoreM.bind_ok result
  | error stop after =>
      rw [result] at ends
      refine .failed stop after (fun run => ?_) ?_
      · show EStateM.bind first (next run) machine = _
        rw [EStateM.bind, result]
      · cases stop with
        | failed failure =>
            obtain ⟨raised, passes, new, same, within⟩ := ends
            exact ⟨raised, ⟨_, passes⟩, new, same, within⟩
        | fault broken => exact ends
        | unfinished => trivial

/-- An instruction that is over when it has been carried out within the frame. -/
theorem Steps.onFrame {act : FrameM τ α} {flow : α → Flow}
    (ends : Ends (MachineM.onFrame act machine)
      (fun value after => machine.Passes (below ++ held) [] after ∧ ∃ new, new.Same start ∧
        after.Within new callers below ((flow value).refs ++ held))
      (fun failure after => (∃ cause, failure = .raised cause) ∧
        machine.Passes (below ++ held) [] after ∧
        ∃ new, new.Same start ∧ after.Within new callers below held)) :
    Steps (fun _ => do return flow (← MachineM.onFrame act)) machine start start.line callers below
      held := by
  refine .bind ends fun value after new same within => ?_
  refine .direct (.ok (flow value) after) (fun _ => rfl) ?_
  exact ⟨⟨_, Passes.refl after _⟩, new, same.line ▸ Activation.Same.refl new, within⟩

theorem Steps.tell {act : MachineM τ Ref → MachineM τ Flow} {event : Stack Activation → Event}
    (within : machine.Within start callers below held)
    (rest : ∀ tracer, ({ machine with tracer } : Machine τ).Within start callers below held →
      Steps act { machine with tracer } start line callers below held) :
    Steps (fun run => do MachineM.tell event; act run) machine start line callers below held :=
  (rest _ (within.withTracer _)).rebase (Passes.tell machine _ (event machine.frames))
    (Activation.Same.refl start) fun _ => StoreM.bind_ok (tell_eq event)

/-- An instruction that is a call. -/
theorem Steps.of_calls {act : MachineM τ Ref → MachineM τ Ref} {taken : List Ref}
    (within : machine.Within start callers below (taken ++ held)) (calls : Calls act machine held) :
    Steps (fun run => act run >>= resume) machine start start.line callers below held := by
  cases calls with
  | direct result always settles =>
      let constant : MachineM τ Ref := fun _ => result
      refine .direct ((constant >>= resume) machine) (fun run => bind_congr_at (always run)) ?_
      have first : Ends (constant machine)
          (fun value after => machine.Stays held [value] after)
          (FailsWithin machine start callers below held) := by
        refine Ends.mono settles (fun _ _ => id) ?_
        rintro failure after ⟨raised, stays⟩
        exact ⟨raised, ⟨_, (stays.passes_within within)⟩, start, .refl start, stays.within within⟩
      refine Ends.bind first fun value after stays => ?_
      refine (resume_ends (stays.within within)).mono ?_ ?_
      · rintro _ final ⟨rfl, passes, new, same, left⟩
        exact ⟨⟨_, (stays.passes_within within).trans passes⟩, new, same, left⟩
      · rintro failure final ⟨raised, passes, new, same, left⟩
        exact ⟨raised, ⟨_, (stays.passes_within within).trans passes⟩, new, same, left⟩
  | enters pending inside always entered =>
      refine .calls taken pending machine inside (fun run => bind_congr_at (always run)) ?_ entered
      exact ⟨⟨_, Passes.refl machine _⟩, start, .refl start, within⟩

/-! ## Every instruction -/

theorem dispatch_steps (within : machine.Within start callers below held) (op : Opcode)
    (operand next : Nat) :
    Steps (fun run => dispatch run op operand next) machine start
      (if op = .setLine then operand else start.line) callers below held := by
  have inFrame : ∀ other, other ≠ .setLine → Steps (fun _ => do
      MachineM.onFrame (FrameM.execute other operand next)
      return .next) machine start start.line callers below held := fun other different =>
    .onFrame (onFrame_runs within fun own fits =>
      FrameM.execute_runs fits other different operand next)
  cases op with
  | returnValue =>
      exact .onFrame (onFrame_runs within fun own fits => FrameM.pop_runs fits)
  | breakLoop =>
      refine .direct (.ok .breaking machine) (fun _ => rfl) ?_
      exact ⟨⟨_, Passes.refl machine _⟩, start, .refl start, within⟩
  | callBare =>
      refine .bind (onFrame_runs within fun own fits => FrameM.pop_runs fits)
        fun callee popped new same holding => ?_
      rw [if_neg (by simp), ← same.line]
      exact .of_calls holding (.releasing (call_calls holding.ready List.mem_cons_self))
  | callWith =>
      refine .bind (onFrame_runs within fun own fits => FrameM.popTwo_runs fits) ?_
      rintro ⟨callee, argument⟩ popped new same holding
      rw [if_neg (by simp), ← same.line]
      have swapped := holding.perm ((List.Perm.swap argument callee []).append_right held)
      exact .of_calls holding (.releasing (call_calls swapped.ready List.mem_cons_self))
  | popBlock =>
      refine .bind (onFrame_runs within fun own fits => FrameM.popBlock_runs fits)
        fun block popped new same left => .tell left fun tracer told => ?_
      rw [if_neg (by simp), ← same.line]
      exact .onFrame (onFrame_runs told fun own fits => FrameM.drainTo_runs fits _)
  | setup kind =>
      refine .bind (onFrame_runs within fun own fits => FrameM.pushBlock_runs fits kind _)
        fun _ pushed new same left => .tell left fun tracer told => ?_
      rw [if_neg (by simp), ← same.line]
      refine .direct (.ok .next _) (fun _ => rfl) ?_
      exact ⟨⟨_, Passes.refl _ _⟩, new, .refl new, told⟩
  | setLine =>
      obtain ⟨after, updated, passes, left⟩ := onFrame_setLine within operand
      refine .direct (.ok .next after) (fun _ => StoreM.bind_ok updated) ?_
      exact ⟨⟨_, passes⟩, start.onLine operand, .refl _, left⟩
  | _ => exact inFrame _ (by simp)

/-- The tracker grants one more instruction. -/
theorem onStore_tick (granted : (Tracker.tick machine.store.tracker).1 = none) :
    onStore tick machine = .ok () machine.ticked := by
  refine onStore_eq ?_
  rw [tick]
  split
  · rename_i tracker answer
    rw [answer]
  · rename_i refusal tracker answer
    rw [answer] at granted
    cases granted

/-- The tracker refuses one more instruction. -/
theorem onStore_tick_refused {refusal : Refusal}
    (refused : (Tracker.tick machine.store.tracker).1 = some refusal) :
    onStore tick machine = .error (.failed (.raised (.refused refusal))) machine.ticked := by
  obtain ⟨store, values, frames, error, traceback, tracer⟩ := machine
  rcases answer : Tracker.tick store.tracker with ⟨_ | other, tracker⟩ <;>
    rw [answer] at refused <;> cases refused
  rw [onStore, tick, answer, ticked, answer]
  rfl

theorem tick_accounts {store : Store τ} {inner : List Ref} (sound : store.Sound held inner) :
    StoreM.Accounts tick store held inner (fun _ => []) := by
  unfold StoreM.Accounts tick
  split
  · exact ⟨sound.withTracker _, SamePayloads.keeps (fun _ => rfl) _⟩
  · exact ⟨sound.withTracker _, SamePayloads.keeps (fun _ => rfl) _⟩

theorem lineAfter_eq {op : Opcode} {operand next : Nat}
    (fetched : Fetched.read activation.bytecode activation.offset = .instruction op operand next) :
    activation.lineAfter = if op = .setLine then operand else activation.line := by
  unfold Activation.lineAfter
  rw [fetched]
  cases op <;> rfl

omit [Tracker τ] in
/-- What an operation makes of the innermost frame, and of the machine. -/
theorem onFrame_eq {act : FrameM τ α} {value : α} {state : FrameState τ}
    (frames : machine.frames.items = activation :: callers)
    (returned : act ⟨machine.store, machine.values, activation⟩ = .ok value state) :
    ∃ frames : Stack Activation, frames.items = state.activation :: callers ∧
      onFrame act machine =
        .ok value { machine with store := state.store, values := state.values, frames } := by
  obtain ⟨store, values, ⟨items, height, height_eq⟩, error, traceback, tracer⟩ := machine
  obtain rfl : items = activation :: callers := frames
  refine ⟨⟨state.activation :: callers, height, height_eq⟩, rfl, ?_⟩
  unfold onFrame
  simp only at returned ⊢
  rw [returned]

omit [Tracker τ] in
theorem onFrame_depth {own : List Ref} (frames : machine.frames.items = activation :: callers)
    (items : machine.values.items = own ++ below) (base : activation.base = below.length) :
    onFrame FrameM.depth machine = .ok own.length machine := by
  have height : machine.values.height = own.length + below.length := by
    rw [machine.values.height_eq, items, List.length_append]
  obtain ⟨store, values, ⟨others, count, height_eq⟩, error, traceback, tracer⟩ := machine
  obtain rfl : others = activation :: callers := frames
  have enough : activation.base ≤ values.height := by
    rw [height, base]
    exact Nat.le_add_left _ _
  have depth : values.height - activation.base = own.length := by
    rw [height, base, Nat.add_sub_cancel]
  unfold onFrame FrameM.depth
  simp only [if_pos enough, depth]

omit [Tracker τ] in
theorem fetch_eq (frames : machine.frames.items = activation :: callers) :
    onFrame fetch machine = .ok (activation.offset,
      Fetched.read activation.bytecode activation.offset) machine :=
  onFrame_asks frames

/-- An instruction that is granted and can be read is carried out when the frame is behind it. -/
theorem step_dispatches {run : MachineM τ Ref} {asked : Machine τ} {own : List Ref} {op : Opcode}
    {operand next : Nat} (ticks : onStore tick machine = .ok () asked)
    (frames : asked.frames.items = activation :: callers)
    (items : asked.values.items = own ++ below) (base : activation.base = below.length)
    (here : Fetched.read activation.bytecode activation.offset = .instruction op operand next) :
    ∃ (frames : Stack Activation) (tracer : Tracer),
      frames.items = { activation with offset := next } :: callers ∧
      step run machine = dispatch run op operand next { asked with frames, tracer } := by
  have jumps : FrameM.jumpTo next ⟨asked.store, asked.values, activation⟩ =
      .ok () ⟨asked.store, asked.values, { activation with offset := next }⟩ := rfl
  obtain ⟨others, moved, jumped⟩ := onFrame_eq frames jumps
  have measured : onFrame FrameM.depth { asked with frames := others } =
      .ok own.length { asked with frames := others } := onFrame_depth moved items base
  refine ⟨others, asked.tracer.observe fun _ =>
    .instruction activation.offset op own.length others.height, moved, ?_⟩
  rw [step, StoreM.bind_ok ticks, StoreM.bind_ok (fetch_eq frames), here]
  simp only
  rw [StoreM.bind_ok jumped, StoreM.bind_ok measured, StoreM.bind_ok (tell_eq _)]

/-- An instruction that is refused before anything is done. -/
theorem raise_steps (within : machine.Within start callers below held) (cause : Cause) :
    Steps (fun _ => (raise cause : MachineM τ Flow)) machine start line callers below held :=
  .failed (.failed (.raised cause)) machine (fun _ => rfl)
    ⟨⟨cause, rfl⟩, ⟨_, Passes.refl machine _⟩, start, .refl start, within⟩

/-- The instruction that the innermost frame is at is carried out. -/
theorem step_steps (within : machine.Within start callers below held) :
    Steps step machine start start.lineAfter callers below held := by
  have ticked : Ends (onStore tick machine)
      (fun _ after => machine.Passes (below ++ held) [] after ∧ ∃ new, new.Same start ∧
        (start = new ∧ after.Within start callers below held))
      (fun failure after => (∃ cause, failure = .raised cause) ∧
        machine.Passes (below ++ held) [] after ∧
        ∃ new, new.Same start ∧ after.Within new callers below held) := by
    refine (onStore_accounts within.ready (tick_accounts within.ready.sound)).mono ?_ ?_
    · exact fun _ after stays =>
        ⟨(stays.passes_within within), start, .refl start, rfl, stays.within within⟩
    · exact fun failure after failed =>
        ⟨failed.1, failed.2.passes_within within, start, .refl start, failed.2.within within⟩
  refine .bind ticked ?_
  rintro _ after _ - ⟨rfl, inside⟩
  have fetched : Ends (onFrame fetch after)
      (fun value final => after.Passes (below ++ held) [] final ∧ ∃ new, new.Same start ∧
        (after = final ∧ start = new ∧
          value.2 = Fetched.read start.bytecode start.offset))
      (fun failure final => (∃ cause, failure = .raised cause) ∧
        after.Passes (below ++ held) [] final ∧
        ∃ new, new.Same start ∧ final.Within new callers below held) := by
    rw [fetch_eq inside.frames]
    exact ⟨Passes.refl after _, start, .refl start, rfl, rfl, rfl⟩
  refine .bind fetched ?_
  rintro ⟨offset, instruction⟩ _ _ - ⟨rfl, rfl, known⟩
  cases instruction with
  | pastEnd => exact raise_steps inside _
  | truncated op => exact raise_steps inside _
  | unknown byte => exact raise_steps inside _
  | instruction op operand next =>
      rw [lineAfter_eq known.symm]
      refine .bind (onFrame_runs inside fun own fits => FrameM.jumpTo_runs fits next)
        fun _ jumped new same left => ?_
      refine .bind (onFrame_runs left fun own fits => FrameM.depth_runs fits)
        fun depth measured newer newerSame left => .tell left fun tracer told => ?_
      rw [← same.line, ← newerSame.line]
      exact dispatch_steps told op operand next

end MachineM

end StackMachine
