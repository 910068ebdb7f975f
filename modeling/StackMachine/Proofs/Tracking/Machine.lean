import StackMachine.Machine.Host
import StackMachine.Proofs.Machine.Errors
import StackMachine.Proofs.Tracking.Frame

/-!
# Runs with a watched tracker

A run of a frame accounts for the refusals on its way.  Where it returns, there were none
but those that dictionaries get along with.  Where it fails, recording the error and
leaving the frames may be refused objects, for messages and for the entries of the
traceback, and do without them.
-/

namespace StackMachine

variable {τ ρ π α : Type} [Tracker τ] [Tracker ρ] [Tracker π] {view : View τ ρ π}

instance : Watching (Machine (Seen view)) (Machine π) τ ρ where
  plain machine := ⟨Watching.plain machine.store, machine.values, machine.frames, machine.error,
    machine.traceback, machine.tracer⟩
  watched machine := machine.store.tracker
  agrees := view.agrees

instance : Failing Failure where
  fate
    | .raised cause => .failing cause
    | .recorded => .recorded

namespace MachineM

open Outcome Watching

/-- An operation of the machine, with a watched tracker and with what is seen of it, that fails for
every refusal it meets. -/
abbrev Heeds (view : View τ ρ π) (act : MachineM (Seen view) α)
    (other : MachineM π α) : Prop :=
  Outcome.Heeds act other

/-- An operation of the machine, with a watched tracker and with what is seen of it, that meets no
refusal and does not fail. -/
abbrev Cleans (view : View τ ρ π) (act : MachineM (Seen view) α)
    (other : MachineM π α) : Prop :=
  Tidies Entry.Granted act other

/-- An operation of the machine, with a watched tracker and with what is seen of it, that does
without the objects that it is refused. -/
abbrev Notes (view : View τ ρ π) (act : MachineM (Seen view) α)
    (other : MachineM π α) : Prop :=
  Tidies Entry.Minor act other

theorem Cleans.notes {act : MachineM (Seen view) α} {other : MachineM π α}
    (cleans : Cleans view act other) : Notes view act other :=
  cleans.mono fun _ => Or.inl

/-! ## Acting on the store and within the frame -/

theorem onStore_mirrors {act : StoreM (Seen view) α} {other : StoreM π α}
    {machine : Machine (Seen view)} {returns : α → Store (Seen view) → Prop}
    {stops : Stop Cause → Store (Seen view) → Prop}
    (mirrors : Mirrors act other machine.store returns stops) :
    Mirrors (onStore act) (onStore other) machine (fun value after => returns value after.store)
      fun stop after => ∃ inner, stop = inner.raised ∧ stops inner after.store := by
  obtain ⟨store, values, frames, error, traceback, tracer⟩ := machine
  have plainly : onStore other (plain
      (⟨store, values, frames, error, traceback, tracer⟩ : Machine (Seen view))) =
      onStore other ⟨plain store, values, frames, error, traceback, tracer⟩ := rfl
  cases mirrors with
  | ok value after ran same continues holds =>
      refine .ok value ⟨after, values, frames, error, traceback, tracer⟩ ?_ (fun agreed => ?_)
        continues holds
      · rw [onStore, ran]
      · rw [plainly, onStore, same agreed]
        rfl
  | error stop after ran same continues holds =>
      refine .error stop.raised ⟨after, values, frames, error, traceback, tracer⟩ ?_
        (fun agreed => ?_) continues ⟨stop, rfl, holds⟩
      · rw [onStore, ran]
      · rw [plainly, onStore, same agreed]
        rfl

theorem onFrame_mirrors {act : FrameM (Seen view) α} {other : FrameM π α}
    {machine : Machine (Seen view)} (returns : α → Store (Seen view) → Prop)
    (stops : Stop Cause → Store (Seen view) → Prop)
    (mirrors : ∀ activation, Mirrors act other ⟨machine.store, machine.values, activation⟩
      (fun value state => returns value state.store) fun stop state => stops stop state.store) :
    Mirrors (onFrame act) (onFrame other) machine (fun value after => returns value after.store)
      fun stop after => (∃ broken, stop = .fault broken) ∨
        ∃ inner, stop = inner.raised ∧ stops inner after.store := by
  obtain ⟨store, values, ⟨items, height, height_eq⟩, error, traceback, tracer⟩ := machine
  cases items with
  | nil => exact .error (.fault .idle) _ rfl (fun _ => rfl) (.refl _) (Or.inl ⟨_, rfl⟩)
  | cons activation rest =>
      let around {ω : Type} (state : FrameState ω) : Machine ω :=
        ⟨state.store, state.values, ⟨state.activation :: rest, height, height_eq⟩, error,
          traceback, tracer⟩
      let inside : FrameState (Seen view) := ⟨store, values, activation⟩
      have plainly : onFrame other (plain (around inside)) =
          onFrame other (around (plain inside)) :=
        rfl
      cases mirrors activation with
      | ok value after ran same continues holds =>
          refine .ok value (around after) ?_ (fun agreed => ?_) continues holds
          · simp only [onFrame, ran, around]
          · refine plainly.trans ?_
            simp only [onFrame, around, inside, same agreed]
            rfl
      | error stop after ran same continues holds =>
          refine .error stop.raised (around after) ?_ (fun agreed => ?_) continues
            (Or.inr ⟨stop, rfl, holds⟩)
          · simp only [onFrame, ran, around]
          · refine plainly.trans ?_
            simp only [onFrame, around, inside, same agreed]
            rfl

section Lifting

variable {before : Fate} {fate : α → Fate}

theorem onStore_watches {act : StoreM (Seen view) α} {other : StoreM π α}
    (watches : Watches before act other fate) :
    Watches before (onStore act) (onStore other) fate := by
  intro machine since accounts
  refine (onStore_mirrors (watches machine.store since accounts)).mono (fun _ _ => id) ?_
  rintro _ after ⟨stop, rfl, holds⟩
  cases stop <;> exact holds

theorem onStore_tidies {act : StoreM (Seen view) α} {other : StoreM π α}
    {allowed : Entry → Prop} (tidies : Tidies allowed act other) :
    Tidies allowed (onStore act) (onStore other) := by
  intro machine
  refine (onStore_mirrors (tidies machine.store)).mono (fun _ _ => id) ?_
  rintro _ after ⟨_, rfl, broken, rfl⟩
  exact ⟨broken, rfl⟩

theorem onFrame_watches {act : FrameM (Seen view) α} {other : FrameM π α}
    (watches : Watches before act other fate) :
    Watches before (onFrame act) (onFrame other) fate := by
  intro machine since accounts
  refine (onFrame_mirrors (fun value store => (fate value).Accounts since (watched store).log)
    (StopsWith since) fun activation => ?_).mono (fun _ _ => id) ?_
  · refine (watches ⟨machine.store, machine.values, activation⟩ since accounts).mono
      (fun _ _ => id) ?_
    intro stop state
    cases stop <;> exact id
  · rintro _ after (⟨broken, rfl⟩ | ⟨stop, rfl, holds⟩)
    · trivial
    · cases stop <;> exact holds

theorem onFrame_cleans {act : FrameM (Seen view) α} {other : FrameM π α}
    (cleans : FrameM.Cleans view act other) : Cleans view (onFrame act) (onFrame other) := by
  intro machine
  refine (onFrame_mirrors (fun _ store => Adds Entry.Granted machine.store store)
    (fun stop _ => ∃ broken, stop = .fault broken) fun activation =>
      cleans ⟨machine.store, machine.values, activation⟩).mono (fun _ _ => id) ?_
  rintro _ after (⟨broken, rfl⟩ | ⟨_, rfl, broken, rfl⟩)
  · exact ⟨broken, rfl⟩
  · exact ⟨broken, rfl⟩

end Lifting

theorem tell_cleans (event : Stack Activation → Event) : Cleans view (tell event) (tell event) :=
  fun machine => .ok ()
    { machine with tracer := machine.tracer.observe fun _ => event machine.frames }
    rfl (fun _ => rfl) (.refl _) (.refl _ machine)

theorem releaseAll_cleans (refs : List Ref) : Cleans view (releaseAll refs) (releaseAll refs) :=
  onStore_tidies (StoreM.releaseAll_cleans refs)

theorem acquire_cleans (ref : Ref) :
    Cleans view (onStore (StoreM.acquire ref)) (onStore (StoreM.acquire ref)) :=
  onStore_tidies (StoreM.acquire_cleans ref)

theorem releasing_watches {act : MachineM (Seen view) α} {other : MachineM π α} {before : Fate}
    {fate : α → Fate} (refs : List Ref) (body : Watches before act other fate) :
    Watches before (releasing refs act) (releasing refs other) fate :=
  body.attempt.bind fun result =>
    ((releaseAll_cleans refs).keeps _).bind fun _ => .settle result

/-! ## Recording errors -/

theorem setErrorValue_cleans (error value : Ref) :
    Cleans view (setErrorValue error value) (setErrorValue error value) := by
  refine .get_bind fun machine => ?_
  have changed : Cleans view (modify fun machine => { machine with error := some (error, value) })
      (modify fun machine => { machine with error := some (error, value) }) :=
    .modify (fun _ => rfl) fun _ => rfl
  refine changed.bind fun _ => ?_
  have same : (plain machine : Machine π).error = machine.error := rfl
  rw [same]
  rcases machine.error with _ | ⟨error, value⟩
  · exact .pure ()
  · exact releaseAll_cleans [error, value]

theorem setError_cleans (kind : ErrorKind) : Cleans view (setError kind) (setError kind) :=
  (acquire_cleans kind.object).bind fun error => (acquire_cleans .noneObject).bind fun none =>
    setErrorValue_cleans error none

theorem messageObject_tidies (message : String) :
    Tidies Entry.Minor (messageObject message : StoreM (Seen view) Ref)
      (messageObject message : StoreM π Ref) := by
  refine (StoreM.allocate_risks _).attempt.bind fun result => ?_
  cases result with
  | ok value => exact .pure value
  | error cause => exact (StoreM.acquire_cleans .noneObject).mono fun _ => Or.inl

theorem setErrorText_notes (kind : ErrorKind) (message : String) :
    Notes view (setErrorText kind message) (setErrorText kind message) :=
  (acquire_cleans kind.object).notes.bind fun error =>
    (onStore_tidies (messageObject_tidies message)).bind fun value =>
      (setErrorValue_cleans error value).notes

theorem setErrorCause_notes (cause : Cause) :
    Notes view (setErrorCause cause) (setErrorCause cause) := by
  unfold setErrorCause
  cases cause.message? with
  | some message => exact setErrorText_notes cause.kind message
  | none => exact (setError_cleans cause.kind).notes

theorem record_notes (failure : Failure) : Notes view (record failure) (record failure) := by
  cases failure with
  | raised cause => exact setErrorCause_notes cause
  | recorded => exact .pure ()

theorem newEntry_risks (next : Option Ref) (frame : Ref) (line : Nat) :
    Risks Entry.Minor (newEntry next frame line : StoreM (Seen view) Ref)
      (newEntry next frame line : StoreM π Ref) :=
  ((StoreM.acquire_cleans frame).mono fun _ => Or.inl).risks.bind fun _ =>
    ((StoreM.acquireAll_cleans next.toList).mono fun _ => Or.inl).risks.bind fun _ =>
      StoreM.allocate_risks (.traceback next frame line)

theorem pushTraceback_notes : Notes view pushTraceback pushTraceback := by
  refine (onFrame_cleans (FrameM.asks_cleans _)).notes.bind fun place => ?_
  obtain ⟨frame, line⟩ := place
  refine .get_bind fun machine => ?_
  refine (onStore_tidies
    (newEntry_risks machine.traceback frame line).attempt).bind fun result => ?_
  cases result with
  | ok entry =>
      have changed : Notes view (modify fun machine => { machine with traceback := some entry })
          (modify fun machine => { machine with traceback := some entry }) :=
        .modify (fun _ => rfl) fun _ => rfl
      exact changed.bind fun _ => (releaseAll_cleans _).notes
  | error cause => exact .pure ()

/-! ## Entering and leaving frames -/

theorem enterFrame_heeds (code globals locals : Ref) :
    Heeds view (enterFrame code globals locals) (enterFrame code globals locals) := by
  refine .get_bind fun machine => ?_
  refine (onStore_watches (StoreM.openFrame_heeds _ _ _ code globals locals)).bind
    fun activation => ?_
  have changed : Cleans view
      (modify fun machine => { machine with frames := machine.frames.push activation })
      (modify fun machine => { machine with frames := machine.frames.push activation }) :=
    .modify (fun _ => rfl) fun _ => rfl
  exact changed.heeds.bind fun _ => (tell_cleans _).heeds

theorem splitOff_cleans (base : Nat) : Cleans view (splitOff base) (splitOff base) := by
  refine .get_bind fun machine => ?_
  have same : (plain machine : Machine π).values = machine.values := rfl
  simp only [same]
  split
  · exact .fault _
  · have changed : Cleans view
        (modify fun current =>
          { current with values := machine.values.drop (machine.values.height - base) })
        (modify fun current =>
          { current with values := machine.values.drop (machine.values.height - base) }) :=
      .modify (fun _ => rfl) fun _ => rfl
    exact changed.bind fun _ => .pure _

theorem leaveFrame_cleans : Cleans view leaveFrame leaveFrame := by
  refine .get_bind fun machine => ?_
  have same : (plain machine : Machine π).frames = machine.frames := rfl
  rw [same]
  cases machine.frames.top? with
  | none => exact .fault _
  | some activation =>
      have changed : Cleans view
          (modify fun machine => { machine with frames := machine.frames.drop 1 })
          (modify fun machine => { machine with frames := machine.frames.drop 1 }) :=
        .modify (fun _ => rfl) fun _ => rfl
      exact changed.bind fun _ => (splitOff_cleans activation.base).bind fun _ =>
        (releaseAll_cleans _).bind fun _ => tell_cleans _

/-! ## Calls -/

section Running

variable {run : MachineM (Seen view) Ref} {otherRun : MachineM π Ref}

theorem evaluateCode_heeds (runs : Heeds view run otherRun) (code globals locals : Ref)
    (argument : Option Ref) :
    Heeds view (evaluateCode run code globals locals argument)
      (evaluateCode otherRun code globals locals argument) := by
  refine (enterFrame_heeds code globals locals).attempt.bind fun entered => ?_
  cases entered with
  | error failure =>
      exact ((releaseAll_cleans argument.toList).keeps _).bind fun _ => .throw failure
  | ok _ =>
      exact (onFrame_watches (FrameM.pushAll_heeds _)).bind fun _ => runs.attempt.bind fun result =>
        (leaveFrame_cleans.keeps _).bind fun _ => .settle result

theorem runFunction_heeds (runs : Heeds view run otherRun) (code globals : Ref)
    (argument : Option Ref) :
    Heeds view (runFunction run code globals argument)
      (runFunction otherRun code globals argument) :=
  (onStore_watches (StoreM.orRelease_watches _ (StoreM.allocate_heeds (.dict .empty)))).bind
    fun locals => releasing_watches [locals] (evaluateCode_heeds runs code globals locals argument)

theorem callPlain_heeds (runs : Heeds view run otherRun) (callee : Ref) (argument : Option Ref) :
    Heeds view (callPlain run callee argument) (callPlain otherRun callee argument) := by
  refine (onStore_watches (StoreM.get_heeds callee)).bind fun payload => ?_
  cases payload
  case native function => exact onStore_watches (StoreM.callNative_heeds function argument)
  case class_ attrs => exact onStore_watches (StoreM.instantiate_heeds callee argument)
  case function code globals =>
      exact (onStore_watches (StoreM.acquireAll_cleans [code, globals]).heeds).bind fun _ =>
        releasing_watches _ (runFunction_heeds runs code globals argument)
  case method function self => exact .fault _
  all_goals exact (releaseAll_cleans argument.toList).heeds.bind fun _ => .raise _

theorem call_heeds (runs : Heeds view run otherRun) (callee : Ref) (argument : Option Ref) :
    Heeds view (call run callee argument) (call otherRun callee argument) := by
  refine (onStore_watches (StoreM.get_heeds callee)).bind fun payload => ?_
  cases payload
  case method function self =>
      exact (onStore_watches (StoreM.acquireAll_cleans [function, self]).heeds).bind fun _ =>
        (onStore_watches (StoreM.methodArgument_heeds function self argument)).bind fun argument =>
          releasing_watches _ (callPlain_heeds runs function (some argument))
  all_goals exact callPlain_heeds runs callee argument

theorem dispatch_heeds (runs : Heeds view run otherRun) (op : Opcode) (operand next : Nat) :
    Heeds view (dispatch run op operand next) (dispatch otherRun op operand next) := by
  have push (value : Ref) :
      Heeds view (onFrame (FrameM.push value)) (onFrame (FrameM.push value)) :=
    onFrame_watches (FrameM.push_heeds value)
  cases op
  case returnValue => exact (onFrame_watches FrameM.pop_heeds).bind fun _ => .well _
  case breakLoop => exact .well _
  case callBare =>
      exact (onFrame_watches FrameM.pop_heeds).bind fun callee =>
        (releasing_watches _ (call_heeds runs callee none)).bind fun result =>
          (push result).bind fun _ => .well _
  case callWith =>
      refine (onFrame_watches FrameM.popTwo_heeds).bind fun operands => ?_
      obtain ⟨callee, argument⟩ := operands
      exact (releasing_watches _ (call_heeds runs callee (some argument))).bind fun result =>
        (push result).bind fun _ => .well _
  case popBlock =>
      exact (onFrame_watches FrameM.popBlock_heeds).bind fun block =>
        (tell_cleans _).heeds.bind fun _ =>
          (onFrame_cleans (FrameM.drainTo_cleans block.level)).heeds.bind fun _ => .well _
  case setup kind =>
      exact (onFrame_watches (FrameM.pushBlock_heeds kind _)).bind fun _ =>
        (tell_cleans _).heeds.bind fun _ => .well _
  all_goals
    exact (onFrame_watches (FrameM.execute_heeds _ operand next)).bind fun _ => .well _

theorem step_heeds (runs : Heeds view run otherRun) : Heeds view (step run) (step otherRun) := by
  have ticked : StoreM.Heeds view tick tick := by
    rw [StoreM.tick_eq, StoreM.tick_eq]
    exact StoreM.ask_heeds .tick
  refine (onStore_watches ticked).bind fun _ =>
    (onFrame_watches (FrameM.asks_heeds _)).bind fun fetched => ?_
  obtain ⟨offset, fetched⟩ := fetched
  cases fetched with
  | pastEnd => exact .raise _
  | truncated op => exact .raise _
  | unknown byte => exact .raise _
  | instruction op operand next =>
      exact (onFrame_watches (FrameM.jumpTo_heeds next)).bind fun _ =>
        (onFrame_watches FrameM.depth_heeds).bind fun _ => (tell_cleans _).heeds.bind fun _ =>
          dispatch_heeds runs op operand next

end Running

/-! ## Leaving blocks -/

theorem leaveBlock_cleans (block : Block) (rest : List Block) :
    Cleans view (leaveBlock block rest) (leaveBlock block rest) :=
  (onFrame_cleans (FrameM.update_cleans _)).bind fun _ => (tell_cleans _).bind fun _ =>
    onFrame_cleans (FrameM.drainTo_cleans block.level)

theorem unwindBlocks_cleans (reason : Unwinding) (blocks : List Block) :
    Cleans view (unwindBlocks reason blocks) (unwindBlocks reason blocks) := by
  induction blocks with
  | nil => exact .pure false
  | cons block rest ih =>
      refine (leaveBlock_cleans block rest).bind fun _ => ?_
      split
      · exact (onFrame_cleans (FrameM.update_cleans _)).bind fun _ => .pure true
      · exact ih

/-- Leaving the straight path asks for nothing but an entry of the traceback, and for that
only after an error. -/
theorem unwind_tidies {allowed : Entry → Prop} (granted : ∀ entry, entry.Granted → allowed entry)
    {reason : Unwinding}
    (pushed : reason = .error → Tidies allowed (pushTraceback : MachineM (Seen view) Unit)
      (pushTraceback : MachineM π Unit)) :
    Tidies allowed (unwind reason : MachineM (Seen view) Bool)
      (unwind reason : MachineM π Bool) := by
  refine .get_bind fun machine => ?_
  have same : (plain machine : Machine π).error = machine.error := rfl
  have leave : Tidies allowed
      (onFrame (FrameM.asks (·.blocks)) >>= unwindBlocks reason : MachineM (Seen view) Bool)
      (onFrame (FrameM.asks (·.blocks)) >>= unwindBlocks reason : MachineM π Bool) :=
    ((onFrame_cleans (FrameM.asks_cleans _)).mono granted).bind fun blocks =>
      (unwindBlocks_cleans reason blocks).mono granted
  have told : Tidies allowed
      (tell fun frames => .unwound reason frames.height : MachineM (Seen view) Unit)
      (tell fun frames => .unwound reason frames.height : MachineM π Unit) :=
    (tell_cleans _).mono granted
  rw [same]
  refine .ite (fun _ => .fault _) fun _ => .ite (fun _ => .fault _) fun _ => ?_
  exact told.bind fun _ => .ite (fun isError => (pushed isError).bind fun _ => leave) fun _ => leave

/-! ## Running the innermost frame -/

theorem unwind_cleans {reason : Unwinding} (other : reason ≠ .error) :
    Cleans view (unwind reason) (unwind reason) :=
  unwind_tidies (fun _ => id) fun isError => absurd isError other

theorem unwind_notes (reason : Unwinding) : Notes view (unwind reason) (unwind reason) :=
  unwind_tidies (fun _ => Or.inl) fun _ => pushTraceback_notes

/-- A failure that was recorded is handed on. -/
theorem throw_recorded (before : Fate) :
    Watches .recorded (throw (.failed .recorded) : MachineM (Seen view) α)
      (throw (.failed .recorded) : MachineM π α) fun _ => before :=
  .throw Failure.recorded

theorem runFrame_heeds (fuel : Nat) : Heeds view (runFrame fuel) (runFrame fuel) := by
  induction fuel with
  | zero => exact .unfinished
  | succ fuel ih =>
      refine (step_heeds ih).attempt.bind fun result => ?_
      match result with
      | .ok .next => exact ih
      | .ok (.returning value) =>
          exact (unwind_cleans Unwinding.noConfusion).heeds.bind fun _ => .well value
      | .ok .breaking =>
          refine (unwind_cleans Unwinding.noConfusion).heeds.bind fun found =>
            .ite (fun _ => ih) fun _ => ?_
          exact ((setErrorCause_notes _).records .fine).bind fun _ =>
            (pushTraceback_notes.records _).bind fun _ => throw_recorded _
      | .error failure =>
          exact ((record_notes failure).records _).bind fun _ =>
            ((unwind_notes .error).records _).bind fun _ => throw_recorded _

end MachineM

end StackMachine
