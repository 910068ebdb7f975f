import StackMachine.Proofs.Evolution.Machine

/-!
# Where runs of code get to

Every operation of the machine follows the courses it may take: it tells every tracer the
same, and what it does to the store and to the tracker is a path.  An operation on the store
follows even a course that only knows what becomes of the store.

What is said of running code is said of any way of running frames, as long as code that is
run in a new frame follows the course.  Frames that are run to their end follow the free
course, and frames that are never run follow the plain one.
-/

namespace StackMachine.MachineM

open Outcome Machine Relation Store Course

variable {τ α : Type} [Tracker τ] {course : Course (Machine τ)}

/-! ## Acting on the store -/

section Narrow

variable [Narrow course]

/-- An operation on the store tells nothing. -/
theorem onStore_leads {act : StoreM τ α} {before : Machine τ}
    (returns : ∀ value store, act before.store = .ok value store →
      course.goes before [] { before with store })
    (fails : ∀ cause store, act before.store = .error (.failed cause) store →
      course.goes before [] { before with store }) :
    ∃ events, (∀ tracer, onStore act (Traced.retrace tracer before) =
      retraced (tracer.observeAll events) (onStore act before)) ∧
        course.Leads before events (onStore act before) := by
  obtain ⟨store, values, frames, error, traceback, tracer⟩ := before
  simp only at returns fails
  unfold onStore
  simp only
  cases ran : act store with
  | ok value final =>
      refine ⟨[], fun tracer => ?_, returns value final ran⟩
      simp only [Traced.retrace, ran]
      rfl
  | error stop final =>
      refine ⟨[], fun tracer => ?_, ?_⟩
      · simp only [Traced.retrace, ran]
        rfl
      · cases stop with
        | failed cause => exact fails cause final ran
        | fault broken => trivial
        | unfinished => exact Narrow.halts_store

theorem onStore_follows {act : StoreM τ α} (evolves : StoreM.Evolves act) :
    course.Follows (onStore act) := fun _ =>
  onStore_leads (fun _ _ ran => Narrow.goes_store (evolves.of_ok ran))
    fun _ _ ran => Narrow.goes_store (evolves.of_failed ran)

theorem releaseAll_follows (refs : List Ref) : course.Follows (releaseAll refs : MachineM τ Unit) :=
  onStore_follows (StoreM.releaseAll_evolves refs)

theorem releasing_follows {act : MachineM τ α} (refs : List Ref) (body : course.Follows act) :
    course.Follows (releasing refs act) :=
  body.attempt.bind fun result => (releaseAll_follows refs).bind fun _ => .settle result

theorem acquire_follows (ref : Ref) :
    course.Follows (onStore (StoreM.acquire ref) : MachineM τ Ref) :=
  onStore_follows (StoreM.acquire_evolves ref)

omit [Tracker τ] [Narrow course] in
theorem errorKind_follows : course.Follows (errorKind : MachineM τ (Option ErrorKind)) :=
  .get_bind (fun _ _ => rfl) fun _ => .pure _

theorem traceback_follows : course.Follows (traceback : MachineM τ (List TracePoint)) :=
  .get_bind (fun _ _ => rfl) fun _ => onStore_follows (.reading _)

theorem toObject_follows (ref : Ref) : course.Follows (toObject ref : MachineM τ Object) :=
  onStore_follows (.reading _)

theorem display_follows (ref : Ref) : course.Follows (display ref : MachineM τ String) :=
  (toObject_follows ref).bind fun _ => .pure _

theorem message?_follows (value : Ref) :
    course.Follows (message? value : MachineM τ (Option String)) :=
  .ite (fun _ => .pure none) fun _ => (display_follows value).bind fun _ => .pure _

theorem takeObject_follows (result : Option Ref) :
    course.Follows (takeObject result : MachineM τ (Option Object)) := by
  cases result with
  | none => exact .pure none
  | some ref =>
      exact (toObject_follows ref).bind fun object => (releaseAll_follows _).bind fun _ =>
        .pure (some object)

end Narrow

theorem onStore_ranges [Ranging course] {act : StoreM τ α} (advances : Advances AnyPath act) :
    course.Follows (onStore act) := fun _ =>
  onStore_leads (fun _ _ ran => Ranging.goes_any (advances.of_ok ran))
    fun _ _ ran => Ranging.goes_any (advances.of_failed ran)

/-! ## Keeping the frames -/

omit [Tracker τ] in
/-- Reading something off the innermost frame changes nothing. -/
theorem asks_follows {β : Type} (read : Activation → β) :
    course.Follows (onFrame (FrameM.asks read) : MachineM τ β) := by
  rintro ⟨store, values, ⟨items, height, height_eq⟩, error, traceback, tracer⟩
  cases items with
  | nil => exact ⟨[], fun _ => rfl, trivial⟩
  | cons activation callers => exact ⟨[], fun _ => rfl, course.refl _⟩

section Modest

variable [Modest course]

/-- The machine changes, but for its store and its frames. -/
theorem modify_follows {change : Machine τ → Machine τ}
    (same : ∀ tracer machine, change (Traced.retrace tracer machine) =
      Traced.retrace tracer (change machine))
    (store : ∀ machine, (change machine).store = machine.store)
    (frames : ∀ machine, (change machine).frames = machine.frames) :
    course.Follows (modify change : MachineM τ PUnit) :=
  .modify same fun machine => Modest.stays (store machine) (frames machine)

theorem splitOff_follows (base : Nat) :
    course.Follows (splitOff base : MachineM τ (List Ref)) := by
  refine .get_bind (fun _ _ => rfl) fun machine => ?_
  simp only
  split
  · exact .fault _
  · exact Follows.bind (modify_follows (fun _ _ => rfl) (fun _ => rfl) fun _ => rfl) fun _ =>
      .pure _

theorem setErrorValue_follows (error value : Ref) :
    course.Follows (setErrorValue error value : MachineM τ Unit) := by
  refine .get_bind (fun _ _ => rfl) fun machine => ?_
  refine Follows.bind (modify_follows (fun _ _ => rfl) (fun _ => rfl) fun _ => rfl) fun _ => ?_
  rcases machine.error with _ | ⟨error, value⟩
  · exact .pure ()
  · exact releaseAll_follows [error, value]

theorem setError_follows (kind : ErrorKind) : course.Follows (setError kind : MachineM τ Unit) :=
  (acquire_follows kind.object).bind fun error => (acquire_follows .noneObject).bind fun none =>
    setErrorValue_follows error none

theorem messageObject_evolves (message : String) :
    StoreM.Evolves (messageObject message : StoreM τ Ref) := by
  refine (StoreM.allocate_evolves (.string (Bytes.ofString message)) rfl).attempt.bind
    fun result => ?_
  cases result with
  | ok value => exact .pure value
  | error cause => exact StoreM.acquire_evolves .noneObject

theorem setErrorText_follows (kind : ErrorKind) (message : String) :
    course.Follows (setErrorText kind message : MachineM τ Unit) :=
  (acquire_follows kind.object).bind fun error =>
    (onStore_follows (messageObject_evolves message)).bind fun value =>
      setErrorValue_follows error value

theorem setErrorCause_follows (cause : Cause) :
    course.Follows (setErrorCause cause : MachineM τ Unit) := by
  unfold setErrorCause
  cases cause.message? with
  | some message => exact setErrorText_follows cause.kind message
  | none => exact setError_follows cause.kind

theorem record_follows (failure : Failure) :
    course.Follows (record failure : MachineM τ Unit) := by
  cases failure with
  | raised cause => exact setErrorCause_follows cause
  | recorded => exact .pure ()

theorem takeError_follows : course.Follows (takeError : MachineM τ (Option (Ref × Ref))) :=
  .get_bind (fun _ _ => rfl) fun machine =>
    Follows.bind (modify_follows (fun _ _ => rfl) (fun _ => rfl) fun _ => rfl) fun _ =>
      .pure machine.error

theorem releasePair_follows (pair : Option (Ref × Ref)) :
    course.Follows (releasePair pair : MachineM τ Unit) := by
  rcases pair with _ | ⟨first, second⟩
  · exact .pure ()
  · exact releaseAll_follows [first, second]

theorem clearTraceback_follows : course.Follows (clearTraceback : MachineM τ Unit) :=
  .get_bind (fun _ _ => rfl) fun machine =>
    Follows.bind (modify_follows (fun _ _ => rfl) (fun _ => rfl) fun _ => rfl) fun _ =>
      releaseAll_follows machine.traceback.toList

theorem clearError_follows : course.Follows (clearError : MachineM τ Unit) :=
  takeError_follows.bind fun pair => (releasePair_follows pair).bind fun _ =>
    clearTraceback_follows

theorem takeTraceback_follows : course.Follows (takeTraceback : MachineM τ (List TracePoint)) :=
  traceback_follows.bind fun points => clearTraceback_follows.bind fun _ => .pure points

theorem takeReport_follows : course.Follows (takeReport : MachineM τ (Option Report)) := by
  refine takeError_follows.bind fun pair => ?_
  rcases pair with _ | ⟨error, value⟩
  · exact .pure none
  · exact (display_follows error).bind fun _ => (message?_follows value).bind fun _ =>
      takeTraceback_follows.bind fun _ => (releaseAll_follows _).bind fun _ => .pure _

theorem requireReport_follows : course.Follows (requireReport : MachineM τ Report) := by
  refine takeReport_follows.bind fun report => ?_
  cases report with
  | some report => exact .pure report
  | none => exact .fault _

/-- Where an entry of the traceback may be made, it may be put in front of the others. -/
theorem pushTraceback_follows (makes : ∀ next frame line, course.Follows
      (onStore (attempt (newEntry next frame line)) : MachineM τ (Except Cause Ref))) :
    course.Follows (pushTraceback : MachineM τ Unit) := by
  refine (asks_follows _).bind fun place => ?_
  obtain ⟨frame, line⟩ := place
  refine .get_bind (fun _ _ => rfl) fun machine => ?_
  refine (makes machine.traceback frame line).bind fun result => ?_
  cases result with
  | ok entry =>
      exact Follows.bind (modify_follows (fun _ _ => rfl) (fun _ => rfl) fun _ => rfl) fun _ =>
        releaseAll_follows _
  | error cause => exact .pure ()

end Modest

/-! ## Acting within the frame -/

variable [Tame course]

omit [Tame course] in
/-- The innermost frame goes on, in as many blocks as before, and nothing is told. -/
theorem calm_frame {store : Store τ} {values : Stack Ref} {activation : Activation}
    {callers : List Activation} {height : Nat} {height_eq : height = (activation :: callers).length}
    {error : Option (Ref × Ref)} {traceback : Option Ref} {tracer : Tracer} {state : FrameState τ}
    (evolved : FrameState.Evolved ⟨store, values, activation⟩ state) :
    Calm ⟨store, values, ⟨activation :: callers, height, height_eq⟩, error, traceback, tracer⟩ []
      ⟨state.store, state.values, ⟨state.activation :: callers, height, height_eq⟩, error,
        traceback, tracer⟩ where
  path := evolved.path
  spends := .of_asked (Path.asked evolved.path)
  height := rfl
  outline := congrArg (fun frame => some (frame :: callers.map Activation.opened))
    evolved.opened.symm

theorem onFrame_follows {act : FrameM τ α} (evolves : FrameM.Evolves act) :
    course.Follows (onFrame act) := by
  intro before
  obtain ⟨store, values, ⟨items, height, height_eq⟩, error, traceback, tracer⟩ := before
  cases items with
  | nil => exact ⟨[], fun _ => rfl, trivial⟩
  | cons activation rest =>
      have known := evolves ⟨store, values, activation⟩
      unfold onFrame
      simp only
      cases ran : act ⟨store, values, activation⟩ with
      | ok value state =>
          rw [ran] at known
          refine ⟨[], fun tracer => ?_, Tame.goes (calm_frame known) rfl⟩
          simp only [Traced.retrace, ran, retraced, Tracer.observeAll, List.foldl_nil]
      | error stop state =>
          rw [ran] at known
          refine ⟨[], fun tracer => ?_, ?_⟩
          · simp only [Traced.retrace, ran, retraced, Tracer.observeAll, List.foldl_nil]
          · cases stop with
            | failed cause => exact Tame.goes (calm_frame known) rfl
            | fault broken => trivial
            | unfinished => exact Tame.halts rfl

section Wide

omit [Tame course]

variable [Wide course]

/-- Anybody may be told of anything but an instruction. -/
theorem tell_wide {event : Stack Activation → Event}
    (idle : ∀ frames, (event frames).opcode? = none) :
    course.Follows (tell event : MachineM τ Unit) := by
  intro before
  refine ⟨[event before.frames], fun tracer => rfl, Wide.stands ?_ rfl⟩
  simp [Event.instructions, idle]

/-- The machine changes, but for its store. -/
theorem modify_wide {change : Machine τ → Machine τ}
    (same : ∀ tracer machine, change (Traced.retrace tracer machine) =
      Traced.retrace tracer (change machine))
    (store : ∀ machine, (change machine).store = machine.store) :
    course.Follows (modify change : MachineM τ PUnit) :=
  .modify same fun machine => Wide.stands rfl (store machine)

/-- So does the innermost frame. -/
theorem onFrame_update_wide (change : Activation → Activation) :
    course.Follows (onFrame (FrameM.update change) : MachineM τ Unit) := by
  rintro ⟨store, values, ⟨items, height, height_eq⟩, error, traceback, tracer⟩
  cases items with
  | nil => exact ⟨[], fun _ => rfl, trivial⟩
  | cons activation callers => exact ⟨[], fun _ => rfl, Wide.stands rfl rfl⟩

end Wide

/-! ## Calls -/

section Calling

variable {run : MachineM τ Ref}

/-- Code that is run in a new frame follows a course. -/
def Evaluates (course : Course (Machine τ)) (run : MachineM τ Ref) : Prop :=
  ∀ code globals locals argument, course.Follows (evaluateCode run code globals locals argument)

theorem runFunction_follows (evaluates : Evaluates course run) (code globals : Ref)
    (argument : Option Ref) : course.Follows (runFunction run code globals argument) :=
  (onStore_follows (StoreM.orRelease_evolves _ StoreM.allocateDict_evolves)).bind
    fun locals => releasing_follows [locals] (evaluates code globals locals argument)

theorem callPlain_follows (evaluates : Evaluates course run) (callee : Ref)
    (argument : Option Ref) : course.Follows (callPlain run callee argument) := by
  refine (onStore_follows (StoreM.get_evolves callee)).bind fun payload => ?_
  cases payload
  case native function => exact onStore_follows (StoreM.callNative_evolves function argument)
  case class_ attrs => exact onStore_follows (StoreM.instantiate_evolves callee argument)
  case function code globals =>
      exact (onStore_follows (StoreM.acquireAll_evolves [code, globals])).bind fun _ =>
        releasing_follows _ (runFunction_follows evaluates code globals argument)
  case method function self => exact .fault _
  all_goals exact (releaseAll_follows argument.toList).bind fun _ => .throw _

theorem call_follows (evaluates : Evaluates course run) (callee : Ref) (argument : Option Ref) :
    course.Follows (call run callee argument) := by
  refine (onStore_follows (StoreM.get_evolves callee)).bind fun payload => ?_
  cases payload
  case method function self =>
      exact (onStore_follows (StoreM.acquireAll_evolves [function, self])).bind fun _ =>
        (onStore_follows (StoreM.methodArgument_evolves function self argument)).bind
          fun argument => releasing_follows _ (callPlain_follows evaluates function (some argument))
  all_goals exact callPlain_follows evaluates callee argument

theorem resume_follows (value : Ref) :
    course.Follows (do onFrame (FrameM.push value); return Flow.next : MachineM τ Flow) :=
  (onFrame_follows (FrameM.push_evolves value)).bind fun _ => .pure _

/-- Leave the innermost block and tell of it. -/
def closeBlock : MachineM τ Block := do
  let block ← onFrame FrameM.popBlock
  tell fun frames => .popped ((frames.top?.map (·.blocks.length)).getD 0)
  return block

/-- Enter a block and tell of it. -/
def openBlock (kind : BlockKind) (handler : Nat) : MachineM τ Unit := do
  onFrame (FrameM.pushBlock kind handler)
  tell fun frames => .pushed kind ((frames.top?.map (·.blocks.length)).getD 0)

theorem dispatch_popBlock (run : MachineM τ Ref) (operand next : Nat) :
    dispatch run .popBlock operand next = closeBlock >>= fun block =>
      onFrame (FrameM.drainTo block.level) >>= fun _ => pure .next := by
  simp only [closeBlock, bind_assoc, pure_bind]
  rfl

theorem dispatch_setup (run : MachineM τ Ref) (kind : BlockKind) (operand next : Nat) :
    dispatch run (.setup kind) operand next =
      openBlock kind (next + operand) >>= fun _ => pure .next := by
  simp only [openBlock, bind_assoc]
  rfl

/-- What is told of the frame changes together with its blocks. -/
theorem closeBlock_follows : course.Follows (closeBlock : MachineM τ Block) := by
  rintro ⟨store, values, ⟨items, height, height_eq⟩, error, traceback, tracer⟩
  rcases items with _ | ⟨⟨frame, code, globals, locals, file, bytecode, names, offset, line, base,
    blocks⟩, callers⟩
  · exact ⟨[], fun _ => rfl, trivial⟩
  rcases blocks with _ | ⟨block, rest⟩
  · exact ⟨[], fun _ => rfl, course.refl _⟩
  · refine ⟨[.popped rest.length], fun _ => rfl,
      Tame.goes ⟨Store.Path.refl _, .start _, rfl, ?_⟩ rfl⟩
    rw [Outline.follow?_singleton]
    exact Outline.next?_popped _ _ _

theorem openBlock_follows (kind : BlockKind) (handler : Nat) :
    course.Follows (openBlock kind handler : MachineM τ Unit) := by
  rintro ⟨store, values, ⟨items, height, height_eq⟩, error, traceback, tracer⟩
  rcases items with _ | ⟨activation, callers⟩
  · exact ⟨[], fun _ => rfl, trivial⟩
  obtain refused | ⟨room, block, pushed⟩ | short :=
    FrameM.pushBlock_cases kind handler ⟨store, values, activation⟩
  · have ran (tracer : Tracer) : openBlock kind handler
        ⟨store, values, ⟨activation :: callers, height, height_eq⟩, error, traceback, tracer⟩ =
          .error (.failed (.raised .blockOverflow))
            ⟨store, values, ⟨activation :: callers, height, height_eq⟩, error, traceback, tracer⟩ :=
      bind_error (by simp only [onFrame, refused]; rfl)
    refine ⟨[], fun tracer => (ran tracer).trans ?_, ?_⟩
    · rw [ran]
      rfl
    · rw [ran]
      exact course.refl _
  · let told : Event := .pushed kind (activation.blocks.length + 1)
    have ran (tracer : Tracer) : openBlock kind handler
        ⟨store, values, ⟨activation :: callers, height, height_eq⟩, error, traceback, tracer⟩ =
          .ok () ⟨store, values,
            ⟨{ activation with blocks := block :: activation.blocks } :: callers, height,
              height_eq⟩, error, traceback, tracer.observe fun _ => told⟩ := by
      have acted : onFrame (FrameM.pushBlock kind handler)
          ⟨store, values, ⟨activation :: callers, height, height_eq⟩, error, traceback, tracer⟩ =
            .ok () ⟨store, values, ⟨{ activation with blocks := block :: activation.blocks } ::
              callers, height, height_eq⟩, error, traceback, tracer⟩ := by
        simp only [onFrame, pushed]
      rw [openBlock, StoreM.bind_ok acted]
      rfl
    refine ⟨[told], fun tracer => (ran tracer).trans ?_, ?_⟩
    · rw [ran]
      rfl
    · rw [ran]
      refine Tame.goes ⟨Store.Path.refl _, .start _, rfl, ?_⟩ rfl
      rw [Outline.follow?_singleton]
      exact Outline.next?_pushed _ _ _ _ room
  · have ran (tracer : Tracer) : openBlock kind handler
        ⟨store, values, ⟨activation :: callers, height, height_eq⟩, error, traceback, tracer⟩ =
          .error (.fault .shortStack)
            ⟨store, values, ⟨activation :: callers, height, height_eq⟩, error, traceback, tracer⟩ :=
      bind_error (by simp only [onFrame, short]; rfl)
    refine ⟨[], fun tracer => (ran tracer).trans ?_, ?_⟩
    · rw [ran]
      rfl
    · rw [ran]
      trivial

theorem dispatch_follows (evaluates : Evaluates course run) (op : Opcode) (operand next : Nat) :
    course.Follows (dispatch run op operand next) := by
  cases op
  case returnValue => exact (onFrame_follows FrameM.pop_evolves).bind fun _ => .pure _
  case breakLoop => exact .pure _
  case callBare =>
      exact (onFrame_follows FrameM.pop_evolves).bind fun callee =>
        (releasing_follows _ (call_follows evaluates callee none)).bind resume_follows
  case callWith =>
      refine (onFrame_follows FrameM.popTwo_evolves).bind fun operands => ?_
      obtain ⟨callee, argument⟩ := operands
      exact (releasing_follows _ (call_follows evaluates callee (some argument))).bind
        resume_follows
  case popBlock =>
      rw [dispatch_popBlock]
      exact closeBlock_follows.bind fun block =>
        (onFrame_follows (FrameM.drainTo_evolves block.level)).bind fun _ => .pure _
  case setup kind =>
      rw [dispatch_setup]
      exact (openBlock_follows kind _).bind fun _ => .pure _
  all_goals
    exact (onFrame_follows (FrameM.execute_evolves _ operand next)).bind fun _ => .pure _

/-! ## Steps -/

/-- Take up an instruction and tell of it. -/
def takeUp (offset : Nat) (op : Opcode) (operand next : Nat) :
    MachineM τ (Opcode × Nat × Nat) := do
  onFrame (FrameM.jumpTo next)
  let depth ← onFrame FrameM.depth
  tell fun frames => .instruction offset op depth frames.height
  return (op, operand, next)

/-- Go on to the instruction the innermost frame is at, if there is one. -/
def reach : MachineM τ (Opcode × Nat × Nat) := do
  match ← onFrame fetch with
  | (_, .pastEnd) | (_, .truncated _) => raise .codeEnd
  | (_, .unknown _) => raise .unknownOpcode
  | (offset, .instruction op operand next) => takeUp offset op operand next

theorem step_eq (run : MachineM τ Ref) :
    step run = (onStore tick >>= fun _ => reach) >>= fun (op, operand, next) =>
      dispatch run op operand next := by
  unfold step reach takeUp
  simp only [bind_assoc]
  congr 1
  funext _
  congr 1
  funext fetched
  obtain ⟨offset, fetched⟩ := fetched
  cases fetched with
  | instruction op operand next => simp only [bind_assoc, pure_bind]
  | _ => rfl

/-- Nothing has happened to the store, and what was told is so of the frames. -/
structure Fetches (before : Machine τ) (events : List Event) (after : Machine τ) : Prop where
  store : after.store = before.store
  height : after.frames.height = before.frames.height
  outline : before.outline.follow? events = some after.outline

/-- Nothing was told, or the instruction that the machine is at. -/
def DeliversOnly (before : Machine τ) (events : List Event) : Prop :=
  events = [] ∨ ∃ event, events = [event] ∧ before.Delivers event

omit [Tracker τ] in
theorem DeliversOnly.instructions_le {before : Machine τ} {events : List Event}
    (only : DeliversOnly before events) : Event.instructions events ≤ 1 := by
  obtain rfl | ⟨event, rfl, -⟩ := only
  · exact Nat.zero_le 1
  · exact List.countP_le_length

/-- Nothing has happened to the store, and at most one instruction was told of. -/
def FetchedOnly (before : Machine τ) (events : List Event)
    (result : EStateM.Result (Stop Failure) (Machine τ) α) : Prop :=
  DeliversOnly before events ∧ match result with
    | .ok _ after => Fetches before events after
    | .error (.failed _) after => Fetches before events after
    | .error (.fault _) _ => True
    | .error .unfinished _ => False

omit [Tracker τ] in
theorem takeUp_reaches {before : Machine τ} {activation : Activation} {callers : List Activation}
    {op : Opcode} {operand next : Nat} (frames : before.frames.items = activation :: callers)
    (here : Fetched.read activation.bytecode activation.offset = .instruction op operand next) :
    ∃ events, (∀ tracer, takeUp activation.offset op operand next (Traced.retrace tracer before) =
      retraced (tracer.observeAll events) (takeUp activation.offset op operand next before)) ∧
        FetchedOnly before events (takeUp activation.offset op operand next before) := by
  obtain ⟨store, values, ⟨items, height, height_eq⟩, error, traceback, tracer⟩ := before
  obtain rfl : items = activation :: callers := frames
  let inside (tracer : Tracer) : Machine τ :=
    ⟨store, values, ⟨{ activation with offset := next } :: callers, height, height_eq⟩, error,
      traceback, tracer⟩
  by_cases enough : activation.base ≤ values.height
  · have measured : ∀ tracer, onFrame FrameM.depth (inside tracer) =
        .ok (values.height - activation.base) (inside tracer) := by
      intro tracer
      simp only [onFrame, FrameM.depth, inside, if_pos enough]
    let told : Event := .instruction activation.offset op (values.height - activation.base) height
    have ran : ∀ tracer : Tracer, takeUp activation.offset op operand next
        ⟨store, values, ⟨activation :: callers, height, height_eq⟩, error, traceback, tracer⟩ =
          .ok (op, operand, next) (inside (tracer.observe fun _ => told)) :=
      fun tracer => StoreM.bind_ok (measured tracer)
    refine ⟨[told], fun tracer => ?_, .inr ⟨told, rfl, _, _, _, _, _, rfl, here, rfl⟩, ?_⟩
    · rw [ran]
      exact ran tracer
    · rw [ran]
      refine ⟨rfl, rfl, ?_⟩
      rw [Outline.follow?_singleton]
      exact Outline.next?_instruction _ _ _ _ _ (by simpa using height_eq)
  · have short : ∀ tracer : Tracer, takeUp activation.offset op operand next
        ⟨store, values, ⟨activation :: callers, height, height_eq⟩, error, traceback, tracer⟩ =
          .error (.fault .shortStack) (inside tracer) := by
      intro tracer
      have measured : onFrame FrameM.depth (inside tracer) =
          .error (.fault .shortStack) (inside tracer) := by
        simp only [onFrame, FrameM.depth, inside, if_neg enough]
        rfl
      have jumped : onFrame (FrameM.jumpTo next)
          ⟨store, values, ⟨activation :: callers, height, height_eq⟩, error, traceback, tracer⟩ =
            .ok () (inside tracer) := rfl
      rw [takeUp, StoreM.bind_ok jumped, bind_error measured]
    refine ⟨[], fun tracer => ?_, .inl rfl, ?_⟩
    · rw [short]
      exact short tracer
    · rw [short]
      trivial

omit [Tracker τ] in
theorem reach_reaches (before : Machine τ) : ∃ events, (∀ tracer,
    reach (Traced.retrace tracer before) = retraced (tracer.observeAll events) (reach before)) ∧
      FetchedOnly before events (reach before) := by
  cases frames : before.frames.items with
  | nil =>
      obtain ⟨store, values, ⟨items, height, height_eq⟩, error, traceback, tracer⟩ := before
      obtain rfl : items = [] := frames
      exact ⟨[], fun _ => rfl, .inl rfl, trivial⟩
  | cons activation callers =>
      have fetched {machine : Machine τ} (there : machine.frames.items = activation :: callers) :
          onFrame (fetch : FrameM τ (Nat × Fetched)) machine =
            .ok (activation.offset, Fetched.read activation.bytecode activation.offset) machine :=
        onFrame_asks there
      have always (tracer : Tracer) := @fetched (Traced.retrace tracer before) frames
      unfold reach
      simp only [StoreM.bind_ok (always _), StoreM.bind_ok (fetched frames)]
      cases here : Fetched.read activation.bytecode activation.offset with
      | instruction op operand next => exact takeUp_reaches frames here
      | _ => exact ⟨[], fun _ => rfl, .inl rfl, rfl, rfl, rfl⟩

/-- An instruction is told of only where the tracker has granted one. -/
theorem advance_tells (before : Machine τ) : ∃ events,
    Tells (onStore tick >>= fun _ => reach) before events ∧
    DeliversOnly before events ∧ ∀ {course : Course (Machine τ)} [Ample course],
      course.Leads before events ((onStore tick >>= fun _ => reach) before) := by
  have asked : PlainPath before.store (before.store.asking .tick) :=
    Store.Path.of_tidyings (Relation.ReflTransGen.single (.ask .tick trivial))
  cases answer : (Query.tick.pose before.store.tracker).1 with
  | some refusal =>
      have refused : ∀ machine : Machine τ, machine.store = before.store →
          onStore tick machine = .error (.failed (.raised (.refused refusal)))
            { machine with store := machine.store.asking .tick } := by
        rintro ⟨store, values, frames, error, traceback, tracer⟩ rfl
        rw [StoreM.tick_eq]
        simp only [onStore, StoreM.ask, answer]
        rfl
      refine ⟨[], fun tracer => ?_, .inl rfl, fun {course} _ => ?_⟩
      · rw [bind_error (refused before rfl),
          bind_error (refused (Traced.retrace tracer before) rfl)]
        rfl
      · rw [bind_error (refused before rfl)]
        exact Ample.goes (calm_store asked)
  | none =>
      have granted : ∀ machine : Machine τ, machine.store = before.store →
          onStore tick machine = .ok () { machine with store := machine.store.asking .tick } := by
        rintro ⟨store, values, frames, error, traceback, tracer⟩ rfl
        rw [StoreM.tick_eq]
        simp only [onStore, StoreM.ask, answer]
        rfl
      obtain ⟨events, same, only, went⟩ :=
        reach_reaches { before with store := before.store.asking .tick }
      have few := only.instructions_le
      have spent : Spends (Event.instructions events) before.store.tracker
          (before.store.asking .tick).tracker := by
        interval_cases Event.instructions events
        · exact .of_asked asked.asked
        · exact .ticked (.start _) answer
      refine ⟨events, fun tracer => ?_, only, fun {course} _ => ?_⟩
      · rw [StoreM.bind_ok (granted before rfl),
          StoreM.bind_ok (granted (Traced.retrace tracer before) rfl)]
        exact same tracer
      · rw [StoreM.bind_ok (granted before rfl)]
        cases ran : (reach : MachineM τ _) { before with store := before.store.asking .tick } with
        | ok value after =>
            rw [ran] at went
            exact Ample.goes ⟨went.store ▸ asked, went.store ▸ spent, went.height, went.outline⟩
        | error stop after =>
            rw [ran] at went
            cases stop with
            | failed failure =>
                exact Ample.goes ⟨went.store ▸ asked, went.store ▸ spent, went.height, went.outline⟩
            | fault broken => trivial
            | unfinished => exact went.elim

omit [Tame course] in
theorem advance_follows [Ample course] : course.Follows (onStore tick >>= fun _ => reach :
    MachineM τ (Opcode × Nat × Nat)) := by
  intro before
  obtain ⟨events, same, -, led⟩ := advance_tells before
  exact ⟨events, same, led⟩

omit [Tame course] in
theorem step_follows [Ample course] (evaluates : Evaluates course run) :
    course.Follows (step run) := by
  rw [step_eq]
  refine advance_follows.bind ?_
  rintro ⟨op, operand, next⟩
  exact dispatch_follows evaluates op operand next

end Calling

/-! ## Frames -/

section Wide

omit [Tame course]

variable [Wide course]

theorem leaveFrame_follows : course.Follows (leaveFrame : MachineM τ Unit) := by
  refine .get_bind (fun _ _ => rfl) fun machine => ?_
  cases machine.frames.top? with
  | none => exact .fault _
  | some activation =>
      exact Follows.bind (modify_wide (fun _ _ => rfl) fun _ => rfl) fun _ =>
        (splitOff_follows activation.base).bind fun _ =>
          (releaseAll_follows _).bind fun _ => tell_wide fun _ => rfl

theorem leaveBlock_follows (block : Block) (rest : List Block) :
    course.Follows (leaveBlock block rest : MachineM τ Unit) :=
  (onFrame_update_wide _).bind fun _ => (tell_wide fun _ => rfl).bind
    fun _ => onFrame_follows (FrameM.drainTo_evolves block.level)

theorem unwindBlocks_follows (reason : Unwinding) (blocks : List Block) :
    course.Follows (unwindBlocks reason blocks : MachineM τ Bool) := by
  induction blocks with
  | nil => exact .pure false
  | cons block rest ih =>
      refine (leaveBlock_follows block rest).bind fun _ => .ite (fun _ => ?_) fun _ => ih
      exact (onFrame_follows (FrameM.jumpTo_evolves _)).bind fun _ => .pure true

/-- Leaving the straight path makes nothing but an entry of the traceback, and that only
after an error. -/
theorem unwind_follows {reason : Unwinding}
    (pushed : reason = .error → course.Follows (pushTraceback : MachineM τ Unit)) :
    course.Follows (unwind reason : MachineM τ Bool) := by
  refine .get_bind (fun _ _ => rfl) fun machine => ?_
  have leave : course.Follows
      (onFrame (FrameM.asks (·.blocks)) >>= unwindBlocks reason : MachineM τ Bool) :=
    (onFrame_follows (FrameM.asks_evolves _)).bind fun blocks => unwindBlocks_follows reason blocks
  refine .ite (fun _ => .fault _) fun _ => .ite (fun _ => .fault _) fun _ => ?_
  exact (tell_wide fun _ => rfl).bind fun _ =>
    .ite (fun isError => (pushed isError).bind fun _ => leave) fun _ => leave

theorem unwind_quiet_follows {reason : Unwinding} (other : reason ≠ .error) :
    course.Follows (unwind reason : MachineM τ Bool) :=
  unwind_follows fun isError => absurd isError other

end Wide

theorem newEntry_advances (next : Option Ref) (frame : Ref) (line : Nat) :
    Advances AnyPath (newEntry next frame line : StoreM τ Ref) :=
  ((StoreM.acquire_evolves frame).mono fun _ _ => Store.Path.any).bind fun _ =>
    ((StoreM.acquireAll_evolves next.toList).mono fun _ _ => Store.Path.any).bind fun _ =>
      StoreM.allocate_advances trivial (Payload.isLight_of_kind nofun) fun _ _ => trivial

theorem newFrame_advances (back : Option Ref) (code globals locals : Ref) :
    Advances AnyPath (newFrame back code globals locals : StoreM τ Ref) :=
  ((StoreM.acquireAll_evolves _).mono fun _ _ => Store.Path.any).bind fun _ =>
    StoreM.allocate_advances trivial (Payload.isLight_of_kind nofun) fun _ _ => trivial

theorem chargeFrame_evolves (depth : Nat) :
    StoreM.Evolves (chargeFrame depth : StoreM τ Unit) := by
  rw [StoreM.chargeFrame_eq]
  exact StoreM.ask_evolves (.enter depth) fun _ => trivial

theorem openFrame_advances (back : Option Ref) (depth base : Nat) (code globals locals : Ref) :
    Advances AnyPath (openFrame back depth base code globals locals : StoreM τ Activation) := by
  have any {β : Type} {act : StoreM τ β} (evolves : StoreM.Evolves act) : Advances AnyPath act :=
    evolves.mono fun _ _ => Store.Path.any
  exact (any (chargeFrame_evolves depth)).bind fun _ =>
    (any (StoreM.getCode_evolves code)).bind fun _ =>
      (any (StoreM.requireDict_evolves globals)).bind fun _ =>
        (any (StoreM.requireDict_evolves locals)).bind fun _ =>
          (newFrame_advances back code globals locals).bind fun _ => .pure _

section Ranging

omit [Tame course]

variable [Ranging course]

theorem pushTraceback_ranges : course.Follows (pushTraceback : MachineM τ Unit) :=
  pushTraceback_follows fun next frame line =>
    onStore_ranges (newEntry_advances next frame line).attempt

theorem unwind_ranges (reason : Unwinding) : course.Follows (unwind reason : MachineM τ Bool) :=
  unwind_follows fun _ => pushTraceback_ranges

theorem enterFrame_ranges (code globals locals : Ref) :
    course.Follows (enterFrame code globals locals : MachineM τ Unit) :=
  .get_bind (fun _ _ => rfl) fun _ =>
    (onStore_ranges (openFrame_advances _ _ _ code globals locals)).bind fun _ =>
      Follows.bind (modify_wide (fun _ _ => rfl) fun _ => rfl) fun _ => tell_wide fun _ => rfl

theorem evaluateCode_ranges {run : MachineM τ Ref} (runs : course.Follows run) :
    Evaluates course run := by
  intro code globals locals argument
  refine (enterFrame_ranges code globals locals).attempt.bind fun entered => ?_
  cases entered with
  | error failure => exact (releaseAll_follows argument.toList).bind fun _ => .throw failure
  | ok _ =>
      exact (onFrame_follows (FrameM.pushAll_evolves _)).bind fun _ => runs.attempt.bind
        fun result => leaveFrame_follows.bind fun _ => .settle result

end Ranging

theorem unwind_roams (reason : Unwinding) : (free τ).Follows (unwind reason : MachineM τ Bool) :=
  unwind_ranges reason

/-! ## Running frames -/

/-- What a frame does once a break has left its blocks, with `run` for the steps that follow. -/
def endBreak (run : MachineM τ Ref) (found : Bool) : MachineM τ Ref :=
  if found then
    run
  else do
    setErrorCause .breakOutsideLoop
    pushTraceback
    throw (.failed .recorded)

/-- What a frame does after a step, with `run` for the steps that follow. -/
def carryOn (run : MachineM τ Ref) : Except Failure Flow → MachineM τ Ref
  | .ok .next => run
  | .ok (.returning value) => do
      let _ ← unwind .returning
      return value
  | .ok .breaking => unwind .breaking >>= endBreak run
  | .error failure => do
      record failure
      let _ ← unwind .error
      throw (.failed .recorded)

theorem runFrame_succ (fuel : Nat) : (runFrame (fuel + 1) : MachineM τ Ref) =
    attempt (step (runFrame fuel)) >>= carryOn (runFrame fuel) := by
  rw [runFrame]
  congr 1

theorem endBreak_follows (pushes : course.Follows (pushTraceback : MachineM τ Unit))
    {run : MachineM τ Ref} (runs : course.Follows run) (found : Bool) :
    course.Follows (endBreak run found) :=
  .ite (fun _ => runs) fun _ => (setErrorCause_follows _).bind fun _ => pushes.bind fun _ =>
    .throw Failure.recorded

theorem carryOn_follows (unwinds : ∀ reason, course.Follows (unwind reason : MachineM τ Bool))
    (pushes : course.Follows (pushTraceback : MachineM τ Unit)) {run : MachineM τ Ref}
    (runs : course.Follows run) (result : Except Failure Flow) :
    course.Follows (carryOn run result) := by
  match result with
  | .ok .next => exact runs
  | .ok (.returning value) => exact (unwinds .returning).bind fun _ => .pure value
  | .ok .breaking => exact (unwinds .breaking).bind (endBreak_follows pushes runs)
  | .error failure =>
      exact (record_follows failure).bind fun _ => (unwinds .error).bind fun _ =>
        .throw Failure.recorded

omit [Tame course] in
/-- A frame that is run follows a course, if code does that is run as frames are. -/
theorem runFrame_follows [Ample course]
    (unwinds : ∀ reason, course.Follows (unwind reason : MachineM τ Bool))
    (pushes : course.Follows (pushTraceback : MachineM τ Unit))
    (evaluates : ∀ fuel, course.Follows (runFrame fuel) → Evaluates course (runFrame fuel))
    (fuel : Nat) : course.Follows (runFrame fuel : MachineM τ Ref) := by
  induction fuel with
  | zero => exact fun _ => ⟨[], fun _ => rfl, Ample.halts rfl⟩
  | succ fuel ih =>
      rw [runFrame_succ]
      exact (step_follows (evaluates fuel ih)).attempt.bind (carryOn_follows unwinds pushes ih)

/-- A frame that is run goes the free course. -/
theorem runFrame_roams (fuel : Nat) : (free τ).Follows (runFrame fuel : MachineM τ Ref) :=
  runFrame_follows unwind_ranges pushTraceback_ranges (fun _ => evaluateCode_ranges) fuel

/-- So does code that is run. -/
theorem evaluates_free (fuel : Nat) : Evaluates (free τ) (runFrame fuel) :=
  evaluateCode_ranges (runFrame_roams fuel)

/-! ## Frames that are entered and not run -/

/-- An operation makes an object, and nothing after it; or it fails, and makes none. -/
def Makes {α : Type} (refOf : α → Ref) (act : StoreM τ α) : Prop :=
  ∀ before, match act before with
    | .ok value after => ObjectMade before (refOf value) after
    | .error (.failed _) after => PlainPath before after
    | .error (.fault _) _ => True
    | .error .unfinished _ => True

namespace Makes

variable {β : Type} {act : StoreM τ α} {refOf : α → Ref}

/-- Something else is done first. -/
theorem bind {first : StoreM τ β} {next : β → StoreM τ α} (evolves : StoreM.Evolves first)
    (rest : ∀ value, Makes refOf (next value)) : Makes refOf (first >>= next) := by
  intro before
  cases ran : first before with
  | ok value middle =>
      have path := evolves.of_ok ran
      have made := rest value middle
      rw [StoreM.bind_ok ran]
      cases went : next value middle with
      | ok result after =>
          rw [went] at made
          exact made.of_plain path
      | error stop after =>
          rw [went] at made
          cases stop with
          | failed cause => exact path.trans made
          | fault broken => trivial
          | unfinished => trivial
  | error stop after =>
      rw [bind_error ran]
      cases stop with
      | failed cause => exact evolves.of_failed ran
      | fault broken => trivial
      | unfinished => trivial

/-- The object becomes part of the result. -/
theorem map {function : α → β} {refOf' : β → Ref} (makes : Makes refOf act)
    (same : ∀ value, refOf' (function value) = refOf value) :
    Makes refOf' (act >>= fun value => pure (function value)) := by
  intro before
  have made := makes before
  cases ran : act before with
  | ok value after =>
      rw [ran] at made
      rw [StoreM.bind_ok ran]
      show ObjectMade before (refOf' (function value)) after
      rw [same]
      exact made
  | error stop after =>
      rw [ran] at made
      rw [bind_error ran]
      cases stop <;> exact made

/-- An object is made where the tracker grants it. -/
theorem allocate {payload : Payload} (light : payload.IsLight) :
    Makes id (StoreM.allocate payload : StoreM τ Ref) := by
  intro before
  have outcome := StoreM.allocate_outcome payload before
  cases ran : (StoreM.allocate payload : StoreM τ Ref) before with
  | ok ref after =>
      rw [ran] at outcome
      exact ⟨before, payload, Store.Path.refl before, light, outcome⟩
  | error stop after =>
      rw [ran] at outcome
      cases stop <;> exact outcome

end Makes

theorem newFrame_makes (back : Option Ref) (code globals locals : Ref) :
    Makes id (newFrame back code globals locals : StoreM τ Ref) :=
  .bind (StoreM.acquireAll_evolves _) fun _ => .allocate (Payload.isLight_of_kind nofun)

theorem newEntry_makes (next : Option Ref) (frame : Ref) (line : Nat) :
    Makes id (newEntry next frame line : StoreM τ Ref) :=
  .bind (StoreM.acquire_evolves frame) fun _ => .bind (StoreM.acquireAll_evolves next.toList)
    fun _ => .allocate (Payload.isLight_of_kind nofun)

theorem openFrame_makes (back : Option Ref) (depth base : Nat) (code globals locals : Ref) :
    Makes (·.frame) (openFrame back depth base code globals locals : StoreM τ Activation) :=
  .bind (chargeFrame_evolves depth) fun _ => .bind (StoreM.getCode_evolves code) fun _ =>
    .bind (StoreM.requireDict_evolves globals) fun _ =>
      .bind (StoreM.requireDict_evolves locals) fun _ =>
        .map (newFrame_makes back code globals locals) fun _ => rfl

/-- No frame is made that the tracker has not agreed to. -/
theorem openFrame_agreed {back : Option Ref} {depth base : Nat} {code globals locals : Ref}
    {activation : Activation} {before after : Store τ}
    (opened : openFrame back depth base code globals locals before = .ok activation after) :
    Tracker.enter depth before.tracker = none := by
  obtain ⟨_, middle, charged, -⟩ := bind_eq_ok opened
  unfold chargeFrame at charged
  cases answer : Tracker.enter depth before.tracker with
  | none => rfl
  | some refusal =>
      rw [answer] at charged
      cases charged

/-- A frame starts in no block. -/
theorem openFrame_blocks {back : Option Ref} {depth base : Nat} {code globals locals : Ref}
    {activation : Activation} {before after : Store τ}
    (opened : openFrame back depth base code globals locals before = .ok activation after) :
    activation.blocks = [] := by
  obtain ⟨_, _, -, rest⟩ := bind_eq_ok opened
  obtain ⟨_, _, -, rest⟩ := bind_eq_ok rest
  obtain ⟨_, _, -, rest⟩ := bind_eq_ok rest
  obtain ⟨_, _, -, rest⟩ := bind_eq_ok rest
  obtain ⟨_, _, -, made⟩ := bind_eq_ok rest
  cases made
  rfl

section Entering

variable {run : MachineM τ Ref} {code globals locals : Ref} {argument : Option Ref}
variable {before : Machine τ} {store : Store τ} {activation : Activation}

/-- Make the activation of a frame above those of a machine. -/
def openAbove (machine : Machine τ) (code globals locals : Ref) : StoreM τ Activation :=
  openFrame (machine.frames.top?.map (·.frame)) machine.frames.height machine.values.height code
    globals locals

theorem enterFrame_ok (opened : openAbove before code globals locals before.store =
    .ok activation store) :
    enterFrame code globals locals before = .ok () { before with
      store
      frames := before.frames.push activation
      tracer := before.tracer.observe fun _ =>
        .entered activation.file (before.frames.height + 1) } := by
  obtain ⟨start, values, frames, error, traceback, tracer⟩ := before
  have acted : onStore (openFrame (frames.top?.map (·.frame)) frames.height values.height code
      globals locals) ⟨start, values, frames, error, traceback, tracer⟩ =
        .ok activation ⟨store, values, frames, error, traceback, tracer⟩ := onStore_eq opened
  exact StoreM.bind_ok acted

/-- The frame that is entered is told of. -/
theorem follow?_entered (opened : openAbove before code globals locals before.store =
    .ok activation store) :
    before.outline.follow? [.entered activation.file (before.frames.height + 1)] =
      some (activation.opened :: before.outline) := by
  rw [Outline.follow?_singleton, Outline.next?_entered _ _ (by rw [before.length_outline]),
    Activation.opened, openFrame_blocks opened]
  rfl

theorem enterFrame_error {stop : Stop Cause}
    (refused : openAbove before code globals locals before.store = .error stop store) :
    enterFrame code globals locals before = .error stop.raised { before with store } := by
  obtain ⟨start, values, frames, error, traceback, tracer⟩ := before
  have read : (get : MachineM τ (Machine τ)) ⟨start, values, frames, error, traceback, tracer⟩ =
      .ok ⟨start, values, frames, error, traceback, tracer⟩
        ⟨start, values, frames, error, traceback, tracer⟩ := rfl
  rw [enterFrame, StoreM.bind_ok read]
  refine bind_error ?_
  have stopped : openFrame (frames.top?.map (·.frame)) frames.height values.height code globals
      locals start = .error stop store := refused
  simp only [onStore, stopped]

/-- Where no frame can be entered, nothing is run. -/
theorem follows_of_refused {stop : Stop Cause} (path : ∀ cause, stop = .failed cause →
      PlainPath before.store store)
    (refused : openAbove before code globals locals before.store = .error stop store) :
    ∃ events, (∀ tracer, evaluateCode run code globals locals argument
        (Traced.retrace tracer before) = retraced (tracer.observeAll events)
          (evaluateCode run code globals locals argument before)) ∧
      course.Leads before events (evaluateCode run code globals locals argument before) := by
  have entered : ∀ tracer, enterFrame code globals locals (Traced.retrace tracer before) =
      .error stop.raised (Traced.retrace tracer { before with store }) :=
    fun tracer => enterFrame_error refused
  have atOnce := enterFrame_error refused
  cases stop with
  | failed cause =>
      -- The argument is given back before the failure goes on.
      have given : course.Follows (releaseAll argument.toList >>= fun _ =>
          throw (.failed (.raised cause)) : MachineM τ Ref) :=
        (releaseAll_follows _).bind fun _ => .throw _
      obtain ⟨events, same, led⟩ := given { before with store }
      have ran {machine after : Machine τ} (failed : enterFrame code globals locals machine =
          .error (.failed (.raised cause)) after) :
          evaluateCode run code globals locals argument machine = (releaseAll argument.toList >>=
            fun _ => throw (.failed (.raised cause)) : MachineM τ Ref) after := by
        rw [evaluateCode, StoreM.bind_ok (attempt_failed failed)]
      have calm : Calm before [] { before with store } := calm_store (path cause rfl)
      refine ⟨[] ++ events, fun tracer => ?_, ?_⟩
      · rw [ran (entered tracer), ran atOnce]
        exact same tracer
      · rw [ran atOnce]
        exact led.head (Tame.goes calm rfl)
  | fault broken =>
      have ran {machine after : Machine τ} (failed : enterFrame code globals locals machine =
          .error (.fault broken) after) :
          evaluateCode run code globals locals argument machine = .error (.fault broken) after :=
        bind_error (by rw [attempt, failed])
      refine ⟨[], fun tracer => ?_, ?_⟩
      · rw [ran (entered tracer), ran atOnce]
        rfl
      · rw [ran atOnce]
        trivial
  | unfinished =>
      have ran {machine after : Machine τ} (failed : enterFrame code globals locals machine =
          .error .unfinished after) :
          evaluateCode run code globals locals argument machine = .error .unfinished after :=
        bind_error (by rw [attempt, failed])
      refine ⟨[], fun tracer => ?_, ?_⟩
      · rw [ran (entered tracer), ran atOnce]
        rfl
      · rw [ran atOnce]
        exact Tame.halts rfl

/-- Where frames are entered and nothing is done in them, code that is to be run leads calmly to
where its frame is entered. -/
theorem evaluates_of_stops {stop : Stop Failure}
    (stops : ∀ machine : Machine τ, run machine = .error stop machine)
    (halts : ∀ failure, stop ≠ .failed failure)
    (opened : ∀ {before events inside}, Machine.Opened before events inside →
      course.Leads before events (.error stop inside : EStateM.Result _ _ Ref)) :
    Evaluates course run := by
  intro code globals locals argument before
  have makes := openFrame_makes (before.frames.top?.map (·.frame)) before.frames.height
    before.values.height code globals locals before.store
  cases result : openAbove before code globals locals before.store with
  | error stop store =>
      refine follows_of_refused (fun cause same => ?_) result
      rw [show openFrame _ _ _ _ _ _ _ = _ from result, same] at makes
      exact makes
  | ok activation store =>
      rw [show openFrame _ _ _ _ _ _ _ = _ from result] at makes
      have attempted (machine : Machine τ) : attempt run machine = .error stop machine := by
        rw [attempt, stops]
        cases stop with
        | failed failure => exact absurd rfl (halts failure)
        | fault broken => rfl
        | unfinished => rfl
      let told : Event := .entered activation.file (before.frames.height + 1)
      let inside : Machine τ := { before with
        store
        values := before.values.pushAll argument.toList
        frames := before.frames.push activation
        tracer := before.tracer.observe fun _ => told }
      have ran (tracer : Tracer) : evaluateCode run code globals locals argument
          (Traced.retrace tracer before) =
            .error stop (Traced.retrace (tracer.observe fun _ => told) inside) := by
        have entered : attempt (enterFrame code globals locals) (Traced.retrace tracer before) =
            .ok (.ok ()) { before with
              store
              frames := before.frames.push activation
              tracer := tracer.observe fun _ => told } := by
          have retold : openAbove (Traced.retrace tracer before) code globals locals
              (Traced.retrace tracer before).store = .ok activation store := result
          rw [attempt, enterFrame_ok retold]
          rfl
        rw [evaluateCode, StoreM.bind_ok entered]
        have pushed : onFrame (FrameM.pushAll argument.toList) ({ before with
            store
            frames := before.frames.push activation
            tracer := tracer.observe fun _ => told } : Machine τ) =
              .ok () (Traced.retrace (tracer.observe fun _ => told) inside) := rfl
        simp only
        rw [StoreM.bind_ok pushed, bind_error (attempted _)]
      have here : evaluateCode run code globals locals argument before = .error stop inside :=
        ran before.tracer
      refine ⟨[told], fun tracer => by rw [ran, here]; rfl, ?_⟩
      rw [here]
      refine opened ⟨⟨activation.frame, rfl, makes⟩, .of_asked makes.path.asked, rfl, ?_, ?_⟩
      · exact follow?_entered result
      exact ⟨before.store.tracker, ReflTransGen.refl, openFrame_agreed result⟩

/-- With no step to run it in, a frame is entered and not run. -/
theorem evaluates_plain : Evaluates (plain τ) (runFrame 0) :=
  evaluates_of_stops (fun _ => rfl) (fun _ => nofun) fun opened _ => opened

/-- Where a promise is broken as soon as a frame is entered, every course is followed. -/
theorem evaluates_fault (broken : Fault) : Evaluates course (throw (.fault broken)) :=
  evaluates_of_stops (fun _ => rfl) (fun _ => nofun) fun _ => trivial

end Entering

/-! ## Calls from the host -/

section Hosting

theorem beginCall_follows : course.Follows (beginCall : MachineM τ Unit) :=
  .get_bind (fun _ _ => rfl) fun _ => .ite (fun _ => clearError_follows) fun _ => .pure ()

theorem recording_follows {act : MachineM τ Ref} (follows : course.Follows act) :
    course.Follows (recording act) := by
  refine follows.attempt.bind fun result => ?_
  cases result with
  | ok value => exact .pure (some value)
  | error failure => exact (record_follows failure).bind fun _ => .pure none

theorem reporting_evolves {act : StoreM τ α} (evolves : StoreM.Evolves act) :
    StoreM.Evolves (StoreM.reporting act) := by
  refine evolves.attempt.bind fun result => ?_
  cases result with
  | ok value => exact .pure _
  | error cause => exact .pure _

theorem prepare_evolves (image : Image) :
    StoreM.Evolves (prepare image : StoreM τ (Ref × Ref × Ref)) :=
  (StoreM.loadImage_evolves image).bind fun _ =>
    (StoreM.orRelease_evolves _ (StoreM.registerModule_evolves mainName)).bind fun _ =>
      (StoreM.orRelease_evolves _ (StoreM.loadAttr_evolves _ _)).bind fun _ => .pure _

variable {fuel : Nat}

theorem evaluate_follows (evaluates : Evaluates course (runFrame fuel)) (code globals locals : Ref)
    (argument : Option Ref) :
    course.Follows (evaluate fuel code globals locals argument : MachineM τ (Option Ref)) :=
  beginCall_follows.bind fun _ => recording_follows (evaluates code globals locals argument)

theorem invoke_follows (evaluates : Evaluates course (runFrame fuel)) (callee : Ref)
    (argument : Option Ref) :
    course.Follows (invoke fuel callee argument : MachineM τ (Option Ref)) :=
  beginCall_follows.bind fun _ => recording_follows (call_follows evaluates callee argument)

theorem runImage_follows (evaluates : Evaluates course (runFrame fuel)) (image : Image) :
    course.Follows (runImage fuel image : MachineM τ (Except Report Object)) := by
  refine (onStore_follows (reporting_evolves (prepare_evolves image))).bind fun prepared => ?_
  rcases prepared with report | ⟨code, module, globals⟩
  · exact .pure (Except.error report)
  · refine (releaseAll_follows _).bind fun _ =>
      (evaluate_follows evaluates code globals globals none).bind fun result =>
        (takeObject_follows result).bind fun object => (releaseAll_follows _).bind fun _ => ?_
    cases object with
    | some object => exact .pure (Except.ok object)
    | none => exact requireReport_follows.bind fun report => .pure (Except.error report)

end Hosting

end StackMachine.MachineM
