import StackMachine.Machine.Run
import StackMachine.Proofs.Machine.Locality

/-!
# What a call leaves alone

Running the innermost frame is local: the values below the frame's base and the frames
around are as they were, and how the run ends does not depend on those values.  A call
of code opens a frame above all values there are, so by the same argument it puts the
frames and the values back as they were, whether it succeeds or fails.

The two statements hold each other up.  A call runs a frame, and a step of a frame may
make a call; the induction is on the number of steps.
-/

namespace StackMachine

namespace MachineM

open Outcome

variable {τ α β : Type}

/-- In a machine, the values of others are those below the base of the innermost frame. -/
instance : Layered (Machine τ) where
  on machine below := { machine with values := machine.values.on below }
  base machine := (machine.frames.items.head?.map (·.base)).getD 0
  Kept before after := after.frames.items.tail = before.frames.items.tail ∧
    after.frames.items.head?.map (·.base) = before.frames.items.head?.map (·.base)
  kept_refl _ := ⟨rfl, rfl⟩
  kept_trans first second := ⟨second.1.trans first.1, second.2.trans first.2⟩
  base_eq same := congrArg (Option.getD · 0) same.2

/-- Does an operation leave the frames and the values as they are, and end in the same way
above all values? -/
def Isolated (act : MachineM τ α) (machine : Machine τ) : Prop :=
  ∀ size, Oblivious size
    (fun after => after.frames = machine.frames ∧ after.values = machine.values) act machine

theorem Isolated.localAt {act : MachineM τ α} {machine : Machine τ} (body : Isolated act machine) :
    LocalAt act machine := by
  refine (body _).mono ?_
  rintro after ⟨frames, -⟩
  exact ⟨congrArg (·.items.tail) frames, congrArg (·.items.head?.map (·.base)) frames⟩

/-- An operation that is isolated leaves the frames and the values alone. -/
theorem Isolated.returns {act : MachineM τ α} {machine : Machine τ} (body : Isolated act machine) :
    Returns (act machine) fun after =>
      after.frames = machine.frames ∧ after.values = machine.values := by
  obtain ⟨result, returns, same⟩ := body 0
  have whole : ∀ machine : Machine τ, (Layered.on machine [] : Machine τ) = machine := by
    intro machine
    have bare : machine.values.on [] = machine.values :=
      Stack.ext_items (List.append_nil machine.values.items)
    show Machine.mk _ (machine.values.on []) _ _ _ _ = _
    rw [bare]
  have ran := same [] rfl
  rw [whole] at ran
  rw [ran]
  cases result with
  | ok value after => rw [mapState, whole]; exact returns
  | error stop after => rw [mapState, whole]; exact returns

theorem Isolated.attempt {act : MachineM τ α} {machine : Machine τ} (body : Isolated act machine) :
    Isolated (attempt act) machine :=
  fun size => (body size).attempt

theorem Isolated.throw (stop : Stop Failure) (machine : Machine τ) :
    Isolated (throw stop : MachineM τ α) machine := by
  refine fun size => ⟨.error stop machine, ?_, fun _ _ => rfl⟩
  cases stop with
  | failed failure => exact ⟨rfl, rfl⟩
  | fault broken => trivial
  | unfinished => trivial

theorem Isolated.bind {act : MachineM τ α} {next : α → MachineM τ β} {machine : Machine τ}
    (first : Isolated act machine) (second : ∀ value after, Isolated (next value) after) :
    Isolated (act >>= next) machine := by
  intro size
  refine Oblivious.bind (first size) (fun _ => id) ?_
  rintro value after ⟨frames, values⟩
  rw [← frames, ← values]
  exact second value after size

/-- Where only the innermost frame may change, it is still there. -/
theorem exists_innermost {machine after : Machine τ} {activation : Activation}
    {callers : List Activation} (items : machine.frames.items = activation :: callers)
    (kept : Layered.Kept machine after) :
    ∃ new, after.frames.items = new :: callers ∧ new.base = activation.base := by
  obtain ⟨tail, head⟩ := kept
  rw [items] at tail head
  obtain ⟨new, first, base⟩ := Option.map_eq_some_iff.mp head
  obtain ⟨rest, whole⟩ := List.head?_eq_some_iff.mp first
  rw [whole] at tail
  exact ⟨new, whole.trans (congrArg (new :: ·) tail), base⟩

/-! ## Parts that do not touch the values -/

theorem onStore_isolated (act : StoreM τ α) (machine : Machine τ) :
    Isolated (onStore act) machine := by
  obtain ⟨store, values, frames, error, traceback, tracer⟩ := machine
  intro size
  cases result : act store with
  | ok value after =>
      refine ⟨.ok value ⟨after, values, frames, error, traceback, tracer⟩, ⟨rfl, rfl⟩, ?_⟩
      intro below _
      show onStore act ⟨store, values.on below, frames, error, traceback, tracer⟩ = _
      rw [onStore, result]
      rfl
  | error stop after =>
      refine ⟨.error stop.raised ⟨after, values, frames, error, traceback, tracer⟩, ?_, ?_⟩
      · cases stop with
        | failed cause => exact ⟨rfl, rfl⟩
        | fault broken => trivial
        | unfinished => trivial
      · intro below _
        show onStore act ⟨store, values.on below, frames, error, traceback, tracer⟩ = _
        rw [onStore, result]
        rfl

theorem tell_isolated (event : Stack Activation → Event) (machine : Machine τ) :
    Isolated (tell event : MachineM τ Unit) machine :=
  fun _ => ⟨.ok () { machine with tracer := machine.tracer.observe fun _ => event machine.frames },
    ⟨rfl, rfl⟩, fun _ _ => rfl⟩

theorem settle_isolated (result : Except Failure α) (machine : Machine τ) :
    Isolated (settle result : MachineM τ α) machine := by
  intro size
  cases result with
  | ok value => exact ⟨.ok value machine, ⟨rfl, rfl⟩, fun _ _ => rfl⟩
  | error failure => exact ⟨.error (.failed failure) machine, ⟨rfl, rfl⟩, fun _ _ => rfl⟩

theorem onStore_local (act : StoreM τ α) : Local (onStore act) :=
  fun machine => (onStore_isolated act machine).localAt

theorem tell_local (event : Stack Activation → Event) : Local (tell event : MachineM τ Unit) :=
  fun machine => (tell_isolated event machine).localAt

theorem raise_local (cause : Cause) : Local (raise cause : MachineM τ α) :=
  .throw (.failed (Failure.raised cause))

/-- The machine may be looked at, except for the values of others. -/
theorem get_bind_local {next : Machine τ → MachineM τ α} (rest : ∀ machine, Local (next machine))
    (blind : ∀ machine (below : List Ref), next (Layered.on machine below) = next machine) :
    Local (get >>= next) := by
  intro machine
  obtain ⟨result, kept, same⟩ := rest machine machine
  refine ⟨result, kept, fun below length => ?_⟩
  show next (Layered.on machine below) (Layered.on machine below) = _
  rw [blind]
  exact same below length

theorem modify_local {change : Machine τ → Machine τ}
    (kept : ∀ machine, (change machine).frames = machine.frames)
    (blind : ∀ machine (below : List Ref),
      change (Layered.on machine below) = Layered.on (change machine) below) :
    Local (modify change : MachineM τ PUnit) := by
  intro machine
  refine ⟨.ok () (change machine), ?_, fun below _ => ?_⟩
  · exact ⟨congrArg (·.items.tail) (kept machine),
      congrArg (·.items.head?.map (·.base)) (kept machine)⟩
  · show EStateM.Result.ok () (change (Layered.on machine below)) = _
    rw [blind]
    rfl

/-- What is local within a frame is local in the machine. -/
theorem onFrame_local {act : FrameM τ α} (body : Local act) : Local (onFrame act) := by
  rintro ⟨store, values, ⟨frames, height, height_eq⟩, error, traceback, tracer⟩
  cases frames with
  | nil =>
      let idle : Machine τ := ⟨store, values, ⟨[], height, height_eq⟩, error, traceback, tracer⟩
      exact ⟨.error (.fault .idle) idle, trivial, fun _ _ => rfl⟩
  | cons activation callers =>
      obtain ⟨result, kept, same⟩ := body ⟨store, values, activation⟩
      cases result with
      | ok value after =>
          refine ⟨.ok value ⟨after.store, after.values,
            ⟨after.activation :: callers, height, height_eq⟩, error, traceback, tracer⟩,
            ⟨rfl, congrArg some kept⟩, fun below length => ?_⟩
          have ran := same below length
          show onFrame act ⟨store, values.on below, ⟨activation :: callers, height, height_eq⟩,
            error, traceback, tracer⟩ = _
          change act ⟨store, values.on below, activation⟩ = _ at ran
          rw [onFrame, ran]
          rfl
      | error stop after =>
          refine ⟨.error stop.raised ⟨after.store, after.values,
            ⟨after.activation :: callers, height, height_eq⟩, error, traceback, tracer⟩, ?_, ?_⟩
          · cases stop with
            | failed cause => exact ⟨rfl, congrArg some kept⟩
            | fault broken => trivial
            | unfinished => trivial
          · intro below length
            have ran := same below length
            show onFrame act ⟨store, values.on below, ⟨activation :: callers, height, height_eq⟩,
              error, traceback, tracer⟩ = _
            change act ⟨store, values.on below, activation⟩ = _ at ran
            rw [onFrame, ran]
            rfl

/-! ## Errors -/

variable [Tracker τ]

theorem releaseAll_local (refs : List Ref) : Local (releaseAll refs : MachineM τ Unit) :=
  onStore_local _

theorem releasing_isolated {act : MachineM τ α} {machine : Machine τ} (refs : List Ref)
    (body : Isolated act machine) : Isolated (releasing refs act) machine :=
  body.attempt.bind fun result after => (onStore_isolated _ after).bind fun _ =>
    settle_isolated result

theorem setErrorValue_local (error value : Ref) :
    Local (setErrorValue error value : MachineM τ Unit) := by
  refine get_bind_local (fun machine => ?_) fun _ _ => rfl
  refine Local.bind (modify_local (fun _ => rfl) fun _ _ => rfl) fun _ => ?_
  cases machine.error with
  | none => exact .pure ()
  | some previous => exact releaseAll_local _

theorem setErrorCause_local (cause : Cause) : Local (setErrorCause cause : MachineM τ Unit) := by
  unfold setErrorCause
  cases cause.message? with
  | some message =>
      refine (onStore_local _).bind fun error => (onStore_local _).bind fun value => ?_
      exact setErrorValue_local error value
  | none =>
      refine (onStore_local _).bind fun error => (onStore_local _).bind fun value => ?_
      exact setErrorValue_local error value

theorem record_local (failure : Failure) : Local (record failure : MachineM τ Unit) := by
  cases failure with
  | raised cause => exact setErrorCause_local cause
  | recorded => exact .pure ()

theorem pushTraceback_local : Local (pushTraceback : MachineM τ Unit) := by
  refine (onFrame_local (FrameM.asks_local _)).bind fun point => ?_
  refine get_bind_local (fun machine => ?_) fun _ _ => rfl
  refine (onStore_local _).bind fun entry => ?_
  cases entry with
  | ok entry =>
      exact Local.bind (modify_local (fun _ => rfl) fun _ _ => rfl) fun _ => releaseAll_local _
  | error cause => exact .pure ()

/-! ## Leaving blocks -/

theorem leaveBlock_local (block : Block) (rest : List Block) :
    Local (leaveBlock block rest : MachineM τ Unit) := by
  refine (onFrame_local ?_).bind fun _ => (tell_local _).bind fun _ => ?_
  · exact FrameM.update_local fun _ => rfl
  · exact onFrame_local (FrameM.drainTo_local _)

theorem unwindBlocks_local (reason : Unwinding) (blocks : List Block) :
    Local (unwindBlocks reason blocks : MachineM τ Bool) := by
  induction blocks with
  | nil => exact .pure false
  | cons block rest ih =>
      refine (leaveBlock_local block rest).bind fun _ => .ite ?_ ih
      exact (onFrame_local (FrameM.jumpTo_local _)).bind fun _ => .pure true

theorem unwind_local (reason : Unwinding) : Local (unwind reason : MachineM τ Bool) := by
  have blocks : Local (do
      unwindBlocks reason (← onFrame (FrameM.asks (·.blocks))) : MachineM τ Bool) :=
    (onFrame_local (FrameM.asks_local _)).bind fun blocks => unwindBlocks_local reason blocks
  refine get_bind_local (fun machine => ?_) fun _ _ => rfl
  refine .ite (.throw _) (.ite (.throw _) ?_)
  refine (tell_local _).bind fun _ => .ite ?_ blocks
  exact pushTraceback_local.bind fun _ => blocks

/-! ## Entering and leaving frames -/

/-- A new frame starts above all values. -/
theorem openFrame_base {back : Option Ref} {depth base : Nat} {code globals locals : Ref}
    {activation : Activation} {store after : Store τ}
    (opened : openFrame back depth base code globals locals store = .ok activation after) :
    activation.base = base := by
  obtain ⟨_, _, -, opened⟩ := bind_eq_ok opened
  obtain ⟨_, _, -, opened⟩ := bind_eq_ok opened
  obtain ⟨_, _, -, opened⟩ := bind_eq_ok opened
  obtain ⟨_, _, -, opened⟩ := bind_eq_ok opened
  obtain ⟨_, _, -, opened⟩ := bind_eq_ok opened
  cases opened
  rfl

/-- A frame was entered: of the values, only the argument lies above its base. -/
def enteredWith (machine : Machine τ) (activation : Activation) (argument : List Ref)
    (store : Store τ) : Machine τ where
  store := store
  values := Stack.empty.pushAll argument
  frames := machine.frames.push activation
  error := machine.error
  traceback := machine.traceback
  tracer := machine.tracer.observe fun _ =>
    .entered activation.file (machine.frames.push activation).height

omit [Tracker τ] in
theorem enteredWith_items (machine : Machine τ) (activation : Activation) (argument : List Ref)
    (store : Store τ) : (enteredWith machine activation argument store).frames.items =
      activation :: machine.frames.items :=
  rfl

section Calls

variable {run : MachineM τ Ref} {machine : Machine τ} {code globals locals : Ref}
  {argument : Option Ref} {activation : Activation} {store : Store τ} {below : List Ref}

omit [Tracker τ] in
theorem on_on (own : List Ref) :
    (Layered.on (Layered.on machine own) below : Machine τ) =
      Layered.on machine (own ++ below) := by
  have same : (machine.values.on own).on below = machine.values.on (own ++ below) :=
    Stack.ext_items (List.append_assoc machine.values.items own below)
  show Machine.mk _ ((machine.values.on own).on below) _ _ _ _ = _
  rw [same]
  rfl

theorem enterFrame_on :
    enterFrame code globals locals (Layered.on machine below) =
      (do
        let activation ← onStore (openFrame (machine.frames.top?.map (·.frame))
          machine.frames.height (machine.values.items.length + below.length) code globals locals)
        modify fun machine => { machine with frames := machine.frames.push activation }
        tell fun frames => .entered activation.file frames.height : MachineM τ Unit)
      (Layered.on machine below) := by
  have height : (Layered.on machine below).values.height =
      machine.values.items.length + below.length := Stack.height_on
  rw [← height]
  rfl

/-- Where a frame is opened, its values start above all others. -/
theorem evaluateCode_on_opened
    (opened : openFrame (machine.frames.top?.map (·.frame)) machine.frames.height
      (machine.values.items.length + below.length) code globals locals machine.store =
        .ok activation store) :
    evaluateCode run code globals locals argument (Layered.on machine below) =
      (do
        let result ← attempt run
        leaveFrame
        settle result : MachineM τ Ref)
      (Layered.on (enteredWith machine activation argument.toList store)
        (machine.values.items ++ below)) := by
  let opening : Machine τ := { enteredWith machine activation [] store with
    values := machine.values.on below }
  have entering : attempt (enterFrame code globals locals) (Layered.on machine below) =
      .ok (.ok ()) opening := by
    have charged : onStore (openFrame (machine.frames.top?.map (·.frame)) machine.frames.height
        (machine.values.items.length + below.length) code globals locals)
        (Layered.on machine below) = .ok activation (Layered.on { machine with store } below) := by
      show onStore _ (Machine.mk machine.store _ _ _ _ _) = _
      rw [onStore, opened]
      rfl
    rw [attempt, enterFrame_on, StoreM.bind_ok charged]
    rfl
  have pushed : onFrame (FrameM.pushAll argument.toList) opening =
      .ok () (Layered.on (enteredWith machine activation argument.toList store)
        (machine.values.items ++ below)) := by
    have same : (machine.values.on below).pushAll argument.toList =
        (Stack.empty.pushAll argument.toList).on (machine.values.items ++ below) := by
      apply Stack.ext_items
      simp
    show EStateM.Result.ok () (Machine.mk store ((machine.values.on below).pushAll argument.toList)
      _ _ _ _) = _
    rw [same]
    rfl
  rw [evaluateCode, StoreM.bind_ok entering]
  simp only
  rw [StoreM.bind_ok pushed]

/-- A frame is left with what it has of its own, and with nothing else. -/
theorem leaveFrame_on {after : Machine τ} {values : Stack Ref} {frames : Stack Activation}
    (items : after.frames.items = activation :: frames.items)
    (base : activation.base = values.items.length + below.length) :
    leaveFrame (Layered.on after (values.items ++ below)) =
      (do
        releaseAll (after.values.items.reverse ++ [activation.frame])
        tell fun frames => .left frames.height : MachineM τ Unit)
      (Layered.on { after with frames, values } below) := by
  have top : (Layered.on after (values.items ++ below)).frames.top? = some activation := by
    show after.frames.items.head? = _
    rw [items]
    rfl
  have dropped : after.frames.drop 1 = frames := Stack.ext_items (by simp [items])
  have height : (after.values.on (values.items ++ below)).height =
      after.values.items.length + activation.base := by
    rw [Stack.height_on, List.length_append, base]
  have rest : (after.values.on (values.items ++ below)).drop after.values.items.length =
      values.on below := Stack.ext_items (by simp)
  have split : (splitOff activation.base : MachineM τ (List Ref))
      (Layered.on { after with frames } (values.items ++ below)) =
        .ok after.values.items.reverse (Layered.on { after with frames, values } below) := by
    let state : Machine τ := Layered.on { after with frames } (values.items ++ below)
    have read : (get : MachineM τ (Machine τ)) state = .ok state state := rfl
    have surplus : state.values.height - activation.base = after.values.items.length := by
      show (after.values.on (values.items ++ below)).height - _ = _
      rw [height, Nat.add_sub_cancel]
    have taken : state.values.items.take after.values.items.length = after.values.items := by
      show (after.values.items ++ (values.items ++ below)).take _ = _
      rw [List.take_left]
    have enough : ¬ state.values.height < activation.base := by
      show ¬ (after.values.on (values.items ++ below)).height < _
      omega
    rw [splitOff, StoreM.bind_ok read]
    simp only
    rw [if_neg enough, surplus, taken]
    show EStateM.Result.ok _ (Machine.mk _ ((after.values.on (values.items ++ below)).drop
      after.values.items.length) _ _ _ _) = _
    rw [rest]
    rfl
  have read : (get : MachineM τ (Machine τ)) (Layered.on after (values.items ++ below)) =
    .ok _ (Layered.on after (values.items ++ below)) := rfl
  have removed : (modify fun machine => { machine with frames := machine.frames.drop 1 } :
      MachineM τ PUnit) (Layered.on after (values.items ++ below)) =
        .ok () (Layered.on { after with frames } (values.items ++ below)) := by
    show EStateM.Result.ok _ (Machine.mk _ _ (after.frames.drop 1) _ _ _) = _
    rw [dropped]
    rfl
  rw [leaveFrame, StoreM.bind_ok read, top]
  simp only
  rw [StoreM.bind_ok removed, StoreM.bind_ok split]

/-- Where no frame is opened, nothing has changed but the store. -/
theorem attempt_enterFrame_on_refused {stop : Stop Cause}
    (refused : openFrame (machine.frames.top?.map (·.frame)) machine.frames.height
      (machine.values.items.length + below.length) code globals locals machine.store =
        .error stop store) :
    enterFrame code globals locals (Layered.on machine below) =
      .error stop.raised (Layered.on { machine with store } below) := by
  have charged : onStore (openFrame (machine.frames.top?.map (·.frame)) machine.frames.height
      (machine.values.items.length + below.length) code globals locals)
      (Layered.on machine below) =
        .error stop.raised (Layered.on { machine with store } below) := by
    show onStore _ (Machine.mk machine.store _ _ _ _ _) = _
    rw [onStore, refused]
    rfl
  rw [enterFrame_on]
  show EStateM.bind _ _ _ = _
  rw [EStateM.bind, charged]

/-- A call of code that opens no frame. -/
theorem evaluateCode_refused {stop : Stop Cause} {size : Nat}
    (refused : openFrame (machine.frames.top?.map (·.frame)) machine.frames.height
      (machine.values.items.length + size) code globals locals machine.store =
        .error stop store) :
    Oblivious size (fun after => after.frames = machine.frames ∧ after.values = machine.values)
      (evaluateCode run code globals locals argument) machine := by
  have entering : ∀ below : List Ref, below.length = size →
      enterFrame code globals locals (Layered.on machine below) =
        .error stop.raised (Layered.on { machine with store } below) := by
    rintro below rfl
    exact attempt_enterFrame_on_refused refused
  cases stop with
  | failed cause =>
      obtain ⟨result, returns, same⟩ := (onStore_isolated (StoreM.releaseAll argument.toList)
        { machine with store }).bind (fun _ => settle_isolated (.error (.raised cause))) size
      refine ⟨result, returns, fun below length => ?_⟩
      have failed : attempt (enterFrame code globals locals) (Layered.on machine below) =
          .ok (.error (.raised cause)) (Layered.on { machine with store } below) := by
        rw [attempt, entering below length]
        rfl
      rw [evaluateCode, StoreM.bind_ok failed]
      exact same below length
  | fault broken =>
      refine ⟨.error (.fault broken) { machine with store }, trivial, fun below length => ?_⟩
      show EStateM.bind _ _ _ = _
      rw [EStateM.bind, attempt, entering below length]
      rfl
  | unfinished =>
      refine ⟨.error .unfinished { machine with store }, trivial, fun below length => ?_⟩
      show EStateM.bind _ _ _ = _
      rw [EStateM.bind, attempt, entering below length]
      rfl

/-- A frame that has run is left with the frames and the values there were before. -/
theorem finish_oblivious {size : Nat} (runs : Local run)
    (base : activation.base = machine.values.items.length + size) :
    ∃ result,
      Returns result (fun after => after.frames = machine.frames ∧ after.values = machine.values) ∧
      ∀ below : List Ref, below.length = size →
        (do
          let result ← attempt run
          leaveFrame
          settle result : MachineM τ Ref)
        (Layered.on (enteredWith machine activation argument.toList store)
          (machine.values.items ++ below)) = mapState (Layered.on · below) result := by
  let inside := enteredWith machine activation argument.toList store
  obtain ⟨ran, kept, same⟩ := (runs inside).attempt
  have ran_eq : ∀ below : List Ref, below.length = size →
      attempt run (Layered.on inside (machine.values.items ++ below)) =
        mapState (Layered.on · (machine.values.items ++ below)) ran := by
    rintro below rfl
    exact same _ (List.length_append.trans base.symm)
  cases ran with
  | error stop after =>
      refine ⟨.error stop (Layered.on after machine.values.items), ?_, fun below length => ?_⟩
      · cases stop with
        | failed failure =>
            have failed := ran_eq (List.replicate size default) List.length_replicate
            exact absurd failed (neverFails_attempt run _ _ _)
        | fault broken => trivial
        | unfinished => trivial
      · show EStateM.bind _ _ _ = _
        rw [EStateM.bind, ran_eq below length]
        exact congrArg (EStateM.Result.error stop) (on_on machine.values.items).symm
  | ok outcome after =>
      obtain ⟨new, items, newBase⟩ :=
        exists_innermost (enteredWith_items machine activation argument.toList store) kept
      obtain ⟨result, returns, finished⟩ :=
        (onStore_isolated (StoreM.releaseAll (after.values.items.reverse ++ [new.frame]))
          { after with frames := machine.frames, values := machine.values }).bind
          (fun _ middle => (tell_isolated (fun frames => .left frames.height) middle).bind
            fun _ => settle_isolated outcome) size
      refine ⟨result, returns, fun below length => ?_⟩
      have left : (leaveFrame : MachineM τ Unit)
          (Layered.on after (machine.values.items ++ below)) = _ :=
        leaveFrame_on items (by rw [newBase, base, length])
      have gone := finished below length
      rw [← bind_assoc] at gone
      show EStateM.bind _ _ _ = _
      rw [EStateM.bind, ran_eq below length]
      show EStateM.bind leaveFrame _ (Layered.on after (machine.values.items ++ below)) = _
      rw [EStateM.bind, left]
      exact gone

/-- A call of code leaves the frames and the values as they are. -/
theorem evaluateCode_isolated (runs : Local run) (machine : Machine τ)
    (code globals locals : Ref) (argument : Option Ref) :
    Isolated (evaluateCode run code globals locals argument) machine := by
  intro size
  cases opened : openFrame (machine.frames.top?.map (·.frame)) machine.frames.height
      (machine.values.items.length + size) code globals locals machine.store with
  | error stop store => exact evaluateCode_refused opened
  | ok activation store =>
      obtain ⟨result, returns, same⟩ := finish_oblivious runs (openFrame_base opened)
      refine ⟨result, returns, ?_⟩
      rintro below rfl
      rw [evaluateCode_on_opened opened]
      exact same below rfl

/-! ## Calls, steps and runs -/

theorem runFunction_isolated (runs : Local run) (machine : Machine τ) :
    Isolated (runFunction run code globals argument) machine :=
  (onStore_isolated _ machine).bind fun locals after =>
    releasing_isolated _ (evaluateCode_isolated runs after code globals locals argument)

theorem callPlain_isolated {callee : Ref} (runs : Local run) (machine : Machine τ) :
    Isolated (callPlain run callee argument) machine := by
  refine (onStore_isolated _ machine).bind fun payload after => ?_
  split
  · exact onStore_isolated _ after
  · exact onStore_isolated _ after
  · exact (onStore_isolated _ after).bind fun _ _ =>
      releasing_isolated _ (runFunction_isolated runs _)
  · exact .throw _ after
  · exact (onStore_isolated _ after).bind fun _ => .throw _

/-- A call leaves the frames and the values as they are, whatever is called. -/
theorem call_isolated {callee : Ref} (runs : Local run) (machine : Machine τ) :
    Isolated (call run callee argument) machine := by
  refine (onStore_isolated _ machine).bind fun payload after => ?_
  split
  · refine (onStore_isolated _ after).bind fun _ _ =>
      (onStore_isolated _ _).bind fun argument _ => ?_
    exact releasing_isolated _ (callPlain_isolated runs _)
  · exact callPlain_isolated runs after

/-- A call is made for an instruction, and its result is put on top. -/
theorem calling_local {callee : Ref} (runs : Local run) :
    Local (do
      let result ← releasing [callee] (call run callee argument)
      onFrame (FrameM.push result)
      return .next : MachineM τ Flow) :=
  Local.bind (fun machine => (releasing_isolated _ (call_isolated runs machine)).localAt) fun _ =>
    (onFrame_local (FrameM.push_local _)).bind fun _ => .pure Flow.next

theorem dispatch_local (runs : Local run) (op : Opcode) (operand next : Nat) :
    Local (dispatch run op operand next) := by
  have executed : Local (do
      onFrame (FrameM.execute op operand next)
      return .next : MachineM τ Flow) :=
    (onFrame_local (FrameM.execute_local op operand next)).bind fun _ => .pure Flow.next
  cases op with
  | returnValue => exact (onFrame_local FrameM.pop_local).bind fun _ => .pure _
  | breakLoop => exact .pure Flow.breaking
  | callBare => exact (onFrame_local FrameM.pop_local).bind fun _ => calling_local runs
  | callWith => exact (onFrame_local FrameM.popTwo_local).bind fun _ => calling_local runs
  | popBlock =>
      refine (onFrame_local FrameM.popBlock_local).bind fun block => (tell_local _).bind fun _ => ?_
      exact (onFrame_local (FrameM.drainTo_local _)).bind fun _ => .pure Flow.next
  | setup kind =>
      refine (onFrame_local (FrameM.pushBlock_local _ _)).bind fun _ => ?_
      exact (tell_local _).bind fun _ => .pure Flow.next
  | _ => exact executed

theorem step_local (runs : Local run) : Local (step run) := by
  refine (onStore_local _).bind fun _ => ?_
  refine (onFrame_local (FrameM.asks_local _)).bind fun fetched => ?_
  obtain ⟨offset, fetched⟩ := fetched
  cases fetched with
  | pastEnd => exact raise_local _
  | truncated op => exact raise_local _
  | unknown byte => exact raise_local _
  | instruction op operand next =>
      refine (onFrame_local (FrameM.jumpTo_local _)).bind fun _ => ?_
      refine (onFrame_local FrameM.depth_local).bind fun depth => ?_
      exact (tell_local _).bind fun _ => dispatch_local runs op operand next

end Calls

/-- Running the innermost frame is local, in any number of steps. -/
theorem runFrame_local (fuel : Nat) : Local (runFrame fuel : MachineM τ Ref) := by
  induction fuel with
  | zero => exact .throw .unfinished
  | succ fuel ih =>
      refine (step_local ih).attempt.bind fun outcome => ?_
      rcases outcome with failure | (_ | value | _)
      case ok.next => exact ih
      case ok.returning => exact (unwind_local .returning).bind fun _ => .pure value
      case ok.breaking =>
        refine (unwind_local .breaking).bind fun caught => .ite ih ?_
        exact (setErrorCause_local _).bind fun _ => pushTraceback_local.bind fun _ => .throw _
      case error =>
        exact (record_local failure).bind fun _ => (unwind_local .error).bind fun _ => .throw _

/-- Does an operation neither read nor change the values below the base of the innermost
frame?  Whatever they are, it ends in the same way and leaves them in place, and so it does
with the frames around. -/
def SparesCallers (act : MachineM τ α) : Prop :=
  ∀ (machine : Machine τ) (activation : Activation) (callers : List Activation),
    machine.frames.items = activation :: callers →
    ∃ result,
      Returns result (fun after => ∃ new, after.frames.items = new :: callers ∧
        new.base = activation.base) ∧
      ∀ below : List Ref, below.length = activation.base →
        act { machine with values := machine.values.on below } =
          mapState (fun after => { after with values := after.values.on below }) result

omit [Tracker τ] in
theorem sparesCallers_of_local {act : MachineM τ α} (body : Local act) : SparesCallers act := by
  intro machine activation callers items
  obtain ⟨result, returns, same⟩ := body machine
  have base : Layered.base machine = activation.base := by
    show (machine.frames.items.head?.map (·.base)).getD 0 = _
    rw [items]
    rfl
  refine ⟨result, returns.mono fun after kept => ?_, fun below length => ?_⟩
  · exact exists_innermost items kept
  · exact same below (length.trans base.symm)

/-- What the frames around a call rely on: when the call returns or fails, each of them and
all values are as before, and until then neither an instruction nor any other part of a run
reads or touches what lies below the base of its frame. -/
structure IsolatesCallers (τ : Type) [Tracker τ] (fuel : Nat) : Prop where
  call : ∀ (code globals locals : Ref) (argument : Option Ref) (machine : Machine τ),
    Returns (evaluateCode (runFrame fuel) code globals locals argument machine) fun after =>
      after.frames = machine.frames ∧ after.values = machine.values
  instruction : SparesCallers (step (runFrame fuel) : MachineM τ Flow)
  run : SparesCallers (runFrame fuel : MachineM τ Ref)

theorem runFrame_isolatesCallers (fuel : Nat) : IsolatesCallers τ fuel where
  call code globals locals argument machine :=
    (evaluateCode_isolated (runFrame_local fuel) machine code globals locals argument).returns
  instruction := sparesCallers_of_local (step_local (runFrame_local fuel))
  run := sparesCallers_of_local (runFrame_local fuel)

end MachineM

end StackMachine
