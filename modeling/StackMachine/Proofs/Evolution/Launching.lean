import StackMachine.Proofs.Evolution.Landing
import StackMachine.Proofs.Evolution.Session

/-!
# Requests that run code

A request that runs code either is over before any frame is entered, or it comes calmly to
an idle machine on which it makes a call, and goes on calmly when that call is over.  What is
done before and after does not depend on the number of steps that frames are run in.
-/

namespace StackMachine

open Store Outcome Machine Session

variable {τ α β : Type} [Tracker τ]

namespace MachineM

variable {machine : Machine τ} {held : List Ref} {argument : Option Ref}

/-- A call from the host, which holds `held`, on a machine that has begun with it: no frame is
active, no error is set, and there is no traceback. -/
structure HostCall (act : MachineM τ Ref → MachineM τ Ref) (begun : Machine τ)
    (held : List Ref) : Prop where
  idle : ∃ taken, begun.Idle taken
  quiet : begun.error = none
  clean : begun.traceback = none
  calls : Calls act begun held
  follows : ∀ {course : Course (Machine τ)} [Tame course] {run : MachineM τ Ref},
    Evaluates course run → course.Follows (act run)

/-- The host makes a call on a machine that calmly begins with it. -/
def Begins (machine : Machine τ) (act : MachineM τ Ref → MachineM τ Ref) (held : List Ref)
    (call : (fuel : Nat) → MachineM τ (Option Ref)) : Prop :=
  ∃ begun events, machine.Calm events begun ∧ Keeps held machine.store begun.store ∧
    HostCall act begun held ∧ ∀ fuel, call fuel machine = recording (act (runFrame fuel)) begun

theorem beginCall_begins {act : MachineM τ Ref → MachineM τ Ref}
    (idle : machine.Idle (argument.toList ++ held))
    (calls : ∀ begun : Machine τ, begun.Idle (argument.toList ++ held) → Calls act begun held)
    (follows : ∀ {course : Course (Machine τ)} [Tame course] {run : MachineM τ Ref},
      Evaluates course run → course.Follows (act run)) :
    Begins machine act held fun fuel => beginCall >>= fun _ => recording (act (runFrame fuel)) := by
  obtain ⟨store, began, clear, keeps⟩ := beginCall_ok idle
  obtain ⟨events, -, calm⟩ :=
    (beginCall_follows : (still τ).Follows (beginCall : MachineM τ Unit)).returns began
  refine ⟨_, events, calm, keeps.mono (List.subset_append_right _ _),
    ⟨⟨_, clear⟩, rfl, rfl, calls _ clear, follows⟩, fun fuel => ?_⟩
  exact StoreM.bind_ok began

theorem evaluate_begins {code globals locals : Ref} (idle : machine.Idle (argument.toList ++ held))
    (parts : [code, globals, locals] ⊆ held) :
    Begins machine (fun run => evaluateCode run code globals locals argument) held
      fun fuel => evaluate fuel code globals locals argument :=
  beginCall_begins idle (fun _ clear => evaluateCode_calls clear.ready parts)
    fun evaluates => evaluates code globals locals argument

theorem invoke_begins {callee : Ref} (idle : machine.Idle (argument.toList ++ held))
    (member : callee ∈ held) :
    Begins machine (fun run => call run callee argument) held
      fun fuel => invoke fuel callee argument :=
  beginCall_begins idle (fun _ clear => call_calls clear.ready member)
    fun evaluates => call_follows evaluates callee argument

/-- What is left to do once an image has run. -/
def concludeImage (code globals : Ref) (result : Option Ref) :
    MachineM τ (Except Report Object) := do
  let object ← takeObject result
  releaseAll [code, globals]
  match object with
  | some object => return .ok object
  | none => return .error (← requireReport)

theorem concludeImage_follows {course : Course (Machine τ)} [Modest course] (code globals : Ref)
    (result : Option Ref) : course.Follows (concludeImage code globals result) := by
  refine (takeObject_follows result).bind fun object => (releaseAll_follows _).bind fun _ => ?_
  cases object with
  | some object => exact .pure (Except.ok object)
  | none => exact requireReport_follows.bind fun report => .pure (Except.error report)

/-- A result is shown, and no report is taken out. -/
theorem concludeImage_spares (code globals value : Ref) :
    (sparing τ).Follows (concludeImage code globals (some value) :
      MachineM τ (Except Report Object)) := by
  have shown : (concludeImage code globals (some value) : MachineM τ (Except Report Object)) =
      toObject value >>= fun object => releaseAll [value] >>= fun _ =>
        releaseAll [code, globals] >>= fun _ => pure (.ok object) := by
    simp only [concludeImage, takeObject, bind_assoc, pure_bind]
  rw [shown]
  exact (toObject_follows value).bind fun object => (releaseAll_follows _).bind fun _ =>
    (releaseAll_follows _).bind fun _ => .pure (Except.ok object)

/-- An image is not run at all, or it comes calmly to where its code is run. -/
theorem runImage_cases (idle : machine.Idle held) (image : Image) :
    (∃ result : EStateM.Result (Stop Failure) (Machine τ) (Except Report Object),
      (∀ fuel, runImage fuel image machine = result) ∧
        (∀ object after, result ≠ .ok (.ok object) after) ∧
        ∃ events, (still τ).Leads machine events result) ∨
    ∃ code globals loaded events, machine.Calm events loaded ∧
      loaded.Idle ([code, globals] ++ held) ∧ Keeps held machine.store loaded.store ∧
      ∀ fuel, runImage fuel image machine =
        (evaluate fuel code globals globals none >>= concludeImage code globals) loaded := by
  have prepared := reporting_answers idle (prepare_accounts idle.ready.sound image)
  have follows : (still τ).Follows (reporting (prepare image) : MachineM τ _) :=
    onStore_follows (reporting_evolves (prepare_evolves image))
  obtain ⟨events, -, led⟩ := follows machine
  unfold Answers at prepared
  cases ran : reporting (prepare image) machine with
  | error stop after =>
      rw [ran] at led
      refine Or.inl ⟨.error stop after, fun fuel => bind_error ran, nofun, events, ?_⟩
      cases stop <;> exact led
  | ok result middle =>
      rw [ran] at led prepared
      rcases result with report | ⟨code, module, globals⟩
      · exact Or.inl
          ⟨.ok (.error report) middle, fun fuel => StoreM.bind_ok ran, nofun, events, led⟩
      · obtain ⟨left, kept⟩ := prepared
        have owned : middle.Idle ([module] ++ ([code, globals] ++ held)) := left
        obtain ⟨after, released, rest, -, keeps⟩ := releaseAll_idle owned
        obtain ⟨more, -, calm⟩ :=
          (releaseAll_follows [module] : (still τ).Follows _).returns released
        refine Or.inr ⟨code, globals, after, _, Calm.trans led calm, rest,
          kept.trans (keeps.mono (List.subset_append_right _ _)), fun fuel => ?_⟩
        exact (StoreM.bind_ok ran).trans (StoreM.bind_ok released)

end MachineM

namespace SessionM

variable {session start : Session τ} {held lost refs : List Ref} {touched : List Register}

omit [Tracker τ] in
theorem run_bind_congr {first second : SessionM τ α} {next : α → SessionM τ β}
    (same : first.run session = second.run start) :
    (first >>= next).run session = (second >>= next).run start := by
  show EStateM.bind first.run _ session = EStateM.bind second.run _ start
  unfold EStateM.bind
  rw [same]

omit [Tracker τ] in
theorem run_bind_error {first : SessionM τ α} {next : α → SessionM τ β} {stop : Stop Failure}
    {after : Session τ} (stopped : first.run session = .error stop after) :
    (first >>= next).run session = .error stop after := by
  show EStateM.bind first.run (ExceptT.bindCont next) session = _
  exact bind_error stopped

omit [Tracker τ] in
theorem onMachine_run (act : MachineM τ α) (session : Session τ) :
    (onMachine act).run session = match act session.machine with
      | .ok value machine => .ok (.ok value) { session with machine }
      | .error stop machine => .error stop { session with machine } := by
  obtain ⟨machine, registers, seen⟩ := session
  simp only [onMachine, ExceptT.lift, ExceptT.run, ExceptT.mk, Functor.map, EStateM.map]
  cases act machine <;> rfl

/-! ## What is left to do while objects are held -/

/-- Run an operation and give back the objects that were held meanwhile. -/
def holdingStill (refs : List Ref) (act : SessionM τ α) : SessionM τ α := do
  let result ← (ExceptT.lift act.run : SessionM τ (Except (Reply τ) α))
  onStore (StoreM.releaseAll refs)
  MonadExcept.ofExcept result

theorem holdingStill_bind {act : SessionM τ α} {next : α → SessionM τ β} {value : α}
    (returned : act.run session = .ok (.ok value) start) :
    (holdingStill refs (act >>= next)).run session =
      (holdingStill refs (next value)).run start := by
  have lifted : (ExceptT.lift (act >>= next).run : SessionM τ (Except (Reply τ) β)).run session =
      (ExceptT.lift (next value).run : SessionM τ (Except (Reply τ) β)).run start := by
    show EStateM.map _ (act >>= next).run session = EStateM.map _ (next value).run start
    unfold EStateM.map
    rw [run_bind_ok returned]
  exact run_bind_congr lifted

/-- The machine never makes the reply come early. -/
theorem holdingStill_onMachine {act : MachineM τ α} {next : α → SessionM τ β} :
    (holdingStill refs (onMachine act >>= next)).run =
      (onMachine act >>= fun value => holdingStill refs (next value)).run := by
  funext session
  cases ran : act session.machine with
  | ok value after =>
      rw [holdingStill_bind (onMachine_ok ran), run_bind_ok (onMachine_ok ran)]
  | error stop after =>
      have stopped : (onMachine act).run session =
          .error stop { session with machine := after } := by
        rw [onMachine_run, ran]
      have first : (onMachine act >>= next).run session =
          .error stop { session with machine := after } := bind_error stopped
      have lifted : (ExceptT.lift (onMachine act >>= next).run :
          SessionM τ (Except (Reply τ) β)).run session =
            .error stop { session with machine := after } := by
        show EStateM.map _ (onMachine act >>= next).run session = _
        unfold EStateM.map
        rw [first]
      exact (bind_error lifted : _ = _).trans (bind_error stopped).symm

theorem holdingStill_follows {course : Course (Machine τ)} [Narrow course] {act : SessionM τ α}
    (refs : List Ref) (follows : Follows course act) : Follows course (holdingStill refs act) := by
  have lifted : Follows course (ExceptT.lift act.run : SessionM τ (Except (Reply τ) α)) :=
    Course.Follows.map follows Except.ok
  refine lifted.bind fun result => (onStore_follows (StoreM.releaseAll_evolves refs)).bind
    fun _ => ?_
  cases result with
  | ok value => exact .pure value
  | error reply => exact .reply reply

/-! ## Once a call is over -/

/-- Is this a reply without an answer? -/
def Refused : Except (Reply τ) α → Prop
  | .ok _ | .error (.answer _) => False
  | .error _ => True

/-- The operation never gives an answer. -/
def Refuses (act : SessionM τ α) : Prop :=
  ∀ session told after, act.run session = .ok told after → Refused told

omit [Tracker τ] in
theorem Refuses.reply {reply : Reply τ} (refused : Refused (.error reply : Except (Reply τ) α)) :
    Refuses (throw reply : SessionM τ α) := by
  intro session told after answered
  cases answered
  exact refused

omit [Tracker τ] in
theorem Refuses.onMachine_bind {act : MachineM τ α} {next : α → SessionM τ β}
    (refuses : ∀ value, Refuses (next value)) : Refuses (onMachine act >>= next) := by
  intro session told after answered
  cases ran : act session.machine with
  | ok value machine =>
      rw [run_bind_ok (onMachine_ok ran)] at answered
      exact refuses value _ told after answered
  | error stop machine =>
      have stopped : (onMachine act).run session = .error stop { session with machine } := by
        rw [onMachine_run, ran]
      cases (bind_error stopped : _ = _).symm.trans answered

theorem holdingStill_refuses {act : SessionM τ α} (refuses : Refuses act) :
    Refuses (holdingStill refs act) := by
  intro session told after answered
  unfold holdingStill at answered
  cases ran : act.run session with
  | ok result middle =>
      have lifted : (ExceptT.lift act.run : SessionM τ (Except (Reply τ) α)).run session =
          .ok (.ok result) middle := by
        show EStateM.map _ act.run session = _
        unfold EStateM.map
        rw [ran]
      rw [run_bind_ok lifted] at answered
      have refused := refuses session result middle ran
      cases result with
      | ok value => exact refused.elim
      | error reply =>
          exact Refuses.onMachine_bind (fun _ => .reply refused) middle told after answered
  | error stop middle =>
      have lifted : (ExceptT.lift act.run : SessionM τ (Except (Reply τ) α)).run session =
          .error stop middle := by
        show EStateM.map _ act.run session = _
        unfold EStateM.map
        rw [ran]
      cases (bind_error lifted : _ = _).symm.trans answered

/-- What is done once a call is over: no frame is entered; a result is answered with, and then
the traceback is left alone; and without a result there is no answer. -/
structure Concluding (rest : Option Ref → SessionM τ α) : Prop where
  follows : ∀ {course : Course (Machine τ)} [Modest course] (result : Option Ref),
    Follows course (rest result)
  spares : ∀ value, Follows (sparing τ) (rest (some value))
  refuses : Refuses (rest none)

/-- What holds where a call is over holds where the request is. -/
theorem Concluding.lands {course : Course (Machine τ)} [Modest course] {holds : Machine τ → Prop}
    {act : MachineM τ (Option Ref)} {rest : Option Ref → SessionM τ α}
    (concluding : Concluding rest) (preserves : course.Preserves holds)
    (ran : Lands holds (act session.machine)) :
    Lands (fun after : Session τ => holds after.machine)
      ((onMachine act >>= rest).run session) := by
  have called : Lands (fun after : Session τ => holds after.machine)
      ((onMachine act).run session) := by
    rw [onMachine_run]
    cases result : act session.machine with
    | ok value machine =>
        rw [result] at ran
        exact ran
    | error stop machine =>
        rw [result] at ran
        cases stop <;> exact ran
  refine Lands.bind called fun told middle _ known => ?_
  cases told with
  | ok result =>
      have follows : Follows course (rest result) := concluding.follows result
      exact follows.lands fun _ _ => preserves known
  | error reply => exact known

theorem reply_lands {holds : Session τ → Prop} {fuel : Nat} {request : Request}
    (performed : Lands holds ((perform fuel request).run session)) :
    Lands holds (reply fuel request session) := by
  rw [reply_eq]
  exact performed.bind fun _ _ _ known => known

theorem conclude_concluding (refs : List Ref) (target : Register) :
    Concluding fun result =>
      holdingStill refs (conclude target result : SessionM τ (Answer τ)) where
  follows result := holdingStill_follows refs (conclude_follows target result)
  spares value := holdingStill_follows refs (conclude_follows target (some value))
  refuses := holdingStill_refuses (Refuses.onMachine_bind fun _ => .reply trivial)

/-! ## Launching a call -/

/-- A request that runs code is over before any frame is entered, or it makes a call on an idle
machine. -/
inductive Launches (request : (fuel : Nat) → SessionM τ α) (session : Session τ)
    (touched : List Register) (lost : List Ref) : Prop where
  | settled (result : EStateM.Result (Stop Failure) (Session τ) (Except (Reply τ) α))
      (always : ∀ fuel, (request fuel).run session = result)
      (refuses : ∀ told after, result = .ok told after → Refused told)
      (leads : ∃ events, (still τ).within.Leads session events result)
  | calls (act : MachineM τ Ref → MachineM τ Ref) (start : Session τ) (held : List Ref)
      (rest : Option Ref → SessionM τ α)
      (calm : ∃ events, session.machine.Calm events start.machine)
      (spares : session.Spares touched lost start)
      (call : MachineM.HostCall act start.machine held) (known : lost ++ start.refs ⊆ held)
      (concluding : Concluding rest)
      (always : ∀ fuel, (request fuel).run session =
        (onMachine (MachineM.recording (act (MachineM.runFrame fuel))) >>= rest).run start)

/-- A request that is answered at once. -/
theorem Launches.reply {request : (fuel : Nat) → SessionM τ α} (reply : Reply τ)
    (refused : Refused (.error reply : Except (Reply τ) α))
    (always : ∀ fuel, (request fuel).run session = .ok (.error reply) session) :
    Launches request session touched lost := by
  refine .settled _ always (fun told after same => ?_) ⟨[], Calm.refl session.machine⟩
  cases same
  exact refused

/-- Something is done first. -/
theorem Launches.rebase {request other : (fuel : Nat) → SessionM τ α}
    (launches : Launches other start touched lost)
    (calm : ∃ events, session.machine.Calm events start.machine)
    (spares : session.Spares touched lost start)
    (reached : ∀ fuel, (request fuel).run session = (other fuel).run start) :
    Launches request session touched lost := by
  obtain ⟨events, calm⟩ := calm
  cases launches with
  | settled result always refuses leads =>
      obtain ⟨more, led⟩ := leads
      refine .settled result (fun fuel => (reached fuel).trans (always fuel)) refuses
        ⟨events ++ more, ?_⟩
      exact Course.Leads.head (calm : (still τ).within.goes session events start) led
  | calls act begun held rest later spares' call known concluding always =>
      obtain ⟨more, later⟩ := later
      exact .calls act begun held rest ⟨_, calm.trans later⟩ (spares.trans spares') call known
        concluding fun fuel => (reached fuel).trans (always fuel)

theorem Launches.bind_ok {first : SessionM τ α} {next : (fuel : Nat) → α → SessionM τ β} {value : α}
    (returned : first.run session = .ok (.ok value) start)
    (calm : ∃ events, session.machine.Calm events start.machine)
    (spares : session.Spares touched lost start)
    (launches : Launches (next · value) start touched lost) :
    Launches (fun fuel => first >>= next fuel) session touched lost :=
  launches.rebase calm spares fun _ => run_bind_ok returned

/-- The machine makes a call, and the session goes on. -/
theorem Launches.onMachine {call : (fuel : Nat) → MachineM τ (Option Ref)}
    {act : MachineM τ Ref → MachineM τ Ref} {rest : Option Ref → SessionM τ α}
    (begins : MachineM.Begins session.machine act held call) (known : lost ++ session.refs ⊆ held)
    (concluding : Concluding rest) :
    Launches (fun fuel => onMachine (call fuel) >>= rest) session touched lost := by
  obtain ⟨begun, events, calm, keeps, made, always⟩ := begins
  refine .calls act { session with machine := begun } held rest ⟨events, calm⟩
    (spares_of_keeps (keeps.mono known)) made known concluding fun fuel => ?_
  have same : (SessionM.onMachine (call fuel)).run session =
      (SessionM.onMachine (MachineM.recording (act (MachineM.runFrame fuel)))).run
        { session with machine := begun } := by
    obtain ⟨machine, registers, seen⟩ := session
    simp only at always
    simp only [SessionM.onMachine, ExceptT.lift, ExceptT.run, ExceptT.mk, Functor.map, EStateM.map,
      always]
  exact run_bind_congr same

theorem runWith_launches {sources : List Register} {argument : Option Register}
    {call : (fuel : Nat) → List Ref → Option Ref → MachineM τ (Option Ref)}
    (holds : session.Holds lost) (target : Register)
    (begins : ∀ {machine : Machine τ} {refs held : List Ref} {argument : Option Ref},
      refs.length = sources.length → refs ⊆ held → machine.Idle (argument.toList ++ held) →
      ∃ act, MachineM.Begins machine act held fun fuel => call fuel refs argument) :
    Launches (fun fuel => runWith target sources argument (call fuel)) session
      (target :: argument.toList) lost := by
  rcases readAll_cases session sources with ⟨refs, returned, reads⟩ | ⟨name, -, -, returned⟩
  rotate_left
  · exact .reply (.emptyRegister name) trivial fun fuel => by rw [runWith, run_bind_reply returned]
  refine .bind_ok returned ⟨[], Calm.refl _⟩ (.refl _ _ _) ?_
  rcases readAll_cases session argument.toList with ⟨_, returned', found⟩ | ⟨name, -, -, returned'⟩
  rotate_left
  · exact .reply (.emptyRegister name) trivial fun fuel => run_bind_reply returned'
  refine .bind_ok returned' ⟨[], Calm.refl _⟩ (.refl _ _ _) ?_
  obtain ⟨store, acquired, sound, same⟩ := StoreM.acquireAll_values holds.sound (reads.usable holds)
  let kept : Session τ := { session with machine := { session.machine with store } }
  have stays := holds.idle.ready.stays_of_leaves
    (⟨sound, same.keeps _⟩ : session.machine.store.Leaves _ _ _ store)
  have keptHolds : kept.Holds (refs ++ lost) := holds_of_stays holds stays
  have path : PlainPath session.machine.store store :=
    (StoreM.acquireAll_evolves refs).of_ok acquired
  refine .bind_ok (onStore_ok acquired) ⟨[], calm_store path⟩ (spares_of_stays stays) ?_
  -- The argument is taken out of its register, which holds one.
  obtain ⟨taken, final, emptied, left, untouched, spares⟩ :
      ∃ (taken : Option Ref) (final : Session τ),
        (takeAll argument.toList : SessionM τ (List Ref)).run kept = .ok (.ok taken.toList) final ∧
        final.Holds (taken.toList ++ (refs ++ lost)) ∧ final.machine = kept.machine ∧
        kept.Spares (target :: argument.toList) lost final := by
    cases argument with
    | none => exact ⟨none, kept, rfl, keptHolds, rfl, .refl _ _ _⟩
    | some name =>
        obtain _ | ⟨present, _⟩ := found
        have present : kept.registers.lookup name = some _ := present
        obtain ⟨taken, left⟩ := take_ok keptHolds present
        refine ⟨some _, _, ?_, left, rfl, spares_emptied (by simp)⟩
        show (takeAll [name]).run kept = _
        rw [takeAll, run_bind_ok taken]
        rfl
  have idle : final.machine.Idle (taken.toList ++ ((refs ++ lost) ++ final.refs)) := by
    rw [← List.append_assoc]
    exact left.idle
  have member : refs ⊆ (refs ++ lost) ++ final.refs :=
    fun ref inside => List.mem_append_left _ (List.mem_append_left _ inside)
  obtain ⟨act, begun⟩ := begins reads.length_eq.symm member idle
  have others : lost ++ final.refs ⊆ (refs ++ lost) ++ final.refs := by
    intro ref inside
    simp only [List.mem_append] at inside ⊢
    tauto
  have launched : Launches (fun fuel => SessionM.onMachine (call fuel refs taken) >>= fun result =>
      holdingStill refs (conclude target result)) final (target :: argument.toList) lost :=
    .onMachine begun others (conclude_concluding refs target)
  have reached (fuel : Nat) : (holdingStill refs (takeAll argument.toList >>= fun taken =>
      SessionM.onMachine (call fuel refs taken.head?) >>= conclude target)).run kept =
        (SessionM.onMachine (call fuel refs taken) >>= fun result =>
          holdingStill refs (conclude target result)).run final := by
    rw [holdingStill_bind emptied, Option.head?_toList, holdingStill_onMachine]
  have calm : kept.machine.Calm [] final.machine := untouched ▸ Calm.refl _
  exact launched.rebase ⟨[], calm⟩ spares reached

omit [Tracker τ] in
/-- What the machine does step by step, the session does. -/
theorem onMachine_bind {first : MachineM τ α} {next : α → MachineM τ β} :
    (onMachine (first >>= next)).run =
      (onMachine first >>= fun value => onMachine (next value)).run := by
  funext session
  cases ran : first session.machine with
  | ok value after =>
      rw [run_bind_ok (onMachine_ok ran), onMachine_run, onMachine_run, StoreM.bind_ok ran]
  | error stop after =>
      have stopped : (onMachine first).run session =
          .error stop { session with machine := after } := by
        rw [onMachine_run, ran]
      refine Eq.trans ?_ (bind_error stopped).symm
      rw [onMachine_run, bind_error ran]

/-- The host is given the value of what an image runs to, or a report. -/
def tellResult : Except Report Object → SessionM τ (Answer τ)
  | .ok object => return .object object
  | .error report => throw (.failed report)

omit [Tracker τ] in
theorem tellResult_follows {course : Course (Machine τ)} (result : Except Report Object) :
    Follows course (tellResult result : SessionM τ (Answer τ)) := by
  cases result with
  | ok object => exact .pure (Answer.object object)
  | error report => exact .reply _

theorem concludeImage_concluding (code globals : Ref) :
    Concluding fun result => onMachine (MachineM.concludeImage code globals result) >>=
      (tellResult : Except Report Object → SessionM τ (Answer τ)) where
  follows result := Follows.bind (.onMachine (MachineM.concludeImage_follows code globals result))
    tellResult_follows
  spares value := Follows.bind (.onMachine (MachineM.concludeImage_spares code globals value))
    tellResult_follows
  refuses := by
    have reports : (MachineM.concludeImage code globals none : MachineM τ (Except Report Object)) =
        MachineM.releaseAll [code, globals] >>= fun _ => MachineM.requireReport >>= fun report =>
          pure (.error report) := by
      simp only [MachineM.concludeImage, MachineM.takeObject, pure_bind]
    intro session told after answered
    rw [reports, run_bind_congr (congrFun onMachine_bind session), bind_assoc] at answered
    revert answered
    refine Refuses.onMachine_bind (fun _ session told after answered => ?_) session told after
    rw [run_bind_congr (congrFun onMachine_bind session), bind_assoc] at answered
    exact Refuses.onMachine_bind (fun report => show Refuses (throw (.failed report)) from
      .reply trivial) session told after answered

theorem runImage_launches (holds : session.Holds lost) (image : Image) :
    Launches (fun fuel => onMachine (MachineM.runImage fuel image) >>= tellResult) session touched
      lost := by
  rcases MachineM.runImage_cases holds.idle image with
    ⟨result, always, refuses, events, led⟩ |
      ⟨code, globals, loaded, events, calm, idle, keeps, always⟩
  · cases result with
    | ok value machine =>
        cases value with
        | ok object => exact absurd rfl (refuses object machine)
        | error report =>
            refine .settled (.ok (.error (.failed report)) { session with machine })
              (fun fuel => ?_) (fun told after same => ?_) ⟨events, led⟩
            · rw [run_bind_ok (onMachine_ok (always fuel))]
              rfl
            · obtain ⟨rfl, -⟩ := EStateM.Result.ok.inj same
              trivial
    | error stop machine =>
        have stopped (fuel : Nat) : (onMachine (MachineM.runImage fuel image)).run session =
            .error stop { session with machine } := by rw [onMachine_run, always]
        refine .settled (.error stop { session with machine })
          (fun fuel => bind_error (stopped fuel))
          (fun told after same => ?_) ⟨events, ?_⟩
        · cases same
        · cases stop <;> exact led
  · have holding : loaded.Idle ((none : Option Ref).toList ++ ([code, globals] ++
        (lost ++ session.refs))) := idle
    have begun := MachineM.evaluate_begins holding
      (by simp : [code, globals, globals] ⊆ [code, globals] ++ (lost ++ session.refs))
    have launched : Launches (fun fuel =>
        onMachine (MachineM.evaluate fuel code globals globals none) >>= fun result =>
          onMachine (MachineM.concludeImage code globals result) >>= tellResult)
        { session with machine := loaded } touched lost :=
      .onMachine begun (List.subset_append_right _ _) (concludeImage_concluding code globals)
    refine launched.rebase ⟨events, calm⟩ (spares_of_keeps keeps) fun fuel => ?_
    have same : (onMachine (MachineM.runImage fuel image)).run session =
        (onMachine (MachineM.evaluate fuel code globals globals none) >>= fun result =>
          onMachine (MachineM.concludeImage code globals result)).run
          { session with machine := loaded } := by
      rw [← onMachine_bind, onMachine_run, onMachine_run, always]
    rw [run_bind_congr same, bind_assoc]

theorem perform_launches (holds : session.Holds lost) {request : Request} (runs : request.runs) :
    Launches (fun fuel => perform fuel request) session request.touches lost := by
  cases request with
  | evaluate target code globals locals argument =>
      refine runWith_launches holds target fun full kept idle => ?_
      obtain ⟨first, second, third, rfl⟩ := List.length_eq_three.mp full
      exact ⟨_, MachineM.evaluate_begins idle kept⟩
  | call target callee argument =>
      refine runWith_launches holds target fun full kept idle => ?_
      obtain ⟨ref, rfl⟩ := List.length_eq_one_iff.mp full
      exact ⟨_, MachineM.invoke_begins idle (kept List.mem_cons_self)⟩
  | run image =>
      exact (runImage_launches holds image).rebase ⟨[], Calm.refl _⟩ (.refl _ _ _) fun _ => rfl
  | _ => cases runs

/-! ## Entering the first frame -/

/-- Where no steps are left to run a frame in, it is where the request stops. -/
theorem calling_halts (pending : List Ref) (rest : Option Ref → SessionM τ α)
    (session : Session τ) :
    (onMachine (MachineM.recording (MachineM.finishCall pending (MachineM.runFrame 0))) >>=
      rest).run session = .error .unfinished session := by
  have halted : MachineM.recording (MachineM.finishCall pending (MachineM.runFrame 0))
      session.machine = .error .unfinished session.machine := bind_error rfl
  refine run_bind_error ?_
  rw [onMachine_run, halted]

/-- A request is over without entering a frame, or its call enters one and goes on when that has
run. -/
inductive Starts (request : (fuel : Nat) → SessionM τ α) (session : Session τ)
    (touched : List Register) (lost : List Ref) : Prop where
  | settled (result : EStateM.Result (Stop Failure) (Session τ) (Except (Reply τ) α))
      (always : ∀ fuel, (request fuel).run session = result)
      (leads : ∃ events, (still τ).within.Leads session events result)
  | enters (act : MachineM τ Ref → MachineM τ Ref) (start : Session τ) (held pending : List Ref)
      (inside : Machine τ) (rest : Option Ref → SessionM τ α)
      (calm : ∃ events, session.machine.Calm events start.machine)
      (spares : session.Spares touched lost start)
      (call : MachineM.HostCall act start.machine held)
      (unchanging : ∀ run, act run start.machine = MachineM.finishCall pending run inside)
      (entered : MachineM.Entered start.machine held pending inside)
      (known : lost ++ start.refs ⊆ held) (concluding : Concluding rest)
      (always : ∀ fuel, (request fuel).run session = (onMachine (MachineM.recording
        (MachineM.finishCall pending (MachineM.runFrame fuel))) >>= rest).run
          { start with machine := inside })

theorem Launches.starts {request : (fuel : Nat) → SessionM τ α}
    (launches : Launches request session touched lost) : Starts request session touched lost := by
  cases launches with
  | settled result always refuses leads => exact .settled result always leads
  | calls act start held rest calm spares call known concluding always =>
      have calling {run other : MachineM τ Ref} {next : Machine τ}
          (same : act run start.machine = other next) :
          (SessionM.onMachine (MachineM.recording (act run)) >>= rest).run start =
            (SessionM.onMachine (MachineM.recording other) >>= rest).run
              { start with machine := next } := by
        refine run_bind_congr ?_
        have recorded : MachineM.recording (act run) start.machine =
            MachineM.recording other next := MachineM.bind_congr_at (by rw [attempt, attempt, same])
        rw [onMachine_run, onMachine_run, recorded]
      cases call.calls with
      | direct result unchanging settles =>
          -- The call comes to the same whatever frames do, and enters none if running one is
          -- a broken promise.
          let idle : MachineM τ Ref := throw (.fault .idle)
          have follows : Follows (still τ)
              (SessionM.onMachine (MachineM.recording (act idle)) >>= rest) :=
            Follows.bind (.onMachine (MachineM.recording_follows
              (call.follows (MachineM.evaluates_fault .idle)))) concluding.follows
          obtain ⟨events, -, led⟩ := follows start
          obtain ⟨earlier, calm⟩ := calm
          refine .settled _ (fun fuel => (always fuel).trans
            (calling ((unchanging _).trans (unchanging idle).symm))) ⟨earlier ++ events, ?_⟩
          exact Course.Leads.head (calm : (still τ).within.goes session earlier start) led
      | enters pending inside unchanging entered =>
          exact .enters act start held pending inside rest calm spares call unchanging entered
            known concluding fun fuel => (always fuel).trans (calling (unchanging _))

end SessionM

end StackMachine
