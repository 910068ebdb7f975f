import StackMachine.Proofs.Evolution.Launching
import StackMachine.Proofs.Machine.Delivery
import StackMachine.Proofs.Tracking.Runs

/-!
# What becomes of a refusal

A tracker that refuses something while code runs ends the run, unless it was a table that a
dictionary was to be rebuilt in and can do without.  The refusal is the cause that the
instruction at work fails with, no instruction is carried out any more, and the error that
the host gets is of the refusal's kind.

While the error is recorded and the frames are left, objects for its message and for the
entries of its traceback may be refused as well.  They are left out.

All of this is read off the log of a watched tracker, in whose place the tracker itself does
the same.
-/

namespace StackMachine

open Outcome Watching

variable {τ ρ π : Type} [Tracker τ] [Tracker ρ] [Tracker π] {view : View τ ρ π}

namespace Outcome

variable {φ σ ψ α β : Type} [Watching σ ψ τ ρ] {act : EStateM (Stop φ) σ α}
variable {other : EStateM (Stop φ) ψ α} {next : α → EStateM (Stop φ) σ β}
variable {state start after : σ} {value : α} {stop : Stop φ} {allowed : Entry → Prop}

theorem Mirrors.of_ok {returns : α → σ → Prop} {stops : Stop φ → σ → Prop}
    (mirrors : Mirrors act other state returns stops) (ran : act state = .ok value after) :
    returns value after := by
  cases mirrors with
  | ok _ _ found _ _ holds =>
      cases ran.symm.trans found
      exact holds
  | error _ _ found => cases ran.symm.trans found

theorem Mirrors.of_error {returns : α → σ → Prop} {stops : Stop φ → σ → Prop}
    (mirrors : Mirrors act other state returns stops) (ran : act state = .error stop after) :
    stops stop after := by
  cases mirrors with
  | ok _ _ found => cases ran.symm.trans found
  | error _ _ found _ _ holds =>
      cases ran.symm.trans found
      exact holds

/-- What is seen of a result. -/
def seen : EStateM.Result (Stop φ) σ α → EStateM.Result (Stop φ) ψ α
  | .ok value state => .ok value (plain state)
  | .error stop state => .error stop (plain state)

/-- Where there is nothing to disagree about, what is seen ends as the run does. -/
theorem Mirrors.seen {returns : α → σ → Prop} {stops : Stop φ → σ → Prop}
    (mirrors : Mirrors act other state returns stops) (agreed : ∀ state : σ, Agreed state) :
    other (plain state) = Outcome.seen (act state) := by
  cases mirrors with
  | ok value after ran same => rw [ran, same (agreed after), Outcome.seen]
  | error stop after ran same => rw [ran, same (agreed after), Outcome.seen]

/-! ## Failing tidily -/

/-- The end of an operation that does not return.  Where it fails, it has made only entries
that are allowed since it came from `start`. -/
def Succumbs (allowed : Entry → Prop) (start : σ) : EStateM.Result (Stop φ) σ α → Prop
  | .ok _ _ => False
  | .error (.failed _) after => Adds allowed start after
  | .error _ _ => True

namespace Succumbs

theorem throw {failure : φ} (adds : Adds allowed start state) :
    Succumbs allowed start ((throw (.failed failure) : EStateM (Stop φ) σ α) state) :=
  adds

theorem bind (first : Succumbs allowed start (act state)) :
    Succumbs allowed start ((act >>= next) state) := by
  cases ran : act state with
  | ok value after =>
      rw [ran] at first
      exact first.elim
  | error stop after =>
      rw [ran] at first
      rw [bind_error ran]
      cases stop <;> exact first

theorem after_attempt {next : Except φ α → EStateM (Stop φ) σ β}
    (first : Succumbs allowed start (act state))
    (rest : ∀ failure after, Adds allowed start after →
      Succumbs allowed start (next (.error failure) after)) :
    Succumbs allowed start ((attempt act >>= next) state) := by
  cases ran : act state with
  | ok value after =>
      rw [ran] at first
      exact first.elim
  | error stop after =>
      rw [ran] at first
      cases stop with
      | failed failure =>
          rw [StoreM.bind_ok (attempt_failed ran)]
          exact rest failure after first
      | fault broken =>
          rw [bind_error (attempt_fault ran)]
          trivial
      | unfinished =>
          rw [bind_error (attempt_unfinished ran)]
          trivial

theorem after_tidies (tidies : Tidies allowed act other) (adds : Adds allowed start state)
    (rest : ∀ value after, Adds allowed start after →
      Succumbs allowed start (next value after)) :
    Succumbs allowed start ((act >>= next) state) := by
  have first := tidies state
  cases ran : act state with
  | ok value after =>
      rw [StoreM.bind_ok ran]
      exact rest value after (adds.trans (first.of_ok ran))
  | error stop after =>
      obtain ⟨broken, rfl⟩ := first.of_error ran
      rw [bind_error ran]
      trivial

end Succumbs

end Outcome

/-! ## Where errors arise -/

namespace MachineM

/-- A failure with a cause comes up in something that is begun in a certain state: in the
operation that a call consists of, before it runs a frame, in an instruction, or where a break
is looked after by no loop. -/
inductive Arises (act : MachineM τ Ref → MachineM τ Ref) :
    (origin : Machine τ) → Cause → (failing : Machine τ) → Prop where
  | call {begun failing : Machine τ} {cause : Cause}
      (failed : ∀ run, act run begun = .error (.failed (.raised cause)) failing) :
      Arises act begun cause failing
  | instruction {fuel : Nat} {begun failing : Machine τ} {cause : Cause}
      (failed : step (runFrame fuel) begun = .error (.failed (.raised cause)) failing) :
      Arises act begun cause failing
  | escape {begun failing : Machine τ} (uncaught : unwind .breaking begun = .ok false failing) :
      Arises act begun .breakOutsideLoop failing

variable {act : MachineM (Seen view) Ref → MachineM (Seen view) Ref}
variable {machine begun failing after : Machine (Seen view)} {fuel : Nat} {cause : Cause}
variable {executed : List Fetched} {histories : List (List Fetched)} {since : List Entry}

/-- No refusal has been met on the way to where an error arises, and it arises from those that
are met there. -/
def Accounted (act : MachineM (Seen view) Ref → MachineM (Seen view) Ref) (since : List Entry)
    (cause : Cause) (failing : Machine (Seen view)) : Prop :=
  ∃ origin, Arises act origin cause failing ∧
    Fate.fine.Accounts since origin.store.tracker.log ∧
    (Fate.failing cause).Accounts origin.store.tracker.log failing.store.tracker.log

/-- A frame that is not run meets no refusal. -/
theorem unfinished_heeds : Heeds view (throw .unfinished : MachineM (Seen view) Ref)
    (throw .unfinished : MachineM π Ref) :=
  .unfinished

/-- What enters a frame meets no refusal before the frame runs. -/
theorem accounts_of_called {α : Type} {act : MachineM (Seen view) α} {other : MachineM π α}
    {inside : Machine (Seen view)} (heeds : Heeds view act other)
    (accounts : Fate.fine.Accounts since machine.store.tracker.log)
    (halted : act machine = .error .unfinished inside) :
    Fate.fine.Accounts since inside.store.tracker.log :=
  (heeds machine since accounts).of_error halted

theorem Errs.accounted (errs : Errs fuel executed machine histories cause failing)
    (accounts : Fate.fine.Accounts since machine.store.tracker.log) :
    Accounted act since cause failing := by
  induction errs with
  | @next fuel _ machine _ _ _ _ _ _ stepped _ ih =>
      exact ih ((step_heeds (runFrame_heeds fuel) machine since accounts).of_ok stepped)
  | @breaks fuel _ machine middle _ _ _ _ _ _ stepped caught _ ih =>
      have known := (step_heeds (runFrame_heeds fuel) machine since accounts).of_ok stepped
      have cleans : Cleans view (unwind .breaking) (unwind .breaking) :=
        unwind_cleans Unwinding.noConfusion
      exact ih ((cleans.heeds middle since known).of_ok caught)
  | @inside fuel _ machine _ _ _ _ _ _ _ called _ ih =>
      exact ih (accounts_of_called (step_heeds unfinished_heeds) accounts (called _))
  | @fails fuel _ machine failing cause failed =>
      exact ⟨machine, .instruction failed, accounts,
        (step_heeds (runFrame_heeds fuel) machine _ (.refl _ _)).of_error failed⟩
  | @escapes fuel _ machine middle failing _ _ stepped uncaught =>
      have known := (step_heeds (runFrame_heeds fuel) machine since accounts).of_ok stepped
      have cleans : Cleans view (unwind .breaking) (unwind .breaking) :=
        unwind_cleans Unwinding.noConfusion
      exact ⟨middle, .escape uncaught, known,
        ((cleans.heeds middle _ (.refl _ _)).of_ok uncaught).admitted _⟩

/-- A failure is recorded, and it leaves the frame at work. -/
theorem succumbs_of_failed {failure : Failure}
    (adds : Adds Entry.Minor failing machine) :
    Succumbs Entry.Minor failing ((do
      record failure
      let _ ← unwind .error
      throw (.failed .recorded) : MachineM (Seen view) Ref) machine) := by
  have recorded : Notes view (record failure) (record failure) := record_notes failure
  have unwound : Notes view (unwind .error) (unwind .error) := unwind_notes .error
  exact .after_tidies recorded adds fun _ _ adds => .after_tidies unwound adds fun _ _ adds =>
    .throw adds

/-- From where an error arises, the frame fails, and it meets no refusal but of objects that
can be done without. -/
theorem Errs.succumbs (errs : Errs fuel executed machine histories cause failing) :
    Succumbs Entry.Minor failing (runFrame fuel machine) := by
  have left : Cleans view leaveFrame leaveFrame := leaveFrame_cleans
  have failed {fuel : Nat} {machine failing : Machine (Seen view)}
      (stepped : Succumbs Entry.Minor failing (step (runFrame fuel) machine)) :
      Succumbs Entry.Minor failing (runFrame (fuel + 1) machine) :=
    stepped.after_attempt fun failure after adds => succumbs_of_failed adds
  induction errs with
  | @next fuel _ machine after _ _ _ _ _ stepped _ ih =>
      rw [runFrame, StoreM.bind_ok (attempt_ok stepped)]
      exact ih
  | @breaks fuel _ machine middle _ _ _ _ _ _ stepped caught _ ih =>
      rw [runFrame, StoreM.bind_ok (attempt_ok stepped)]
      simp only
      rw [StoreM.bind_ok caught]
      exact ih
  | @inside fuel _ machine inside failing _ _ _ pending _ called _ ih =>
      have released : Cleans view (releaseAll pending) (releaseAll pending) :=
        releaseAll_cleans pending
      have finished : Succumbs Entry.Minor failing (finishCall pending (runFrame fuel) inside) :=
        ih.after_attempt fun failure after adds =>
          .after_tidies left.notes adds fun _ _ adds =>
            .after_tidies released.notes adds fun _ _ adds => .throw adds
      refine failed ?_
      rw [called]
      exact finished.bind
  | fails stopped =>
      refine failed ?_
      rw [stopped]
      exact Adds.refl Entry.Minor _
  | @escapes fuel _ machine middle failing _ _ stepped uncaught =>
      have noted : Notes view (setErrorCause .breakOutsideLoop) (setErrorCause .breakOutsideLoop) :=
        setErrorCause_notes .breakOutsideLoop
      have pushed : Notes view pushTraceback pushTraceback := pushTraceback_notes
      rw [runFrame, StoreM.bind_ok (attempt_ok stepped)]
      simp only
      rw [StoreM.bind_ok uncaught]
      exact .after_tidies noted (.refl _ failing) fun _ _ adds =>
        .after_tidies pushed adds fun _ _ adds => .throw adds

/-! ## Calls from the host -/

theorem Origin.accounted (origin : Origin fuel act begun histories cause failing)
    {other : MachineM π Ref} (heeds : Heeds view (act (throw .unfinished)) other)
    (accounts : Fate.fine.Accounts since begun.store.tracker.log) :
    Accounted act since cause failing := by
  cases origin with
  | direct failed =>
      have ended := (heeds begun _ (.refl _ _)).of_error (failed (throw .unfinished))
      exact ⟨begun, .call failed, accounts, ended⟩
  | inside called errs =>
      exact errs.accounted (accounts_of_called heeds accounts (called (throw .unfinished)))

/-- An error that arose is recorded, and whatever was refused meanwhile could be done without. -/
theorem Origin.adds (origin : Origin fuel act begun histories cause failing)
    (recorded : recording (act (runFrame fuel)) begun = .ok none after) :
    Adds Entry.Minor failing after := by
  have left : Cleans view leaveFrame leaveFrame := leaveFrame_cleans
  have succumbs : Succumbs Entry.Minor failing (act (runFrame fuel) begun) := by
    cases origin with
    | direct failed =>
        rw [failed]
        exact Adds.refl Entry.Minor failing
    | @inside pending inside _ _ _ called errs =>
        have released : Cleans view (releaseAll pending) (releaseAll pending) :=
          releaseAll_cleans pending
        rw [called]
        exact errs.succumbs.after_attempt fun failure after adds =>
          .after_tidies left.notes adds fun _ _ adds =>
            .after_tidies released.notes adds fun _ _ adds => .throw adds
  obtain ⟨failure, middle, failed⟩ := recording_none recorded
  rw [failed] at succumbs
  rw [recording, StoreM.bind_ok (attempt_failed failed)] at recorded
  obtain ⟨_, _, noted, returned⟩ := bind_eq_ok recorded
  cases returned
  have notes : Notes view (record failure) (record failure) := record_notes failure
  exact succumbs.trans ((notes middle).of_ok noted)

/-- A call came to an error, which the host gets: it is of the kind of its cause. -/
structure EndsCall (act : MachineM (Seen view) Ref → MachineM (Seen view) Ref)
    (since : List Entry) (cause : Cause) (after : Machine (Seen view)) : Prop where
  kind : errorKind after = .ok (some cause.kind) after
  arisen : ∃ histories failing, Reached failing histories cause after ∧
    Accounted act since cause failing ∧ Adds Entry.Minor failing after

/-- What is known of the refusals in a call, from how it ends. -/
def HeedsCall (act : MachineM (Seen view) Ref → MachineM (Seen view) Ref) (since : List Entry) :
    EStateM.Result (Stop Failure) (Machine (Seen view)) (Option Ref) → Prop
  | .ok (some _) after | .error .unfinished after =>
      Fate.fine.Accounts since after.store.tracker.log
  | .ok none after => ∃ cause, EndsCall act since cause after
  | .error _ _ => False

/-- The kind that a report tells is that of the error that was set. -/
theorem takeReport_kind {machine after : Machine τ} {report : Report}
    (taken : takeReport machine = .ok (some report) after) :
    errorKind machine = .ok report.kind machine := by
  obtain ⟨pair, _, took, taken⟩ := bind_eq_ok taken
  rw [takeError_eq] at took
  cases took
  cases set : machine.error with
  | none =>
      rw [set] at taken
      cases taken
  | some pair =>
      obtain ⟨error, value⟩ := pair
      rw [set] at taken
      obtain ⟨text, _, -, taken⟩ := bind_eq_ok taken
      obtain ⟨message, _, -, taken⟩ := bind_eq_ok taken
      obtain ⟨points, _, -, taken⟩ := bind_eq_ok taken
      obtain ⟨_, _, -, returned⟩ := bind_eq_ok taken
      cases returned
      show EStateM.Result.ok (machine.error.bind _) machine = _
      rw [set]
      rfl

theorem requireReport_kind {machine after : Machine τ} {report : Report}
    (required : requireReport machine = .ok report after) :
    errorKind machine = .ok report.kind machine := by
  obtain ⟨taken, _, took, required⟩ := bind_eq_ok required
  cases taken with
  | none => cases required
  | some report =>
      cases required
      exact takeReport_kind took

theorem heedsCall_of_delivers {otherAct : MachineM π Ref → MachineM π Ref}
    (heeds : ∀ {run : MachineM (Seen view) Ref} {other : MachineM π Ref}, Heeds view run other →
      Heeds view (act run) (otherAct other))
    (delivers : Ends ((beginCall >>= fun _ => recording (act (runFrame fuel))) machine)
      (Delivers fuel act machine) fun _ _ => False)
    (accounts : Fate.fine.Accounts since machine.store.tracker.log) :
    HeedsCall act since ((beginCall >>= fun _ => recording (act (runFrame fuel))) machine) := by
  have began : Heeds view beginCall beginCall := beginCall_cleans.heeds
  have watches : Watches .fine (beginCall >>= fun _ => recording (act (runFrame fuel)))
      (beginCall >>= fun _ => recording (otherAct (runFrame fuel))) callFate :=
    began.bind fun _ => recording_watches (heeds (runFrame_heeds fuel))
  have known := watches machine since accounts
  cases ran : (beginCall >>= fun _ => recording (act (runFrame fuel))) machine with
  | ok result after =>
      cases result with
      | some value => exact known.of_ok ran
      | none =>
          obtain ⟨begun, histories, cause, failing, beginning, origin, reached⟩ :=
            (delivers.of_ok ran).2 rfl
          obtain ⟨_, _, same, recorded⟩ := bind_eq_ok ran
          cases beginning.symm.trans same
          obtain ⟨report, final, taken, kind, -⟩ := reached.report
          have begun := (began machine since accounts).of_ok same
          refine ⟨cause, ?_, histories, failing, reached,
            origin.accounted (heeds unfinished_heeds) begun, origin.adds recorded⟩
          rw [takeReport_kind taken, kind]
  | error stop after =>
      rw [ran] at delivers
      cases stop with
      | failed failure => exact delivers
      | fault broken => exact delivers
      | unfinished => exact known.of_error ran

/-- What is known of the refusals in the run of an image, from how it ends.  If it ends with an
error, its code has not been loaded, or it ended with that error. -/
def HeedsRun (since : List Entry) :
    EStateM.Result (Stop Failure) (Machine (Seen view)) (Except Report Object) → Prop
  | .ok (.ok _) after | .error .unfinished after => Fate.fine.Accounts since after.store.tracker.log
  | .ok (.error report) after => ∃ cause, report.kind = some cause.kind ∧
      ((Fate.failing cause).Accounts since after.store.tracker.log ∨
        ∃ (code globals : Ref) (ended : Machine (Seen view)),
          EndsCall (fun run => evaluateCode run code globals globals none) since cause ended ∧
            Fate.fine.Accounts ended.store.tracker.log after.store.tracker.log)
  | .error _ _ => False

/-- Once the code of an image has been run, it ends as the call did. -/
theorem concludeImage_heedsRun {code globals : Ref} {held : List Ref}
    (idle : machine.Idle ([code, globals] ++ held))
    (heeds : HeedsCall (fun run => evaluateCode run code globals globals none) since
      (evaluate fuel code globals globals none machine)) :
    HeedsRun since ((evaluate fuel code globals globals none >>=
      concludeImage code globals) machine) := by
  have holding : machine.Idle ((none : Option Ref).toList ++ ([code, globals] ++ held)) := idle
  have concludes := evaluate_ends fuel holding
    (by simp : [code, globals, globals] ⊆ [code, globals] ++ held)
  cases ran : evaluate fuel code globals globals none machine with
  | error stop after =>
      rw [ran] at heeds
      rw [bind_error ran]
      cases stop with
      | failed failure => exact heeds
      | fault broken => exact heeds
      | unfinished => exact heeds
  | ok result ended =>
      rw [ran] at heeds
      rw [StoreM.bind_ok ran]
      have left := concludes.of_ok ran
      obtain ⟨object, taken, took, rest, error, none_iff, -⟩ := takeObject_ok left.idle
      obtain ⟨after, released, still, same, -⟩ := releaseAll_idle rest
      have released' : Cleans view (releaseAll [code, globals]) (releaseAll [code, globals]) :=
        releaseAll_cleans [code, globals]
      rw [concludeImage, StoreM.bind_ok took, StoreM.bind_ok released]
      have shown : Heeds view (takeObject result) (takeObject result) := takeObject_heeds result
      have tidied (since : List Entry) (known : Fate.fine.Accounts since ended.store.tracker.log) :
          Fate.fine.Accounts since after.store.tracker.log :=
        (released'.heeds taken since ((shown ended since known).of_ok took)).of_ok released
      cases object with
      | some object =>
          cases result with
          | none => cases none_iff.mpr rfl
          | some value => exact tidied since heeds
      | none =>
          obtain rfl := none_iff.mp rfl
          obtain ⟨cause, ends⟩ := heeds
          have isSet : after.error.isSome := by
            rw [same, error]
            exact left.error.mp rfl
          obtain ⟨report, final, reported, -⟩ := requireReport_ok still isSet
          simp only
          rw [StoreM.bind_ok reported]
          have told : Heeds view requireReport requireReport := requireReport_heeds
          refine ⟨cause, ?_, Or.inr ⟨code, globals, ended, ends, ?_⟩⟩
          · have known : EStateM.Result.ok (after.error.bind _) after =
                .ok report.kind after := requireReport_kind reported
            have kind : EStateM.Result.ok (ended.error.bind _) ended =
                .ok (some cause.kind) ended := ends.kind
            rw [same, error] at known
            injection known with known
            injection kind with kind
            exact known.symm.trans kind
          · exact (told after _ (tidied _ (.refl .fine ended.store.tracker.log))).of_ok reported

theorem evaluate_heedsCall {code globals locals : Ref} {argument : Option Ref} {held : List Ref}
    (idle : machine.Idle (argument.toList ++ held)) (parts : [code, globals, locals] ⊆ held)
    (accounts : Fate.fine.Accounts since machine.store.tracker.log) :
    HeedsCall (fun run => evaluateCode run code globals locals argument) since
      (evaluate fuel code globals locals argument machine) :=
  heedsCall_of_delivers (fun runs => evaluateCode_heeds runs code globals locals argument)
    (evaluate_delivers fuel idle parts) accounts

theorem invoke_heedsCall {callee : Ref} {argument : Option Ref} {held : List Ref}
    (idle : machine.Idle (argument.toList ++ held)) (member : callee ∈ held)
    (accounts : Fate.fine.Accounts since machine.store.tracker.log) :
    HeedsCall (fun run => call run callee argument) since (invoke fuel callee argument machine) :=
  heedsCall_of_delivers (fun runs => call_heeds runs callee argument)
    (invoke_delivers fuel idle member) accounts

omit [Tracker τ] in
/-- An operation on the store that stops. -/
theorem onStore_stops {α : Type} {act : StoreM τ α} {machine : Machine τ} {stop : Stop Cause}
    {store : Store τ} (stopped : act machine.store = .error stop store) :
    onStore act machine = .error stop.raised { machine with store } := by
  obtain ⟨before, values, frames, error, traceback, tracer⟩ := machine
  unfold onStore
  simp only at stopped ⊢
  rw [stopped]

theorem runImage_heedsRun {held : List Ref} (idle : machine.Idle held) (image : Image)
    (accounts : Fate.fine.Accounts since machine.store.tracker.log) :
    HeedsRun since (runImage fuel image machine) := by
  have prepares : StoreM.Heeds view (prepare image) (prepare image) := prepare_heeds image
  have loading := prepares machine.store since accounts
  have prepared := reporting_answers idle (prepare_accounts idle.ready.sound image)
  unfold Answers at prepared
  cases loaded : prepare image machine.store with
  | ok parts store =>
      obtain ⟨code, module, globals⟩ := parts
      have known := loading.of_ok loaded
      have handed : reporting (prepare image) machine =
          .ok (.ok (code, module, globals)) { machine with store } := by
        refine onStore_eq ?_
        rw [StoreM.reporting, StoreM.bind_ok (attempt_ok loaded)]
        rfl
      have owned : ({ machine with store } : Machine (Seen view)).Idle
          ([module] ++ ([code, globals] ++ held)) := (prepared.of_ok handed).1
      obtain ⟨ready, released, rest, -⟩ := releaseAll_idle owned
      have cleans : Cleans view (releaseAll [module]) (releaseAll [module]) :=
        releaseAll_cleans [module]
      have known := (cleans.heeds _ since known).of_ok released
      rw [runImage, StoreM.bind_ok handed]
      simp only
      rw [StoreM.bind_ok released]
      have holding : ready.Idle ((none : Option Ref).toList ++ ([code, globals] ++ held)) := rest
      exact concludeImage_heedsRun rest (evaluate_heedsCall holding (by simp) known)
  | error stop store =>
      have known := loading.of_error loaded
      cases stop with
      | failed cause =>
          have reported : reporting (prepare image) machine =
              .ok (.error (.ofCause cause)) { machine with store } := by
            refine onStore_eq ?_
            rw [StoreM.reporting, StoreM.bind_ok (attempt_failed loaded)]
            rfl
          rw [runImage, StoreM.bind_ok reported]
          exact ⟨cause, rfl, Or.inl known⟩
      | fault broken =>
          have faulted : reporting (prepare image) machine = .error (.fault broken)
              { machine with store } := onStore_stops (bind_error (attempt_fault loaded))
          rw [faulted] at prepared
          exact prepared.elim
      | unfinished =>
          have halted : reporting (prepare image) machine = .error .unfinished
              { machine with store } := onStore_stops (bind_error (attempt_unfinished loaded))
          rw [runImage, bind_error halted]
          exact known

end MachineM

/-! ## Watching a machine -/

/-- A machine whose tracker is watched from now on. -/
def Machine.watched (machine : Machine τ) : Machine (Seen (View.tracker τ Unlimited)) where
  store := ⟨machine.store.cells, machine.store.free, .start machine.store.tracker Unlimited.mk⟩
  values := machine.values
  frames := machine.frames
  error := machine.error
  traceback := machine.traceback
  tracer := machine.tracer

namespace Machine

open Store

variable {machine : Machine τ} {held inner : List Ref}

theorem watched_sound (sound : machine.store.Sound held inner) :
    machine.watched.store.Sound held inner where
  exact := ⟨sound.exact.count_eq, sound.exact.count_pos, sound.exact.free_nodup,
    sound.exact.mem_free⟩
  whole := sound.whole
  fits := fun ref payload found child role member =>
    have meets := sound.fits ref payload found child role member
    ⟨meets.ne_builtins, meets.ne_modules, meets.allowed⟩
  tables := sound.tables
  values := fun ref member =>
    have meets := sound.values ref member
    ⟨meets.ne_builtins, meets.ne_modules, meets.allowed⟩
  lone_none := sound.lone_none
  originals := sound.originals
  modules_dict := sound.modules_dict

/-- A machine that is watched is as idle as it was. -/
theorem Idle.watched (idle : machine.Idle held) : machine.watched.Idle held where
  ready :=
    { sound := watched_sound idle.ready.sound
      placed := fun activation member => by
        have none : machine.watched.frames.items = [] := idle.frames
        rw [none] at member
        cases member
      headed := idle.ready.headed
      stacked := idle.ready.stacked }
  frames := idle.frames
  values := idle.values

end Machine

namespace MachineM

/-- A machine does what it does when it is watched. -/
theorem calls_seen (fuel : Nat) (machine : Machine τ) (argument : Option Ref) :
    (∀ code globals locals, evaluate fuel code globals locals argument machine =
      seen (evaluate fuel code globals locals argument machine.watched)) ∧
    (∀ callee, invoke fuel callee argument machine =
      seen (invoke fuel callee argument machine.watched)) ∧
    ∀ image, runImage fuel image machine = seen (runImage fuel image machine.watched) := by
  have agreed (state : Machine (Seen (View.tracker τ Unlimited))) : Agreed state :=
    fun _ _ => trivial
  refine ⟨fun code globals locals => ?_, fun callee => ?_, fun image => ?_⟩
  · exact ((evaluate_watches fuel code globals locals argument).follows machine.watched).seen agreed
  · exact ((invoke_watches fuel callee argument).follows machine.watched).seen agreed
  · exact (runImage_mirrors _ fuel image machine.watched (.refl _ _)).seen agreed

end MachineM

end StackMachine
