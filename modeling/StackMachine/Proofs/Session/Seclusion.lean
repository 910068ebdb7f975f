import StackMachine.Proofs.Evolution.Layers
import StackMachine.Proofs.Session.Attained

/-!
# Frames and tracebacks are the machine's own

Nobody but the machine ever gets hold of a frame or of an entry of a traceback: none is among
the values, in a container, an attribute, the current error, or with the host.  Where no frame
is active and there is no traceback, there is none of them at all.  This is so after every run
that came to a result, and once the error has been cleared or taken out as a report.
-/

namespace StackMachine

open Store Outcome Machine Session

variable {τ : Type} [Tracker τ]

namespace MachineM

variable {machine inside visited : Machine τ} {callers : List Activation}
variable {below held pending : List Ref} {fuel : Nat} {events : List Event}
variable {act : MachineM τ Ref → MachineM τ Ref}

/-! ## Layers in all that is attained -/

/-- A call from the host opens the frame that it enters. -/
theorem HostCall.opens (call : HostCall act machine held)
    (always : ∀ run, act run machine = finishCall pending run inside)
    (entered : Entered machine held pending inside) : ∃ events, machine.Opened events inside := by
  obtain ⟨events, -, led⟩ := call.follows evaluates_plain machine
  rw [always] at led
  refine ⟨events, led ?_⟩
  obtain ⟨activation, -, inner⟩ := entered.within
  rw [Stack.height_eq, Stack.height_eq, inner.frames]
  simp

theorem HostCall.layered (call : HostCall act machine held) (layered : machine.store.Layered)
    (fuel : Nat) : LandsLayered (recording (act (runFrame fuel)) machine) := by
  have acted : LandsLayered (act (runFrame fuel) machine) := by
    cases call.calls with
    | direct result always settles =>
        rw [always, ← always (throw (.fault .idle))]
        exact lands_of_follows layered (call.follows (evaluates_fault .idle))
    | enters pending inside always entered =>
        obtain ⟨taken, idle⟩ := call.idle
        obtain ⟨events, opened⟩ := call.opens always entered
        obtain ⟨activation, -, inner⟩ := entered.within
        rw [always]
        refine finishCall_lands preserves_layered pending
          (runFrame_layered fuel inner (entered.error.trans call.quiet) ?_)
        exact opened.layered idle.ready inner.ready layered
  exact recording_lands preserves_layered acted

theorem Visits.layered (visits : Visits fuel machine events visited)
    (working : machine.Working callers below held) (layered : machine.store.Layered) :
    visited.store.Layered := by
  induction visits generalizing callers below held with
  | here machine => exact layered
  | @next fuel _ _ _ _ _ stepped rest ih =>
      obtain ⟨activation, within⟩ := working.within
      have lands := step_layered (runFrame_layered fuel) within working.quiet layered
      have kept := lands.of_ok stepped.ran
      exact ih (working.step stepped.ran rfl).of_retrace kept
  | @breaks fuel _ middle _ _ _ _ _ stepped caught rest ih =>
      obtain ⟨activation, within⟩ := working.within
      have left : (loose τ).Follows (unwind .breaking : MachineM τ Bool) :=
        unwind_quiet_follows (by simp)
      have lands := step_layered (runFrame_layered fuel) within working.quiet layered
      have broken : middle.store.Layered := (lands.of_ok stepped.ran :)
      have kept := (lands_of_follows broken left).of_ok caught.ran
      exact ih ((working.step stepped.ran rfl).of_retrace.unwind caught.ran).of_retrace kept
  | inside halts deeper rest ih =>
      obtain ⟨_, opened⟩ := halts.halts (step_follows evaluates_plain)
      obtain ⟨current, own, pending, started, -⟩ := working.enter halts.ran deeper
      obtain ⟨activation, within⟩ := working.within
      obtain ⟨new, inner⟩ := started.of_retrace.within
      exact ih started.of_retrace
        ((opened deeper).of_retrace.layered within.ready inner.ready layered)

end MachineM

namespace Session

variable {session begun after : Session τ} {lost held : List Ref} {log events : List Event}
variable {initial : τ} {fuel : Nat} {request : Request} {answer : Reply τ}

theorem reply_layered (holds : session.Holds lost) (layered : session.machine.store.Layered)
    (replied : SessionM.reply fuel request session = .ok answer after) :
    after.machine.store.Layered := by
  have performed : Lands (fun after : Session τ => after.machine.store.Layered)
      ((SessionM.perform fuel request).run session) := by
    cases runs : request.runs with
    | false =>
        by_cases asks : request = .trace
        · subst asks
          exact layered
        · have follows : SessionM.Follows (loose τ) (SessionM.perform fuel request) :=
            SessionM.perform_follows asks fun isRun => absurd isRun (by simp [runs])
          exact follows.lands fun _ _ path => layered.of_path path
    | true =>
        cases SessionM.perform_launches holds runs with
        | settled result always refuses leads =>
            obtain ⟨events, led⟩ := leads
            rw [always]
            exact led.lands fun _ calm => layered.of_path calm.path
        | calls act start held rest calm _ call known concluding always =>
            obtain ⟨events, calm⟩ := calm
            have ran := call.layered (layered.of_path calm.path) fuel
            rw [always]
            exact concluding.lands MachineM.preserves_layered ran
  exact (SessionM.reply_lands performed).of_ok replied

theorem Logged.layered (logged : session.Logged initial lost log) :
    session.machine.store.Layered := by
  induction logged with
  | start tracer => exact initial_layered initial
  | @reply before after _ _ _ fuel request earlier replied ih =>
      obtain ⟨answer, replied⟩ := replied before.machine.tracer
      have replied : SessionM.reply fuel request before = .ok answer
        (Traced.retrace (before.machine.tracer.observeAll _) after) := replied
      have kept := reply_layered earlier.holds ih replied
      exact kept

theorem Attained.layered (attained : session.Attained initial lost log) :
    session.machine.store.Layered := by
  cases attained with
  | rest logged => exact logged.layered
  | busy request fuel logged halts active visits =>
      obtain ⟨held, working, -⟩ := logged.working halts active
      obtain ⟨activation, within⟩ := working.within
      exact visits.layered working ((logged.opened halts active).layered logged.holds.idle.ready
        within.ready logged.layered)

/-! ## Replies after which nothing is left -/

/-- Is there no traceback once the request has been replied to in this way? -/
def Clears (request : Request) (answer : Reply τ) : Prop :=
  match request, answer with
  | .evaluate _ _ _ _ _, .answer (.object _) => True
  | .call _ _ _, .answer (.object _) => True
  | .run _, .answer (.object _) => True
  | .clearError, _ => True
  | .takeReport, .answer (.report _) => True
  | _, _ => False

end Session

namespace MachineM

variable {machine after : Machine τ} {held : List Ref} {act : MachineM τ Ref → MachineM τ Ref}

/-- A call that came to a result leaves no traceback. -/
theorem HostCall.traceback_eq {value : Ref} (call : HostCall act machine held) (fuel : Nat)
    (concluded : recording (act (runFrame fuel)) machine = .ok (some value) after) :
    after.traceback = none := by
  have ended := call.calls.ends (runFrame_runsFrames fuel) call.quiet
  unfold recording at concluded
  cases ran : act (runFrame fuel) machine with
  | ok result middle =>
      rw [StoreM.bind_ok (attempt_ok ran)] at concluded
      cases concluded
      exact (ended.of_ok ran).traceback.trans call.clean
  | error stop middle =>
      cases stop with
      | failed failure =>
          rw [StoreM.bind_ok (attempt_failed ran)] at concluded
          obtain ⟨_, _, -, returned⟩ := bind_eq_ok concluded
          cases returned
      | fault broken =>
          cases (bind_error (attempt_fault ran) : _ = _).symm.trans concluded
      | unfinished =>
          cases (bind_error (attempt_unfinished ran) : _ = _).symm.trans concluded

/-- Once a report was taken out there is no traceback. -/
theorem takeReport_clears {report : Report}
    (taken : takeReport machine = .ok (some report) after) : after.traceback = none := by
  obtain ⟨pair, _, -, taken⟩ := bind_eq_ok taken
  rcases pair with _ | ⟨error, value⟩
  · cases taken
  obtain ⟨text, _, -, taken⟩ := bind_eq_ok taken
  obtain ⟨message, _, -, taken⟩ := bind_eq_ok taken
  obtain ⟨points, cleared, clearing, taken⟩ := bind_eq_ok taken
  obtain ⟨_, final, released, returned⟩ := bind_eq_ok taken
  cases returned
  obtain ⟨_, _, -, clearing⟩ := bind_eq_ok clearing
  obtain ⟨_, _, clearing, returned⟩ := bind_eq_ok clearing
  cases returned
  obtain ⟨_, _, got, clearing⟩ := bind_eq_ok clearing
  obtain ⟨_, _, changed, clearing⟩ := bind_eq_ok clearing
  cases changed
  have spared (refs : List Ref) : (sparing τ).Follows (releaseAll refs : MachineM τ Unit) :=
    releaseAll_follows refs
  have first : cleared.traceback = none := ((spared _).returns clearing).choose_spec.2
  exact ((spared _).returns released).choose_spec.2.trans first

end MachineM

namespace SessionM

variable {α : Type} {session after : Session τ} {lost : List Ref}

/-- A request that came to a result leaves no traceback. -/
theorem Launches.traceback_eq {request : (fuel : Nat) → SessionM τ α} {fuel : Nat}
    {told : Except (Reply τ) α} {touched : List Register}
    (launches : Launches request session touched lost)
    (answered : (request fuel).run session = .ok told after) (accepted : ¬ Refused told) :
    after.machine.traceback = none := by
  cases launches with
  | settled result always refuses leads =>
      rw [always] at answered
      exact absurd (refuses told after answered) accepted
  | calls act start held rest calm _ call known concluding always =>
      rw [always] at answered
      cases ran : MachineM.recording (act (MachineM.runFrame fuel)) start.machine with
      | ok result machine =>
          rw [run_bind_ok (onMachine_ok ran)] at answered
          cases result with
          | none => exact absurd (concluding.refuses _ told after answered) accepted
          | some ref =>
              obtain ⟨events, -, spared⟩ := (concluding.spares ref).returns answered
              have same : after.machine.traceback = machine.traceback := spared
              exact same.trans (call.traceback_eq fuel ran)
      | error stop machine =>
          have stopped :
              (SessionM.onMachine (MachineM.recording (act (MachineM.runFrame fuel)))).run start =
                .error stop { start with machine } := by rw [onMachine_run, ran]
          have whole : (SessionM.onMachine (MachineM.recording (act (MachineM.runFrame fuel))) >>=
              rest).run start = .error stop { start with machine } := bind_error stopped
          cases whole.symm.trans answered

end SessionM

namespace Session

variable {session after : Session τ} {lost : List Ref} {log : List Event} {initial : τ}
variable {fuel : Nat} {request : Request} {answer : Reply τ}

/-- A reply is what the request came to. -/
theorem performed_of_reply (replied : SessionM.reply fuel request session = .ok answer after) :
    ∃ told, (SessionM.perform fuel request).run session = .ok told after ∧
      SessionM.asReply told = answer := by
  rw [SessionM.reply_eq] at replied
  obtain ⟨told, _, performed, returned⟩ := bind_eq_ok replied
  cases returned
  exact ⟨told, performed, rfl⟩

theorem Clears.traceback_eq (clears : Clears request answer) (holds : session.Holds lost)
    (replied : SessionM.reply fuel request session = .ok answer after) :
    after.machine.traceback = none := by
  obtain ⟨told, performed, rfl⟩ := performed_of_reply replied
  have launched (runs : request.runs) {object : Object}
      (isObject : SessionM.asReply told = .answer (.object object)) :
      after.machine.traceback = none := by
    refine (SessionM.perform_launches holds runs).traceback_eq performed fun refused => ?_
    cases told with
    | ok value => exact refused
    | error reply =>
        have isObject : reply = .answer (.object object) := isObject
        subst isObject
        exact refused
  unfold Clears at clears
  split at clears
  case h_1 found => exact launched rfl found
  case h_2 found => exact launched rfl found
  case h_3 found => exact launched rfl found
  case h_4 =>
    obtain ⟨store, cleared, -⟩ := MachineM.clearError_ok holds.idle.ready
    have ran : (SessionM.perform fuel .clearError).run session = .ok (.ok .nothing) _ :=
      SessionM.run_bind_ok (SessionM.onMachine_ok cleared)
    cases performed.symm.trans ran
    rfl
  case h_5 found =>
    obtain ⟨taken, middle, took, rest⟩ := bind_eq_ok performed
    have took : (SessionM.onMachine MachineM.takeReport).run session = .ok taken middle := took
    rw [SessionM.onMachine_run] at took
    cases ran : MachineM.takeReport session.machine with
    | error stop machine =>
        rw [ran] at took
        cases took
    | ok report machine =>
        rw [ran] at took
        cases took
        cases report with
        | none =>
            cases rest
            cases found
        | some report =>
            cases rest
            exact MachineM.takeReport_clears ran
  case h_6 => exact clears.elim

/-! ## Nobody else holds a frame or a traceback -/

/-- There is no frame in the store, and no entry of a traceback. -/
def NoInternals (store : Store τ) : Prop :=
  store.countKind .frame = 0 ∧ store.countKind .traceback = 0

omit [Tracker τ] in
theorem noInternals_of_plainAt {store : Store τ} (plain : ∀ ref, store.PlainAt ref) :
    NoInternals store := by
  have none (kind : Kind) (differs : ∀ payload : Payload, payload.IsPlain → payload.kind ≠ kind) :
      store.countKind kind = 0 := by
    refine Array.countP_eq_zero.mpr fun slot listed => ?_
    obtain ⟨index, inside, rfl⟩ := Array.mem_iff_getElem.mp listed
    simp only [Option.any_eq_true, decide_eq_true_eq, not_exists, not_and]
    intro cell present payload stored same
    have there : store.cell? ⟨index⟩ = some cell := by
      rw [cell?, Option.join_eq_some_iff, ← present]
      exact Array.getElem?_eq_getElem inside
    have found : store.payload? ⟨index⟩ = some payload := by rw [payload?_eq there, stored]
    exact differs payload ((plainAt_of_payload? found).mp (plain ⟨index⟩)) same
  exact ⟨none .frame fun _ plain => plain.1, none .traceback fun _ plain => plain.2⟩

/-- Frames and entries of tracebacks are held by the machine and by one another only; and
where no frame is active and there is no traceback, they are all gone. -/
structure Secludes (session : Session τ) (lost : List Ref) : Prop where
  values : ∀ ref ∈ session.machine.values.items, session.machine.store.PlainAt ref
  error : ∀ ref ∈ session.machine.errorRefs, session.machine.store.PlainAt ref
  host : ∀ ref ∈ lost ++ session.refs, session.machine.store.PlainAt ref
  parts : ∀ owner payload, session.machine.store.payload? owner = some payload →
    payload.IsPlain → ∀ part ∈ payload.children, session.machine.store.PlainAt part
  gone : session.machine.frames.items = [] → session.machine.traceback = none →
    NoInternals session.machine.store
  cleared : session.machine.frames.items = [] → ∀ fuel request answer after,
    SessionM.reply fuel request session = .ok answer after → Clears request answer →
    after.machine.frames.items = [] ∧ after.machine.traceback = none ∧
      NoInternals after.machine.store

omit [Tracker τ] in
theorem noInternals_of_idle {machine : Machine τ} {held : List Ref} (ready : machine.Ready held)
    (layered : machine.store.Layered) (idle : machine.frames.items = [])
    (clean : machine.traceback = none) : NoInternals machine.store := by
  have sound := ready.sound
  have none : machine.internals = [] := by simp [internals, idle, clean]
  rw [none] at sound
  exact noInternals_of_plainAt (layered.plainAt sound)

/-- Whatever is run and asked for, frames and tracebacks neither escape nor leak. -/
theorem Attained.secludes (attained : session.Attained initial lost log) :
    session.Secludes lost := by
  obtain ⟨held, ready, known⟩ := attained.ready
  have sound := ready.sound
  constructor
  case values =>
    intro ref member
    exact sound.plain_value (List.mem_append_right _ (List.mem_append_left _ member))
  case error =>
    intro ref member
    exact sound.plain_value (List.mem_append_right _ (List.mem_append_right _ member))
  case host =>
    intro ref member
    exact sound.plain_value (List.mem_append_left _ (known member))
  case parts => exact fun owner payload found plain part => sound.plain_child found plain
  case gone => exact noInternals_of_idle ready attained.layered
  case cleared =>
    intro idle fuel request answer after replied clears
    have logged := attained.logged_of_idle idle
    have ends := reply_holds fuel request logged.holds
    obtain ⟨holds, -⟩ := ends.of_ok replied
    have clean := clears.traceback_eq logged.holds replied
    exact ⟨holds.idle.frames, clean, noInternals_of_idle holds.idle.ready
      (reply_layered logged.holds logged.layered replied) holds.idle.frames clean⟩

/-- A frame is about to run in a session that a traceback was left in before. -/
theorem secludes_after_failure :
    let loaded := (Session.start Unlimited.mk .off).next 0 (.loadCode "code" ⟨"main", #[2], [], []⟩)
    let bound := loaded.next 0 (.dict "names")
    let failed := bound.next 3 (.evaluate "result" "code" "names" "names" none)
    let entered := failed.next 0 (.evaluate "result" "code" "names" "names" none)
    failed.machine.traceback.isSome ∧ failed.Secludes [] ∧
      entered.machine.frames.height = 1 ∧ entered.Secludes [] := by
  obtain ⟨_, loaded⟩ : ∃ events, (next 0 (.loadCode "code" ⟨"main", #[2], [], []⟩)
      (Session.start Unlimited.mk .off)).Logged Unlimited.mk [] events :=
    (Logged.start .off).next (by decide +kernel)
  obtain ⟨_, bound⟩ : ∃ events, (next 0 (.dict "names") _).Logged Unlimited.mk [] events :=
    ⟨_, (loaded.next (by decide +kernel)).choose_spec⟩
  obtain ⟨_, failed⟩ : ∃ events, (next 3 (.evaluate "result" "code" "names" "names" none) _).Logged
      Unlimited.mk [] events :=
    ⟨_, (bound.next (by decide +kernel)).choose_spec⟩
  obtain ⟨_, entered⟩ :
      ∃ events, (next 0 (.evaluate "result" "code" "names" "names" none) _).Attained
      Unlimited.mk [] events :=
    ⟨_, (failed.enter (by decide +kernel)).choose_spec⟩
  exact ⟨by decide +kernel, (Attained.rest failed).secludes, by decide +kernel, entered.secludes⟩

end Session

end StackMachine
