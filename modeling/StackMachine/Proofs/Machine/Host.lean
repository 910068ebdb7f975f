import StackMachine.Machine.Host
import StackMachine.Proofs.Machine.Running
import StackMachine.Proofs.Store.Attributes
import StackMachine.Proofs.Store.Building
import StackMachine.Proofs.Store.Initial
import StackMachine.Proofs.Store.Reading

/-!
# What a host does with a machine

Between two calls from the host no frame is active and no value is on the stack.  A
call leaves the machine so again, and it always answers: what fails inside becomes
the current error or a report.
-/

namespace StackMachine

variable {τ α β : Type}

namespace Store

variable {store : Store τ} {ref : Ref}

theorem Closed.frameFile_answers (closed : store.Closed) (filled : store.Filled ref) :
    ∃ file, store.frameFile ref = .ok file := by
  refine get_answers filled fun payload found => ?_
  split
  · refine get_answers (closed ref _ found _ (by simp [Payload.children])) fun stored _ => ?_
    split <;> exact ⟨_, rfl⟩
  · exact ⟨_, rfl⟩

theorem Closed.tracePoints_answers (closed : store.Closed) (length : Nat) {head : Option Ref}
    (filled : ∀ ref ∈ head, store.Filled ref) :
    ∃ points, store.tracePoints length head = .ok points := by
  induction length generalizing head with
  | zero => exact ⟨[], rfl⟩
  | succ length ih =>
      cases head with
      | none => exact ⟨[], rfl⟩
      | some entry =>
          refine get_answers (filled entry rfl) fun payload found => ?_
          have members := closed entry payload found
          split
          · refine bind_answers (closed.frameFile_answers (members _ (by simp [Payload.children])))
              fun file => ?_
            refine bind_answers (ih fun ref member => members ref ?_) fun points => ⟨_, rfl⟩
            simp [Payload.children, Option.mem_def.mp member]
          · exact ⟨[], rfl⟩

end Store

namespace Machine

open Store

variable {machine after : Machine τ} {held extra taken : List Ref}

/-- A machine between two calls from its host, which holds `held`. -/
structure Idle (machine : Machine τ) (held : List Ref) : Prop where
  ready : machine.Ready held
  frames : machine.frames.items = []
  values : machine.values.items = []

/-- A machine on which nothing has run yet, and of which nobody holds anything. -/
theorem idle_start (tracker : τ) (tracer : Tracer) : (Machine.start tracker tracer).Idle [] where
  ready := ⟨initial_sound tracker, nofun, nofun, trivial⟩
  frames := rfl
  values := rfl

theorem Idle.perm {others : List Ref} (idle : machine.Idle held) (same : held.Perm others) :
    machine.Idle others :=
  { idle with ready := idle.ready.perm same }

theorem Idle.closed (idle : machine.Idle held) : machine.store.Closed :=
  idle.ready.sound.closed

theorem Idle.usable {ref : Ref} (idle : machine.Idle held) (member : ref ∈ held) :
    machine.store.Usable ref :=
  idle.ready.usable member

/-- An operation on the store leaves an idle machine idle. -/
theorem Stays.idle (stays : machine.Stays held extra after) (idle : machine.Idle taken) :
    after.Idle (extra ++ held) := by
  have ready := stays.ready
  obtain ⟨store, rfl⟩ := stays.same
  exact ⟨ready, idle.frames, idle.values⟩

theorem Stays.keeps_held (stays : machine.Stays held extra after) :
    Keeps held machine.store after.store :=
  stays.passes.keeps_held.mono (List.subset_append_right _ _)

/-- Whoever takes the error out of a machine holds its references. -/
theorem Ready.withoutError (ready : machine.Ready held) :
    ({ machine with error := none } : Machine τ).Ready (machine.errorRefs ++ held) := by
  refine ⟨ready.sound.perm ?_ (List.Perm.refl _), ready.placed, ready.headed, ready.stacked⟩
  rw [List.perm_iff_count]
  intro ref
  simp only [errorRefs, List.count_append, List.count_nil]
  omega

end Machine

namespace MachineM

open Store Outcome Machine

variable {machine middle after : Machine τ} {held taken refs : List Ref} {gives : α → List Ref}

/-- A call from the host, which is left with the references that `gives` lists, and whose
own are kept.  The call never fails. -/
def Answers (act : MachineM τ α) (machine : Machine τ) (held : List Ref)
    (gives : α → List Ref) : Prop :=
  Ends (act machine)
    (fun value after => after.Idle (gives value ++ held) ∧ Keeps held machine.store after.store)
    fun _ _ => False

/-- What fails on the store becomes a report. -/
theorem reporting_answers {act : StoreM τ α} (idle : machine.Idle taken)
    (accounts : StoreM.Accounts act machine.store
      (held ++ (machine.values.items ++ machine.errorRefs)) machine.internals gives) :
    Answers (reporting act) machine held (StoreM.Accounts.orNothing gives) := by
  let left (extra : List Ref) : Store τ → Prop :=
    machine.store.Leaves (held ++ (machine.values.items ++ machine.errorRefs))
      machine.internals extra
  have reported : Ends (StoreM.reporting act machine.store)
      (fun result => left (StoreM.Accounts.orNothing gives result)) fun _ _ => False := by
    refine Ends.bind (accounts.attempt _) fun result store remains => ?_
    cases result with
    | ok value => exact remains
    | error cause => exact remains
  refine (onStore_ends reported).mono ?_ ?_
  · rintro result _ ⟨store, rfl, remains⟩
    have stays := idle.ready.stays_of_leaves remains
    exact ⟨stays.idle idle, stays.keeps_held⟩
  · rintro failure _ ⟨cause, store, -, -, impossible⟩
    exact impossible

/-- Reading off the store succeeds. -/
theorem reading_ok {read : Store τ → Except (Stop Cause) α} {value : α}
    (answered : read machine.store = .ok value) :
    onStore (StoreM.reading read) machine = .ok value machine := by
  have returned : (StoreM.reading read : StoreM τ α) machine.store = .ok value machine.store := by
    simp only [StoreM.reading, Outcome.reading, answered]
  exact onStore_eq returned

variable [Tracker τ]

theorem releaseAll_idle (idle : machine.Idle (refs ++ held)) :
    ∃ after, releaseAll refs machine = .ok () after ∧ after.Idle held ∧
      after.error = machine.error ∧ Keeps held machine.store after.store := by
  obtain ⟨after, released, stays⟩ := releaseAll_ready idle.ready
  exact ⟨after, released, stays.idle idle, stays.passes.error, stays.keeps_held⟩

/-! ## The current error -/

omit [Tracker τ] in
theorem takeError_eq (machine : Machine τ) :
    takeError machine = .ok machine.error { machine with error := none } :=
  rfl

theorem clearTraceback_ok (ready : machine.Ready held) :
    ∃ store, clearTraceback machine = .ok () { machine with store, traceback := none } ∧
      ({ machine with store, traceback := none } : Machine τ).Ready held ∧
      Keeps held machine.store store := by
  have sound : machine.store.Sound (held ++ (machine.values.items ++ machine.errorRefs))
      (machine.traceback.toList ++ machine.frames.items.map (·.frame)) :=
    ready.sound.perm (List.Perm.refl _) List.perm_append_comm
  obtain ⟨store, released, left, -⟩ := StoreM.releaseAll_inner sound
  have returned : (StoreM.releaseAll machine.traceback.toList : StoreM τ Unit)
      ({ machine with traceback := none } : Machine τ).store = .ok () store := released
  refine ⟨store, onStore_eq returned, ⟨?_, ?_, nofun, ready.stacked⟩, left.keeps.mono
    fun ref member => List.mem_append_left _ (List.mem_append_left _ member)⟩
  · have rest := left.sound
    rw [← List.append_nil (machine.frames.items.map (·.frame))] at rest
    exact rest
  · intro activation member
    refine (ready.placed activation member).of_keeps ?_ left.keeps
    exact List.mem_append_right _ (List.mem_map_of_mem member)

theorem releasePair_eq (machine : Machine τ) :
    releasePair machine.error { machine with error := none } =
      releaseAll machine.errorRefs { machine with error := none } := by
  obtain ⟨store, values, frames, error, traceback, tracer⟩ := machine
  cases error with
  | some pair => rfl
  | none =>
      show (pure () : MachineM τ Unit) _ = releaseAll [] _
      rw [releaseAll_nil]

theorem clearError_ok (ready : machine.Ready held) :
    ∃ store, clearError machine = .ok () { machine with store, error := none, traceback := none } ∧
      ({ machine with store, error := none, traceback := none } : Machine τ).Ready held ∧
      Keeps held machine.store store := by
  obtain ⟨middle, released, stays⟩ := releaseAll_ready ready.withoutError
  have kept := stays.keeps_held
  obtain ⟨store, rfl⟩ := stays.same
  obtain ⟨final, cleared, left, keeps⟩ := clearTraceback_ok stays.ready
  refine ⟨final, ?_, left, kept.trans keeps⟩
  rw [clearError, StoreM.bind_ok (takeError_eq machine),
    StoreM.bind_ok ((releasePair_eq machine).trans released)]
  exact cleared

/-- A call from the host starts without an error. -/
theorem beginCall_ok (idle : machine.Idle held) :
    ∃ store, beginCall machine = .ok () { machine with store, error := none, traceback := none } ∧
      ({ machine with store, error := none, traceback := none } : Machine τ).Idle held ∧
      Keeps held machine.store store := by
  obtain ⟨store, cleared, ready, keeps⟩ := clearError_ok idle.ready
  refine ⟨store, ?_, ⟨ready, idle.frames, idle.values⟩, keeps⟩
  have empty : machine.frames.isEmpty = true := by
    rw [Stack.isEmpty, idle.frames]
    rfl
  show (if machine.frames.isEmpty then clearError else pure ()) machine = _
  rw [if_pos empty, cleared]

theorem Records.idle {kind : ErrorKind} {message? : Option String}
    (records : Records machine held kind message? after) (idle : machine.Idle taken) :
    after.Idle held := by
  have ready := records.ready
  obtain ⟨store, value, rfl, -⟩ := records.same
  exact ⟨ready, idle.frames, idle.values⟩

/-! ## Running code -/

/-- What the host gets of code that was run: a result, or an error that is set. -/
structure Concludes (before : Machine τ) (held : List Ref) (result : Option Ref)
    (after : Machine τ) : Prop where
  idle : after.Idle (result.toList ++ held)
  error : result = none ↔ after.error.isSome
  keeps : Keeps held before.store after.store

theorem recording_ends {act : MachineM τ Ref} (idle : machine.Idle taken)
    (ends : Ends (act machine) (CallReturned machine held) (CallFailed machine held)) :
    Ends (recording act machine) (Concludes machine held) fun _ _ => False := by
  have own {kept : List Ref} : held ⊆ (machine.values.items ++ held) ++ kept :=
    List.subset_append_of_subset_left _ (List.subset_append_right _ _)
  refine Ends.bind ends.handed fun result after holds => ?_
  cases result with
  | ok value =>
      refine ⟨⟨holds.ready, holds.frames.trans idle.frames, holds.values.trans idle.values⟩, ?_,
        holds.upholds.keeps.mono own⟩
      simp [holds.error]
  | error failure =>
      have keeps := holds.upholds.keeps.mono own
      have still : after.Idle held :=
        ⟨holds.ready, holds.frames.trans idle.frames, holds.values.trans idle.values⟩
      cases failure with
      | raised cause =>
          obtain ⟨final, recorded, records⟩ := setErrorCause_ok holds.ready cause
          simp only [record]
          rw [StoreM.bind_ok recorded]
          exact ⟨records.idle still, by simp [records.isSome], keeps.trans records.keeps_held⟩
      | recorded => exact ⟨still, by simpa using holds.error, keeps⟩

/-- A call that runs code. -/
theorem Calls.concludes {act : MachineM τ Ref → MachineM τ Ref} (fuel : Nat)
    (idle : machine.Idle taken) (quiet : machine.error = none) (calls : Calls act machine held) :
    Ends (recording (act (runFrame fuel)) machine) (Concludes machine held) fun _ _ => False :=
  recording_ends idle (calls.ends (runFrame_runsFrames fuel) quiet)

omit [Tracker τ] in
/-- What was kept before, too. -/
theorem Concludes.rebase {result : Option Ref} (concludes : Concludes middle held result after)
    (keeps : Keeps held machine.store middle.store) : Concludes machine held result after :=
  { concludes with keeps := keeps.trans concludes.keeps }

section Calling

variable {code globals locals callee : Ref} {argument : Option Ref}

theorem evaluate_ends (fuel : Nat) (idle : machine.Idle (argument.toList ++ held))
    (parts : [code, globals, locals] ⊆ held) :
    Ends (evaluate fuel code globals locals argument machine) (Concludes machine held)
      fun _ _ => False := by
  obtain ⟨store, begun, clear, keeps⟩ := beginCall_ok idle
  rw [evaluate, StoreM.bind_ok begun]
  refine ((evaluateCode_calls clear.ready parts).concludes fuel clear rfl).imp ?_
  exact fun _ _ concluded => concluded.rebase (keeps.mono (List.subset_append_right _ _))

theorem invoke_ends (fuel : Nat) (idle : machine.Idle (argument.toList ++ held))
    (member : callee ∈ held) :
    Ends (invoke fuel callee argument machine) (Concludes machine held) fun _ _ => False := by
  obtain ⟨store, begun, clear, keeps⟩ := beginCall_ok idle
  rw [invoke, StoreM.bind_ok begun]
  refine ((call_calls clear.ready member).concludes fuel clear rfl).imp ?_
  exact fun _ _ concluded => concluded.rebase (keeps.mono (List.subset_append_right _ _))

end Calling

/-! ## Looking at the results -/

omit [Tracker τ] in
theorem toObject_ok (idle : machine.Idle held) {ref : Ref} (filled : machine.store.Filled ref) :
    ∃ object, toObject ref machine = .ok object machine := by
  obtain ⟨object, shown⟩ := idle.closed.toObject_answers filled
  exact ⟨object, reading_ok shown⟩

omit [Tracker τ] in
theorem display_ok (idle : machine.Idle held) {ref : Ref} (filled : machine.store.Filled ref) :
    ∃ text, display ref machine = .ok text machine := by
  obtain ⟨object, shown⟩ := idle.closed.toObject_answers filled
  refine ⟨object.display, ?_⟩
  rw [display, StoreM.bind_ok (reading_ok shown)]
  rfl

omit [Tracker τ] in
theorem message?_ok (idle : machine.Idle held) {value : Ref}
    (filled : machine.store.Filled value) :
    ∃ message, message? value machine = .ok message machine := by
  unfold message?
  split
  · exact ⟨none, rfl⟩
  · obtain ⟨text, shown⟩ := display_ok idle filled
    exact ⟨some text, by rw [StoreM.bind_ok shown]; rfl⟩

/-- An object that the host owns is shown and given back. -/
theorem takeObject_ok {result : Option Ref} (idle : machine.Idle (result.toList ++ held)) :
    ∃ object after, takeObject result machine = .ok object after ∧ after.Idle held ∧
      after.error = machine.error ∧ (object = none ↔ result = none) ∧
      Keeps held machine.store after.store := by
  cases result with
  | none => exact ⟨none, machine, rfl, idle, rfl, by simp, Keeps.refl _ _⟩
  | some ref =>
      obtain ⟨object, shown⟩ := toObject_ok idle (idle.usable List.mem_cons_self).filled
      have owned : machine.Idle ([ref] ++ held) := idle
      obtain ⟨after, released, left, error, keeps⟩ := releaseAll_idle owned
      refine ⟨some object, after, ?_, left, error, by simp, keeps⟩
      rw [takeObject, StoreM.bind_ok shown, StoreM.bind_ok released]
      rfl

omit [Tracker τ] in
theorem traceback_ok (idle : machine.Idle held) :
    ∃ points, traceback machine = .ok points machine := by
  obtain ⟨points, read⟩ := idle.closed.tracePoints_answers machine.store.cells.size
    (fun ref member => idle.ready.sound.payload_of_held (List.mem_append_right _
      (List.mem_append_right _ (List.mem_append_right _ (Option.mem_toList.mpr member)))) :
      ∀ ref ∈ machine.traceback, machine.store.Filled ref)
  exact ⟨points, reading_ok read⟩

theorem takeTraceback_ok (idle : machine.Idle held) :
    ∃ points after, takeTraceback machine = .ok points after ∧ after.Idle held ∧
      traceback machine = .ok points machine ∧ Keeps held machine.store after.store := by
  obtain ⟨points, read⟩ := traceback_ok idle
  obtain ⟨store, cleared, ready, keeps⟩ := clearTraceback_ok idle.ready
  refine ⟨points, _, ?_, ⟨ready, idle.frames, idle.values⟩, read, keeps⟩
  rw [takeTraceback, StoreM.bind_ok read, StoreM.bind_ok cleared]
  rfl

/-- The error is taken out as a report, and its references are given back. -/
theorem takeReport_some {error value : Ref} (idle : machine.Idle held)
    (set : machine.error = some (error, value)) :
    ∃ text message points after, takeReport machine =
        .ok (some ⟨ErrorKind.ofObject? error, text, message, points⟩) after ∧ after.Idle held ∧
      Keeps held machine.store after.store ∧
      message? value { machine with error := none } = .ok message { machine with error := none } ∧
      traceback { machine with error := none } = .ok points { machine with error := none } := by
  have owned : ({ machine with error := none } : Machine τ).Idle ([error, value] ++ held) := by
    have taken := idle.ready.withoutError
    rw [errorRefs, set] at taken
    exact ⟨taken, idle.frames, idle.values⟩
  have filled (ref : Ref) (member : ref ∈ [error, value]) : machine.store.Filled ref :=
    (owned.usable (List.mem_append_left _ member)).filled
  obtain ⟨text, errorShown⟩ := display_ok owned (filled error (by simp))
  obtain ⟨message, valueShown⟩ := message?_ok owned (filled value (by simp))
  obtain ⟨points, middle, cleared, left, read, kept⟩ := takeTraceback_ok owned
  obtain ⟨after, released, rest, -, keeps⟩ := releaseAll_idle left
  refine ⟨text, message, points, after, ?_, rest,
    (kept.mono (List.subset_append_right _ _)).trans keeps, valueShown, read⟩
  rw [takeReport, StoreM.bind_ok (takeError_eq machine), set]
  simp only
  rw [StoreM.bind_ok errorShown, StoreM.bind_ok valueShown, StoreM.bind_ok cleared,
    StoreM.bind_ok released]
  rfl

/-- The error is taken out, if there is one. -/
theorem takeReport_ok (idle : machine.Idle held) :
    ∃ report? after, takeReport machine = .ok report? after ∧ after.Idle held ∧
      (report? = none ↔ machine.error = none) ∧ Keeps held machine.store after.store := by
  cases found : machine.error with
  | none =>
      have taken := idle.ready.withoutError
      rw [errorRefs, found] at taken
      refine ⟨none, _, ?_, ⟨taken, idle.frames, idle.values⟩, by simp, Keeps.refl _ _⟩
      rw [takeReport, StoreM.bind_ok (takeError_eq machine), found]
      rfl
  | some pair =>
      obtain ⟨text, message, points, after, taken, left, keeps, -, -⟩ := takeReport_some idle found
      exact ⟨_, after, taken, left, by simp, keeps⟩

theorem requireReport_ok (idle : machine.Idle held) (isSet : machine.error.isSome) :
    ∃ report after, requireReport machine = .ok report after ∧ after.Idle held ∧
      Keeps held machine.store after.store := by
  obtain ⟨report?, after, taken, left, none_iff, keeps⟩ := takeReport_ok idle
  cases report? with
  | none =>
      rw [none_iff.mp rfl] at isSet
      cases isSet
  | some report =>
      refine ⟨report, after, ?_, left, keeps⟩
      rw [requireReport, StoreM.bind_ok taken]
      rfl

/-! ## Running an image -/

/-- The host is left with the code, the module and its dictionary. -/
theorem prepare_accounts {store : Store τ} {inner : List Ref} (sound : store.Sound held inner)
    (image : Image) :
    StoreM.Accounts (prepare image) store held inner fun parts =>
      [parts.2.1] ++ [parts.1, parts.2.2] := by
  refine (StoreM.loadImage_accounts image sound).bind fun code loaded left => ?_
  refine StoreM.Accounts.bind (StoreM.Accounts.orRelease
    (StoreM.registerModule_accounts left.sound mainName)) fun module registered left => ?_
  have owned : registered.Sound ([code, module] ++ held) inner :=
    left.sound.perm (.swap _ _ _) (List.Perm.refl _)
  have member : module ∈ [code, module] ++ held := by simp
  refine StoreM.Accounts.bind (StoreM.Accounts.orRelease
    (StoreM.loadAttr_accounts owned member StoreM.dictName)) fun globals final left => ?_
  refine StoreM.Accounts.pure (left.sound.perm ?_ (List.Perm.refl _))
  rw [List.perm_iff_count]
  intro ref
  simp only [List.count_append, List.count_cons, List.count_nil]
  omega

/-- Code is run, its result is shown and what it took is given back. -/
theorem takeObject_evaluate {code globals : Ref} (fuel : Nat)
    (idle : machine.Idle ([code, globals] ++ held)) :
    Ends ((do
        let object ← takeObject (← evaluate fuel code globals globals none)
        releaseAll [code, globals]
        match object with
        | some object => return .ok object
        | none => return .error (← requireReport) : MachineM τ (Except Report Object)) machine)
      (fun _ after => after.Idle held ∧ Keeps held machine.store after.store)
      fun _ _ => False := by
  have parts : [code, globals, globals] ⊆ [code, globals] ++ held := by simp
  have bare : machine.Idle ((none : Option Ref).toList ++ ([code, globals] ++ held)) := idle
  refine Ends.bind (evaluate_ends fuel bare parts) fun result middle concluded => ?_
  obtain ⟨object, shown, taken, left, error, none_iff, kept⟩ := takeObject_ok concluded.idle
  obtain ⟨after, released, rest, error', keeps⟩ := releaseAll_idle left
  have keeps : Keeps held machine.store after.store :=
    ((concluded.keeps.trans kept).mono (List.subset_append_right _ _)).trans keeps
  rw [StoreM.bind_ok taken, StoreM.bind_ok released]
  cases object with
  | some object => exact ⟨rest, keeps⟩
  | none =>
      have isSet : after.error.isSome := by
        rw [error', error]
        exact concluded.error.mp (none_iff.mp rfl)
      obtain ⟨report, final, required, finished, last⟩ := requireReport_ok rest isSet
      simp only
      rw [StoreM.bind_ok required]
      exact ⟨finished, keeps.trans last⟩

theorem runImage_answers (fuel : Nat) (image : Image) (idle : machine.Idle held) :
    Answers (runImage fuel image) machine held fun _ => [] := by
  have prepared := reporting_answers idle (prepare_accounts idle.ready.sound image)
  refine Ends.bind prepared fun result middle ⟨left, kept⟩ => ?_
  rcases result with report | ⟨code, module, globals⟩
  case error => exact ⟨left, kept⟩
  case ok =>
      have owned : middle.Idle ([module] ++ ([code, globals] ++ held)) := left
      obtain ⟨after, released, rest, -, keeps⟩ := releaseAll_idle owned
      simp only
      rw [StoreM.bind_ok released]
      refine (takeObject_evaluate fuel rest).imp fun _ _ ⟨finished, last⟩ => ⟨finished, ?_⟩
      exact kept.trans ((keeps.mono (List.subset_append_right _ _)).trans last)

end MachineM

end StackMachine
