import StackMachine.Proofs.Machine.Propagation
import StackMachine.Proofs.Store.Showing

/-!
# What the host gets of its calls

A call from the host delivers a result if no error is set, and otherwise the error that
arose on the way.  All frames that were active where it arose have been left by then,
and no instruction was carried out in between.

The report of the error says what it was, with its message if there was room for that,
and which frames were active, each with the line that its last instruction to set one
put it on.  Frames are missing from it only where the tracker refused their entries.
-/

namespace StackMachine

namespace MachineM

open Store Outcome Machine

variable {τ : Type} [Tracker τ] {machine after failing : Machine τ} {active : List Activation}
variable {below held pending : List Ref} {cause : Cause} {depths : List Nat}
variable {histories : List (List Fetched)} {fuel : Nat}

/-- A call from the host comes to an error before any frame runs, or in the frame that it
runs. -/
inductive Origin (fuel : Nat) (act : MachineM τ Ref → MachineM τ Ref) (begun : Machine τ) :
    (histories : List (List Fetched)) → Cause → Machine τ → Prop where
  | direct {cause : Cause} {failing : Machine τ}
      (failed : ∀ run, act run begun = .error (.failed (.raised cause)) failing) :
      Origin fuel act begun [] cause failing
  | inside {pending : List Ref} {inside failing : Machine τ} {cause : Cause}
      {histories : List (List Fetched)}
      (called : ∀ run, act run begun = finishCall pending run inside)
      (errs : Errs fuel [] inside histories cause failing) :
      Origin fuel act begun histories cause failing

/-- The traceback of some frames, innermost first, that have executed `histories`: the
outermost one comes first. -/
def fullTraceback (frames : List Activation) (histories : List (List Fetched)) :
    List TracePoint :=
  (List.zipWith (fun activation executed => ⟨activation.file, Fetched.lastLine executed⟩) frames
    histories).reverse

theorem fullTraceback_eq (lines : List.Forall₂
    (fun activation executed => activation.line = Fetched.lastLine executed) active histories) :
    fullTraceback active histories = (active.map Activation.point).reverse := by
  unfold fullTraceback
  congr 1
  induction lines with
  | nil => rfl
  | cons line rest ih => rw [List.zipWith_cons_cons, ih, List.map_cons, Activation.point, line]

/-- An error that arose in `failing`, with `histories` of the frames that were active, has
reached the host: no instruction was carried out since, all of these frames were left, and
the report says what the error was and where it came from. -/
structure Reached (failing : Machine τ) (histories : List (List Fetched)) (cause : Cause)
    (after : Machine τ) : Prop where
  active : failing.frames.items.length = histories.length
  left : after.frames.items = []
  events : ∃ events, after.tracer = failing.tracer.observeAll events ∧
    Retreats events (List.range histories.length).reverse
  report : ∃ report final, takeReport after = .ok (some report) final ∧
    report.kind = some cause.kind ∧
    report.message = keptMessage? failing.store.tracker cause.message? ∧
    report.traceback.Sublist (fullTraceback failing.frames.items histories) ∧
    (StoreM.Grants τ → report.traceback = fullTraceback failing.frames.items histories)

/-- What a call from the host delivers: a result exactly if no error is set, and otherwise
the error that arose. -/
def Delivers (fuel : Nat) (act : MachineM τ Ref → MachineM τ Ref) (machine : Machine τ)
    (result : Option Ref) (after : Machine τ) : Prop :=
  (result = none ↔ after.error.isSome) ∧
    (result = none → ∃ begun histories cause failing, beginCall machine = .ok () begun ∧
      Origin fuel act begun histories cause failing ∧ Reached failing histories cause after)

omit [Tracker τ] in
/-- A message is shown as it is. -/
theorem message?_eq {value : Ref} {message : String} (idle : machine.Idle held)
    (found : machine.store.payload? value = some (.string (Bytes.ofString message))) :
    message? value machine = .ok (some message) machine := by
  have other : value ≠ .noneObject := by
    rintro rfl
    have absent := idle.ready.sound.originals .noneObject (by decide) (by decide)
    rw [found] at absent
    cases absent
  have shown : machine.store.toObject value = .ok (.string message) := by
    unfold Store.toObject Store.toObjectWithin
    rw [get_eq_ok_iff.mpr found]
    show Except.ok (Object.string (Bytes.ofString message).toText) = _
    rw [Bytes.toText_ofString]
  unfold message?
  rw [if_neg other, display, bind_assoc, StoreM.bind_ok (reading_ok shown)]
  rfl

omit [Tracker τ] in
/-- The traceback is read off its entries. -/
theorem traceback_eq {points : List TracePoint}
    (chain : Chain machine.store machine.traceback points) :
    traceback machine = .ok points machine := by
  have read : (fun store : Store τ => store.tracePoints store.cells.size machine.traceback)
      machine.store = .ok points := chain.tracePoints chain.length_le
  exact reading_ok read

/-- The report of an error that has passed all frames. -/
theorem Carries.report (carries : Carries failing active cause depths machine)
    (idle : machine.Idle held) :
    ∃ report final, takeReport machine = .ok (some report) final ∧
      report.kind = some cause.kind ∧
      report.message = keptMessage? failing.store.tracker cause.message? ∧
      report.traceback.Sublist (active.map Activation.point).reverse ∧
      (StoreM.Grants τ → report.traceback = (active.map Activation.point).reverse) := by
  obtain ⟨value, set, explains⟩ := carries.error
  obtain ⟨points, chain, known⟩ := carries.traceback
  obtain ⟨text, message, read, final, taken, -, -, told, listed⟩ := takeReport_some idle set
  have bare : ({ machine with error := none } : Machine τ).Idle (machine.errorRefs ++ held) :=
    ⟨idle.ready.withoutError, idle.frames, idle.values⟩
  have message_eq : message = keptMessage? failing.store.tracker cause.message? := by
    cases kept : keptMessage? failing.store.tracker cause.message? with
    | none =>
        rw [kept] at explains
        obtain rfl : value = .noneObject := explains
        rw [message?, if_pos rfl] at told
        cases told
        rfl
    | some original =>
        rw [kept] at explains
        rw [message?_eq bare explains] at told
        cases told
        rfl
  have read_eq : read = points := by
    have whole :
        Chain ({ machine with error := none } : Machine τ).store machine.traceback points := chain
    rw [traceback_eq whole] at listed
    cases listed
    rfl
  subst message_eq read_eq
  exact ⟨_, final, taken, ErrorKind.ofObject?_object cause.kind, rfl, known⟩

/-- An error has passed the frames that were active, and they have been left. -/
theorem Carries.reached (carries : Carries failing failing.frames.items cause depths machine)
    (idle : machine.Idle held) (left : depths = (List.range histories.length).reverse)
    (lines : List.Forall₂ (fun activation executed => activation.line = Fetched.lastLine executed)
      failing.frames.items histories) : Reached failing histories cause machine where
  active := lines.length_eq
  left := idle.frames
  events := left ▸ carries.events
  report := by
    rw [fullTraceback_eq lines]
    exact carries.report idle

/-- A call that comes to an error before any frame runs. -/
theorem Origin.direct_reached {act : MachineM τ Ref → MachineM τ Ref} (fuel : Nat)
    (failed : ∀ run, act run machine = .error (.failed (.raised cause)) failing)
    (idle : failing.Idle held) (clean : failing.traceback = none) :
    ∃ after, recording (act (runFrame fuel)) machine = .ok none after ∧
      Reached failing [] cause after := by
  obtain ⟨after, recorded, records⟩ := setErrorCause_ok idle.ready cause
  refine ⟨after, ?_, ?_⟩
  · have attempted : attempt (act (runFrame fuel)) machine =
        .ok (.error (.raised cause)) failing := by
      rw [attempt, failed]
    rw [recording, StoreM.bind_ok attempted]
    exact StoreM.bind_ok recorded
  · have carries := Carries.start records clean
    rw [← idle.frames] at carries
    exact carries.reached (records.idle idle) rfl (idle.frames ▸ .nil)

/-- A call that comes to an error in the frame that it runs. -/
theorem Origin.inside_reached {act : MachineM τ Ref → MachineM τ Ref} {inside middle : Machine τ}
    {failure : Failure} (called : ∀ run, act run machine = finishCall pending run inside)
    (entered : Entered machine held pending inside) (idle : machine.Idle below)
    (quiet : machine.error = none) (clean : machine.traceback = none)
    (ran : runFrame fuel inside = .error (.failed failure) middle) :
    ∃ after histories cause failing, recording (act (runFrame fuel)) machine = .ok none after ∧
      Origin fuel act machine histories cause failing ∧ Reached failing histories cause after := by
  obtain ⟨activation, fresh, within⟩ := entered.within
  rw [idle.frames, idle.values] at within
  have silent := entered.error.trans quiet
  have unset : activation.line = Fetched.lastLine [] := fresh
  have ends := runFrame_runsFrames fuel within silent
  rw [ran] at ends
  obtain rfl : failure = .recorded := ends.recorded
  obtain ⟨new, left⟩ := ends.within
  obtain ⟨histories, cause, failing, callees, current, errs, active, lines, carries⟩ :=
    runFrame_tracesErrors fuel within silent (entered.traceback.trans clean) unset ran
  obtain ⟨after, finished, ready, frames, values, carried⟩ := carries.leave left
  have attempted : attempt (act (runFrame fuel)) machine = .ok (.error .recorded) after := by
    rw [attempt, called, finishCall_failed ran finished]
  rw [List.append_nil] at active
  rw [← active] at carried lines
  have depths : levels 1 callees.length ++ [0] = (List.range histories.length).reverse := by
    have total : histories.length = callees.length + 1 := by
      rw [← lines.length_eq, active, List.length_append, List.length_singleton]
    rw [total, ← levels_succ, levels, List.range_eq_range']
  refine ⟨after, histories, cause, failing, ?_, .inside called errs,
    carried.reached ⟨ready, frames, values⟩ depths lines⟩
  rw [recording, StoreM.bind_ok attempted]
  rfl

/-- A call of which nothing comes failed. -/
theorem recording_none {act : MachineM τ Ref} (recorded : recording act machine = .ok none after) :
    ∃ failure middle, act machine = .error (.failed failure) middle := by
  obtain ⟨result, middle, attempted, -⟩ := bind_eq_ok recorded
  unfold attempt at attempted
  cases ran : act machine with
  | ok value last =>
      rw [recording, StoreM.bind_ok (attempt_ok ran)] at recorded
      cases recorded
  | error stop last =>
      rw [ran] at attempted
      cases stop with
      | failed failure => exact ⟨failure, last, rfl⟩
      | fault broken => cases attempted
      | unfinished => cases attempted

/-- A call from the host delivers a result or the error that arose. -/
theorem Calls.delivers {act : MachineM τ Ref → MachineM τ Ref} {begun : Machine τ} (fuel : Nat)
    (began : beginCall machine = .ok () begun) (idle : begun.Idle below)
    (quiet : begun.error = none) (clean : begun.traceback = none) (calls : Calls act begun held) :
    Ends (recording (act (runFrame fuel)) begun) (Delivers fuel act machine) fun _ _ => False := by
  have concludes := calls.concludes fuel idle quiet
  cases result : recording (act (runFrame fuel)) begun with
  | error stop after =>
      rw [result] at concludes
      cases stop with
      | failed failure => exact concludes
      | fault broken => exact concludes
      | unfinished => trivial
  | ok value after =>
      rw [result] at concludes
      refine ⟨concludes.error, ?_⟩
      rintro rfl
      obtain ⟨failure, failing, failed⟩ := recording_none result
      cases calls with
      | direct outcome always settles =>
          rw [← always (runFrame fuel), failed] at settles
          obtain ⟨⟨cause, rfl⟩, stays⟩ := settles
          have direct := fun run => (always run).trans ((always (runFrame fuel)).symm.trans failed)
          obtain ⟨final, recorded, reached⟩ := Origin.direct_reached fuel direct (stays.idle idle)
            (stays.passes.traceback.trans clean)
          cases result.symm.trans recorded
          exact ⟨begun, [], cause, failing, began, .direct direct, reached⟩
      | enters pending inside always entered =>
          rw [always] at failed
          obtain ⟨reason, middle, ran⟩ := frame_failed failed
          obtain ⟨final, histories, cause, arising, recorded, origin, reached⟩ :=
            Origin.inside_reached always entered idle quiet clean ran
          cases result.symm.trans recorded
          exact ⟨begun, histories, cause, arising, began, origin, reached⟩

theorem evaluate_delivers {code globals locals : Ref} {argument : Option Ref} (fuel : Nat)
    (idle : machine.Idle (argument.toList ++ held)) (parts : [code, globals, locals] ⊆ held) :
    Ends (evaluate fuel code globals locals argument machine)
      (Delivers fuel (fun run => evaluateCode run code globals locals argument) machine)
      fun _ _ => False := by
  obtain ⟨store, begun, clear, -⟩ := beginCall_ok idle
  rw [evaluate, StoreM.bind_ok begun]
  exact (evaluateCode_calls clear.ready parts).delivers fuel begun clear rfl rfl

theorem invoke_delivers {callee : Ref} {argument : Option Ref} (fuel : Nat)
    (idle : machine.Idle (argument.toList ++ held)) (member : callee ∈ held) :
    Ends (invoke fuel callee argument machine)
      (Delivers fuel (fun run => call run callee argument) machine) fun _ _ => False := by
  obtain ⟨store, begun, clear, -⟩ := beginCall_ok idle
  rw [invoke, StoreM.bind_ok begun]
  exact (call_calls clear.ready member).delivers fuel begun clear rfl rfl

/-- Code that the host runs and objects that it calls deliver a result, or the error that
arose on the way, which has left every frame by then. -/
theorem hostCalls_deliver (fuel : Nat) {argument : Option Ref}
    (idle : machine.Idle (argument.toList ++ held)) :
    (∀ code globals locals, [code, globals, locals] ⊆ held →
      Ends (evaluate fuel code globals locals argument machine)
        (Delivers fuel (fun run => evaluateCode run code globals locals argument) machine)
        fun _ _ => False) ∧
    (∀ callee ∈ held, Ends (invoke fuel callee argument machine)
      (Delivers fuel (fun run => call run callee argument) machine) fun _ _ => False) :=
  ⟨fun _ _ _ => evaluate_delivers fuel idle, fun _ => invoke_delivers fuel idle⟩

/-- The host of an idle machine makes an object that owns nothing. -/
theorem idle_of_allocate {payload : Payload} {ref : Ref} {store : Store τ}
    (idle : machine.Idle held) (leaf : payload.roles = [])
    (valid : ∀ table, payload = .dict table → table.Valid)
    (plain : payload.kind ≠ .none ∧ payload.kind ≠ .frame ∧ payload.kind ≠ .traceback)
    (made : StoreM.allocate payload machine.store = .ok ref store) :
    ({ machine with store } : Machine τ).Idle (ref :: held) := by
  have left := (StoreM.Accounts.allocate_leaf idle.ready.sound leaf valid plain).of_ok made
  exact (idle.ready.stays_of_leaves left).idle idle

/-- A machine whose host has made some code and a dictionary for its names, and has entered a frame
for them. -/
structure Opened (bytecode : Bytes) (tracker final : τ) (opened : Machine τ) : Prop where
  entered : ∃ first second,
    StoreM.allocate (.code ⟨"main", bytecode, #[], #[]⟩) (Store.initial tracker) = .ok ⟨19⟩ first ∧
    StoreM.allocate (.dict .empty) first = .ok ⟨20⟩ second ∧
    enterFrame ⟨19⟩ ⟨20⟩ ⟨20⟩ { Machine.start tracker .off with store := second } = .ok () opened
  places : opened.frames.items.map (fun activation =>
    (activation.bytecode, activation.offset, activation.blocks, activation.code)) =
      [(bytecode, 0, [], ⟨19⟩)]
  coded : opened.store.payload? ⟨19⟩ = some (.code ⟨"main", bytecode, #[], #[]⟩)
  values : opened.values.items = []
  error : opened.error = none
  tracker : opened.store.tracker = final

theorem Opened.within {bytecode : Bytes} {tracker final : τ} {opened : Machine τ}
    (opens : Opened bytecode tracker final opened) :
    ∃ activation, opened.Within activation [] [] [⟨20⟩, ⟨19⟩] ∧ activation.blocks = [] ∧
      activation.bytecode = bytecode ∧ activation.offset = 0 ∧ activation.code = ⟨19⟩ := by
  obtain ⟨first, second, coded, named, entered⟩ := opens.entered
  have loaded := idle_of_allocate (idle_start tracker .off) rfl (fun _ => Payload.noConfusion)
    (by simp [Payload.kind]) coded
  have ready := idle_of_allocate loaded rfl
    (fun table same => by cases same; exact Table.valid_empty) (by simp [Payload.kind]) named
  have parts : ([⟨19⟩, ⟨20⟩, ⟨20⟩] : List Ref) ⊆ [⟨20⟩, ⟨19⟩] := by simp
  obtain ⟨activation, -, within⟩ := ((enterFrame_ends ready.ready parts).of_ok entered).2.within
  have places := opens.places
  rw [within.frames] at places
  simp only [List.map_cons, List.cons.injEq, Prod.mk.injEq] at places
  obtain ⟨⟨bytes, offset, blocks, code⟩, -⟩ := places
  exact ⟨activation, within, blocks, bytes, offset, code⟩

/-- The host may hold code that sets its line and then takes a value where there is none.  The
report of that error has an entry for each frame, since nothing is refused. -/
theorem hostCalls_deliver_underflow :
    ∃ machine : Machine Unlimited, machine.Idle [⟨20⟩, ⟨19⟩] ∧
      machine.store.payload? ⟨19⟩ = some (.code ⟨"main", #[127, 7, 0, 1], #[], #[]⟩) ∧
      Ends (evaluate 9 ⟨19⟩ ⟨20⟩ ⟨20⟩ none machine)
        (Delivers 9 (fun run => evaluateCode run ⟨19⟩ ⟨20⟩ ⟨20⟩ none) machine)
        (fun _ _ => False) ∧
      ∃ begun histories cause failing after report final,
        beginCall machine = .ok () begun ∧
        evaluate 9 ⟨19⟩ ⟨20⟩ ⟨20⟩ none machine = .ok none after ∧
        Origin 9 (fun run => evaluateCode run ⟨19⟩ ⟨20⟩ ⟨20⟩ none) begun histories cause failing ∧
        takeReport after = .ok (some report) final ∧ report.kind = some cause.kind ∧
        report.traceback = fullTraceback failing.frames.items histories := by
  let begun := Machine.start Unlimited.mk .off
  let first : Cell := ⟨1, some (.code ⟨"main", #[127, 7, 0, 1], #[], #[]⟩)⟩
  let second : Cell := ⟨1, some (.dict .empty)⟩
  let loaded : Store Unlimited := { begun.store with cells := begun.store.cells.push (some first) }
  let named : Store Unlimited := { loaded with cells := loaded.cells.push (some second) }
  have made : StoreM.allocate (.code ⟨"main", #[127, 7, 0, 1], #[], #[]⟩) begun.store =
      .ok ⟨19⟩ loaded := rfl
  have added : StoreM.allocate (.dict .empty) loaded = .ok ⟨20⟩ named := rfl
  have coded := idle_of_allocate (idle_start Unlimited.mk .off) rfl
    (fun _ => Payload.noConfusion) (by decide) made
  have holding : Machine.Idle _ ((none : Option Ref).toList ++ [⟨20⟩, ⟨19⟩]) :=
    idle_of_allocate coded rfl (fun table same => by cases same; exact Table.valid_empty)
      (by decide) added
  have delivers := (hostCalls_deliver 9 holding).1 ⟨19⟩ ⟨20⟩ ⟨20⟩ (by decide)
  obtain ⟨after, ran⟩ : ∃ after,
      evaluate 9 ⟨19⟩ ⟨20⟩ ⟨20⟩ none { begun with store := named } = .ok none after := by
    have failed : (match evaluate 9 ⟨19⟩ ⟨20⟩ ⟨20⟩ none { begun with store := named } with
      | .ok none _ => true
      | _ => false) = true := by decide +kernel
    split at failed
    · exact ⟨_, ‹_›⟩
    · cases failed
  obtain ⟨entered, histories, cause, failing, began, origin, reached⟩ :=
    (delivers.of_ok ran).2 rfl
  obtain ⟨report, final, taken, kind, -, -, traceback⟩ := reached.report
  exact ⟨_, holding, rfl, delivers, entered, histories, cause, failing, after, report, final, began,
    ran, origin, taken, kind, traceback StoreM.grants_unlimited⟩

end MachineM

end StackMachine
