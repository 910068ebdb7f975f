import StackMachine.Proofs.Evolution.Conversion
import StackMachine.Proofs.Evolution.Running
import StackMachine.Proofs.Session.Requests

/-!
# Where requests get to

Every request follows the courses that the machine may take, as long as code that it runs
does.  A request for the trace is the only one whose answer depends on the tracer.
-/

namespace StackMachine

variable {τ α β : Type}

instance : Traced (Session τ) where
  tracer session := session.machine.tracer
  retrace tracer session :=
    { session with machine := Traced.retrace tracer session.machine }
  tracer_retrace _ _ := rfl
  retrace_retrace _ _ _ := rfl
  retrace_tracer _ := rfl

/-- What happens to the machine of a session goes a course of the machine. -/
def Course.within (course : Course (Machine τ)) : Course (Session τ) where
  goes before events after := course.goes before.machine events after.machine
  halts before events after := course.halts before.machine events after.machine
  refl session := course.refl session.machine
  trans := course.trans
  halts_after := course.halts_after

/-- Does the request run code? -/
def Request.runs : Request → Bool
  | .evaluate _ _ _ _ _ | .call _ _ _ | .run _ => true
  | _ => false

namespace SessionM

open Course Machine

/-- The operation tells every tracer the same, and its machine gets where the course leads. -/
abbrev Follows (course : Course (Machine τ)) (act : SessionM τ α) : Prop :=
  course.within.Follows act.run

namespace Follows

variable {course : Course (Machine τ)} {act : SessionM τ α} {next : α → SessionM τ β}

theorem pure (value : α) : Follows course (pure value : SessionM τ α) :=
  Course.Follows.pure (Except.ok value)

theorem reply (reply : Reply τ) : Follows course (throw reply : SessionM τ α) :=
  Course.Follows.pure (Except.error reply)

theorem bind (first : Follows course act) (second : ∀ value, Follows course (next value)) :
    Follows course (act >>= next) := by
  show course.within.Follows (act.run >>= ExceptT.bindCont next)
  refine Course.Follows.bind first fun result => ?_
  cases result with
  | ok value => exact second value
  | error reply => exact Course.Follows.pure (Except.error reply)

theorem get_bind {next : Session τ → SessionM τ β}
    (same : ∀ tracer session, next (Traced.retrace tracer session) = next session)
    (rest : ∀ session, Follows course (next session)) : Follows course (get >>= next) := by
  have run_eq : (get >>= next : SessionM τ β).run =
      (get : EStateM (Stop Failure) (Session τ) (Session τ)) >>= fun session =>
        (next session).run := rfl
  show course.within.Follows (get >>= next : SessionM τ β).run
  rw [run_eq]
  exact Course.Follows.get_bind (fun tracer session => congrArg ExceptT.run (same tracer session))
    rest

/-- The registers change, and the machine does not. -/
theorem modify {change : Session τ → Session τ}
    (same : ∀ tracer session, change (Traced.retrace tracer session) =
      Traced.retrace tracer (change session))
    (machine : ∀ session, (change session).machine = session.machine) :
    Follows course (modify change : SessionM τ PUnit) := by
  intro before
  refine ⟨[], fun tracer => ?_, ?_⟩
  · show EStateM.Result.ok _ (change (Traced.retrace tracer before)) = _
    rw [same]
    rfl
  · show course.goes before.machine [] (change before).machine
    rw [machine]
    exact course.refl before.machine

theorem onMachine {act : MachineM τ α} (follows : course.Follows act) :
    Follows course (onMachine act) := by
  intro before
  obtain ⟨machine, registers, seen⟩ := before
  obtain ⟨events, same, led⟩ := follows machine
  refine ⟨events, fun tracer => ?_, ?_⟩
  · have alike := same tracer
    simp only [SessionM.onMachine, ExceptT.lift, ExceptT.run, ExceptT.mk, Functor.map,
      EStateM.map, Traced.retrace] at alike ⊢
    rw [alike]
    cases act machine <;> rfl
  · simp only [SessionM.onMachine, ExceptT.lift, ExceptT.run, ExceptT.mk, Functor.map,
      EStateM.map]
    cases ran : act machine with
    | ok value after =>
        rw [ran] at led
        exact led
    | error stop after =>
        rw [ran] at led
        cases stop <;> exact led

end Follows

section Requests

variable [Tracker τ] {course : Course (Machine τ)}

section Narrow

variable [Narrow course]

theorem onStore_follows {act : StoreM τ α} (evolves : StoreM.Evolves act) :
    Follows course (onStore act) :=
  .onMachine (MachineM.onStore_follows evolves)

omit [Tracker τ] [Narrow course] in
theorem read_follows (name : Register) : Follows course (read name : SessionM τ Ref) := by
  refine .get_bind (fun _ _ => rfl) fun session => ?_
  cases session.registers.lookup name with
  | some ref => exact .pure ref
  | none => exact .reply _

omit [Tracker τ] [Narrow course] in
theorem readAll_follows (names : List Register) :
    Follows course (readAll names : SessionM τ (List Ref)) := by
  induction names with
  | nil => exact .pure []
  | cons name rest ih =>
      exact (read_follows name).bind fun first => ih.bind fun others => .pure (first :: others)

omit [Tracker τ] [Narrow course] in
theorem take_follows (name : Register) : Follows course (take name : SessionM τ Ref) :=
  (read_follows name).bind fun ref =>
    Follows.bind (.modify (fun _ _ => rfl) fun _ => rfl) fun _ => .pure ref

omit [Tracker τ] [Narrow course] in
theorem takeAll_follows (names : List Register) :
    Follows course (takeAll names : SessionM τ (List Ref)) := by
  induction names with
  | nil => exact .pure []
  | cons name rest ih =>
      exact (take_follows name).bind fun first => ih.bind fun others => .pure (first :: others)

theorem write_follows (name : Register) (ref : Ref) :
    Follows course (write name ref : SessionM τ Unit) :=
  .get_bind (fun _ _ => rfl) fun _ =>
    Follows.bind (.modify (fun _ _ => rfl) fun _ => rfl) fun _ =>
      onStore_follows (StoreM.releaseAll_evolves _)

theorem reporting_follows {act : StoreM τ α} (evolves : StoreM.Evolves act) :
    Follows course (reporting act) := by
  refine (onStore_follows (MachineM.reporting_evolves evolves)).bind fun result => ?_
  cases result with
  | ok value => exact .pure value
  | error report => exact .reply _

theorem holding_follows {act : SessionM τ α} (refs : List Ref) (body : Follows course act) :
    Follows course (holding refs act) := by
  refine (onStore_follows (StoreM.acquireAll_evolves refs)).bind fun _ => ?_
  have lifted : Follows course (ExceptT.lift act.run : SessionM τ (Except (Reply τ) α)) :=
    Course.Follows.map body Except.ok
  refine lifted.bind fun result => (onStore_follows (StoreM.releaseAll_evolves refs)).bind
    fun _ => ?_
  cases result with
  | ok value => exact .pure value
  | error reply => exact .reply reply

theorem object_follows (ref : Ref) : Follows course (object ref : SessionM τ Object) :=
  .onMachine (MachineM.toObject_follows ref)

theorem produce_follows (target : Register) {act : StoreM τ Ref} (evolves : StoreM.Evolves act) :
    Follows course (produce target act) :=
  (reporting_follows evolves).bind fun ref => (object_follows ref).bind fun shown =>
    (write_follows target ref).bind fun _ => .pure (Answer.object shown)

theorem produceFrom_follows (target : Register) (sources : List Register)
    {act : List Ref → StoreM τ Ref} (evolves : ∀ refs, StoreM.Evolves (act refs)) :
    Follows course (produceFrom target sources act) :=
  (readAll_follows sources).bind fun refs =>
    holding_follows refs (produce_follows target (evolves refs))

theorem inspect_follows (source : Register)
    (read_ : Store τ → Ref → Except (Stop Cause) (Answer τ)) :
    Follows course (inspect source read_) :=
  (read_follows source).bind fun _ => onStore_follows (.reading _)

theorem change_follows (container value : Register) {act : Ref → Ref → StoreM τ Unit}
    (evolves : ∀ container value, StoreM.Evolves (act container value)) :
    Follows course (change container value act) :=
  (readAll_follows _).bind fun refs => holding_follows refs <|
    (read_follows container).bind fun ref => (take_follows value).bind fun taken =>
      (reporting_follows (evolves ref taken)).bind fun _ => .pure Answer.nothing

theorem discover_follows (target : Option Register) (found : Option Ref) :
    Follows course (discover target found : SessionM τ (Answer τ)) := by
  cases found with
  | none => exact .pure Answer.absent
  | some ref =>
      refine (object_follows ref).bind fun shown => ?_
      cases target with
      | none => exact .pure (Answer.found shown)
      | some target =>
          exact (onStore_follows (StoreM.acquire_evolves ref)).bind fun ref =>
            (write_follows target ref).bind fun _ => .pure (Answer.found shown)

theorem conclude_follows (target : Register) (result : Option Ref) :
    Follows course (conclude target result : SessionM τ (Answer τ)) := by
  cases result with
  | some ref =>
      exact (object_follows ref).bind fun shown => (write_follows target ref).bind fun _ =>
        .pure (Answer.object shown)
  | none =>
      exact Follows.bind (.onMachine MachineM.errorKind_follows) fun kind => .reply _

/-! ## Longer requests -/

theorem fill_evolves (dict : Ref) (stem : String) (count index : Nat) :
    StoreM.Evolves (fill dict stem count index : StoreM τ Unit) := by
  induction count generalizing index with
  | zero => exact .pure ()
  | succ count ih =>
      exact (StoreM.acquire_evolves _).bind fun value =>
        (StoreM.dictInsert_evolves dict _ value).bind fun _ => ih (index + 1)

theorem nest_follows (source : Register) (count : Nat) {pack : Array Ref → Payload}
    (simple : ∀ items, decide (pack items).IsSimple = true) :
    Follows course (nest source pack count : SessionM τ (Answer τ)) := by
  induction count with
  | zero => exact (read_follows source).bind fun _ => .pure Answer.nothing
  | succ count ih =>
      have once : Follows course (nestOnce source pack : SessionM τ Unit) :=
        (take_follows source).bind fun ref =>
          (reporting_follows (StoreM.allocate_evolves _ (simple _))).bind fun made =>
            write_follows source made
      exact once.bind fun _ => ih

theorem gather_follows (target : Register) (items : List Register) {pack : Array Ref → Payload}
    (simple : ∀ items, decide (pack items).IsSimple = true) :
    Follows course (gather target items pack : SessionM τ (Answer τ)) :=
  (readAll_follows items).bind fun _ => (takeAll_follows items).bind fun _ =>
    produce_follows target (StoreM.allocate_evolves _ (simple _))

/-- Building an object from a value acts on the store only. -/
theorem input_follows (target : Register) (value : Object) :
    Follows course (input target value : SessionM τ (Answer τ)) := by
  refine Follows.bind (.onMachine ?_) fun built => ?_
  · intro before
    have advances := (StoreM.ofObject_evolves value : StoreM.Evolves (StoreM.ofObject value :
      StoreM.Input τ Ref)).attempt before.store
    obtain ⟨store, values, frames, error, traceback, tracer⟩ := before
    simp only at advances
    cases built : Outcome.attempt (StoreM.ofObject value) store with
    | ok made after =>
        rw [built] at advances
        refine ⟨[], fun tracer => ?_, ?_⟩
        · simp only [Traced.retrace, built]
          rfl
        · simp only [built]
          exact Narrow.goes_store advances
    | error stop after =>
        rw [built] at advances
        refine ⟨[], fun tracer => ?_, ?_⟩
        · simp only [Traced.retrace, built]
          cases stop <;> rfl
        · simp only [built]
          cases stop with
          | failed failure => exact Narrow.halts_store
          | fault broken => trivial
          | unfinished => exact Narrow.halts_store
  · cases built with
    | ok ref => exact conclude_follows target (some ref)
    | error error => exact .reply _

theorem runWith_follows (target : Register) (sources : List Register) (argument : Option Register)
    {act : List Ref → Option Ref → MachineM τ (Option Ref)}
    (runs : ∀ refs argument, course.Follows (act refs argument)) :
    Follows course (runWith target sources argument act) :=
  (readAll_follows sources).bind fun refs => (readAll_follows argument.toList).bind fun _ =>
    holding_follows refs <| (takeAll_follows argument.toList).bind fun taken =>
      Follows.bind (.onMachine (runs refs taken.head?)) fun result => conclude_follows target result

theorem partsOf_follows (read_ : Payload → List Ref) (source : Register) :
    Follows course (partsOf read_ source : SessionM τ (List Ref)) :=
  (read_follows source).bind fun ref => (onStore_follows (StoreM.get_evolves ref)).bind fun _ =>
    .pure _

/-- A dictionary in a register is changed while it is held. -/
theorem changeDict_follows (source : Register) {act : Ref → StoreM τ Unit}
    (evolves : ∀ ref, StoreM.Evolves (act ref)) :
    Follows course (do
      let ref ← read source
      holding [ref] (reporting (act ref))
      return .nothing : SessionM τ (Answer τ)) :=
  (read_follows source).bind fun ref =>
    (holding_follows [ref] (reporting_follows (evolves ref))).bind fun _ => .pure Answer.nothing

omit [Tracker τ] [Narrow course] in
/-- The machine is told to do something, and the reply says nothing of it. -/
theorem tell_follows {act : MachineM τ Unit} (follows : course.Follows act) :
    Follows course (do onMachine act; return .nothing : SessionM τ (Answer τ)) :=
  Follows.bind (.onMachine follows) fun _ => .pure Answer.nothing

end Narrow

/-! ## All requests -/

variable [Tame course]

variable {fuel : Nat}

/-- A request follows the courses that code follows which it runs.  Its answer depends on the
tracer only where it asks for the trace. -/
theorem perform_follows {request : Request} (other : request ≠ .trace)
    (runs : request.runs → MachineM.Evaluates course (MachineM.runFrame fuel)) :
    Follows course (perform fuel request) := by
  cases request with
  | trace => exact absurd rfl other
  | int target value => exact produce_follows target (StoreM.allocate_evolves _ rfl)
  | float target value => exact produce_follows target (StoreM.allocate_evolves _ rfl)
  | string target text => exact produce_follows target (StoreM.allocate_evolves _ rfl)
  | dict target => exact produce_follows target StoreM.allocateDict_evolves
  | none target => exact produce_follows target (StoreM.acquire_evolves _)
  | bool target value => exact produce_follows target (StoreM.acquire_evolves _)
  | list target items => exact gather_follows target items fun _ => rfl
  | tuple target items => exact gather_follows target items fun _ => rfl
  | object target value => exact input_follows target value
  | acquire target source => exact produceFrom_follows target _ fun _ => StoreM.acquire_evolves _
  | release source =>
      exact (take_follows source).bind fun ref =>
        (onStore_follows (StoreM.release_evolves ref)).bind fun _ => .pure Answer.nothing
  | releaseNothing => exact .pure Answer.nothing
  | count source => exact inspect_follows source _
  | slot source => exact inspect_follows source _
  | kind source => exact inspect_follows source _
  | truthy source => exact inspect_follows source _
  | length source => exact inspect_follows source _
  | isLive name =>
      refine .get_bind (fun _ _ => rfl) fun session => ?_
      cases session.seen.lookup name with
      | some ref => exact .get_bind (fun _ _ => rfl) fun session => .pure (Answer.flag _)
      | none => exact .reply _
  | same left right =>
      exact (read_follows left).bind fun _ => (read_follows right).bind fun _ =>
        .pure (Answer.flag _)
  | value source => exact inspect_follows source _
  | repr source => exact inspect_follows source _
  | display source => exact inspect_follows source _
  | typeName source => exact inspect_follows source _
  | memberClass source target =>
      exact (partsOf_follows ownerOf source).bind fun _ => discover_follows target _
  | boundParts source function self =>
      refine (partsOf_follows methodParts source).bind fun parts => ?_
      match parts with
      | [foundFunction, foundSelf] =>
          exact (onStore_follows (StoreM.acquireAll_evolves _)).bind fun _ =>
            (write_follows function foundFunction).bind fun _ =>
              (write_follows self foundSelf).bind fun _ => .pure Answer.foundParts
      | [] | [_] | _ :: _ :: _ :: _ => exact .pure Answer.absent
  | dictLookup dict key target =>
      exact (read_follows dict).bind fun ref =>
        (onStore_follows (StoreM.dictLookup_evolves ref _)).bind fun _ => discover_follows target _
  | listGet list index target =>
      exact (partsOf_follows _ list).bind fun _ => discover_follows target _
  | dictInsert dict key value =>
      exact change_follows dict value fun dict value => StoreM.dictInsert_evolves dict _ value
  | dictRemove dict key =>
      exact changeDict_follows dict fun ref => StoreM.dictRemove_evolves ref _
  | listSet list index value =>
      exact change_follows list value fun list value => StoreM.listSet_evolves list index value
  | tupleSet tuple index value =>
      exact change_follows tuple value fun tuple value => StoreM.tupleSet_evolves tuple index value
  | listInsert list index value =>
      exact change_follows list value fun list value => StoreM.listInsert_evolves list index value
  | listAppend list value =>
      exact change_follows list value fun list value => StoreM.listAppend_evolves list value
  | setAttr object name value =>
      exact change_follows object value fun object value =>
        StoreM.storeAttr_evolves object name value
  | dictLength dict => exact inspect_follows dict _
  | dictCapacity dict => exact inspect_follows dict _
  | dictKeyAt dict index => exact inspect_follows dict _
  | dictSlots dict => exact inspect_follows dict _
  | dictFill dict count stem => exact changeDict_follows dict fun ref => fill_evolves ref stem _ _
  | nestList source count => exact nest_follows source count fun _ => rfl
  | nestTuple source count => exact nest_follows source count fun _ => rfl
  | index target sequence index =>
      exact produceFrom_follows target _ fun _ => StoreM.index_evolves _ index
  | slice target sequence low high =>
      exact produceFrom_follows target _ fun _ => StoreM.slice_evolves _ low high
  | concat target left right =>
      exact produceFrom_follows target _ fun _ => StoreM.concat_evolves _ _
  | getAttr target object name =>
      exact produceFrom_follows target _ fun _ => StoreM.loadAttr_evolves _ name
  | module target name => exact produce_follows target (StoreM.registerModule_evolves name)
  | loadCode target image => exact produce_follows target (StoreM.loadImage_evolves image)
  | compare left right =>
      exact (read_follows left).bind fun _ => (read_follows right).bind fun _ =>
        (reporting_follows (.reading _)).bind fun _ => .pure (Answer.ordering _)
  | evaluate target code globals locals argument =>
      exact runWith_follows target _ argument fun _ _ =>
        MachineM.evaluate_follows (runs rfl) _ _ _ _
  | call target callee argument =>
      exact runWith_follows target _ argument fun _ _ => MachineM.invoke_follows (runs rfl) _ _
  | run image =>
      refine Follows.bind (.onMachine (MachineM.runImage_follows (runs rfl) image)) fun result => ?_
      cases result with
      | ok object => exact .pure (Answer.object object)
      | error report => exact .reply _
  | setError kind => exact tell_follows (MachineM.setError_follows kind)
  | setErrorText kind message => exact tell_follows (MachineM.setErrorText_follows kind message)
  | setErrorValue error value =>
      exact (readAll_follows _).bind fun _ => (take_follows error).bind fun first =>
        (take_follows value).bind fun second =>
          tell_follows (MachineM.setErrorValue_follows first second)
  | clearError => exact tell_follows MachineM.clearError_follows
  | errorState =>
      exact .get_bind (fun _ _ => rfl) fun session =>
        Follows.bind (.onMachine MachineM.errorKind_follows) fun kind =>
          .pure (Answer.errorState _ kind)
  | takeError error value =>
      refine Follows.bind (.onMachine MachineM.takeError_follows) fun found => ?_
      rcases found with _ | ⟨foundError, foundValue⟩
      · exact .pure Answer.absent
      · exact (object_follows foundError).bind fun shownError =>
          (object_follows foundValue).bind fun shownValue =>
            (write_follows error foundError).bind fun _ =>
              (write_follows value foundValue).bind fun _ =>
                .pure (Answer.foundError shownError shownValue)
  | takeReport =>
      refine Follows.bind (.onMachine MachineM.takeReport_follows) fun report => ?_
      cases report with
      | some report => exact .pure (Answer.report report)
      | none => exact .pure Answer.absent
  | takeTraceback =>
      exact Follows.bind (.onMachine MachineM.takeTraceback_follows) fun points =>
        .pure (Answer.points points)
  | printTraceback =>
      exact Follows.bind (.onMachine MachineM.traceback_follows) fun points =>
        .pure (Answer.text (Report.tracebackText points))
  | stats => exact .get_bind (fun _ _ => rfl) fun session => .pure (Answer.stats _)
  | depth =>
      refine Follows.bind (.onMachine ?_) fun depth => .pure (Answer.number depth)
      exact .get_bind (fun _ _ => rfl) fun _ => .pure _
  | tracker => exact .get_bind (fun _ _ => rfl) fun session => .pure (Answer.tracker _)

omit [Tame course] in
theorem reply_eq (fuel : Nat) (request : Request) :
    (reply fuel request : EStateM (Stop Failure) (Session τ) (Reply τ)) =
      (perform fuel request).run >>= fun told => pure (asReply told) := by
  unfold reply
  congr 1
  funext told
  cases told <;> rfl

/-- So does the reply to the request. -/
theorem reply_follows {request : Request} (other : request ≠ .trace)
    (runs : request.runs → MachineM.Evaluates course (MachineM.runFrame fuel)) :
    course.within.Follows (reply fuel request) := by
  rw [reply_eq]
  exact Course.Follows.bind (perform_follows other runs) fun told => .pure (asReply told)

end Requests

end SessionM

end StackMachine
