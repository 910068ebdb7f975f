import StackMachine.Machine.Run
import StackMachine.Proofs.Machine.Instructions
import StackMachine.Proofs.Machine.Readiness
import StackMachine.Proofs.Store.Natives

/-!
# Calls

A call is over before any frame runs, or it gets to a point where it runs a frame.
What it does up to there does not depend on how frames are run, and what is left for
afterwards is always the same: to leave the frame, and to give back what was held for
the time of the call.  `finishCall` is that rest, and `Calls` says that an operation
is a call in this sense.
-/

namespace StackMachine

variable {τ α : Type} [Tracker τ]

namespace MachineM

open Outcome

/-! ## What is left to do after a frame has run -/

theorem releaseAll_append (first second : List Ref) :
    (releaseAll (first ++ second) : MachineM τ Unit) =
      releaseAll first >>= fun _ => releaseAll second := by
  funext machine
  obtain ⟨store, values, frames, error, traceback, tracer⟩ := machine
  show onStore (Store.drain (first ++ second)) _ =
    EStateM.bind (onStore (Store.drain first)) (fun _ => onStore (Store.drain second)) _
  unfold EStateM.bind onStore
  simp only [Store.drain_append]
  cases Store.drain first store with
  | ok value store => rfl
  | error stop store => rfl

omit [Tracker τ] in
theorem neverFails_onStore {act : StoreM τ α} (never : NeverFails act) :
    NeverFails (onStore act : MachineM τ α) := by
  intro machine failure after failed
  obtain ⟨store, values, frames, error, traceback, tracer⟩ := machine
  unfold onStore at failed
  simp only at failed
  cases result : act store with
  | ok value final =>
      rw [result] at failed
      cases failed
  | error stop final =>
      rw [result] at failed
      cases stop with
      | failed cause => exact never store cause final result
      | fault broken => cases failed
      | unfinished => cases failed

theorem neverFails_releaseAll (refs : List Ref) :
    NeverFails (releaseAll refs : MachineM τ Unit) :=
  neverFails_onStore (Store.neverFails_drain refs)

omit [Tracker τ] in
theorem neverFails_splitOff (base : Nat) : NeverFails (splitOff base : MachineM τ (List Ref)) := by
  refine .bind .get fun machine => ?_
  simp only
  split
  · exact .fault _
  · exact .bind (.modify _) fun _ => .pure _

theorem neverFails_leaveFrame : NeverFails (leaveFrame : MachineM τ Unit) := by
  refine .bind .get fun machine => ?_
  cases machine.frames.top? with
  | none => exact .fault _
  | some activation =>
      refine .bind (.modify _) fun _ => ?_
      refine .bind (neverFails_splitOff _) fun leftovers => ?_
      exact .bind (neverFails_releaseAll _) fun _ => .modify _

/-- Run a frame, leave it, and give back what was held meanwhile. -/
def finishCall (pending : List Ref) (run : MachineM τ Ref) : MachineM τ Ref := do
  let result ← attempt run
  leaveFrame
  releaseAll pending
  settle result

theorem releasing_finishCall (refs pending : List Ref) (run : MachineM τ Ref) :
    releasing refs (finishCall pending run) = finishCall (pending ++ refs) run := by
  unfold releasing finishCall
  rw [attempt_bind (neverFails_attempt run)]
  simp only [attempt_bind neverFails_leaveFrame, attempt_bind (neverFails_releaseAll pending),
    attempt_settle, bind_assoc, pure_bind, releaseAll_append]

/-! ## Calls -/

open Store Machine

variable {machine before after : Machine τ} {held extra pending refs : List Ref}

/-- How a call ends that is over before any frame runs. -/
def Settles (machine : Machine τ) (held : List Ref)
    (result : EStateM.Result (Stop Failure) (Machine τ) Ref) : Prop :=
  Ends result (fun value => machine.Stays held [value]) (FailsHere machine held)

/-- A new frame lies above those that were active, and is about to run. -/
structure Entered (before : Machine τ) (held pending : List Ref) (inside : Machine τ) : Prop where
  within : ∃ activation, activation.line = 0 ∧
    inside.Within activation before.frames.items before.values.items (pending ++ held)
  error : inside.error = before.error
  traceback : inside.traceback = before.traceback
  retains : Keeps ((before.values.items ++ held) ++ before.fixtures) before.store inside.store

omit [Tracker τ] in
theorem Entered.upholds {before inside : Machine τ} {pending : List Ref}
    (entered : Entered before held pending inside) :
    before.Upholds (before.values.items ++ held) inside := by
  obtain ⟨activation, -, within⟩ := entered.within
  refine ⟨?_, entered.retains.mono (append_subset_append _ ?_)⟩
  · rw [frameRefs, frameRefs, within.frames, List.map_cons]
    exact List.subset_cons_self _ _
  · exact List.subset_append_of_subset_right _ (List.subset_append_left _ _)

/-- An operation is over before any frame runs, or runs one and finishes as calls do. -/
inductive Calls (act : MachineM τ Ref → MachineM τ Ref) (machine : Machine τ)
    (held : List Ref) : Prop where
  | direct (result : EStateM.Result (Stop Failure) (Machine τ) Ref)
      (always : ∀ run, act run machine = result) (settles : Settles machine held result)
  | enters (pending : List Ref) (inside : Machine τ)
      (always : ∀ run, act run machine = finishCall pending run inside)
      (entered : Entered machine held pending inside)

omit [Tracker τ] in
theorem Entered.of_stays {taken : List Ref} {middle inside : Machine τ}
    (entered : Entered middle held pending inside) (stays : before.Stays taken extra middle)
    (fewer : held ⊆ taken) : Entered before held pending inside := by
  have passes := stays.passes.mono (append_subset_append before.values.items fewer)
  have fixtures_eq := passes.fixtures_eq
  obtain ⟨store, rfl⟩ := stays.same
  exact ⟨entered.within, entered.error, entered.traceback,
    passes.retains.trans (fixtures_eq ▸ entered.retains)⟩

omit [Tracker τ] in
theorem Settles.of_stays {taken : List Ref} {middle : Machine τ}
    {result : EStateM.Result (Stop Failure) (Machine τ) Ref} (settles : Settles middle held result)
    (stays : before.Stays taken extra middle) (fewer : held ⊆ taken) :
    Settles before held result :=
  Ends.mono settles (fun _ _ later => stays.trans later fewer)
    (fun _ _ failed => ⟨failed.1, stays.trans failed.2 fewer⟩)

/-- An operation that never runs a frame. -/
theorem Calls.settled {act : MachineM τ Ref} (settles : Settles machine held (act machine)) :
    Calls (fun _ => act) machine held :=
  .direct (act machine) (fun _ => rfl) settles

/-- Something else is done first. -/
theorem Calls.bind {first : MachineM τ α} {next : MachineM τ Ref → α → MachineM τ Ref}
    {returns : α → Machine τ → Prop}
    (ends : Ends (first machine) returns (FailsHere machine held))
    (rest : ∀ value after, returns value after → Calls (next · value) after held ∧
      ∃ taken extra, machine.Stays taken extra after ∧ held ⊆ taken) :
    Calls (fun run => first >>= next run) machine held := by
  cases result : first machine with
  | ok value after =>
      rw [result] at ends
      obtain ⟨calls, taken, extra, stays, fewer⟩ := rest value after ends
      cases calls with
      | direct outcome always settles =>
          refine .direct outcome (fun run => ?_) (settles.of_stays stays fewer)
          rw [StoreM.bind_ok result, always]
      | enters pending inside always entered =>
          refine .enters pending inside (fun run => ?_) (entered.of_stays stays fewer)
          rw [StoreM.bind_ok result, always]
  | error stop after =>
      refine .direct (.error stop after) (fun run => ?_) ?_
      · show EStateM.bind first (next run) machine = _
        rw [EStateM.bind, result]
      · rw [result] at ends
        cases stop with
        | failed failure => exact ends
        | fault broken => exact ends
        | unfinished => trivial

/-- What is run and given back after depends on what happens, not on how it is written. -/
theorem releasing_congr {act other : MachineM τ α} {first second : Machine τ}
    (same : act first = other second) :
    releasing refs act first = releasing refs other second := by
  show EStateM.bind (attempt act) _ first = EStateM.bind (attempt other) _ second
  unfold EStateM.bind attempt
  rw [same]

theorem releasing_settles {act : MachineM τ Ref}
    (settles : Settles machine (refs ++ held) (act machine)) :
    Settles machine held (releasing refs act machine) := by
  let gives : Except Failure Ref → List Ref := StoreM.Accounts.orNothing fun value => [value]
  have attempted : Ends (attempt act machine)
      (fun result after => machine.Stays (refs ++ held) (gives result) after ∧
        ∀ failure, result = .error failure → ∃ cause, failure = .raised cause)
      (FailsHere machine held) := by
    refine Ends.attempt (Ends.mono settles ?_ ?_)
    · exact fun value after stays => ⟨stays, fun _ same => by cases same⟩
    · rintro failure after ⟨raised, stays⟩
      exact ⟨stays, fun _ same => Except.error.inj same ▸ raised⟩
  refine Ends.bind attempted ?_
  rintro result middle ⟨stays, raised⟩
  have owing : middle.Ready (refs ++ (gives result ++ held)) :=
    stays.ready.perm (List.perm_append_comm_assoc _ _ _)
  obtain ⟨after, released, final⟩ := releaseAll_ready owing
  have left : machine.Stays held (gives result) after :=
    stays.trans final.regroup (List.subset_append_right _ _)
  rw [StoreM.bind_ok released]
  cases result with
  | ok value => exact left
  | error failure => exact ⟨raised failure rfl, left⟩

/-- References are held for the time of a call. -/
theorem Calls.releasing {act : MachineM τ Ref → MachineM τ Ref}
    (calls : Calls act machine (refs ++ held)) :
    Calls (fun run => MachineM.releasing refs (act run)) machine held := by
  cases calls with
  | direct outcome always settles =>
      let constant : MachineM τ Ref := fun _ => outcome
      refine .direct (MachineM.releasing refs constant machine) (fun run => ?_) ?_
      · exact releasing_congr (always run)
      · exact releasing_settles settles
  | enters pending inside always entered =>
      refine .enters (pending ++ refs) inside (fun run => ?_) ?_
      · rw [← releasing_finishCall]
        exact releasing_congr (always run)
      · obtain ⟨activation, fresh, within⟩ := entered.within
        refine ⟨⟨activation, fresh, ?_⟩, entered.error, entered.traceback, ?_⟩
        · rw [List.append_assoc]
          exact within
        · refine entered.retains.mono fun ref member => ?_
          simp only [List.mem_append] at member ⊢
          tauto

/-! ## Entering and leaving frames -/

section Entering

variable {store : Store τ} {inner : List Ref} {back : Option Ref} {code globals locals : Ref}

theorem chargeFrame_ends (sound : store.Sound held inner) (depth : Nat) :
    Ends ((chargeFrame depth : StoreM τ Unit) store)
      (fun _ after => ∃ tracker, after = { store with tracker })
      (fun _ => store.Leaves held inner []) := by
  unfold chargeFrame
  split
  · exact ⟨_, rfl⟩
  · exact ⟨sound.withTracker _, SamePayloads.keeps (fun _ => rfl) _⟩

omit [Tracker τ] in
theorem getCode_ends (sound : store.Sound held inner) (filled : store.Filled code) :
    Ends ((getCode code : StoreM τ CodeObject) store)
      (fun object after => after = store ∧ store.payload? code = some (.code object))
      (fun _ => store.Leaves held inner []) := by
  obtain ⟨payload, found⟩ := filled
  unfold getCode
  rw [StoreM.get_bind found]
  cases payload with
  | code object => exact ⟨rfl, found⟩
  | _ => exact ⟨sound, Keeps.refl _ _⟩

omit [Tracker τ] in
theorem requireDict_ends {ref : Ref} (sound : store.Sound held inner)
    (filled : store.Filled ref) :
    Ends ((requireDict ref : StoreM τ Unit) store)
      (fun _ after => after = store ∧ store.kind? ref = some .dictionary)
      (fun _ => store.Leaves held inner []) := by
  obtain ⟨payload, found⟩ := filled
  unfold requireDict
  rw [StoreM.get_bind found]
  cases payload with
  | dict table => exact ⟨rfl, kind?_eq found⟩
  | _ => exact ⟨sound, Keeps.refl _ _⟩

omit [Tracker τ] in
/-- A new frame takes references to the frame of its caller and to its parts. -/
theorem acquireParts (sound : store.Sound held inner)
    (caller : ∀ ref, back = some ref → store.Filled ref)
    (usable : ∀ ref ∈ [code, globals, locals], store.Usable ref) :
    ∃ after, (StoreM.acquireAll (back.toList ++ [code, globals, locals]) : StoreM τ Unit) store =
        .ok () after ∧
      after.Sound ([code, globals, locals] ++ held) (back.toList ++ inner) ∧
      SamePayloads store after := by
  cases back with
  | none => exact StoreM.acquireAll_values sound usable
  | some ref =>
      obtain ⟨payload, found⟩ := caller ref rfl
      obtain ⟨middle, acquired, middleSound, same⟩ := StoreM.acquire_inner sound found
      obtain ⟨after, finished, afterSound, same'⟩ := StoreM.acquireAll_values middleSound
        fun ref member => same.usable (usable ref member)
      refine ⟨after, ?_, afterSound, same.trans same'⟩
      show (StoreM.acquire ref >>= fun _ => StoreM.acquireAll [code, globals, locals]) store = _
      rw [StoreM.bind_ok acquired, finished]

/-- A frame is made of its parts. -/
theorem newFrame_ends (sound : store.Sound held inner)
    (caller : ∀ ref, back = some ref → store.kind? ref = some .frame)
    (usable : ∀ ref ∈ [code, globals, locals], store.Usable ref)
    (isCode : store.kind? code = some .code) (isGlobals : store.kind? globals = some .dictionary)
    (isLocals : store.kind? locals = some .dictionary) :
    Ends (newFrame back code globals locals store)
      (fun frame after => after.Sound held (frame :: inner) ∧ Keeps (held ++ inner) store after ∧
        after.payload? frame = some (.frame back code globals locals))
      (fun _ => store.Leaves held inner []) := by
  have callerFilled : ∀ ref, back = some ref → store.Filled ref := by
    intro ref present
    obtain ⟨payload, found, -⟩ := Option.map_eq_some_iff.mp (caller ref present)
    exact ⟨payload, found⟩
  obtain ⟨middle, acquired, middleSound, same⟩ := acquireParts sound callerFilled usable
  have kinds : ∀ ref, middle.kind? ref = store.kind? ref := fun ref => by rw [kind?, kind?, same]
  have makes : middle.Makes (.frame back code globals locals) := by
    refine .of_roles (by simp [Payload.kind]) ?_
    intro child role part
    have meets := fun ref member => (same.usable (usable ref member)).meets
    simp only [Payload.roles, List.mem_append, List.mem_map, Option.mem_toList, List.mem_cons,
      Prod.mk.injEq, List.not_mem_nil, or_false] at part
    rcases part with ⟨ref, present, rfl, rfl⟩ | ⟨rfl, rfl⟩ | ⟨rfl, rfl⟩ | ⟨rfl, rfl⟩
    · exact middleSound.meets_of_kind ((kinds ref).trans (caller ref present)) (by simp)
    · exact ⟨(meets child (by simp)).ne_builtins, (meets child (by simp)).ne_modules,
        (kinds _).trans isCode⟩
    · exact ⟨(meets child (by simp)).ne_builtins, (meets child (by simp)).ne_modules,
        (kinds _).trans isGlobals⟩
    · exact ⟨(meets child (by simp)).ne_builtins, (meets child (by simp)).ne_modules,
        (kinds _).trans isLocals⟩
  have owing : (roots ++ (([code, globals, locals] ++ held) ++ (back.toList ++ inner))).Perm
      ((Payload.frame back code globals locals).children ++ (roots ++ (held ++ inner))) := by
    rw [List.perm_iff_count]
    intro ref
    simp only [Payload.children, List.count_append]
    omega
  unfold newFrame
  rw [StoreM.bind_ok acquired]
  refine (StoreM.allocate_ends middleSound makes (List.subset_append_right _ _) owing).mono ?_ ?_
  · rintro frame after ⟨-, afterSound, keeps, found⟩
    exact ⟨afterSound, (same.keeps _).trans keeps, found⟩
  · rintro cause after ⟨afterSound, keeps⟩
    exact ⟨afterSound, (same.keeps _).trans keeps⟩

/-- A frame is made for code and two dictionaries. -/
theorem openFrame_ends (sound : store.Sound held inner)
    (caller : ∀ ref, back = some ref → store.kind? ref = some .frame)
    (parts : [code, globals, locals] ⊆ held) (depth base : Nat) :
    Ends (openFrame back depth base code globals locals store)
      (fun activation after => after.Sound held (activation.frame :: inner) ∧
        Keeps (held ++ inner) store after ∧ activation.Placed after ∧ activation.line = 0 ∧
        activation.base = base)
      (fun _ => store.Leaves held inner []) := by
  refine Ends.bind (chargeFrame_ends sound depth) ?_
  rintro _ asked ⟨tracker, rfl⟩
  have asking : SamePayloads store { store with tracker } := fun _ => rfl
  replace sound := sound.withTracker tracker
  have usable : ∀ ref ∈ [code, globals, locals], Store.Usable { store with tracker } ref :=
    fun ref member => sound.usable (parts member)
  have filled := fun ref member => (usable ref member).filled
  -- what goes on from here starts out from the store whose tracker was asked
  suffices ends : Ends _
      (fun (activation : Activation) after => after.Sound held (activation.frame :: inner) ∧
        Keeps (held ++ inner) { store with tracker } after ∧ activation.Placed after ∧
        activation.line = 0 ∧ activation.base = base)
      (fun _ => Store.Leaves { store with tracker } held inner []) from
    ends.mono (fun _ _ known => ⟨known.1, (asking.keeps _).trans known.2.1, known.2.2⟩)
      fun _ _ left => ⟨left.sound, (asking.keeps _).trans left.keeps⟩
  refine Ends.bind (getCode_ends sound (filled code (by simp))) ?_
  rintro object _ ⟨rfl, coded⟩
  refine Ends.bind (requireDict_ends sound (filled globals (by simp))) ?_
  rintro _ _ ⟨rfl, isGlobals⟩
  refine Ends.bind (requireDict_ends sound (filled locals (by simp))) ?_
  rintro _ _ ⟨rfl, isLocals⟩
  refine Ends.bind (newFrame_ends sound caller usable (kind?_eq coded) isGlobals isLocals) ?_
  rintro frame after ⟨afterSound, keeps, found⟩
  refine ⟨afterSound, keeps, ⟨⟨back, found⟩, object, ?_, rfl, rfl, rfl⟩, rfl, rfl⟩
  exact keeps.fixed (.held (List.mem_append_left _ (parts List.mem_cons_self))) coded rfl

omit [Tracker τ] in
/-- The caller of a new frame has its place. -/
theorem caller_kind (ready : machine.Ready held) (ref : Ref)
    (top : machine.frames.top?.map (·.frame) = some ref) :
    machine.store.kind? ref = some .frame := by
  obtain ⟨activation, first, rfl⟩ := Option.map_eq_some_iff.mp top
  obtain ⟨back, found⟩ := (ready.placed activation (List.mem_of_head? first)).frame
  exact kind?_eq found

/-- A frame is entered, or nothing happens. -/
theorem enterFrame_ends (ready : machine.Ready held) (parts : [code, globals, locals] ⊆ held) :
    Ends (enterFrame code globals locals machine)
      (fun _ after => after.values = machine.values ∧ Entered machine held [] after)
      (FailsHere machine held) := by
  have opened := openFrame_ends ready.sound (caller_kind ready)
    (List.Subset.trans parts (List.subset_append_left _ _)) machine.frames.height
    machine.values.height
  have read : (get : MachineM τ (Machine τ)) machine = .ok machine machine := rfl
  unfold enterFrame
  rw [StoreM.bind_ok read]
  refine Ends.bind ((onStore_ends opened).mono (fun _ _ => id) ?_) ?_
  · rintro failure _ ⟨cause, store, rfl, rfl, left⟩
    exact ⟨⟨cause, rfl⟩, ready.stays_of_leaves left⟩
  rintro activation _ ⟨store, rfl, sound, keeps, placed, fresh, base⟩
  refine ⟨rfl, ⟨activation, fresh, ⟨sound, ?_, ?_, ?_⟩, rfl, ⟨[], rfl⟩, ?_⟩, rfl, rfl, ?_⟩
  · intro other member
    rcases List.mem_cons.mp member with rfl | earlier
    · exact placed
    · refine (ready.placed other earlier).of_keeps ?_ keeps
      exact List.mem_append_right _ (List.mem_append_left _ (List.mem_map_of_mem earlier))
  · intro ref member
    refine headed_of_keeps (ready.headed ref member) ?_ keeps
    exact List.mem_append_right _ (List.mem_append_right _ (Option.mem_toList.mpr member))
  · exact ⟨Nat.le_of_eq base, base ▸ ready.stacked⟩
  · rw [base, machine.values.height_eq]
  · refine keeps.mono fun ref member => ?_
    simp only [fixtures, List.mem_append] at member ⊢
    tauto

end Entering

omit [Tracker τ] in
theorem splitOff_eq {own below : List Ref} (items : machine.values.items = own ++ below) :
    (splitOff below.length : MachineM τ (List Ref)) machine =
      .ok own.reverse { machine with values := machine.values.drop own.length } := by
  have height : machine.values.height - below.length = own.length := by
    rw [machine.values.height_eq, items, List.length_append, Nat.add_sub_cancel]
  have enough : ¬ machine.values.height < below.length := by
    rw [machine.values.height_eq, items, List.length_append]
    omega
  have read : (get : MachineM τ (Machine τ)) machine = .ok machine machine := rfl
  unfold splitOff
  rw [StoreM.bind_ok read, if_neg enough, height, items, List.take_left]
  rfl

section Leaving

variable {activation : Activation} {callers : List Activation} {below own : List Ref}
variable {store : Store τ}

/-- What leaving a frame comes down to, once it is known what becomes of the store. -/
theorem leaveFrame_of_released (frames : machine.frames.items = activation :: callers)
    (items : machine.values.items = own ++ below) (base : activation.base = below.length)
    (released : (StoreM.releaseAll (own.reverse ++ [activation.frame]) : StoreM τ Unit)
      machine.store = .ok () store) :
    leaveFrame machine = .ok () { machine with
      store
      values := machine.values.drop own.length
      frames := machine.frames.drop 1
      tracer := machine.tracer.observeAll [.left callers.length] } := by
  have read : (get : MachineM τ (Machine τ)) machine = .ok machine machine := rfl
  have top : machine.frames.top? = some activation := by rw [Stack.top?, frames]; rfl
  have height : (machine.frames.drop 1).height = callers.length := by
    rw [Stack.height_eq, Stack.items_drop, frames]
    rfl
  have split : (splitOff activation.base : MachineM τ (List Ref))
      { machine with frames := machine.frames.drop 1 } = .ok own.reverse { machine with
        values := machine.values.drop own.length, frames := machine.frames.drop 1 } := by
    rw [base]
    exact splitOff_eq items
  have given : releaseAll (own.reverse ++ [activation.frame]) { machine with
      values := machine.values.drop own.length, frames := machine.frames.drop 1 } =
      .ok () { machine with
        store, values := machine.values.drop own.length, frames := machine.frames.drop 1 } :=
    onStore_eq released
  unfold leaveFrame
  rw [StoreM.bind_ok read, top]
  show (splitOff activation.base >>= _ : MachineM τ Unit)
    { machine with frames := machine.frames.drop 1 } = _
  rw [StoreM.bind_ok split, StoreM.bind_ok given, tell_eq, ← height]
  rfl

/-- The values that a frame left behind and the frame itself are given back. -/
theorem leaveFrame_eq (within : machine.Within activation callers below held) :
    ∃ after, leaveFrame machine = .ok () after ∧ after.Ready held ∧
      after.frames.items = callers ∧ after.values.items = below ∧ after.error = machine.error ∧
      after.traceback = machine.traceback ∧
      Keeps ((below ++ held) ++ after.fixtures) machine.store after.store ∧
      after.tracer = machine.tracer.observeAll [.left callers.length] := by
  obtain ⟨own, items⟩ := within.values
  have frames_eq : (machine.frames.drop 1).items = callers := by
    rw [Stack.items_drop, within.frames]
    rfl
  have values_eq : (machine.values.drop own.length).items = below := by
    rw [Stack.items_drop, items, List.drop_left]
  have internals_eq : machine.internals = activation.frame ::
      (callers.map (·.frame) ++ machine.traceback.toList) := by
    rw [internals, within.frames]
    rfl
  have fewer : held ++ (below ++ machine.errorRefs) ⊆
      held ++ (machine.values.items ++ machine.errorRefs) := by
    intro ref member
    simp only [items, List.mem_append] at member ⊢
    tauto
  have owing : (roots ++ ((held ++ (machine.values.items ++ machine.errorRefs)) ++
      machine.internals)).Perm ((own.reverse ++ [activation.frame]) ++
        (roots ++ ((held ++ (below ++ machine.errorRefs)) ++
          (callers.map (·.frame) ++ machine.traceback.toList)))) := by
    rw [List.perm_iff_count, items, internals_eq]
    intro ref
    simp only [List.count_append, List.count_reverse, List.count_cons, List.count_nil]
    omega
  obtain ⟨store, released, left, -⟩ := StoreM.releaseAll_owed within.ready.sound fewer owing
  have retained : Keeps ((below ++ held) ++
      (machine.errorRefs ++ (callers.map (·.frame) ++ machine.traceback.toList)))
      machine.store store := by
    refine left.keeps.mono fun ref member => ?_
    simp only [List.mem_append] at member ⊢
    tauto
  have kept := retained.mono (List.subset_append_right _ _)
  have stacked := within.ready.stacked
  rw [within.frames] at stacked
  refine ⟨_, leaveFrame_of_released within.frames items within.base released, ⟨?_, ?_, ?_, ?_⟩,
    frames_eq, values_eq, rfl, rfl, ?_, rfl⟩
  · simp only [internals, errorRefs, frames_eq, values_eq]
    exact left.sound
  · intro other member
    have caller : other ∈ callers := frames_eq ▸ member
    have earlier : other ∈ machine.frames.items := within.frames ▸ List.mem_cons_of_mem _ caller
    refine (within.ready.placed other earlier).of_keeps ?_ kept
    exact List.mem_append_right _ (List.mem_append_left _ (List.mem_map_of_mem caller))
  · intro ref member
    refine headed_of_keeps (within.ready.headed ref member) ?_ kept
    exact List.mem_append_right _ (List.mem_append_right _ (Option.mem_toList.mpr member))
  · simp only [frames_eq, Stack.height_eq, values_eq, ← within.base]
    exact stacked.2
  · simp only [fixtures, errorRefs, internals, frames_eq]
    exact retained

end Leaving

/-! ## Running code and calling objects -/

section Calling

variable {code globals locals callee function self : Ref} {argument : Option Ref}

omit [Tracker τ] in
theorem onFrame_pushAll {activation : Activation} {callers : List Activation}
    (frames : machine.frames.items = activation :: callers) (values : List Ref) :
    onFrame (FrameM.pushAll values) machine =
      .ok () { machine with values := machine.values.pushAll values } := by
  obtain ⟨store, others, ⟨items, height, height_eq⟩, error, traceback, tracer⟩ := machine
  obtain rfl : items = activation :: callers := frames
  rfl

omit [Tracker τ] in
/-- The argument of a call becomes the first value of the new frame. -/
theorem Entered.pushAll {taken : List Ref} {inside : Machine τ}
    (entered : Entered machine (taken ++ held) [] inside) :
    ∃ after, onFrame (FrameM.pushAll taken) inside = .ok () after ∧
      Entered machine held [] after := by
  obtain ⟨activation, fresh, within⟩ := entered.within
  have holding : inside.Within activation machine.frames.items machine.values.items
      (taken ++ held) := within
  have pushed := onFrame_pushAll within.frames taken
  have ends := onFrame_ends holding fun own fits => FrameM.pushAll_runs fits
  rw [pushed] at ends
  obtain ⟨passes, new, same, within'⟩ := ends
  refine ⟨_, pushed, ⟨new, same.line.trans fresh, within'⟩, passes.error.trans entered.error,
    passes.traceback.trans entered.traceback, ?_⟩
  refine (entered.retains.mono fun ref member => ?_)
  simp only [List.mem_append] at member ⊢
  tauto

/-- An operation that gives back its argument and fails. -/
theorem refuse_settles (stays : machine.Stays (refs ++ held) [] after) (cause : Cause) :
    Settles machine held ((do releaseAll refs; throw (.failed (.raised cause)) : MachineM τ Ref)
      after) := by
  have owing : after.Ready (refs ++ held) := stays.ready
  obtain ⟨final, released, left⟩ := releaseAll_ready owing
  rw [StoreM.bind_ok released]
  exact ⟨⟨cause, rfl⟩, stays.trans left (List.subset_append_right _ _)⟩

theorem evaluateCode_calls (ready : machine.Ready (argument.toList ++ held))
    (parts : [code, globals, locals] ⊆ held) :
    Calls (fun run => evaluateCode run code globals locals argument) machine held := by
  have ends := enterFrame_ends ready (List.Subset.trans parts (List.subset_append_right _ _))
  cases result : enterFrame code globals locals machine with
  | ok value middle =>
      rw [result] at ends
      obtain ⟨inside, pushed, entered⟩ := ends.2.pushAll
      refine .enters [] inside (fun run => ?_) entered
      unfold evaluateCode finishCall
      rw [StoreM.bind_ok (attempt_ok result)]
      simp only [releaseAll_nil, pure_bind]
      rw [StoreM.bind_ok pushed]
  | error stop middle =>
      rw [result] at ends
      cases stop with
      | failed failure =>
          obtain ⟨⟨cause, rfl⟩, stays⟩ := ends
          refine .direct _ (fun run => ?_) (refuse_settles stays cause)
          unfold evaluateCode
          rw [StoreM.bind_ok (attempt_failed result)]
      | fault broken => exact ends.elim
      | unfinished =>
          refine .direct (.error .unfinished middle) (fun run => ?_) trivial
          show EStateM.bind (attempt (enterFrame code globals locals)) _ machine = _
          rw [EStateM.bind, attempt, result]

theorem runFunction_calls (ready : machine.Ready (argument.toList ++ held))
    (parts : [code, globals] ⊆ held) :
    Calls (fun run => runFunction run code globals argument) machine held := by
  have made := (StoreM.allocate_dict ready.sound_taken).orRelease
  refine .bind (onStore_accounts ready made) fun locals middle stays =>
    ⟨.releasing ?_, _, _, stays, List.Subset.refl _⟩
  refine evaluateCode_calls (stays.ready.perm ?_) ?_
  · rw [List.append_assoc]
    exact List.perm_append_comm_assoc _ _ _
  · intro ref member
    simp only [List.mem_cons, List.not_mem_nil, or_false] at member
    rcases member with rfl | rfl | rfl
    · exact List.mem_append_right _ (parts (by simp))
    · exact List.mem_append_right _ (parts (by simp))
    · exact List.mem_append_left _ (by simp)

theorem instantiate_accounts {store : Store τ} {inner : List Ref} {owner : Ref} {attrs : Ref}
    (sound : store.Sound (argument.toList ++ held) inner) (member : owner ∈ held)
    (found : store.payload? owner = some (.class_ attrs)) :
    StoreM.Accounts (instantiate owner argument) store held inner (fun ref => [ref]) := by
  cases argument with
  | some argument =>
      exact .releaseAll_bind sound (List.Subset.refl _) fun final left => .raise left.sound
  | none =>
      refine Ends.bind (StoreM.allocate_dict_knowing sound) ?_
      rintro own middle ⟨left, made⟩
      refine StoreM.Accounts.after_keeping left.keeps ?_
      have owner_usable := left.sound.usable (List.mem_cons_of_mem _ member)
      refine .acquire_bind left.sound owner_usable fun final finalSound same => ?_
      have kept := left.keeps.fixed (.held (List.mem_append_left _ member)) found rfl
      have ownMeets := (same.usable (left.sound.usable List.mem_cons_self)).meets
      refine .allocate finalSound (.of_roles (by simp [Payload.kind]) ?_)
        (by simp [Role.Allows, Payload.kind])
      intro child role part
      simp only [Payload.roles, List.mem_cons, Prod.mk.injEq, List.not_mem_nil, or_false] at part
      rcases part with ⟨rfl, rfl⟩ | ⟨rfl, rfl⟩
      · exact finalSound.meets_of_kind (kind?_eq ((same _).trans kept)) (by simp)
      · exact ⟨ownMeets.ne_builtins, ownMeets.ne_modules, kind?_eq ((same _).trans made)⟩

/-- Something is done first that cannot fail. -/
theorem Calls.bind_ok {first : MachineM τ α} {next : MachineM τ Ref → α → MachineM τ Ref}
    {value : α} {taken : List Ref} (returned : first machine = .ok value after)
    (stays : machine.Stays taken extra after) (fewer : held ⊆ taken)
    (calls : Calls (next · value) after held) :
    Calls (fun run => first >>= next run) machine held := by
  have ends : Ends (first machine) (fun result final => result = value ∧ final = after)
      (FailsHere machine held) := by
    rw [returned]
    exact ⟨rfl, rfl⟩
  refine .bind ends ?_
  rintro _ _ ⟨rfl, rfl⟩
  exact ⟨calls, taken, extra, stays, fewer⟩

/-- An object is read before a call goes on. -/
theorem Calls.get_bind {ref : Ref} {payload : Payload}
    {next : MachineM τ Ref → Payload → MachineM τ Ref} (ready : machine.Ready refs)
    (found : machine.store.payload? ref = some payload) (fewer : held ⊆ refs)
    (calls : Calls (next · payload) machine held) :
    Calls (fun run => onStore (StoreM.get ref) >>= next run) machine held :=
  .bind_ok (onStore_eq (StoreM.get_eq found)) ready.stays fewer calls

theorem callPlain_calls (ready : machine.Ready (argument.toList ++ held)) (member : callee ∈ held)
    (plain : machine.store.kind? callee ≠ some .classMethod) :
    Calls (fun run => callPlain run callee argument) machine held := by
  obtain ⟨payload, found⟩ := (ready.usable (List.mem_append_right _ member)).filled
  refine .get_bind ready found (List.subset_append_right _ _) ?_
  split
  · exact .settled (onStore_accounts ready (StoreM.callNative_accounts ready.sound_taken _))
  · exact .settled (onStore_accounts ready
      (instantiate_accounts ready.sound_taken (List.mem_append_left _ member) found))
  · rename_i code globals
    have parts : ∀ ref ∈ [code, globals], machine.store.Usable ref := by
      simp only [List.mem_cons, List.not_mem_nil, or_false]
      rintro ref (rfl | rfl)
      · exact ready.sound.usable_child found List.mem_cons_self (by simp)
      · exact ready.sound.usable_child found (List.mem_cons_of_mem _ List.mem_cons_self) (by simp)
    obtain ⟨middle, acquired, holding, -⟩ := acquireAll_ready ready parts
    refine .bind_ok acquired holding (List.subset_append_right _ _) (.releasing ?_)
    exact runFunction_calls (holding.ready.perm (List.perm_append_comm_assoc _ _ _))
      (List.subset_append_left _ _)
  · exact absurd (kind?_eq found) plain
  · exact .settled (refuse_settles ready.stays _)

/-- The argument of a bound method's function is the object, or a pair of which it is the
first. -/
theorem methodArgument_accounts {store : Store τ} {inner : List Ref}
    (sound : store.Sound ([function, self] ++ (argument.toList ++ held)) inner) :
    StoreM.Accounts (methodArgument function self argument) store held inner
      (fun ref => [ref, function]) := by
  cases argument with
  | none => exact .pure (sound.perm (List.Perm.swap _ _ _) (List.Perm.refl _))
  | some argument =>
      have given : store.Sound ((#[self, argument] : Array Ref).toList ++ ([function] ++ held))
          inner := by
        refine sound.perm ?_ (List.Perm.refl _)
        have swapped : ([function] ++ [self, argument]).Perm ([self, argument] ++ [function]) :=
          List.perm_append_comm
        exact swapped.append_right held
      exact (StoreM.allocate_sequence (Or.inr rfl) given).orRelease

theorem call_calls (ready : machine.Ready (argument.toList ++ held)) (member : callee ∈ held) :
    Calls (fun run => call run callee argument) machine held := by
  obtain ⟨payload, found⟩ := (ready.usable (List.mem_append_right _ member)).filled
  refine .get_bind ready found (List.subset_append_right _ _) ?_
  cases payload with
  | method function self =>
      have parts : ∀ ref ∈ [function, self], machine.store.Usable ref := by
        simp only [List.mem_cons, List.not_mem_nil, or_false]
        rintro ref (rfl | rfl)
        · exact ready.sound.usable_child found List.mem_cons_self (by simp)
        · exact ready.sound.usable_child found (List.mem_cons_of_mem _ List.mem_cons_self) (by simp)
      obtain ⟨middle, acquired, holding, same⟩ := acquireAll_ready ready parts
      refine .bind_ok acquired holding (List.subset_append_right _ _) ?_
      have owing : middle.store.Sound ([function, self] ++ (argument.toList ++
          (held ++ (middle.values.items ++ middle.errorRefs)))) middle.internals := by
        have sound := holding.ready.sound_taken
        rwa [List.append_assoc] at sound
      -- The method stays held, and so its function is still one when the call is made.
      have prepared : Ends (methodArgument function self argument middle.store)
          (fun ref store => middle.store.Leaves
            (held ++ (middle.values.items ++ middle.errorRefs)) middle.internals
            [ref, function] store ∧
            store.payload? callee = some (.method function self))
          (fun _ => middle.store.Leaves (held ++ (middle.values.items ++ middle.errorRefs))
            middle.internals []) := by
        refine Ends.imp (methodArgument_accounts owing) fun ref store left => ⟨left, ?_⟩
        exact left.keeps.fixed (.held (List.mem_append_left _ (List.mem_append_left _ member)))
          ((same _).trans found) rfl
      refine .bind (onStore_knowing holding.ready prepared) fun ref after left =>
        ⟨.releasing ?_, _, _, left.1, List.Subset.refl _⟩
      have isFunction : after.store.kind? function = some .function :=
        (left.1.ready.sound.fits _ _ left.2 _ _ List.mem_cons_self).allowed
      exact callPlain_calls left.1.ready List.mem_cons_self (by simp [isFunction])
  | _ => exact callPlain_calls ready member (by simp [kind?_eq found, Payload.kind])

end Calling

end MachineM

end StackMachine
