import StackMachine.Proofs.Machine.Tracebacks

/-!
# How errors reach the host

An error arises in an instruction, or where a break finds no loop.  From there on no
instruction is carried out: the frame at work is left, and so is every frame around it,
whatever blocks they are in.  Each of them adds its entry to the traceback, if there is
room for one, and the error stays the one that was recorded first.

`Errs` follows a run to where its error arises, and `Carries` says what has become of
the error since.  Both go from frame to frame, so what holds of all of them follows by
induction on the steps of a run.
-/

namespace StackMachine

/-- The depth that an event of leaving a frame tells. -/
def Event.left? : Event → Option Nat
  | .left depth => some depth
  | _ => none

/-- The line that instructions put their frame on, the latest of them first: the operand
of the last one that sets a line. -/
def Fetched.lastLine : List Fetched → Nat
  | [] => 0
  | .instruction .setLine operand _ :: _ => operand
  | _ :: earlier => lastLine earlier

namespace Activation

/-- The instruction that a frame is at. -/
def fetched (activation : Activation) : Fetched :=
  Fetched.read activation.bytecode activation.offset

/-- Where a frame is, as a traceback tells it. -/
def point (activation : Activation) : TracePoint :=
  ⟨activation.file, activation.line⟩

theorem lineAfter_eq_lastLine {activation : Activation} {executed : List Fetched}
    (known : activation.line = Fetched.lastLine executed) :
    activation.lineAfter = Fetched.lastLine (activation.fetched :: executed) := by
  unfold lineAfter fetched Fetched.lastLine
  split <;> simp_all

end Activation

/-- Events among which no instruction is carried out; frames are left at `depths`. -/
structure Retreats (events : List Event) (depths : List Nat) : Prop where
  idle : ∀ event ∈ events, event.opcode? = none
  left : events.filterMap Event.left? = depths

theorem Retreats.append {first second : List Event} {depths more : List Nat}
    (earlier : Retreats first depths) (later : Retreats second more) :
    Retreats (first ++ second) (depths ++ more) := by
  refine ⟨?_, by rw [List.filterMap_append, earlier.left, later.left]⟩
  intro event member
  rcases List.mem_append.mp member with before | after
  · exact earlier.idle event before
  · exact later.idle event after

theorem Retreats.none : Retreats [] [] :=
  ⟨by simp, rfl⟩

/-- The depths at which `count` frames are left, down to `depth`. -/
def levels (depth count : Nat) : List Nat :=
  (List.range' depth count).reverse

theorem levels_succ (depth count : Nat) :
    levels depth (count + 1) = levels (depth + 1) count ++ [depth] := by
  simp [levels, List.range'_succ]

namespace MachineM

open Store Outcome Machine

variable {τ : Type} [Tracker τ] {machine before after failing : Machine τ}
variable {activation current : Activation} {active callers : List Activation}
variable {below held pending : List Ref} {cause : Cause} {depths more : List Nat}
variable {events : List Event} {executed : List Fetched} {histories : List (List Fetched)}
variable {fuel : Nat}

/-- The innermost frame, which has executed `executed` so far, latest first, gets to where
an error arises: the machine is `failing` then.  `histories` says of each frame that is
active by then, from the innermost one to this one, what it has executed. -/
inductive Errs : (fuel : Nat) → (executed : List Fetched) → Machine τ →
    (histories : List (List Fetched)) → Cause → Machine τ → Prop where
  /-- The next instruction is executed. -/
  | next {fuel : Nat} {executed : List Fetched} {machine after failing : Machine τ}
      {activation : Activation} {histories : List (List Fetched)} {cause : Cause}
      (top : machine.frames.top? = some activation)
      (stepped : step (runFrame fuel) machine = .ok .next after)
      (rest : Errs fuel (activation.fetched :: executed) after histories cause failing) :
      Errs (fuel + 1) executed machine histories cause failing
  /-- The next instruction is a break out of a loop. -/
  | breaks {fuel : Nat} {executed : List Fetched} {machine middle after failing : Machine τ}
      {activation : Activation} {histories : List (List Fetched)} {cause : Cause}
      (top : machine.frames.top? = some activation)
      (stepped : step (runFrame fuel) machine = .ok .breaking middle)
      (caught : unwind .breaking middle = .ok true after)
      (rest : Errs fuel (activation.fetched :: executed) after histories cause failing) :
      Errs (fuel + 1) executed machine histories cause failing
  /-- The next instruction runs a frame, in which the error arises. -/
  | inside {fuel : Nat} {executed : List Fetched} {machine inside failing : Machine τ}
      {activation : Activation} {histories : List (List Fetched)} {cause : Cause}
      {pending : List Ref} (top : machine.frames.top? = some activation)
      (called : ∀ run, step run machine = (finishCall pending run >>= resume) inside)
      (rest : Errs fuel [] inside histories cause failing) :
      Errs (fuel + 1) executed machine (histories ++ [activation.fetched :: executed]) cause
        failing
  /-- The next instruction fails. -/
  | fails {fuel : Nat} {executed : List Fetched} {machine failing : Machine τ} {cause : Cause}
      (failed : step (runFrame fuel) machine = .error (.failed (.raised cause)) failing) :
      Errs (fuel + 1) executed machine [executed] cause failing
  /-- The next instruction is a break that no loop of the frame looks after. -/
  | escapes {fuel : Nat} {executed : List Fetched} {machine middle failing : Machine τ}
      {activation : Activation} (top : machine.frames.top? = some activation)
      (stepped : step (runFrame fuel) machine = .ok .breaking middle)
      (uncaught : unwind .breaking middle = .ok false failing) :
      Errs (fuel + 1) executed machine [activation.fetched :: executed] .breakOutsideLoop failing

/-- What has become of an error that arose in `failing`: it has passed the frames `active`,
innermost first, and frames were left at `depths`. -/
structure Carries (failing : Machine τ) (active : List Activation) (cause : Cause)
    (depths : List Nat) (after : Machine τ) : Prop where
  error : ∃ value, after.error = some (cause.kind.object, value) ∧
    Explains after.store (keptMessage? failing.store.tracker cause.message?) value
  traceback : ∃ points, Chain after.store after.traceback points ∧
    points.Sublist (active.map Activation.point).reverse ∧
    (StoreM.Grants τ → points = (active.map Activation.point).reverse)
  events : ∃ events, after.tracer = failing.tracer.observeAll events ∧ Retreats events depths

namespace Carries

/-- An error has been recorded and has not passed any frame yet. -/
theorem start (records : Records failing held cause.kind cause.message? after)
    (clean : failing.traceback = none) : Carries failing [] cause [] after := by
  obtain ⟨store, value, rfl, explains⟩ := records.same
  refine ⟨⟨value, rfl, explains⟩, ⟨[], ?_, List.Sublist.refl _, fun _ => rfl⟩, [], rfl, .none⟩
  simp only [clean]
  exact .nil

/-- The machine goes on, without changing its error or its traceback. -/
theorem move (carries : Carries failing active cause depths before)
    (error : after.error = before.error) (traceback : after.traceback = before.traceback)
    (keeps : Keeps after.fixtures before.store after.store)
    (told : after.tracer = before.tracer.observeAll events) (retreats : Retreats events more) :
    Carries failing active cause (depths ++ more) after := by
  obtain ⟨value, set, explains⟩ := carries.error
  obtain ⟨points, chain, known⟩ := carries.traceback
  obtain ⟨earlier, before_told, left⟩ := carries.events
  refine ⟨⟨value, error.trans set, explains.of_keeps ?_ keeps⟩, ⟨points, ?_, known⟩,
    earlier ++ events, ?_, left.append retreats⟩
  · refine List.mem_append_left _ ?_
    rw [errorRefs, error, set]
    simp
  · rw [traceback]
    refine chain.of_keeps (fun ref member => .held ?_) keeps
    exact mem_fixtures_of_mem_traceback (traceback ▸ member)
  · rw [told, before_told, Tracer.observeAll_append]

/-- The error passes a frame. -/
theorem pass {new : Activation} (carries : Carries failing active cause depths before)
    (same : new.Same current) (placed : new.Placed after.store)
    (error : after.error = before.error) (keeps : Keeps before.fixtures before.store after.store)
    (entry : (∃ entry, after.traceback = some entry ∧ after.store.payload? entry =
        some (.traceback before.traceback current.frame current.line)) ∨
      (after.traceback = before.traceback ∧ ¬ StoreM.Grants τ))
    (told : after.tracer = before.tracer.observeAll events) (retreats : Retreats events []) :
    Carries failing (active ++ [current]) cause depths after := by
  obtain ⟨value, set, explains⟩ := carries.error
  obtain ⟨points, chain, sublist, exactly⟩ := carries.traceback
  obtain ⟨earlier, before_told, left⟩ := carries.events
  have stayed : Chain after.store before.traceback points :=
    chain.of_keeps (fun ref member => .held (mem_fixtures_of_mem_traceback member)) keeps
  have front : ((active ++ [current]).map Activation.point).reverse =
      current.point :: (active.map Activation.point).reverse := by simp
  refine ⟨⟨value, error.trans set, explains.of_keeps ?_ keeps⟩, ?_, earlier ++ events, ?_, ?_⟩
  · refine List.mem_append_left _ ?_
    rw [errorRefs, set]
    simp
  · rw [front]
    rcases entry with ⟨entry, present, found⟩ | ⟨unchanged, limited⟩
    · obtain ⟨back, framed⟩ := placed.frame
      obtain ⟨object, coded, file, -, -⟩ := placed.code
      rw [same.frame] at framed
      have here : current.point = ⟨object.file, current.line⟩ := by
        rw [Activation.point, file, same.file]
      refine ⟨current.point :: points, ?_, sublist.cons_cons _, fun grants => ?_⟩
      · rw [present, here]
        exact .cons found framed coded stayed
      · rw [exactly grants]
    · refine ⟨points, unchanged ▸ stayed, sublist.cons _, fun grants => absurd grants limited⟩
  · rw [told, before_told, Tracer.observeAll_append]
  · have whole := left.append retreats
    rwa [List.append_nil] at whole

/-- A frame that the error has passed is left, and what was held meanwhile is given back. -/
theorem leave (carries : Carries failing active cause depths machine)
    (within : machine.Within activation callers below (pending ++ held)) :
    ∃ after, (leaveFrame >>= fun _ => releaseAll pending : MachineM τ Unit) machine = .ok () after ∧
      after.Ready held ∧ after.frames.items = callers ∧ after.values.items = below ∧
      Carries failing active cause (depths ++ [callers.length]) after := by
  obtain ⟨bare, left, ready, frames, values, error, traceback, keeps, told⟩ := leaveFrame_eq within
  have retreats : Retreats [.left callers.length] [callers.length] := ⟨by simp [Event.opcode?], rfl⟩
  have kept := keeps.mono (List.subset_append_right _ bare.fixtures)
  have moved := carries.move error traceback kept told retreats
  obtain ⟨after, released, stays⟩ := releaseAll_ready ready
  have settled := moved.move stays.passes.error stays.passes.traceback
    (stays.passes.fixtures_eq ▸ stays.passes.keeps) stays.passes.tracer .none
  rw [List.append_nil] at settled
  refine ⟨after, by rw [StoreM.bind_ok left, released], stays.ready, ?_, ?_, settled⟩
  · obtain ⟨store, rfl⟩ := stays.same
    exact frames
  · obtain ⟨store, rfl⟩ := stays.same
    exact values

end Carries

/-! ## Leaving a frame for an error -/

/-- A recorded error leaves the frame at work. -/
theorem unwind_carries (carries : Carries failing active cause depths machine)
    (within : machine.Within current callers below held) :
    ∃ after, unwind .error machine = .ok false after ∧
      Carries failing (active ++ [current]) cause depths after := by
  obtain ⟨value, set, -⟩ := carries.error
  obtain ⟨after, unwound, abandons⟩ := unwind_error within (by rw [set]; rfl)
  obtain ⟨new, same, left⟩ := abandons.within
  obtain ⟨popped, told⟩ := abandons.tracer
  have placed := left.ready.placed new (left.frames ▸ List.mem_cons_self)
  refine ⟨after, unwound, carries.pass same placed abandons.error abandons.keeps abandons.entry
    told ⟨?_, ?_⟩⟩
  · intro event member
    simp only [List.mem_cons, List.mem_map] at member
    rcases member with rfl | ⟨depth, -, rfl⟩ <;> rfl
  · simp [Event.left?]

/-- An instruction failed: its frame is left. -/
theorem record_carries (within : failing.Within current callers below held)
    (clean : failing.traceback = none) (cause : Cause) :
    ∃ middle after, record (.raised cause) failing = .ok () middle ∧
      unwind .error middle = .ok false after ∧ Carries failing [current] cause [] after := by
  obtain ⟨middle, recorded, records⟩ := setErrorCause_ok within.ready cause
  obtain ⟨after, unwound, carries⟩ :=
    unwind_carries (Carries.start records clean) (records.within within)
  exact ⟨middle, after, recorded, unwound, carries⟩

/-- A break escaped from the blocks of its frame. -/
theorem escape_carries (within : failing.Within current callers below held)
    (clean : failing.traceback = none) :
    ∃ middle after, setErrorCause .breakOutsideLoop failing = .ok () middle ∧
      pushTraceback middle = .ok () after ∧
      Carries failing [current] .breakOutsideLoop [] after := by
  obtain ⟨middle, recorded, records⟩ := setErrorCause_ok within.ready .breakOutsideLoop
  obtain ⟨after, pushed, left, traced⟩ := pushTraceback_ok (records.within within)
  have placed := left.ready.placed current (left.frames ▸ List.mem_cons_self)
  have told : after.tracer = middle.tracer.observeAll [] := traced.tracer_eq
  exact ⟨middle, after, recorded, pushed, (Carries.start records clean).pass (.refl current) placed
    traced.error_eq traced.keeps traced.entry told .none⟩

/-! ## Errors in a run -/

omit [Tracker τ] in
theorem neverFails_push (value : Ref) :
    NeverFails (onFrame (FrameM.push value) : MachineM τ Unit) := by
  intro machine failure after failed
  obtain ⟨store, values, ⟨items, height, height_eq⟩, error, traceback, tracer⟩ := machine
  cases items <;> cases failed

/-- A call whose frame failed fails in the same way. -/
theorem finishCall_failed {run : MachineM τ Ref} {inside middle : Machine τ} {failure : Failure}
    (ran : run inside = .error (.failed failure) middle)
    (finished : (leaveFrame >>= fun _ => releaseAll pending : MachineM τ Unit) middle =
      .ok () after) : finishCall pending run inside = .error (.failed failure) after := by
  obtain ⟨_, left, leaving, released⟩ := bind_eq_ok finished
  rw [finishCall, StoreM.bind_ok (attempt_failed ran), StoreM.bind_ok leaving, StoreM.bind_ok released]
  rfl

/-- A call fails only where its frame does. -/
theorem frame_failed {run : MachineM τ Ref} {inside : Machine τ} {failure : Failure}
    (failed : finishCall pending run inside = .error (.failed failure) after) :
    ∃ reason middle, run inside = .error (.failed reason) middle := by
  cases ran : run inside with
  | ok value middle =>
      have never : NeverFails (do
          leaveFrame
          releaseAll pending
          settle (.ok value) : MachineM τ Ref) :=
        .bind neverFails_leaveFrame fun _ => .bind (neverFails_releaseAll pending) fun _ =>
          .pure value
      rw [finishCall, StoreM.bind_ok (attempt_ok ran)] at failed
      exact absurd failed (never middle failure after)
  | error stop middle =>
      cases stop with
      | failed reason => exact ⟨reason, middle, rfl⟩
      | fault broken =>
          rw [finishCall, bind_error (attempt_fault ran)] at failed
          cases failed
      | unfinished =>
          rw [finishCall, bind_error (attempt_unfinished ran)] at failed
          cases failed

omit [Tracker τ] in
theorem neverFails_resume (value : Ref) : NeverFails (resume value : MachineM τ Flow) :=
  .bind (neverFails_push value) fun _ => .pure _

/-- The frames from the innermost one to the one at work, whose callers are `callers`, are
on the lines that their histories tell, and the error has passed them all. -/
def Erred (fuel : Nat) (executed : List Fetched) (machine : Machine τ)
    (callers : List Activation) (after : Machine τ) : Prop :=
  ∃ histories cause failing callees current, Errs fuel executed machine histories cause failing ∧
    failing.frames.items = (callees ++ [current]) ++ callers ∧
    List.Forall₂ (fun activation executed => activation.line = Fetched.lastLine executed)
      (callees ++ [current]) histories ∧
    Carries failing (callees ++ [current]) cause (levels (callers.length + 1) callees.length) after

/-- Where running a frame in `fuel` steps fails, an error arose and left all frames up to
this one. -/
def TracesErrors (τ : Type) [Tracker τ] (fuel : Nat) : Prop :=
  ∀ {machine after : Machine τ} {activation : Activation} {callers : List Activation}
    {below held : List Ref} {executed : List Fetched} {failure : Failure},
    machine.Within activation callers below held → machine.error = none →
    machine.traceback = none → activation.line = Fetched.lastLine executed →
    runFrame fuel machine = .error (.failed failure) after →
    Erred fuel executed machine callers after

omit [Tracker τ] in
theorem top_of_within (within : machine.Within activation callers below held) :
    machine.frames.top? = some activation := by
  rw [Stack.top?, within.frames]
  rfl

/-- An error that arose in a frame that was called comes back to the frame at work. -/
theorem called_erred {failure : Failure} {taken : List Ref} {middle inside : Machine τ}
    (traces : TracesErrors τ fuel) (quiet : middle.error = none) (clean : middle.traceback = none)
    (within : middle.Within current callers below taken)
    (line : current.line = Fetched.lastLine (activation.fetched :: executed))
    (top : machine.frames.top? = some activation)
    (called : ∀ run, step run machine = (finishCall pending run >>= resume) inside)
    (entered : Entered middle held pending inside)
    (stepped : step (runFrame fuel) machine = .error (.failed failure) before) :
    ∃ recorded after, record failure before = .ok () recorded ∧
      unwind .error recorded = .ok false after ∧
        Erred (fuel + 1) executed machine callers after := by
  obtain ⟨activation', fresh, opened⟩ := entered.within
  have silent := entered.error.trans quiet
  have ends := runFrame_runsFrames fuel opened silent
  have unset : activation'.line = Fetched.lastLine [] := fresh
  rw [called] at stepped
  obtain ⟨reason, last, ran⟩ := frame_failed (NeverFails.bind_failed neverFails_resume stepped)
  rw [ran] at ends
  obtain rfl : reason = .recorded := ends.recorded
  obtain ⟨new, left⟩ := ends.within
  obtain ⟨histories, cause, failing, callees, callee, errs, active, lines, carries⟩ :=
    traces opened silent (entered.traceback.trans clean) unset ran
  obtain ⟨after, finished, ready, frames, values, carried⟩ := carries.leave left
  rw [bind_error (finishCall_failed ran finished)] at stepped
  cases stepped
  have back : before.Within current callers below held :=
    ⟨ready, frames.trans within.frames, values ▸ within.values, within.base⟩
  obtain ⟨final, unwound, passed⟩ := unwind_carries carried back
  refine ⟨before, final, rfl, unwound, _, cause, failing, callees ++ [callee], current,
    .inside top called errs, ?_, List.rel_append lines (.cons line .nil), ?_⟩
  · rw [active, within.frames]
    simp
  · rw [within.frames, List.length_cons] at passed
    rwa [List.length_append, List.length_singleton, levels_succ]

/-- An instruction fails: an error arose in it, or in a frame that it called. -/
theorem step_erred {failure : Failure} {middle : Machine τ} (traces : TracesErrors τ fuel)
    (within : machine.Within activation callers below held) (quiet : machine.error = none)
    (clean : machine.traceback = none) (line : activation.line = Fetched.lastLine executed)
    (stepped : step (runFrame fuel) machine = .error (.failed failure) middle) :
    ∃ recorded after, record failure middle = .ok () recorded ∧
      unwind .error recorded = .ok false after ∧
        Erred (fuel + 1) executed machine callers after := by
  cases step_steps within with
  | direct result always ends =>
      rw [← always (runFrame fuel), stepped] at ends
      obtain ⟨⟨cause, rfl⟩, moves⟩ := ends
      obtain ⟨events, passes⟩ := moves.passes
      obtain ⟨new, same, left⟩ := moves.within
      obtain ⟨recorded, after, record, unwound, carries⟩ :=
        record_carries left (passes.traceback.trans clean) cause
      exact ⟨recorded, after, record, unwound, _, cause, middle, [], new, .fails stepped,
        left.frames, .cons (same.line.trans line) .nil, carries⟩
  | calls taken pending entering inside always moves entered =>
      obtain ⟨events, passes⟩ := moves.passes
      obtain ⟨new, same, left⟩ := moves.within
      exact called_erred traces (passes.error.trans quiet) (passes.traceback.trans clean) left
        (same.line.trans (Activation.lineAfter_eq_lastLine line)) (top_of_within within) always
        entered stepped

/-- Errors are traced in runs of any length. -/
theorem runFrame_tracesErrors (fuel : Nat) : TracesErrors τ fuel := by
  induction fuel with
  | zero =>
      intro machine after activation callers below held executed failure _ _ _ _ failed
      cases failed
  | succ fuel ih =>
      intro machine after activation callers below held executed failure within quiet clean line
        failed
      have top := top_of_within within
      have ends := step_ends (runFrame_runsFrames fuel) within quiet
      cases stepped : step (runFrame fuel) machine with
      | ok flow middle =>
          rw [runFrame, StoreM.bind_ok (attempt_ok stepped)] at failed
          have holds := ends.of_ok stepped
          obtain ⟨new, newLine, inside⟩ := holds.within
          have still := holds.traceback.trans clean
          have later := newLine.trans (Activation.lineAfter_eq_lastLine line)
          cases flow with
          | next =>
              obtain ⟨histories, cause, failing, callees, current, errs, rest⟩ :=
                ih inside holds.error still later failed
              exact ⟨histories, cause, failing, callees, current, .next top stepped errs, rest⟩
          | returning value =>
              obtain ⟨_, final, unwound, -⟩ :=
                unwind_quiet inside holds.error (by simp : Unwinding.returning ≠ .error)
              simp only at failed
              rw [StoreM.bind_ok unwound] at failed
              cases failed
          | breaking =>
              obtain ⟨caught, final, unwound, ⟨events, passes⟩, ⟨newer, same, finished⟩, -⟩ :=
                unwind_quiet inside holds.error (by simp : Unwinding.breaking ≠ .error)
              simp only at failed
              rw [StoreM.bind_ok unwound] at failed
              have kept := passes.traceback.trans still
              have newerLine := same.line.trans later
              cases caught with
              | true =>
                  obtain ⟨histories, cause, failing, callees, current, errs, rest⟩ :=
                    ih finished (passes.error.trans holds.error) kept newerLine failed
                  exact ⟨histories, cause, failing, callees, current,
                    .breaks top stepped unwound errs, rest⟩
              | false =>
                  obtain ⟨recorded, last, record, pushed, carries⟩ := escape_carries finished kept
                  simp only [Bool.false_eq_true, if_false] at failed
                  rw [StoreM.bind_ok record, StoreM.bind_ok pushed] at failed
                  cases failed
                  exact ⟨_, _, final, [], newer, .escapes top stepped unwound, finished.frames,
                    .cons newerLine .nil, carries⟩
      | error stop middle =>
          rw [stepped] at ends
          cases stop with
          | fault broken => exact ends.elim
          | unfinished =>
              rw [runFrame, bind_error (attempt_unfinished stepped)] at failed
              cases failed
          | failed reason =>
              obtain ⟨recorded, final, record, unwound, erred⟩ :=
                step_erred ih within quiet clean line stepped
              rw [runFrame, StoreM.bind_ok (attempt_failed stepped)] at failed
              simp only at failed
              rw [StoreM.bind_ok record, StoreM.bind_ok unwound] at failed
              cases failed
              exact erred

end MachineM

end StackMachine
