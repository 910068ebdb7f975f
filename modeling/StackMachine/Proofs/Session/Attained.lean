import StackMachine.Proofs.Evolution.Launching
import StackMachine.Proofs.Session.Reachable

/-!
# States that are attained

Between two requests a session is at rest.  While a request runs code, its machine goes from
one instruction to the next, and each time it is about to carry one out it is in a state that
is attained: a frame is at work, no error is set and there is no traceback.

A frame is entered where an instruction, or the request itself, would stop if it were given no
steps to run the frame in.  All that is told on the way to a state is kept as its log, and it
does not matter who is told.
-/

namespace StackMachine

open Store Outcome Machine Session

variable {τ : Type} [Tracker τ]

namespace MachineM

/-- A frame at work gets, within `fuel` steps of its own and of the frames that it calls, to a
state in which an instruction is about to be carried out. -/
inductive Visits : (fuel : Nat) → Machine τ → List Event → Machine τ → Prop where
  | here {fuel : Nat} (machine : Machine τ) : Visits fuel machine [] machine
  /-- The next instruction is carried out. -/
  | next {fuel : Nat} {machine after visited : Machine τ} {events more : List Event}
      (stepped : Returns (step (runFrame fuel)) machine events .next after)
      (rest : Visits fuel after more visited) : Visits (fuel + 1) machine (events ++ more) visited
  /-- The next instruction is a break out of a loop. -/
  | breaks {fuel : Nat} {machine middle after visited : Machine τ}
      {events more further : List Event}
      (stepped : Returns (step (runFrame fuel)) machine events .breaking middle)
      (caught : Returns (unwind .breaking) middle more true after)
      (rest : Visits fuel after further visited) :
      Visits (fuel + 1) machine (events ++ (more ++ further)) visited
  /-- The next instruction enters a frame. -/
  | inside {fuel : Nat} {machine entered visited : Machine τ} {events more : List Event}
      (halts : Halts (step (runFrame 0)) machine events entered)
      (deeper : entered.frames.height ≠ machine.frames.height)
      (rest : Visits fuel entered more visited) : Visits (fuel + 1) machine (events ++ more) visited

end MachineM

namespace Session

/-- A session between two requests, to which a host can get that starts with the tracker
`initial`.  `lost` are the references that it has lost on the way, and `log` is all that was
told. -/
inductive Logged (initial : τ) : Session τ → (lost : List Ref) → (log : List Event) → Prop where
  | start (tracer : Tracer) : Logged initial (Session.start initial tracer) [] []
  | reply {session after : Session τ} {lost : List Ref} {log events : List Event} (fuel : Nat)
      (request : Request) (logged : Logged initial session lost log)
      (replied : ∀ tracer, ∃ answer, SessionM.reply fuel request (Traced.retrace tracer session) =
        .ok answer (Traced.retrace (tracer.observeAll events) after)) :
      Logged initial after (session.loses request.empties ++ lost) (log ++ events)

/-- A session to which a host can get, at rest or while code runs. -/
inductive Attained (initial : τ) : Session τ → (lost : List Ref) → (log : List Event) → Prop where
  | rest {session : Session τ} {lost : List Ref} {log : List Event}
      (logged : Logged initial session lost log) : Attained initial session lost log
  | busy {session begun : Session τ} {lost : List Ref} {log events more : List Event}
      {visited : Machine τ} (request : Request) (fuel : Nat)
      (logged : Logged initial session lost log)
      (halts : Halts (SessionM.reply 0 request) session events begun)
      (active : begun.machine.frames.items ≠ [])
      (visits : MachineM.Visits fuel begun.machine more visited) :
      Attained initial { begun with machine := visited } lost (log ++ (events ++ more))

end Session

/-! ## A frame at work -/

namespace Machine

/-- A frame is at work, no error is set, and there is no traceback. -/
structure Working (machine : Machine τ) (callers : List Activation) (below held : List Ref) :
    Prop where
  within : ∃ activation, machine.Within activation callers below held
  quiet : machine.error = none
  clean : machine.traceback = none

variable {machine after entered : Machine τ} {callers : List Activation} {below held : List Ref}
variable {fuel : Nat}

omit [Tracker τ] in
theorem Working.of_retrace {tracer : Tracer}
    (working : (Traced.retrace tracer machine).Working callers below held) :
    machine.Working callers below held := by
  obtain ⟨activation, within⟩ := working.within
  exact ⟨⟨activation, within.withTracer machine.tracer⟩, working.quiet, working.clean⟩

omit [Tracker τ] in
theorem Upholds.of_retrace {tracer : Tracer} {kept : List Ref}
    (upholds : machine.Upholds kept (Traced.retrace tracer after)) : machine.Upholds kept after :=
  ⟨upholds.frames, upholds.keeps⟩

theorem Working.stepped {flow : MachineM.Flow} (working : machine.Working callers below held)
    (stepped : MachineM.step (MachineM.runFrame fuel) machine = .ok flow after) :
    ∃ line, MachineM.Stepped machine line callers below held flow after := by
  obtain ⟨activation, within⟩ := working.within
  have ends := MachineM.step_ends (MachineM.runFrame_runsFrames fuel) within working.quiet
  exact ⟨_, ends.of_ok stepped⟩

theorem Working.step {flow : MachineM.Flow} (working : machine.Working callers below held)
    (stepped : MachineM.step (MachineM.runFrame fuel) machine = .ok flow after)
    (stays : flow.refs = []) : after.Working callers below held := by
  obtain ⟨line, holds⟩ := working.stepped stepped
  obtain ⟨new, -, inside⟩ := holds.within
  rw [stays] at inside
  exact ⟨⟨new, inside⟩, holds.error, holds.traceback.trans working.clean⟩

theorem Working.unwound {found : Bool} (working : machine.Working callers below held)
    (unwound : MachineM.unwind .breaking machine = .ok found after) :
    (∃ events, machine.Passes (below ++ held) events after) ∧
      ∃ new, after.Within new callers below held := by
  obtain ⟨activation, within⟩ := working.within
  obtain ⟨_, final, ran, passes, ⟨new, -, inside⟩, -⟩ :=
    MachineM.unwind_quiet within working.quiet (by simp : Unwinding.breaking ≠ .error)
  cases unwound.symm.trans ran
  exact ⟨passes, new, inside⟩

theorem Working.unwind {found : Bool} (working : machine.Working callers below held)
    (unwound : MachineM.unwind .breaking machine = .ok found after) :
    after.Working callers below held := by
  obtain ⟨⟨events, passes⟩, inside⟩ := working.unwound unwound
  exact ⟨inside, passes.error.trans working.quiet, passes.traceback.trans working.clean⟩

/-- An instruction that enters a frame goes on from there once it has run, however it is run. -/
theorem Within.enters {activation : Activation}
    (within : machine.Within activation callers below held)
    (halted : MachineM.step (MachineM.runFrame 0) machine = .error .unfinished entered)
    (deeper : entered.frames.height ≠ machine.frames.height) :
    ∃ taken pending middle,
      (∀ run, MachineM.step run machine =
        (MachineM.finishCall pending run >>= MachineM.resume) entered) ∧
      MachineM.Moves machine (activation.onLine activation.lineAfter) callers below held taken
        middle ∧
      MachineM.Entered middle held pending entered := by
  cases MachineM.step_steps within with
  | direct result always ends =>
      -- An instruction that enters no frame stops at the same height, whatever frames do.
      have still : (still τ).Follows (MachineM.step (throw (.fault .idle)) : MachineM τ _) :=
        MachineM.step_follows (MachineM.evaluates_fault .idle)
      obtain ⟨events, -, led⟩ := still machine
      rw [always, ← always (MachineM.runFrame 0), halted] at led
      exact absurd led deeper
  | calls taken pending middle inside always moves opened =>
      have same : entered = inside := by
        cases halted.symm.trans (always _)
        rfl
      subst same
      exact ⟨taken, pending, middle, always, moves, opened⟩

/-- The frame that an instruction enters is at work above the one that the instruction is
in. -/
theorem Working.enter (working : machine.Working callers below held)
    (halted : MachineM.step (MachineM.runFrame 0) machine = .error .unfinished entered)
    (deeper : entered.frames.height ≠ machine.frames.height) :
    ∃ current own pending,
      entered.Working (current :: callers) (own ++ below) (pending ++ held) ∧
        machine.Upholds (below ++ held) entered := by
  obtain ⟨activation, within⟩ := working.within
  obtain ⟨_, pending, middle, -, moves, opened⟩ := within.enters halted deeper
  obtain ⟨events, passes⟩ := moves.passes
  obtain ⟨current, -, left⟩ := moves.within
  obtain ⟨new, -, inner⟩ := opened.within
  obtain ⟨own, values⟩ := left.values
  rw [left.frames, values] at inner
  have still := opened.error.trans (passes.error.trans working.quiet)
  exact ⟨current, own, pending,
    ⟨⟨new, inner⟩, still, opened.traceback.trans (passes.traceback.trans working.clean)⟩,
    passes.upholds.trans (opened.upholds.mono (left.below_subset held))⟩

end Machine

namespace MachineM

variable {machine visited : Machine τ} {callers : List Activation} {below held : List Ref}
variable {fuel : Nat} {events : List Event}

/-- Wherever a frame at work gets to, a frame is at work. -/
theorem Visits.working (visits : Visits fuel machine events visited)
    (working : machine.Working callers below held) :
    ∃ callers' below' held', visited.Working callers' below' held' ∧ held ⊆ held' := by
  induction visits generalizing callers below held with
  | here machine => exact ⟨callers, below, held, working, List.Subset.refl held⟩
  | next stepped rest ih => exact ih (working.step stepped.ran rfl).of_retrace
  | breaks stepped caught rest ih =>
      exact ih ((working.step stepped.ran rfl).of_retrace.unwind caught.ran).of_retrace
  | inside halts deeper rest ih =>
      obtain ⟨current, own, pending, opened, -⟩ := working.enter halts.ran deeper
      obtain ⟨callers', below', held', final, more⟩ := ih opened.of_retrace
      exact ⟨callers', below', held', final,
        fun ref member => more (List.mem_append_right _ member)⟩

/-- On the way, frames stay active, and what lies below the frame and what others hold is
kept. -/
theorem Visits.upholds (visits : Visits fuel machine events visited)
    (working : machine.Working callers below held) :
    machine.Upholds (below ++ held) visited := by
  induction visits generalizing callers below held with
  | here machine => exact .refl machine _
  | next stepped rest ih =>
      obtain ⟨line, holds⟩ := working.stepped stepped.ran
      exact holds.upholds.of_retrace.trans (ih (working.step stepped.ran rfl).of_retrace)
  | breaks stepped caught rest ih =>
      obtain ⟨line, holds⟩ := working.stepped stepped.ran
      have broken := (working.step stepped.ran rfl).of_retrace
      obtain ⟨⟨events, passes⟩, -⟩ := broken.unwound caught.ran
      exact holds.upholds.of_retrace.trans
        (passes.upholds.of_retrace.trans (ih (broken.unwind caught.ran).of_retrace))
  | inside halts deeper rest ih =>
      obtain ⟨current, own, pending, opened, upholds⟩ := working.enter halts.ran deeper
      refine upholds.of_retrace.trans ((ih opened.of_retrace).mono fun ref member => ?_)
      simp only [List.mem_append] at member ⊢
      tauto

/-- On the way, the machine tells nothing but what it may, and its store goes along a path. -/
theorem Visits.roams (visits : Visits fuel machine events visited) :
    machine.Roams events visited := by
  induction visits with
  | here machine => exact Roams.refl machine
  | @next fuel _ _ _ _ _ stepped rest ih =>
      obtain ⟨_, roams⟩ := stepped.goes (step_follows (evaluates_free fuel))
      exact roams.of_retrace.trans ih
  | @breaks fuel _ _ _ _ _ _ _ stepped caught rest ih =>
      obtain ⟨_, roams⟩ := stepped.goes (step_follows (evaluates_free fuel))
      obtain ⟨_, unwound⟩ := caught.goes (unwind_roams .breaking)
      exact roams.of_retrace.trans (unwound.of_retrace.trans ih)
  | inside halts deeper rest ih =>
      obtain ⟨_, opened⟩ := halts.halts (step_follows evaluates_plain)
      exact (opened deeper).of_retrace.roams.trans ih

end MachineM

namespace Session

variable {session begun : Session τ} {lost held : List Ref} {log events : List Event}

/-! ## Requests that enter a frame -/

/-- A request that would stop with a frame at work makes a call on an idle machine.  The call
enters that frame, and the request goes on when it is over. -/
theorem Holds.begins {request : Request} (holds : session.Holds lost)
    (halted : SessionM.reply 0 request session = .error .unfinished begun)
    (active : begun.machine.frames.items ≠ []) :
    ∃ act start held pending, MachineM.HostCall act start held ∧
      MachineM.Entered start held pending begun.machine ∧ lost ++ begun.refs ⊆ held ∧
      session.Spares request.touches lost begun ∧ ∃ rest, SessionM.Concluding rest ∧
        ∀ fuel, (SessionM.perform fuel request).run session =
          (SessionM.onMachine (MachineM.recording (MachineM.finishCall pending
            (MachineM.runFrame fuel))) >>= rest).run begun := by
  have empty : session.machine.frames.height = 0 := by
    rw [Stack.height_eq, holds.idle.frames, List.length_nil]
  -- A request that stops at the height at which it started has not entered a frame.
  have high : begun.machine.frames.height ≠ 0 := by
    rw [Stack.height_eq]
    exact fun none => active (List.length_eq_zero_iff.mp none)
  rw [SessionM.reply_eq] at halted
  have stopped : (SessionM.perform 0 request).run session = .error .unfinished begun := by
    cases ran : (SessionM.perform 0 request).run session with
    | ok told after =>
        rw [StoreM.bind_ok ran] at halted
        cases halted
    | error stop after =>
        rw [bind_error ran] at halted
        cases halted
        rfl
  cases runs : request.runs with
  | false =>
      have other : request ≠ .trace := by
        rintro rfl
        cases stopped
      have follows : SessionM.Follows (still τ) (SessionM.perform 0 request) :=
        SessionM.perform_follows other fun isRun => absurd isRun (by simp [runs])
      obtain ⟨events, -, led⟩ := follows session
      rw [stopped] at led
      exact absurd (led.trans empty) high
  | true =>
      cases (SessionM.perform_launches holds runs).starts with
      | settled result always leads =>
          obtain ⟨events, led⟩ := leads
          rw [← always 0, stopped] at led
          exact absurd (led.trans empty) high
      | enters act start held pending inside rest _ spares call _ entered known concluding
          always =>
          have same : begun = { start with machine := inside } := by
            cases stopped.symm.trans ((always 0).trans (SessionM.calling_halts pending rest _))
            rfl
          subst same
          have opened := entered.retains.mono (List.subset_append_of_subset_left _
            (List.subset_append_of_subset_right _ known))
          exact ⟨act, start.machine, held, pending, call, entered, known,
            spares.trans (spares_of_keeps opened), rest, concluding, always⟩

/-! ## Sessions at rest -/

variable {initial : τ} {after : Session τ}

/-- Who is told makes no difference to what is reached. -/
theorem Logged.retrace (logged : session.Logged initial lost log) (tracer : Tracer) :
    (Traced.retrace tracer session).Logged initial lost log := by
  cases logged with
  | start told => exact .start tracer
  | reply fuel request earlier replied =>
      refine .reply fuel request earlier fun told => ?_
      obtain ⟨answer, replied⟩ := replied told
      exact ⟨answer, by rw [Traced.retrace_retrace, replied]⟩

theorem Logged.reachable (logged : session.Logged initial lost log) : session.Reachable lost := by
  induction logged with
  | start tracer => exact .start initial tracer
  | @reply before after _ _ _ fuel request _ replied ih =>
      obtain ⟨answer, replied⟩ := replied before.machine.tracer
      have replied : SessionM.reply fuel request before = .ok answer
        (Traced.retrace (before.machine.tracer.observeAll _) after) := replied
      exact (Reachable.reply fuel request answer ih replied).retraced after.machine.tracer

theorem Logged.holds (logged : session.Logged initial lost log) : session.Holds lost :=
  logged.reachable.holds

/-- A request for the trace changes nothing. -/
theorem reply_trace (fuel : Nat) (session : Session τ) :
    SessionM.reply fuel .trace session = .ok (.answer (.trace session.machine.tracer)) session :=
  rfl

/-- A reply tells everybody the same. -/
theorem reply_tells {fuel : Nat} {request : Request} {answer : Reply τ}
    (replied : SessionM.reply fuel request session = .ok answer after) :
    ∃ events, ∀ tracer, ∃ answer, SessionM.reply fuel request (Traced.retrace tracer session) =
      .ok answer (Traced.retrace (tracer.observeAll events) after) := by
  by_cases asks : request = .trace
  · subst asks
    cases replied
    exact ⟨[], fun tracer => ⟨_, rfl⟩⟩
  · obtain ⟨events, returns, -⟩ := (SessionM.reply_follows asks
      fun _ => MachineM.evaluates_free fuel).returns replied
    exact ⟨events, fun tracer => ⟨answer, returns tracer⟩⟩

/-- Every session that a host can get to is reached in this sense. -/
theorem Reachable.logged (reached : session.Reachable lost) :
    ∃ initial log, session.Logged initial lost log := by
  induction reached with
  | start tracker tracer => exact ⟨tracker, [], .start tracer⟩
  | reply fuel request answer _ replied ih =>
      obtain ⟨initial, log, logged⟩ := ih
      obtain ⟨events, told⟩ := reply_tells replied
      exact ⟨initial, log ++ events, .reply fuel request logged told⟩
  | retraced tracer _ ih =>
      obtain ⟨initial, log, logged⟩ := ih
      exact ⟨initial, log, logged.retrace tracer⟩

/-- What a reply tells leads where its machine gets to. -/
theorem reply_goes {course : Course (Machine τ)} [Tame course] {fuel : Nat} {request : Request}
    {events : List Event} (runs : MachineM.Evaluates course (MachineM.runFrame fuel))
    (replied : ∀ tracer, ∃ answer, SessionM.reply fuel request (Traced.retrace tracer session) =
      .ok answer (Traced.retrace (tracer.observeAll events) after)) :
    ∃ told, course.goes session.machine events (Traced.retrace told after.machine) := by
  obtain ⟨answer, replied⟩ := replied (recorder [])
  by_cases asks : request = .trace
  · subst asks
    rw [reply_trace] at replied
    have states : Traced.retrace ((recorder []).observeAll []) session =
        Traced.retrace ((recorder []).observeAll events) after := by
      injection replied
    obtain ⟨rfl, same⟩ := retrace_inj states
    have same : session.machine = Traced.retrace session.machine.tracer after.machine :=
      congrArg Session.machine same
    have still := course.refl session.machine
    nth_rewrite 2 [same] at still
    exact ⟨_, still⟩
  · obtain ⟨more, same, led⟩ := (SessionM.reply_follows asks fun _ => runs) session
    have ran := (same (recorder [])).symm.trans replied
    cases result : SessionM.reply fuel request session with
    | error stop final =>
        rw [result] at ran
        cases ran
    | ok other final =>
        rw [result] at ran led
        injection ran with _ states
        obtain ⟨rfl, same⟩ := retrace_inj states
        rw [same] at led
        exact ⟨_, led⟩

/-- All that a session has told is what its machine has done since it started. -/
theorem Logged.roams (logged : session.Logged initial lost log) :
    (Machine.start initial .off).Roams log session.machine := by
  induction logged with
  | start tracer => exact Roams.of_retrace (Roams.refl (Machine.start initial .off))
  | reply fuel request _ replied ih =>
      obtain ⟨_, roams⟩ := reply_goes (MachineM.evaluates_free fuel) replied
      exact ih.trans (Roams.of_retrace roams)

/-! ## Sessions at work -/

/-- A request that stops with a frame at work has opened it. -/
theorem opened_of_halts {request : Request} (idle : session.machine.frames.items = [])
    (halts : Halts (SessionM.reply 0 request) session events begun)
    (active : begun.machine.frames.items ≠ []) :
    session.machine.Opened events begun.machine := by
  have other : request ≠ .trace := by
    rintro rfl
    cases halts.ran
  obtain ⟨_, opened⟩ := halts.halts (SessionM.reply_follows other
    fun _ => MachineM.evaluates_plain)
  refine (opened fun same => active ?_).of_retrace
  have empty : session.machine.frames.height = 0 := by
    rw [Stack.height_eq, idle, List.length_nil]
  have level : begun.machine.frames.height = 0 := same.trans empty
  rwa [Stack.height_eq, List.length_eq_zero_iff] at level

theorem Logged.opened {request : Request} (logged : session.Logged initial lost log)
    (halts : Halts (SessionM.reply 0 request) session events begun)
    (active : begun.machine.frames.items ≠ []) :
    session.machine.Opened events begun.machine :=
  opened_of_halts logged.holds.idle.frames halts active

/-- The frame is at work then, and the host holds what it held. -/
theorem Logged.working {request : Request} (logged : session.Logged initial lost log)
    (halts : Halts (SessionM.reply 0 request) session events begun)
    (active : begun.machine.frames.items ≠ []) :
    ∃ held, begun.machine.Working [] [] held ∧ lost ++ begun.refs ⊆ held := by
  obtain ⟨act, start, held, pending, call, entered, known, -⟩ :=
    logged.holds.begins halts.ran active
  obtain ⟨activation, -, within⟩ := entered.within
  obtain ⟨taken, idle⟩ := call.idle
  rw [idle.frames, idle.values] at within
  have working : Working _ [] [] (pending ++ held) :=
    ⟨⟨activation, within⟩, entered.error.trans call.quiet, entered.traceback.trans call.clean⟩
  exact ⟨_, working.of_retrace, fun ref member => List.mem_append_right _ (known member)⟩

/-- All that a session has told is what its machine has done since it started. -/
theorem Attained.roams (attained : session.Attained initial lost log) :
    (Machine.start initial .off).Roams log session.machine := by
  cases attained with
  | rest logged => exact logged.roams
  | busy request fuel logged halts active visits =>
      exact logged.roams.trans ((logged.opened halts active).roams.trans visits.roams)

/-- The machine is ready in every state that is attained, and the host holds its own. -/
theorem Attained.ready (attained : session.Attained initial lost log) :
    ∃ held, session.machine.Ready held ∧ lost ++ session.refs ⊆ held := by
  cases attained with
  | rest logged => exact ⟨_, logged.holds.idle.ready, List.Subset.refl _⟩
  | busy request fuel logged halts active visits =>
      obtain ⟨held, working, known⟩ := logged.working halts active
      obtain ⟨_, _, more, working, kept⟩ := visits.working working
      obtain ⟨activation, within⟩ := working.within
      exact ⟨more, within.ready, fun ref member => kept (known member)⟩

/-- No frame is at work between two requests, and one is while code runs. -/
theorem Attained.logged_of_idle (attained : session.Attained initial lost log)
    (idle : session.machine.frames.items = []) : session.Logged initial lost log := by
  cases attained with
  | rest logged => exact logged
  | busy request fuel logged halts active visits =>
      obtain ⟨held, working, -⟩ := logged.working halts active
      obtain ⟨_, _, _, working, -⟩ := visits.working working
      obtain ⟨activation, within⟩ := working.within
      have none : ([] : List Activation) = activation :: _ := idle.symm.trans within.frames
      cases none

/-! ## Getting to a state -/

theorem Logged.next {fuel : Nat} {request : Request} (logged : session.Logged initial lost log)
    (replied : session.replies fuel request = true) :
    ∃ events, (session.next fuel request).Logged initial (session.loses request.empties ++ lost)
      (log ++ events) := by
  unfold replies at replied
  unfold Session.next
  cases found : SessionM.reply fuel request session with
  | ok answer after =>
      obtain ⟨events, told⟩ := reply_tells found
      exact ⟨events, .reply fuel request logged told⟩
  | error stop after =>
      rw [found] at replied
      exact absurd replied Bool.false_ne_true

/-- A request that is replied to leads on. -/
theorem Logged.replied (logged : session.Logged initial lost log) (request : Request)
    (replied : session.replies 0 request = true) :
    ∃ lost log, (session.next 0 request).Logged initial lost log :=
  ⟨_, _, (logged.next replied).choose_spec⟩

/-- Does the request enter a frame? -/
def enters (request : Request) (session : Session τ) : Bool :=
  match SessionM.reply 0 request session with
  | .error .unfinished begun => !begun.machine.frames.isEmpty
  | _ => false

theorem halts_of_enters {request : Request} (entered : session.enters request = true) :
    ∃ events, Halts (SessionM.reply 0 request) session events (session.next 0 request) ∧
      (session.next 0 request).machine.frames.items ≠ [] := by
  unfold enters at entered
  unfold Session.next
  split at entered
  case h_1 begun found =>
    have other : request ≠ .trace := by
      rintro rfl
      cases found
    obtain ⟨events, halts, -⟩ := (SessionM.reply_follows other
      fun _ => MachineM.evaluates_free 0).stops found
    have active : begun.machine.frames.items ≠ [] := by
      simpa [Stack.isEmpty] using entered
    rw [found]
    exact ⟨events, halts, active⟩
  case h_2 => exact absurd entered Bool.false_ne_true

/-- The frame that a request enters is about to run. -/
theorem Logged.enter {request : Request} (logged : session.Logged initial lost log)
    (entered : session.enters request = true) :
    ∃ events, (session.next 0 request).Attained initial lost (log ++ events) := by
  obtain ⟨events, halts, active⟩ := halts_of_enters entered
  exact ⟨_, .busy request 0 logged halts active (.here _)⟩

/-- It is at work, with no frame below it. -/
theorem Logged.works {request : Request} (logged : session.Logged initial lost log)
    (entered : session.enters request = true) :
    ∃ held, (session.next 0 request).machine.Working [] [] held := by
  obtain ⟨events, halts, active⟩ := halts_of_enters entered
  obtain ⟨held, working, -⟩ := logged.working halts active
  exact ⟨held, working⟩

end Session

namespace Machine

variable {machine : Machine τ} {callers : List Activation} {below held : List Ref}

/-- The state after an instruction, if that enters no frame. -/
def next (machine : Machine τ) : Machine τ :=
  match MachineM.step (MachineM.runFrame 0) machine with
  | .ok _ after => after
  | .error _ after => after

/-- Does the frame go on to its next instruction after the one that it is at? -/
def goesOn (machine : Machine τ) : Bool :=
  match MachineM.step (MachineM.runFrame 0) machine with
  | .ok .next _ => true
  | _ => false

theorem step_of_goesOn (goes : machine.goesOn = true) :
    MachineM.step (MachineM.runFrame 0) machine = .ok .next machine.next := by
  unfold goesOn at goes
  unfold next
  split at goes
  case h_1 after found => rw [found]
  case h_2 => exact absurd goes Bool.false_ne_true

theorem Working.next (working : machine.Working callers below held)
    (goes : machine.goesOn = true) : machine.next.Working callers below held :=
  working.step (step_of_goesOn goes) rfl

end Machine

end StackMachine
