import StackMachine.Proofs.Evolution.Bracketing
import StackMachine.Proofs.Session.Attained
import StackMachine.Proofs.Store.Restoring

/-!
# The states that instructions are told in

Whatever a session is asked, each instruction that it tells of is told in a state that it
attains: the innermost frame there is at that instruction, and what was told before is the log
of that state.

A step tells of the instruction that its frame is at, before anything else.  All further
instructions are told by the frame that it enters.
-/

namespace StackMachine

open Outcome Machine Session Course

variable {τ α β : Type} [Tracker τ]

/-! ## Where an event stands -/

section Events

variable {event : Event} {events more earlier later : List Event}

theorem Event.not_mem_of_wordless (wordless : Event.instructions events = 0)
    (told : event.opcode?.isSome) : event ∉ events := fun member =>
  List.countP_eq_zero.mp wordless event member told

/-- An event of two parts stands in the first or in the second one. -/
theorem split_of_append (split : events ++ more = earlier ++ event :: later) :
    (∃ rest, events = earlier ++ event :: rest) ∨
      ∃ inner, earlier = events ++ inner ∧ more = inner ++ event :: later := by
  obtain ⟨rest, first, second⟩ | ⟨rest, first, second⟩ := List.append_eq_append_iff.mp split
  · exact .inr ⟨rest, first, second⟩
  · cases rest with
    | nil => exact .inr ⟨[], by simpa using first.symm, second.symm⟩
    | cons head rest =>
        obtain ⟨rfl, -⟩ := List.cons.inj second
        exact .inl ⟨rest, first⟩

end Events

/-! ## Telling of no instruction -/

section Wordless

variable {σ φ α β : Type} [Traced σ] {act : EStateM (Stop φ) σ α} {next : α → EStateM (Stop φ) σ β}
variable {before : σ} {event : Event} {events earlier later : List Event}

/-- An operation that tells of no instruction tells of none, if it breaks no promise. -/
theorem wordless_of_follows (tells : Tells act before events)
    (follows : (wordless σ).FollowsAt act before) (faultless : Faultless (act before)) :
    Event.instructions events = 0 := by
  have led := tells.leads follows
  cases ran : act before with
  | ok value after =>
      rw [ran] at led
      exact led
  | error stop after =>
      rw [ran] at led
      cases stop with
      | failed failure => exact led
      | fault broken => exact absurd ran (faultless broken after)
      | unfinished => exact led

/-- It does not tell of one among others either. -/
theorem not_told (tells : Tells act before (earlier ++ event :: later))
    (quiet : (wordless σ).FollowsAt act before) (faultless : Faultless (act before))
    (told : event.opcode?.isSome) : False :=
  Event.not_mem_of_wordless (wordless_of_follows tells quiet faultless) told
    (List.mem_append_right _ List.mem_cons_self)

/-- An event of two operations is told by the first of them, or by the second one. -/
theorem tells_split {course course' : Course σ}
    (tells : Tells (act >>= next) before (earlier ++ event :: later))
    (follows : course.FollowsAt act before) (goesOn : ∀ value, course'.Follows (next value)) :
    (∃ rest, Tells act before (earlier ++ event :: rest)) ∨
      ∃ value middle events inner, act before = .ok value middle ∧ Tells act before events ∧
        earlier = events ++ inner ∧ Tells (next value) middle (inner ++ event :: later) := by
  obtain ⟨own, first, rest⟩ := tells.of_bind follows fun value middle _ => goesOn value middle
  cases ran : act before with
  | error stop after =>
      rw [ran] at rest
      exact .inl ⟨later, rest ▸ first⟩
  | ok value middle =>
      rw [ran] at rest
      obtain ⟨more, second, split⟩ := rest
      obtain ⟨rest, rfl⟩ | ⟨inner, rfl, rfl⟩ := split_of_append split.symm
      · exact .inl ⟨rest, first⟩
      · exact .inr ⟨value, middle, own, inner, rfl, first, rfl, second⟩

/-- An instruction is told before the rest, if the rest tells of none. -/
theorem tells_first {course : Course σ}
    (tells : Tells (act >>= next) before (earlier ++ event :: later))
    (follows : course.FollowsAt act before)
    (quiet : ∀ value, (wordless σ).Follows (next value)) (told : event.opcode?.isSome)
    (faultless : Faultless ((act >>= next) before)) :
    ∃ rest, Tells act before (earlier ++ event :: rest) := by
  obtain first | ⟨value, middle, events, inner, ran, -, -, second⟩ :=
    tells_split tells follows quiet
  · exact first
  · exact (not_told second (quiet value middle) (faultless.of_bind_ok ran) told).elim

/-- What an operation tells that comes to another one was told on the way there, or it is told by
the other one. -/
theorem tells_after {course : Course σ} {other : EStateM (Stop φ) σ α} {begun : σ}
    {first : List Event} (tells : Tells act before (earlier ++ event :: later))
    (same : act (Traced.retrace (recorder []) before) =
      other (Traced.retrace (recorder first) begun))
    (follows : course.FollowsAt other begun) :
    (∃ rest, first = earlier ++ event :: rest) ∨
      ∃ inner, earlier = first ++ inner ∧ Tells other begun (inner ++ event :: later) := by
  obtain ⟨more, told, -⟩ := follows
  obtain within | ⟨inner, rfl, rfl⟩ := split_of_append (tells.eq_of_same told same).symm
  · exact .inl within
  · exact .inr ⟨inner, rfl, told⟩

end Wordless

namespace MachineM

variable {machine inside : Machine τ} {callers : List Activation} {below held pending : List Ref}
variable {fuel : Nat} {event : Event} {earlier later : List Event} {run : MachineM τ Ref}

theorem evaluates_wordless {stop : Stop Failure}
    (stops : ∀ machine : Machine τ, run machine = .error stop machine) :
    Evaluates (wordless (Machine τ)) run := by
  refine evaluateCode_ranges fun before => ⟨[], fun tracer => ?_, ?_⟩
  · rw [stops, stops]
    rfl
  · rw [stops]
    cases stop with
    | failed failure => rfl
    | fault broken => trivial
    | unfinished => rfl

/-- A step tells of the instruction that it carries out, before anything else. -/
theorem step_first (evaluates : Evaluates (wordless (Machine τ)) run)
    (tells : Tells (step run) machine (earlier ++ event :: later)) (told : event.opcode?.isSome)
    (faultless : Faultless (step run machine)) : earlier = [] ∧ machine.Delivers event := by
  have advances : (free τ).Follows (onStore tick >>= fun _ => reach : MachineM τ _) :=
    advance_follows
  rw [step_eq] at tells faultless
  obtain ⟨rest, advanced⟩ := tells_first tells (advances machine)
    (fun fetched => dispatch_follows evaluates fetched.1 fetched.2.1 fetched.2.2) told faultless
  obtain ⟨events, tells, only, -⟩ := advance_tells machine
  obtain rfl := advanced.unique tells
  obtain none | ⟨instruction, single, delivers⟩ := only
  · simp at none
  · cases earlier with
    | nil =>
        obtain ⟨rfl, -⟩ := List.cons.inj single
        exact ⟨rfl, delivers⟩
    | cons head tail => simp at single

/-! ## Entering a frame -/

/-- Once a frame has run, it is left without telling of an instruction. -/
theorem finishCall_first (tells : Tells (finishCall pending run) inside (earlier ++ event :: later))
    (follows : (free τ).Follows run) (told : event.opcode?.isSome)
    (faultless : Faultless (finishCall pending run inside)) :
    ∃ rest, Tells run inside (earlier ++ event :: rest) := by
  obtain ⟨rest, attempted⟩ := tells_first tells (follows.attempt inside)
    (leaving_follows pending) told faultless
  exact ⟨rest, attempted.of_attempt (follows inside)⟩

/-- An instruction that a step tells of is the one that the frame is at, or it is told by the
frame that the step enters. -/
theorem step_delivers (working : machine.Working callers below held)
    (tells : Tells (step (runFrame fuel)) machine (earlier ++ event :: later))
    (told : event.opcode?.isSome) :
    (earlier = [] ∧ machine.Delivers event) ∨
      ∃ first entered inner rest, Halts (step (runFrame 0)) machine first entered ∧
        entered.frames.height ≠ machine.frames.height ∧ earlier = first ++ inner ∧
          Tells (runFrame fuel) entered (inner ++ event :: rest) := by
  obtain ⟨activation, within⟩ := working.within
  have again := within.withTracer (recorder [])
  have first {later : List Event} (zero : Tells (step (runFrame 0)) machine
      (earlier ++ event :: later)) : earlier = [] ∧ machine.Delivers event :=
    step_first (evaluates_wordless fun _ => rfl) zero told
      (step_ends (runFrame_runsFrames 0) within working.quiet).faultless
  have stepping (fuel : Nat) : (free τ).Follows (step (runFrame fuel)) :=
    step_follows (evaluates_free fuel)
  obtain ⟨events, zero⟩ := (stepping 0).tells machine
  cases step_steps again with
  | direct result always ends =>
      obtain rfl : earlier ++ event :: later = events :=
        tells.eq_of_same zero ((always _).trans (always _).symm)
      exact .inl (first zero)
  | calls taken pending middle inside always moves entered =>
      have halted : step (runFrame 0) (Traced.retrace (recorder []) machine) =
          .error .unfinished inside := (always _).trans (bind_error (bind_error rfl))
      obtain ⟨halts, recorded⟩ := zero.halts halted
      obtain early | ⟨inner, rfl, later⟩ := tells_after tells
        ((always _).trans (congrArg _ recorded))
        ((finishCall_follows pending (runFrame_roams fuel)).bind resume_follows inside)
      · obtain ⟨rest, rfl⟩ := early
        exact .inl (first zero)
      · have faultless : Faultless ((finishCall pending (runFrame fuel) >>= resume) inside) :=
          always (runFrame fuel) ▸
            (step_ends (runFrame_runsFrames fuel) again working.quiet).faultless
        obtain ⟨rest, finishing⟩ := tells_first later
          (finishCall_follows pending (runFrame_roams fuel) inside) resume_follows told faultless
        obtain ⟨rest, running⟩ :=
          finishCall_first finishing (runFrame_roams fuel) told faultless.of_bind
        refine .inr ⟨events, inside, inner, rest, halts, ?_, rfl, running⟩
        obtain ⟨_, -, inner⟩ := entered.within
        obtain ⟨_, -, left⟩ := moves.within
        rw [Stack.height_eq, Stack.height_eq, inner.frames, left.frames, within.frames]
        simp

/-! ## Running a frame -/

/-- The instructions that a frame tells of, it tells of in states that it visits. -/
theorem runFrame_delivers (fuel : Nat) (working : machine.Working callers below held)
    (tells : Tells (runFrame fuel) machine (earlier ++ event :: later))
    (told : event.opcode?.isSome) :
    ∃ visited, Visits fuel machine earlier visited ∧ visited.Delivers event := by
  induction fuel generalizing machine callers below held earlier later with
  | zero =>
      have none := tells.unique (fun _ => rfl : Tells _ _ [])
      simp at none
  | succ fuel ih =>
      obtain ⟨activation, within⟩ := working.within
      have faultless := (runFrame_runsFrames (fuel + 1) within working.quiet).faultless
      have stepping : (free τ).Follows (step (runFrame fuel)) :=
        step_follows (evaluates_free fuel)
      have goesOn (result : Except Failure Flow) :
          (free τ).Follows (carryOn (runFrame fuel) result) :=
        carryOn_follows unwind_ranges pushTraceback_ranges (runFrame_roams fuel) result
      rw [runFrame_succ] at tells faultless
      obtain ⟨rest, attempted⟩ | ⟨result, middle, events, inner, ran, attempted, rfl, carried⟩ :=
        tells_split tells (stepping.attempt machine) goesOn
      · obtain ⟨rfl, delivers⟩ | ⟨first, entered, inner, rest, halts, deeper, rfl, running⟩ :=
          step_delivers working (attempted.of_attempt (stepping machine)) told
        · exact ⟨machine, .here machine, delivers⟩
        · obtain ⟨_, _, _, opened, -⟩ := working.enter halts.ran deeper
          obtain ⟨visited, visits, delivers⟩ := ih opened.of_retrace running
          exact ⟨visited, .inside halts deeper visits, delivers⟩
      -- The step is over, and the instruction is told by what comes after it.
      have stepped := attempted.of_attempt (stepping machine)
      have intact := faultless.of_bind_ok ran
      have idle : (wordless (Machine τ)).Follows (throw (.fault .idle) : MachineM τ Ref) :=
        .fault .idle
      have ends := carryOn_follows unwind_ranges pushTraceback_ranges idle
      obtain ⟨flow, rfl, went⟩ | ⟨failure, rfl, -⟩ := attempt_cases ran
      case inr => exact (not_told carried (ends (.error failure) middle) intact told).elim
      cases flow with
      | next =>
          obtain ⟨visited, visits, delivers⟩ := ih (working.step went rfl) carried
          exact ⟨visited, .next (stepped.returns went) visits, delivers⟩
      | returning value =>
          exact (not_told carried (ends (.ok (.returning value)) middle) intact told).elim
      | breaking =>
          have left := working.step went rfl
          have unwinding : (free τ).Follows (unwind .breaking : MachineM τ Bool) := unwind_ranges _
          obtain ⟨rest, unwound⟩ | ⟨found, after, more, inner, caught, unwound, rfl, carried⟩ :=
            tells_split carried (unwinding middle)
              (endBreak_follows pushTraceback_ranges (runFrame_roams fuel))
          · exact (not_told unwound (unwind_ranges _ middle) intact.of_bind told).elim
          cases found with
          | true =>
              obtain ⟨visited, visits, delivers⟩ := ih (left.unwind caught) carried
              exact ⟨visited, .breaks (stepped.returns went) (unwound.returns caught) visits,
                delivers⟩
          | false =>
              have silent := endBreak_follows pushTraceback_ranges idle false after
              exact (not_told carried silent (intact.of_bind_ok caught) told).elim

end MachineM

/-! ## Requests -/

namespace SessionM

variable {session begun : Session τ} {request : Request}
variable {event : Event} {events earlier later : List Event}

theorem reply_congr {fuel : Nat}
    {act : EStateM (Stop Failure) (Session τ) (Except (Reply τ) (Answer τ))}
    (same : (perform fuel request).run session = act begun) :
    reply fuel request session = (act >>= fun told => pure (asReply told)) begun := by
  rw [reply_eq]
  show EStateM.bind _ _ session = EStateM.bind act _ begun
  rw [EStateM.bind, EStateM.bind, same]

omit [Tracker τ] in
theorem tells_onMachine {act : MachineM τ α} (tells : Tells act session.machine events) :
    Tells (onMachine act).run session events := by
  intro tracer
  have told : act (Traced.retrace tracer session).machine = _ := tells tracer
  rw [onMachine_run, onMachine_run, told]
  cases act session.machine <;> rfl

/-- Once a frame has run, the request is finished without telling of an instruction. -/
theorem concluding_first {run : MachineM τ Ref} {rest : Option Ref → SessionM τ (Answer τ)}
    {pending : List Ref} (concluding : Concluding rest) (follows : (free τ).Follows run)
    (tells : Tells (onMachine (MachineM.recording (MachineM.finishCall pending run)) >>= rest).run
      session (earlier ++ event :: later)) (told : event.opcode?.isSome)
    (faultless : Faultless ((onMachine (MachineM.recording (MachineM.finishCall pending run)) >>=
      rest).run session)) :
    ∃ rest, Tells run session.machine (earlier ++ event :: rest) := by
  have finishing := MachineM.finishCall_follows pending follows
  have recording := MachineM.recording_follows finishing
  have quiet (result : Except (Reply τ) (Option Ref)) :
      (wordless (Session τ)).Follows (ExceptT.bindCont rest result) := by
    cases result with
    | ok value =>
        have silent : Follows (wordless (Machine τ)) (rest value) := concluding.follows value
        exact silent
    | error reply => exact .pure (Except.error reply)
  obtain ⟨_, called⟩ := tells_first tells (Follows.onMachine recording session) quiet told faultless
  obtain ⟨events, own, -⟩ := recording session.machine
  obtain rfl := called.unique (tells_onMachine own)
  have intact :
      Faultless (MachineM.recording (MachineM.finishCall pending run) session.machine) := by
    intro broken state stopped
    exact faultless broken _ (run_bind_error (by rw [onMachine_run, stopped]))
  obtain ⟨_, attempted⟩ := tells_first own (finishing.attempt session.machine) (fun result => by
    cases result with
    | ok value => exact .pure (some value)
    | error failure => exact (MachineM.record_follows failure).bind fun _ => .pure none)
    told intact
  exact MachineM.finishCall_first (attempted.of_attempt (finishing session.machine)) follows told
    (Faultless.of_attempt intact.of_bind)

end SessionM

namespace Session

/-- A session gets, while it carries out a request, to a state in which an instruction is about to
be carried out. -/
inductive Visits (fuel : Nat) (request : Request) (session : Session τ) :
    List Event → Session τ → Prop where
  | busy {begun : Session τ} {visited : Machine τ} {events more : List Event}
      (halts : Halts (SessionM.reply 0 request) session events begun)
      (active : begun.machine.frames.items ≠ [])
      (visits : MachineM.Visits fuel begun.machine more visited) :
      Visits fuel request session (events ++ more) { begun with machine := visited }

variable {initial : τ} {session visited : Session τ} {lost : List Ref}
variable {log events earlier later : List Event} {request : Request} {fuel : Nat} {event : Event}

theorem Logged.attains (logged : session.Logged initial lost log)
    (visits : session.Visits fuel request events visited) :
    visited.Attained initial lost (log ++ events) := by
  cases visits with
  | busy halts active visits => exact .busy request fuel logged halts active visits

/-- A request does not tell of an instruction if it is given no steps to run a frame in. -/
theorem Logged.starved (logged : session.Logged initial lost log) (other : request ≠ .trace)
    (tells : Tells (SessionM.reply 0 request) session (earlier ++ event :: later))
    (told : event.opcode?.isSome) : False := by
  have silent : (wordless (Machine τ)).within.Follows (SessionM.reply 0 request) :=
    SessionM.reply_follows other fun _ => MachineM.evaluates_wordless fun _ => rfl
  exact not_told tells (silent session) (reply_holds 0 request logged.holds).faultless told

/-- Each instruction that a request tells of is told in a state that is visited. -/
theorem Logged.delivers (logged : session.Logged initial lost log) (runs : request.runs)
    (tells : Tells (SessionM.reply fuel request) session (earlier ++ event :: later))
    (told : event.opcode?.isSome) :
    ∃ visited, session.Visits fuel request earlier visited ∧ visited.machine.Delivers event := by
  have other : request ≠ .trace := by
    rintro rfl
    cases runs
  have again := logged.retrace (recorder [])
  have zero := SessionM.reply_follows other (fun _ => MachineM.evaluates_free (τ := τ) 0)
  obtain ⟨events, zero⟩ := zero.tells session
  cases (SessionM.perform_launches again.holds runs).starts with
  | settled result always leads =>
      have same := (always fuel).trans (always 0).symm
      obtain rfl : earlier ++ event :: later = events := tells.eq_of_same zero
        ((SessionM.reply_congr same).trans (SessionM.reply_congr rfl).symm)
      exact (logged.starved other zero told).elim
  | enters act start held pending inside rest calm _ call same entered known concluding always =>
      obtain ⟨activation, -, within⟩ := entered.within
      have active : inside.frames.items ≠ [] := by simp [within.frames]
      have stopped : SessionM.reply 0 request (Traced.retrace (recorder []) session) =
          .error .unfinished { start with machine := inside } :=
        (SessionM.reply_congr (always 0)).trans
          (bind_error (SessionM.calling_halts pending rest _))
      obtain ⟨halts, recorded⟩ := zero.halts stopped
      have running : (free τ).Follows (MachineM.runFrame fuel) := MachineM.runFrame_roams fuel
      have finishing := MachineM.finishCall_follows pending running
      have calling : SessionM.Follows (free τ) (SessionM.onMachine (MachineM.recording
          (MachineM.finishCall pending (MachineM.runFrame fuel))) >>= rest) :=
        SessionM.Follows.bind (.onMachine (MachineM.recording_follows finishing)) concluding.follows
      have alike := SessionM.reply_congr (always fuel)
      have faultless := (reply_holds fuel request again.holds).faultless
      rw [alike] at faultless
      obtain ⟨_, rfl⟩ | ⟨inner, rfl, later⟩ :=
        tells_after tells (alike.trans (congrArg _ recorded))
          (Course.Follows.bind calling (fun told => .pure (SessionM.asReply told)) _)
      · exact (logged.starved other zero told).elim
      obtain ⟨_, performing⟩ := tells_first later (calling _)
        (fun told => .pure (SessionM.asReply told)) told faultless
      obtain ⟨_, ran⟩ := SessionM.concluding_first concluding running performing told
        faultless.of_bind
      obtain ⟨held, working, -⟩ := logged.working halts active
      obtain ⟨visited, visits, delivers⟩ := MachineM.runFrame_delivers fuel working ran told
      exact ⟨_, .busy halts active visits, delivers⟩

end Session

end StackMachine
