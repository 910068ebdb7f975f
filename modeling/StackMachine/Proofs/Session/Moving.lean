import StackMachine.Proofs.Session.Delivering

/-!
# How a session goes on

`Moves` lists how a session gets from a state to the next one: a request is replied to or enters
a frame, a frame gets to its next instruction or calls another frame, a frame that was called
returns, and the request that code runs for is replied to.

Whichever way it is, the store goes along a path, and some references are held all the while.
Where a frame returns or a request is over, the run that leads to the state before tells nothing
of this, as it ends there.  But the run of the caller, or of the whole request, comes through that
state on its way, and `Visits.beyond` says that it ends further along the path.
-/

namespace StackMachine

open Store Outcome Machine Session

variable {τ : Type}

namespace Machine

variable {machine : Machine τ} {activation : Activation} {callers : List Activation}
variable {below held : List Ref}

/-- The values that lie below those of the frame at work. -/
def waiting (machine : Machine τ) : List Ref :=
  match machine.frames.items with
  | [] => []
  | activation :: _ => machine.values.items.drop (machine.values.items.length - activation.base)

theorem Within.waiting_eq (within : machine.Within activation callers below held) :
    machine.waiting = below := by
  obtain ⟨own, items⟩ := within.values
  simp only [waiting, within.frames, items, within.base, List.length_append,
    Nat.add_sub_cancel, List.drop_left]

theorem waiting_subset (machine : Machine τ) : machine.waiting ⊆ machine.values.items := by
  unfold waiting
  split
  · exact List.nil_subset _
  · exact List.drop_subset _ _

end Machine

variable [Tracker τ]

/-! ## Runs that come through a state -/

namespace MachineM

variable {machine entered visited : Machine τ} {callers : List Activation} {below held : List Ref}
variable {store : Store τ} {fuel : Nat} {events : List Event}

theorem preserves_path (store : Store τ) :
    (free τ).Preserves fun machine => AnyPath store machine.store :=
  fun _ _ _ path roams => path.trans roams.path

/-- An instruction that enters a frame ends beyond what the run of that frame ends beyond. -/
theorem step_beyond (working : machine.Working callers below held)
    (halts : Halts (step (runFrame 0)) machine events entered)
    (deeper : entered.frames.height ≠ machine.frames.height)
    (ran : ∀ tracer, Lands (fun after => AnyPath store after.store)
      (runFrame fuel (Traced.retrace tracer entered))) (tracer : Tracer) :
    Lands (fun after => AnyPath store after.store)
      (step (runFrame fuel) (Traced.retrace tracer machine)) := by
  obtain ⟨activation, within⟩ := working.within
  obtain ⟨_, pending, _, always, -⟩ :=
    (within.withTracer tracer).enters (halts tracer) deeper
  have stepped : step (runFrame fuel) (Traced.retrace tracer machine) = _ := always _
  rw [stepped]
  exact (finishCall_lands (preserves_path store) pending (ran _)).bind
    fun value _ _ path => (preserves_path store).lands path (resume_follows value)

/-- The run of a frame ends beyond every state that it visits.  A visit leads from state to state
up to the tracer, so this is said for every tracer that the run starts with. -/
theorem Visits.beyond (visits : Visits fuel machine events visited)
    (working : machine.Working callers below held) (tracer : Tracer) :
    Lands (fun after => AnyPath visited.store after.store)
      (runFrame fuel (Traced.retrace tracer machine)) := by
  induction visits generalizing callers below held tracer with
  | @here fuel machine =>
      exact (preserves_path machine.store).lands (.refl _) (runFrame_roams fuel)
  | next stepped rest ih =>
      have went := attempt_ok (stepped tracer)
      rw [runFrame_succ, StoreM.bind_ok went]
      exact ih (working.step stepped.ran rfl).of_retrace _
  | breaks stepped caught rest ih =>
      have went := attempt_ok (stepped tracer)
      have broken := (working.step stepped.ran rfl).of_retrace
      rw [runFrame_succ, StoreM.bind_ok went, carryOn, StoreM.bind_ok (caught _)]
      exact ih (broken.unwind caught.ran).of_retrace _
  | @inside fuel _ _ visited _ _ halts deeper rest ih =>
      obtain ⟨_, _, _, opened, -⟩ := working.enter halts.ran deeper
      have stepped := step_beyond working halts deeper (ih opened.of_retrace) tracer
      rw [runFrame_succ]
      -- What the caller does after its instruction only goes on from there, however that ended.
      exact stepped.attempt.bind fun result _ _ path => (preserves_path visited.store).lands path
        (carryOn_follows unwind_ranges pushTraceback_ranges (runFrame_roams fuel) result)

end MachineM

namespace Session

variable {initial : τ} {session start begun visited after : Session τ}
variable {lost held : List Ref} {log events : List Event} {request : Request} {fuel : Nat}

/-- A request is replied to beyond every state that it visits. -/
theorem Visits.beyond (visits : start.Visits fuel request events visited)
    (logged : start.Logged initial lost log) :
    Lands (fun after => AnyPath visited.machine.store after.machine.store)
      (SessionM.reply fuel request start) := by
  cases visits with
  | busy halts active visits =>
      obtain ⟨_, _, _, pending, _, _, _, _, rest, concluding, always⟩ :=
        logged.holds.begins halts.ran active
      obtain ⟨held, working, -⟩ := logged.working halts active
      refine SessionM.reply_lands ?_
      rw [always]
      refine concluding.lands (MachineM.preserves_path _)
        (MachineM.recording_lands (MachineM.preserves_path _) ?_)
      exact MachineM.finishCall_lands (MachineM.preserves_path _) pending
        (visits.beyond working _)

end Session

/-! ## What is held all the while -/

namespace Store

variable {origin before after : Store τ} {held : List Ref} {ref : Ref}

omit [Tracker τ] in
/-- What is anchored was anchored before, if there was an object wherever that was so. -/
theorem Anchored.of_kept (anchored : after.Anchored held ref) (keeps : Keeps held before after)
    (filled : ∀ ref, before.Anchored held ref → before.Filled ref) : before.Anchored held ref := by
  induction anchored with
  | held member => exact .held member
  | part _ found fixed member ih =>
      obtain ⟨payload, there⟩ := filled _ ih
      obtain ⟨new, present, became⟩ := keeps _ ih payload there
      obtain rfl := Option.some.inj (found.symm.trans present)
      cases became with
      | same => exact .part ih there fixed member
      | list => cases fixed
      | tuple => cases fixed
      | dict => cases fixed

omit [Tracker τ] in
/-- What has been held since there was an object there is of the same kind in two stores that
came of that. -/
theorem Anchored.kinds (anchored : before.Anchored held ref)
    (filled : ∀ ref, origin.Anchored held ref → origin.Filled ref)
    (earlier : Keeps held origin before) (later : Keeps held origin after) :
    ∃ kind, before.kind? ref = some kind ∧ after.kind? ref = some kind := by
  have anchor := anchored.of_kept earlier filled
  obtain ⟨payload, found⟩ := filled ref anchor
  obtain ⟨first, there, became⟩ := earlier ref anchor payload found
  obtain ⟨second, present, becomes⟩ := later ref anchor payload found
  refine ⟨payload.kind, (kind?_eq there).trans (congrArg some became.kind_eq), ?_⟩
  exact (kind?_eq present).trans (congrArg some becomes.kind_eq)

end Store

namespace Session

variable {initial : τ} {session start begun visited after : Session τ}
variable {lost held : List Ref} {log events : List Event} {request : Request} {fuel : Nat}
variable {touched : List Register}

omit [Tracker τ] in
/-- What is held while a session goes on: the references that its host has lost, those in the
registers that are left alone, the values of the callers, and the active frames. -/
def standing (session : Session τ) (lost : List Ref) (touched : List Register) : List Ref :=
  (lost ++ session.spared touched) ++ (session.machine.waiting ++ session.machine.frameRefs)

omit [Tracker τ] in
theorem standing_of_idle (idle : session.machine.frames.items = []) :
    session.standing lost touched = lost ++ session.spared touched := by
  simp [standing, waiting, frameRefs, idle]

theorem Attained.working (attained : session.Attained initial lost log)
    (active : session.machine.frames.items ≠ []) :
    ∃ callers below held, session.machine.Working callers below held ∧
      lost ++ session.refs ⊆ held := by
  cases attained with
  | rest logged => exact absurd logged.holds.idle.frames active
  | busy request fuel logged halts _ visits =>
      obtain ⟨held, working, known⟩ := logged.working halts ‹_›
      obtain ⟨callers, below, more, working, kept⟩ := visits.working working
      exact ⟨callers, below, more, working, fun ref member => kept (known member)⟩

/-- There is an object wherever something is held. -/
theorem Attained.filled {ref : Ref} (attained : session.Attained initial lost log)
    (anchored : session.machine.store.Anchored (session.standing lost touched) ref) :
    session.machine.store.Filled ref := by
  obtain ⟨held, ready, known⟩ := attained.ready
  cases anchored with
  | held member =>
      refine ready.sound.payload_of_held (List.mem_append_right _ ?_)
      have own : ref ∈ lost ++ session.refs → ref ∈ held := fun there => known there
      have spared : ref ∈ session.spared touched → ref ∈ session.refs :=
        fun there => session.spared_subset touched there
      have waits : ref ∈ session.machine.waiting → ref ∈ session.machine.values.items :=
        fun there => session.machine.waiting_subset there
      simp only [standing, internals, frameRefs, List.mem_append] at member own ⊢
      tauto
  | part _ found _ member => exact ready.sound.payload_of_child found member

/-- What is held while a frame works is kept. -/
theorem Attained.keeps {visited : Machine τ} (attained : session.Attained initial lost log)
    (active : session.machine.frames.items ≠ [])
    (visits : MachineM.Visits fuel session.machine events visited) :
    Keeps (session.standing lost []) session.machine.store visited.store := by
  obtain ⟨callers, below, held, working, known⟩ := attained.working active
  obtain ⟨activation, within⟩ := working.within
  refine (visits.upholds working).keeps.mono fun ref member => ?_
  have own : ref ∈ lost ++ session.refs → ref ∈ held := fun there => known there
  have spared : ref ∈ session.spared [] → ref ∈ session.refs :=
    fun there => session.spared_subset [] there
  rw [standing, within.waiting_eq] at member
  simp only [List.mem_append] at member own ⊢
  tauto

/-- What is held while a request runs code is kept in every state that is visited. -/
theorem Logged.keeps (logged : start.Logged initial lost log)
    (visits : start.Visits fuel request events visited) :
    Keeps (start.standing lost request.touches) start.machine.store visited.machine.store := by
  rw [standing_of_idle logged.holds.idle.frames]
  cases visits with
  | busy halts active visits =>
      obtain ⟨_, _, _, _, _, _, _, spares, -⟩ := logged.holds.begins halts.ran active
      obtain ⟨held, working, known⟩ := logged.working halts active
      refine spares.keeps.trans ((visits.upholds working).keeps.mono ?_)
      rw [← spares.spared_eq]
      exact fun ref member => List.mem_append_left _
        (known (append_subset_append lost (spared_subset _ _) member))

/-! ## Going on -/

/-- A session goes on from a state to the next one.  What is held all the while is given, if the
host has lost the references `lost`. -/
inductive Moves (before : Session τ) (lost : List Ref) : (held : List Ref) → Session τ → Prop where
  /-- A request is replied to. -/
  | reply {after : Session τ} {request : Request} {answer : Reply τ} (fuel : Nat)
      (idle : before.machine.frames.items = [])
      (replied : SessionM.reply fuel request before = .ok answer after) :
      Moves before lost (before.standing lost request.touches) after
  /-- A request enters a frame. -/
  | enter {begun : Session τ} {request : Request} (idle : before.machine.frames.items = [])
      (halted : SessionM.reply 0 request before = .error .unfinished begun)
      (active : begun.machine.frames.items ≠ []) :
      Moves before lost (before.standing lost request.touches) begun
  /-- The frame at work gets to another of its instructions, or to one of a frame that it
  calls. -/
  | visit {visited : Machine τ} {events : List Event} (fuel : Nat)
      (active : before.machine.frames.items ≠ [])
      (visits : MachineM.Visits fuel before.machine events visited) :
      Moves before lost (before.standing lost []) { before with machine := visited }
  /-- The frame at work, and whatever called it, returns to one of its callers. -/
  | leave {initial : τ} {caller entered returned : Machine τ} {log events inner told : List Event}
      (fuel : Nat) (attained : Attained initial { before with machine := caller } lost log)
      (active : caller.frames.items ≠ [])
      (halts : Halts (MachineM.step (MachineM.runFrame 0)) caller events entered)
      (deeper : entered.frames.height ≠ caller.frames.height)
      (visits : MachineM.Visits fuel entered inner before.machine)
      (stepped : Returns (MachineM.step (MachineM.runFrame fuel)) caller told .next returned) :
      Moves before lost (standing { before with machine := caller } lost [])
        { before with machine := returned }
  /-- The request that the frames run for is replied to. -/
  | finish {initial : τ} {start after : Session τ} {request : Request} {answer : Reply τ}
      {log events : List Event} (fuel : Nat) (logged : start.Logged initial lost log)
      (visits : start.Visits fuel request events before)
      (replied : SessionM.reply fuel request start = .ok answer after) :
      Moves before lost (start.standing lost request.touches) after

/-- Whichever way a session goes on, its store goes along a path. -/
theorem Moves.path (moves : session.Moves lost held after) :
    AnyPath session.machine.store after.machine.store := by
  cases moves with
  | reply fuel idle replied =>
      obtain ⟨events, told⟩ := reply_tells replied
      obtain ⟨_, roams⟩ := reply_goes (MachineM.evaluates_free fuel) told
      exact roams.path
  | @enter _ request idle halted active =>
      have other : request ≠ .trace := by
        rintro rfl
        cases halted
      obtain ⟨events, halts, -⟩ := (SessionM.reply_follows other
        fun _ => MachineM.evaluates_free 0).stops halted
      exact (opened_of_halts idle halts active).roams.path
  | visit fuel active visits => exact visits.roams.path
  | @leave _ caller _ _ _ _ _ _ fuel attained active halts deeper visits stepped =>
      obtain ⟨_, _, _, working, -⟩ : ∃ callers below held,
          caller.Working callers below held ∧ _ := attained.working active
      obtain ⟨_, _, _, opened, -⟩ := working.enter halts.ran deeper
      have lands := MachineM.step_beyond working halts deeper (visits.beyond opened.of_retrace)
      have path := (lands .off).of_ok (stepped .off)
      exact path
  | finish fuel logged visits replied => exact (visits.beyond logged).of_ok replied

/-- A session gets to a state in any number of moves, whatever its host loses on the way. -/
def GetsTo (before after : Session τ) : Prop :=
  Relation.ReflTransGen (fun session next => ∃ lost held, session.Moves lost held next)
    before after

theorem GetsTo.path (gets : session.GetsTo after) :
    AnyPath session.machine.store after.machine.store := by
  induction gets with
  | refl => exact .refl _
  | tail _ last ih =>
      obtain ⟨_, _, moves⟩ := last
      exact ih.trans moves.path

/-- Whichever way a session goes on, what is held all the while is there and of the same kind. -/
theorem Moves.kinds {ref : Ref} (moves : session.Moves lost held after)
    (attained : session.Attained initial lost log)
    (anchored : session.machine.store.Anchored held ref) :
    ∃ kind, session.machine.store.kind? ref = some kind ∧
      after.machine.store.kind? ref = some kind := by
  have same := Keeps.refl held session.machine.store
  cases moves with
  | @reply _ request _ fuel idle replied =>
      have holds := (attained.logged_of_idle idle).holds
      have spares := ((reply_holds fuel request holds).of_ok replied).2
      refine anchored.kinds (fun _ => attained.filled) same ?_
      rw [standing_of_idle idle]
      exact spares.keeps
  | enter idle halted active =>
      have holds := (attained.logged_of_idle idle).holds
      obtain ⟨_, _, _, _, _, _, _, spares, -⟩ := holds.begins halted active
      refine anchored.kinds (fun _ => attained.filled) same ?_
      rw [standing_of_idle idle]
      exact spares.keeps
  | visit fuel active visits =>
      exact anchored.kinds (fun _ => attained.filled) same (attained.keeps active visits)
  | leave fuel called active halts deeper visits stepped =>
      exact anchored.kinds (fun _ => called.filled)
        (called.keeps active (.inside halts deeper visits))
        (called.keeps active (.next stepped (.here _)))
  | @finish _ _ _ request _ _ _ fuel logged visits replied =>
      have began : Attained _ _ lost _ := .rest logged
      refine anchored.kinds (fun _ => began.filled) (logged.keeps visits) ?_
      rw [standing_of_idle logged.holds.idle.frames]
      exact ((reply_holds fuel request logged.holds).of_ok replied).2.keeps

/-- The frame at work gets to its next instruction. -/
theorem moves_next (lost : List Ref) (active : session.machine.frames.items ≠ [])
    (goes : session.machine.goesOn = true) :
    session.Moves lost (session.standing lost [])
      { session with machine := session.machine.next } := by
  obtain ⟨events, stepped, -⟩ := (MachineM.step_follows (MachineM.evaluates_free 0)).returns
    (step_of_goesOn goes)
  exact .visit 1 active (.next stepped (.here _))

/-- The frame that a request enters has run when the request is replied to. -/
theorem Logged.moves_reply (logged : session.Logged initial lost log)
    (entered : session.enters request = true) (replied : session.replies fuel request = true) :
    (session.next 0 request).Moves lost (session.standing lost request.touches)
      (session.next fuel request) := by
  obtain ⟨events, halts, active⟩ := halts_of_enters entered
  unfold replies at replied
  unfold Session.next
  cases found : SessionM.reply fuel request session with
  | ok answer after => exact .finish fuel logged (.busy halts active (.here _)) found
  | error stop after =>
      rw [found] at replied
      exact absurd replied Bool.false_ne_true

end Session

end StackMachine
