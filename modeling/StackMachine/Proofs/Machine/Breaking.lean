import StackMachine.Proofs.Machine.Delivery

/-!
# Breaking out of loops

A break leaves blocks, innermost first, until it has left a loop, and goes on where that loop
ends.  Every block that is left takes the values of the frame down to the level it was set up
at, if there are more: in the end there are as many as the lowest of those levels says.  The
frame's values are the lowest it had, and the others are given back once.  A break that is in no
loop of its frame is an error, and no frame that waits for this one goes on in a loop of its own.
-/

namespace StackMachine

open Store Outcome Machine

variable {τ α : Type} {machine before middle after failing : Machine τ}
variable {activation current last : Activation} {callers : List Activation}
variable {own below held : List Ref} {popped more : List Block}

/-- How many of `count` values are left when some blocks have been left. -/
def lowest (count : Nat) (blocks : List Block) : Nat :=
  blocks.foldl (fun count block => min count block.level) count

theorem lowest_le (count : Nat) (blocks : List Block) : lowest count blocks ≤ count := by
  induction blocks generalizing count with
  | nil => exact Nat.le_refl count
  | cons block rest ih => exact (ih _).trans (Nat.min_le_left _ _)

theorem lowest_append (count : Nat) (first second : List Block) :
    lowest count (first ++ second) = lowest (lowest count first) second :=
  List.foldl_append

namespace MachineM

variable [Tracker τ]

/-! ## Leaving blocks -/

/-- The innermost frame left some blocks and is at `current`: of its own values there are as many
of the lowest as the levels of the blocks allow for, and the others were given back. -/
structure Withdraws (before : Machine τ) (current : Activation) (callers : List Activation)
    (own below held : List Ref) (popped : List Block) (after : Machine τ) : Prop where
  frames : after.frames.items = current :: callers
  values : after.values.items = own.drop (own.length - lowest own.length popped) ++ below
  released : StoreM.releaseAll (own.take (own.length - lowest own.length popped)) before.store =
    .ok () after.store
  error : after.error = before.error
  within : after.Within current callers below held

theorem Withdraws.refl (within : machine.Within activation callers below held)
    (items : machine.values.items = own ++ below) :
    Withdraws machine activation callers own below held [] machine where
  frames := within.frames
  values := by simp [lowest, items]
  released := by simp [lowest, StoreM.releaseAll, drain]
  error := rfl
  within := within

/-- Blocks are left in two parts. -/
theorem Withdraws.trans (earlier : Withdraws before current callers own below held popped middle)
    (later : Withdraws middle last callers (own.drop (own.length - lowest own.length popped)) below
      held more after) :
    Withdraws before last callers own below held (popped ++ more) after := by
  let kept := lowest own.length popped
  have most : kept ≤ own.length := lowest_le _ _
  have count : (own.drop (own.length - kept)).length = kept := by
    rw [List.length_drop]
    omega
  have fewer : lowest kept more ≤ kept := lowest_le _ _
  have parts : own.length - lowest kept more = (own.length - kept) + (kept - lowest kept more) := by
    omega
  have values := later.values
  have released := later.released
  rw [count] at values released
  refine ⟨later.frames, ?_, ?_, later.error.trans earlier.error, later.within⟩
  · rw [lowest_append, parts, ← List.drop_drop]
    exact values
  · -- What is given back in two parts is given back as a whole.
    have first : drain (own.take (own.length - kept)) before.store = .ok () middle.store :=
      earlier.released
    rw [lowest_append, parts, List.take_add, StoreM.releaseAll, drain_append, first]
    exact released

/-- Leaving a block takes the values above its level. -/
theorem leaveBlock_withdraws (within : machine.Within activation callers below held)
    (items : machine.values.items = own ++ below) (block : Block) (rest : List Block) :
    ∃ after, leaveBlock block rest machine = .ok () after ∧
      Withdraws machine { activation with blocks := rest } callers own below held [block]
        after := by
  have surplus : own.length - lowest own.length [block] = own.length - block.level := by
    simp only [lowest, List.foldl_cons, List.foldl_nil]
    omega
  have owing : (roots ++ ((held ++ (machine.values.items ++ machine.errorRefs)) ++
      machine.internals)).Perm (own.take (own.length - block.level) ++
        (roots ++ ((held ++ ((own.drop (own.length - block.level) ++ below) ++
          machine.errorRefs)) ++ machine.internals))) := by
    rw [items]
    nth_rewrite 1 [← List.take_append_drop (own.length - block.level) own]
    rw [List.perm_iff_count]
    intro ref
    simp only [List.count_append]
    omega
  obtain ⟨store, released, -, -⟩ :=
    drain_exact _ machine.store (within.ready.sound.exact.perm owing)
  have retreats : FrameM.update (fun activation => { activation with blocks := rest })
      ⟨machine.store, machine.values, activation⟩ = .ok () ⟨machine.store, machine.values, _⟩ := rfl
  obtain ⟨frames, framed, updated⟩ := onFrame_eq within.frames retreats
  let told : Machine τ :=
    { machine with frames, tracer := machine.tracer.observe fun _ => .popped rest.length }
  have toldFrames : told.frames.items = { activation with blocks := rest } :: callers := framed
  have drains : FrameM.drainTo block.level
      ⟨machine.store, machine.values, { activation with blocks := rest }⟩ = _ :=
    (FrameM.drainTo_eq ⟨items, within.base⟩ block.level).trans (FrameM.onStore_eq released)
  obtain ⟨others, drainedFrames, drained⟩ := onFrame_eq toldFrames drains
  have left : leaveBlock block rest machine = .ok () { told with
      store, values := machine.values.drop (own.length - block.level), frames := others } := by
    rw [leaveBlock, StoreM.bind_ok updated, StoreM.bind_ok (tell_eq _)]
    exact drained
  obtain ⟨after, leaves, -, new, -, inside⟩ := leaveBlock_ok within block rest
  obtain rfl := EStateM.Result.ok.inj (leaves.symm.trans left) |>.2
  have isNew : { activation with blocks := rest } = new := by
    have both := drainedFrames.symm.trans inside.frames
    exact (List.cons.inj both).1
  refine ⟨_, left, drainedFrames, ?_, ?_, rfl, isNew ▸ inside⟩
  · rw [surplus, Stack.items_drop, items, List.drop_append_of_le_length (Nat.sub_le _ _)]
  · rw [surplus]
    exact released

/-- Going on elsewhere or in other blocks leaves the values alone. -/
theorem Withdraws.update (withdraws : Withdraws before current callers own below held popped middle)
    (change : Activation → Activation) (same : (change current).Same current) :
    ∃ after, onFrame (FrameM.update change) middle = .ok () after ∧
      Withdraws before (change current) callers own below held popped after := by
  have changes : FrameM.update change ⟨middle.store, middle.values, current⟩ =
      .ok () ⟨middle.store, middle.values, change current⟩ := rfl
  obtain ⟨frames, framed, changed⟩ := onFrame_eq withdraws.frames changes
  obtain ⟨after, updated, -, new, -, inside⟩ := onFrame_update change withdraws.within same
  obtain rfl := EStateM.Result.ok.inj (updated.symm.trans changed) |>.2
  have isNew : change current = new := (List.cons.inj (framed.symm.trans inside.frames)).1
  exact ⟨_, changed, framed, withdraws.values, withdraws.released, withdraws.error, isNew ▸ inside⟩

theorem Withdraws.jump (withdraws : Withdraws before current callers own below held popped middle)
    (offset : Nat) : ∃ after, onFrame (FrameM.jumpTo offset) middle = .ok () after ∧
      Withdraws before { current with offset } callers own below held popped after :=
  withdraws.update (fun activation => { activation with offset })
    ⟨rfl, rfl, rfl, rfl, rfl, rfl, rfl, rfl, rfl⟩

/-- A break leaves the blocks inside the innermost loop. -/
theorem unwindBlocks_passes (inner : List Block) {rest : List Block}
    (within : machine.Within activation callers below held)
    (items : machine.values.items = own ++ below) (blocks : activation.blocks = inner ++ rest)
    (others : ∀ block ∈ inner, block.kind ≠ .loop) :
    ∃ after, unwindBlocks .breaking (inner ++ rest) machine = unwindBlocks .breaking rest after ∧
      Withdraws machine { activation with blocks := rest } callers own below held inner after := by
  induction inner generalizing machine activation own with
  | nil =>
      obtain rfl : activation.blocks = rest := blocks
      exact ⟨machine, rfl, .refl within items⟩
  | cons block inner ih =>
      obtain ⟨first, left, withdraws⟩ := leaveBlock_withdraws within items block (inner ++ rest)
      obtain ⟨after, unwound, later⟩ := ih withdraws.within withdraws.values rfl
        fun other member => others other (List.mem_cons_of_mem _ member)
      have notLoop : ¬ (block.kind = .loop ∧ Unwinding.breaking = .breaking) :=
        fun isLoop => others block List.mem_cons_self isLoop.1
      refine ⟨after, ?_, withdraws.trans later⟩
      rw [List.cons_append, unwindBlocks, StoreM.bind_ok left, if_neg notLoop, unwound]

theorem Withdraws.tell (withdraws : Withdraws before current callers own below held popped middle)
    (event : Stack Activation → Event) : ∃ after, tell event middle = .ok () after ∧
      Withdraws before current callers own below held popped after :=
  ⟨_, tell_eq event, withdraws.frames, withdraws.values, withdraws.released, withdraws.error,
    withdraws.within.withTracer _⟩

/-! ## The break itself -/

variable {operand next : Nat}

theorem within_ticked (within : machine.Within activation callers below held) :
    machine.ticked.Within activation callers below held :=
  ⟨⟨within.ready.sound.withTracker _, fun other member =>
      have placed := within.ready.placed other member
      ⟨placed.frame, placed.code⟩,
    within.ready.headed, within.ready.stacked⟩, within.frames, within.values, within.base⟩

/-- The instruction itself changes nothing but the offset. -/
theorem step_breakLoop {run : MachineM τ Ref}
    (within : machine.Within activation callers below held)
    (items : machine.values.items = own ++ below)
    (granted : (Tracker.tick machine.store.tracker).1 = none)
    (here : Fetched.read activation.bytecode activation.offset =
      .instruction .breakLoop operand next) :
    ∃ after, step run machine = .ok .breaking after ∧
      Withdraws machine.ticked { activation with offset := next } callers own below held []
        after := by
  have start : machine.ticked.Within activation callers below held := within_ticked within
  obtain ⟨jumped, jump, moved⟩ := (Withdraws.refl start items).jump next
  obtain ⟨after, told, withdraws⟩ := moved.tell fun frames =>
    .instruction activation.offset .breakLoop
      (own.drop (own.length - lowest own.length [])).length frames.height
  have measured := onFrame_depth moved.frames moved.values moved.within.base
  refine ⟨after, ?_, withdraws⟩
  rw [step, StoreM.bind_ok (onStore_tick granted)]
  rw [StoreM.bind_ok (fetch_eq start.frames), here]
  simp only
  rw [StoreM.bind_ok jump, StoreM.bind_ok measured, StoreM.bind_ok told]
  rfl

/-- The straight path is left without an error. -/
theorem unwind_breaking (withdraws : Withdraws before current callers own below held popped middle)
    (quiet : before.error = none) :
    ∃ after, unwind .breaking middle = unwindBlocks .breaking current.blocks after ∧
      Withdraws before current callers own below held popped after := by
  obtain ⟨after, told, goesOn⟩ := withdraws.tell fun frames => .unwound .breaking frames.height
  have silent : middle.error = none := withdraws.error.trans quiet
  refine ⟨after, ?_, goesOn⟩
  rw [unwind_eq middle (by simp [silent]), StoreM.bind_ok told, if_neg (by decide)]
  show (onFrame (FrameM.asks (·.blocks)) >>= fun blocks => unwindBlocks .breaking blocks :
    MachineM τ Bool) after = _
  rw [StoreM.bind_ok (onFrame_asks goesOn.frames)]

/-- Where a frame goes on that breaks out of a loop, which is inside the blocks `outer`: it has left
that loop and the blocks inside it. -/
theorem unwind_loop {inner outer : List Block} {loop : Block}
    (withdraws : Withdraws before current callers own below held [] middle)
    (quiet : before.error = none) (blocks : current.blocks = inner ++ loop :: outer)
    (others : ∀ block ∈ inner, block.kind ≠ .loop) (isLoop : loop.kind = .loop) :
    ∃ after, unwind .breaking middle = .ok true after ∧
      Withdraws before { current with offset := loop.handler, blocks := outer } callers own below
        held (inner ++ [loop]) after := by
  obtain ⟨first, starts, told⟩ := unwind_breaking withdraws quiet
  obtain ⟨second, passed, reached⟩ :=
    unwindBlocks_passes inner told.within told.values blocks others
  obtain ⟨third, left, outside⟩ := leaveBlock_withdraws reached.within reached.values loop outer
  have whole := told.trans (reached.trans outside)
  obtain ⟨after, jumped, resumed⟩ := whole.jump loop.handler
  refine ⟨after, ?_, resumed⟩
  rw [starts, blocks, passed, unwindBlocks, StoreM.bind_ok left, if_pos ⟨isLoop, rfl⟩,
    StoreM.bind_ok jumped]
  rfl

/-- A break that is in no loop leaves all blocks. -/
theorem unwind_no_loop (withdraws : Withdraws before current callers own below held [] middle)
    (quiet : before.error = none) (others : ∀ block ∈ current.blocks, block.kind ≠ .loop) :
    ∃ after, unwind .breaking middle = .ok false after ∧
      Withdraws before { current with blocks := [] } callers own below held current.blocks
        after := by
  obtain ⟨first, starts, told⟩ := unwind_breaking withdraws quiet
  obtain ⟨after, passed, reached⟩ := unwindBlocks_passes current.blocks told.within told.values
    (List.append_nil _).symm others
  refine ⟨after, ?_, told.trans reached⟩
  rw [List.append_nil] at passed
  rw [starts, passed]
  rfl

/-! ## Frames that wait -/

variable {executed : List Fetched} {histories : List (List Fetched)} {cause : Cause} {fuel : Nat}

/-- A frame whose instruction failed is left. -/
theorem runFrame_of_failed {failure : Failure}
    (within : machine.Within activation callers below held) (quiet : machine.error = none)
    (stepped : step (runFrame fuel) machine = .error (.failed failure) middle) :
    ∃ after, runFrame (fuel + 1) machine = .error (.failed .recorded) after := by
  have ends := step_ends (runFrame_runsFrames fuel) within quiet
  rw [stepped] at ends
  obtain ⟨recorded, record, isSet, ⟨new, inside⟩, -⟩ := record_ok ends
  obtain ⟨after, unwound, -⟩ := unwind_error inside isSet
  refine ⟨after, ?_⟩
  rw [runFrame, StoreM.bind_ok (attempt_failed stepped)]
  simp only
  rw [StoreM.bind_ok record, StoreM.bind_ok unwound]
  rfl

/-- An instruction that runs a frame, which is `inside` then, has entered it. -/
theorem exists_entered {pending : List Ref} {inside : Machine τ}
    (within : machine.Within activation callers below held)
    (called : ∀ run, step run machine = (finishCall pending run >>= resume) inside) :
    ∃ others middle events, machine.Passes (below ++ held) events middle ∧
      Entered middle held others inside ∧
      ∀ run, step run machine = (finishCall others run >>= resume) inside := by
  -- A frame that is never run to an end shows which machine it is run on.
  let stuck : MachineM τ Ref := throw (.fault .idle)
  have shown : (finishCall pending stuck >>= resume) inside = .error (.fault .idle) inside := rfl
  cases step_steps within with
  | direct result always ends =>
      rw [← always stuck, called, shown] at ends
      exact ends.elim
  | calls taken others middle entering always moves entered =>
      have same := (always stuck).symm.trans (called stuck)
      obtain rfl : entering = inside := (EStateM.Result.error.inj same).2
      obtain ⟨events, passes⟩ := moves.passes
      exact ⟨others, middle, events, passes, entered, always⟩

/-- Where an error arises, every frame that waits for the one it arises in is left. -/
theorem Errs.runFrame_fails (errs : Errs fuel executed machine histories cause failing)
    (within : machine.Within activation callers below held) (quiet : machine.error = none) :
    ∃ after, runFrame fuel machine = .error (.failed .recorded) after := by
  induction errs generalizing activation callers below held with
  | @next fuel executed machine middle failing _ _ _ top stepped rest ih =>
      have holds := (step_ends (runFrame_runsFrames fuel) within quiet).of_ok stepped
      obtain ⟨new, -, inside⟩ := holds.within
      obtain ⟨after, failed⟩ := ih inside holds.error
      exact ⟨after, by rw [runFrame, StoreM.bind_ok (attempt_ok stepped)]; exact failed⟩
  | @breaks fuel executed machine middle caught failing _ _ _ top stepped unwound rest ih =>
      have holds := (step_ends (runFrame_runsFrames fuel) within quiet).of_ok stepped
      obtain ⟨new, -, inside⟩ := holds.within
      obtain ⟨_, final, same, ⟨events, passes⟩, ⟨newer, -, finished⟩, -⟩ :=
        unwind_quiet inside holds.error (by simp : Unwinding.breaking ≠ .error)
      obtain ⟨-, rfl⟩ := EStateM.Result.ok.inj (same.symm.trans unwound)
      obtain ⟨after, failed⟩ := ih finished (passes.error.trans holds.error)
      refine ⟨after, ?_⟩
      rw [runFrame, StoreM.bind_ok (attempt_ok stepped)]
      simp only
      rw [StoreM.bind_ok unwound]
      exact failed
  | @inside fuel executed machine inside failing _ _ _ pending top called rest ih =>
      obtain ⟨others, middle, events, passes, entered, always⟩ := exists_entered within called
      obtain ⟨new, -, opened⟩ := entered.within
      have silent := entered.error.trans (passes.error.trans quiet)
      obtain ⟨last, ran⟩ := ih opened silent
      have ends := runFrame_runsFrames fuel opened silent
      rw [ran] at ends
      obtain ⟨newer, left⟩ := ends.within
      obtain ⟨bare, leaving, ready, -⟩ := leaveFrame_eq left
      obtain ⟨after, released, -⟩ := releaseAll_ready ready
      have finished : (leaveFrame >>= fun _ => releaseAll others : MachineM τ Unit) last =
          .ok () after := by rw [StoreM.bind_ok leaving, released]
      have stepped : step (runFrame fuel) machine = .error (.failed .recorded) after := by
        rw [always, bind_error (finishCall_failed ran finished)]
      exact runFrame_of_failed within quiet stepped
  | fails failed => exact runFrame_of_failed within quiet failed
  | @escapes fuel executed machine middle failing _ top stepped uncaught =>
      have holds := (step_ends (runFrame_runsFrames fuel) within quiet).of_ok stepped
      obtain ⟨new, -, inside⟩ := holds.within
      obtain ⟨_, final, same, -, ⟨newer, -, finished⟩, -⟩ :=
        unwind_quiet inside holds.error (by simp : Unwinding.breaking ≠ .error)
      obtain ⟨-, rfl⟩ := EStateM.Result.ok.inj (same.symm.trans uncaught)
      obtain ⟨recorded, record, records⟩ := setErrorCause_ok finished.ready .breakOutsideLoop
      obtain ⟨after, pushed, -⟩ := pushTraceback_ok (records.within finished)
      refine ⟨after, ?_⟩
      rw [runFrame, StoreM.bind_ok (attempt_ok stepped)]
      simp only
      rw [StoreM.bind_ok uncaught]
      show (setErrorCause .breakOutsideLoop >>= _ : MachineM τ Ref) _ = _
      rw [StoreM.bind_ok record, StoreM.bind_ok pushed]
      rfl

/-! ## Breaks -/

/-- A break that no loop of its frame looks after. -/
structure Escapes (fuel : Nat) (before : Machine τ) (activation : Activation) (next : Nat)
    (callers : List Activation) (own below held : List Ref) (failing after : Machine τ) : Prop where
  /-- All blocks are left first. -/
  withdraws : Withdraws before.ticked { activation with offset := next, blocks := [] } callers own
    below held activation.blocks failing
  /-- The error is set in the frame.  It has a message if there is room for it. -/
  error : ∃ value, after.error = some (ErrorKind.systemError.object, value) ∧
    Explains after.store (keptMessage? failing.store.tracker (some "break outside loop")) value
  frames : after.frames = failing.frames
  values : after.values = failing.values
  /-- This is where an error arises in the frame. -/
  arises : ∀ executed, Errs (fuel + 1) executed before [activation.fetched :: executed]
    .breakOutsideLoop failing
  /-- No frame goes on that waits for this one. -/
  waits : ∀ {more : Nat} {executed : List Fetched} {histories : List (List Fetched)}
    {outer : Machine τ} {caller : Activation} {callers : List Activation} {below held : List Ref},
    Errs more executed outer histories .breakOutsideLoop failing →
    outer.Within caller callers below held → outer.error = none →
    ∃ final, runFrame more outer = .error (.failed .recorded) final

section Executing

variable (fuel : Nat) (within : machine.Within activation callers below held)
variable (items : machine.values.items = own ++ below) (quiet : machine.error = none)
variable (granted : (Tracker.tick machine.store.tracker).1 = none)
variable (here : Fetched.read activation.bytecode activation.offset =
  .instruction .breakLoop operand next)

include within items quiet granted here

theorem runFrame_resumes {inner outer : List Block} {loop : Block}
    (blocks : activation.blocks = inner ++ loop :: outer)
    (others : ∀ block ∈ inner, block.kind ≠ .loop) (isLoop : loop.kind = .loop) :
    ∃ after, runFrame (fuel + 1) machine = runFrame fuel after ∧ after.error = none ∧
      Withdraws machine.ticked { activation with offset := loop.handler, blocks := outer }
        callers own below held (inner ++ [loop]) after := by
  obtain ⟨middle, stepped, started⟩ :
      ∃ middle, step (runFrame fuel) machine = .ok .breaking middle ∧ _ :=
    step_breakLoop within items granted here
  obtain ⟨after, unwound, withdraws⟩ := unwind_loop started quiet blocks others isLoop
  refine ⟨after, ?_, withdraws.error.trans quiet, withdraws⟩
  rw [runFrame, StoreM.bind_ok (attempt_ok stepped)]
  simp only
  rw [StoreM.bind_ok unwound]
  rfl

theorem runFrame_escapes (others : ∀ block ∈ activation.blocks, block.kind ≠ .loop) :
    ∃ failing after, runFrame (fuel + 1) machine = .error (.failed .recorded) after ∧
      Escapes fuel machine activation next callers own below held failing after := by
  obtain ⟨middle, stepped, started⟩ :
      ∃ middle, step (runFrame fuel) machine = .ok .breaking middle ∧ _ :=
    step_breakLoop within items granted here
  obtain ⟨failing, uncaught, withdraws⟩ := unwind_no_loop started quiet others
  obtain ⟨recorded, record, records⟩ := setErrorCause_ok withdraws.within.ready .breakOutsideLoop
  obtain ⟨after, pushed, -, traced⟩ := pushTraceback_ok (records.within withdraws.within)
  obtain ⟨store, value, noted, explains⟩ := records.same
  obtain ⟨final, traceback, added⟩ := traced.same
  refine ⟨failing, after, ?_, withdraws, ⟨value, ?_, ?_⟩, ?_, ?_, fun executed => ?_, ?_⟩
  · rw [runFrame, StoreM.bind_ok (attempt_ok stepped)]
    simp only
    rw [StoreM.bind_ok uncaught]
    show (setErrorCause .breakOutsideLoop >>= _ : MachineM τ Ref) _ = _
    rw [StoreM.bind_ok record, StoreM.bind_ok pushed]
    rfl
  · rw [added, noted]
    rfl
  · refine Explains.of_keeps ?_ ?_ traced.keeps
    · rw [noted]
      exact explains
    · simp [noted, fixtures, errorRefs]
  · rw [added, noted]
  · rw [added, noted]
  · exact .escapes (top_of_within within) stepped uncaught
  · exact fun errs outside quiet => errs.runFrame_fails outside quiet

/-- What becomes of a frame that is about to execute a break: where one of its blocks is a loop,
it goes on behind the innermost of these, and otherwise it is left with an error. -/
theorem runFrame_breakLoop :
    (∀ inner loop outer, activation.blocks = inner ++ loop :: outer →
      (∀ block ∈ inner, block.kind ≠ .loop) → loop.kind = .loop →
      ∃ after, runFrame (fuel + 1) machine = runFrame fuel after ∧ after.error = none ∧
        Withdraws machine.ticked { activation with offset := loop.handler, blocks := outer }
          callers own below held (inner ++ [loop]) after) ∧
    ((∀ block ∈ activation.blocks, block.kind ≠ .loop) →
      ∃ failing after, runFrame (fuel + 1) machine = .error (.failed .recorded) after ∧
        Escapes fuel machine activation next callers own below held failing after) :=
  ⟨fun _ _ _ => runFrame_resumes fuel within items quiet granted here,
    runFrame_escapes fuel within items quiet granted here⟩

end Executing

/-- A break in a block of another kind, in two loops: the value above that block goes, although
there were more when the innermost loop was set up. -/
theorem breakLoop_in_handler : ∃ (machine : Machine Unlimited) (activation : Activation),
    machine.Within activation [] [] [] ∧ machine.values.items = [⟨20⟩, ⟨19⟩] ++ [] ∧
    machine.error = none ∧ (Tracker.tick machine.store.tracker).1 = none ∧
    Fetched.read activation.bytecode activation.offset = .instruction .breakLoop 0 1 ∧
    activation.blocks = [⟨.handler, 9, 1⟩] ++ ⟨.loop, 5, 2⟩ :: [⟨.loop, 7, 0⟩] ∧
    ∃ after, runFrame 2 machine = runFrame 1 after ∧ after.error = none ∧
      Withdraws machine.ticked { activation with offset := 5, blocks := [⟨.loop, 7, 0⟩] }
        [] [⟨20⟩, ⟨19⟩] [] [] ([⟨.handler, 9, 1⟩] ++ [⟨.loop, 5, 2⟩]) after := by
  obtain ⟨opened, opens⟩ : ∃ opened, Opened #[80] Unlimited.mk Unlimited.mk opened :=
    ⟨_, ⟨_, _, rfl, rfl, rfl⟩, rfl, rfl, rfl, rfl, rfl⟩
  obtain ⟨start, within, -, code, offset, -⟩ := opens.within
  have here : Fetched.read start.bytecode start.offset = .instruction .breakLoop 0 1 := by
    rw [code, offset]
    decide
  have holding : opened.Within start [] [] ([⟨20⟩, ⟨19⟩] ++ []) := within
  -- The frame takes over what the host holds as its values.
  have ends := onFrame_ends holding fun own fits => FrameM.pushAll_runs fits
  rw [onFrame_pushAll within.frames] at ends
  obtain ⟨-, activation, -, pushed⟩ := ends
  obtain rfl : start = activation := (List.cons.inj (within.frames.symm.trans pushed.frames)).1
  have items : (opened.values.pushAll [⟨20⟩, ⟨19⟩]).items = [⟨20⟩, ⟨19⟩] ++ [] := by
    rw [Stack.items_pushAll, opens.values]
  obtain ⟨machine, -, placed⟩ := (Withdraws.refl pushed items).update
    (fun activation => { activation with
      blocks := [⟨.handler, 9, 1⟩] ++ ⟨.loop, 5, 2⟩ :: [⟨.loop, 7, 0⟩] })
    ⟨rfl, rfl, rfl, rfl, rfl, rfl, rfl, rfl, rfl⟩
  have quiet : machine.error = none := placed.error.trans opens.error
  refine ⟨machine, _, placed.within, placed.values, quiet, rfl, here, rfl, ?_⟩
  exact (runFrame_breakLoop 1 placed.within placed.values quiet rfl here).1 _ _ _ rfl
    (by simp) rfl

/-- Where no object can be made any more, the error has no message. -/
theorem breakLoop_without_message : ∃ (machine after : Machine Meter) (activation : Activation),
    machine.Within activation [] [] [⟨20⟩, ⟨19⟩] ∧ activation.blocks = [] ∧
    (Tracker.tick machine.store.tracker).1 = none ∧ machine.error = none ∧
    Fetched.read activation.bytecode activation.offset = .instruction .breakLoop 0 1 ∧
    runFrame 1 machine = .error (.failed .recorded) after ∧
    after.error = some (ErrorKind.systemError.object, .noneObject) := by
  let limits : Limits := { Limits.standard with allocations := some 3 }
  obtain ⟨opened, opens⟩ : ∃ opened, Opened #[80] (Meter.start limits ⟨0, 0⟩)
      (⟨limits, ⟨0, 0⟩, 3, 0, 313⟩ : Meter) opened :=
    ⟨_, ⟨_, _, rfl, rfl, rfl⟩, rfl, rfl, rfl, rfl, rfl⟩
  obtain ⟨activation, within, blocks, code, offset, -⟩ := opens.within
  have here : Fetched.read activation.bytecode activation.offset = .instruction .breakLoop 0 1 := by
    rw [code, offset]
    decide
  have granted : (Tracker.tick opened.store.tracker).1 = none := by
    rw [opens.tracker]
    rfl
  have nothing : opened.values.items = [] ++ [] := opens.values
  obtain ⟨failing, after, failed, escapes⟩ :=
    runFrame_escapes 0 within nothing opens.error granted here (by simp [blocks])
  obtain ⟨value, set, explains⟩ := escapes.error
  have released := escapes.withdraws.released
  rw [List.take_nil, StoreM.releaseAll, drain] at released
  have tracker : failing.store.tracker = ⟨limits, ⟨0, 0⟩, 3, 0, 313⟩ := by
    rw [← (EStateM.Result.ok.inj released).2, ticked, opens.tracker]
    rfl
  have absent : keptMessage? failing.store.tracker (some "break outside loop") = none := by
    rw [tracker]
    rfl
  rw [absent] at explains
  exact ⟨opened, after, activation, within, blocks, granted, opens.error, here, failed,
    explains ▸ set⟩

end MachineM

end StackMachine
