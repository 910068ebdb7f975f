import StackMachine.Proofs.Evolution.Running
import StackMachine.Proofs.Machine.Causes

/-!
# What runs of code tell of their frames

Whatever the machine does, the events that it tells lead from the outline that it had to the
one that it has.  A frame that is entered is told of as soon as it is active, and a block as
soon as the frame is in it; blocks and frames that are left, as soon as they are gone.

A frame is left only when it is in no block: the straight path through its code ends with a
return, a break or an error, and each of them leaves all blocks first.
-/

namespace StackMachine

open Outcome Machine Course

variable {τ α : Type} [Tracker τ]

namespace Machine

/-- Everything a machine does, and what it tells of its frames. -/
def bracketed (τ : Type) : Course (Machine τ) where
  goes before events after := before.outline.follow? events = some after.outline
  halts before events _ := ∃ outline, before.outline.follow? events = some outline
  refl _ := rfl
  trans := Outline.follow?_trans
  halts_after earlier := fun ⟨outline, later⟩ => ⟨outline, Outline.follow?_trans earlier later⟩

instance : Ample (bracketed τ) where
  goes := Calm.outline
  halts _ := ⟨_, rfl⟩

/-- The innermost frame is in no block. -/
def Unblocked (machine : Machine τ) : Prop :=
  ∀ frame ∈ machine.outline.head?, frame.blocks = 0

omit [Tracker τ] in
theorem Unblocked.of_frames {before after : Machine τ} (unblocked : before.Unblocked)
    (frames : after.frames = before.frames) : after.Unblocked := by
  rwa [Unblocked, outline, frames]

end Machine

namespace MachineM

variable {machine before after : Machine τ} {callers : Outline}

/-! ## Entering and leaving frames -/

theorem onStore_bracketed (act : StoreM τ α) : (bracketed τ).Follows (onStore act) :=
  fun _ => onStore_leads (fun _ _ _ => rfl) fun _ _ _ => rfl

theorem enterFrame_bracketed (code globals locals : Ref) :
    (bracketed τ).Follows (enterFrame code globals locals : MachineM τ Unit) := by
  intro before
  cases result : openAbove before code globals locals before.store with
  | error stop store =>
      have ran (tracer : Tracer) : enterFrame code globals locals (Traced.retrace tracer before) =
          .error stop.raised (Traced.retrace tracer { before with store }) :=
        enterFrame_error result
      refine ⟨[], fun tracer => ?_, ?_⟩
      · rw [ran, enterFrame_error result]
        rfl
      · rw [enterFrame_error result]
        cases stop with
        | failed cause => rfl
        | fault broken => trivial
        | unfinished => exact ⟨_, rfl⟩
  | ok activation store =>
      let told : Event := .entered activation.file (before.frames.height + 1)
      have ran (tracer : Tracer) : enterFrame code globals locals (Traced.retrace tracer before) =
          .ok () (Traced.retrace (tracer.observe fun _ => told)
            { before with store, frames := before.frames.push activation }) := by
        have opened : openAbove (Traced.retrace tracer before) code globals locals
            before.store = .ok activation store := result
        exact enterFrame_ok opened
      refine ⟨[told], fun tracer => ?_, ?_⟩
      · rw [ran, enterFrame_ok result]
        rfl
      · rw [enterFrame_ok result]
        exact follow?_entered result

/-- What is left in a frame is given back without a word. -/
theorem giveBack_steady (base : Nat) (frame : Ref) : (steady τ).Follows
    (splitOff base >>= fun leftovers => releaseAll (leftovers ++ [frame]) : MachineM τ Unit) :=
  (splitOff_follows base).bind fun _ => releaseAll_follows _

theorem leaveFrame_bracketed (unblocked : before.Unblocked) :
    (bracketed τ).FollowsAt (leaveFrame : MachineM τ Unit) before := by
  obtain ⟨store, values, ⟨items, height, height_eq⟩, error, traceback, tracer⟩ := before
  cases items with
  | nil => exact ⟨[], fun _ => rfl, trivial⟩
  | cons activation callers =>
      let rest : Stack Activation := Stack.drop ⟨activation :: callers, height, height_eq⟩ 1
      let bare : Machine τ := ⟨store, values, rest, error, traceback, tracer⟩
      let told : Event := .left rest.height
      have given : NeverFails (splitOff activation.base >>= fun leftovers =>
          releaseAll (leftovers ++ [activation.frame]) : MachineM τ Unit) :=
        .bind (neverFails_splitOff _) fun leftovers => neverFails_releaseAll _
      have split (tracer : Tracer) : leaveFrame
          ⟨store, values, ⟨activation :: callers, height, height_eq⟩, error, traceback, tracer⟩ =
            ((splitOff activation.base >>= fun leftovers =>
              releaseAll (leftovers ++ [activation.frame])) >>= fun _ =>
                tell fun frames => .left frames.height) (Traced.retrace tracer bare) := by
        rw [bind_assoc]
        rfl
      obtain ⟨events, same, led⟩ := giveBack_steady activation.base activation.frame bare
      cases ran : (splitOff activation.base >>= fun leftovers =>
          releaseAll (leftovers ++ [activation.frame]) : MachineM τ Unit) bare with
      | ok value after =>
          rw [ran] at same led
          obtain ⟨rfl, frames⟩ := led
          have left (tracer : Tracer) : leaveFrame
              ⟨store, values, ⟨activation :: callers, height, height_eq⟩, error,
                traceback, tracer⟩ =
                .ok () (Traced.retrace (tracer.observe fun _ => told) after) := by
            rw [split, StoreM.bind_ok (same tracer), tell_eq]
            show EStateM.Result.ok () (Traced.retrace (tracer.observe fun _ =>
              .left after.frames.height) after) = _
            rw [frames]
          refine ⟨[told], fun tracer => ?_, ?_⟩
          · exact (left tracer).trans (by rw [left]; rfl)
          · rw [left]
            have none : activation.opened = ⟨activation.file, 0⟩ :=
              congrArg (OpenFrame.mk activation.file) (unblocked activation.opened rfl)
            show Outline.follow? (activation.opened :: callers.map Activation.opened) [told] =
              some (after.frames.items.map Activation.opened)
            rw [none, frames, Outline.follow?_singleton]
            exact Outline.next?_left _ _ (by rw [Stack.height_eq, List.length_map]; rfl)
      | error stop after =>
          rw [ran] at same led
          have stopped (tracer : Tracer) : leaveFrame
              ⟨store, values, ⟨activation :: callers, height, height_eq⟩, error,
                traceback, tracer⟩ =
                .error stop (Traced.retrace (tracer.observeAll events) after) := by
            rw [split, bind_error (same tracer)]
          refine ⟨events, fun tracer => (stopped tracer).trans (by rw [stopped]; rfl), ?_⟩
          rw [stopped]
          cases stop with
          | failed failure => exact absurd ran (given bare failure after)
          | fault broken => trivial
          | unfinished => exact ⟨_, by rw [show events = [] from led]; rfl⟩

/-! ## Leaving blocks -/

theorem outline_onFrame {act : FrameM τ α} {value : α} (evolves : FrameM.Evolves act)
    (ran : onFrame act before = .ok value after) : after.outline = before.outline := by
  obtain ⟨store, values, ⟨items, height, height_eq⟩, error, traceback, tracer⟩ := before
  cases items with
  | nil => cases ran
  | cons activation callers =>
      unfold onFrame at ran
      simp only at ran
      cases acted : act ⟨store, values, activation⟩ with
      | error stop state =>
          rw [acted] at ran
          cases ran
      | ok result state =>
          rw [acted] at ran
          cases ran
          exact congrArg (· :: callers.map Activation.opened) (evolves.of_ok acted).opened

/-- Leave the innermost block, inside `rest`, and tell of it. -/
def shutBlock (rest : List Block) : MachineM τ Unit := do
  onFrame (FrameM.update fun activation => { activation with blocks := rest })
  tell fun _ => .popped rest.length

omit [Tracker τ] in
theorem shutBlock_ok {file : String} {rest : List Block}
    (top : before.outline = ⟨file, rest.length + 1⟩ :: callers) :
    ∃ after : Machine τ, after.outline = ⟨file, rest.length⟩ :: callers ∧
      ∀ tracer, shutBlock rest (Traced.retrace tracer before) =
        .ok () (Traced.retrace (tracer.observe fun _ => .popped rest.length) after) := by
  obtain ⟨store, values, ⟨items, height, height_eq⟩, error, traceback, tracer⟩ := before
  cases items with
  | nil => cases top
  | cons activation others =>
      obtain ⟨same, rfl⟩ := List.cons.inj top
      let frames : Stack Activation :=
        ⟨{ activation with blocks := rest } :: others, height, height_eq⟩
      refine ⟨⟨store, values, frames, error, traceback, tracer⟩, ?_, fun tracer => rfl⟩
      exact congrArg (fun file => (⟨file, rest.length⟩ :: others.map Activation.opened : Outline))
        (congrArg OpenFrame.file same)

theorem leaveBlock_eq (block : Block) (rest : List Block) :
    (leaveBlock block rest : MachineM τ Unit) =
      shutBlock rest >>= fun _ => onFrame (FrameM.drainTo block.level) := by
  simp only [leaveBlock, shutBlock, bind_assoc]

theorem leaveBlock_bracketed {file : String} (block : Block) (rest : List Block)
    (top : before.outline = ⟨file, rest.length + 1⟩ :: callers) :
    (bracketed τ).FollowsAt (leaveBlock block rest : MachineM τ Unit) before := by
  rw [leaveBlock_eq]
  refine FollowsAt.bind ?_ fun _ middle _ => onFrame_follows (FrameM.drainTo_evolves _) middle
  obtain ⟨middle, outline, shut⟩ := shutBlock_ok top
  have atOnce : shutBlock rest before = _ := shut before.tracer
  refine ⟨[.popped rest.length], fun tracer => (shut tracer).trans (by rw [atOnce]; rfl), ?_⟩
  rw [atOnce]
  show before.outline.follow? _ = some middle.outline
  rw [top, outline, Outline.follow?_singleton, Outline.next?_popped]

theorem outline_leaveBlock {file : String} {block : Block} {rest : List Block}
    (top : before.outline = ⟨file, rest.length + 1⟩ :: callers)
    (ran : leaveBlock block rest before = .ok () after) :
    after.outline = ⟨file, rest.length⟩ :: callers := by
  rw [leaveBlock_eq] at ran
  obtain ⟨_, middle, shut, drained⟩ := bind_eq_ok ran
  obtain ⟨known, outline, shuts⟩ := shutBlock_ok top
  have same : middle.outline = known.outline := by
    cases shut.symm.trans (shuts before.tracer)
    rfl
  rw [outline_onFrame (FrameM.drainTo_evolves _) drained, same, outline]

/-- Leaving blocks ends at a loop, if that is what a break looks for, or there is no block left. -/
theorem unwindBlocks_bracketed {file : String} (reason : Unwinding) (blocks : List Block)
    (top : before.outline = ⟨file, blocks.length⟩ :: callers) :
    (bracketed τ).FollowsAt (unwindBlocks reason blocks : MachineM τ Bool) before := by
  induction blocks generalizing before with
  | nil => exact Follows.pure false before
  | cons block rest ih =>
      refine (leaveBlock_bracketed block rest top).bind fun _ middle ran => ?_
      split
      case isTrue =>
          exact ((onFrame_follows (FrameM.jumpTo_evolves _)).bind fun _ => .pure true) middle
      case isFalse => exact ih (outline_leaveBlock top ran)

theorem unwindBlocks_unblocks {file : String} {reason : Unwinding} {found : Bool}
    {blocks : List Block} (top : before.outline = ⟨file, blocks.length⟩ :: callers)
    (ran : unwindBlocks reason blocks before = .ok found after) :
    (reason = .breaking ∧ found = true) ∨ after.Unblocked := by
  induction blocks generalizing before with
  | nil =>
      cases ran
      refine .inr fun frame first => ?_
      rw [top] at first
      cases first
      rfl
  | cons block rest ih =>
      obtain ⟨_, middle, left, ran⟩ := bind_eq_ok ran
      split at ran
      case isTrue caught =>
          obtain ⟨_, _, -, ended⟩ := bind_eq_ok ran
          cases ended
          exact .inl ⟨caught.2, rfl⟩
      case isFalse => exact ih (outline_leaveBlock top left) ran

omit [Tracker τ] in
theorem outline_of_asks {blocks : List Block}
    (ran : onFrame (FrameM.asks (·.blocks)) before = .ok blocks after) :
    after = before ∧ ∃ file callers, before.outline = ⟨file, blocks.length⟩ :: callers := by
  obtain ⟨store, values, ⟨items, height, height_eq⟩, error, traceback, tracer⟩ := before
  cases items with
  | nil => cases ran
  | cons activation others =>
      cases ran
      exact ⟨rfl, activation.file, _, rfl⟩

/-- Leave all blocks, or those up to a loop. -/
def leaveBlocks (reason : Unwinding) : MachineM τ Bool := do
  unwindBlocks reason (← onFrame (FrameM.asks (·.blocks)))

theorem leaveBlocks_bracketed (reason : Unwinding) :
    (bracketed τ).Follows (leaveBlocks reason : MachineM τ Bool) := by
  refine fun before => FollowsAt.bind (asks_follows _ before) fun blocks middle ran => ?_
  obtain ⟨rfl, file, callers, top⟩ := outline_of_asks ran
  exact unwindBlocks_bracketed reason blocks top

theorem leaveBlocks_unblocks {reason : Unwinding} {found : Bool}
    (ran : leaveBlocks reason before = .ok found after) :
    (reason = .breaking ∧ found = true) ∨ after.Unblocked := by
  obtain ⟨blocks, middle, asked, left⟩ := bind_eq_ok ran
  obtain ⟨same, file, callers, top⟩ := outline_of_asks asked
  exact unwindBlocks_unblocks (same ▸ top) left

/-- Tell that the straight path is left, and leave it. -/
def leavePath (reason : Unwinding) : MachineM τ Bool := do
  tell fun frames => .unwound reason frames.height
  if reason = .error then pushTraceback
  leaveBlocks reason

theorem pushTraceback_bracketed : (bracketed τ).Follows (pushTraceback : MachineM τ Unit) :=
  pushTraceback_follows fun _ _ _ => onStore_bracketed _

theorem leavePath_bracketed (reason : Unwinding) :
    (bracketed τ).Follows (leavePath reason : MachineM τ Bool) := by
  rintro ⟨store, values, ⟨items, height, height_eq⟩, error, traceback, tracer⟩
  cases items with
  | nil =>
      -- There is no frame, and the promise that there is one is broken after the event.
      refine ⟨[.unwound reason height], fun tracer => ?_, ?_⟩
      · cases reason <;> rfl
      · cases reason <;> trivial
  | cons activation callers =>
      have tells : (bracketed τ).FollowsAt (tell fun frames => .unwound reason frames.height)
          ⟨store, values, ⟨activation :: callers, height, height_eq⟩, error,
            traceback, tracer⟩ := by
        refine ⟨[.unwound reason height], fun _ => rfl, ?_⟩
        show Outline.follow? (_ :: callers.map Activation.opened) _ = some (_ :: _)
        rw [Outline.follow?_singleton]
        exact Outline.next?_unwound _ _ _ (by simpa using height_eq)
      have leave := leaveBlocks_bracketed (τ := τ) reason
      refine tells.bind fun _ middle _ => Follows.ite (fun _ => ?_) (fun _ => leave) middle
      exact pushTraceback_bracketed.bind fun _ => leave

/-- It is a promise that an error is set exactly if that is the reason. -/
theorem unwind_eq_ite (reason : Unwinding) : (unwind reason : MachineM τ Bool) =
    get >>= fun machine =>
      if reason = .error ∧ !machine.error.isSome then throw (.fault .silentError)
      else if reason ≠ .error ∧ machine.error.isSome then throw (.fault .staleError)
      else leavePath reason :=
  rfl

theorem unwind_bracketed (reason : Unwinding) :
    (bracketed τ).Follows (unwind reason : MachineM τ Bool) := by
  rw [unwind_eq_ite]
  exact .get_bind (fun _ _ => rfl) fun _ => .ite (fun _ => .fault _) fun _ =>
    .ite (fun _ => .fault _) fun _ => leavePath_bracketed reason

theorem leavePath_unblocks {reason : Unwinding} {found : Bool}
    (ran : leavePath reason before = .ok found after) :
    (reason = .breaking ∧ found = true) ∨ after.Unblocked := by
  obtain ⟨_, told, -, ran⟩ := bind_eq_ok ran
  split at ran
  case isTrue =>
      obtain ⟨_, middle, -, left⟩ := bind_eq_ok ran
      exact leaveBlocks_unblocks left
  case isFalse => exact leaveBlocks_unblocks ran

/-- Where the straight path was left and no loop goes on, the frame is in no block. -/
theorem unwind_unblocks {reason : Unwinding} {found : Bool}
    (ran : unwind reason before = .ok found after) :
    (reason = .breaking ∧ found = true) ∨ after.Unblocked := by
  rw [unwind_eq_ite] at ran
  obtain ⟨_, middle, -, ran⟩ := bind_eq_ok ran
  split at ran
  case isTrue => cases ran
  case isFalse =>
      split at ran
      case isTrue => cases ran
      case isFalse => exact leavePath_unblocks ran

/-! ## Running frames -/

theorem onStore_steady (act : StoreM τ α) : (steady τ).Follows (onStore act) :=
  fun _ => onStore_leads (fun _ _ _ => ⟨rfl, rfl⟩) fun _ _ _ => ⟨rfl, rfl⟩

/-- Neither setting an error nor adding to its traceback does anything to the frames. -/
theorem fail_steady (cause : Cause) : (steady τ).Follows (do
    setErrorCause cause
    pushTraceback
    throw (.failed .recorded) : MachineM τ Ref) :=
  (setErrorCause_follows cause).bind fun _ =>
    (pushTraceback_follows fun _ _ _ => onStore_steady _).bind fun _ => .throw _

/-- A frame that has run is in no block. -/
theorem runFrame_unblocks (fuel : Nat) (machine : Machine τ) :
    Lands Unblocked (runFrame fuel machine) := by
  induction fuel generalizing machine with
  | zero => trivial
  | succ fuel ih =>
      refine .of_never (neverFails_attempt _) fun result middle _ => ?_
      match result with
      | .ok .next => exact ih middle
      | .ok (.returning value) =>
          refine .of_never (neverFails_unwind .returning) fun found final left => ?_
          exact (unwind_unblocks left).resolve_left (by simp)
      | .ok .breaking =>
          refine .of_never (neverFails_unwind .breaking) fun found final left => ?_
          cases found with
          | true => exact ih final
          | false =>
              have unblocked := (unwind_unblocks left).resolve_left (by simp)
              exact (fail_steady .breakOutsideLoop).lands fun _ _ led => unblocked.of_frames led.2
      | .error failure =>
          refine .of_never (neverFails_record failure) fun _ recorded _ => ?_
          refine .of_never (neverFails_unwind .error) fun found final left => ?_
          exact (unwind_unblocks left).resolve_left (by simp)

theorem evaluateCode_bracketed {run : MachineM τ Ref} (runs : (bracketed τ).Follows run)
    (unblocks : ∀ machine, Lands Unblocked (run machine)) : Evaluates (bracketed τ) run := by
  intro code globals locals argument before
  refine FollowsAt.bind ((enterFrame_bracketed code globals locals).attempt before)
    fun entered middle _ => ?_
  cases entered with
  | error failure =>
      exact ((releaseAll_follows argument.toList).bind fun _ => .throw failure) middle
  | ok _ =>
      refine FollowsAt.bind (onFrame_follows (FrameM.pushAll_evolves _) middle) fun _ inside _ => ?_
      refine FollowsAt.bind (runs.attempt inside) fun result last ran => ?_
      have unblocked : last.Unblocked := (unblocks inside).attempt.of_ok ran
      exact (leaveFrame_bracketed unblocked).bind fun _ final _ => Follows.settle result final

theorem runFrame_bracketed (fuel : Nat) :
    (bracketed τ).Follows (runFrame fuel : MachineM τ Ref) :=
  runFrame_follows unwind_bracketed pushTraceback_bracketed
    (fun fuel runs => evaluateCode_bracketed runs (runFrame_unblocks fuel)) fuel

/-- Code that is run tells of its frames. -/
theorem evaluates_bracketed (fuel : Nat) : Evaluates (bracketed τ) (runFrame fuel) :=
  evaluateCode_bracketed (runFrame_bracketed fuel) (runFrame_unblocks fuel)

end MachineM

end StackMachine
