import StackMachine.Machine.Run
import StackMachine.Proofs.Machine.Errors

/-!
# Unwinding

Leaving the straight path through the code of a frame gives back the values in the
blocks that are left.  It runs no instruction, and it cannot fail: whatever blocks
there are, the frame is still at work when they have been left.
-/

namespace StackMachine.MachineM

open Store Outcome Machine

variable {τ : Type} [Tracker τ] {machine before middle after : Machine τ}
variable {activation : Activation} {callers : List Activation} {below held : List Ref}
variable {reason : Unwinding}

/-- What leaving blocks makes of the machine. -/
structure LeavesBlocks (before : Machine τ) (activation : Activation) (callers : List Activation)
    (below held : List Ref) (after : Machine τ) : Prop where
  passes : ∃ depths : List Nat, before.Passes (below ++ held) (depths.map Event.popped) after
  within : ∃ new, new.Same activation ∧ after.Within new callers below held

omit [Tracker τ] in
/-- A frame goes on elsewhere or in other blocks. -/
theorem onFrame_update (change : Activation → Activation)
    (within : machine.Within activation callers below held)
    (same : (change activation).Same activation) :
    ∃ after, onFrame (FrameM.update change) machine = .ok () after ∧
      machine.Passes (below ++ held) [] after ∧ ∃ new, new.Same activation ∧
        after.Within new callers below held := by
  have empty : machine.Within activation callers below ([] ++ held) := within
  exact onFrame_ok empty fun own fits => FrameM.update_ok fits same

theorem onFrame_drainTo (within : machine.Within activation callers below held) (level : Nat) :
    ∃ after, onFrame (FrameM.drainTo level) machine = .ok () after ∧
      machine.Passes (below ++ held) [] after ∧ ∃ new, new.Same activation ∧
        after.Within new callers below held := by
  have empty : machine.Within activation callers below ([] ++ held) := within
  exact onFrame_ok empty fun own fits => FrameM.drainTo_ok fits level

theorem leaveBlock_ok (within : machine.Within activation callers below held) (block : Block)
    (rest : List Block) :
    ∃ after, leaveBlock block rest machine = .ok () after ∧
      machine.Passes (below ++ held) [.popped rest.length] after ∧ ∃ new, new.Same activation ∧
        after.Within new callers below held := by
  obtain ⟨first, updated, passes, new, same, left⟩ := onFrame_update
    (fun activation => { activation with blocks := rest }) within
    ⟨rfl, rfl, rfl, rfl, rfl, rfl, rfl, rfl, rfl⟩
  have told := left.withTracer (first.tracer.observe fun _ => .popped rest.length)
  obtain ⟨second, drained, passes', newer, newerSame, left'⟩ := onFrame_drainTo told block.level
  refine ⟨second, ?_, (passes.trans (Passes.tell first _ _)).trans passes', newer,
    newerSame.trans same, left'⟩
  unfold leaveBlock
  rw [StoreM.bind_ok updated, StoreM.bind_ok (tell_eq _), drained]

omit [Tracker τ] in
theorem LeavesBlocks.cons {depth : Nat} {new : Activation}
    (passes : before.Passes (below ++ held) [.popped depth] middle) (same : new.Same activation)
    (left : LeavesBlocks middle new callers below held after) :
    LeavesBlocks before activation callers below held after := by
  obtain ⟨depths, later⟩ := left.passes
  obtain ⟨newer, newerSame, within⟩ := left.within
  exact ⟨⟨depth :: depths, passes.trans later⟩, newer, newerSame.trans same, within⟩

/-- Blocks are left, whatever they are. -/
theorem unwindBlocks_ok (blocks : List Block)
    (within : machine.Within activation callers below held) :
    ∃ result after, unwindBlocks reason blocks machine = .ok result after ∧
      LeavesBlocks machine activation callers below held after ∧
      (reason ≠ .breaking → result = false) := by
  induction blocks generalizing machine activation with
  | nil =>
      refine ⟨false, machine, rfl, ⟨⟨[], Passes.refl machine _⟩, activation, .refl _, within⟩, ?_⟩
      exact fun _ => rfl
  | cons block rest ih =>
      obtain ⟨first, left, passes, new, same, inside⟩ := leaveBlock_ok within block rest
      rw [unwindBlocks, StoreM.bind_ok left]
      split
      · rename_i consumed
        obtain ⟨after, jumped, passes', newer, newerSame, final⟩ := onFrame_update
          (fun activation => { activation with offset := block.handler }) inside
          ⟨rfl, rfl, rfl, rfl, rfl, rfl, rfl, rfl, rfl⟩
        refine ⟨true, after, ?_, ?_, fun other => absurd consumed.2 other⟩
        · exact StoreM.bind_ok jumped
        · exact ⟨⟨[rest.length], passes.trans passes'⟩, newer, newerSame.trans same, final⟩
      · obtain ⟨result, after, unwound, leaves, known⟩ := ih inside
        exact ⟨result, after, unwound, leaves.cons passes same, known⟩

/-! ## Reasons to unwind -/

theorem unwind_eq (machine : Machine τ) (agrees : reason = .error ↔ machine.error.isSome) :
    unwind reason machine = (do
      tell fun frames => .unwound reason frames.height
      if reason = .error then pushTraceback
      unwindBlocks reason (← onFrame (FrameM.asks (·.blocks))) : MachineM τ Bool) machine := by
  have read : (get : MachineM τ (Machine τ)) machine = .ok machine machine := rfl
  unfold unwind
  rw [StoreM.bind_ok read]
  by_cases isError : reason = .error
  · have isSet := agrees.mp isError
    simp [isError, isSet]
  · have isClear : machine.error.isSome = false := by
      simpa using fun isSet => isError (agrees.mpr isSet)
    simp [isError, isClear]

/-- The straight path is left without an error. -/
theorem unwind_quiet (within : machine.Within activation callers below held)
    (quiet : machine.error = none) (other : reason ≠ .error) :
    ∃ result after, unwind reason machine = .ok result after ∧
      (∃ events, machine.Passes (below ++ held) events after) ∧
      (∃ new, new.Same activation ∧ after.Within new callers below held) ∧
      (reason ≠ .breaking → result = false) := by
  have told := within.withTracer
    (machine.tracer.observe fun _ => .unwound reason machine.frames.height)
  have asked : (onFrame (FrameM.asks (·.blocks)) : MachineM τ (List Block)) { machine with
      tracer := machine.tracer.observe fun _ => .unwound reason machine.frames.height } =
      .ok activation.blocks _ := onFrame_asks told.frames
  obtain ⟨result, after, unwound, leaves, known⟩ :
      ∃ result after, unwindBlocks reason activation.blocks _ = .ok result after ∧ _ :=
    unwindBlocks_ok activation.blocks told
  obtain ⟨depths, passes⟩ := leaves.passes
  refine ⟨result, after, ?_, ⟨_, (Passes.tell machine _ _).trans passes⟩, leaves.within, known⟩
  rw [unwind_eq machine (by simp [other, quiet]), StoreM.bind_ok (tell_eq _), if_neg other]
  show (onFrame (FrameM.asks (·.blocks)) >>= fun blocks => unwindBlocks reason blocks :
    MachineM τ Bool) _ = _
  rw [StoreM.bind_ok asked, unwound]

/-- What leaving a frame for an error makes of the machine: there is an entry for the frame
in the traceback, if there was room for it. -/
structure Abandons (before : Machine τ) (activation : Activation) (callers : List Activation)
    (below held : List Ref) (after : Machine τ) : Prop where
  within : ∃ new, new.Same activation ∧ after.Within new callers below held
  error : after.error = before.error
  retains : Keeps ((below ++ held) ++ before.fixtures) before.store after.store
  upholds : before.Upholds (below ++ held) after
  entry : (∃ entry, after.traceback = some entry ∧ after.store.payload? entry =
      some (.traceback before.traceback activation.frame activation.line)) ∨
    (after.traceback = before.traceback ∧ ¬ StoreM.Grants τ)
  tracer : ∃ depths : List Nat, after.tracer = before.tracer.observeAll
    (.unwound .error (callers.length + 1) :: depths.map Event.popped)

omit [Tracker τ] in
/-- What the machine holds itself stays. -/
theorem Abandons.keeps [Tracker τ]
    (abandons : Abandons before activation callers below held after) :
    Keeps before.fixtures before.store after.store :=
  abandons.retains.mono (List.subset_append_right _ _)

/-- The straight path is left for an error. -/
theorem unwind_error (within : machine.Within activation callers below held)
    (isSet : machine.error.isSome) :
    ∃ after, unwind .error machine = .ok false after ∧
      Abandons machine activation callers below held after := by
  have height : machine.frames.height = callers.length + 1 := by
    rw [machine.frames.height_eq, within.frames, List.length_cons]
  have told := within.withTracer
    (machine.tracer.observe fun _ => .unwound .error machine.frames.height)
  obtain ⟨middle, pushed, inside, traced⟩ := pushTraceback_ok told
  have asked : (onFrame (FrameM.asks (·.blocks)) : MachineM τ (List Block)) middle =
      .ok activation.blocks middle := onFrame_asks inside.frames
  obtain ⟨result, after, unwound, leaves, known⟩ :
      ∃ result after, unwindBlocks .error activation.blocks middle = .ok result after ∧ _ :=
    unwindBlocks_ok activation.blocks inside
  obtain rfl : result = false := known Unwinding.noConfusion
  obtain ⟨depths, passes⟩ := leaves.passes
  refine ⟨after, ?_, leaves.within, passes.error.trans traced.error_eq, ?_,
    (Passes.tell machine _ _).upholds.trans (traced.upholds.trans passes.upholds), ?_, depths, ?_⟩
  · rw [unwind_eq machine (by simp [isSet]), StoreM.bind_ok (tell_eq _), if_pos rfl,
      StoreM.bind_ok pushed]
    show (onFrame (FrameM.asks (·.blocks)) >>= fun blocks => unwindBlocks .error blocks :
      MachineM τ Bool) middle = _
    rw [StoreM.bind_ok asked, unwound]
  · refine traced.retains.trans (passes.retains.of_anchored fun ref member => ?_)
    rcases List.mem_append.mp member with other | fixture
    · exact .held (List.mem_append_left _ other)
    · exact (traced.anchored fixture).mono (List.subset_append_right _ _)
  · rcases traced.entry with ⟨entry, present, found⟩ | ⟨same, limited⟩
    · refine Or.inl ⟨entry, passes.traceback.trans present, ?_⟩
      exact passes.keeps.fixed (.held (mem_fixtures_of_mem_traceback present)) found rfl
    · exact Or.inr ⟨passes.traceback.trans same, limited⟩
  · rw [passes.tracer, traced.tracer_eq, ← height]
    rfl

end StackMachine.MachineM
