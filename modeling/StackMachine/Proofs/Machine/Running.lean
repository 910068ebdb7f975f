import StackMachine.Proofs.Machine.Steps
import StackMachine.Proofs.Machine.Unwinding

/-!
# Running frames

A frame that is run until it returns or fails leaves the frames of its callers and
their values as they were.  Where it returns no error is set, and where it fails one
has been recorded.  By induction on the number of steps this holds of frames that
call others, and so it holds of every call.
-/

namespace StackMachine.MachineM

open Store Outcome Machine

variable {τ : Type} {machine middle inside : Machine τ} {activation : Activation}
variable {callers : List Activation} {below held pending : List Ref}

/-- A frame returned. -/
structure FrameReturned (before : Machine τ) (callers : List Activation) (below held : List Ref)
    (value : Ref) (after : Machine τ) : Prop where
  within : ∃ new, after.Within new callers below (value :: held)
  error : after.error = none
  traceback : after.traceback = before.traceback
  upholds : before.Upholds (below ++ held) after

/-- A frame failed, and its error was recorded. -/
structure FrameFailed (before : Machine τ) (callers : List Activation) (below held : List Ref)
    (failure : Failure) (after : Machine τ) : Prop where
  within : ∃ new, after.Within new callers below held
  error : after.error.isSome
  recorded : failure = .recorded
  upholds : before.Upholds (below ++ held) after

/-- A call returned. -/
structure CallReturned (before : Machine τ) (held : List Ref) (value : Ref) (after : Machine τ) :
    Prop where
  ready : after.Ready (value :: held)
  frames : after.frames.items = before.frames.items
  values : after.values.items = before.values.items
  error : after.error = none
  traceback : after.traceback = before.traceback
  upholds : before.Upholds (before.values.items ++ held) after

/-- A call failed.  The error may still be to be recorded. -/
structure CallFailed (before : Machine τ) (held : List Ref) (failure : Failure)
    (after : Machine τ) : Prop where
  ready : after.Ready held
  frames : after.frames.items = before.frames.items
  values : after.values.items = before.values.items
  error : failure = .recorded ↔ after.error.isSome
  upholds : before.Upholds (before.values.items ++ held) after

variable [Tracker τ]

theorem Records.within {kind : ErrorKind} {message? : Option String} {after : Machine τ}
    (records : Records machine held kind message? after)
    (within : machine.Within activation callers below held) :
    after.Within activation callers below held := by
  have ready := records.ready
  obtain ⟨store, value, rfl, -⟩ := records.same
  exact ⟨ready, within.frames, within.values, within.base⟩

theorem Records.isSome {kind : ErrorKind} {message? : Option String} {after : Machine τ}
    (records : Records machine held kind message? after) : after.error.isSome := by
  obtain ⟨store, value, rfl, -⟩ := records.same
  rfl

omit [Tracker τ] in
/-- What is held for the time of a call and after it stays, while the frame of the call runs,
while it is left, and while what was held meanwhile is given back. -/
theorem finishCall_upholds {ran bare after : Machine τ} {more extra : List Ref}
    (entered : Entered middle held pending inside)
    (runs : inside.Upholds (middle.values.items ++ (pending ++ held)) ran)
    (left : Keeps ((middle.values.items ++ more) ++ bare.fixtures) ran.store bare.store)
    (frames : bare.frames.items = middle.frames.items)
    (values : bare.values.items = middle.values.items) (fewer : held ⊆ more)
    (stays : bare.Stays extra [] after) (rest : held ⊆ extra) :
    middle.Upholds (middle.values.items ++ held) after := by
  have same : bare.frameRefs = middle.frameRefs := by rw [frameRefs, frameRefs, frames]
  refine ⟨(stays.passes.frames.trans same) ▸ List.Subset.refl _, (entered.upholds.keeps.trans
    (runs.keeps.mono ?_)).trans ((left.mono ?_).trans (stays.passes.upholds.keeps.mono ?_))⟩
  · intro ref member
    simp only [List.mem_append] at member ⊢
    have more : ref ∈ middle.frameRefs → ref ∈ inside.frameRefs :=
      fun active => entered.upholds.frames active
    tauto
  · intro ref member
    simp only [fixtures, internals, frameRefs, frames, List.mem_append] at member ⊢
    have more := @fewer ref
    tauto
  · intro ref member
    simp only [same, values, List.mem_append] at member ⊢
    have more := @rest ref
    tauto

/-- A frame that has run is left, and what was held meanwhile is given back. -/
theorem finishCall_ends {run : MachineM τ Ref} (entered : Entered middle held pending inside)
    (runs : Ends (run inside)
      (FrameReturned inside middle.frames.items middle.values.items (pending ++ held))
      (FrameFailed inside middle.frames.items middle.values.items (pending ++ held))) :
    Ends (finishCall pending run inside) (CallReturned middle held) (CallFailed middle held) := by
  refine Ends.bind runs.handed fun result ran holds => ?_
  cases result with
  | ok value =>
      obtain ⟨new, within⟩ := holds.within
      obtain ⟨bare, leftFrame, ready, frames, values, error, traceback, kept, -⟩ :=
        leaveFrame_eq within
      have owing : bare.Ready (pending ++ (value :: held)) :=
        ready.perm (List.perm_append_comm_assoc [value] pending held)
      obtain ⟨after, released, stays⟩ := releaseAll_ready owing
      rw [StoreM.bind_ok leftFrame, StoreM.bind_ok released]
      have upholds := finishCall_upholds entered holds.upholds kept frames values
        (List.subset_cons_of_subset _ (List.subset_append_right _ _)) stays
        (List.subset_cons_self _ _)
      obtain ⟨store, rfl⟩ := stays.same
      exact ⟨stays.ready, frames, values, error.trans holds.error,
        traceback.trans (holds.traceback.trans entered.traceback), upholds⟩
  | error failure =>
      obtain ⟨new, within⟩ := holds.within
      obtain ⟨bare, leftFrame, ready, frames, values, error, traceback, kept, -⟩ :=
        leaveFrame_eq within
      obtain ⟨after, released, stays⟩ := releaseAll_ready ready
      rw [StoreM.bind_ok leftFrame, StoreM.bind_ok released]
      have upholds := finishCall_upholds entered holds.upholds kept frames values
        (List.subset_append_right _ _) stays (List.Subset.refl _)
      obtain ⟨store, rfl⟩ := stays.same
      refine ⟨stays.ready, frames, values, ?_, upholds⟩
      simp [holds.recorded, error, holds.error]

/-- Does the operation run frames as they have to be run? -/
def RunsFrames (run : MachineM τ Ref) : Prop :=
  ∀ {inside : Machine τ} {activation : Activation} {callers : List Activation}
    {below held : List Ref}, inside.Within activation callers below held → inside.error = none →
    Ends (run inside) (FrameReturned inside callers below held)
      (FrameFailed inside callers below held)

theorem Entered.runs {run : MachineM τ Ref} (entered : Entered middle held pending inside)
    (runs : RunsFrames run) (quiet : middle.error = none) :
    Ends (finishCall pending run inside) (CallReturned middle held) (CallFailed middle held) := by
  obtain ⟨new, -, within⟩ := entered.within
  exact finishCall_ends entered (runs within (entered.error.trans quiet))

/-- What becomes of a call. -/
theorem Calls.ends {act : MachineM τ Ref → MachineM τ Ref} {run : MachineM τ Ref}
    (calls : Calls act machine held) (runs : RunsFrames run) (quiet : machine.error = none) :
    Ends (act run machine) (CallReturned machine held) (CallFailed machine held) := by
  cases calls with
  | direct result always settles =>
      rw [always]
      refine Ends.mono settles ?_ ?_
      · intro value after stays
        have ready := stays.ready
        have upholds := stays.passes.upholds
        obtain ⟨store, rfl⟩ := stays.same
        exact ⟨ready, rfl, rfl, quiet, rfl, upholds⟩
      · rintro _ after ⟨⟨cause, rfl⟩, stays⟩
        have ready := stays.ready
        have upholds := stays.passes.upholds
        obtain ⟨store, rfl⟩ := stays.same
        exact ⟨ready, rfl, rfl, by simp [quiet], upholds⟩
  | enters pending inside always entered =>
      rw [always]
      exact entered.runs runs quiet

/-- An instruction went well, within its frame, which is on `line` then. -/
structure Stepped (before : Machine τ) (line : Nat) (callers : List Activation)
    (below held : List Ref) (flow : Flow) (after : Machine τ) : Prop where
  within : ∃ new, new.line = line ∧ after.Within new callers below (flow.refs ++ held)
  error : after.error = none
  traceback : after.traceback = before.traceback
  upholds : before.Upholds (below ++ held) after

/-- An instruction failed, within its frame. -/
structure StepFailed (before : Machine τ) (callers : List Activation) (below held : List Ref)
    (failure : Failure) (after : Machine τ) : Prop where
  within : ∃ new, after.Within new callers below held
  error : failure = .recorded ↔ after.error.isSome
  upholds : before.Upholds (below ++ held) after

omit [Tracker τ] in
theorem CallReturned.within {value : Ref} {after : Machine τ} {taken : List Ref}
    (returned : CallReturned middle held value after)
    (within : middle.Within activation callers below taken) :
    after.Within activation callers below (value :: held) :=
  ⟨returned.ready, returned.frames.trans within.frames, returned.values ▸ within.values,
    within.base⟩

omit [Tracker τ] in
theorem CallFailed.within {failure : Failure} {after : Machine τ} {taken : List Ref}
    (failed : CallFailed middle held failure after)
    (within : middle.Within activation callers below taken) :
    after.Within activation callers below held :=
  ⟨failed.ready, failed.frames.trans within.frames, failed.values ▸ within.values, within.base⟩

theorem step_ends {run : MachineM τ Ref} (runs : RunsFrames run)
    (within : machine.Within activation callers below held) (quiet : machine.error = none) :
    Ends (step run machine) (Stepped machine activation.lineAfter callers below held)
      (StepFailed machine callers below held) := by
  cases step_steps within with
  | direct result always ends =>
      rw [always]
      refine ends.mono ?_ ?_
      · intro flow after moves
        obtain ⟨events, passes⟩ := moves.passes
        obtain ⟨new, same, left⟩ := moves.within
        exact ⟨⟨new, same.line, left⟩, passes.error.trans quiet, passes.traceback,
          passes.upholds⟩
      · rintro _ after ⟨⟨cause, rfl⟩, moves⟩
        obtain ⟨events, passes⟩ := moves.passes
        obtain ⟨new, -, left⟩ := moves.within
        exact ⟨⟨new, left⟩, by simp [passes.error, quiet], passes.upholds⟩
  | calls taken pending middle inside always moves entered =>
      rw [always]
      obtain ⟨events, passes⟩ := moves.passes
      obtain ⟨new, same, left⟩ := moves.within
      have ended := entered.runs runs (passes.error.trans quiet)
      have called {after : Machine τ}
          (upholds : middle.Upholds (middle.values.items ++ held) after) :
          machine.Upholds (below ++ held) after :=
        passes.upholds.trans (upholds.mono (left.below_subset held))
      refine Ends.bind (ended.mono (fun _ _ => id) ?_) ?_
      · exact fun failure after failed => ⟨⟨new, failed.within left⟩, failed.error,
          called failed.upholds⟩
      · intro value after returned
        refine (resume_ends (returned.within left)).mono ?_ ?_
        · rintro _ final ⟨rfl, passes', newer, newerSame, finished⟩
          exact ⟨⟨newer, newerSame.line.trans same.line, finished⟩,
            passes'.error.trans returned.error,
            passes'.traceback.trans (returned.traceback.trans passes.traceback),
            (called returned.upholds).trans passes'.upholds⟩
        · rintro _ final ⟨⟨cause, rfl⟩, passes', newer, -, finished⟩
          exact ⟨⟨newer, finished⟩, by simp [passes'.error, returned.error],
            (called returned.upholds).trans passes'.upholds⟩

/-- A failure is recorded, unless that has been done. -/
theorem record_ok {failure : Failure}
    (failed : StepFailed before callers below held failure machine) :
    ∃ after, record failure machine = .ok () after ∧ after.error.isSome ∧
      (∃ new, after.Within new callers below held) ∧
      machine.Upholds (below ++ held) after := by
  obtain ⟨new, within⟩ := failed.within
  cases failure with
  | raised cause =>
      obtain ⟨after, recorded, records⟩ := setErrorCause_ok within.ready cause
      exact ⟨after, recorded, records.isSome, ⟨new, records.within within⟩,
        records.upholds.mono (within.below_subset held)⟩
  | recorded => exact ⟨machine, rfl, failed.error.mp rfl, ⟨new, within⟩, .refl _ _⟩

/-- A break that no loop looks after is an error. -/
theorem breakOutside_ends (within : machine.Within activation callers below held) :
    Ends ((do
        setErrorCause .breakOutsideLoop
        pushTraceback
        throw (.failed .recorded) : MachineM τ Ref) machine)
      (fun _ _ => False) (FrameFailed machine callers below held) := by
  obtain ⟨recorded, record, records⟩ := setErrorCause_ok within.ready .breakOutsideLoop
  obtain ⟨after, pushed, finished, traced⟩ := pushTraceback_ok (records.within within)
  rw [StoreM.bind_ok record, StoreM.bind_ok pushed]
  exact ⟨⟨activation, finished⟩, traced.error_eq ▸ records.isSome, rfl,
    (records.upholds.mono (within.below_subset held)).trans traced.upholds⟩

/-- Frames are run as they have to be, in any number of steps. -/
theorem runFrame_runsFrames (fuel : Nat) : RunsFrames (runFrame fuel : MachineM τ Ref) := by
  induction fuel with
  | zero => exact fun _ _ => trivial
  | succ fuel ih =>
      intro machine activation callers below held within quiet
      refine Ends.bind (step_ends ih within quiet).handed fun result after holds => ?_
      rcases result with failure | (_ | value | _)
      case ok.next =>
          obtain ⟨new, -, inside⟩ := holds.within
          refine (ih inside holds.error).mono ?_ ?_
          · exact fun value final returned => ⟨returned.within, returned.error,
              returned.traceback.trans holds.traceback, holds.upholds.trans returned.upholds⟩
          · exact fun failure final failed => ⟨failed.within, failed.error, failed.recorded,
              holds.upholds.trans failed.upholds⟩
      case ok.returning =>
          obtain ⟨new, -, inside⟩ := holds.within
          obtain ⟨_, final, unwound, ⟨events, passes⟩, ⟨newer, -, finished⟩, -⟩ :=
            unwind_quiet inside holds.error (by simp : Unwinding.returning ≠ .error)
          simp only
          rw [StoreM.bind_ok unwound]
          exact ⟨⟨newer, finished⟩, passes.error.trans holds.error,
            passes.traceback.trans holds.traceback, holds.upholds.trans (passes.upholds.mono
              (append_subset_append below (List.subset_cons_self value held)))⟩
      case ok.breaking =>
          obtain ⟨new, -, inside⟩ := holds.within
          obtain ⟨caught, final, unwound, ⟨events, passes⟩, ⟨newer, -, finished⟩, -⟩ :=
            unwind_quiet inside holds.error (by simp : Unwinding.breaking ≠ .error)
          simp only
          rw [StoreM.bind_ok unwound]
          cases caught with
          | true =>
              have upholds := holds.upholds.trans passes.upholds
              refine (ih finished (passes.error.trans holds.error)).mono ?_ ?_
              · exact fun value last returned => ⟨returned.within, returned.error,
                  returned.traceback.trans (passes.traceback.trans holds.traceback),
                  upholds.trans returned.upholds⟩
              · exact fun failure last failed => ⟨failed.within, failed.error, failed.recorded,
                  upholds.trans failed.upholds⟩
          | false =>
              have upholds := holds.upholds.trans passes.upholds
              exact (breakOutside_ends finished).mono (fun _ _ => False.elim)
                fun failure last failed => ⟨failed.within, failed.error, failed.recorded,
                  upholds.trans failed.upholds⟩
      case error =>
          obtain ⟨recorded, record, isSet, ⟨new, inside⟩, recordUpholds⟩ := record_ok holds
          obtain ⟨final, unwound, abandons⟩ := unwind_error inside isSet
          simp only
          rw [StoreM.bind_ok record, StoreM.bind_ok unwound]
          obtain ⟨newer, -, finished⟩ := abandons.within
          exact ⟨⟨newer, finished⟩, abandons.error ▸ isSet, rfl,
            (holds.upholds.trans recordUpholds).trans abandons.upholds⟩

end StackMachine.MachineM
