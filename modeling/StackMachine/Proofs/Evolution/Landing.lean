import StackMachine.Proofs.Evolution.Running
import StackMachine.Proofs.Machine.Calls

/-!
# What holds where runs end

What is true of a state, and stays true along a course, is true wherever an operation ends that
goes that course.  A frame that has run is left, and its error recorded, along every course, so
that what is true where the frame has run is true where its call is over.
-/

namespace StackMachine

open Outcome Machine

variable {τ α : Type}

/-- What holds of a state holds wherever the course leads from there. -/
def Course.Preserves {σ : Type} (course : Course σ) (holds : σ → Prop) : Prop :=
  ∀ ⦃before events after⦄, holds before → course.goes before events after → holds after

theorem Course.Preserves.lands {σ φ : Type} [Traced σ] {course : Course σ} {holds : σ → Prop}
    {act : EStateM (Stop φ) σ α} {before : σ} (preserves : course.Preserves holds)
    (known : holds before) (follows : course.Follows act) : Lands holds (act before) :=
  follows.lands fun _ _ => preserves known

namespace MachineM

variable [Tracker τ] {course : Course (Machine τ)} [Wide course] {holds : Machine τ → Prop}
variable {machine : Machine τ} {run act : MachineM τ Ref}

/-- A frame is left, and what was held meanwhile is given back. -/
theorem leaving_follows (pending : List Ref) (result : Except Failure Ref) :
    course.Follows (leaveFrame >>= fun _ => releaseAll pending >>= fun _ => settle result) :=
  leaveFrame_follows.bind fun _ => (releaseAll_follows pending).bind fun _ => .settle result

theorem finishCall_follows (pending : List Ref) (follows : course.Follows run) :
    course.Follows (finishCall pending run) :=
  follows.attempt.bind (leaving_follows pending)

theorem finishCall_lands (preserves : course.Preserves holds) (pending : List Ref)
    (ran : Lands holds (run machine)) : Lands holds (finishCall pending run machine) :=
  ran.attempt.bind fun result _ _ known => preserves.lands known (leaving_follows pending result)

theorem recording_lands (preserves : course.Preserves holds) (ran : Lands holds (act machine)) :
    Lands holds (recording act machine) := by
  refine ran.attempt.bind fun result _ _ known => ?_
  cases result with
  | ok value => exact known
  | error failure =>
      exact (preserves.lands known (record_follows failure)).bind fun _ _ _ known => known

end MachineM

end StackMachine
