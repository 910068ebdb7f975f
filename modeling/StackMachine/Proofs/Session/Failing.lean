import StackMachine.Proofs.Machine.Failing
import StackMachine.Proofs.Session.Attained

/-!
# Instructions that fail, in every state that is attained

Whatever was run before, and whichever of the things that an instruction needs is refused, a frame
at work loses nothing by an instruction that fails but some of the operands.
-/

namespace StackMachine.Session

open Store Outcome Machine MachineM

variable {τ : Type} [Tracker τ] {session : Session τ} {initial : τ} {lost own below : List Ref}
variable {log : List Event} {activation : Activation} {callers : List Activation}
variable {failure : Failure} {after : Machine τ}

/-- The frame at work has the values `own`, and its instruction is no call that runs code. -/
theorem failing_step_undone (attained : session.Attained initial lost log)
    (stands : Stands session.machine activation callers own below)
    (direct : session.machine.store.RunsNoCode
      ((Fetched.read activation.bytecode activation.offset).callee? own)) (fuel : Nat)
    (failed : step (runFrame fuel) session.machine = .error (.failed failure) after) :
    Undone session.machine own below (Fetched.read activation.bytecode activation.offset).takes
      after := by
  obtain ⟨held, ready, -⟩ := attained.ready
  exact step_undone ready stands direct failed

/-- A frame is about to call the argument that it was given, which is an integer. -/
theorem failing_step_undone_call :
    let loaded := (Session.start Unlimited.mk .off).next 0
        (.loadCode "code" ⟨"main", #[14], [], []⟩)
    let bound := loaded.next 0 (.dict "names")
    let given := bound.next 0 (.int "argument" 7)
    let entered := given.next 0 (.evaluate "result" "code" "names" "names" (some "argument"))
    ∃ activation after, Stands entered.machine activation [] [⟨21⟩] [] ∧
      step (runFrame 0) entered.machine = .error (.failed (.raised .notCallable)) after ∧
      Undone entered.machine [⟨21⟩] [] 1 after := by
  intro loaded bound given entered
  obtain ⟨_, logged⟩ : ∃ events, loaded.Logged Unlimited.mk [] events :=
    (Logged.start .off).next (by decide +kernel)
  obtain ⟨_, logged⟩ : ∃ events, bound.Logged Unlimited.mk [] events :=
    ⟨_, (logged.next (by decide +kernel)).choose_spec⟩
  obtain ⟨_, logged⟩ : ∃ events, given.Logged Unlimited.mk [] events :=
    ⟨_, (logged.next (by decide +kernel)).choose_spec⟩
  have enters :
      given.enters (.evaluate "result" "code" "names" "names" (some "argument")) = true := by
    simp only [given, bound, loaded]
    decide +kernel
  obtain ⟨_, attained⟩ : ∃ events, entered.Attained Unlimited.mk [] events :=
    ⟨_, (logged.enter enters).choose_spec⟩
  have facts : (entered.machine.frames.items.map (fun frame =>
      (frame.base, Fetched.read frame.bytecode frame.offset)), entered.machine.values.items,
      entered.machine.store.payload? ⟨21⟩, stop? (step (runFrame 0) entered.machine)) =
        ([(0, .instruction .callBare 0 1)], [⟨21⟩], some (.int 7),
          some (.failed (.raised .notCallable))) := by
    simp only [entered, given, bound, loaded]
    decide +kernel
  simp only [Prod.mk.injEq] at facts
  obtain ⟨shape, values, callee, stopped⟩ := facts
  obtain ⟨activation, frames⟩ :=
    List.length_eq_one_iff.mp (by simpa using congrArg List.length shape)
  rw [frames, List.map_singleton, List.singleton_inj, Prod.mk.injEq] at shape
  obtain ⟨base, here⟩ := shape
  have stands : Stands entered.machine activation [] [⟨21⟩] [] := ⟨frames, values, base⟩
  have direct : entered.machine.store.RunsNoCode
      ((Fetched.read activation.bytecode activation.offset).callee? [⟨21⟩]) := by
    intro ref payload called found
    rw [here] at called
    cases called
    cases callee.symm.trans found
    exact ⟨by simp [Payload.kind], by simp [Payload.kind]⟩
  obtain ⟨after, failed⟩ := stop?_eq_some_iff.mp stopped
  have undone := failing_step_undone attained stands direct 0 failed
  rw [here] at undone
  exact ⟨activation, after, stands, failed, undone⟩

end StackMachine.Session
