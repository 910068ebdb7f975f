import StackMachine.Proofs.Ending

/-!
# What operations do to the state

`Advances` says of an operation that wherever it returns or fails, the state before and the
state after stand in a relation.  Nothing is said where it breaks a promise or stops without
an answer.

For a relation that is reflexive and transitive there is one rule for each way in which
operations are put together.
-/

namespace StackMachine.Outcome

variable {φ σ α β : Type} {goes goes' : σ → σ → Prop}

/-- Wherever the operation returns or fails, the state has gone on as `goes` says. -/
def Advances (goes : σ → σ → Prop) (act : EStateM (Stop φ) σ α) : Prop :=
  ∀ before, match act before with
    | .ok _ after => goes before after
    | .error (.failed _) after => goes before after
    | .error (.fault _) _ => True
    | .error .unfinished _ => True

namespace Advances

variable {act : EStateM (Stop φ) σ α} {next : α → EStateM (Stop φ) σ β} {before after : σ}

theorem of_ok (advances : Advances goes act) {value : α} (ran : act before = .ok value after) :
    goes before after := by
  have known := advances before
  rw [ran] at known
  exact known

theorem of_failed (advances : Advances goes act) {failure : φ}
    (ran : act before = .error (.failed failure) after) : goes before after := by
  have known := advances before
  rw [ran] at known
  exact known

theorem mono (advances : Advances goes act) (more : ∀ before after, goes before after →
    goes' before after) : Advances goes' act := by
  intro before
  have known := advances before
  cases ran : act before with
  | ok value after =>
      rw [ran] at known
      exact more before after known
  | error stop after =>
      rw [ran] at known
      cases stop with
      | failed failure => exact more before after known
      | fault broken => trivial
      | unfinished => trivial

/-- What breaks a promise goes nowhere. -/
theorem fault (broken : Fault) : Advances goes (throw (.fault broken) : EStateM (Stop φ) σ α) :=
  fun _ => trivial

theorem attempt (advances : Advances goes act) : Advances goes (Outcome.attempt act) := by
  intro before
  have known := advances before
  unfold Outcome.attempt
  cases ran : act before with
  | ok value after =>
      rw [ran] at known
      exact known
  | error stop after =>
      rw [ran] at known
      cases stop with
      | failed failure => exact known
      | fault broken => trivial
      | unfinished => trivial

variable [IsPreorder σ goes]

theorem pure (value : α) : Advances goes (pure value : EStateM (Stop φ) σ α) :=
  fun before => refl_of goes before

theorem throw (failure : φ) : Advances goes (throw (.failed failure) : EStateM (Stop φ) σ α) :=
  fun before => refl_of goes before

theorem settle (result : Except φ α) : Advances goes (Outcome.settle result) := by
  cases result with
  | ok value => exact pure value
  | error failure => exact throw failure

/-- Reading changes nothing. -/
theorem reading (read : σ → Except (Stop φ) α) : Advances goes (Outcome.reading read) := by
  intro before
  unfold Outcome.reading
  cases read before with
  | ok value => exact refl_of goes before
  | error stop =>
      cases stop with
      | failed failure => exact refl_of goes before
      | fault broken => trivial
      | unfinished => trivial

theorem bind (first : Advances goes act) (second : ∀ value, Advances goes (next value)) :
    Advances goes (act >>= next) := by
  intro before
  have known := first before
  show match EStateM.bind act next before with
    | .ok _ after => goes before after
    | .error (.failed _) after => goes before after
    | .error (.fault _) _ => True
    | .error .unfinished _ => True
  unfold EStateM.bind
  cases ran : act before with
  | ok value middle =>
      rw [ran] at known
      have later := second value middle
      simp only
      cases went : next value middle with
      | ok result after =>
          rw [went] at later
          exact trans_of goes known later
      | error stop after =>
          rw [went] at later
          cases stop with
          | failed failure => exact trans_of goes known later
          | fault broken => trivial
          | unfinished => trivial
  | error stop after =>
      rw [ran] at known
      cases stop with
      | failed failure => exact known
      | fault broken => trivial
      | unfinished => trivial

theorem map (advances : Advances goes act) (function : α → β) :
    Advances goes (function <$> act) := by
  have mapped : (function <$> act) = act >>= fun value => Pure.pure (function value) := rfl
  rw [mapped]
  exact advances.bind fun value => pure (function value)

end Advances

/-! ## From one state -/

/-- Where the operation returned or failed, the state is one of those that `holds` says. -/
def Lands (holds : σ → Prop) : EStateM.Result (Stop φ) σ α → Prop
  | .ok _ after => holds after
  | .error (.failed _) after => holds after
  | .error (.fault _) _ => True
  | .error .unfinished _ => True

namespace Lands

variable {holds : σ → Prop} {act : EStateM (Stop φ) σ α} {next : α → EStateM (Stop φ) σ β}
variable {before after : σ}

theorem of_ok {value : α} (lands : Lands holds (act before)) (ran : act before = .ok value after) :
    holds after := by
  rw [ran] at lands
  exact lands

theorem attempt (lands : Lands holds (act before)) : Lands holds (Outcome.attempt act before) := by
  unfold Outcome.attempt
  cases ran : act before with
  | ok value after =>
      rw [ran] at lands
      exact lands
  | error stop after =>
      rw [ran] at lands
      cases stop <;> exact lands

theorem bind (first : Lands holds (act before))
    (second : ∀ value after, act before = .ok value after → holds after →
      Lands holds (next value after)) : Lands holds ((act >>= next) before) := by
  show Lands holds (EStateM.bind act next before)
  unfold EStateM.bind
  cases ran : act before with
  | ok value middle =>
      rw [ran] at first
      exact second value middle ran first
  | error stop middle =>
      rw [ran] at first
      cases stop <;> exact first

/-- What never fails need not land anywhere before something else does. -/
theorem of_never (never : NeverFails act)
    (rest : ∀ value middle, act before = .ok value middle → Lands holds (next value middle)) :
    Lands holds ((act >>= next) before) := by
  show Lands holds (EStateM.bind act next before)
  unfold EStateM.bind
  cases ran : act before with
  | ok value middle => exact rest value middle ran
  | error stop middle =>
      cases stop with
      | failed failure => exact absurd ran (never before failure middle)
      | fault broken => trivial
      | unfinished => trivial

end Lands

/-! ## Promises that are kept -/

/-- No promise was broken. -/
def Faultless (result : EStateM.Result (Stop φ) σ α) : Prop :=
  ∀ broken state, result ≠ .error (.fault broken) state

theorem Ends.faultless {result : EStateM.Result (Stop φ) σ α} {returns : α → σ → Prop}
    {fails : φ → σ → Prop} (ends : Ends result returns fails) : Faultless result := by
  rintro broken state rfl
  exact ends

namespace Faultless

variable {act : EStateM (Stop φ) σ α} {next : α → EStateM (Stop φ) σ β} {before middle : σ}

/-- What was done first has broken none either. -/
theorem of_bind (faultless : Faultless ((act >>= next) before)) : Faultless (act before) := by
  intro broken state stopped
  refine faultless broken state ?_
  show EStateM.bind act next before = _
  rw [EStateM.bind, stopped]

theorem of_bind_ok (faultless : Faultless ((act >>= next) before)) {value : α}
    (ran : act before = .ok value middle) : Faultless (next value middle) := by
  have whole : EStateM.bind act next before = next value middle := by rw [EStateM.bind, ran]
  exact whole ▸ faultless

theorem of_attempt (faultless : Faultless (Outcome.attempt act before)) :
    Faultless (act before) := by
  intro broken state stopped
  exact faultless broken state (by rw [Outcome.attempt, stopped])

end Faultless

end StackMachine.Outcome
