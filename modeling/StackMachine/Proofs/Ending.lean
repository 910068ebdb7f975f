import Mathlib
import StackMachine.Outcome

/-!
# How a run ends

`Ends` says what holds when an operation has run: one thing if it returned, another
if it failed.  It never breaks a promise of the machine to itself.  Where it stops
without an answer nothing is said.

There is one rule for each way in which operations are put together.
-/

namespace StackMachine.Outcome

variable {φ σ α β : Type} {state : σ}

/-- What holds after an operation has run. -/
def Ends (result : EStateM.Result (Stop φ) σ α) (returns : α → σ → Prop)
    (fails : φ → σ → Prop) : Prop :=
  match result with
  | .ok value state => returns value state
  | .error (.failed failure) state => fails failure state
  | .error (.fault _) _ => False
  | .error .unfinished _ => True

variable {act : EStateM (Stop φ) σ α} {returns : α → σ → Prop} {fails : φ → σ → Prop}

theorem Ends.mono {returns' : α → σ → Prop} {fails' : φ → σ → Prop}
    {result : EStateM.Result (Stop φ) σ α} (ends : Ends result returns fails)
    (returned : ∀ value state, returns value state → returns' value state)
    (failed : ∀ failure state, fails failure state → fails' failure state) :
    Ends result returns' fails' := by
  cases result with
  | ok value state => exact returned value state ends
  | error stop state =>
      cases stop with
      | failed failure => exact failed failure state ends
      | fault broken => exact ends
      | unfinished => trivial

/-- What follows from a return, where failures say the same. -/
theorem Ends.imp {returns' : α → σ → Prop} {result : EStateM.Result (Stop φ) σ α}
    (ends : Ends result returns fails)
    (returned : ∀ value state, returns value state → returns' value state) :
    Ends result returns' fails :=
  ends.mono returned fun _ _ failed => failed

/-- One operation after the other. -/
theorem Ends.bind {next : α → EStateM (Stop φ) σ β} {middle : α → σ → Prop}
    {returns : β → σ → Prop} (first : Ends (act state) middle fails)
    (second : ∀ value state, middle value state → Ends (next value state) returns fails) :
    Ends ((act >>= next) state) returns fails := by
  show Ends (EStateM.bind act next state) returns fails
  unfold EStateM.bind
  cases result : act state with
  | ok value state =>
      rw [result] at first
      exact second value state first
  | error stop state =>
      rw [result] at first
      cases stop with
      | failed failure => exact first
      | fault broken => exact first
      | unfinished => trivial

theorem Ends.map {function : α → β} {returns : β → σ → Prop}
    (ends : Ends (act state) (fun value => returns (function value)) fails) :
    Ends ((function <$> act) state) returns fails := by
  show Ends (EStateM.map function act state) returns fails
  unfold EStateM.map
  cases result : act state with
  | ok value state =>
      rw [result] at ends
      exact ends
  | error stop state =>
      rw [result] at ends
      cases stop with
      | failed failure => exact ends
      | fault broken => exact ends
      | unfinished => trivial

/-- Handing a failure over as a value. -/
theorem Ends.attempt {returns : Except φ α → σ → Prop}
    (ends : Ends (act state) (fun value => returns (.ok value))
      (fun failure => returns (.error failure))) :
    Ends (attempt act state) returns fails := by
  unfold Outcome.attempt
  cases result : act state with
  | ok value state =>
      rw [result] at ends
      exact ends
  | error stop state =>
      rw [result] at ends
      cases stop with
      | failed failure => exact ends
      | fault broken => exact ends
      | unfinished => trivial

/-- What holds of an outcome that was handed over as a value. -/
def Handed (returns : α → σ → Prop) (fails : φ → σ → Prop) : Except φ α → σ → Prop
  | .ok value => returns value
  | .error failure => fails failure

theorem Ends.handed {never : φ → σ → Prop} (ends : Ends (act state) returns fails) :
    Ends (Outcome.attempt act state) (Handed returns fails) never :=
  Ends.attempt (ends.mono (fun _ _ returned => returned) fun _ _ failed => failed)

/-- Reading off the state leaves it as it is. -/
theorem Ends.reading {read : σ → Except (Stop φ) α}
    (answered : ∀ value, read state = .ok value → returns value state)
    (failed : ∀ failure, read state = .error (.failed failure) → fails failure state)
    (intact : ∀ fault, read state ≠ .error (.fault fault)) :
    Ends (reading read state) returns fails := by
  unfold Outcome.reading
  cases result : read state with
  | ok value => exact answered value result
  | error stop =>
      cases stop with
      | failed failure => exact failed failure result
      | fault broken => exact absurd result (intact broken)
      | unfinished => trivial

/-! ## Operations that never fail -/

/-- An operation that does not fail returns, or stops without an answer. -/
theorem Ends.answers {result : EStateM.Result (Stop φ) σ α}
    (ends : Ends result returns fun _ _ => False) :
    (∃ value state, result = .ok value state ∧ returns value state) ∨
      ∃ state, result = .error .unfinished state := by
  cases result with
  | ok value state => exact Or.inl ⟨value, state, rfl, ends⟩
  | error stop state =>
      cases stop with
      | failed failure => exact ends.elim
      | fault broken => exact ends.elim
      | unfinished => exact Or.inr ⟨state, rfl⟩

theorem Ends.of_ok {result : EStateM.Result (Stop φ) σ α} {value : α}
    (ends : Ends result returns fails) (returned : result = .ok value state) :
    returns value state := by
  rw [returned] at ends
  exact ends

/-- Does the operation never fail?  It may stop for other reasons. -/
def NeverFails (act : EStateM (Stop φ) σ α) : Prop :=
  ∀ state failure after, act state ≠ .error (.failed failure) after

theorem NeverFails.bind {act : EStateM (Stop φ) σ α} {next : α → EStateM (Stop φ) σ β}
    (first : NeverFails act) (second : ∀ value, NeverFails (next value)) :
    NeverFails (act >>= next) := by
  intro state failure after failed
  change EStateM.bind act next state = _ at failed
  unfold EStateM.bind at failed
  cases result : act state with
  | ok value middle =>
      rw [result] at failed
      exact second value middle failure after failed
  | error stop middle =>
      rw [result] at failed
      obtain ⟨rfl, rfl⟩ := EStateM.Result.error.inj failed
      exact first state failure middle result

theorem NeverFails.pure (value : α) : NeverFails (pure value : EStateM (Stop φ) σ α) :=
  fun _ _ _ failed => by cases failed

theorem NeverFails.get : NeverFails (get : EStateM (Stop φ) σ σ) :=
  fun _ _ _ failed => by cases failed

theorem NeverFails.modify (function : σ → σ) :
    NeverFails (modify function : EStateM (Stop φ) σ PUnit) :=
  fun _ _ _ failed => by cases failed

theorem NeverFails.fault (broken : Fault) :
    NeverFails (throw (.fault broken) : EStateM (Stop φ) σ α) :=
  fun _ _ _ failed => by cases failed

section Attempts

variable {act : EStateM (Stop φ) σ α} {before after : σ}

theorem attempt_ok {value : α} (ran : act before = .ok value after) :
    attempt act before = .ok (.ok value) after := by
  rw [attempt, ran]

theorem attempt_failed {failure : φ} (ran : act before = .error (.failed failure) after) :
    attempt act before = .ok (.error failure) after := by
  rw [attempt, ran]

theorem attempt_fault {broken : Fault} (ran : act before = .error (.fault broken) after) :
    attempt act before = .error (.fault broken) after := by
  rw [attempt, ran]

theorem attempt_unfinished (ran : act before = .error .unfinished after) :
    attempt act before = .error .unfinished after := by
  rw [attempt, ran]

end Attempts

/-- Failures are caught only where they can occur. -/
theorem attempt_bind {act : EStateM (Stop φ) σ α} {next : α → EStateM (Stop φ) σ β}
    (never : NeverFails act) :
    attempt (act >>= next) = act >>= fun value => attempt (next value) := by
  funext state
  show attempt (EStateM.bind act next) state =
    EStateM.bind act (fun value => attempt (next value)) state
  unfold attempt EStateM.bind
  cases result : act state with
  | ok value middle => rfl
  | error stop middle =>
      cases stop with
      | failed failure => exact absurd result (never state failure middle)
      | fault broken => rfl
      | unfinished => rfl

theorem neverFails_attempt (act : EStateM (Stop φ) σ α) : NeverFails (attempt act) := by
  intro state failure after failed
  unfold attempt at failed
  split at failed <;> cases failed

theorem attempt_settle (result : Except φ α) :
    attempt (settle result : EStateM (Stop φ) σ α) = pure result := by
  cases result <;> rfl

/-- What stops is not followed by anything. -/
theorem bind_error {act : EStateM (Stop φ) σ α} {next : α → EStateM (Stop φ) σ β} {stop : Stop φ}
    {before after : σ} (stopped : act before = .error stop after) :
    (act >>= next) before = .error stop after := by
  show EStateM.bind act next before = _
  rw [EStateM.bind, stopped]

/-- What fails has failed before an operation that never does. -/
theorem NeverFails.bind_failed {act : EStateM (Stop φ) σ α} {next : α → EStateM (Stop φ) σ β}
    {failure : φ} {before after : σ} (never : ∀ value, NeverFails (next value))
    (failed : (act >>= next) before = .error (.failed failure) after) :
    act before = .error (.failed failure) after := by
  change EStateM.bind act next before = _ at failed
  unfold EStateM.bind at failed
  cases result : act before with
  | ok value middle =>
      rw [result] at failed
      exact absurd failed (never value middle failure after)
  | error stop middle =>
      rw [result] at failed
      cases failed
      rfl

/-- What returns after another operation returns after it did. -/
theorem bind_eq_ok {act : EStateM (Stop φ) σ α} {next : α → EStateM (Stop φ) σ β} {value : β}
    {before after : σ} (returned : (act >>= next) before = .ok value after) :
    ∃ first middle, act before = .ok first middle ∧ next first middle = .ok value after := by
  change EStateM.bind act next before = _ at returned
  unfold EStateM.bind at returned
  split at returned
  · exact ⟨_, _, ‹_›, returned⟩
  · cases returned

end StackMachine.Outcome
