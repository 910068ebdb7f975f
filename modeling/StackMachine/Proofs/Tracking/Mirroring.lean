import StackMachine.Proofs.Ending
import StackMachine.Proofs.Tracking.Watched

/-!
# Operations that a watched tracker makes no difference to

An operation that is put together from requests to a tracker and things that are no
business of it does the same with a watched tracker and with what is seen of it, as long as
the two agree.  `Mirrors` says so of one run, and what holds when it is over.

What a refusal leads to is read off the log: `Watches` says that the refusals among the
entries that an operation makes are those it fails for, or those that a dictionary gets
along with.  An operation may also start out from a failure that has been put aside, as
long as it does nothing but clean up; then it ends with that failure.
-/

namespace StackMachine

/-- States that hold a watched tracker that is looked at: what they are with the tracker in its
place that is seen. -/
class Watching (σ : Type) (π τ ρ : outParam Type) [Tracker τ] [Tracker ρ] where
  plain : σ → π
  watched : σ → Watched τ ρ
  agrees : Entry → Prop

/-- Failures that come from a cause or were recorded. -/
class Failing (φ : Type) where
  fate : φ → Fate

instance : Failing Cause where
  fate cause := .failing cause

namespace Outcome

open Watching

variable {φ σ π τ ρ α β : Type} [Tracker τ] [Tracker ρ] [Watching σ π τ ρ]

/-- What is seen has given the answers that were given, all along. -/
def Agreed (state : σ) : Prop :=
  ∀ entry ∈ (watched state).log, agrees σ entry

/-- A run with a watched tracker ends as the run with what is seen of it does, if the two agree,
and what `returns` or `stops` says holds then. -/
inductive Mirrors (act : EStateM (Stop φ) σ α) (other : EStateM (Stop φ) π α) (state : σ)
    (returns : α → σ → Prop) (stops : Stop φ → σ → Prop) : Prop where
  | ok (value : α) (after : σ) (ran : act state = .ok value after)
      (same : Agreed after → other (plain state) = .ok value (plain after))
      (continues : (watched state).Continues (watched after)) (holds : returns value after)
  | error (stop : Stop φ) (after : σ) (ran : act state = .error stop after)
      (same : Agreed after → other (plain state) = .error stop (plain after))
      (continues : (watched state).Continues (watched after)) (holds : stops stop after)

variable {act : EStateM (Stop φ) σ α} {other : EStateM (Stop φ) π α}
variable {next : α → EStateM (Stop φ) σ β} {otherNext : α → EStateM (Stop φ) π β} {state : σ}

theorem Mirrors.mono {returns returns' : α → σ → Prop} {stops stops' : Stop φ → σ → Prop}
    (mirrors : Mirrors act other state returns stops)
    (returned : ∀ value after, returns value after → returns' value after)
    (stopped : ∀ stop after, stops stop after → stops' stop after) :
    Mirrors act other state returns' stops' := by
  cases mirrors with
  | ok value after ran same continues holds =>
      exact .ok value after ran same continues (returned value after holds)
  | error stop after ran same continues holds =>
      exact .error stop after ran same continues (stopped stop after holds)

/-- What an operation does somewhere, it does where it gets there. -/
theorem Mirrors.rebase {act' : EStateM (Stop φ) σ α} {other' : EStateM (Stop φ) π α} {start : σ}
    {returns : α → σ → Prop} {stops : Stop φ → σ → Prop}
    (mirrors : Mirrors act other state returns stops) (acts : act' start = act state)
    (others : Agreed state → other' (plain start) = other (plain state))
    (continues : (watched start).Continues (watched state)) :
    Mirrors act' other' start returns stops := by
  cases mirrors with
  | ok value after ran same later holds =>
      exact .ok value after (acts.trans ran)
        (fun agreed => (others (later.all agreed)).trans (same agreed)) (continues.trans later)
        holds
  | error stop after ran same later holds =>
      exact .error stop after (acts.trans ran)
        (fun agreed => (others (later.all agreed)).trans (same agreed)) (continues.trans later)
        holds

theorem Mirrors.bind {middle : α → σ → Prop} {returns : β → σ → Prop} {stops : Stop φ → σ → Prop}
    (first : Mirrors act other state middle stops)
    (second : ∀ value after, middle value after →
      Mirrors (next value) (otherNext value) after returns stops) :
    Mirrors (act >>= next) (other >>= otherNext) state returns stops := by
  have unfolded : ∀ before, (act >>= next) before = EStateM.bind act next before := fun _ => rfl
  have plainly : ∀ before, (other >>= otherNext) before = EStateM.bind other otherNext before :=
    fun _ => rfl
  cases first with
  | ok value after ran same continues holds =>
      refine (second value after holds).rebase ?_ (fun agreed => ?_) continues
      · rw [unfolded, EStateM.bind, ran]
      · rw [plainly, EStateM.bind, same agreed]
  | error stop after ran same continues holds =>
      refine .error stop after ?_ (fun agreed => ?_) continues holds
      · rw [unfolded, EStateM.bind, ran]
      · rw [plainly, EStateM.bind, same agreed]

/-- What holds where a failure is handed over as a value. -/
def Caught (returns : Except φ α → σ → Prop) (stops : Stop φ → σ → Prop) : Stop φ → σ → Prop
  | .failed failure => returns (.error failure)
  | stop => stops stop

theorem Mirrors.attempt {returns : Except φ α → σ → Prop} {stops : Stop φ → σ → Prop}
    (mirrors : Mirrors act other state (fun value => returns (.ok value))
      (Caught returns stops)) :
    Mirrors (attempt act) (attempt other) state returns stops := by
  cases mirrors with
  | ok value after ran same continues holds =>
      refine .ok (.ok value) after ?_ (fun agreed => ?_) continues holds
      · rw [Outcome.attempt, ran]
      · rw [Outcome.attempt, same agreed]
  | error stop after ran same continues holds =>
      cases stop with
      | failed failure =>
          refine .ok (.error failure) after ?_ (fun agreed => ?_) continues holds
          · rw [Outcome.attempt, ran]
          · rw [Outcome.attempt, same agreed]
      | fault broken =>
          refine .error (.fault broken) after ?_ (fun agreed => ?_) continues holds
          · rw [Outcome.attempt, ran]
          · rw [Outcome.attempt, same agreed]
      | unfinished =>
          refine .error .unfinished after ?_ (fun agreed => ?_) continues holds
          · rw [Outcome.attempt, ran]
          · rw [Outcome.attempt, same agreed]

/-! ## Cleaning up -/

/-- The entries that were made on the way from one state to another. -/
def Adds (allowed : Entry → Prop) (before after : σ) : Prop :=
  ∃ recent, (watched after).log = recent ++ (watched before).log ∧ ∀ entry ∈ recent, allowed entry

/-- An operation that does not fail, and that makes only entries that are allowed. -/
def Tidies (allowed : Entry → Prop) (act : EStateM (Stop φ) σ α)
    (other : EStateM (Stop φ) π α) : Prop :=
  ∀ state, Mirrors act other state (fun _ after => Adds allowed state after)
    fun stop _ => ∃ broken, stop = .fault broken

theorem Adds.refl (allowed : Entry → Prop) (state : σ) : Adds allowed state state :=
  ⟨[], rfl, by simp⟩

theorem Adds.mono {allowed allowed' : Entry → Prop} {before after : σ}
    (adds : Adds allowed before after) (more : ∀ entry, allowed entry → allowed' entry) :
    Adds allowed' before after := by
  obtain ⟨recent, added, known⟩ := adds
  exact ⟨recent, added, fun entry member => more entry (known entry member)⟩

theorem Adds.trans {allowed : Entry → Prop} {first second third : σ}
    (earlier : Adds allowed first second) (later : Adds allowed second third) :
    Adds allowed first third := by
  obtain ⟨recent, added, known⟩ := earlier
  obtain ⟨latest, added', known'⟩ := later
  refine ⟨latest ++ recent, by rw [added', added, List.append_assoc], fun entry member => ?_⟩
  rcases List.mem_append.mp member with late | early
  · exact known' entry late
  · exact known entry early

namespace Tidies

variable {allowed : Entry → Prop}

theorem pure (value : α) :
    Tidies allowed (pure value : EStateM (Stop φ) σ α) (pure value : EStateM (Stop φ) π α) :=
  fun state => .ok value state rfl (fun _ => rfl) (.refl _) (.refl allowed state)

theorem bind (first : Tidies allowed act other)
    (second : ∀ value, Tidies allowed (next value) (otherNext value)) :
    Tidies allowed (act >>= next) (other >>= otherNext) := by
  intro state
  refine (first state).bind fun value after adds => ?_
  exact (second value after).mono (fun _ _ adds' => adds.trans adds') fun _ _ => id

theorem mono {allowed' : Entry → Prop} (tidies : Tidies allowed act other)
    (more : ∀ entry, allowed entry → allowed' entry) : Tidies allowed' act other :=
  fun state => (tidies state).mono (fun _ _ adds => adds.mono more) fun _ _ => id

/-- What is done may depend on a state that looks the same in what is seen. -/
theorem get_bind {next : σ → EStateM (Stop φ) σ β} {otherNext : π → EStateM (Stop φ) π β}
    (rest : ∀ state, Tidies allowed (next state) (otherNext (plain state))) :
    Tidies allowed (get >>= next) (get >>= otherNext) :=
  fun state => (rest state state).rebase rfl (fun _ => rfl) (.refl _)

theorem modify {change : σ → σ} {otherChange : π → π}
    (same : ∀ state, otherChange (plain state) = plain (change state))
    (kept : ∀ state, watched (change state) = watched state) :
    Tidies allowed (modify change : EStateM (Stop φ) σ PUnit)
      (modify otherChange : EStateM (Stop φ) π PUnit) := by
  intro state
  refine .ok ⟨⟩ (change state) rfl (fun _ => ?_) ?_ ⟨[], ?_, by simp⟩
  · rw [← same]
    rfl
  · rw [kept]
    exact .refl _
  · rw [kept, List.nil_append]

/-- What is done may depend on something that is the same in what is seen. -/
theorem ite {condition : Prop} [Decidable condition] {act' : EStateM (Stop φ) σ α}
    {other' : EStateM (Stop φ) π α} (holds : condition → Tidies allowed act other)
    (fails : ¬ condition → Tidies allowed act' other') :
    Tidies allowed (if condition then act else act') (if condition then other else other') := by
  split
  case isTrue true => exact holds true
  case isFalse false => exact fails false

theorem fault (broken : Fault) :
    Tidies allowed (throw (.fault broken) : EStateM (Stop φ) σ α)
      (throw (.fault broken) : EStateM (Stop φ) π α) :=
  fun state => .error (.fault broken) state rfl (fun _ => rfl) (.refl _) ⟨broken, rfl⟩

end Tidies

/-- An operation that may fail, and that makes only entries that are allowed. -/
def Risks (allowed : Entry → Prop) (act : EStateM (Stop φ) σ α)
    (other : EStateM (Stop φ) π α) : Prop :=
  ∀ state, Mirrors act other state (fun _ after => Adds allowed state after)
    fun stop after => (∃ broken, stop = .fault broken) ∨
      ∃ failure, stop = .failed failure ∧ Adds allowed state after

namespace Risks

variable {allowed : Entry → Prop}

theorem bind (first : Risks allowed act other)
    (second : ∀ value, Risks allowed (next value) (otherNext value)) :
    Risks allowed (act >>= next) (other >>= otherNext) := by
  intro state
  refine (first state).bind fun value after adds => ?_
  refine (second value after).mono (fun _ _ adds' => adds.trans adds') ?_
  rintro stop final (broken | ⟨failure, failed, adds'⟩)
  · exact Or.inl broken
  · exact Or.inr ⟨failure, failed, adds.trans adds'⟩

theorem throw (failure : φ) :
    Risks allowed (throw (.failed failure) : EStateM (Stop φ) σ α)
      (throw (.failed failure) : EStateM (Stop φ) π α) :=
  fun state => .error (.failed failure) state rfl (fun _ => rfl) (.refl _)
    (Or.inr ⟨failure, rfl, .refl allowed state⟩)

/-- A failure that is handed over as a value does not count. -/
theorem attempt (risks : Risks allowed act other) :
    Tidies allowed (Outcome.attempt act) (Outcome.attempt other) := by
  intro state
  refine Mirrors.attempt ((risks state).mono (fun _ _ => id) ?_)
  rintro stop after (⟨broken, rfl⟩ | ⟨failure, rfl, adds⟩)
  · exact ⟨broken, rfl⟩
  · exact adds

end Risks

theorem Tidies.risks {allowed : Entry → Prop} (tidies : Tidies allowed act other) :
    Risks allowed act other :=
  fun state => (tidies state).mono (fun _ _ => id) fun _ _ => Or.inl

/-! ## Accounting for refusals -/

variable [Failing φ]

/-- What is known of the entries where an operation stops.  It stops without an answer only
while all goes well. -/
def StopsWith (since : List Entry) : Stop φ → σ → Prop
  | .failed failure, state => (Failing.fate failure).Accounts since (watched state).log
  | .fault _, _ => True
  | .unfinished, state => Fate.fine.Accounts since (watched state).log

/-- An operation that starts out with `before` and accounts for the refusals on the way. -/
def Watches (before : Fate) (act : EStateM (Stop φ) σ α) (other : EStateM (Stop φ) π α)
    (fate : α → Fate) : Prop :=
  ∀ state since, before.Accounts since (watched state).log →
    Mirrors act other state (fun value after => (fate value).Accounts since (watched after).log)
      (StopsWith since)

/-- All goes well. -/
abbrev allWell : α → Fate := fun _ => .fine

/-- An operation that fails for every refusal it meets. -/
abbrev Heeds (act : EStateM (Stop φ) σ α) (other : EStateM (Stop φ) π α) : Prop :=
  Watches .fine act other allWell

/-- The fate of an outcome that was handed over as a value. -/
def handed (fate : α → Fate) : Except φ α → Fate
  | .ok value => fate value
  | .error failure => Failing.fate failure

namespace Watches

variable {before : Fate} {fate : α → Fate} {fate' : β → Fate}

theorem pure (fate : α → Fate) (value : α) :
    Watches (fate value) (pure value : EStateM (Stop φ) σ α) (pure value : EStateM (Stop φ) π α)
      fate :=
  fun state _ accounts => .ok value state rfl (fun _ => rfl) (.refl _) accounts

theorem well (value : α) :
    Heeds (Pure.pure value : EStateM (Stop φ) σ α) (Pure.pure value : EStateM (Stop φ) π α) :=
  .pure allWell value

theorem bind (first : Watches before act other fate)
    (second : ∀ value, Watches (fate value) (next value) (otherNext value) fate') :
    Watches before (act >>= next) (other >>= otherNext) fate' :=
  fun state since accounts => (first state since accounts).bind fun value after known =>
    second value after since known

theorem map (function : α → β)
    (watches : Watches before act other fun value => fate' (function value)) :
    Watches before (function <$> act) (function <$> other) fate' := by
  have first : (function <$> act) = act >>= fun value => Pure.pure (function value) := rfl
  have second : (function <$> other) = other >>= fun value => Pure.pure (function value) := rfl
  rw [first, second]
  exact watches.bind fun value => .pure fate' (function value)

theorem get_bind {next : σ → EStateM (Stop φ) σ β} {otherNext : π → EStateM (Stop φ) π β}
    (rest : ∀ state, Watches before (next state) (otherNext (plain state)) fate') :
    Watches before (get >>= next) (get >>= otherNext) fate' :=
  fun state since accounts =>
    (rest state state since accounts).rebase rfl (fun _ => rfl) (.refl _)

/-- A failure that is handed over as a value is still to be accounted for. -/
theorem attempt (watches : Watches before act other fate) :
    Watches before (Outcome.attempt act) (Outcome.attempt other) (handed fate) := by
  intro state since accounts
  refine Mirrors.attempt ((watches state since accounts).mono (fun _ _ => id) ?_)
  intro stop after holds
  cases stop with
  | failed failure => exact holds
  | fault broken => exact holds
  | unfinished => exact holds

/-- A failure that has been accounted for is raised. -/
theorem throw (failure : φ) :
    Watches (Failing.fate failure) (throw (.failed failure) : EStateM (Stop φ) σ α)
      (throw (.failed failure) : EStateM (Stop φ) π α) fate :=
  fun state _ accounts => .error (.failed failure) state rfl (fun _ => rfl) (.refl _) accounts

/-- What can be done after a failure can be done where all goes well. -/
theorem weaken (watches : Watches before act other fate) : Watches .fine act other fate :=
  fun state since accounts => watches state since (accounts.admitted before)

/-- Nothing has gone wrong so far, so any failure may be raised. -/
theorem raise (failure : φ) :
    Watches .fine (MonadExcept.throw (.failed failure) : EStateM (Stop φ) σ α)
      (MonadExcept.throw (.failed failure) : EStateM (Stop φ) π α) fate :=
  (throw failure).weaken

theorem ite {condition : Prop} [Decidable condition] {act' : EStateM (Stop φ) σ α}
    {other' : EStateM (Stop φ) π α} (holds : condition → Watches before act other fate)
    (fails : ¬ condition → Watches before act' other' fate) :
    Watches before (if condition then act else act')
      (if condition then other else other') fate := by
  split
  case isTrue true => exact holds true
  case isFalse false => exact fails false

theorem fault (broken : Fault) :
    Watches before (MonadExcept.throw (.fault broken) : EStateM (Stop φ) σ α)
      (MonadExcept.throw (.fault broken) : EStateM (Stop φ) π α) fate :=
  fun state _ _ => .error (.fault broken) state rfl (fun _ => rfl) (.refl _) trivial

theorem unfinished :
    Watches .fine (MonadExcept.throw .unfinished : EStateM (Stop φ) σ α)
      (MonadExcept.throw .unfinished : EStateM (Stop φ) π α) fate :=
  fun state _ accounts => .error .unfinished state rfl (fun _ => rfl) (.refl _) accounts

theorem settle (result : Except φ α) :
    Watches (handed fate result) (Outcome.settle result : EStateM (Stop φ) σ α)
      (Outcome.settle result : EStateM (Stop φ) π α) fate := by
  cases result with
  | ok value => exact .pure fate value
  | error failure => exact .throw failure

/-- What is read off the state is the same in what is seen. -/
theorem reading {read : σ → Except (Stop φ) α} {otherRead : π → Except (Stop φ) α}
    (same : ∀ state, otherRead (plain state) = read state) :
    Heeds (Outcome.reading read) (Outcome.reading otherRead) := by
  intro state since accounts
  cases result : read state with
  | ok value =>
      refine .ok value state ?_ (fun _ => ?_) (.refl _) accounts
      · rw [Outcome.reading, result]
      · rw [Outcome.reading, same, result]
  | error stop =>
      refine .error stop state ?_ (fun _ => ?_) (.refl _) ?_
      · rw [Outcome.reading, result]
      · rw [Outcome.reading, same, result]
      · cases stop with
        | failed failure => exact accounts.admitted _
        | fault broken => trivial
        | unfinished => exact accounts

/-- Cleaning up leaves what is to be accounted for. -/
theorem of_tidies {allowed : Entry → Prop} (tidies : Tidies allowed act other)
    (admitted : ∀ entry, allowed entry → before.Admits entry) :
    Watches before act other fun _ => before := by
  intro state since ⟨recent, log, known⟩
  refine (tidies state).mono ?_ ?_
  · rintro _ after ⟨latest, added, allowed⟩
    refine ⟨latest ++ recent, by rw [added, log, List.append_assoc], fun entry member => ?_⟩
    rcases List.mem_append.mp member with late | early
    · exact admitted entry (allowed entry late)
    · exact known entry early
  · rintro _ after ⟨broken, rfl⟩
    trivial

end Watches

/-- Where nothing is refused, all stays as it was. -/
theorem Tidies.keeps (tidies : Tidies Entry.Granted act other) (before : Fate) :
    Watches before act other fun _ => before :=
  .of_tidies tidies fun _ granted => Entry.Quiet.admitted (Or.inl granted) before

/-- Nothing needs to be accounted for any more once a failure was recorded. -/
theorem Watches.forget {before : Fate} {fate : α → Fate}
    (watches : Watches .recorded act other fate) : Watches before act other fate :=
  fun state since ⟨recent, log, _⟩ => watches state since ⟨recent, log, fun _ _ => trivial⟩

theorem Tidies.records {allowed : Entry → Prop} (tidies : Tidies allowed act other)
    (before : Fate) : Watches before act other fun _ => .recorded :=
  Watches.forget (.of_tidies tidies fun _ _ => trivial)

theorem Tidies.heeds (tidies : Tidies Entry.Granted act other) : Heeds act other :=
  tidies.keeps .fine

end Outcome

end StackMachine
