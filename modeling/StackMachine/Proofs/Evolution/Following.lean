import StackMachine.Proofs.Evolution.Advancing
import StackMachine.Proofs.Machine.Readiness

/-!
# What operations tell, and how far they get

`Follows` says of an operation that it tells a tracer the same events whatever tracer that is,
and does the same otherwise; and that the state before, the events and the state after stand
in a relation wherever it returns or fails, and in another one where it stops without an
answer.  A `Course` is a pair of such relations that go on where the other leaves off.

There is one rule for each way in which operations are put together.
-/

namespace StackMachine

/-- States in which somebody is told events. -/
class Traced (σ : Type) where
  /-- Who is told. -/
  tracer : σ → Tracer
  /-- The same state, with another tracer. -/
  retrace : Tracer → σ → σ
  tracer_retrace : ∀ told state, tracer (retrace told state) = told
  retrace_retrace : ∀ told other state, retrace told (retrace other state) = retrace told state
  retrace_tracer : ∀ state, retrace (tracer state) state = state

open Traced

/-- The same outcome, with another tracer. -/
def retraced {ε σ α : Type} [Traced σ] (tracer : Tracer) :
    EStateM.Result ε σ α → EStateM.Result ε σ α
  | .ok value state => .ok value (retrace tracer state)
  | .error stop state => .error stop (retrace tracer state)

/-- Whoever is told, the operation tells some events and does the same otherwise. -/
def Tells {ε σ α : Type} [Traced σ] (act : EStateM ε σ α) (before : σ) (events : List Event) :
    Prop :=
  ∀ tracer, act (retrace tracer before) = retraced (tracer.observeAll events) (act before)

namespace Tells

variable {ε φ σ α β : Type} [Traced σ] {before middle after : σ}
variable {events more : List Event} {value : α}

theorem bind_ok {act : EStateM ε σ α} {next : α → EStateM ε σ β} (tells : Tells act before events)
    (ran : act before = .ok value middle) (later : Tells (next value) middle more) :
    Tells (act >>= next) before (events ++ more) := by
  intro tracer
  have told := tells tracer
  rw [ran] at told
  show EStateM.bind act next (retrace tracer before) = retraced _ (EStateM.bind act next before)
  simp only [EStateM.bind, ran, told, retraced]
  rw [Tracer.observeAll_append]
  exact later _

theorem bind_error {act : EStateM ε σ α} {next : α → EStateM ε σ β} {stop : ε}
    (tells : Tells act before events) (ran : act before = .error stop after) :
    Tells (act >>= next) before events := by
  intro tracer
  have told := tells tracer
  rw [ran] at told
  show EStateM.bind act next (retrace tracer before) = retraced _ (EStateM.bind act next before)
  simp only [EStateM.bind, ran, told, retraced]

theorem attempt {act : EStateM (Stop φ) σ α} (tells : Tells act before events) :
    Tells (Outcome.attempt act) before events := by
  intro tracer
  simp only [Outcome.attempt, tells tracer]
  cases act before with
  | ok value after => rfl
  | error stop after => cases stop <;> rfl

end Tells

/-- Where operations get to, and what they tell on the way.  `goes` is for those that return
or fail, `halts` for those that stop without an answer. -/
structure Course (σ : Type) where
  goes : σ → List Event → σ → Prop
  halts : σ → List Event → σ → Prop
  refl : ∀ state, goes state [] state
  trans : ∀ {first second third events more}, goes first events second →
    goes second more third → goes first (events ++ more) third
  halts_after : ∀ {first second third events more}, goes first events second →
    halts second more third → halts first (events ++ more) third

namespace Course

variable {σ φ α β : Type} (course : Course σ) {before : σ} {events more : List Event}

/-- An operation has got where the course leads. -/
def Leads (before : σ) (events : List Event) (result : EStateM.Result (Stop φ) σ α) : Prop :=
  match result with
  | .ok _ after => course.goes before events after
  | .error (.failed _) after => course.goes before events after
  | .error (.fault _) _ => True
  | .error .unfinished after => course.halts before events after

/-- The operation tells every tracer the same, and gets where the course leads. -/
def Follows [Traced σ] (act : EStateM (Stop φ) σ α) : Prop :=
  ∀ before, ∃ events, (∀ tracer, act (retrace tracer before) =
    retraced (tracer.observeAll events) (act before)) ∧ course.Leads before events (act before)

/-- It does so from one state. -/
def FollowsAt [Traced σ] (act : EStateM (Stop φ) σ α) (before : σ) : Prop :=
  ∃ events, Tells act before events ∧ course.Leads before events (act before)

variable {course}

theorem Leads.head {middle : σ} {result : EStateM.Result (Stop φ) σ α}
    (earlier : course.goes before events middle) (later : course.Leads middle more result) :
    course.Leads before (events ++ more) result := by
  cases result with
  | ok value after => exact course.trans earlier later
  | error stop after =>
      cases stop with
      | failed failure => exact course.trans earlier later
      | fault broken => trivial
      | unfinished => exact course.halts_after earlier later

/-- What holds wherever the course goes holds where the operation returned or failed. -/
theorem Leads.lands {holds : σ → Prop} {result : EStateM.Result (Stop φ) σ α}
    (led : course.Leads before events result)
    (known : ∀ after, course.goes before events after → holds after) :
    Outcome.Lands holds result := by
  cases result with
  | ok value after => exact known after led
  | error stop after =>
      cases stop with
      | failed failure => exact known after led
      | fault broken => trivial
      | unfinished => trivial

namespace FollowsAt

variable [Traced σ] {act : EStateM (Stop φ) σ α} {next : α → EStateM (Stop φ) σ β}

/-- What comes next starts where the first operation has returned. -/
theorem bind (first : course.FollowsAt act before) (second : ∀ value middle,
    act before = .ok value middle → course.FollowsAt (next value) middle) :
    course.FollowsAt (act >>= next) before := by
  obtain ⟨events, tells, led⟩ := first
  cases ran : act before with
  | ok value middle =>
      rw [ran] at led
      obtain ⟨more, later, went⟩ := second value middle ran
      refine ⟨events ++ more, tells.bind_ok ran later, ?_⟩
      show course.Leads before _ (EStateM.bind act next before)
      rw [EStateM.bind, ran]
      exact went.head led
  | error stop after =>
      rw [ran] at led
      refine ⟨events, tells.bind_error ran, ?_⟩
      show course.Leads before _ (EStateM.bind act next before)
      rw [EStateM.bind, ran]
      cases stop <;> exact led

theorem attempt (follows : course.FollowsAt act before) :
    course.FollowsAt (Outcome.attempt act) before := by
  obtain ⟨events, tells, led⟩ := follows
  refine ⟨events, tells.attempt, ?_⟩
  rw [Outcome.attempt]
  cases ran : act before with
  | ok value after =>
      rw [ran] at led
      exact led
  | error stop after =>
      rw [ran] at led
      cases stop <;> exact led

/-- What is done may depend on the state, but not on its tracer. -/
theorem get_bind {next : σ → EStateM (Stop φ) σ β}
    (same : ∀ tracer state, next (retrace tracer state) = next state)
    (rest : course.FollowsAt (next before) before) : course.FollowsAt (get >>= next) before := by
  obtain ⟨events, alike, led⟩ := rest
  refine ⟨events, fun tracer => ?_, led⟩
  show next (retrace tracer before) (retrace tracer before) = _
  rw [same]
  exact alike tracer

end FollowsAt

namespace Follows

variable [Traced σ] {act : EStateM (Stop φ) σ α} {next : α → EStateM (Stop φ) σ β}

theorem lands {holds : σ → Prop} (follows : course.Follows act)
    (known : ∀ events after, course.goes before events after → holds after) :
    Outcome.Lands holds (act before) := by
  obtain ⟨events, -, led⟩ := follows before
  exact led.lands (known events)

theorem pure (value : α) : course.Follows (pure value : EStateM (Stop φ) σ α) :=
  fun before => ⟨[], fun _ => rfl, course.refl before⟩

theorem fault (broken : Fault) : course.Follows (throw (.fault broken) : EStateM (Stop φ) σ α) :=
  fun _ => ⟨[], fun _ => rfl, trivial⟩

theorem throw (failure : φ) : course.Follows (throw (.failed failure) : EStateM (Stop φ) σ α) :=
  fun before => ⟨[], fun _ => rfl, course.refl before⟩

theorem settle (result : Except φ α) : course.Follows (Outcome.settle result) := by
  cases result with
  | ok value => exact pure value
  | error failure => exact throw failure

theorem bind (first : course.Follows act) (second : ∀ value, course.Follows (next value)) :
    course.Follows (act >>= next) :=
  fun before => FollowsAt.bind (first before) fun value middle _ => second value middle

theorem map (follows : course.Follows act) (function : α → β) :
    course.Follows (function <$> act) := by
  have mapped : (function <$> act) = act >>= fun value => Pure.pure (function value) := rfl
  rw [mapped]
  exact follows.bind fun value => pure (function value)

theorem attempt (follows : course.Follows act) : course.Follows (Outcome.attempt act) :=
  fun before => FollowsAt.attempt (follows before)

theorem get_bind {next : σ → EStateM (Stop φ) σ β}
    (same : ∀ tracer state, next (retrace tracer state) = next state)
    (rest : ∀ state, course.Follows (next state)) : course.Follows (get >>= next) :=
  fun before => FollowsAt.get_bind same (rest before before)

theorem modify {change : σ → σ}
    (same : ∀ tracer state, change (retrace tracer state) = retrace tracer (change state))
    (goes : ∀ state, course.goes state [] (change state)) :
    course.Follows (modify change : EStateM (Stop φ) σ PUnit) := by
  intro before
  refine ⟨[], fun tracer => ?_, goes before⟩
  show EStateM.Result.ok _ (change (retrace tracer before)) = _
  rw [same]
  rfl

theorem ite {condition : Prop} [Decidable condition] {other : EStateM (Stop φ) σ α}
    (holds : condition → course.Follows act) (fails : ¬ condition → course.Follows other) :
    course.Follows (if condition then act else other) := by
  split
  case isTrue true => exact holds true
  case isFalse false => exact fails false

end Follows

end Course

/-! ## What is told, whoever is told -/

section Telling

variable {σ φ α : Type} [Traced σ] {act : EStateM (Stop φ) σ α} {before after : σ}
variable {events : List Event} {value : α} {course : Course σ}

/-- Whoever is told, the operation returns, and tells some events. -/
def Returns (act : EStateM (Stop φ) σ α) (before : σ) (events : List Event) (value : α)
    (after : σ) : Prop :=
  ∀ tracer, act (retrace tracer before) = .ok value (retrace (tracer.observeAll events) after)

/-- Whoever is told, the operation stops without an answer, and tells some events. -/
def Halts (act : EStateM (Stop φ) σ α) (before : σ) (events : List Event) (after : σ) : Prop :=
  ∀ tracer, act (retrace tracer before) =
    .error .unfinished (retrace (tracer.observeAll events) after)

/-- A recording that keeps everything. -/
def recorder (events : List Event) : Tracer :=
  .recording ⟨none, events.toArray⟩

theorem observeAll_recorder (first second : List Event) :
    (recorder first).observeAll second = recorder (first ++ second) := by
  induction second generalizing first with
  | nil => simp [Tracer.observeAll]
  | cons event rest ih =>
      have told : (recorder first).observe (fun _ => event) = recorder (first ++ [event]) := by
        simp [recorder, Tracer.observe, Recording.observe, Recording.hasRoom]
      show ((recorder first).observe fun _ => event).observeAll rest = _
      rw [told, ih]
      simp

/-- What a recording was told can be read off it. -/
theorem events_eq_of_recorder {first second : List Event}
    (same : (recorder []).observeAll first = (recorder []).observeAll second) : first = second := by
  rw [observeAll_recorder, observeAll_recorder] at same
  simpa [recorder] using same

/-- Two states that are the same once they have the tracers that recorded some events. -/
theorem retrace_inj {other : σ} {more : List Event}
    (same : retrace ((recorder []).observeAll events) before =
      retrace ((recorder []).observeAll more) other) :
    events = more ∧ before = retrace (tracer before) other := by
  have told := congrArg tracer same
  rw [tracer_retrace, tracer_retrace] at told
  refine ⟨events_eq_of_recorder told, ?_⟩
  have again := congrArg (retrace (tracer before)) same
  rwa [retrace_retrace, retrace_retrace, retrace_tracer] at again

/-- Who was told in the end. -/
def toldIn : EStateM.Result (Stop φ) σ α → Tracer
  | .ok _ state => tracer state
  | .error _ state => tracer state

theorem toldIn_retraced (told : Tracer) (result : EStateM.Result (Stop φ) σ α) :
    toldIn (retraced told result) = told := by
  cases result <;> exact tracer_retrace told _

namespace Tells

/-- Operations that do the same where they are told to a recording tell the same. -/
theorem eq_of_same {other : EStateM (Stop φ) σ α} {more : List Event} {first : σ}
    {earlier : List Event} (tells : Tells act before events) (told : Tells other first more)
    (same : act (retrace (recorder []) before) = other (retrace (recorder earlier) first)) :
    events = earlier ++ more := by
  rw [tells (recorder []), told (recorder earlier), observeAll_recorder, observeAll_recorder,
    List.nil_append] at same
  have tracers := congrArg toldIn same
  rw [toldIn_retraced, toldIn_retraced] at tracers
  simpa [recorder] using tracers

/-- A recording has recorded what was told. -/
theorem recorded {more : List Event} (tells : Tells act before events)
    (told : toldIn (act (retrace (recorder []) before)) = recorder more) : events = more := by
  rw [tells (recorder []), toldIn_retraced, observeAll_recorder] at told
  simpa [recorder] using told

theorem unique {more : List Event} (tells : Tells act before events)
    (told : Tells act before more) : events = more :=
  tells.eq_of_same told rfl

/-- What two operations tell, one after the other, is told by the first or by the second. -/
theorem of_bind {β : Type} {next : α → EStateM (Stop φ) σ β} {course course' : Course σ}
    (tells : Tells (act >>= next) before events) (first : course.FollowsAt act before)
    (second : ∀ value middle, act before = .ok value middle →
      course'.FollowsAt (next value) middle) :
    ∃ own, Tells act before own ∧ match act before with
      | .ok value middle => ∃ more, Tells (next value) middle more ∧ events = own ++ more
      | .error _ _ => events = own := by
  obtain ⟨own, told, -⟩ := first
  refine ⟨own, told, ?_⟩
  cases ran : act before with
  | ok value middle =>
      obtain ⟨more, later, -⟩ := second value middle ran
      exact ⟨more, later, tells.unique (told.bind_ok ran later)⟩
  | error stop after => exact tells.unique (told.bind_error ran)

theorem of_attempt {course : Course σ} (tells : Tells (Outcome.attempt act) before events)
    (follows : course.FollowsAt act before) : Tells act before events := by
  obtain ⟨own, told, -⟩ := follows
  exact tells.unique told.attempt ▸ told

theorem returns (tells : Tells act before events) (ran : act before = .ok value after) :
    Returns act before events value after := by
  intro tracer
  rw [tells tracer, ran]
  rfl

/-- An operation that stops without an answer where a recording is told has recorded all it
tells. -/
theorem halts (tells : Tells act before events)
    (halted : act (retrace (recorder []) before) = .error .unfinished after) :
    Halts act before events after ∧ after = retrace (recorder events) after := by
  have told := tells (recorder [])
  rw [halted, observeAll_recorder, List.nil_append] at told
  cases ran : act before with
  | ok value final =>
      rw [ran] at told
      cases told
  | error stop final =>
      rw [ran] at told
      obtain ⟨rfl, rfl⟩ := EStateM.Result.error.inj told
      refine ⟨fun tracer => ?_, (retrace_retrace _ _ _).symm⟩
      rw [tells, ran, retrace_retrace]
      rfl

/-- What is told leads where the operation does. -/
theorem leads {course : Course σ} (tells : Tells act before events)
    (follows : course.FollowsAt act before) : course.Leads before events (act before) := by
  obtain ⟨more, told, led⟩ := follows
  exact tells.unique told ▸ led

end Tells

/-- An operation that returns gets where its course leads. -/
theorem Returns.goes (returns : Returns act before events value after)
    (follows : course.Follows act) : ∃ told, course.goes before events (retrace told after) := by
  obtain ⟨more, same, led⟩ := follows before
  have ran := (same (recorder [])).symm.trans (returns (recorder []))
  cases result : act before with
  | error stop final =>
      rw [result] at ran
      cases ran
  | ok other final =>
      rw [result] at ran led
      injection ran with _ states
      obtain ⟨rfl, final_eq⟩ := retrace_inj states
      exact ⟨_, final_eq ▸ led⟩

/-- An operation that stops without an answer gets where its course leads. -/
theorem Halts.halts (halts : Halts act before events after) (follows : course.Follows act) :
    ∃ told, course.halts before events (retrace told after) := by
  obtain ⟨more, same, led⟩ := follows before
  have ran := (same (recorder [])).symm.trans (halts (recorder []))
  cases result : act before with
  | ok value final =>
      rw [result] at ran
      cases ran
  | error stop final =>
      rw [result] at ran led
      injection ran with stopped states
      obtain ⟨rfl, final_eq⟩ := retrace_inj states
      subst stopped
      exact ⟨_, final_eq ▸ led⟩

theorem Course.Follows.tells (follows : course.Follows act) (before : σ) :
    ∃ events, Tells act before events := by
  obtain ⟨events, tells, -⟩ := follows before
  exact ⟨events, tells⟩

/-- An operation that follows a course and returns tells everybody the same. -/
theorem Course.Follows.returns (follows : course.Follows act) (ran : act before = .ok value after) :
    ∃ events, Returns act before events value after ∧ course.goes before events after := by
  obtain ⟨events, same, led⟩ := follows before
  rw [ran] at same led
  exact ⟨events, same, led⟩

/-- So does one that follows a course and stops without an answer. -/
theorem Course.Follows.stops (follows : course.Follows act)
    (ran : act before = .error .unfinished after) :
    ∃ events, Halts act before events after ∧ course.halts before events after := by
  obtain ⟨events, same, led⟩ := follows before
  rw [ran] at same led
  exact ⟨events, same, led⟩

/-- Whoever was told before. -/
theorem Returns.ran (returns : Returns act before events value after) :
    act before = .ok value (retrace ((tracer before).observeAll events) after) := by
  have ran := returns (tracer before)
  rwa [retrace_tracer] at ran

theorem Halts.ran (halts : Halts act before events after) :
    act before = .error .unfinished (retrace ((tracer before).observeAll events) after) := by
  have ran := halts (tracer before)
  rwa [retrace_tracer] at ran

end Telling

end StackMachine
