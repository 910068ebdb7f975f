import StackMachine.Proofs.Evolution.Operations

/-!
# Making objects unless it is denied

Some operations fail only where the tracker refuses an object that they ask for.  `Granted`
says so of a run, and says what holds where it returns; it does not stop in any other way.  The
refusal is the answer to a question that the run itself has put to the tracker, as `Denies` says.
With a tracker that refuses nothing such an operation returns.

`Grows` describes what many of these operations do to the store: objects are made and references
are taken, and whatever was there before is as it was.
-/

namespace StackMachine

open Outcome Store

variable {τ ρ σ α β : Type} [Tracker τ] [Tracker ρ] {tracker middle later : τ} {refusal : Refusal}

/-- Does the question ask for an object, or for the room for a large one? -/
def Query.AsksRoom : Query → Prop
  | .allocate _ | .build _ => True
  | .insert | .free _ | .tick | .enter _ => False

/-- On the way from one tracker to another, an object or the room for a large one was asked for,
and refused for this reason. -/
def Denies (tracker : τ) (refusal : Refusal) (later : τ) : Prop :=
  ∃ query : Query, query.AsksRoom ∧ Answered query (some refusal) tracker later

theorem Denies.of_asked (denies : Denies middle refusal later) (asked : Asked tracker middle) :
    Denies tracker refusal later := by
  obtain ⟨query, room, refused⟩ := denies
  exact ⟨query, room, refused.of_asked asked⟩

theorem Denies.before_asked (denies : Denies tracker refusal middle) (asked : Asked middle later) :
    Denies tracker refusal later := by
  obtain ⟨query, room, refused⟩ := denies
  exact ⟨query, room, refused.before_asked asked⟩

/-- With a watched tracker, the question that was refused is in the log since then. -/
theorem Denies.logged {before after : Watched τ ρ} (denies : Denies before refusal after) :
    ∃ (entry : Entry) (earlier : List Entry), entry.query.AsksRoom ∧
      entry.answer = some refusal ∧ before.log <:+ earlier ∧ entry :: earlier <:+ after.log := by
  obtain ⟨query, room, refused⟩ := denies
  obtain ⟨earlier, echo, since, heard⟩ := refused.logged
  exact ⟨⟨query, some refusal, echo⟩, earlier, room, rfl, since, heard⟩

theorem not_denies_unlimited {later : Unlimited} : ¬ Denies Unlimited.mk refusal later := by
  rintro ⟨query, room, _, _, refused, _⟩
  cases query <;> cases room <;> cases refused

/-- States that hold a tracker. -/
class Tracked (σ : Type) (τ : outParam Type) where
  tracker : σ → τ

instance : Tracked (Store τ) τ :=
  ⟨Store.tracker⟩

variable [Tracked σ τ]

/-- The run returned as said, or it failed because it was denied an object that it asked for. -/
def Granted (tracker : τ) (result : EStateM.Result (Stop Cause) σ α) (returns : α → σ → Prop) :
    Prop :=
  match result with
  | .ok value state => returns value state
  | .error stop state => ∃ refusal, stop = .failed (.refused refusal) ∧
      Denies tracker refusal (Tracked.tracker state)

namespace Granted

variable {result : EStateM.Result (Stop Cause) σ α} {returns : α → σ → Prop}

/-- Where nothing is denied, the run returned. -/
theorem returned (granted : Granted tracker result returns)
    (nothing : ∀ refusal later, ¬ Denies tracker refusal later) :
    ∃ value state, result = .ok value state ∧ returns value state := by
  cases result with
  | ok value state => exact ⟨value, state, rfl, granted⟩
  | error stop state =>
      obtain ⟨refusal, -, denies⟩ := granted
      exact (nothing refusal _ denies).elim

theorem imp {returns' : α → σ → Prop} (granted : Granted tracker result returns)
    (more : ∀ value state, returns value state → returns' value state) :
    Granted tracker result returns' := by
  cases result with
  | ok value state => exact more value state granted
  | error stop state => exact granted

/-- The tracker was asked something before. -/
theorem of_asked (asked : Asked tracker later) (granted : Granted later result returns) :
    Granted tracker result returns := by
  cases result with
  | ok value state => exact granted
  | error stop state =>
      obtain ⟨refusal, stopped, denies⟩ := granted
      exact ⟨refusal, stopped, denies.of_asked asked⟩

/-- One operation after the other. -/
theorem bind {act : EStateM (Stop Cause) σ α} {next : α → EStateM (Stop Cause) σ β} {state : σ}
    {middle : α → σ → Prop} {returns : β → σ → Prop}
    (first : Granted tracker (act state) middle)
    (second : ∀ value state, middle value state → Granted tracker (next value state) returns) :
    Granted tracker ((act >>= next) state) returns := by
  show Granted tracker (EStateM.bind act next state) returns
  unfold EStateM.bind
  cases ran : act state with
  | ok value state =>
      rw [ran] at first
      exact second value state first
  | error stop state =>
      rw [ran] at first
      exact first

theorem map {act : EStateM (Stop Cause) σ α} {function : α → β} {state : σ}
    {returns : β → σ → Prop}
    (granted : Granted tracker (act state) fun value => returns (function value)) :
    Granted tracker ((function <$> act) state) returns := by
  show Granted tracker (EStateM.map function act state) returns
  unfold EStateM.map
  cases ran : act state with
  | ok value state =>
      rw [ran] at granted
      exact granted
  | error stop state =>
      rw [ran] at granted
      exact granted

end Granted

/-! ## Stores that grow -/

namespace Store

variable {store middle after : Store τ} {held inner extra more : List Ref} {ref : Ref}
variable {payload : Payload}

/-- Whatever was there before is as it was. -/
def Retains (before after : Store τ) : Prop :=
  ∀ ref payload, before.payload? ref = some payload → after.payload? ref = some payload

/-- A sound store is left, with `extra` in the hands of the caller, in which whatever was there
before is as it was. -/
structure Grows (before : Store τ) (held inner extra : List Ref) (after : Store τ) : Prop where
  sound : after.Sound (extra ++ held) inner
  retains : before.Retains after
  asked : Asked before.tracker after.tracker

theorem Grows.trans {former secret : List Ref} (earlier : store.Grows former secret extra middle)
    (later : middle.Grows held inner more after) : store.Grows held inner more after where
  sound := later.sound
  retains ref payload found := later.retains ref payload (earlier.retains ref payload found)
  asked := Relation.ReflTransGen.trans earlier.asked later.asked

end Store

namespace StoreM

variable {store : Store τ} {held inner refs : List Ref} {ref : Ref} {payload : Payload}

theorem acquire_grows (sound : store.Sound held inner) (usable : store.Usable ref) :
    ∃ after, acquire ref store = .ok ref after ∧ store.Grows held inner [ref] after := by
  obtain ⟨after, acquired, afterSound, same⟩ := acquire_value sound usable
  exact ⟨after, acquired, afterSound, fun other _ found => (same other).trans found,
    ((acquire_evolves ref).of_ok acquired).asked⟩

theorem acquire_granted (sound : store.Sound held inner) (usable : store.Usable ref) :
    Granted store.tracker (acquire ref store) fun taken after =>
      taken = ref ∧ store.Grows held inner [taken] after := by
  obtain ⟨after, acquired, grown⟩ := acquire_grows sound usable
  rw [acquired]
  exact ⟨rfl, grown⟩

theorem acquireAll_grows (sound : store.Sound held inner)
    (usable : ∀ ref ∈ refs, store.Usable ref) :
    ∃ after, acquireAll refs store = .ok () after ∧ store.Grows held inner refs after := by
  obtain ⟨after, acquired, afterSound, same⟩ := acquireAll_values sound usable
  exact ⟨after, acquired, afterSound, fun other _ found => (same other).trans found,
    ((acquireAll_evolves refs).of_ok acquired).asked⟩

/-- An object that was made is in a slot that was vacant, and nothing else has changed. -/
theorem allocate_retains {after : Store τ} (exact : store.Exact held)
    (made : allocate payload store = .ok ref after) :
    store.payload? ref = none ∧ after.payload? ref = some payload ∧ store.Retains after := by
  have outcome := allocate_outcome payload store
  rw [made] at outcome
  obtain ⟨-, placed⟩ := outcome
  have vacancies : (store.asking (.allocate payload.bytes)).Vacancies :=
    (exact.withTracker _).vacancies
  obtain ⟨-, vacant, cells⟩ := vacancies.place payload
  rw [placed] at vacant cells
  have free : store.payload? ref = none := by
    show (store.asking (.allocate payload.bytes)).payload? ref = none
    rw [payload?, vacant, Option.bind_none]
  refine ⟨free, ?_, ?_⟩
  · rw [payload?, cells, if_pos rfl]
    rfl
  · intro other stored found
    have different : other ≠ ref := by
      rintro rfl
      rw [free] at found
      cases found
    rw [payload?, cells, if_neg different]
    exact found

/-- An object that was not made was asked for. -/
theorem allocate_denied {after : Store τ}
    (failed : allocate payload store = .error (.failed (.refused refusal)) after) :
    Denies store.tracker refusal after.tracker := by
  unfold allocate at failed
  rcases answer : Tracker.allocate payload.bytes store.tracker with ⟨_ | other, tracker⟩
  · rw [answer] at failed
    cases failed
  · rw [answer] at failed
    simp only at failed
    have tidied := drain_tidies payload.children { store with tracker }
    cases drained : drain payload.children { store with tracker } with
    | ok _ final =>
        rw [drained] at failed tidied
        cases failed
        refine ⟨.allocate payload.bytes, trivial, store.tracker, .refl,
          congrArg Prod.fst answer, ?_⟩
        rw [Query.pose, answer]
        exact asked_of_tidyings tidied
    | error stop final =>
        rw [drained] at failed
        cases failed
        exact absurd drained (neverFails_drain payload.children _ _ _)

/-- An object is made of references that the caller gives to it. -/
theorem allocate_granted (sound : store.Sound (payload.children ++ held) inner)
    (makes : store.Makes payload) (plain : Role.value.Allows (some payload.kind)) :
    Granted store.tracker (allocate payload store) fun ref after =>
      store.Grows held inner [ref] after ∧ store.payload? ref = none ∧
        after.payload? ref = some payload := by
  have owing : (roots ++ ((payload.children ++ held) ++ inner)).Perm
      (payload.children ++ (roots ++ (held ++ inner))) := by
    rw [List.append_assoc]
    exact List.perm_append_comm_assoc _ _ _
  rcases allocate_cases sound makes (List.subset_append_right _ _) owing with
    ⟨ref, after, made, valued, -, -, -, -⟩ | ⟨refusal, after, refused, -, -, -⟩
  · obtain ⟨free, found, retains⟩ := allocate_retains sound.exact made
    rw [made]
    have outcome := allocate_outcome payload store
    rw [made] at outcome
    have change : Change (fun _ => True) store _ := .make payload trivial outcome.1
    rw [outcome.2] at change
    exact ⟨⟨valued plain, retains, change.asked⟩, free, found⟩
  · rw [refused]
    exact ⟨refusal, rfl, allocate_denied refused⟩

/-- An operation returns, or it is denied an object and references can be given back. -/
theorem attempt_cases {act : StoreM τ α} {gives : α → List Ref} {returns : α → Store τ → Prop}
    (accounts : Accounts act store (refs ++ held) inner gives)
    (granted : Granted store.tracker (act store) returns) :
    (∃ value after, Outcome.attempt act store = .ok (.ok value) after ∧ returns value after) ∨
      ∃ refusal after final, Outcome.attempt act store = .ok (.error (.refused refusal)) after ∧
        releaseAll refs after = .ok () final ∧
        Denies store.tracker refusal final.tracker := by
  unfold Accounts at accounts
  unfold Outcome.attempt
  cases ran : act store with
  | ok value after =>
      rw [ran] at granted
      exact .inl ⟨value, after, rfl, granted⟩
  | error stop after =>
      rw [ran] at granted accounts
      obtain ⟨refusal, rfl, denies⟩ := granted
      have left : after.Sound (refs ++ held) inner := accounts.sound
      obtain ⟨final, released, -, -⟩ := releaseAll_sound left
      have asked := ((releaseAll_evolves refs).of_ok released).asked
      exact .inr ⟨refusal, after, final, rfl, released, denies.before_asked asked⟩

theorem orRelease_granted {act : StoreM τ α} {gives : α → List Ref} {returns : α → Store τ → Prop}
    (accounts : Accounts act store (refs ++ held) inner gives)
    (granted : Granted store.tracker (act store) returns) :
    Granted store.tracker (orRelease refs act store) returns := by
  unfold orRelease
  rcases attempt_cases accounts granted with
    ⟨value, after, ran, returned⟩ | ⟨refusal, after, final, failed, released, denies⟩
  · rw [bind_ok ran]
    exact returned
  · rw [bind_ok failed]
    show Granted _ ((releaseAll refs >>= fun _ => raise (.refused refusal)) after) returns
    rw [bind_ok released]
    exact ⟨refusal, rfl, denies⟩

end StoreM

end StackMachine
