import StackMachine.Proofs.Session.Attained
import StackMachine.Proofs.Store.Constructing

/-!
# Building values, images and modules in every state that is attained

Whatever the tracker says, and whichever part of a value, an image or a module cannot be made, the
store has the objects that it had before, with the same counts.  A value or an image that was built
is gone when the one reference to it is given back.
-/

namespace StackMachine

open Store StoreM Outcome

variable {τ φ : Type} [Tracker τ]

namespace Store

variable {store : Store τ} {held inner : List Ref}

/-- Giving a reference back leaves the objects that there were before. -/
def GivenBack (before : Store τ) (ref : Ref) (after : Store τ) : Prop :=
  ∃ released, (releaseAll [ref] : StoreM τ Unit) after = .ok () released ∧
    SameObjects (fun _ => False) before released

/-- Nothing is left of what cannot be built, and of what was built only what one reference leads
to.  The table of modules may have been rebuilt for a module, and has the same entries then. -/
structure BuildsNeutrally (store : Store τ) : Prop where
  values : ∀ object, Ends (ofObject object store) store.GivenBack
    fun _ => SameObjects (fun _ => False) store
  images : ∀ image, Ends (loadImage image store) store.GivenBack
    fun _ => SameObjects (fun _ => False) store
  modules : ∀ name, Ends (registerModule name store) (fun _ _ => True)
    fun _ => SameObjects (· = .modules) store
  imports : ∀ name, Ends (importModule name store) (fun _ _ => True)
    fun _ => SameObjects (· = .modules) store

/-- What does not break a promise and reverts builds neutrally. -/
theorem Sound.ends_reverting {act : EStateM (Stop φ) (Store τ) Ref} (sound : store.Sound held inner)
    (accounts : Accounts act store held inner fun ref => [ref])
    (reverts : ∀ point : Checkpoint τ, point.Reverts act [] fun ref => [ref]) :
    Ends (act store) store.GivenBack fun _ => SameObjects (fun _ => False) store := by
  have owes : Checkpoint.Owes ⟨fun _ => False, store, roots ++ (held ++ inner)⟩ [] store :=
    .refl sound.exact sound.tables
  have reverts := reverts ⟨fun _ => False, store, roots ++ (held ++ inner)⟩
  cases ran : act store with
  | ok ref after =>
      have owed := reverts.returns [] store ref after owes ran
      obtain ⟨released, drained, left⟩ := owed.give_back
      exact ⟨released, drained, left.sameObjects⟩
  | error stop after =>
      rw [Accounts, ran] at accounts
      cases stop with
      | failed failure => exact (reverts.fails [] store failure after owes ran).sameObjects
      | fault broken => exact accounts
      | unfinished => trivial

omit [Tracker τ] in
/-- The same where it is the table of modules that changes. -/
theorem Sound.ends_aborting {act : StoreM τ Ref} (sound : store.Sound held inner)
    (accounts : Accounts act store held inner fun ref => [ref])
    (aborts : ∀ point : Checkpoint τ, point.loose .modules → point.Aborts act []) :
    Ends (act store) (fun _ _ => True) fun _ => SameObjects (· = .modules) store := by
  have owes : Checkpoint.Owes ⟨(· = .modules), store, roots ++ (held ++ inner)⟩ [] store :=
    .refl sound.exact sound.tables
  have aborts := aborts ⟨(· = .modules), store, roots ++ (held ++ inner)⟩ rfl
  cases ran : act store with
  | ok ref after => trivial
  | error stop after =>
      rw [Accounts, ran] at accounts
      cases stop with
      | failed failure => exact (aborts [] store failure after owes ran).sameObjects
      | fault broken => exact accounts
      | unfinished => trivial

theorem Sound.buildsNeutrally (sound : store.Sound held inner) : store.BuildsNeutrally where
  values object := sound.ends_reverting (ofObject_accounts object sound) fun _ => .ofObject object
  images image := sound.ends_reverting (loadImage_accounts image sound) fun _ => .loadImage image
  modules name := sound.ends_aborting (registerModule_accounts sound name) fun _ loose =>
    .registerModule loose name
  imports name := sound.ends_aborting (importModule_accounts sound name) fun _ loose =>
    .importModule loose name

end Store

namespace Session

variable {session : Session τ} {lost : List Ref} {log : List Event} {initial : τ}

/-- Whatever was run and asked for, and whatever state the tracker is in. -/
theorem constructions_revert (attained : session.Attained initial lost log) (tracker : τ) :
    ({ session.machine.store with tracker } : Store τ).BuildsNeutrally := by
  obtain ⟨held, ready, -⟩ := attained.ready
  exact (ready.sound.withTracker tracker).buildsNeutrally

/-- There is room for two more objects: neither a nested value nor the module `math` can be
made. -/
theorem constructions_revert_refused :
    let limits : Limits := ⟨none, some 3, none, none, none⟩
    let session := (Session.start (Meter.start limits ⟨0, 0⟩) .off).next 0 (.dict "names")
    let store := session.machine.store
    (∃ after, ofObject (.list [.int 1, .dict [("key", .int 2), ("other", .none)]]) store =
        .error (.failed (.raised (.refused (.allocation 3 4)))) after ∧
      SameObjects (fun _ => False) store after) ∧
    ∃ after, importModule mathName store = .error (.failed (.refused (.allocation 3 4))) after ∧
      SameObjects (· = .modules) store after := by
  intro limits session store
  obtain ⟨_, bound⟩ : ∃ events, session.Logged (Meter.start limits ⟨0, 0⟩) [] events :=
    (Logged.start .off).next (by decide +kernel)
  have neutral : store.BuildsNeutrally := constructions_revert (.rest bound) store.tracker
  constructor
  case left =>
    have value := neutral.values (.list [.int 1, .dict [("key", .int 2), ("other", .none)]])
    have refused :
        stop? (ofObject (.list [.int 1, .dict [("key", .int 2), ("other", .none)]]) store) =
          some (.failed (.raised (.refused (.allocation 3 4)))) := by
      simp only [store, session, limits]
      decide +kernel
    obtain ⟨after, ran⟩ := stop?_eq_some_iff.mp refused
    rw [ran] at value
    exact ⟨after, ran, value⟩
  case right =>
    have math := neutral.imports mathName
    have refused : stop? (importModule mathName store) =
        some (.failed (.refused (.allocation 3 4))) := by
      simp only [store, session, limits]
      decide +kernel
    obtain ⟨after, ran⟩ := stop?_eq_some_iff.mp refused
    rw [ran] at math
    exact ⟨after, ran, math⟩

end Session

end StackMachine
