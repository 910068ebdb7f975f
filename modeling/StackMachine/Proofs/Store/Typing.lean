import StackMachine.Proofs.Evolution.Changes
import StackMachine.Proofs.Machine.Tracebacks

/-!
# Objects of the right kind

The references in an object are plain slots of the store, and slots are used again and again.
Yet each of them leads to an object of the kind that it has to be: `Typed` lists which.  What
is in a slot keeps its kind until it is freed: where another object is found there later, the
tracker was told that the first was freed, and granted the other afterwards.

That is why an operation that would refuse an object of another kind as a bad call never has
to, where it follows a reference of this sort: `Avoids` says that an operation does not fail
for a reason.
-/

namespace StackMachine

open Relation

/-! ## Failures that do not occur -/

namespace Outcome

variable {φ σ α β : Type} {avoided : φ} {before : σ} {act : EStateM (Stop φ) σ α}
variable {next : α → EStateM (Stop φ) σ β}

/-- The operation did not fail for the reason given. -/
def Avoids (avoided : φ) (result : EStateM.Result (Stop φ) σ α) : Prop :=
  ∀ after, result ≠ .error (.failed avoided) after

namespace Avoids

theorem of_neverFails (never : NeverFails act) : Avoids avoided (act before) :=
  fun after => never before avoided after

theorem pure (value : α) : Avoids avoided ((pure value : EStateM (Stop φ) σ α) before) :=
  of_neverFails (.pure value)

theorem throw {failure : φ} (other : failure ≠ avoided) :
    Avoids avoided ((throw (.failed failure) : EStateM (Stop φ) σ α) before) := by
  intro after failed
  cases failed
  exact other rfl

theorem bind (first : Avoids avoided (act before))
    (second : ∀ value after, act before = .ok value after → Avoids avoided (next value after)) :
    Avoids avoided ((act >>= next) before) := by
  intro final failed
  change EStateM.bind act next before = _ at failed
  unfold EStateM.bind at failed
  cases ran : act before with
  | ok value after =>
      rw [ran] at failed
      exact second value after ran final failed
  | error stop after =>
      rw [ran] at failed
      cases failed
      exact first _ ran

theorem settle {result : Except φ α} (other : result ≠ .error avoided) :
    Avoids avoided ((Outcome.settle result : EStateM (Stop φ) σ α) before) := by
  cases result with
  | ok value => exact pure value
  | error failure => exact throw fun same => other (same ▸ rfl)

/-- What was attempted is settled as it went. -/
theorem attempt_bind (avoids : Avoids avoided (act before))
    {next : Except φ α → EStateM (Stop φ) σ β}
    (rest : ∀ result after, result ≠ .error avoided → Avoids avoided (next result after)) :
    Avoids avoided ((attempt act >>= next) before) := by
  refine bind (of_neverFails (neverFails_attempt act)) fun result after ran => rest result after ?_
  rintro rfl
  unfold attempt at ran
  split at ran
  · cases ran
  · rename_i failed
    cases ran
    exact avoids after failed
  · cases ran
  · cases ran

end Avoids

end Outcome

open Outcome

/-! ## Tables -/

namespace Table

variable {α τ : Type} [Tracker τ] {table : Table α} {tracker : τ} {entries : List (Bytes × α)}

theorem occupyAll_ne_badCall : occupyAll entries table ≠ .error (.failed .badCall) := by
  induction entries generalizing table with
  | nil => simp [occupyAll]
  | cons entry rest ih =>
      unfold occupyAll
      split
      · exact ih
      · exact ih
      · simp
      · simp

theorem makeRoom_ne_badCall : table.makeRoom tracker ≠ .error (.failed .badCall) := by
  have rebuilt : table.rebuild tracker ≠ .error (.failed .badCall) := by
    unfold rebuild
    split
    · simp
    · split
      · simp
      · exact occupyAll_ne_badCall
  unfold makeRoom
  split
  · split
    · rename_i cause found
      split
      · simp only [ne_eq, Except.error.injEq, Stop.failed.injEq]
        rintro rfl
        exact rebuilt found
      · simp
    · exact rebuilt
  · simp

/-- No key is refused for its kind. -/
theorem insert_ne_badCall (key : Bytes) (value : α) :
    (table.insert tracker key value).1 ≠ .error (.failed .badCall) := by
  unfold insert
  simp only
  split
  · rename_i stop found
    simp only [ne_eq, Except.error.injEq]
    rintro rfl
    exact makeRoom_ne_badCall found
  · split
    · simp
    · simp
    · simp
    · split <;> simp

end Table

namespace Store

variable {τ : Type} {store before after : Store τ} {ref : Ref} {held inner : List Ref}

/-! ## Kinds of parts -/

/-- Every reference in an object leads to an object of the kind that it has to be, and the
first slot is the only one that holds `none`. -/
structure Typed (store : Store τ) : Prop where
  module : ∀ {ref title attrs}, store.payload? ref = some (.module title attrs) →
    store.kind? title = some .string ∧ store.kind? attrs = some .dictionary
  class_ : ∀ {ref attrs}, store.payload? ref = some (.class_ attrs) →
    store.kind? attrs = some .dictionary
  member : ∀ {ref owner attrs}, store.payload? ref = some (.member owner attrs) →
    store.kind? owner = some .class_ ∧ store.kind? attrs = some .dictionary
  function : ∀ {ref code globals}, store.payload? ref = some (.function code globals) →
    store.kind? code = some .code ∧ store.kind? globals = some .dictionary
  method : ∀ {ref function self}, store.payload? ref = some (.method function self) →
    store.kind? function = some .function ∧ store.kind? self = some .classMember
  frame : ∀ {ref back code globals locals},
    store.payload? ref = some (.frame back code globals locals) →
    store.kind? code = some .code ∧ store.kind? globals = some .dictionary ∧
      store.kind? locals = some .dictionary ∧ ∀ caller ∈ back, store.kind? caller = some .frame
  traceback : ∀ {ref next frame line},
    store.payload? ref = some (.traceback next frame line) →
    store.kind? frame = some .frame ∧ ∀ entry ∈ next, store.kind? entry = some .traceback
  none : ∀ ref, store.kind? ref = some .none ↔ ref = .noneObject

theorem Sound.typed (sound : store.Sound held inner) : store.Typed := by
  have part {ref child : Ref} {payload : Payload} {kind : Kind}
      (found : store.payload? ref = some payload) (role : (child, Role.of kind) ∈ payload.roles) :
      store.kind? child = some kind :=
    (sound.fits ref payload found child _ role).allowed
  constructor
  case module =>
    intro ref title attrs found
    exact ⟨part found (by simp [Payload.roles]), part found (by simp [Payload.roles])⟩
  case class_ => exact fun found => part found (by simp [Payload.roles])
  case member =>
    intro ref owner attrs found
    exact ⟨part found (by simp [Payload.roles]), part found (by simp [Payload.roles])⟩
  case function =>
    intro ref code globals found
    exact ⟨part found (by simp [Payload.roles]), part found (by simp [Payload.roles])⟩
  case method =>
    intro ref function self found
    exact ⟨part found (by simp [Payload.roles]), part found (by simp [Payload.roles])⟩
  case frame =>
    intro ref back code globals locals found
    refine ⟨part found (by simp [Payload.roles]), part found (by simp [Payload.roles]),
      part found (by simp [Payload.roles]), fun caller called => part found ?_⟩
    exact List.mem_append_left _ (List.mem_map.mpr ⟨caller, Option.mem_toList.mpr called, rfl⟩)
  case traceback =>
    intro ref next frame line found
    refine ⟨part found (by simp [Payload.roles]), fun entry follows => part found ?_⟩
    exact List.mem_append_left _ (List.mem_map.mpr ⟨entry, Option.mem_toList.mpr follows, rfl⟩)
  case none =>
    intro ref
    constructor
    · intro isNone
      obtain ⟨payload, found, kind⟩ := Option.map_eq_some_iff.mp isNone
      cases payload with
      | none => exact sound.lone_none ref found
      | _ => cases kind
    · rintro rfl
      have found := sound.originals .noneObject (by decide) (by decide)
      exact kind?_eq (found.trans rfl)

/-! ## Showing modules and tracebacks -/

/-- A module is shown by its name. -/
theorem Typed.showLeaf_module (typed : store.Typed) {title attrs : Ref}
    (found : store.payload? ref = some (.module title attrs)) :
    ∃ bytes, store.payload? title = some (.string bytes) ∧
      store.toObject ref = .ok (.module bytes.toText) := by
  obtain ⟨payload, there, kind⟩ := Option.map_eq_some_iff.mp (typed.module found).1
  cases payload with
  | string bytes =>
      refine ⟨bytes, there, ?_⟩
      have shown : store.showLeaf (.module title attrs) = .ok (.module bytes.toText) := by
        show (store.get title >>= _) = _
        rw [get_eq_ok_iff.mpr there]
        rfl
      unfold toObject toObjectWithin
      rw [get_eq_ok_iff.mpr found]
      exact shown
  | _ => cases kind

/-- An entry of a traceback names the file of the code of its frame. -/
theorem Typed.frameFile (typed : store.Typed) {next : Option Ref} {frame : Ref} {line : Nat}
    (found : store.payload? ref = some (.traceback next frame line)) :
    ∃ back code globals locals object,
      store.payload? frame = some (.frame back code globals locals) ∧
      store.payload? code = some (.code object) ∧ store.frameFile frame = .ok object.file := by
  obtain ⟨payload, framed, kind⟩ := Option.map_eq_some_iff.mp (typed.traceback found).1
  cases payload with
  | frame back code globals locals =>
      obtain ⟨content, coded, kind'⟩ := Option.map_eq_some_iff.mp (typed.frame framed).1
      cases content with
      | code object =>
          exact ⟨back, code, globals, locals, object, framed, coded, Chain.frameFile framed coded⟩
      | _ => cases kind'
  | _ => cases kind

/-! ## Slots as time goes on -/

variable [Tracker τ] {old new payload : Payload} {allowed : Payload → Prop}

theorem Tidying.payload?_cases (tidying : Tidying before after)
    (found : before.payload? ref = some payload) :
    after.payload? ref = some payload ∨ after.payload? ref = none ∧
      Answered (.free payload.bytes) none before.tracker after.tracker := by
  cases tidying with
  | ask query idle => exact .inl found
  | @recount other cell present count =>
      rw [payload?, cell?_setCell (index_lt_of_cell? present)]
      split
      · rename_i same
        rw [same, payload?_eq present] at found
        exact .inl found
      · exact .inl found
  | @vacate other cell present last =>
      have cells : (before.vacate other cell.payload).payload? ref =
          (before.setCell other none).payload? ref := rfl
      rw [cells, payload?, cell?_setCell (index_lt_of_cell? present)]
      split
      · rename_i same
        rw [same, payload?_eq present] at found
        rw [found]
        exact .inr ⟨rfl, answered_once (.free payload.bytes) before.tracker⟩
      · exact .inl found

omit [Tracker τ] in
/-- Nothing is put into a slot. -/
theorem payload?_of_remains (remains : after.Remains before)
    (found : after.payload? ref = some payload) : before.payload? ref = some payload := by
  obtain ⟨count, stored⟩ := cell?_of_payload? found
  exact remains.payload?_eq stored ▸ found

theorem payload?_of_tidyings (tidyings : ReflTransGen Tidying before after)
    (found : before.payload? ref = some payload) :
    after.payload? ref = some payload ∨ after.payload? ref = none ∧
      Answered (.free payload.bytes) none before.tracker after.tracker := by
  induction tidyings with
  | refl => exact .inl found
  | @tail middle after earlier last ih =>
      rcases ih with there | ⟨gone, told⟩
      · refine (last.payload?_cases there).imp_right fun ⟨gone, told⟩ => ⟨gone, ?_⟩
        exact told.of_asked (asked_of_tidyings earlier)
      · refine .inr ⟨Option.eq_none_iff_forall_ne_some.mpr fun stored present => ?_,
          told.before_asked last.asked⟩
        rw [payload?_of_remains last.remains present] at gone
        cases gone

/-- An object stays, and then only a container is changed, or it is freed and its slot vacant. -/
theorem Change.payload?_cases (change : Change allowed before after)
    (vacancies : before.Vacancies) (found : before.payload? ref = some old) :
    (∃ new, after.payload? ref = some new ∧ old.Becomes new) ∨ after.payload? ref = none ∧
      Answered (.free old.bytes) none before.tracker after.tracker := by
  cases change with
  | tidy tidying =>
      exact (tidying.payload?_cases found).imp_left fun there => ⟨old, there, .same old⟩
  | make made fits granted => exact .inl ⟨old, payload?_make vacancies made found, .same old⟩
  | @rework other count stored new lent cell present meanwhile kept becomes =>
      have inside := index_lt_of_cell? present
      by_cases same : ref = other
      · subst same
        rw [payload?_eq present] at found
        obtain rfl := Option.some.inj found
        refine .inl ⟨new, ?_, becomes⟩
        rw [payload?, cell?_setCell (index_lt_of_cell? kept), if_pos rfl]
        rfl
      · have elsewhere : (before.setCell other (some ⟨count, none⟩)).payload? ref = some old := by
          rw [payload?, cell?_setCell inside, if_neg same]
          exact found
        have back : (lent.setCell other (some { cell with payload := some new })).payload? ref =
            lent.payload? ref := by
          rw [payload?, cell?_setCell (index_lt_of_cell? kept), if_neg same]
          rfl
        rw [back]
        exact (payload?_of_tidyings meanwhile elsewhere).imp_left fun there =>
          ⟨old, there, .same old⟩

/-- What is put into a vacant slot is granted by the tracker. -/
theorem Change.granted (change : Change allowed before after)
    (vacant : before.payload? ref = none) (present : after.payload? ref = some new) :
    Answered (.allocate new.bytes) none before.tracker after.tracker := by
  cases change with
  | tidy tidying =>
      rw [payload?_of_remains tidying.remains present] at vacant
      cases vacant
  | make made fits granted =>
      rcases payload?_place_cases present with rfl | there
      · rw [tracker_place, ← granted]
        exact answered_once (.allocate new.bytes) before.tracker
      · exact absurd (vacant.symm.trans there) nofun
  | rework found meanwhile kept becomes =>
      rcases payload?_rework found meanwhile kept present with ⟨rfl, -⟩ | ⟨-, there⟩
      · rw [payload?_eq found] at vacant
        cases vacant
      · rw [vacant] at there
        cases there

/-- The tracker was told that an object was freed. -/
def Freed (old : Payload) (before after : τ) : Prop :=
  ∃ last, old.Becomes last ∧ Answered (.free last.bytes) none before after

/-- The tracker was told that the one object was freed, and granted the other afterwards. -/
def Replaced (old new : Payload) (before after : τ) : Prop :=
  ∃ (first : Payload) (middle : τ), Freed old before middle ∧ first.Becomes new ∧
    Answered (.allocate first.bytes) none middle after

/-- With a watched tracker, the log has both since then. -/
theorem Replaced.logged {ρ : Type} [Tracker ρ] {before after : Watched τ ρ}
    (replaced : Replaced old new before after) :
    ∃ (last first : Payload) (earlier later : List Entry) (freed made : Option Refusal),
      old.Becomes last ∧ first.Becomes new ∧ before.log <:+ earlier ∧
        ⟨.free last.bytes, none, freed⟩ :: earlier <:+ later ∧
        ⟨.allocate first.bytes, none, made⟩ :: later <:+ after.log := by
  obtain ⟨first, middle, ⟨last, became, told⟩, becomes, granted⟩ := replaced
  obtain ⟨earlier, freed, since, heard⟩ := told.logged
  obtain ⟨later, made, between, heard'⟩ := granted.logged
  exact ⟨last, first, earlier, later, freed, made, became, becomes, since,
    heard.trans between, heard'⟩

/-- What became of an object in a slot: it is there still, or it was freed, and what is there
then was made since. -/
def Succeeds (ref : Ref) (old : Payload) (before after : Store τ) : Prop :=
  (∃ new, after.payload? ref = some new ∧ old.Becomes new) ∨
    Freed old before.tracker after.tracker ∧
      ∀ new, after.payload? ref = some new → Replaced old new before.tracker after.tracker

theorem Succeeds.change (succeeds : Succeeds ref old before middle)
    (change : Change allowed middle after) (vacancies : middle.Vacancies)
    (asked : Asked before.tracker middle.tracker) : Succeeds ref old before after := by
  rcases succeeds with ⟨there, present, became⟩ | ⟨⟨last, became, told⟩, known⟩
  · rcases change.payload?_cases vacancies present with ⟨new, stays, becomes⟩ | ⟨gone, told⟩
    · exact .inl ⟨new, stays, became.trans becomes⟩
    · refine .inr ⟨⟨there, became, told.of_asked asked⟩, fun new stored => ?_⟩
      rw [gone] at stored
      cases stored
  · refine .inr ⟨⟨last, became, told.before_asked change.asked⟩, fun new stored => ?_⟩
    cases slot : middle.payload? ref with
    | none => exact ⟨new, middle.tracker, ⟨last, became, told⟩, .same new,
        change.granted slot stored⟩
    | some there =>
        obtain ⟨first, between, freed, becomes, granted⟩ := known there slot
        exact ⟨first, between, freed, becomes.trans (change.becomes vacancies slot stored),
          granted.before_asked change.asked⟩

/-- A slot that stays in use has the same object, or one that was made on the way, after the
first was freed. -/
theorem Path.succeeds (path : Path allowed before after) (vacancies : before.Vacancies)
    (found : before.payload? ref = some old) : Succeeds ref old before after := by
  obtain ⟨changes, -⟩ := path
  induction changes with
  | refl => exact .inl ⟨old, found, .same old⟩
  | tail earlier change ih =>
      exact ih.change change (vacancies_of_changes earlier vacancies) (asked_of_changes earlier)

theorem Succeeds.kind_eq (succeeds : Succeeds ref old before after)
    (present : after.payload? ref = some new) :
    new.kind = old.kind ∨ Replaced old new before.tracker after.tracker := by
  rcases succeeds with ⟨there, stays, becomes⟩ | ⟨-, known⟩
  · rw [present] at stays
    obtain rfl := Option.some.inj stays
    exact .inl becomes.kind_eq
  · exact .inr (known new present)

end Store

end StackMachine
