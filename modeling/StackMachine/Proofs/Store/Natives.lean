import StackMachine.Proofs.Store.Values
import StackMachine.Store.Natives

/-!
# Functions the machine carries out itself

Such a function is given its argument and gives it back, whatever becomes of the
call.  It reads the argument first; reading leaves the store as it is.
-/

namespace StackMachine.StoreM

open Store Outcome

variable {τ α β : Type} {store after : Store τ} {ref : Ref} {held inner : List Ref}
variable {argument : Option Ref}

/-! ## Reading arguments -/

/-- An operation that only reads returns something that `knows` describes. -/
def Looks (act : StoreM τ α) (store : Store τ) (knows : α → Prop) : Prop :=
  ∃ value, act store = .ok value store ∧ knows value

theorem Looks.pure {value : α} {knows : α → Prop} (known : knows value) :
    Looks (Pure.pure value) store knows :=
  ⟨value, rfl, known⟩

theorem Looks.bind {act : StoreM τ α} {next : α → StoreM τ β} {middle : α → Prop}
    {knows : β → Prop} (first : Looks act store middle)
    (second : ∀ value, middle value → Looks (next value) store knows) :
    Looks (act >>= next) store knows := by
  obtain ⟨value, returned, known⟩ := first
  obtain ⟨result, finished, holds⟩ := second value known
  exact ⟨result, (bind_ok returned).trans finished, holds⟩

theorem Looks.get (filled : store.Filled ref) :
    Looks (StoreM.get ref) store (fun payload => store.payload? ref = some payload) := by
  obtain ⟨payload, found⟩ := filled
  exact ⟨payload, get_eq found, found⟩

/-- Something is read before an operation goes on. -/
theorem Accounts.looks_bind {act : StoreM τ α} {next : α → StoreM τ β} {gives : β → List Ref}
    {knows : α → Prop} (looks : Looks act store knows)
    (rest : ∀ value, knows value → Accounts (next value) store held inner gives) :
    Accounts (act >>= next) store held inner gives := by
  obtain ⟨value, returned, known⟩ := looks
  unfold Accounts
  rw [bind_ok returned]
  exact rest value known

section Arguments

variable (sound : store.Sound (argument.toList ++ held) inner)

include sound

/-- What is read of an argument. -/
theorem getOption_looks :
    Looks (getOption argument) store fun payload? => (payload? = none → argument = none) ∧
      ∀ payload, payload? = some payload →
        ∃ ref, argument = some ref ∧ store.payload? ref = some payload := by
  cases argument with
  | none => exact .pure ⟨fun _ => rfl, nofun⟩
  | some ref =>
      obtain ⟨payload, found⟩ := (sound.usable List.mem_cons_self).filled
      refine ⟨some payload, ?_, ?_⟩
      · show EStateM.map some (StoreM.get ref) store = .ok (some payload) store
        rw [EStateM.map, get_eq found]
      · refine ⟨nofun, ?_⟩
        rintro _ ⟨rfl⟩
        exact ⟨ref, rfl, found⟩

omit sound in
theorem getAll_looks {refs : List Ref} (filled : ∀ ref ∈ refs, store.Filled ref) :
    Looks (getAll refs) store fun _ => True := by
  induction refs with
  | nil => exact .pure trivial
  | cons first rest ih =>
      refine .bind (.get (filled first List.mem_cons_self)) fun payload _ => ?_
      refine .bind (ih fun ref member => filled ref (List.mem_cons_of_mem _ member)) ?_
      exact fun _ _ => .pure trivial

theorem rangeBounds?_looks : Looks (rangeBounds? argument) store fun _ => True := by
  refine .bind (getOption_looks sound) fun payload? known => ?_
  split
  · exact .pure trivial
  · rename_i items
    obtain ⟨ref, rfl, found⟩ := known.2 _ rfl
    have usable := usable_items sound (Or.inr found)
    split
    · refine .bind (getAll_looks fun item member => (usable item member).filled) fun _ _ => ?_
      split <;> exact .pure trivial
    · exact .pure trivial
  · exact .pure trivial

theorem mathOperands?_looks (function : MathFunction) :
    Looks (mathOperands? function argument) store fun _ => True := by
  refine .bind (getOption_looks sound) fun payload? known => ?_
  split
  · exact .pure trivial
  · split
    · split
      · rename_i items
        obtain ⟨ref, rfl, found⟩ := known.2 _ rfl
        have usable := usable_items sound (Or.inr found)
        split
        · rename_i first second listed
          refine .bind (.get (usable first (by simp [listed])).filled) fun _ _ => ?_
          refine .bind (.get (usable second (by simp [listed])).filled) fun _ _ => ?_
          split <;> exact .pure trivial
        · exact .pure trivial
      · exact .pure trivial
    · exact .pure trivial

/-- The list that a request to change it names is part of the argument. -/
def Targets (store : Store τ) (argument : Option Ref) (list item : Ref) : Prop :=
  ∃ ref items former, argument = some ref ∧ store.payload? ref = some (.tuple items) ∧
    list ∈ items.toList ∧ item ∈ items.toList ∧ store.payload? list = some (.list former)

theorem appendTarget?_looks :
    Looks (appendTarget? argument) store fun target =>
      ∀ list item, target = some (list, item) → Targets store argument list item := by
  refine .bind (getOption_looks sound) fun payload? known => ?_
  split
  · rename_i items
    obtain ⟨ref, rfl, found⟩ := known.2 _ rfl
    have usable := usable_items sound (Or.inr found)
    split
    · rename_i list item listed
      refine .bind (.get (usable list (by simp [listed])).filled) fun payload listFound => ?_
      split
      · rename_i former
        refine .pure ?_
        rintro _ _ ⟨rfl, rfl⟩
        exact ⟨ref, items, former, rfl, found, by simp [listed], by simp [listed], listFound⟩
      · exact .pure nofun
    · exact .pure nofun
  · exact .pure nofun

theorem insertTarget?_looks :
    Looks (insertTarget? argument) store fun target =>
      ∀ list index item, target = some (list, index, item) →
        Targets store argument list item := by
  refine .bind (getOption_looks sound) fun payload? known => ?_
  split
  · rename_i items
    obtain ⟨ref, rfl, found⟩ := known.2 _ rfl
    have usable := usable_items sound (Or.inr found)
    split
    · rename_i list index item listed
      refine .bind (.get (usable list (by simp [listed])).filled) fun payload listFound => ?_
      refine .bind (.get (usable index (by simp [listed])).filled) fun _ _ => ?_
      split
      · rename_i former position _
        refine .pure ?_
        rintro _ _ _ ⟨rfl, rfl⟩
        exact ⟨ref, items, former, rfl, found, by simp [listed], by simp [listed], listFound⟩
      · exact .pure nofun
    · exact .pure nofun
  · exact .pure nofun

end Arguments

/-! ## Calls -/

variable [Tracker τ]

/-- The argument is given back before a call goes on. -/
theorem Accounts.releaseOption_bind {next : Unit → StoreM τ α} {gives : α → List Ref}
    (sound : store.Sound (argument.toList ++ held) inner)
    (rest : ∀ after, after.Sound held inner → Accounts (next ()) after held inner gives) :
    Accounts (releaseOption argument >>= next) store held inner gives :=
  .releaseAll_bind sound (List.Subset.refl _) fun after left => rest after left.sound

theorem chargeTable_accounts (sound : store.Sound held inner) (bytes : Nat) :
    Accounts (chargeTable bytes) store held inner (fun _ => []) := by
  unfold Accounts chargeTable
  cases Tracker.build bytes store.tracker with
  | none => exact ⟨sound.withTracker _, SamePayloads.keeps (fun _ => rfl) _⟩
  | some refusal => exact ⟨sound.withTracker _, SamePayloads.keeps (fun _ => rfl) _⟩

/-- One more object is made after those made already.  Where that fails, they are given
back. -/
theorem Accounts.collect {act : StoreM τ Ref} {next : Ref → StoreM τ α} {gives : α → List Ref}
    {made : Array Ref}
    (accounts : Accounts act store (made.toList ++ held) inner (fun ref => [ref]))
    (rest : ∀ ref after, after.Sound ((made.push ref).toList ++ held) inner →
      Accounts (next ref) after held inner gives) :
    Accounts (do
      match ← Outcome.attempt act with
      | .ok ref => next ref
      | .error cause => do
          releaseAll made.toList
          StoreM.raise cause) store held inner gives := by
  refine Ends.bind (accounts.attempt _) ?_
  intro result middle left
  have kept : Keeps (held ++ inner) store middle := left.keeps.mono (by
    rw [List.append_assoc]
    exact List.subset_append_right _ _)
  cases result with
  | ok ref =>
      refine Accounts.after_keeping kept (rest ref middle ?_)
      refine left.sound.perm ?_ (List.Perm.refl _)
      rw [Array.toList_push, List.append_assoc]
      exact List.perm_append_comm_assoc _ _ _
  | error cause =>
      refine Accounts.after_keeping kept ?_
      exact .releaseAll_bind left.sound (List.Subset.refl _) fun final rest => .raise rest.sound

theorem allocateInts_accounts (step : Int64) (count : Nat) (current : Int64) {made : Array Ref}
    (sound : store.Sound (made.toList ++ held) inner) :
    Accounts (allocateInts step count current made) store held inner Array.toList := by
  induction count generalizing store current made with
  | zero => exact .pure sound
  | succ count ih =>
      exact .collect (allocate_int sound current) fun item final finalSound => ih _ finalSound

section Calls

variable (sound : store.Sound (argument.toList ++ held) inner)

include sound

theorem callFloat_accounts :
    Accounts (callFloat argument) store held inner (fun ref => [ref]) := by
  refine .looks_bind (getOption_looks sound) fun payload? _ => ?_
  split
  · exact .pure sound
  · exact .releaseOption_bind sound fun final finalSound => allocate_float finalSound _
  · exact .releaseOption_bind sound fun final finalSound => .raise finalSound

theorem callInt_accounts : Accounts (callInt argument) store held inner (fun ref => [ref]) := by
  refine .looks_bind (getOption_looks sound) fun payload? _ => ?_
  split
  · exact .pure sound
  · exact .releaseOption_bind sound fun final finalSound => allocate_int finalSound _
  · exact .releaseOption_bind sound fun final finalSound => .raise finalSound

theorem callNotv_accounts : Accounts (callNotv argument) store held inner (fun ref => [ref]) := by
  refine .looks_bind (getOption_looks sound) fun payload? _ => ?_
  refine .releaseOption_bind sound fun final finalSound => ?_
  split
  · exact .acquire finalSound (finalSound.usable_bool _)
  · exact .raise finalSound

theorem callLen_accounts : Accounts (callLen argument) store held inner (fun ref => [ref]) := by
  refine .looks_bind (getOption_looks sound) fun payload? known => ?_
  split
  · obtain rfl := known.1 rfl
    exact .raise sound
  · refine .releaseOption_bind sound fun final finalSound => ?_
    split
    · exact allocate_int finalSound _
    · exact .raise finalSound

theorem callRange_accounts :
    Accounts (callRange argument) store held inner (fun ref => [ref]) := by
  refine .looks_bind (rangeBounds?_looks sound) fun bounds _ => ?_
  refine .releaseOption_bind sound fun final finalSound => ?_
  split
  · exact .raise finalSound
  · split
    · exact .raise finalSound
    · refine .bind (chargeTable_accounts finalSound _) fun _ charged left => ?_
      have owned : charged.Sound ((#[] : Array Ref).toList ++ held) inner := left.sound
      exact .bind (allocateInts_accounts _ _ _ owned) fun items last rest =>
        allocate_sequence (Or.inl rfl) rest.sound

omit [Tracker τ] in
/-- A list that is named in the argument is changed while the argument is held. -/
theorem Targets.accounts {list item : Ref} {change : StoreM τ Unit}
    (targets : Targets store argument list item)
    (changes : ∀ {store : Store τ} {held : List Ref}, store.Sound (item :: held) inner →
      store.Secured (roots ++ (held ++ inner)) list → list ≠ .builtins →
      Accounts change store held inner (fun _ => [])) :
    Accounts (do
      let _ ← acquire item
      change) store (argument.toList ++ held) inner (fun _ => []) := by
  obtain ⟨ref, items, former, rfl, found, listed, stored, listFound⟩ := targets
  have usable := usable_items sound (Or.inr found)
  refine .acquire_bind sound (usable item stored) fun final finalSound same => ?_
  refine changes finalSound (Or.inr ⟨ref, by simp, ?_, .tuple items, ?_, listed⟩)
    (usable list listed).meets.ne_builtins
  · rintro rfl
    rw [found] at listFound
    cases listFound
  · rw [same ref, found]

theorem callAppend_accounts :
    Accounts (callAppend argument) store held inner (fun ref => [ref]) := by
  refine .looks_bind (appendTarget?_looks sound) fun target known => ?_
  have finish : ∀ final, store.Leaves held inner [] final →
      Accounts (acquire .noneObject) final held inner (fun ref => [ref]) :=
    fun final left => .acquire left.sound left.sound.usable_none
  refine .bind (.releasing ?_) fun _ final left => finish final left
  split
  · exact (known _ _ rfl).accounts sound fun sound secured ne_builtins =>
      listAppend_accounts sound secured ne_builtins
  · exact .raise sound

theorem callInsert_accounts :
    Accounts (callInsert argument) store held inner (fun ref => [ref]) := by
  refine .looks_bind (insertTarget?_looks sound) fun target known => ?_
  have finish : ∀ final, store.Leaves held inner [] final →
      Accounts (acquire .noneObject) final held inner (fun ref => [ref]) :=
    fun final left => .acquire left.sound left.sound.usable_none
  refine .bind (.releasing ?_) fun _ final left => finish final left
  split
  · exact (known _ _ _ rfl).accounts sound fun sound secured ne_builtins =>
      listInsert_accounts sound secured ne_builtins _
  · exact .raise sound

theorem callPass_accounts : Accounts (callPass argument) store held inner (fun ref => [ref]) :=
  .releaseOption_bind sound fun _ finalSound => .acquire finalSound finalSound.usable_none

theorem callMath_accounts (function : MathFunction) :
    Accounts (callMath function argument) store held inner (fun ref => [ref]) := by
  refine .looks_bind (mathOperands?_looks sound function) fun operands _ => ?_
  refine .releaseOption_bind sound fun final finalSound => ?_
  split
  · exact .raise finalSound
  · rename_i x y
    have settled : Accounts (Outcome.settle (function.evaluate x y) : StoreM τ Double) final held
        inner (fun _ => []) :=
      .settle (by cases function.evaluate x y <;> exact finalSound)
    exact .bind settled fun _ last rest => allocate_float rest.sound _

/-- A call takes over its argument. -/
theorem callNative_accounts (function : Native) :
    Accounts (callNative function argument) store held inner (fun ref => [ref]) := by
  unfold callNative
  split
  · exact callFloat_accounts sound
  · exact callInt_accounts sound
  · exact callLen_accounts sound
  · exact callRange_accounts sound
  · exact callAppend_accounts sound
  · exact callInsert_accounts sound
  · exact callPass_accounts sound
  · exact callNotv_accounts sound
  · exact callMath_accounts sound _

end Calls

end StackMachine.StoreM
