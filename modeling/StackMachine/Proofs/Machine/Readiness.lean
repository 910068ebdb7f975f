import StackMachine.Machine.Basic
import StackMachine.Proofs.Machine.Frame

/-!
# Machines that are ready

A machine is ready while it keeps the promises it makes to itself: the counts of its
store are exact, given what its values, its frames, its error and its traceback hold
and what others hold; its frames have their place in the store; and the values of
each frame lie above those of its callers.

An operation on the store or within the innermost frame leaves the machine ready and
the rest of it as it was.
-/

namespace StackMachine

variable {τ α : Type}

theorem append_subset_append {fewer more : List α} (front : List α) (sub : fewer ⊆ more) :
    front ++ fewer ⊆ front ++ more :=
  List.append_subset.mpr
    ⟨List.subset_append_left _ _, List.subset_append_of_subset_right _ sub⟩

/-- Do the values of each frame lie above those of its callers? -/
def Stacked : List Activation → Nat → Prop
  | [], _ => True
  | activation :: callers, height => activation.base ≤ height ∧ Stacked callers activation.base

/-- Tell a tracer some events. -/
def Tracer.observeAll (tracer : Tracer) (events : List Event) : Tracer :=
  events.foldl (fun tracer event => tracer.observe fun _ => event) tracer

theorem Tracer.observeAll_append (tracer : Tracer) (first second : List Event) :
    tracer.observeAll (first ++ second) = (tracer.observeAll first).observeAll second :=
  List.foldl_append

namespace Machine

open Store

variable {machine before middle after : Machine τ} {held extra taken below kept : List Ref}
variable {activation : Activation} {callers : List Activation} {events : List Event}

/-- The references of the current error. -/
def errorRefs (machine : Machine τ) : List Ref :=
  match machine.error with
  | some (error, value) => [error, value]
  | none => []

/-- The references to frames. -/
def frameRefs (machine : Machine τ) : List Ref :=
  machine.frames.items.map (·.frame)

/-- The references to frames and to the traceback. -/
def internals (machine : Machine τ) : List Ref :=
  machine.frames.items.map (·.frame) ++ machine.traceback.toList

/-- The references that the machine holds besides its values. -/
def fixtures (machine : Machine τ) : List Ref :=
  machine.errorRefs ++ machine.internals

/-- The promises of a machine to itself while others hold `held`. -/
structure Ready (machine : Machine τ) (held : List Ref) : Prop where
  sound :
    machine.store.Sound (held ++ (machine.values.items ++ machine.errorRefs)) machine.internals
  placed : ∀ activation ∈ machine.frames.items, activation.Placed machine.store
  headed : ∀ ref ∈ machine.traceback, machine.store.kind? ref = some .traceback
  stacked : Stacked machine.frames.items machine.values.height

/-- The machine is ready and its innermost frame is at work: what it called from are
`callers`, whose values are `below`. -/
structure Within (machine : Machine τ) (activation : Activation) (callers : List Activation)
    (below held : List Ref) : Prop where
  ready : machine.Ready held
  frames : machine.frames.items = activation :: callers
  values : ∃ own, machine.values.items = own ++ below
  base : activation.base = below.length

/-- What an operation leaves alone while `kept` are held, and what it told the tracer. -/
structure Passes (before : Machine τ) (kept : List Ref) (events : List Event)
    (after : Machine τ) : Prop where
  error : after.error = before.error
  traceback : after.traceback = before.traceback
  frames : after.frames.items.map (·.frame) = before.frames.items.map (·.frame)
  retains : Keeps (kept ++ before.fixtures) before.store after.store
  tracer : after.tracer = before.tracer.observeAll events

theorem mem_fixtures_of_mem_frames (member : activation ∈ machine.frames.items) :
    activation.frame ∈ machine.fixtures :=
  List.mem_append_right _ (List.mem_append_left _ (List.mem_map_of_mem member))

theorem mem_fixtures_of_mem_traceback {ref : Ref} (member : ref ∈ machine.traceback) :
    ref ∈ machine.fixtures :=
  List.mem_append_right _ (List.mem_append_right _ (Option.mem_toList.mpr member))

/-- As long as it is held, the head of the traceback is one. -/
theorem headed_of_keeps {ref : Ref} {anchors : List Ref} {store final : Store τ}
    (head : store.kind? ref = some .traceback) (member : ref ∈ anchors)
    (keeps : Keeps anchors store final) : final.kind? ref = some .traceback := by
  obtain ⟨payload, found, kind⟩ := Option.map_eq_some_iff.mp head
  rw [keeps.kind?_eq member found, kind]

theorem Passes.refl (machine : Machine τ) (kept : List Ref) : machine.Passes kept [] machine :=
  ⟨rfl, rfl, rfl, Keeps.refl _ _, rfl⟩

theorem Passes.mono {fewer : List Ref} (passes : before.Passes kept events after)
    (sub : fewer ⊆ kept) : before.Passes fewer events after :=
  { passes with retains := passes.retains.mono (List.append_subset.mpr
      ⟨List.subset_append_of_subset_left _ sub, List.subset_append_right _ _⟩) }

/-- What the machine holds itself stays. -/
theorem Passes.keeps (passes : before.Passes kept events after) :
    Keeps before.fixtures before.store after.store :=
  passes.retains.mono (List.subset_append_right _ _)

/-- Frames and the traceback stay besides what others hold. -/
theorem Passes.keeps_internals (passes : before.Passes kept events after) :
    Keeps (kept ++ before.internals) before.store after.store := by
  refine passes.retains.mono fun ref member => ?_
  simp only [fixtures, List.mem_append] at member ⊢
  tauto

/-- What others hold stays. -/
theorem Passes.keeps_held (passes : before.Passes kept events after) :
    Keeps kept before.store after.store :=
  passes.retains.mono (List.subset_append_left _ _)

theorem Passes.internals_eq (passes : before.Passes kept events after) :
    after.internals = before.internals := by
  rw [internals, internals, passes.frames, passes.traceback]

theorem Passes.errorRefs_eq (passes : before.Passes kept events after) :
    after.errorRefs = before.errorRefs := by
  rw [errorRefs, errorRefs, passes.error]

theorem Passes.fixtures_eq (passes : before.Passes kept events after) :
    after.fixtures = before.fixtures := by
  rw [fixtures, fixtures, passes.errorRefs_eq, passes.internals_eq]

theorem Passes.trans {more : List Event} (earlier : before.Passes kept events middle)
    (later : middle.Passes kept more after) : before.Passes kept (events ++ more) after where
  error := later.error.trans earlier.error
  traceback := later.traceback.trans earlier.traceback
  frames := later.frames.trans earlier.frames
  retains := earlier.retains.trans (earlier.fixtures_eq ▸ later.retains)
  tracer := by rw [later.tracer, earlier.tracer, Tracer.observeAll_append]

theorem Ready.perm {others : List Ref} (ready : machine.Ready held) (same : held.Perm others) :
    machine.Ready others :=
  ⟨ready.sound.perm (same.append_right _) (List.Perm.refl _), ready.placed, ready.headed,
    ready.stacked⟩

theorem Within.perm {others : List Ref} (within : machine.Within activation callers below held)
    (same : held.Perm others) : machine.Within activation callers below others :=
  { within with ready := within.ready.perm same }

theorem Within.below_subset (within : machine.Within activation callers below taken)
    (held : List Ref) : below ++ held ⊆ machine.values.items ++ held := by
  obtain ⟨own, items⟩ := within.values
  rw [items, List.append_assoc]
  exact List.subset_append_right _ _

/-- What others take over from a ready machine is held by them. -/
theorem Ready.sound_taken (ready : machine.Ready (taken ++ held)) :
    machine.store.Sound (taken ++ (held ++ (machine.values.items ++ machine.errorRefs)))
      machine.internals := by
  rw [← List.append_assoc]
  exact ready.sound

theorem Ready.usable {ref : Ref} (ready : machine.Ready held) (member : ref ∈ held) :
    machine.store.Usable ref :=
  ready.sound.usable (List.mem_append_left _ member)

/-! ## What is held all the time -/

/-- The frames that were active are so still, and they were kept with what others hold. -/
structure Upholds (before : Machine τ) (kept : List Ref) (after : Machine τ) : Prop where
  frames : before.frameRefs ⊆ after.frameRefs
  keeps : Keeps (kept ++ before.frameRefs) before.store after.store

theorem Upholds.refl (machine : Machine τ) (kept : List Ref) : machine.Upholds kept machine :=
  ⟨List.Subset.refl _, Keeps.refl _ _⟩

theorem Upholds.trans (earlier : before.Upholds kept middle) (later : middle.Upholds kept after) :
    before.Upholds kept after :=
  ⟨List.Subset.trans earlier.frames later.frames,
    earlier.keeps.trans (later.keeps.mono (append_subset_append kept earlier.frames))⟩

theorem Upholds.mono {fewer : List Ref} (upholds : before.Upholds kept after)
    (sub : fewer ⊆ kept) : before.Upholds fewer after :=
  ⟨upholds.frames, upholds.keeps.mono (List.append_subset.mpr
    ⟨List.subset_append_of_subset_left _ sub, List.subset_append_right _ _⟩)⟩

theorem Upholds.of_internals (frames : after.frameRefs = before.frameRefs)
    (keeps : Keeps (kept ++ before.internals) before.store after.store) :
    before.Upholds kept after :=
  ⟨frames ▸ List.Subset.refl _,
    keeps.mono (append_subset_append kept (List.subset_append_left _ _))⟩

theorem Passes.upholds (passes : before.Passes kept events after) : before.Upholds kept after :=
  .of_internals passes.frames passes.keeps_internals

/-! ## Operations on the store -/

/-- Only the store goes on. -/
theorem Ready.of_leaves {store : Store τ} (ready : machine.Ready taken)
    (left : machine.store.Leaves (held ++ (machine.values.items ++ machine.errorRefs))
      machine.internals extra store) :
    ({ machine with store } : Machine τ).Ready (extra ++ held) ∧
      machine.Passes (machine.values.items ++ held) [] { machine with store } := by
  have retained :
      Keeps ((machine.values.items ++ held) ++ machine.fixtures) machine.store store := by
    refine left.keeps.mono fun ref member => ?_
    simp only [fixtures, List.mem_append] at member ⊢
    tauto
  have kept := retained.mono (List.subset_append_right _ machine.fixtures)
  refine ⟨⟨?_, ?_, ?_, ready.stacked⟩, rfl, rfl, rfl, retained, rfl⟩
  · rw [List.append_assoc]
    exact left.sound
  · intro activation member
    exact (ready.placed activation member).of_keeps (mem_fixtures_of_mem_frames member) kept
  · intro ref member
    exact headed_of_keeps (ready.headed ref member) (mem_fixtures_of_mem_traceback member) kept

/-- What an operation on the store makes of the machine. -/
structure Stays (before : Machine τ) (held extra : List Ref) (after : Machine τ) : Prop where
  ready : after.Ready (extra ++ held)
  passes : before.Passes (before.values.items ++ held) [] after
  same : ∃ store, after = { before with store }

/-- What is held meanwhile may be more. -/
theorem Stays.trans {more others : List Ref} (earlier : before.Stays others extra middle)
    (later : middle.Stays held more after) (fewer : held ⊆ others) :
    before.Stays held more after := by
  have passes := earlier.passes.mono (append_subset_append before.values.items fewer)
  obtain ⟨store, rfl⟩ := earlier.same
  refine ⟨later.ready, passes.trans later.passes, ?_⟩
  obtain ⟨final, rfl⟩ := later.same
  exact ⟨final, rfl⟩

theorem Ready.stays_of_leaves {store : Store τ} (ready : machine.Ready taken)
    (left : machine.store.Leaves (held ++ (machine.values.items ++ machine.errorRefs))
      machine.internals extra store) : machine.Stays held extra { machine with store } :=
  have ⟨ready, passes⟩ := ready.of_leaves left
  ⟨ready, passes, store, rfl⟩

/-- What was held meanwhile is in the hands of the caller. -/
theorem Stays.regroup {more : List Ref} (stays : before.Stays (more ++ held) extra after) :
    before.Stays held (extra ++ more) after := by
  refine ⟨?_, stays.passes.mono ?_, stays.same⟩
  · rw [List.append_assoc]
    exact stays.ready
  · exact append_subset_append _ (List.subset_append_right _ _)

theorem Ready.stays (ready : machine.Ready held) : machine.Stays held [] machine :=
  ⟨ready, Passes.refl machine _, machine.store, rfl⟩

/-- The store goes on, and the frame at work is the same. -/
theorem Stays.within (stays : machine.Stays held extra after)
    (within : machine.Within activation callers below taken) :
    after.Within activation callers below (extra ++ held) := by
  obtain ⟨store, rfl⟩ := stays.same
  exact ⟨stays.ready, within.frames, within.values, within.base⟩

/-- The values below those of the frame at work stay. -/
theorem Stays.passes_within (stays : machine.Stays held extra after)
    (within : machine.Within activation callers below taken) :
    machine.Passes (below ++ held) [] after :=
  stays.passes.mono (within.below_subset held)

end Machine

namespace MachineM

open Store Outcome Machine

variable {machine : Machine τ} {held extra taken below : List Ref} {gives : α → List Ref}

/-- What is known of an operation on the store holds of the machine. -/
theorem onStore_ends {act : StoreM τ α} {returns : α → Store τ → Prop}
    {fails : Cause → Store τ → Prop} (ends : Ends (act machine.store) returns fails) :
    Ends (onStore act machine)
      (fun value after => ∃ store, after = { machine with store } ∧ returns value store)
      (fun failure after => ∃ cause store, failure = .raised cause ∧
        after = { machine with store } ∧ fails cause store) := by
  obtain ⟨store, values, frames, error, traceback, tracer⟩ := machine
  unfold onStore
  simp only at ends ⊢
  cases result : act store with
  | ok value final =>
      rw [result] at ends
      exact ⟨final, rfl, ends⟩
  | error stop final =>
      rw [result] at ends
      cases stop with
      | failed cause => exact ⟨cause, final, rfl, rfl, ends⟩
      | fault broken => exact ends
      | unfinished => trivial

/-- An operation on the store that returns. -/
theorem onStore_eq {act : StoreM τ α} {value : α} {store : Store τ}
    (returned : act machine.store = .ok value store) :
    onStore act machine = .ok value { machine with store } := by
  obtain ⟨before, values, frames, error, traceback, tracer⟩ := machine
  unfold onStore
  simp only at returned ⊢
  rw [returned]

/-- An operation of the machine that fails where it started out. -/
def FailsHere (machine : Machine τ) (held : List Ref) (failure : Failure) (after : Machine τ) :
    Prop :=
  (∃ cause, failure = .raised cause) ∧ machine.Stays held [] after

/-- An operation on the store that accounts for its references, of which more is known. -/
theorem onStore_knowing {act : StoreM τ α} {knows : α → Store τ → Prop}
    (ready : machine.Ready taken)
    (ends : Ends (act machine.store)
      (fun value store => machine.store.Leaves
        (held ++ (machine.values.items ++ machine.errorRefs)) machine.internals
        (gives value) store ∧
        knows value store)
      fun _ => machine.store.Leaves (held ++ (machine.values.items ++ machine.errorRefs))
        machine.internals []) :
    Ends (onStore act machine)
      (fun value after => machine.Stays held (gives value) after ∧ knows value after.store)
      (FailsHere machine held) := by
  refine (onStore_ends ends).mono ?_ ?_
  · rintro value _ ⟨store, rfl, left, known⟩
    exact ⟨ready.stays_of_leaves left, known⟩
  · rintro failure _ ⟨cause, store, rfl, rfl, left⟩
    exact ⟨⟨cause, rfl⟩, ready.stays_of_leaves left⟩

theorem onStore_accounts {act : StoreM τ α} (ready : machine.Ready taken)
    (accounts : StoreM.Accounts act machine.store
      (held ++ (machine.values.items ++ machine.errorRefs)) machine.internals gives) :
    Ends (onStore act machine) (fun value => machine.Stays held (gives value))
      (FailsHere machine held) := by
  have known : Ends (act machine.store)
      (fun value store => machine.store.Leaves
        (held ++ (machine.values.items ++ machine.errorRefs)) machine.internals
        (gives value) store ∧
        True) _ := Ends.imp accounts fun _ _ left => ⟨left, trivial⟩
  exact (onStore_knowing ready known).imp fun _ _ left => left.1

/-- One more reference to each of some values is taken. -/
theorem acquireAll_ready {refs : List Ref} (ready : machine.Ready held)
    (usable : ∀ ref ∈ refs, machine.store.Usable ref) :
    ∃ after, onStore (StoreM.acquireAll refs) machine = .ok () after ∧
      machine.Stays held refs after ∧ SamePayloads machine.store after.store := by
  obtain ⟨store, acquired, sound, same⟩ := StoreM.acquireAll_values ready.sound usable
  exact ⟨_, onStore_eq acquired, ready.stays_of_leaves ⟨sound, same.keeps _⟩, same⟩

theorem acquire_ready {ref : Ref} (ready : machine.Ready held)
    (usable : machine.store.Usable ref) :
    ∃ after, onStore (StoreM.acquire ref) machine = .ok ref after ∧
      machine.Stays held [ref] after ∧ SamePayloads machine.store after.store := by
  obtain ⟨store, acquired, sound, same⟩ := StoreM.acquire_value ready.sound usable
  exact ⟨_, onStore_eq acquired, ready.stays_of_leaves ⟨sound, same.keeps _⟩, same⟩

theorem releaseAll_nil [Tracker τ] : (releaseAll [] : MachineM τ Unit) = pure () := by
  funext machine
  exact onStore_eq (by rw [StoreM.releaseAll, drain])

/-- References are given back. -/
theorem releaseAll_ready [Tracker τ] {refs : List Ref} (ready : machine.Ready (refs ++ held)) :
    ∃ after, releaseAll refs machine = .ok () after ∧ machine.Stays held [] after := by
  obtain ⟨store, released, left, -⟩ := StoreM.releaseAll_sound ready.sound_taken
  exact ⟨_, onStore_eq released, ready.stays_of_leaves left⟩

/-! ## Operations within the innermost frame -/

variable {activation : Activation} {callers : List Activation}

/-- What surrounds the innermost frame. -/
def surroundings (machine : Machine τ) (below held : List Ref) : Surroundings :=
  ⟨below, below ++ (machine.errorRefs ++ held), machine.internals⟩

/-- The innermost frame finds its values where it expects them. -/
theorem fits_of_within (within : machine.Within activation callers below (extra ++ held)) :
    ∃ own, FrameState.Fits ⟨machine.store, machine.values, activation⟩
      (surroundings machine below held) own extra := by
  obtain ⟨own, items⟩ := within.values
  have member : activation ∈ machine.frames.items := within.frames ▸ List.mem_cons_self
  refine ⟨own, items, within.base, ?_, ?_, within.ready.placed activation member⟩
  · refine within.ready.sound.perm ?_ (List.Perm.refl _)
    rw [items, List.append_assoc]
    refine List.Perm.append_left extra ?_
    refine List.perm_append_comm.trans ?_
    simp only [surroundings, List.append_assoc]
    exact List.Perm.refl _
  · exact List.mem_append_left _ (List.mem_map_of_mem member)

/-- What an operation makes of the innermost frame, it makes of the machine. -/
theorem within_of_leads {state : FrameState τ} {frames : Stack Activation}
    (within : machine.Within activation callers below taken)
    (led : FrameState.Leads ⟨machine.store, machine.values, activation⟩
      (surroundings machine below held) extra state)
    (frames_eq : frames.items = state.activation :: callers) :
    let after : Machine τ := { machine with store := state.store, values := state.values, frames }
    after.Within state.activation callers below (extra ++ held) ∧
      machine.Passes (below ++ held) [] after := by
  intro after
  obtain ⟨own, fits⟩ := led.fits
  have retained : Keeps ((below ++ held) ++ machine.fixtures) machine.store state.store := by
    refine led.keeps.mono fun ref member => ?_
    simp only [fixtures, surroundings, List.mem_append] at member ⊢
    tauto
  have kept := retained.mono (List.subset_append_right _ machine.fixtures)
  have refs : after.frames.items.map (·.frame) = machine.frames.items.map (·.frame) := by
    rw [frames_eq, within.frames, List.map_cons, List.map_cons, led.same.frame]
  have passes : machine.Passes (below ++ held) [] after := ⟨rfl, rfl, refs, retained, rfl⟩
  have base : state.activation.base = below.length := led.same.base.trans within.base
  have stacked := within.ready.stacked
  rw [within.frames] at stacked
  refine ⟨⟨⟨?_, ?_, ?_, ?_⟩, frames_eq, ⟨own, fits.items⟩, base⟩, passes⟩
  · rw [passes.internals_eq, passes.errorRefs_eq]
    refine fits.sound.perm ?_ (List.Perm.refl _)
    rw [show after.values = state.values from rfl, fits.items]
    simp only [surroundings, List.append_assoc]
    refine List.Perm.append_left extra ?_
    rw [← List.append_assoc below, ← List.append_assoc own, ← List.append_assoc own]
    exact List.perm_append_comm
  · intro other member
    rw [frames_eq] at member
    rcases List.mem_cons.mp member with rfl | caller
    · exact fits.placed
    · have earlier : other ∈ machine.frames.items := within.frames ▸ List.mem_cons_of_mem _ caller
      exact (within.ready.placed other earlier).of_keeps (mem_fixtures_of_mem_frames earlier) kept
  · intro ref member
    have head : ref ∈ machine.traceback := member
    exact headed_of_keeps (within.ready.headed ref head) (mem_fixtures_of_mem_traceback head) kept
  · rw [frames_eq]
    refine ⟨?_, led.same.base ▸ stacked.2⟩
    have height : after.values.height = own.length + state.activation.base := fits.splits.height_eq
    omega

/-- What an operation within the innermost frame leads to. -/
theorem onFrame_ends {act : FrameM τ α}
    (within : machine.Within activation callers below (extra ++ held))
    (runs : ∀ own, FrameState.Fits ⟨machine.store, machine.values, activation⟩
        (surroundings machine below held) own extra →
      FrameM.Runs act ⟨machine.store, machine.values, activation⟩
        (surroundings machine below held) gives) :
    Ends (onFrame act machine)
      (fun value after => machine.Passes (below ++ held) [] after ∧ ∃ new, new.Same activation ∧
        after.Within new callers below (gives value ++ held))
      (fun failure after => (∃ cause, failure = .raised cause) ∧
        machine.Passes (below ++ held) [] after ∧
        ∃ new, new.Same activation ∧ after.Within new callers below held) := by
  obtain ⟨own, fits⟩ := fits_of_within within
  have ends := runs own fits
  obtain ⟨store, values, ⟨items, height, height_eq⟩, error, traceback, tracer⟩ := machine
  obtain rfl : items = activation :: callers := within.frames
  unfold onFrame
  unfold FrameM.Runs at ends
  simp only at ends ⊢
  cases result : act ⟨store, values, activation⟩ with
  | ok value state =>
      rw [result] at ends
      obtain ⟨inside, passes⟩ := within_of_leads within ends
        (rfl : (⟨state.activation :: callers, height, height_eq⟩ : Stack Activation).items = _)
      exact ⟨passes, state.activation, ends.same, inside⟩
  | error stop state =>
      rw [result] at ends
      cases stop with
      | failed cause =>
          obtain ⟨inside, passes⟩ := within_of_leads within ends
            (rfl : (⟨state.activation :: callers, height, height_eq⟩ : Stack Activation).items = _)
          exact ⟨⟨cause, rfl⟩, passes, state.activation, ends.same, inside⟩
      | fault broken => exact ends
      | unfinished => trivial

/-- The same for an operation that starts with nothing in its hands. -/
theorem onFrame_runs {act : FrameM τ α} (within : machine.Within activation callers below held)
    (runs : ∀ own, FrameState.Fits ⟨machine.store, machine.values, activation⟩
        (surroundings machine below held) own [] →
      FrameM.Runs act ⟨machine.store, machine.values, activation⟩
        (surroundings machine below held) gives) :
    Ends (onFrame act machine)
      (fun value after => machine.Passes (below ++ held) [] after ∧ ∃ new, new.Same activation ∧
        after.Within new callers below (gives value ++ held))
      (fun failure after => (∃ cause, failure = .raised cause) ∧
        machine.Passes (below ++ held) [] after ∧
        ∃ new, new.Same activation ∧ after.Within new callers below held) :=
  have empty : machine.Within activation callers below ([] ++ held) := within
  onFrame_ends empty runs

/-- An operation within the innermost frame that returns. -/
theorem onFrame_ok {act : FrameM τ α} {value : α} {taken : List Ref}
    (within : machine.Within activation callers below (taken ++ held))
    (returns : ∀ own, FrameState.Fits ⟨machine.store, machine.values, activation⟩
        (surroundings machine below held) own taken →
      ∃ state, act ⟨machine.store, machine.values, activation⟩ = .ok value state ∧
        FrameState.Leads ⟨machine.store, machine.values, activation⟩
          (surroundings machine below held) extra state) :
    ∃ after, onFrame act machine = .ok value after ∧ machine.Passes (below ++ held) [] after ∧
      ∃ new, new.Same activation ∧ after.Within new callers below (extra ++ held) := by
  obtain ⟨own, fits⟩ := fits_of_within within
  obtain ⟨state, returned, led⟩ := returns own fits
  obtain ⟨store, values, ⟨items, height, height_eq⟩, error, traceback, tracer⟩ := machine
  obtain rfl : items = activation :: callers := within.frames
  obtain ⟨inside, passes⟩ := within_of_leads within led
    (rfl : (⟨state.activation :: callers, height, height_eq⟩ : Stack Activation).items = _)
  refine ⟨_, ?_, passes, state.activation, led.same, inside⟩
  unfold onFrame
  simp only at returned ⊢
  rw [returned]

/-- The innermost frame reads off its activation. -/
theorem onFrame_asks {read : Activation → α}
    (frames : machine.frames.items = activation :: callers) :
    onFrame (FrameM.asks read) machine = .ok (read activation) machine := by
  obtain ⟨store, values, ⟨items, height, height_eq⟩, error, traceback, tracer⟩ := machine
  obtain rfl : items = activation :: callers := frames
  rfl

/-! ## Telling the tracer -/

theorem tell_eq (event : Stack Activation → Event) :
    tell event machine = .ok () { machine with
      tracer := machine.tracer.observe fun _ => event machine.frames } :=
  rfl

end MachineM

namespace Machine

variable {machine : Machine τ} {held below : List Ref} {tracer : Tracer}
variable {activation : Activation} {callers : List Activation}

theorem Ready.withTracer (ready : machine.Ready held) (tracer : Tracer) :
    ({ machine with tracer } : Machine τ).Ready held :=
  ⟨ready.sound, ready.placed, ready.headed, ready.stacked⟩

theorem Within.withTracer (within : machine.Within activation callers below held)
    (tracer : Tracer) :
    ({ machine with tracer } : Machine τ).Within activation callers below held :=
  ⟨within.ready.withTracer tracer, within.frames, within.values, within.base⟩

theorem Passes.tell (machine : Machine τ) (kept : List Ref) (event : Event) :
    machine.Passes kept [event] { machine with
      tracer := machine.tracer.observe fun _ => event } :=
  ⟨rfl, rfl, rfl, Store.Keeps.refl _ _, rfl⟩

end Machine

end StackMachine
