import StackMachine.Proofs.Evolution.Landing
import StackMachine.Proofs.Machine.Running
import Mathlib.Data.Finset.Max

/-!
# Frames and tracebacks, layer by layer

A frame leads back to the frame that called it, and an entry of a traceback to its frame and
to the entry that follows.  Such an object is made after those it leads to, and it never
changes, so that no chain of them leads back to where it started.  Everything the machine does
leaves the objects in layers.

That is why none of them is left over: where no frame is active and there is no traceback, one
of the highest layer would have no owner.
-/

namespace StackMachine

open Store Outcome Machine

variable {τ α : Type}

namespace Store

variable {store before after : Store τ} {ref : Ref} {held inner : List Ref}

/-- There is neither a frame nor an entry of a traceback at the reference. -/
def PlainAt (store : Store τ) (ref : Ref) : Prop :=
  store.kind? ref ≠ some .frame ∧ store.kind? ref ≠ some .traceback

theorem plainAt_of_payload? {payload : Payload} (found : store.payload? ref = some payload) :
    store.PlainAt ref ↔ payload.IsPlain := by
  simp [PlainAt, Payload.IsPlain, kind?_eq found]

/-- What is not plain is an object. -/
theorem exists_of_not_plainAt (inside : ¬ store.PlainAt ref) :
    ∃ payload, store.payload? ref = some payload ∧ ¬ payload.IsPlain := by
  cases found : store.payload? ref with
  | none => exact absurd (by simp [PlainAt, kind?, found]) inside
  | some payload =>
      exact ⟨payload, rfl, fun plain => inside ((plainAt_of_payload? found).mpr plain)⟩

/-! ## Who owns frames and tracebacks -/

/-- The parts of an object that is neither a frame nor a traceback are neither. -/
theorem Sound.plain_child {payload : Payload} {child : Ref} (sound : store.Sound held inner)
    (found : store.payload? ref = some payload) (plain : payload.IsPlain)
    (member : child ∈ payload.children) : store.PlainAt child := by
  obtain ⟨role, part⟩ := Payload.exists_role_of_mem_children member
  have allowed := (sound.fits ref payload found child role part).allowed
  have role_plain : role = .value ∨ ∃ kind : Kind, role = .of kind ∧ kind ≠ .frame ∧
      kind ≠ .traceback := by
    cases payload with
    | frame => exact absurd rfl plain.1
    | traceback => exact absurd rfl plain.2
    | _ => simp [Payload.roles] at part <;> grind
  rcases role_plain with rfl | ⟨kind, rfl, notFrame, notTraceback⟩
  · exact allowed
  · have kind_eq : store.kind? child = some kind := allowed
    simp [PlainAt, kind_eq, notFrame, notTraceback]

theorem Sound.plain_value (sound : store.Sound held inner) (member : ref ∈ held) :
    store.PlainAt ref :=
  (sound.values ref member).allowed

theorem Sound.plain_root (sound : store.Sound held inner) (member : ref ∈ roots) :
    store.PlainAt ref := by
  by_cases isModules : ref = .modules
  · rw [isModules, PlainAt, sound.modules_dict]
    simp
  · have all : ∀ root ∈ roots, root.index < 19 ∧
        (original root).all fun payload => decide payload.IsPlain := by decide
    obtain ⟨low, plain⟩ := all ref member
    have found := sound.originals ref (initialCells_length ▸ low) isModules
    obtain ⟨payload, there⟩ := exists_original (initialCells_length ▸ low)
    rw [there] at plain found
    exact (plainAt_of_payload? found).mpr (of_decide_eq_true plain)

theorem exists_owner_of_mem_links (member : ref ∈ store.links) :
    ∃ owner payload, store.payload? owner = some payload ∧ ref ∈ payload.children := by
  obtain ⟨slot, listed, part⟩ := List.mem_flatMap.mp member
  obtain ⟨index, inside, rfl⟩ := List.mem_iff_getElem.mp listed
  cases found : store.cells.toList[index] with
  | none => simp [found, slotLinks] at part
  | some cell =>
      simp only [found, slotLinks, Cell.children] at part
      cases present : cell.payload with
      | none => simp [present] at part
      | some payload =>
          rw [present] at part
          refine ⟨⟨index⟩, payload, ?_, part⟩
          have there : store.cell? ⟨index⟩ = some cell := by
            rw [cell?, Option.join_eq_some_iff, ← Array.getElem?_toList, ← found]
            exact List.getElem?_eq_getElem inside
          rw [payload?_eq there, present]

/-! ## Layers -/

/-- Frames and entries of tracebacks lead from layer to layer, and always down. -/
def Layered (store : Store τ) : Prop :=
  ∃ layer : Ref → Nat, ∀ ref payload, store.payload? ref = some payload → ¬ payload.IsPlain →
    ∀ child ∈ payload.children, layer child < layer ref

theorem initial_layered (tracker : τ) : (initial tracker).Layered := by
  refine ⟨fun _ => 0, fun ref payload found inside => absurd ?_ inside⟩
  have all : ∀ slot ∈ (initial tracker).cells.toList, ∀ cell ∈ slot, ∀ payload ∈ cell.payload,
      payload.IsPlain := by
    have plain : ∀ cell ∈ initialCells, ∀ payload ∈ cell.payload, payload.IsPlain := by decide
    intro slot listed cell present
    simp only [initial, List.mem_map] at listed
    obtain ⟨first, known, rfl⟩ := listed
    obtain rfl := Option.some.inj present
    exact plain first known
  obtain ⟨count, present⟩ := cell?_of_payload? found
  rw [cell?, Option.join_eq_some_iff, ← Array.getElem?_toList] at present
  exact all _ (List.mem_of_getElem? present) _ rfl payload rfl

theorem Layered.of_tame (layered : before.Layered) (tame : Tame before after) : after.Layered := by
  obtain ⟨layer, down⟩ := layered
  exact ⟨layer, fun ref payload found inside => down ref payload (tame ref payload found inside)
    inside⟩

/-- One more object is on top of the others as long as it is not owned by any of them. -/
theorem Layered.add (layered : before.Layered)
    (others : ∀ other payload, after.payload? other = some payload → other ≠ ref →
      before.payload? other = some payload) (free : ref ∉ after.links) : after.Layered := by
  obtain ⟨layer, down⟩ := layered
  let parts : List Ref := (after.payload? ref).elim [] Payload.children
  let top := parts.toFinset.sup layer
  refine ⟨fun other => if other = ref then top + 1 else layer other, ?_⟩
  intro other payload found inside child member
  have different : child ≠ ref := by
    rintro rfl
    obtain ⟨count, present⟩ := cell?_of_payload? found
    exact free (mem_links_of_mem_children present member)
  show (if child = ref then top + 1 else layer child) < if other = ref then top + 1 else layer other
  rw [if_neg different]
  by_cases same : other = ref
  · have listed : child ∈ parts.toFinset := by simpa [parts, ← same, found] using member
    rw [if_pos same]
    exact Nat.lt_succ_of_le (Finset.le_sup listed)
  · rw [if_neg same]
    exact down other payload (others other payload found same) inside child member

/-- Frames and tracebacks that are not held are not there. -/
theorem Layered.plainAt (layered : store.Layered) (sound : store.Sound held []) (ref : Ref) :
    store.PlainAt ref := by
  classical
  obtain ⟨layer, down⟩ := layered
  by_contra inside
  let left := (Finset.range store.cells.size).filter fun index => ¬ store.PlainAt ⟨index⟩
  have listed (other : Ref) (remains : ¬ store.PlainAt other) : other.index ∈ left := by
    obtain ⟨payload, found, -⟩ := exists_of_not_plainAt remains
    obtain ⟨count, present⟩ := cell?_of_payload? found
    exact Finset.mem_filter.mpr ⟨Finset.mem_range.mpr (index_lt_of_cell? present), remains⟩
  -- One of the highest layer is owned by somebody, and its owner lies above it.
  obtain ⟨index, member, highest⟩ :=
    left.exists_max_image (fun index => layer ⟨index⟩) ⟨_, listed ref inside⟩
  have remains := (Finset.mem_filter.mp member).2
  obtain ⟨payload, found, -⟩ := exists_of_not_plainAt remains
  obtain ⟨count, present⟩ := cell?_of_payload? found
  have counted := sound.exact.count_eq ⟨index⟩
  rw [countAt_eq present] at counted
  have positive : 0 < count := sound.exact.count_pos _ _ present
  have owned : ⟨index⟩ ∈ store.links ∨ ⟨index⟩ ∈ roots ++ (held ++ []) := by
    rw [← List.count_pos_iff, ← List.count_pos_iff]
    simp only at counted
    omega
  simp only [List.append_nil, List.mem_append] at owned
  rcases owned with linked | root | kept
  · obtain ⟨owner, payload, there, part⟩ := exists_owner_of_mem_links linked
    by_cases plain : payload.IsPlain
    · exact remains (sound.plain_child there plain part)
    · have higher := down owner payload there plain ⟨index⟩ part
      have bounded := highest owner.index
        (listed owner fun plainAt => plain ((plainAt_of_payload? there).mp plainAt))
      exact absurd higher (Nat.not_lt.mpr bounded)
  · exact remains (sound.plain_root root)
  · exact remains (sound.plain_value kept)

variable [Tracker τ]

theorem Layered.of_path (layered : before.Layered) (path : PlainPath before after) :
    after.Layered :=
  layered.of_tame path.tame

/-- An object that was made and is held once is on top of the others. -/
theorem Layered.made {owners : List Ref} (layered : before.Layered) (vacancies : before.Vacancies)
    (made : ObjectMade before ref after) (exact : after.Exact owners) (owned : ref ∈ owners) :
    after.Layered := by
  obtain ⟨middle, payload, path, -, -, placed⟩ := made.made
  have room := path.vacancies vacancies
  have asked : (middle.asking (.allocate payload.bytes)).Vacancies :=
    ⟨room.nodup, room.inside, room.vacant⟩
  obtain ⟨-, -, cells⟩ := asked.place payload
  rw [placed] at cells
  refine Layered.add (layered.of_path path)
    (?_ : ∀ other payload, _ → other ≠ ref → _) fun linked => ?_
  · intro other stored found different
    rw [payload?, cells, if_neg different] at found
    exact found
  · have counted := exact.count_eq ref
    have present : after.cell? ref = some ⟨1, some payload⟩ := by rw [cells, if_pos rfl]
    rw [countAt_eq present] at counted
    have first := List.count_pos_iff.mpr linked
    have second := List.count_pos_iff.mpr owned
    simp only at counted
    omega

end Store

variable [Tracker τ]

/-! ## Frames that are entered -/

namespace Machine

variable {machine inside : Machine τ} {events : List Event} {held kept : List Ref}

/-- A frame that was entered is on top of the others. -/
theorem Opened.layered (opened : machine.Opened events inside) (ready : machine.Ready held)
    (inner : inside.Ready kept) (layered : machine.store.Layered) : inside.store.Layered := by
  obtain ⟨frame, top, made⟩ := opened.made
  obtain ⟨activation, first, rfl⟩ := Option.map_eq_some_iff.mp top
  refine layered.made ready.sound.exact.vacancies made inner.sound.exact ?_
  refine List.mem_append_right _ (List.mem_append_right _ (List.mem_append_left _ ?_))
  exact List.mem_map_of_mem (List.mem_of_mem_head? first)

end Machine

/-! ## What runs of code leave behind -/

namespace MachineM

variable {machine middle inside : Machine τ} {activation : Activation} {callers : List Activation}
variable {below held pending : List Ref} {act : MachineM τ α}

/-- Frames and tracebacks are in layers where the operation returned or failed. -/
abbrev LandsLayered (result : EStateM.Result (Stop Failure) (Machine τ) α) : Prop :=
  Lands (fun after => after.store.Layered) result

theorem preserves_layered : (loose τ).Preserves fun machine => machine.store.Layered :=
  fun _ _ _ layered path => layered.of_path path

theorem lands_of_follows (layered : machine.store.Layered) (follows : (loose τ).Follows act) :
    LandsLayered (act machine) :=
  preserves_layered.lands layered follows

/-- An entry of a traceback is on top of the others. -/
theorem pushTraceback_layered (within : machine.Within activation callers below held)
    (layered : machine.store.Layered) : LandsLayered (pushTraceback machine) := by
  have member : activation ∈ machine.frames.items := within.frames ▸ List.mem_cons_self
  obtain ⟨back, placed⟩ := (within.ready.placed activation member).frame
  have asked : (onFrame (FrameM.asks fun activation => (activation.frame, activation.line)) :
      MachineM τ (Ref × Nat)) machine = .ok (activation.frame, activation.line) machine :=
    onFrame_asks within.frames
  have read : (get : MachineM τ (Machine τ)) machine = .ok machine machine := rfl
  have makes := newEntry_makes machine.traceback activation.frame activation.line machine.store
  unfold pushTraceback
  rw [StoreM.bind_ok asked]
  simp only
  rw [StoreM.bind_ok read]
  rcases newEntry_cases within.ready.sound (kind?_eq placed) within.ready.headed
      activation.line with
    ⟨entry, store, made, sound, -, -⟩ | ⟨cause, store, refused, -, -⟩
  · rw [made] at makes
    rw [StoreM.bind_ok (onStore_eq (attempt_ok made))]
    have added : store.Layered := layered.made within.ready.sound.exact.vacancies makes sound.exact
      (List.mem_append_right _ (List.mem_append_right _ List.mem_cons_self))
    refine lands_of_follows added ?_
    exact Course.Follows.bind (modify_wide (fun _ _ => rfl) fun _ => rfl) fun _ =>
      releaseAll_follows _
  · rw [refused] at makes
    rw [StoreM.bind_ok (onStore_eq (attempt_failed refused))]
    exact layered.of_path makes

/-- Does the operation run frames so that frames and tracebacks are in layers? -/
def RunsLayered (run : MachineM τ Ref) : Prop :=
  ∀ {inside : Machine τ} {activation : Activation} {callers : List Activation}
    {below held : List Ref}, inside.Within activation callers below held → inside.error = none →
    inside.store.Layered → LandsLayered (run inside)

/-- An instruction that makes a call opens the frame that is entered. -/
theorem step_opens {taken : List Ref} (within : machine.Within activation callers below held)
    (always : ∀ run, step run machine = (finishCall pending run >>= resume) inside)
    {new : Activation} (left : middle.Within new callers below taken)
    (entered : Entered middle held pending inside) : ∃ events, machine.Opened events inside := by
  obtain ⟨events, -, led⟩ := step_follows evaluates_plain machine
  rw [always] at led
  refine ⟨events, led ?_⟩
  obtain ⟨_, -, inner⟩ := entered.within
  rw [Stack.height_eq, Stack.height_eq, inner.frames, left.frames, within.frames]
  simp

theorem step_layered {run : MachineM τ Ref} (runs : RunsLayered run)
    (within : machine.Within activation callers below held) (quiet : machine.error = none)
    (layered : machine.store.Layered) : LandsLayered (step run machine) := by
  cases step_steps within with
  | direct result always ends =>
      rw [always, ← always (throw (.fault .idle))]
      exact lands_of_follows layered (step_follows (evaluates_fault .idle))
  | calls taken pending middle inside always moves entered =>
      obtain ⟨events, passes⟩ := moves.passes
      obtain ⟨new, -, left⟩ := moves.within
      obtain ⟨told, opened⟩ := step_opens within always left entered
      obtain ⟨activation, -, inner⟩ := entered.within
      have started := opened.layered within.ready inner.ready layered
      have silent := entered.error.trans (passes.error.trans quiet)
      rw [always]
      refine (finishCall_lands preserves_layered pending (runs inner silent started)).bind
        fun value after _ layered => ?_
      exact lands_of_follows layered (resume_follows value)

/-- Leaving the straight path for an error makes an entry of the traceback at most. -/
theorem unwind_layered (within : machine.Within activation callers below held)
    (isSet : machine.error.isSome) (layered : machine.store.Layered) :
    LandsLayered (unwind .error machine) := by
  have told := within.withTracer
    (machine.tracer.observe fun _ => .unwound .error machine.frames.height)
  rw [unwind_eq machine (by simp [isSet]), StoreM.bind_ok (tell_eq _), if_pos rfl]
  refine (pushTraceback_layered told layered).bind fun _ after _ layered => ?_
  exact lands_of_follows layered <| (onFrame_follows (FrameM.asks_evolves _)).bind fun blocks =>
    unwindBlocks_follows .error blocks

/-- Frames are run so that frames and tracebacks are in layers, in any number of steps. -/
theorem runFrame_layered (fuel : Nat) : RunsLayered (runFrame fuel : MachineM τ Ref) := by
  induction fuel with
  | zero => exact fun _ _ _ => trivial
  | succ fuel ih =>
      intro machine activation callers below held within quiet layered
      have stepped : Ends _ _ fun _ _ => False :=
        (step_ends (runFrame_runsFrames fuel) within quiet).handed
      refine (step_layered ih within quiet layered).attempt.bind fun result after ran layered => ?_
      have holds := stepped.of_ok ran
      rcases result with failure | (_ | value | _)
      case ok.next =>
          obtain ⟨new, -, inside⟩ := holds.within
          exact ih inside holds.error layered
      case ok.returning =>
          have left : (loose τ).Follows (unwind .returning : MachineM τ Bool) :=
            unwind_quiet_follows (by simp)
          exact (lands_of_follows layered left).bind fun _ _ _ layered => layered
      case ok.breaking =>
          obtain ⟨new, -, inside⟩ := holds.within
          have left : (loose τ).Follows (unwind .breaking : MachineM τ Bool) :=
            unwind_quiet_follows (by simp)
          refine (lands_of_follows layered left).bind fun caught final unwound layered => ?_
          obtain ⟨_, _, ran, ⟨events, passes⟩, ⟨newer, -, finished⟩, -⟩ :=
            unwind_quiet inside holds.error (by simp : Unwinding.breaking ≠ .error)
          cases unwound.symm.trans ran
          cases caught with
          | true => exact ih finished (passes.error.trans holds.error) layered
          | false =>
              refine (lands_of_follows layered (setErrorCause_follows .breakOutsideLoop)).bind
                fun _ final recorded layered => ?_
              obtain ⟨_, record, records⟩ := setErrorCause_ok finished.ready .breakOutsideLoop
              cases recorded.symm.trans record
              exact (pushTraceback_layered (records.within finished) layered).bind
                fun _ _ _ layered => layered
      case error =>
          refine (lands_of_follows layered (record_follows failure)).bind
            fun _ final recorded layered => ?_
          obtain ⟨_, record, isSet, ⟨new, inside⟩, -⟩ := record_ok holds
          cases recorded.symm.trans record
          exact (unwind_layered inside isSet layered).bind fun _ _ _ layered => layered

end MachineM

end StackMachine
