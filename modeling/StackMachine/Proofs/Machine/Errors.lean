import StackMachine.Machine.Errors
import StackMachine.Proofs.Machine.Readiness
import StackMachine.Proofs.Store.Values

/-!
# Recording an error

Recording an error takes references to its object and its message and gives back
those of the error before.  Adding to the traceback makes an entry that takes over the
place of the entries before.  Neither of the two can fail.
-/

namespace StackMachine

variable {τ α : Type}

namespace MachineM

open Store Outcome Machine

variable [Tracker τ] {machine before after : Machine τ} {held : List Ref}
variable {kind : ErrorKind} {message? : Option String} {error value : Ref}

/-- A message, if there is one and the tracker agrees to the object that is made of it. -/
def keptMessage? (tracker : τ) (message? : Option String) : Option String :=
  message?.filter fun message =>
    (Tracker.allocate (Payload.string (Bytes.ofString message)).bytes tracker).1.isNone

omit [Tracker τ] in
/-- The object that goes with an error says what its message is; `none` says that there
is none. -/
def Explains (store : Store τ) (message? : Option String) (value : Ref) : Prop :=
  match message? with
  | some message => store.payload? value = some (.string (Bytes.ofString message))
  | none => value = .noneObject

/-- An error was recorded. -/
structure Records (before : Machine τ) (held : List Ref) (kind : ErrorKind)
    (message? : Option String) (after : Machine τ) : Prop where
  ready : after.Ready held
  retains : Keeps ((before.values.items ++ held) ++ before.internals) before.store after.store
  same : ∃ store value, after = { before with store, error := some (kind.object, value) } ∧
    Explains store (keptMessage? before.store.tracker message?) value

theorem Records.upholds (records : Records before held kind message? after) :
    before.Upholds (before.values.items ++ held) after := by
  have retains := records.retains
  obtain ⟨store, value, rfl, -⟩ := records.same
  exact .of_internals rfl retains

theorem Records.keeps_held (records : Records before held kind message? after) :
    Keeps held before.store after.store :=
  records.retains.mono (List.subset_append_of_subset_left _ (List.subset_append_right _ _))

/-- The error before is given back. -/
theorem setErrorValue_eq (machine : Machine τ) (error value : Ref) :
    setErrorValue error value machine =
      releaseAll machine.errorRefs { machine with error := some (error, value) } := by
  obtain ⟨store, values, frames, previous, traceback, tracer⟩ := machine
  cases previous with
  | some pair => rfl
  | none =>
      show (pure () : MachineM τ Unit) _ = releaseAll [] _
      rw [releaseAll_nil]

theorem setErrorValue_ok (ready : machine.Ready ([error, value] ++ held)) :
    ∃ store, setErrorValue error value machine =
        .ok () { machine with store, error := some (error, value) } ∧
      ({ machine with store, error := some (error, value) } : Machine τ).Ready held ∧
      Keeps ((machine.values.items ++ held) ++ ([error, value] ++ machine.internals))
        machine.store store := by
  have owing : ({ machine with error := some (error, value) } : Machine τ).Ready
      (machine.errorRefs ++ held) := by
    refine ⟨ready.sound.perm ?_ (List.Perm.refl _), ready.placed, ready.headed, ready.stacked⟩
    rw [List.perm_iff_count]
    intro ref
    simp only [errorRefs, List.count_append]
    omega
  obtain ⟨final, released, left⟩ := releaseAll_ready owing
  obtain ⟨store, rfl⟩ := left.same
  exact ⟨store, (setErrorValue_eq machine error value).trans released, left.ready,
    left.passes.retains⟩

/-- An object is made of a message, or `none` stands for it. -/
theorem messageObject_ok {store : Store τ} {inner : List Ref} (sound : store.Sound held inner)
    (message : String) :
    ∃ value after, messageObject message store = .ok value after ∧
      store.Leaves held inner [value] after ∧
      Explains after (keptMessage? store.tracker (some message)) value := by
  have makes : store.Makes (.string (Bytes.ofString message)) :=
    .of_roles (by simp [Payload.kind]) (by simp [Payload.roles])
  rcases StoreM.allocate_cases sound makes (List.Subset.refl held) (List.Perm.refl _) with
    ⟨value, after, made, left, -, keeps, found, agreed⟩ |
    ⟨refusal, middle, refused, left, keeps, limited⟩
  · have kept : keptMessage? store.tracker (some message) = some message := by
      simp [keptMessage?, Option.filter, agreed]
    rw [kept]
    refine ⟨value, after, ?_, ⟨left (by simp [Role.Allows, Payload.kind]), keeps⟩, found⟩
    rw [messageObject, StoreM.bind_ok (attempt_ok made)]
    rfl
  · have absent : keptMessage? store.tracker (some message) = none := by
      simp [keptMessage?, Option.filter, limited]
    rw [absent]
    obtain ⟨after, acquired, holding, same⟩ := StoreM.acquire_value left left.usable_none
    refine ⟨.noneObject, after, ?_, ⟨holding, keeps.trans (same.keeps _)⟩, rfl⟩
    rw [messageObject, StoreM.bind_ok (attempt_failed refused)]
    exact acquired

omit [Tracker τ] in
theorem Explains.of_keeps {store final : Store τ} {anchors : List Ref}
    (explains : Explains store message? value) (member : value ∈ anchors)
    (keeps : Keeps anchors store final) : Explains final message? value := by
  cases message? with
  | none => exact explains
  | some message => exact keeps.fixed (.held member) explains rfl

/-- An error is recorded once its object and its message are at hand. -/
theorem records_of_stays {middle : Machine τ}
    (stays : machine.Stays held [value, kind.object] middle)
    (explains : Explains middle.store (keptMessage? machine.store.tracker message?) value) :
    ∃ after, setErrorValue kind.object value middle = .ok () after ∧
      Records machine held kind message? after := by
  obtain ⟨store, recorded, ready, keeps⟩ := setErrorValue_ok
    (stays.ready.perm (List.Perm.swap kind.object value held))
  refine ⟨_, recorded, ready, ?_, store, value, ?_, ?_⟩
  · have internals_eq := stays.passes.internals_eq
    refine stays.passes.keeps_internals.trans (keeps.mono ?_)
    rw [← internals_eq]
    obtain ⟨earlier, rfl⟩ := stays.same
    exact append_subset_append _ (List.subset_append_right _ _)
  · obtain ⟨earlier, rfl⟩ := stays.same
    rfl
  · exact explains.of_keeps (by simp) keeps

omit [Tracker τ] in
/-- Taking a reference is no business of the tracker. -/
theorem onStore_acquire_tracker {ref : Ref}
    (acquired : onStore (StoreM.acquire ref) machine = .ok value after) :
    after.store.tracker = machine.store.tracker := by
  obtain ⟨store, values, frames, error, traceback, tracer⟩ := machine
  unfold onStore StoreM.acquire at acquired
  simp only at acquired
  cases found : store.cell? ref with
  | some cell =>
      rw [found] at acquired
      cases acquired
      rfl
  | none =>
      rw [found] at acquired
      cases acquired

theorem setError_ok (ready : machine.Ready held) (kind : ErrorKind) :
    ∃ after, setError kind machine = .ok () after ∧ Records machine held kind none after := by
  obtain ⟨first, acquired, stays, -⟩ := acquire_ready ready (ready.sound.usable_error kind)
  obtain ⟨second, taken, holding, -⟩ := acquire_ready stays.ready stays.ready.sound.usable_none
  have explains : Explains second.store (keptMessage? machine.store.tracker none) .noneObject := rfl
  obtain ⟨after, recorded, records⟩ := records_of_stays
    (stays.trans holding.regroup (List.Subset.refl held)) explains
  refine ⟨after, ?_, records⟩
  unfold setError
  rw [StoreM.bind_ok acquired, StoreM.bind_ok taken]
  exact recorded

theorem setErrorText_ok (ready : machine.Ready held) (kind : ErrorKind) (message : String) :
    ∃ after, setErrorText kind message machine = .ok () after ∧
      Records machine held kind (some message) after := by
  obtain ⟨first, acquired, stays, -⟩ := acquire_ready ready (ready.sound.usable_error kind)
  obtain ⟨value, store, made, left, explains⟩ := messageObject_ok stays.ready.sound message
  rw [onStore_acquire_tracker acquired] at explains
  have holding := stays.ready.stays_of_leaves left
  obtain ⟨after, recorded, records⟩ := records_of_stays
    (stays.trans holding.regroup (List.Subset.refl held)) explains
  refine ⟨after, ?_, records⟩
  unfold setErrorText
  rw [StoreM.bind_ok acquired, StoreM.bind_ok (onStore_eq made)]
  exact recorded

/-- The error of a cause is recorded. -/
theorem setErrorCause_ok (ready : machine.Ready held) (cause : Cause) :
    ∃ after, setErrorCause cause machine = .ok () after ∧
      Records machine held cause.kind cause.message? after := by
  cases present : cause.message? with
  | some message =>
      simp only [setErrorCause, present]
      exact setErrorText_ok ready cause.kind message
  | none =>
      simp only [setErrorCause, present]
      exact setError_ok ready cause.kind

/-! ## The traceback -/

/-- An entry of the traceback is made, or there is no room for it. -/
theorem newEntry_cases {store : Store τ} {inner : List Ref} {next : Option Ref} {frame : Ref}
    (sound : store.Sound held inner) (framed : store.kind? frame = some .frame)
    (headed : ∀ ref ∈ next, store.kind? ref = some .traceback) (line : Nat) :
    (∃ entry after, newEntry next frame line store = .ok entry after ∧
      after.Sound held (entry :: inner) ∧ Keeps (held ++ inner) store after ∧
      after.payload? entry = some (.traceback next frame line)) ∨
    (∃ cause after, newEntry next frame line store = .error (.failed cause) after ∧
      store.Leaves held inner [] after ∧ ¬ StoreM.Grants τ) := by
  obtain ⟨payload, found, -⟩ := Option.map_eq_some_iff.mp framed
  obtain ⟨first, acquired, firstSound, same⟩ := StoreM.acquire_inner sound found
  have nextFilled : ∀ ref ∈ next.toList, first.Filled ref := by
    intro ref member
    obtain ⟨content, present, -⟩ :=
      Option.map_eq_some_iff.mp (headed ref (Option.mem_toList.mp member))
    exact ⟨content, (same ref).trans present⟩
  obtain ⟨second, taken, secondSound, same'⟩ := StoreM.acquireAll_inner firstSound nextFilled
  have whole := same.trans same'
  have kinds : ∀ ref, second.kind? ref = store.kind? ref := fun ref => by rw [kind?, kind?, whole]
  have makes : second.Makes (.traceback next frame line) := by
    refine .of_roles (by simp [Payload.kind]) ?_
    intro child role part
    simp only [Payload.roles, List.mem_append, List.mem_map, Option.mem_toList, List.mem_cons,
      Prod.mk.injEq, List.not_mem_nil, or_false] at part
    rcases part with ⟨ref, present, rfl, rfl⟩ | ⟨rfl, rfl⟩
    · exact secondSound.meets_of_kind ((kinds ref).trans (headed ref present)) (by simp)
    · exact secondSound.meets_of_kind ((kinds child).trans framed) (by simp)
  have owing : (roots ++ (held ++ (next.toList ++ frame :: inner))).Perm
      ((Payload.traceback next frame line).children ++ (roots ++ (held ++ inner))) := by
    rw [List.perm_iff_count]
    intro ref
    simp only [Payload.children, List.count_append, List.count_cons, List.count_nil]
    omega
  have run : newEntry next frame line store =
      StoreM.allocate (.traceback next frame line) second := by
    rw [newEntry, StoreM.bind_ok acquired, StoreM.bind_ok taken]
  rw [run]
  rcases StoreM.allocate_cases secondSound makes (List.Subset.refl held) owing with
    ⟨entry, after, made, -, left, keeps, present, -⟩ |
    ⟨refusal, after, refused, left, keeps, limited⟩
  · exact Or.inl ⟨entry, after, made, left, (whole.keeps _).trans keeps, present⟩
  · exact Or.inr ⟨_, after, refused, ⟨left, (whole.keeps _).trans keeps⟩,
      StoreM.not_grants limited⟩

/-- What adding to the traceback makes of the machine while `kept` are held: there is an entry
for the innermost frame, or nothing happened. -/
structure Traced (before : Machine τ) (kept : List Ref) (activation : Activation)
    (after : Machine τ) : Prop where
  retains : Keeps (kept ++ before.fixtures) before.store after.store
  same : ∃ store traceback, after = { before with store, traceback }
  entry : (∃ entry, after.traceback = some entry ∧ after.store.payload? entry =
      some (.traceback before.traceback activation.frame activation.line)) ∨
    (after.traceback = before.traceback ∧ ¬ StoreM.Grants τ)

namespace Traced

variable {activation : Activation} {kept : List Ref}

/-- What the machine holds itself stays. -/
theorem keeps (traced : Traced before kept activation after) :
    Keeps before.fixtures before.store after.store :=
  traced.retains.mono (List.subset_append_right _ _)

theorem upholds (traced : Traced before kept activation after) : before.Upholds kept after := by
  have retains := traced.retains
  obtain ⟨store, traceback, rfl⟩ := traced.same
  refine .of_internals rfl (retains.mono fun ref member => ?_)
  simp only [fixtures, List.mem_append] at member ⊢
  tauto

theorem error_eq (traced : Traced before kept activation after) : after.error = before.error := by
  obtain ⟨store, traceback, rfl⟩ := traced.same
  rfl

theorem tracer_eq (traced : Traced before kept activation after) :
    after.tracer = before.tracer := by
  obtain ⟨store, traceback, rfl⟩ := traced.same
  rfl

/-- Entries of the traceback are parts of the one in front of them. -/
theorem anchored (traced : Traced before kept activation after) {ref : Ref}
    (member : ref ∈ before.fixtures) : after.store.Anchored after.fixtures ref := by
  simp only [fixtures, internals, List.mem_append, Option.mem_toList] at member
  rcases member with error | frame | head
  · obtain ⟨store, traceback, rfl⟩ := traced.same
    exact .held (List.mem_append_left _ error)
  · obtain ⟨store, traceback, rfl⟩ := traced.same
    exact .held (List.mem_append_right _ (List.mem_append_left _ frame))
  · rcases traced.entry with ⟨entry, present, found⟩ | ⟨same, -⟩
    · refine .part (.held (mem_fixtures_of_mem_traceback present)) found rfl ?_
      exact List.mem_append_left _ (Option.mem_toList.mpr head)
    · exact .held (mem_fixtures_of_mem_traceback (same ▸ head))

end Traced

section Pushing

variable {activation : Activation} {callers : List Activation} {below : List Ref}
variable {store : Store τ}

/-- An entry is put in front: it takes over the reference to the entries before. -/
theorem entry_in_front {entry : Ref} (within : machine.Within activation callers below held)
    (sound : store.Sound (held ++ (machine.values.items ++ machine.errorRefs))
      (entry :: machine.internals))
    (keeps : Keeps ((held ++ (machine.values.items ++ machine.errorRefs)) ++ machine.internals)
      machine.store store)
    (found : store.payload? entry =
      some (.traceback machine.traceback activation.frame activation.line)) :
    ∃ after, releaseAll machine.traceback.toList
        { machine with store, traceback := some entry } = .ok () after ∧
      after.Within activation callers below held ∧
      Traced machine (below ++ held) activation after := by
  let frames := machine.frames.items.map (·.frame)
  let values := held ++ (machine.values.items ++ machine.errorRefs)
  have owing : store.Sound values (machine.traceback.toList ++ (frames ++ [entry])) := by
    refine sound.perm (List.Perm.refl _) ?_
    rw [List.perm_iff_count]
    intro ref
    simp only [internals, frames, List.count_append, List.count_cons, List.count_nil]
    omega
  obtain ⟨final, released, left, -⟩ := StoreM.releaseAll_inner owing
  have entry_kept : final.payload? entry =
      some (.traceback machine.traceback activation.frame activation.line) := by
    refine left.keeps.fixed (.held ?_) found rfl
    exact List.mem_append_right _ (List.mem_append_right _ List.mem_cons_self)
  obtain ⟨own, items⟩ := within.values
  -- The former head of the traceback stays, as part of the new one.
  have retained : Keeps ((below ++ held) ++ machine.fixtures) machine.store final := by
    refine (keeps.mono ?_).trans (left.keeps.of_anchored ?_)
    · intro ref member
      simp only [fixtures, items, List.mem_append] at member ⊢
      tauto
    · intro ref member
      simp only [fixtures, internals, List.mem_append, Option.mem_toList] at member
      rcases member with (lower | other) | error | frame | head
      · exact .held (by simp [values, items, lower])
      · exact .held (by simp [values, other])
      · exact .held (by simp [values, error])
      · exact .held (List.mem_append_right _ (List.mem_append_left _ frame))
      · refine .part (.held (List.mem_append_right _ (List.mem_append_right _ List.mem_cons_self)))
          found rfl ?_
        exact List.mem_append_left _ (Option.mem_toList.mpr head)
  have kept := retained.mono (List.subset_append_right _ machine.fixtures)
  refine ⟨_, onStore_eq released, ⟨⟨left.sound, ?_, ?_, within.ready.stacked⟩, within.frames,
    within.values, within.base⟩, retained, ⟨final, some entry, rfl⟩,
    Or.inl ⟨entry, rfl, entry_kept⟩⟩
  · intro other member
    have active : other ∈ machine.frames.items := member
    exact (within.ready.placed other active).of_keeps (mem_fixtures_of_mem_frames active) kept
  · rintro ref ⟨rfl⟩
    exact kind?_eq entry_kept

theorem pushTraceback_ok (within : machine.Within activation callers below held) :
    ∃ after, pushTraceback machine = .ok () after ∧
      after.Within activation callers below held ∧
      Traced machine (below ++ held) activation after := by
  have member : activation ∈ machine.frames.items := within.frames ▸ List.mem_cons_self
  obtain ⟨back, placed⟩ := (within.ready.placed activation member).frame
  have asked : (onFrame (FrameM.asks fun activation => (activation.frame, activation.line)) :
      MachineM τ (Ref × Nat)) machine = .ok (activation.frame, activation.line) machine :=
    onFrame_asks within.frames
  have read : (get : MachineM τ (Machine τ)) machine = .ok machine machine := rfl
  unfold pushTraceback
  rw [StoreM.bind_ok asked]
  simp only
  rw [StoreM.bind_ok read]
  rcases newEntry_cases within.ready.sound (kind?_eq placed) within.ready.headed
      activation.line with
    ⟨entry, store, made, sound, keeps, found⟩ | ⟨cause, store, refused, left, limited⟩
  · rw [StoreM.bind_ok (onStore_eq (attempt_ok made))]
    exact entry_in_front within sound keeps found
  · have stays := within.ready.stays_of_leaves left
    rw [StoreM.bind_ok (onStore_eq (attempt_failed refused))]
    exact ⟨_, rfl, stays.within within, (stays.passes_within within).retains,
      ⟨store, machine.traceback, rfl⟩, Or.inr ⟨rfl, limited⟩⟩

end Pushing

end MachineM

end StackMachine
