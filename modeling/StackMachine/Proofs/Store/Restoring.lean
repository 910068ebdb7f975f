import StackMachine.Proofs.Store.BadCalls
import StackMachine.Proofs.Store.Likeness
import StackMachine.Proofs.Table.Refinement

/-!
# Operations that can be taken back

A checkpoint is a state of the store that somebody wants to get back to.  Meanwhile references
are taken and objects made; the store owes these references, and giving them back leads to the
checkpoint.

`Reverts` says of an operation that this stays so: where it returns, the store owes what the
operation gives, and where it fails, it owes nothing for it.  An operation that changes objects
others hold does not revert, but it may revert where it fails, and `Aborts` says so.  There is one
rule for each way in which operations are put together.
-/

namespace StackMachine

open Store StoreM Outcome

variable {τ φ α β : Type}

namespace Outcome

variable {σ : Type} {act : EStateM (Stop φ) σ α} {next : α → EStateM (Stop φ) σ β}

/-- What failed did so in its first part or in its second. -/
theorem bind_eq_failed {failure : φ} {before after : σ}
    (failed : (act >>= next) before = .error (.failed failure) after) :
    act before = .error (.failed failure) after ∨
      ∃ value middle, act before = .ok value middle ∧
        next value middle = .error (.failed failure) after := by
  change EStateM.bind act next before = _ at failed
  unfold EStateM.bind at failed
  split at failed
  · rename_i value middle ran
    exact Or.inr ⟨value, middle, ran, failed⟩
  · rename_i stop middle ran
    cases failed
    exact Or.inl ran

/-- What was handed over is what happened. -/
theorem attempt_cases {result : Except φ α} {before after : σ}
    (ran : attempt act before = .ok result after) :
    (∃ value, result = .ok value ∧ act before = .ok value after) ∨
      ∃ failure, result = .error failure ∧ act before = .error (.failed failure) after := by
  unfold attempt at ran
  split at ran
  · rename_i value middle returned
    cases ran
    exact Or.inl ⟨value, rfl, returned⟩
  · rename_i failure middle failed
    cases ran
    exact Or.inr ⟨failure, rfl, failed⟩
  · cases ran
  · cases ran

/-- Why an operation stopped, if it did. -/
def stop? : EStateM.Result (Stop φ) σ α → Option (Stop φ)
  | .ok _ _ => none
  | .error stop _ => some stop

theorem stop?_eq_some_iff {result : EStateM.Result (Stop φ) σ α} {stop : Stop φ} :
    stop? result = some stop ↔ ∃ after, result = .error stop after := by
  cases result <;> simp [stop?]

/-- The operation does nothing but look: it does not fail and leaves the state as it is. -/
structure Looks (act : EStateM (Stop φ) σ α) : Prop where
  never : NeverFails act
  keeps : ∀ before value after, act before = .ok value after → after = before

theorem Looks.pure (value : α) : Looks (Pure.pure value : EStateM (Stop φ) σ α) where
  never := .pure value
  keeps before _ after ran := by cases ran; rfl

theorem Looks.bind (first : Looks act) (second : ∀ value, Looks (next value)) :
    Looks (act >>= next) where
  never := first.never.bind fun value => (second value).never
  keeps before value after ran := by
    obtain ⟨_, middle, looked, ran⟩ := bind_eq_ok ran
    rw [(second _).keeps middle value after ran, first.keeps before _ middle looked]

end Outcome

theorem StoreM.neverFails_acquireAll (refs : List Ref) :
    NeverFails (acquireAll refs : StoreM τ Unit) := by
  induction refs with
  | nil => exact .pure ()
  | cons ref rest ih => exact (neverFails_acquire ref).bind fun _ => ih

/-! ## Checkpoints -/

/-- A state of the store to get back to, and the references that are held there.  An object that
is `loose` may have been rebuilt by then. -/
structure Checkpoint (τ : Type) where
  loose : Ref → Prop
  target : Store τ
  held : List Ref

namespace Checkpoint

variable {point : Checkpoint τ} {store before after : Store τ} {ref : Ref} {payload new : Payload}
variable {refs more taken kept : List Ref} {gives leaves : α → List Ref}

/-- Giving some references back takes the store to the checkpoint. -/
structure Owes (point : Checkpoint τ) (refs : List Ref) (store : Store τ) : Prop where
  exact : store.Exact (refs ++ point.held)
  tables : ∀ ref table, store.payload? ref = some (.dict table) → table.Valid
  residue : Residue point.loose store point.held point.target

namespace Owes

theorem perm (owes : point.Owes refs store) (same : refs.Perm more) : point.Owes more store :=
  ⟨owes.exact.perm (same.append_right _), owes.tables, owes.residue⟩

/-- The same objects are owed for in a store that has the same. -/
theorem of_cells (owes : point.Owes refs before) (exact : after.Exact (more ++ point.held))
    (cells : ∀ ref, (after.cell? ref).map Cell.payload = (before.cell? ref).map Cell.payload) :
    point.Owes more after := by
  have parts {first second : Store τ} (same : ∀ ref,
      (first.cell? ref).map Cell.payload = (second.cell? ref).map Cell.payload) :
      PartOf point.loose first second := by
    intro ref cell found
    have known := same ref
    rw [found, Option.map_some, eq_comm, Option.map_eq_some_iff] at known
    obtain ⟨old, present, equal⟩ := known
    exact ⟨old, present, .of_eq equal⟩
  have same : ∀ ref, after.payload? ref = before.payload? ref := by
    intro ref
    have known := cells ref
    unfold payload?
    cases found : after.cell? ref <;> cases present : before.cell? ref <;>
      simp_all only [Option.map_none, Option.map_some, Option.bind_none, Option.bind_some,
        Option.some.injEq, reduceCtorEq]
  refine ⟨exact, fun ref table found => owes.tables ref table (same ref ▸ found),
    owes.residue.of_parts (parts fun ref => (cells ref).symm) (parts cells)⟩

/-- What the tracker says is of no concern. -/
theorem withTracker (owes : point.Owes refs store) (tracker : τ) :
    point.Owes refs { store with tracker } :=
  owes.of_cells (owes.exact.withTracker tracker) fun _ => rfl

/-- Nothing is owed at the checkpoint itself. -/
theorem refl {loose : Ref → Prop} (exact : store.Exact refs)
    (tables : ∀ ref table, store.payload? ref = some (.dict table) → table.Valid) :
    Owes ⟨loose, store, refs⟩ [] store :=
  ⟨exact, tables, .refl exact⟩

/-- The store owes what leads to the checkpoint when it is given back. -/
theorem of_drain [Tracker τ] {loose : Ref → Prop} {held : List Ref}
    (exact : store.Exact (refs ++ held))
    (tables : ∀ ref table, store.payload? ref = some (.dict table) → table.Valid)
    (drained : drain refs store = .ok () after) : Owes ⟨loose, after, held⟩ refs store :=
  ⟨exact, tables, .of_drain exact drained⟩

/-- Where nothing is owed, the store is back at the checkpoint. -/
theorem sameObjects (owes : point.Owes [] store) :
    SameObjects point.loose point.target store :=
  owes.residue.sameObjects (.refl owes.exact)

/-- One more reference to an object is taken. -/
theorem acquired {value : Ref} (owes : point.Owes refs store)
    (ran : (acquire ref : StoreM τ Ref) store = .ok value after) :
    value = ref ∧ point.Owes (ref :: refs) after := by
  unfold acquire at ran
  split at ran
  · rename_i cell found
    cases ran
    have cells := cell?_setCell (index_lt_of_cell? found)
      (some { cell with count := cell.count + 1 })
    refine ⟨rfl, owes.of_cells (owes.exact.acquire found) fun other => ?_⟩
    rw [cells]
    split
    · rename_i same
      rw [same, found]
      rfl
    · rfl
  · cases ran

/-- What an object holds to which only those refer who give their references back is of no
concern. -/
theorem of_lone (ref : Ref) (owes : point.Owes refs before)
    (exact : after.Exact (more ++ point.held))
    (few : before.countAt ref ≤ refs.count ref) (few' : after.countAt ref ≤ more.count ref)
    (valid : ∀ table, after.payload? ref = some (.dict table) → table.Valid)
    (elsewhere : ∀ other ≠ ref, after.cell? other = before.cell? other) :
    point.Owes more after := by
  have counted := owes.exact.count_eq ref
  have counted' := exact.count_eq ref
  rw [List.count_append] at counted counted'
  refine ⟨exact, fun other table found => ?_,
    owes.residue.of_lone ref (by omega) (by omega) (by omega) elsewhere⟩
  by_cases same : other = ref
  · exact valid table (same ▸ found)
  · exact owes.tables other table (by rw [← found, payload?, payload?, elsewhere other same])

/-- An object is made of some references. -/
theorem placed (owes : point.Owes (payload.children ++ refs) store)
    (valid : ∀ table, payload = .dict table → table.Valid) :
    point.Owes ((store.place payload).1 :: refs) (store.place payload).2 := by
  have exact := owes.exact
  rw [List.append_assoc] at exact
  have cells := exact.cell?_place payload
  refine owes.of_lone (store.place payload).1 exact.place ?_ ?_ (fun table found => ?_)
    fun other different => by rw [cells, if_neg different]
  · simp [countAt, exact.place_vacant payload, slotCount]
  · simp [countAt, cells, slotCount]
  · rw [payload?_place exact, if_pos rfl] at found
    exact valid table (Option.some.inj found)

variable [Tracker τ]

/-- What is owed can be given back. -/
theorem give_back (owes : point.Owes (refs ++ more) store) :
    ∃ after, drain refs store = .ok () after ∧ point.Owes more after := by
  have exact := owes.exact
  rw [List.append_assoc] at exact
  obtain ⟨after, drained, afterExact, remains⟩ := drain_exact refs store exact
  refine ⟨after, drained, afterExact, fun ref table found => ?_,
    owes.residue.narrow (.of_drain exact drained)⟩
  obtain ⟨count, present⟩ := cell?_of_payload? found
  exact owes.tables ref table (by rw [← remains.payload?_eq present, found])

theorem released (owes : point.Owes (refs ++ more) store)
    (drained : drain refs store = .ok () after) :
    point.Owes more after := by
  obtain ⟨final, same, left⟩ := owes.give_back
  rw [drained] at same
  cases same
  exact left

end Owes

/-! ## Operations that revert -/

/-- Where the operation takes references over and returns, the store owes what it gives; where it
fails, it owes nothing for them. -/
structure Reverts (point : Checkpoint τ) (act : EStateM (Stop φ) (Store τ) α) (taken : List Ref)
    (gives : α → List Ref) : Prop where
  returns : ∀ more before value after, point.Owes (taken ++ more) before →
    act before = .ok value after → point.Owes (gives value ++ more) after
  fails : ∀ more before failure after, point.Owes (taken ++ more) before →
    act before = .error (.failed failure) after → point.Owes more after

/-- Where the operation takes references over and fails, the store owes nothing for them. -/
def Aborts (point : Checkpoint τ) (act : EStateM (Stop φ) (Store τ) α) (taken : List Ref) : Prop :=
  ∀ more before failure after, point.Owes (taken ++ more) before →
    act before = .error (.failed failure) after → point.Owes more after

namespace Reverts

variable {act : EStateM (Stop φ) (Store τ) α} {next : α → EStateM (Stop φ) (Store τ) β}
variable {last : β → List Ref}

theorem perm (reverts : point.Reverts act taken gives) (same : kept.Perm taken) :
    point.Reverts act kept gives where
  returns more before value after owes :=
    reverts.returns more before value after (owes.perm (same.append_right more))
  fails more before failure after owes :=
    reverts.fails more before failure after (owes.perm (same.append_right more))

theorem giving (reverts : point.Reverts act taken gives)
    (same : ∀ value, (gives value).Perm (leaves value)) : point.Reverts act taken leaves where
  returns more before value after owes ran :=
    (reverts.returns more before value after owes ran).perm ((same value).append_right more)
  fails := reverts.fails

/-- What does not fail leaves other references as they are. -/
theorem keeping (kept : List Ref) (reverts : point.Reverts act taken gives)
    (never : NeverFails act) :
    point.Reverts act (taken ++ kept) (fun value => gives value ++ kept) where
  returns more before value after owes ran := by
    rw [List.append_assoc] at owes ⊢
    exact reverts.returns (kept ++ more) before value after owes ran
  fails _ before failure after _ failed := absurd failed (never before failure after)

theorem of_looks (looks : Looks act) : point.Reverts act [] (fun _ => []) where
  returns _ before value after owes ran := looks.keeps before value after ran ▸ owes
  fails _ before failure after _ failed := absurd failed (looks.never before failure after)

theorem pure (gives : α → List Ref) (value : α) :
    point.Reverts (Pure.pure value : EStateM (Stop φ) (Store τ) α) (gives value) gives where
  returns more before value after owes ran := by cases ran; exact owes
  fails more before failure after owes failed := by cases failed

theorem throw (failure : φ) :
    point.Reverts (throw (.failed failure) : EStateM (Stop φ) (Store τ) α) [] gives where
  returns more before value after owes ran := by cases ran
  fails more before failure after owes failed := by cases failed; exact owes

theorem raise (cause : Cause) : point.Reverts (StoreM.raise cause : StoreM τ α) [] gives :=
  throw cause

/-- Reading may fail. -/
theorem reading (read : Store τ → Except (Stop φ) α) :
    point.Reverts (Outcome.reading read) [] (fun _ => []) where
  returns more before value after owes ran := by
    unfold Outcome.reading at ran
    split at ran <;> cases ran
    exact owes
  fails more before failure after owes failed := by
    unfold Outcome.reading at failed
    split at failed <;> cases failed
    exact owes

theorem bind (first : point.Reverts act taken gives)
    (second : ∀ value, point.Reverts (next value) (gives value) last) :
    point.Reverts (act >>= next) taken last where
  returns more before value after owes ran := by
    obtain ⟨_, middle, returned, ran⟩ := bind_eq_ok ran
    exact (second _).returns more middle value after
      (first.returns more before _ middle owes returned) ran
  fails more before failure after owes failed := by
    rcases bind_eq_failed failed with failed | ⟨_, middle, returned, failed⟩
    · exact first.fails more before failure after owes failed
    · exact (second _).fails more middle failure after
        (first.returns more before _ middle owes returned) failed

/-- What does not fail may leave references for what comes after. -/
theorem bind_keeping (first : point.Reverts act taken gives) (never : NeverFails act)
    (second : ∀ value, point.Reverts (next value) (gives value ++ kept) last) :
    point.Reverts (act >>= next) (taken ++ kept) last where
  returns more before value after owes ran := by
    obtain ⟨_, middle, returned, ran⟩ := bind_eq_ok ran
    rw [List.append_assoc] at owes
    have later := first.returns (kept ++ more) before _ middle owes returned
    rw [← List.append_assoc] at later
    exact (second _).returns more middle value after later ran
  fails more before failure after owes failed := by
    rcases bind_eq_failed failed with failed | ⟨_, middle, returned, failed⟩
    · exact absurd failed (never before failure after)
    · rw [List.append_assoc] at owes
      have later := first.returns (kept ++ more) before _ middle owes returned
      rw [← List.append_assoc] at later
      exact (second _).fails more middle failure after later failed

theorem look_bind (looks : Looks act) (second : ∀ value, point.Reverts (next value) taken last) :
    point.Reverts (act >>= next) taken last :=
  (of_looks looks).bind_keeping looks.never second

theorem map {function : α → β}
    (reverts : point.Reverts act taken fun value => last (function value)) :
    point.Reverts (function <$> act) taken last := by
  have mapped : function <$> act = act >>= fun value => Pure.pure (function value) := rfl
  rw [mapped]
  exact reverts.bind fun value => .pure last (function value)

/-- What is given where a failure is handed over. -/
theorem attempt (reverts : point.Reverts act taken gives) :
    point.Reverts (Outcome.attempt act) taken (Accounts.orNothing gives) where
  returns more before value after owes ran := by
    rcases attempt_cases ran with ⟨value, rfl, returned⟩ | ⟨failure, rfl, failed⟩
    · exact reverts.returns more before value after owes returned
    · exact reverts.fails more before failure after owes failed
  fails more before failure after _ failed :=
    absurd failed (neverFails_attempt act before failure after)

theorem settle (result : Except φ α) :
    point.Reverts (Outcome.settle result) (Accounts.orNothing gives result) gives := by
  cases result with
  | ok value => exact pure gives value
  | error failure => exact throw failure

/-- The next operation is known to follow a return. -/
theorem bind_of (first : point.Reverts act taken gives)
    (second : ∀ before value after, act before = .ok value after →
      point.Reverts (next value) (gives value) last) : point.Reverts (act >>= next) taken last where
  returns more before value after owes ran := by
    obtain ⟨_, middle, returned, ran⟩ := bind_eq_ok ran
    exact (second before _ middle returned).returns more middle value after
      (first.returns more before _ middle owes returned) ran
  fails more before failure after owes failed := by
    rcases bind_eq_failed failed with failed | ⟨_, middle, returned, failed⟩
    · exact first.fails more before failure after owes failed
    · exact (second before _ middle returned).fails more middle failure after
        (first.returns more before _ middle owes returned) failed

end Reverts

namespace Reverts

variable [Tracker τ] {act : StoreM τ α} {next : Unit → StoreM τ α}

theorem releaseAll (refs : List Ref) :
    point.Reverts (StoreM.releaseAll refs : StoreM τ Unit) refs (fun _ => []) where
  returns _ _ _ _ owes ran := owes.released ran
  fails _ before failure after _ failed :=
    absurd failed (neverFails_releaseAll refs before failure after)

theorem releaseAll_bind (rest : point.Reverts (next ()) taken gives) :
    point.Reverts (StoreM.releaseAll refs >>= next) (refs ++ taken) gives :=
  (releaseAll refs).bind_keeping (neverFails_releaseAll refs) fun _ => rest

/-- References are given back first. -/
theorem releaseAll_then (rest : point.Reverts (next ()) [] gives) :
    point.Reverts (StoreM.releaseAll refs >>= next) refs gives :=
  (releaseAll refs).bind fun _ => rest

/-- References are held while an operation runs. -/
theorem releasing (refs : List Ref) (reverts : point.Reverts act taken gives) :
    point.Reverts (StoreM.releasing refs act) (refs ++ taken) gives := by
  refine perm (reverts.attempt.bind_keeping (neverFails_attempt act) fun result => ?_)
    List.perm_append_comm
  exact (releaseAll_bind (.settle result)).perm List.perm_append_comm

/-- References are given back if the operation fails. -/
theorem orRelease (refs : List Ref) (reverts : point.Reverts act taken gives) :
    point.Reverts (StoreM.orRelease refs act) (refs ++ taken)
      (fun value => gives value ++ refs) := by
  refine perm (reverts.attempt.bind_keeping (neverFails_attempt act) fun result => ?_)
    List.perm_append_comm
  cases result with
  | ok value => exact pure (fun value => gives value ++ refs) value
  | error cause => exact releaseAll_then (.raise cause)

omit [Tracker τ] in
theorem acquire (ref : Ref) :
    point.Reverts (StoreM.acquire ref : StoreM τ Ref) [] (fun value => [value]) where
  returns more before value after owes ran := by
    obtain ⟨rfl, owed⟩ := owes.acquired ran
    exact owed
  fails _ before failure after _ failed :=
    absurd failed (neverFails_acquire ref before failure after)

omit [Tracker τ] in
theorem acquire_bind {next : Ref → StoreM τ α}
    (rest : point.Reverts (next ref) (ref :: taken) gives) :
    point.Reverts (StoreM.acquire ref >>= next) taken gives where
  returns more before value after owes ran := by
    obtain ⟨_, middle, acquired, went⟩ := bind_eq_ok ran
    obtain ⟨rfl, owed⟩ := owes.acquired acquired
    exact rest.returns more middle value after owed went
  fails more before failure after owes failed := by
    rcases bind_eq_failed failed with stopped | ⟨_, middle, acquired, went⟩
    · exact absurd stopped (neverFails_acquire ref before failure after)
    · obtain ⟨rfl, owed⟩ := owes.acquired acquired
      exact rest.fails more middle failure after owed went

omit [Tracker τ] in
theorem acquireAll (refs : List Ref) :
    point.Reverts (StoreM.acquireAll refs : StoreM τ Unit) [] (fun _ => refs) := by
  induction refs with
  | nil => exact pure (fun _ => []) ()
  | cons ref rest ih =>
      exact acquire_bind ((ih.keeping [ref] (neverFails_acquireAll rest)).giving
        fun _ => List.perm_append_singleton ref rest)

theorem allocate (valid : ∀ table, payload = .dict table → table.Valid) :
    point.Reverts (StoreM.allocate payload : StoreM τ Ref) payload.children (fun ref => [ref]) where
  returns more before ref after owes ran := by
    unfold StoreM.allocate at ran
    split at ran
    · rename_i tracker answer
      cases ran
      exact (owes.withTracker tracker).placed valid
    · split at ran <;> cases ran
  fails more before failure after owes failed := by
    unfold StoreM.allocate at failed
    split at failed
    · cases failed
    · rename_i refusal tracker answer
      obtain ⟨final, drained, owed⟩ := (owes.withTracker tracker).give_back
      rw [drained] at failed
      cases failed
      exact owed

/-- An object other than a dictionary is made. -/
theorem allocate_plain (plain : payload.kind ≠ .dictionary) :
    point.Reverts (StoreM.allocate payload : StoreM τ Ref) payload.children (fun ref => [ref]) :=
  allocate fun _ same => absurd (congrArg Payload.kind same) plain

theorem chargeTable (bytes : Nat) :
    point.Reverts (StoreM.chargeTable bytes : StoreM τ Unit) [] (fun _ => []) where
  returns more before value after owes ran := by
    unfold StoreM.chargeTable at ran
    split at ran <;> cases ran
    exact owes.withTracker _
  fails more before failure after owes failed := by
    unfold StoreM.chargeTable at failed
    split at failed <;> cases failed
    exact owes.withTracker _

end Reverts

/-! ## Operations that revert where they fail -/

theorem Reverts.aborts {act : EStateM (Stop φ) (Store τ) α}
    (reverts : point.Reverts act taken gives) :
    point.Aborts act taken :=
  reverts.fails

namespace Aborts

variable {act : EStateM (Stop φ) (Store τ) α} {next : α → EStateM (Stop φ) (Store τ) β}

theorem of_never (never : NeverFails act) : point.Aborts act taken :=
  fun _ before failure after _ failed => absurd failed (never before failure after)

theorem perm (aborts : point.Aborts act taken) (same : kept.Perm taken) : point.Aborts act kept :=
  fun more before failure after owes =>
    aborts more before failure after (owes.perm (same.append_right more))

theorem bind_of (first : point.Reverts act taken gives)
    (second : ∀ before value after, act before = .ok value after →
      point.Aborts (next value) (gives value)) : point.Aborts (act >>= next) taken := by
  intro more before failure after owes failed
  rcases bind_eq_failed failed with failed | ⟨_, middle, returned, failed⟩
  · exact first.fails more before failure after owes failed
  · exact second before _ middle returned more middle failure after
      (first.returns more before _ middle owes returned) failed

theorem bind (first : point.Reverts act taken gives)
    (second : ∀ value, point.Aborts (next value) (gives value)) :
    point.Aborts (act >>= next) taken :=
  bind_of first fun _ value _ _ => second value

theorem bind_keeping (first : point.Reverts act taken gives) (never : NeverFails act)
    (second : ∀ value, point.Aborts (next value) (gives value ++ kept)) :
    point.Aborts (act >>= next) (taken ++ kept) := by
  intro more before failure after owes failed
  rcases bind_eq_failed failed with failed | ⟨_, middle, returned, failed⟩
  · exact absurd failed (never before failure after)
  · rw [List.append_assoc] at owes
    have later := first.returns (kept ++ more) before _ middle owes returned
    rw [← List.append_assoc] at later
    exact second _ more middle failure after later failed

theorem look_bind (looks : Looks act) (second : ∀ value, point.Aborts (next value) taken) :
    point.Aborts (act >>= next) taken :=
  bind_keeping (.of_looks looks) looks.never second

theorem raise (cause : Cause) : point.Aborts (StoreM.raise cause : StoreM τ α) [] :=
  (Reverts.raise cause : point.Reverts _ [] fun _ => []).fails

/-- What comes after does not fail. -/
theorem followed (aborts : point.Aborts act taken) (never : ∀ value, NeverFails (next value)) :
    point.Aborts (act >>= next) taken :=
  fun more before failure after owes failed =>
    aborts more before failure after owes (NeverFails.bind_failed never failed)

end Aborts

namespace Aborts

variable [Tracker τ] {act : StoreM τ α} {next : Unit → StoreM τ α}

theorem releaseAll_bind (rest : point.Aborts (next ()) taken) :
    point.Aborts (StoreM.releaseAll refs >>= next) (refs ++ taken) :=
  bind_keeping (.releaseAll refs) (neverFails_releaseAll refs) fun _ => rest

omit [Tracker τ] in
theorem acquire_bind {next : Ref → StoreM τ α} (rest : point.Aborts (next ref) (ref :: taken)) :
    point.Aborts (StoreM.acquire ref >>= next) taken := by
  intro more before failure after owes failed
  rcases bind_eq_failed failed with stopped | ⟨_, middle, acquired, went⟩
  · exact absurd stopped (neverFails_acquire ref before failure after)
  · obtain ⟨rfl, owed⟩ := owes.acquired acquired
    exact rest more middle failure after owed went

omit [Tracker τ] in
/-- What failed has failed before references are given back. -/
theorem attempt_bind {next : Except Cause α → StoreM τ β} (aborts : point.Aborts act taken)
    (returned : ∀ value, NeverFails (next (.ok value)))
    (failed : ∀ cause, point.Reverts (next (.error cause)) kept fun _ => []) :
    point.Aborts (Outcome.attempt act >>= next) (kept ++ taken) := by
  intro more before failure after owes ran
  rcases bind_eq_failed ran with stopped | ⟨result, middle, attempted, ran⟩
  · exact absurd stopped (neverFails_attempt act before failure after)
  · rcases attempt_cases attempted with ⟨value, rfl, -⟩ | ⟨cause, rfl, stopped⟩
    · exact absurd ran (returned value middle failure after)
    · have owed := aborts (kept ++ more) before cause middle
        (owes.perm (by
          rw [← List.append_assoc]
          exact List.perm_append_comm.append_right more)) stopped
      exact (failed cause).fails more middle failure after owed ran

theorem releasing (refs : List Ref) (aborts : point.Aborts act taken) :
    point.Aborts (StoreM.releasing refs act) (refs ++ taken) := by
  refine aborts.attempt_bind (fun value => ?_) fun cause => ?_
  · exact (neverFails_releaseAll refs).bind fun _ => .pure value
  · exact .releaseAll_then (.throw cause)

theorem orRelease (refs : List Ref) (aborts : point.Aborts act taken) :
    point.Aborts (StoreM.orRelease refs act) (refs ++ taken) := by
  refine aborts.attempt_bind (fun value => .pure value) fun cause => ?_
  exact .releaseAll_then (.raise cause)

end Aborts

end Checkpoint

end StackMachine
