import StackMachine.Proofs.Store.Soundness
import StackMachine.Store.Conversion

/-!
# Reading a sound store

Comparing, showing and looking things up follow references from object to object.
In a sound store each of them leads somewhere, so none of these breaks a promise.
-/

namespace StackMachine.Store

variable {τ α β : Type} {store : Store τ} {ref : Ref} {held inner : List Ref}

/-- Does a read end without a broken promise? -/
def Intact (result : Except (Stop Cause) α) : Prop :=
  ∀ fault, result ≠ .error (.fault fault)

theorem intact_ok (value : α) : Intact (.ok value) := by
  intro fault broken
  cases broken

theorem intact_failed (cause : Cause) : Intact (.error (.failed cause) : Except _ α) := by
  intro fault broken
  cases broken

theorem Intact.bind {read : Except (Stop Cause) α} {next : α → Except (Stop Cause) β}
    (first : Intact read) (second : ∀ value, read = .ok value → Intact (next value)) :
    Intact (read >>= next) := by
  cases result : read with
  | ok value => exact second value result
  | error stop =>
      rintro fault broken
      cases broken
      exact first fault result

theorem Intact.map {read : Except (Stop Cause) α} (function : α → β) (first : Intact read) :
    Intact (read.map function) := by
  cases result : read with
  | ok value => exact intact_ok (function value)
  | error stop =>
      rintro fault broken
      cases broken
      exact first fault result

theorem intact_lookup (table : Table Ref) (key : Bytes) : Intact (table.lookup key) := by
  unfold Table.lookup
  split
  · exact intact_ok _
  · intro fault broken
    cases broken
  · exact intact_ok _

/-- Does every object own objects that are there? -/
def Closed (store : Store τ) : Prop :=
  ∀ ref payload, store.payload? ref = some payload →
    ∀ child ∈ payload.children, store.Filled child

theorem Sound.closed (sound : store.Sound held inner) : store.Closed :=
  fun _ _ found _ member => sound.payload_of_child found member

/-- Reading an object that is there, and going on with it. -/
theorem intact_get {next : Payload → Except (Stop Cause) β} (filled : store.Filled ref)
    (rest : ∀ payload, store.payload? ref = some payload → Intact (next payload)) :
    Intact (store.get ref >>= next) := by
  obtain ⟨payload, found⟩ := filled
  rw [get_eq_ok_iff.mpr found]
  exact rest payload found

/-! ## Comparing -/

theorem intact_compareItems {compareItem : Ref → Ref → Except (Stop Cause) Ordering}
    {lefts rights : List Ref}
    (each : ∀ left ∈ lefts, ∀ right ∈ rights, Intact (compareItem left right)) :
    Intact (compareItems compareItem lefts rights) := by
  induction lefts generalizing rights with
  | nil => cases rights <;> exact intact_ok _
  | cons left lefts ih =>
      cases rights with
      | nil => exact intact_ok _
      | cons right rights =>
          refine Intact.bind (each left List.mem_cons_self right List.mem_cons_self) ?_
          intro ordering _
          cases ordering with
          | eq =>
              apply ih
              intro other member another member'
              exact each other (List.mem_cons_of_mem _ member) another
                (List.mem_cons_of_mem _ member')
          | lt => exact intact_ok _
          | gt => exact intact_ok _

theorem Closed.intact_compareWithin (closed : store.Closed) (room : Nat) {left right : Ref}
    (leftFilled : store.Filled left) (rightFilled : store.Filled right) :
    Intact (store.compareWithin room left right) := by
  induction room generalizing left right with
  | zero =>
      unfold compareWithin
      split
      · exact intact_ok _
      · exact intact_failed _
  | succ room ih =>
      unfold compareWithin
      split
      · exact intact_ok _
      refine intact_get leftFilled fun leftPayload leftFound => ?_
      refine intact_get rightFilled fun rightPayload rightFound => ?_
      have items : ∀ lefts rights : Array Ref,
          (∀ item ∈ lefts.toList, item ∈ leftPayload.children) →
          (∀ item ∈ rights.toList, item ∈ rightPayload.children) →
          Intact (compareItems (compareWithin store room) lefts.toList rights.toList) := by
        intro lefts rights ofLeft ofRight
        refine intact_compareItems fun item member other member' => ?_
        exact ih (closed left _ leftFound item (ofLeft item member))
          (closed right _ rightFound other (ofRight other member'))
      split
      · exact intact_ok _
      · exact intact_ok _
      · exact intact_ok _
      · exact items _ _ (fun _ => id) (fun _ => id)
      · exact items _ _ (fun _ => id) (fun _ => id)
      · split <;> exact intact_ok _

theorem Closed.intact_compareRefs (closed : store.Closed) {left right : Ref}
    (leftFilled : store.Filled left) (rightFilled : store.Filled right) :
    Intact (store.compareRefs left right) :=
  closed.intact_compareWithin _ leftFilled rightFilled

theorem Closed.intact_anyEqual (closed : store.Closed) {item : Ref} (filled : store.Filled item)
    {candidates : List Ref} (each : ∀ candidate ∈ candidates, store.Filled candidate) :
    Intact (store.anyEqual item candidates) := by
  induction candidates with
  | nil => exact intact_ok _
  | cons candidate rest ih =>
      refine Intact.bind
        (closed.intact_compareRefs (each candidate List.mem_cons_self) filled) ?_
      intro ordering _
      cases ordering with
      | eq => exact intact_ok _
      | lt => exact ih fun other member => each other (List.mem_cons_of_mem _ member)
      | gt => exact ih fun other member => each other (List.mem_cons_of_mem _ member)

theorem Closed.intact_contains (closed : store.Closed) {sequence item : Ref}
    (sequenceFilled : store.Filled sequence) (itemFilled : store.Filled item) :
    Intact (store.contains sequence item) := by
  refine intact_get sequenceFilled fun payload found => ?_
  have members := closed sequence payload found
  split
  · refine intact_get itemFilled fun stored _ => ?_
    split
    · split
      · exact intact_ok _
      · exact intact_failed _
    · exact intact_failed _
  · exact closed.intact_anyEqual itemFilled members
  · exact closed.intact_anyEqual itemFilled members
  · exact intact_failed _

theorem intact_errorMatches {error pattern : Ref} (filled : store.Filled pattern) :
    Intact (store.errorMatches error pattern) := by
  unfold errorMatches
  split
  · exact intact_ok _
  · refine intact_get filled fun payload _ => ?_
    split <;> exact intact_ok _

theorem Closed.intact_test (closed : store.Closed) (comparison : Comparison) {left right : Ref}
    (leftFilled : store.Filled left) (rightFilled : store.Filled right) :
    Intact (store.test comparison left right) := by
  have compared := closed.intact_compareRefs leftFilled rightFilled
  have contained := closed.intact_contains rightFilled leftFilled
  cases comparison with
  | same => exact intact_ok _
  | notSame => exact intact_ok _
  | member => exact contained
  | notMember => exact contained.map _
  | errorMatch => exact intact_errorMatches rightFilled
  | less | lessEqual | equal | notEqual | greater | greaterEqual => exact compared.map _

/-! ## Showing -/

/-- One read after the other. -/
theorem bind_answers {read : Except (Stop Cause) α} {next : α → Except (Stop Cause) β}
    (first : ∃ value, read = .ok value) (second : ∀ value, ∃ answer, next value = .ok answer) :
    ∃ answer, (read >>= next) = .ok answer := by
  obtain ⟨value, rfl⟩ := first
  exact second value

/-- Reading an object that is there, and going on with it. -/
theorem get_answers {next : Payload → Except (Stop Cause) β} (filled : store.Filled ref)
    (rest : ∀ payload, store.payload? ref = some payload → ∃ answer, next payload = .ok answer) :
    ∃ answer, (store.get ref >>= next) = .ok answer := by
  obtain ⟨payload, found⟩ := filled
  rw [get_eq_ok_iff.mpr found]
  exact rest payload found

theorem showAll_answers {show_ : α → Except (Stop Cause) β} {items : List α}
    (each : ∀ item ∈ items, ∃ shown, show_ item = .ok shown) :
    ∃ shown, showAll show_ items = .ok shown := by
  induction items with
  | nil => exact ⟨[], rfl⟩
  | cons item rest ih =>
      refine bind_answers (each item List.mem_cons_self) fun first => ?_
      refine bind_answers (ih fun other member => each other (List.mem_cons_of_mem _ member)) ?_
      exact fun others => ⟨first :: others, rfl⟩

theorem Closed.showLeaf_answers (closed : store.Closed) {payload : Payload}
    (found : store.payload? ref = some payload) :
    ∃ object, store.showLeaf payload = .ok object := by
  unfold showLeaf
  split
  case h_5 =>
    refine get_answers (closed ref _ found _ (by simp [Payload.children])) fun stored _ => ?_
    split <;> exact ⟨_, rfl⟩
  all_goals exact ⟨_, rfl⟩

theorem Closed.toObjectWithin_answers (closed : store.Closed) (room : Nat) (visiting : List Ref)
    (filled : store.Filled ref) :
    ∃ object, store.toObjectWithin room visiting ref = .ok object := by
  induction room generalizing visiting ref with
  | zero =>
      refine get_answers filled fun payload found => ?_
      split
      · exact ⟨_, rfl⟩
      · exact closed.showLeaf_answers found
  | succ room ih =>
      refine get_answers filled fun payload found => ?_
      split
      · exact closed.showLeaf_answers found
      split
      · exact ⟨_, rfl⟩
      have members := closed ref payload found
      split
      · refine bind_answers (showAll_answers fun item member => ih _ (members item member)) ?_
        exact fun items => ⟨.list items, rfl⟩
      · refine bind_answers (showAll_answers fun item member => ih _ (members item member)) ?_
        exact fun items => ⟨.tuple items, rfl⟩
      · refine bind_answers (showAll_answers fun entry member => ?_) fun entries =>
          ⟨.dict entries, rfl⟩
        have value : entry.2 ∈ (Payload.dict _).children := List.mem_map_of_mem member
        exact bind_answers (ih _ (members entry.2 value)) fun object => ⟨(_, object), rfl⟩
      · exact closed.showLeaf_answers found

/-- Every object that is there can be shown. -/
theorem Closed.toObject_answers (closed : store.Closed) (filled : store.Filled ref) :
    ∃ object, store.toObject ref = .ok object :=
  closed.toObjectWithin_answers _ _ filled

end StackMachine.Store
