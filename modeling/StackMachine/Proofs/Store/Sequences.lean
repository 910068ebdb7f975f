import StackMachine.Proofs.Store.Granting
import StackMachine.Proofs.Store.Values

/-!
# What is in a sequence

A string is a sequence of bytes, a list or a tuple one of references.  `SequenceAt` says so of an
object, for the three kinds alike, and the operations on sequences are described by what they do
to the elements.

The positions that a slice selects are told by arithmetic on unbounded integers, which is where
bounds from the end and bounds outside the sequence are easily understood.
-/

namespace StackMachine

open Store

/-- Something that a sequence is made of. -/
inductive Element where
  | byte (value : UInt8)
  | item (ref : Ref)
  deriving DecidableEq, Repr

/-- The sequence at a reference, of a kind and with some elements. -/
inductive Store.SequenceAt {τ : Type} (store : Store τ) (ref : Ref) :
    Kind → List Element → Prop where
  | string (bytes : Bytes) (found : store.payload? ref = some (.string bytes)) :
      SequenceAt store ref .string (bytes.toList.map .byte)
  | list (items : Array Ref) (found : store.payload? ref = some (.list items)) :
      SequenceAt store ref .list (items.toList.map .item)
  | tuple (items : Array Ref) (found : store.payload? ref = some (.tuple items)) :
      SequenceAt store ref .tuple (items.toList.map .item)

/-- The reference leads to what an element is: a string of one byte, or the item itself. -/
inductive Store.ElementAt {τ : Type} (store : Store τ) (ref : Ref) : Element → Prop where
  | byte (value : UInt8) (found : store.payload? ref = some (.string #[value])) :
      ElementAt store ref (.byte value)
  | item : ElementAt store ref (.item ref)

/-! ## Words -/

/-- No sequence in memory is too long for its length to be a word. -/
theorem toWord?_length {length : Nat} (sized : length ≤ Int64.maxValue.toInt) :
    ∃ last, toWord? length = some last ∧ last.toInt = length := by
  have smallest : Int64.minValue.toInt ≤ (length : Int) := by
    rw [Int64.toInt_minValue]
    omega
  rw [Int64.toInt_maxValue] at sized
  refine ⟨.ofInt length, ?_, Int64.toInt_ofInt_of_le (by omega) (by omega)⟩
  rw [toWord?, if_pos ⟨smallest, by rw [Int64.toInt_maxValue]; exact sized⟩]

/-- A negative word is not saturated when a length is added. -/
theorem toInt_saturatingAdd {x y : Int64} (negative : x.toInt < 0) (natural : 0 ≤ y.toInt) :
    (saturatingAdd x y).toInt = x.toInt + y.toInt := by
  have low := x.le_toInt
  have high := y.toInt_lt
  unfold saturatingAdd
  rw [Int64.toInt_minValue, Int64.toInt_maxValue, Int64.toInt_ofInt_of_le (by omega) (by omega)]
  omega

/-! ## Selecting elements -/

section Selecting

variable {α : Type} {low high : Option Int64} {elements : List α}

/-- The position that a bound of a slice stands for: a negative one counts from the end, and none
is outside the sequence. -/
def boundPosition (bound : Option Int64) (absent length : Nat) : Int :=
  let asked : Int :=
    match bound with
    | none => absent
    | some bound => if bound.toInt < 0 then bound.toInt + length else bound.toInt
  max 0 (min asked length)

/-- The elements from one bound on and before the other. -/
def selected (low high : Option Int64) (elements : List α) : List α :=
  (elements.zipIdx.filter fun (_, position) =>
    boundPosition low 0 elements.length ≤ position ∧
      position < boundPosition high elements.length elements.length).map Prod.fst

theorem resolveBound_eq (bound : Option Int64) {absent last : Int64} {first length : Nat}
    (ends : last.toInt = length) (starts : absent.toInt = first) :
    ((min (resolveBound bound absent last).toNatClampNeg length : Nat) : Int) =
      boundPosition bound first length := by
  unfold resolveBound boundPosition
  rw [← Int64.toNat_toInt]
  cases bound with
  | none =>
      simp only [starts]
      omega
  | some bound =>
      simp only [Int64.lt_iff_toInt_lt, Int64.toInt_zero]
      split
      · rename_i negative
        rw [toInt_saturatingAdd negative (by omega), ends]
        omega
      · omega

/-- The bounds of a slice are those positions, put in order. -/
theorem resolveSlice_eq (low high : Option Int64) {length : Nat}
    (sized : length ≤ Int64.maxValue.toInt) :
    ((resolveSlice low high length).1 : Int) = boundPosition low 0 length ∧
      ((resolveSlice low high length).2 : Int) =
        max (boundPosition high length length) (boundPosition low 0 length) := by
  obtain ⟨last, word, ends⟩ := toWord?_length sized
  have first : (0 : Int64).toInt = (0 : Nat) := rfl
  have lower := resolveBound_eq low ends first
  have upper := resolveBound_eq high ends ends
  simp only [resolveSlice, clampSlice, word, Option.getD_some]
  omega

/-- Elements between two positions, where the first one is at `offset`. -/
theorem filter_between (elements : List α) (offset start stop : Nat) :
    ((elements.zipIdx offset).filter fun (_, position) => start ≤ position ∧ position < stop).map
      Prod.fst = (elements.take (stop - offset)).drop (start - offset) := by
  induction elements generalizing offset with
  | nil => simp
  | cons first rest ih =>
      have ih := ih (offset + 1)
      simp only [List.zipIdx_cons, List.filter_cons]
      by_cases before : offset < stop
      · have shorter : stop - offset = (stop - (offset + 1)) + 1 := by omega
        by_cases after : start ≤ offset
        · have none_left : start - offset = 0 := by omega
          have none_left' : start - (offset + 1) = 0 := by omega
          rw [none_left', List.drop_zero] at ih
          rw [if_pos (by simp [before, after]), List.map_cons, ih, none_left, List.drop_zero,
            shorter, List.take_succ_cons]
        · have skipped : start - offset = (start - (offset + 1)) + 1 := by omega
          rw [if_neg (by simp [after]), ih, shorter, skipped, List.take_succ_cons,
            List.drop_succ_cons]
      · have nothing : stop - offset = 0 := by omega
        have nothing' : stop - (offset + 1) = 0 := by omega
        rw [if_neg (by simp [before]), ih, nothing, nothing']
        simp

/-- What the machine takes out of a sequence is what is selected. -/
theorem selected_eq (low high : Option Int64) (sized : elements.length ≤ Int64.maxValue.toInt) :
    selected low high elements =
      (elements.take (resolveSlice low high elements.length).2).drop
        (resolveSlice low high elements.length).1 := by
  obtain ⟨lower, upper⟩ := resolveSlice_eq low high sized
  rw [← Nat.sub_zero (resolveSlice low high elements.length).1,
    ← Nat.sub_zero (resolveSlice low high elements.length).2, ← filter_between]
  unfold selected
  congr 2
  funext ⟨_, position⟩
  simp only [decide_eq_decide]
  omega

theorem resolveSlice_bounds (low high : Option Int64) (length : Nat) :
    (resolveSlice low high length).1 ≤ (resolveSlice low high length).2 ∧
      (resolveSlice low high length).2 ≤ length :=
  ⟨Nat.le_max_right _ _, Nat.max_le.mpr ⟨Nat.min_le_right _ _, Nat.min_le_right _ _⟩⟩

/-- The part of an array that is taken out is what is selected. -/
theorem extract_selected {β : Type} (array : Array β) (wrap : β → α) (low high : Option Int64)
    (sized : array.size ≤ Int64.maxValue.toInt) :
    (array.extract (resolveSlice low high array.size).1
        (resolveSlice low high array.size).2).toList.map wrap =
      selected low high (array.toList.map wrap) := by
  rw [selected_eq low high (by simpa using sized), List.length_map, Array.length_toList,
    Array.toList_extract, List.extract_eq_take_drop, ← List.drop_take, List.map_drop, List.map_take]

/-- A slice from end to end selects everything, and no other slice does. -/
theorem selected_eq_self_iff (low high : Option Int64)
    (sized : elements.length ≤ Int64.maxValue.toInt) : selected low high elements = elements ↔
      (resolveSlice low high elements.length).1 = 0 ∧
        (resolveSlice low high elements.length).2 = elements.length := by
  obtain ⟨ordered, inside⟩ := resolveSlice_bounds low high elements.length
  rw [selected_eq low high sized]
  constructor
  · intro all
    have lengths := congrArg List.length all
    rw [List.length_drop, List.length_take] at lengths
    omega
  · rintro ⟨first, last⟩
    rw [first, last, List.take_length, List.drop_zero]

/-- A sequence is cut in two anywhere. -/
theorem selected_append (cut : Int64) (sized : elements.length ≤ Int64.maxValue.toInt) :
    selected none (some cut) elements ++ selected (some cut) none elements = elements := by
  have front := resolveSlice_eq none (some cut) sized
  have back := resolveSlice_eq (some cut) none sized
  have same : boundPosition (some cut) 0 elements.length =
      boundPosition (some cut) elements.length elements.length := rfl
  have whole : boundPosition none elements.length elements.length = elements.length := by
    simp [boundPosition]
  have nothing : boundPosition none 0 elements.length = 0 := by
    simp [boundPosition]
  rw [same, whole] at back
  rw [nothing] at front
  have inside := (resolveSlice_bounds none (some cut) elements.length).2
  have start : (resolveSlice none (some cut) elements.length).1 = 0 := by omega
  have meet : (resolveSlice (some cut) none elements.length).1 =
      (resolveSlice none (some cut) elements.length).2 := by
    omega
  have stop : (resolveSlice (some cut) none elements.length).2 = elements.length := by omega
  rw [selected_eq none (some cut) sized, selected_eq (some cut) none sized, start, meet, stop,
    List.drop_zero, List.take_length, List.take_append_drop]

end Selecting

/-! ## Sequences in a store -/

variable {τ : Type} {store after : Store τ} {ref left right sequence : Ref} {kind : Kind}
variable {held inner : List Ref} {elements first second : List Element} {payload : Payload}

namespace Store

theorem SequenceAt.transfer {before : Store τ} {other : Ref}
    (known : before.SequenceAt ref kind elements)
    (same : ∀ payload, before.payload? ref = some payload → after.payload? other = some payload) :
    after.SequenceAt other kind elements := by
  cases known with
  | string bytes found => exact .string bytes (same _ found)
  | list items found => exact .list items (same _ found)
  | tuple items found => exact .tuple items (same _ found)

theorem ElementAt.transfer {before : Store τ} {element : Element}
    (known : before.ElementAt ref element)
    (same : ∀ payload, before.payload? ref = some payload → after.payload? ref = some payload) :
    after.ElementAt ref element := by
  cases known with
  | byte value found => exact .byte value (same _ found)
  | item => exact .item

theorem SequenceAt.length?_eq
    (known : store.SequenceAt sequence kind elements) :
    ∃ payload, store.payload? sequence = some payload ∧ payload.kind.isSequence = true ∧
      payload.length? = some elements.length := by
  cases known with
  | string bytes found => exact ⟨_, found, rfl, by simp [Payload.length?]⟩
  | list items found => exact ⟨_, found, rfl, by simp [Payload.length?]⟩
  | tuple items found => exact ⟨_, found, rfl, by simp [Payload.length?]⟩

/-- A sequence has its elements and no others. -/
theorem SequenceAt.unique {other : Kind} {others : List Element}
    (known : store.SequenceAt ref kind elements) (known' : store.SequenceAt ref other others) :
    elements = others := by
  cases known with
  | string bytes found =>
      cases known' with
      | string _ found' => cases found.symm.trans found'; rfl
      | list _ found' => cases found.symm.trans found'
      | tuple _ found' => cases found.symm.trans found'
  | list items found =>
      cases known' with
      | string _ found' => cases found.symm.trans found'
      | list _ found' => cases found.symm.trans found'; rfl
      | tuple _ found' => cases found.symm.trans found'
  | tuple items found =>
      cases known' with
      | string _ found' => cases found.symm.trans found'
      | list _ found' => cases found.symm.trans found'
      | tuple _ found' => cases found.symm.trans found'; rfl

theorem SequenceAt.usable (known : store.SequenceAt ref kind elements)
    (sound : store.Sound held inner) : store.Usable ref := by
  obtain ⟨payload, found, isSequence, -⟩ := known.length?_eq
  have other : ∀ kind, kind.isSequence = false → payload.kind ≠ kind := by
    rintro kind plain rfl
    rw [isSequence] at plain
    cases plain
  have meets := sound.meets_of_kind (kind?_eq found) (other _ rfl)
  exact ⟨⟨_, found⟩, meets.value ⟨other _ rfl, other _ rfl⟩⟩

end Store

namespace StoreM

variable [Tracker τ]

/-- An object without parts is made. -/
theorem allocate_leaf_granted (sound : store.Sound held inner) (leaf : payload.roles = [])
    (plain : payload.kind ≠ .none ∧ payload.kind ≠ .dictionary ∧ payload.IsPlain) :
    Granted store.tracker (allocate payload store) fun ref after =>
      store.Grows held inner [ref] after ∧ store.payload? ref = none ∧
        after.payload? ref = some payload := by
  have childless : payload.children = [] := by rw [← Payload.map_fst_roles, leaf, List.map_nil]
  have makes : store.Makes payload := by
    apply Makes.of_roles ⟨plain.2.1, plain.1⟩
    intro child role member
    rw [leaf] at member
    cases member
  apply allocate_granted (by rwa [childless]) makes
  simpa [Role.Allows, Payload.IsPlain] using plain.2.2

theorem allocate_bytes_granted (sound : store.Sound held inner) (bytes : Bytes) :
    Granted store.tracker (allocate (.string bytes) store) fun ref after =>
      store.Grows held inner [ref] after ∧ store.payload? ref = none ∧
        after.payload? ref = some (.string bytes) :=
  allocate_leaf_granted sound rfl (by simp [Payload.kind, Payload.IsPlain])

theorem allocate_int_granted (sound : store.Sound held inner) (value : Int64) :
    Granted store.tracker (allocate (.int value) store) fun ref after =>
      store.Grows held inner [ref] after ∧ store.payload? ref = none ∧
        after.payload? ref = some (.int value) :=
  allocate_leaf_granted sound rfl (by simp [Payload.kind, Payload.IsPlain])

/-- A list or a tuple is made of items that the caller gives to it. -/
theorem allocate_sequence_granted {pack : Array Ref → Payload} {items : Array Ref}
    (packs : pack = Payload.list ∨ pack = Payload.tuple)
    (sound : store.Sound (items.toList ++ held) inner) :
    Granted store.tracker (allocate (pack items) store) fun ref after =>
      store.Grows held inner [ref] after ∧ store.payload? ref = none ∧
        after.payload? ref = some (pack items) := by
  have children : (pack items).children = items.toList := by rcases packs with rfl | rfl <;> rfl
  have makes : store.Makes (pack items) := by
    apply Makes.of_roles
    · rcases packs with rfl | rfl <;> simp [Payload.kind]
    · intro child role member
      have given : child ∈ items.toList ∧ role = .value := by
        rcases packs with rfl | rfl <;> simpa [Payload.roles, eq_comm] using member
      rw [given.2]
      exact sound.values child (List.mem_append_left _ given.1)
  apply allocate_granted (by rwa [children]) makes
  rcases packs with rfl | rfl <;> simp [Role.Allows, Payload.kind]

/-- A list or a tuple is made of items that are in the store. -/
theorem allocateItems_granted {pack : Array Ref → Payload} {items : Array Ref}
    (packs : pack = Payload.list ∨ pack = Payload.tuple) (sound : store.Sound held inner)
    (usable : ∀ item ∈ items.toList, store.Usable item) :
    Granted store.tracker (allocateItems pack items store) fun ref after =>
      store.Grows held inner [ref] after ∧ store.payload? ref = none ∧
        after.payload? ref = some (pack items) := by
  obtain ⟨middle, acquired, grown⟩ := acquireAll_grows sound usable
  unfold allocateItems
  rw [bind_ok acquired]
  apply ((allocate_sequence_granted packs grown.sound).of_asked grown.asked).imp
  intro ref after ⟨more, vacant, found⟩
  refine ⟨grown.trans more, ?_, found⟩
  -- What is vacant once references were taken was vacant before.
  cases before : store.payload? ref with
  | none => rfl
  | some stored =>
      have still := grown.retains ref stored before
      rw [vacant] at still
      cases still

omit [Tracker τ] in
theorem part_usable {items : Array Ref} (usable : ∀ item ∈ items.toList, store.Usable item)
    (start stop : Nat) :
    ∀ item ∈ (items.extract start stop).toList, store.Usable item := by
  intro item inside
  rw [Array.toList_extract, List.extract_eq_take_drop] at inside
  exact usable item (List.mem_of_mem_drop (List.mem_of_mem_take inside))

omit [Tracker τ] in
theorem append_usable {items more : Array Ref}
    (usable : ∀ item ∈ items.toList, store.Usable item)
    (usable' : ∀ item ∈ more.toList, store.Usable item) :
    ∀ item ∈ (items ++ more).toList, store.Usable item := by
  intro item member
  rw [Array.toList_append] at member
  cases List.mem_append.mp member with
  | inl inside => exact usable item inside
  | inr inside => exact usable' item inside

/-! ## Parts that are shared -/

section Sharing

variable {α : Type} {pack : Array α → Payload} {wrap : α → Element} {x y : Array α}
variable {make : StoreM τ Ref}

/-- Where one of two sequences is empty, the other one is shared. -/
theorem concat_sharing (sound : store.Sound held inner)
    (spelled : ∀ (store : Store τ) ref array, store.payload? ref = some (pack array) →
      store.SequenceAt ref kind (array.toList.map wrap))
    (before : store.payload? left = some (pack x)) (behind : store.payload? right = some (pack y))
    (made : Granted store.tracker (make store) fun whole after =>
      store.Grows held inner [whole] after ∧ store.payload? whole = none ∧
        after.payload? whole = some (pack (x ++ y))) :
    Granted store.tracker
      ((if y.isEmpty then acquire left else if x.isEmpty then acquire right else make) store)
      fun whole after => store.Grows held inner [whole] after ∧
        after.SequenceAt whole kind (x.toList.map wrap ++ y.toList.map wrap) := by
  have leftUsable := (spelled store left x before).usable sound
  have rightUsable := (spelled store right y behind).usable sound
  split
  · rename_i empty
    have nothing : y = #[] := by simpa using empty
    apply (acquire_granted sound leftUsable).imp
    rintro whole after ⟨rfl, grown⟩
    refine ⟨grown, ?_⟩
    simpa [nothing] using spelled after whole x (grown.retains _ _ before)
  split
  · rename_i empty
    have nothing : x = #[] := by simpa using empty
    apply (acquire_granted sound rightUsable).imp
    rintro whole after ⟨rfl, grown⟩
    refine ⟨grown, ?_⟩
    simpa [nothing] using spelled after whole y (grown.retains _ _ behind)
  · apply made.imp
    rintro whole after ⟨grown, -, found⟩
    refine ⟨grown, ?_⟩
    simpa using spelled after whole (x ++ y) found

/-- Where a slice has all of a sequence, the sequence itself is shared. -/
theorem slice_sharing (low high : Option Int64) (sound : store.Sound held inner)
    (spelled : ∀ (store : Store τ) ref array, store.payload? ref = some (pack array) →
      store.SequenceAt ref kind (array.toList.map wrap))
    (found : store.payload? sequence = some (pack x)) (sized : x.size ≤ Int64.maxValue.toInt)
    (made : Granted store.tracker (make store) fun part after =>
      store.Grows held inner [part] after ∧ store.payload? part = none ∧
        after.payload? part = some (pack (x.extract (resolveSlice low high x.size).1
          (resolveSlice low high x.size).2))) :
    Granted store.tracker
      ((if (resolveSlice low high x.size).1 = 0 ∧ (resolveSlice low high x.size).2 = x.size then
        acquire sequence else make) store)
      fun part after => store.Grows held inner [part] after ∧
        after.SequenceAt part kind (selected low high (x.toList.map wrap)) ∧
        (part = sequence ↔ selected low high (x.toList.map wrap) = x.toList.map wrap) := by
  have all_iff : selected low high (x.toList.map wrap) = x.toList.map wrap ↔ _ :=
    selected_eq_self_iff low high (by simpa using sized)
  rw [List.length_map, Array.length_toList] at all_iff
  split
  · rename_i whole
    have all := all_iff.mpr whole
    apply (acquire_granted sound ((spelled store sequence x found).usable sound)).imp
    rintro part after ⟨rfl, grown⟩
    refine ⟨grown, ?_, by simp [all]⟩
    rw [all]
    exact spelled after part x (grown.retains _ _ found)
  · rename_i proper
    apply made.imp
    intro part after ⟨grown, vacant, present⟩
    refine ⟨grown, ?_, ?_⟩
    · have content := spelled after part _ present
      rw [extract_selected x wrap low high sized] at content
      exact content
    · have different : part ≠ sequence := by
        rintro rfl
        rw [vacant] at found
        cases found
      simp only [different, false_iff]
      exact fun all => proper (all_iff.mp all)

end Sharing

theorem concat_granted (sound : store.Sound held inner)
    (before : store.SequenceAt left kind first) (behind : store.SequenceAt right kind second) :
    Granted store.tracker (concat left right store) fun whole after =>
      store.Grows held inner [whole] after ∧ after.SequenceAt whole kind (first ++ second) := by
  unfold concat
  cases before with
  | string bytes found =>
      cases behind with
      | string bytes' found' =>
          rw [StoreM.get_bind found, StoreM.get_bind found']
          exact concat_sharing sound (fun _ _ => .string) found found'
            (allocate_bytes_granted sound _)
  | tuple items found =>
      cases behind with
      | tuple items' found' =>
          rw [StoreM.get_bind found, StoreM.get_bind found']
          exact concat_sharing sound (fun _ _ => .tuple) found found'
            (allocateItems_granted (.inr rfl) sound (append_usable
              (usable_items sound (.inr found)) (usable_items sound (.inr found'))))
  | list items found =>
      cases behind with
      | list items' found' =>
          rw [StoreM.get_bind found, StoreM.get_bind found']
          have usable := append_usable (usable_items sound (.inl found))
            (usable_items sound (.inl found'))
          apply (allocateItems_granted (.inl rfl) sound usable).imp
          rintro whole after ⟨grown, -, present⟩
          refine ⟨grown, ?_⟩
          simpa using SequenceAt.list (items ++ items') present

/-! ## A part of a sequence -/

/-- A part of a sequence has what is selected.  A list is always copied, and the others are
shared where everything is selected. -/
theorem slice_granted (sound : store.Sound held inner)
    (known : store.SequenceAt sequence kind elements)
    (sized : elements.length ≤ Int64.maxValue.toInt) (low high : Option Int64) :
    Granted store.tracker (slice sequence low high store) fun part after =>
      store.Grows held inner [part] after ∧
        after.SequenceAt part kind (selected low high elements) ∧
        if kind = .list then store.payload? part = none
        else (part = sequence ↔ selected low high elements = elements) := by
  unfold slice
  cases known with
  | string bytes found =>
      rw [StoreM.get_bind found]
      exact slice_sharing low high sound (fun _ _ => .string) found (by simpa using sized)
        (allocate_bytes_granted sound _)
  | tuple items found =>
      rw [StoreM.get_bind found]
      exact slice_sharing low high sound (fun _ _ => .tuple) found (by simpa using sized)
        (allocateItems_granted (.inr rfl) sound (part_usable (usable_items sound (.inr found)) _ _))
  | list items found =>
      rw [StoreM.get_bind found]
      have usable := usable_items sound (.inl found)
      apply (allocateItems_granted (.inl rfl) sound (part_usable usable _ _)).imp
      rintro part after ⟨grown, vacant, present⟩
      refine ⟨grown, ?_, vacant⟩
      rw [← extract_selected items Element.item low high (by simpa using sized)]
      exact .list _ present

/-- A sequence that is cut in two and put together again has the same elements. -/
theorem rejoin_granted (sound : store.Sound held inner)
    (known : store.SequenceAt sequence kind elements)
    (sized : elements.length ≤ Int64.maxValue.toInt) (cut : Int64) :
    Granted store.tracker
      ((do
        let front ← slice sequence none (some cut)
        let back ← slice sequence (some cut) none
        concat front back : StoreM τ Ref) store)
      fun whole after => store.Retains after ∧ after.SequenceAt whole kind elements := by
  apply (slice_granted sound known sized none (some cut)).bind
  rintro front middle ⟨grown, frontAt, -⟩
  have still := known.transfer (grown.retains sequence)
  apply Granted.of_asked grown.asked
  apply (slice_granted grown.sound still sized (some cut) none).bind
  rintro back last ⟨grown', backAt, -⟩
  apply Granted.of_asked grown'.asked
  apply (concat_granted grown'.sound (frontAt.transfer (grown'.retains front)) backAt).imp
  rintro whole after ⟨grown'', wholeAt⟩
  rw [selected_append cut sized] at wholeAt
  exact ⟨(grown.trans (grown'.trans grown'')).retains, wholeAt⟩

/-! ## One element of a sequence -/

omit [Tracker τ] in
/-- A natural index inside the sequence stands for itself. -/
theorem resolveIndex?_eq {index : Int64} {position length : Nat}
    (sized : length ≤ Int64.maxValue.toInt) (natural : index.toInt = position)
    (inside : position < length) : resolveIndex? index length = some position := by
  obtain ⟨last, word, -⟩ := toWord?_length sized
  have upwards : ¬ index < 0 := by
    rw [Int64.lt_iff_toInt_lt, natural, Int64.toInt_zero]
    omega
  have within : 0 ≤ index ∧ index.toInt < length := by
    rw [Int64.le_iff_toInt_le, natural, Int64.toInt_zero]
    omega
  simp only [resolveIndex?, word, Option.bind_eq_bind, Option.bind_some, if_neg upwards]
  rw [if_pos within, natural, Int.toNat_natCast]

/-- An item of a list or a tuple is the object that is there. -/
theorem itemAt_granted {items : Array Ref} {index : Int64} {position : Nat}
    (sound : store.Sound held inner) (usable : ∀ item ∈ items.toList, store.Usable item)
    (sized : items.size ≤ Int64.maxValue.toInt) (natural : index.toInt = position)
    (inside : position < items.size) (kind : Kind) :
    Granted store.tracker (itemAt kind items index store) fun item after =>
      store.Grows held inner [item] after ∧ item = items[position] := by
  have there : items[position]? = some items[position] := Array.getElem?_eq_getElem inside
  unfold itemAt
  rw [resolveIndex?_eq sized natural inside, Option.bind_some, there]
  apply (acquire_granted sound (usable _ (by simp))).imp
  rintro item after ⟨rfl, grown⟩
  exact ⟨grown, rfl⟩

theorem index_granted {index : Int64} {position : Nat} {element : Element}
    (sound : store.Sound held inner) (known : store.SequenceAt sequence kind elements)
    (sized : elements.length ≤ Int64.maxValue.toInt) (natural : index.toInt = position)
    (here : elements[position]? = some element) :
    Granted store.tracker (StoreM.index sequence index store) fun item after =>
      store.Grows held inner [item] after ∧ after.ElementAt item element := by
  obtain ⟨inside, there⟩ := List.getElem?_eq_some_iff.mp here
  unfold StoreM.index
  cases known with
  | string bytes found =>
      rw [List.length_map, Array.length_toList] at sized inside
      rw [List.getElem_map, Array.getElem_toList] at there
      have byte : bytes[position]? = some bytes[position] := Array.getElem?_eq_getElem inside
      rw [StoreM.get_bind found]
      simp only
      rw [resolveIndex?_eq sized natural inside, Option.bind_some, byte]
      apply (allocate_bytes_granted sound #[bytes[position]]).imp
      rintro item after ⟨grown, -, present⟩
      exact ⟨grown, there ▸ .byte _ present⟩
  | list items found =>
      rw [List.length_map, Array.length_toList] at sized inside
      rw [List.getElem_map, Array.getElem_toList] at there
      rw [StoreM.get_bind found]
      apply (itemAt_granted sound (usable_items sound (.inl found)) sized natural inside _).imp
      rintro item after ⟨grown, rfl⟩
      exact ⟨grown, there ▸ .item⟩
  | tuple items found =>
      rw [List.length_map, Array.length_toList] at sized inside
      rw [List.getElem_map, Array.getElem_toList] at there
      rw [StoreM.get_bind found]
      apply (itemAt_granted sound (usable_items sound (.inr found)) sized natural inside _).imp
      rintro item after ⟨grown, rfl⟩
      exact ⟨grown, there ▸ .item⟩

/-- A loop gets the element at its position, or nothing at the end. -/
theorem loopItem_granted (sound : store.Sound held inner)
    (known : store.SequenceAt sequence kind elements)
    (sized : elements.length ≤ Int64.maxValue.toInt) (position : Nat) :
    Granted store.tracker (loopItem sequence position store) fun item? after =>
      match elements[position]? with
      | some element => ∃ item, item? = some item ∧ store.Grows held inner [item] after ∧
          after.ElementAt item element
      | none => item? = none ∧ after = store := by
  obtain ⟨payload, found, isSequence, length⟩ := known.length?_eq
  unfold loopItem
  rw [StoreM.get_bind found, if_pos isSequence, length]
  cases here : elements[position]? with
  | none =>
      have ended : elements.length ≤ position := List.getElem?_eq_none_iff.mp here
      simp only [Option.any_some, decide_eq_true ended, if_true]
      exact ⟨rfl, rfl⟩
  | some element =>
      obtain ⟨inside, -⟩ := List.getElem?_eq_some_iff.mp here
      have going : ¬ elements.length ≤ position := Nat.not_le.mpr inside
      obtain ⟨word, counted, exact⟩ :=
        toWord?_length (show (position : Int) ≤ Int64.maxValue.toInt by omega)
      simp only [Option.any_some, going, decide_false, Bool.false_eq_true, if_false, counted]
      apply Granted.map
      apply (index_granted sound known sized exact here).imp
      intro item after ⟨grown, elementAt⟩
      exact ⟨item, rfl, grown, elementAt⟩

end StoreM

end StackMachine
