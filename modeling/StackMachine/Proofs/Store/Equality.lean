import StackMachine.Proofs.Store.Order
import StackMachine.Proofs.Store.Reading
import StackMachine.Proofs.Store.Showing

/-!
# Equal objects are shown alike

Comparing two objects and showing them are two walks through the store, each with its own way not
to go too deep.  On data that is nested no deeper than they go they agree: the comparison has an
answer, and the answer is "equal" exactly if both objects are shown as the same value.

Depth is counted along the ways from an object to those it owns.  A bound on all of them rules out
cycles, so nothing is met again inside itself.  The induction is on that bound; objects that are
shared, and an object that is compared with itself, need no care, since what an object is shown as
does not depend on where it is met.
-/

namespace StackMachine

/-- Is the object data that is compared by what is in it?  Strings have to be text. -/
inductive Payload.IsData : Payload → Prop where
  | none : IsData .none
  | int (value : Int64) : IsData (.int value)
  | string (text : String) : IsData (.string (Bytes.ofString text))
  | list (items : Array Ref) : IsData (.list items)
  | tuple (items : Array Ref) : IsData (.tuple items)

namespace Store

open Relation

variable {τ : Type} {store : Store τ} {ref left right child target middle : Ref}
variable {payload leftPayload rightPayload : Payload} {depth level more : Nat}
variable {shown first second : Object}

/-! ## Depth -/

/-- On a way from an object, another one is met `level` steps down. -/
inductive Below (store : Store τ) : (level : Nat) → (ref part : Ref) → Prop where
  | here (ref : Ref) : Below store 0 ref ref
  | inside {level : Nat} {ref child part : Ref} (owns : store.Owns ref child)
      (below : Below store level child part) : Below store (level + 1) ref part

namespace Below

theorem trans (upper : store.Below level ref middle) (lower : store.Below more middle target) :
    store.Below (level + more) ref target := by
  induction upper with
  | here ref => simpa using lower
  | inside owns _ ih =>
      rw [Nat.add_right_comm]
      exact .inside owns (ih lower)

theorem of_path (path : ReflTransGen store.Owns ref target) :
    ∃ level, store.Below level ref target := by
  induction path with
  | refl => exact ⟨0, .here ref⟩
  | tail _ owns ih =>
      obtain ⟨level, below⟩ := ih
      exact ⟨level + 1, below.trans (.inside owns (.here _))⟩

/-- What leads to itself is met at any depth inside itself. -/
theorem of_cycle (owns : store.Owns ref child) (path : ReflTransGen store.Owns child ref)
    (depth : Nat) : ∃ level, depth ≤ level ∧ store.Below level ref ref := by
  obtain ⟨turn, around⟩ := of_path path
  induction depth with
  | zero => exact ⟨0, Nat.le_refl 0, .here ref⟩
  | succ depth ih =>
      obtain ⟨level, deep, below⟩ := ih
      have deeper : store.Below (turn + 1 + level) ref ref := (inside owns around).trans below
      exact ⟨_, by omega, deeper⟩

end Below

theorem Reaches.path (reached : store.Reaches ref target) :
    ReflTransGen store.Owns ref target := by
  induction reached with
  | self => exact .refl
  | item reached holds member ih =>
      refine ih.tail (owns_iff.mpr ?_)
      rcases holds with list | tuple
      · exact ⟨_, list, Array.mem_toList_iff.mpr member⟩
      · exact ⟨_, tuple, Array.mem_toList_iff.mpr member⟩

/-- Everything that is met on the ways from an object is data, and no deeper than `depth`. -/
def DataUpTo (store : Store τ) (depth : Nat) (ref : Ref) : Prop :=
  ∀ level part payload, store.Below level ref part → store.payload? part = some payload →
    payload.IsData ∧ level ≤ depth

namespace DataUpTo

theorem isData (data : store.DataUpTo depth ref) (found : store.payload? ref = some payload) :
    payload.IsData :=
  (data 0 ref payload (.here ref) found).1

/-- An object whose parts are data of less depth is data. -/
theorem of_children (found : store.payload? ref = some payload) (isData : payload.IsData)
    (parts : ∀ child ∈ payload.children, store.DataUpTo depth child) :
    store.DataUpTo (depth + 1) ref := by
  intro level part stored below present
  cases below with
  | here =>
      obtain rfl := Option.some.inj (found.symm.trans present)
      exact ⟨isData, Nat.zero_le _⟩
  | inside owns below =>
      obtain ⟨_, here, member⟩ := owns_iff.mp owns
      obtain rfl := Option.some.inj (found.symm.trans here)
      have known := parts _ member _ part stored below present
      exact ⟨known.1, Nat.succ_le_succ known.2⟩

/-- Data without parts has no depth. -/
theorem of_childless (found : store.payload? ref = some payload) (isData : payload.IsData)
    (childless : payload.children = []) (depth : Nat) : store.DataUpTo depth ref := by
  intro level part stored below present
  cases below with
  | here =>
      obtain rfl := Option.some.inj (found.symm.trans present)
      exact ⟨isData, Nat.zero_le _⟩
  | inside owns below =>
      obtain ⟨_, here, member⟩ := owns_iff.mp owns
      obtain rfl := Option.some.inj (found.symm.trans here)
      simp [childless] at member

/-- The parts of data are data of less depth. -/
theorem part (data : store.DataUpTo depth ref) (found : store.payload? ref = some payload)
    (member : child ∈ payload.children) (filled : store.Filled child) :
    ∃ less, depth = less + 1 ∧ store.DataUpTo less child := by
  have owns : store.Owns ref child := owns_iff.mpr ⟨payload, found, member⟩
  have under : ∀ level part stored, store.Below level child part →
      store.payload? part = some stored → stored.IsData ∧ level + 1 ≤ depth :=
    fun level part stored below present =>
      data (level + 1) part stored (.inside owns below) present
  obtain ⟨stored, present⟩ := filled
  have positive : 0 + 1 ≤ depth := (under 0 child stored (.here child) present).2
  obtain ⟨less, rfl⟩ : ∃ less, depth = less + 1 := ⟨depth - 1, by omega⟩
  refine ⟨less, rfl, fun level part stored below present => ?_⟩
  have known := under level part stored below present
  exact ⟨known.1, Nat.le_of_succ_le_succ known.2⟩

/-- Data is not met inside itself. -/
theorem apart (data : store.DataUpTo depth ref) (found : store.payload? ref = some payload) :
    ¬ store.LeadsTo payload.children ref := by
  intro leads
  obtain ⟨child, member, path⟩ := leads
  have owns : store.Owns ref child := owns_iff.mpr ⟨payload, found, member⟩
  obtain ⟨level, deep, below⟩ := Below.of_cycle owns path (depth + 1)
  have bounded := (data level ref payload below found).2
  omega

/-- Data is compared by its kinds and by what is in it. -/
theorem noNaN (data : store.DataUpTo depth ref) : store.NoNaN ref := by
  intro part value reached float
  obtain ⟨level, below⟩ := Below.of_path reached.path
  cases (data level part _ below float).1

end DataUpTo

/-! ## What data is shown as -/

/-- What an object is shown as, where its parts are shown within `room`. -/
inductive Pictures (store : Store τ) (room : Nat) : Payload → Object → Prop where
  | none : Pictures store room .none .none
  | int (value : Int64) : Pictures store room (.int value) (.int value)
  | string (text : String) : Pictures store room (.string (Bytes.ofString text)) (.string text)
  | list {items : Array Ref} {shown : List Object}
      (parts : List.Forall₂ (store.Shows room) items.toList shown) :
      Pictures store room (.list items) (.list shown)
  | tuple {items : Array Ref} {shown : List Object}
      (parts : List.Forall₂ (store.Shows room) items.toList shown) :
      Pictures store room (.tuple items) (.tuple shown)

/-- A value has the type that the kind of the object is named for. -/
theorem Pictures.typeName_eq (pictures : store.Pictures depth payload shown) :
    shown.typeName = payload.kind.name := by
  cases pictures <;> rfl

/-- An object is shown as one value only. -/
theorem Shows.unique (one : store.Shows depth ref first) (other : store.Shows depth ref second) :
    first = second := by
  have shown := one [] (by simp)
  rw [other [] (by simp)] at shown
  exact (Except.ok.inj shown).symm

theorem exists_forall₂ {α β : Type} {relation : α → β → Prop} {items : List α}
    (each : ∀ item ∈ items, ∃ other, relation item other) :
    ∃ others, List.Forall₂ relation items others := by
  induction items with
  | nil => exact ⟨[], .nil⟩
  | cons item rest ih =>
      obtain ⟨other, related⟩ := each item List.mem_cons_self
      obtain ⟨others, further⟩ := ih fun next member => each next (List.mem_cons_of_mem _ member)
      exact ⟨other :: others, .cons related further⟩

/-- Data is shown as what is in it, as soon as its parts are shown. -/
theorem DataUpTo.pictured_of_parts (data : store.DataUpTo depth ref)
    (found : store.payload? ref = some payload)
    (parts : ∀ child ∈ payload.children, ∃ shown, store.Shows depth child shown) :
    ∃ shown, store.Shows (depth + 1) ref shown ∧ store.Pictures depth payload shown := by
  have apart := data.apart found
  cases data.isData found with
  | none => exact ⟨_, .leaf found rfl rfl _, .none⟩
  | int value => exact ⟨_, .leaf found rfl rfl _, .int value⟩
  | string text =>
      have told : store.showLeaf (.string (Bytes.ofString text)) = .ok (.string text) := by
        simp [showLeaf, Bytes.toText_ofString]
      exact ⟨_, .leaf found rfl told _, .string text⟩
  | list items =>
      obtain ⟨others, each⟩ := exists_forall₂ parts
      exact ⟨_, .list found apart each, .list each⟩
  | tuple items =>
      obtain ⟨others, each⟩ := exists_forall₂ parts
      exact ⟨_, .tuple found apart each, .tuple each⟩

theorem DataUpTo.pictured (data : store.DataUpTo depth ref) (closed : store.Closed)
    (found : store.payload? ref = some payload) :
    ∃ shown, store.Shows (depth + 1) ref shown ∧ store.Pictures depth payload shown := by
  induction depth generalizing ref payload with
  | zero =>
      apply data.pictured_of_parts found
      intro child member
      obtain ⟨less, impossible, -⟩ := data.part found member (closed ref payload found child member)
      cases impossible
  | succ depth ih =>
      apply data.pictured_of_parts found
      intro child member
      obtain ⟨stored, present⟩ := closed ref payload found child member
      obtain ⟨less, same, inner⟩ := data.part found member ⟨stored, present⟩
      obtain rfl := Nat.succ.inj same
      obtain ⟨shown, shows_, -⟩ := ih inner present
      exact ⟨shown, shows_⟩

/-! ## Comparing what is shown -/

/-- Two objects can be compared and shown, and they are equal exactly if they are shown as the
same value. -/
def Agrees (store : Store τ) (room : Nat) (left right : Ref) : Prop :=
  ∃ ordering first second, store.compareWithin room left right = .ok ordering ∧
    store.Shows room left first ∧ store.Shows room right second ∧ (ordering = .eq ↔ first = second)

/-- Lists of items are equal exactly if they are shown as the same values, where that holds of
each two of them. -/
theorem compareItems_agrees {compareItem : Ref → Ref → Except (Stop Cause) Ordering}
    {lefts rights : List Ref} {firsts seconds : List Object}
    (leftShown : List.Forall₂ (store.Shows depth) lefts firsts)
    (rightShown : List.Forall₂ (store.Shows depth) rights seconds)
    (each : ∀ left ∈ lefts, ∀ right ∈ rights, ∃ ordering first second,
      compareItem left right = .ok ordering ∧ store.Shows depth left first ∧
        store.Shows depth right second ∧ (ordering = .eq ↔ first = second)) :
    ∃ ordering, compareItems compareItem lefts rights = .ok ordering ∧
      (ordering = .eq ↔ firsts = seconds) := by
  induction leftShown generalizing rights seconds with
  | nil =>
      cases rightShown with
      | nil => exact ⟨.eq, rfl, by simp⟩
      | cons shown rest => exact ⟨.lt, rfl, by simp⟩
  | @cons left first lefts firsts shown rest ih =>
      cases rightShown with
      | nil => exact ⟨.gt, rfl, by simp⟩
      | @cons right second rights seconds shown' rest' =>
          obtain ⟨ordering, _, _, answer, one, other, agreed⟩ :=
            each left List.mem_cons_self right List.mem_cons_self
          obtain rfl := one.unique shown
          obtain rfl := other.unique shown'
          obtain ⟨further, answers, rest_agreed⟩ := ih rest' fun next member other member' =>
            each next (List.mem_cons_of_mem _ member) other (List.mem_cons_of_mem _ member')
          by_cases same : ordering = .eq
          · subst same
            refine ⟨further, (compareItems_cons_of_eq answer).trans answers, ?_⟩
            simp [rest_agreed, agreed.mp rfl]
          · refine ⟨ordering, compareItems_cons_of_ne answer same, ?_⟩
            simp [same, mt agreed.mpr same]

/-- Two different objects of data are compared by what they are shown as, where that holds of
their parts. -/
theorem compareObjects_agrees (different : left ≠ right)
    (lone : ∀ ref, store.payload? ref = some .none → ref = .noneObject)
    (foundLeft : store.payload? left = some leftPayload)
    (foundRight : store.payload? right = some rightPayload)
    (leftPictured : store.Pictures depth leftPayload first)
    (rightPictured : store.Pictures depth rightPayload second)
    (parts : ∀ child ∈ leftPayload.children, ∀ other ∈ rightPayload.children,
      store.Agrees depth child other) :
    ∃ ordering, store.compareObjects depth (left, leftPayload) (right, rightPayload) =
      .ok ordering ∧ (ordering = .eq ↔ first = second) := by
  by_cases alike : leftPayload.kind = rightPayload.kind
  · unfold compareObjects
    simp only [if_pos alike]
    cases leftPictured with
    | none =>
        cases rightPictured <;> cases alike
        exact absurd ((lone left foundLeft).trans (lone right foundRight).symm) different
    | int x =>
        cases rightPictured <;> cases alike
        rename_i y
        refine ⟨_, rfl, ?_⟩
        simp [Int64.toInt_inj]
    | string text =>
        cases rightPictured <;> cases alike
        rename_i other
        refine ⟨_, rfl, ?_⟩
        simp [Bytes.ofString_injective.eq_iff]
    | list shown =>
        cases rightPictured <;> cases alike
        rename_i shown'
        obtain ⟨ordering, answer, agreed⟩ := compareItems_agrees shown shown' parts
        exact ⟨ordering, answer, by simp [agreed]⟩
    | tuple shown =>
        cases rightPictured <;> cases alike
        rename_i shown'
        obtain ⟨ordering, answer, agreed⟩ := compareItems_agrees shown shown' parts
        exact ⟨ordering, answer, by simp [agreed]⟩
  · refine ⟨_, if_neg alike, ?_⟩
    rw [compareName_eq_eq_iff]
    refine iff_of_false alike fun same => alike ?_
    rw [← compareName_eq_eq_iff, Kind.compareName, ← leftPictured.typeName_eq,
      ← rightPictured.typeName_eq, same]
    simp

theorem DataUpTo.agrees_of_parts (closed : store.Closed)
    (lone : ∀ ref, store.payload? ref = some .none → ref = .noneObject)
    (data : store.DataUpTo depth left) (data' : store.DataUpTo depth right)
    (foundLeft : store.payload? left = some leftPayload)
    (foundRight : store.payload? right = some rightPayload)
    (parts : ∀ child ∈ leftPayload.children, ∀ other ∈ rightPayload.children,
      store.Agrees depth child other) : store.Agrees (depth + 1) left right := by
  obtain ⟨first, shown, pictured⟩ := data.pictured closed foundLeft
  obtain ⟨second, shown', pictured'⟩ := data'.pictured closed foundRight
  by_cases same : left = right
  · subst same
    exact ⟨.eq, first, first, store.compareWithin_self _ left, shown, shown, by simp⟩
  · obtain ⟨ordering, answer, agreed⟩ :=
      compareObjects_agrees same lone foundLeft foundRight pictured pictured' parts
    refine ⟨ordering, first, second, ?_, shown, shown', agreed⟩
    rw [compareWithin_succ data.noNaN data'.noNaN same foundLeft foundRight, answer]

/-- Data that is nested no deeper than a comparison goes can be compared, and it is equal exactly
if it is shown alike. -/
theorem DataUpTo.agrees (closed : store.Closed)
    (lone : ∀ ref, store.payload? ref = some .none → ref = .noneObject)
    (data : store.DataUpTo depth left) (data' : store.DataUpTo depth right)
    (filled : store.Filled left) (filled' : store.Filled right) :
    store.Agrees (depth + 1) left right := by
  obtain ⟨leftPayload, foundLeft⟩ := filled
  obtain ⟨rightPayload, foundRight⟩ := filled'
  have inside := closed left leftPayload foundLeft
  have inside' := closed right rightPayload foundRight
  induction depth generalizing left right leftPayload rightPayload with
  | zero =>
      apply agrees_of_parts closed lone data data' foundLeft foundRight
      intro child member
      obtain ⟨less, impossible, -⟩ := data.part foundLeft member (inside child member)
      cases impossible
  | succ depth ih =>
      apply agrees_of_parts closed lone data data' foundLeft foundRight
      intro child member other member'
      obtain ⟨less, same, inner⟩ := data.part foundLeft member (inside child member)
      obtain ⟨less', same', inner'⟩ := data'.part foundRight member' (inside' other member')
      obtain rfl := Nat.succ.inj same
      obtain rfl := Nat.succ.inj same'
      obtain ⟨stored, present⟩ := inside child member
      obtain ⟨stored', present'⟩ := inside' other member'
      exact ih inner inner' stored present stored' present' (closed child stored present)
        (closed other stored' present')

end Store

end StackMachine
