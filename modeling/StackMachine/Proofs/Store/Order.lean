import StackMachine.Proofs.Store.Soundness
import StackMachine.Store.Order

/-!
# The order of objects is total

Comparison is a total preorder on objects from which no NaN is reached, whatever the
shape of the store: containers may share items or hold themselves, and objects may be
missing.  What has to be said about success is said at one depth.  If two comparisons
that follow each other succeed within some room, so does the one they make up for,
within the same room; so the induction is on the room, and inside it on the items.

Each object has a `Standing` among those of its kind.  A comparison that is not
answered at once looks at the kinds first and then at the standings.
-/

namespace StackMachine

/-- A comparison that is a total preorder where it succeeds, on those it is said of. -/
structure Preorders {α φ : Type} (compareThem : α → α → Except φ Ordering) (clean : α → Prop) :
    Prop where
  swap : ∀ {x y ordering}, clean x → clean y → compareThem x y = .ok ordering →
    compareThem y x = .ok ordering.swap
  trans : ∀ {x y z first second}, clean x → clean y → clean z →
    compareThem x y = .ok first → compareThem y z = .ok second →
    first ≠ .gt → second ≠ .gt → compareThem x z = .ok (first.then second)

namespace Preorders

variable {α φ : Type} {compareThem : α → α → Except φ Ordering} {clean : α → Prop}

/-- Comparisons that always succeed. -/
theorem of_transOrd [Ord α] [Std.TransOrd α] :
    Preorders (fun x y : α => (.ok (compare x y) : Except φ Ordering)) fun _ => True where
  swap {x y ordering} _ _ same := by
    obtain rfl := Except.ok.inj same
    exact congrArg Except.ok Std.OrientedCmp.eq_swap
  trans {x y z first second} _ _ _ left right below below' := by
    obtain rfl := Except.ok.inj left
    obtain rfl := Except.ok.inj right
    apply congrArg Except.ok
    cases order : compare x y with
    | gt => exact absurd order below
    | eq => exact Std.TransCmp.congr_left order
    | lt =>
        cases next : compare y z with
        | gt => exact absurd next below'
        | eq => exact Std.TransCmp.lt_of_lt_of_eq order next
        | lt => exact Std.TransCmp.lt_trans order next

/-- Whether there is an answer does not depend on the direction. -/
theorem answers_iff (preorders : Preorders compareThem clean) {x y : α} (cleanX : clean x)
    (cleanY : clean y) :
    (∃ ordering, compareThem x y = .ok ordering) ↔ ∃ ordering, compareThem y x = .ok ordering := by
  constructor
  · rintro ⟨ordering, answer⟩
    exact ⟨_, preorders.swap cleanX cleanY answer⟩
  · rintro ⟨ordering, answer⟩
    exact ⟨_, preorders.swap cleanY cleanX answer⟩

end Preorders

namespace Store

theorem compareName_eq_eq_iff {left right : Kind} :
    left.compareName right = .eq ↔ left = right := by
  rw [Kind.compareName, Std.compare_eq_iff_eq]
  constructor
  · intro same
    have known : ∀ kind : Kind, Kind.ofName? kind.name = some kind := by
      intro kind
      cases kind <;> decide
    exact Option.some.inj ((known left).symm.trans (same ▸ known right))
  · exact congrArg Kind.name

theorem eq_lt_of_ne {ordering : Ordering} (below : ordering ≠ .gt) (different : ordering ≠ .eq) :
    ordering = .lt := by
  cases ordering <;> simp at below different ⊢

theorem then_lt {ordering : Ordering} (below : ordering ≠ .gt) : ordering.then .lt = .lt := by
  cases ordering <;> simp at below ⊢

section Items

variable {φ : Type} {compareItem : Ref → Ref → Except φ Ordering} {clean : Ref → Prop}
  {left right : Ref} {lefts rights : List Ref} {ordering : Ordering}

/-- The first items decide, or the rest does where they are equal. -/
theorem compareItems_cons_eq_ok :
    compareItems compareItem (left :: lefts) (right :: rights) = .ok ordering ↔
      (compareItem left right = .ok .eq ∧ compareItems compareItem lefts rights = .ok ordering) ∨
        (compareItem left right = .ok ordering ∧ ordering ≠ .eq) := by
  rw [compareItems]
  cases answer : compareItem left right with
  | error stop => simp [bind, Except.bind]
  | ok first => cases first <;> cases ordering <;> simp [bind, Except.bind]

theorem compareItems_cons_of_ne (answer : compareItem left right = .ok ordering)
    (different : ordering ≠ .eq) :
    compareItems compareItem (left :: lefts) (right :: rights) = .ok ordering :=
  compareItems_cons_eq_ok.mpr (Or.inr ⟨answer, different⟩)

theorem compareItems_cons_of_eq (answer : compareItem left right = .ok .eq) :
    compareItems compareItem (left :: lefts) (right :: rights) =
      compareItems compareItem lefts rights := by
  rw [compareItems, answer]
  rfl

theorem compareItems_swap (preorders : Preorders compareItem clean)
    (cleanLefts : ∀ item ∈ lefts, clean item) (cleanRights : ∀ item ∈ rights, clean item)
    (answer : compareItems compareItem lefts rights = .ok ordering) :
    compareItems compareItem rights lefts = .ok ordering.swap := by
  induction lefts generalizing rights with
  | nil =>
      cases rights with
      | nil => exact Except.ok.inj answer ▸ rfl
      | cons right rights => exact Except.ok.inj answer ▸ rfl
  | cons left lefts ih =>
      cases rights with
      | nil => exact Except.ok.inj answer ▸ rfl
      | cons right rights =>
          have cleanLeft := cleanLefts left List.mem_cons_self
          have cleanRight := cleanRights right List.mem_cons_self
          rcases compareItems_cons_eq_ok.mp answer with ⟨first, rest⟩ | ⟨first, different⟩
          · rw [compareItems_cons_of_eq (preorders.swap cleanLeft cleanRight first)]
            exact ih (fun item member => cleanLefts item (List.mem_cons_of_mem _ member))
              (fun item member => cleanRights item (List.mem_cons_of_mem _ member)) rest
          · refine compareItems_cons_of_ne (preorders.swap cleanLeft cleanRight first) ?_
            cases ordering <;> simp at different ⊢

theorem compareItems_trans (preorders : Preorders compareItem clean) {xs ys zs : List Ref}
    {first second : Ordering} (cleanXs : ∀ item ∈ xs, clean item)
    (cleanYs : ∀ item ∈ ys, clean item) (cleanZs : ∀ item ∈ zs, clean item)
    (left : compareItems compareItem xs ys = .ok first)
    (right : compareItems compareItem ys zs = .ok second) (below : first ≠ .gt)
    (below' : second ≠ .gt) :
    compareItems compareItem xs zs = .ok (first.then second) := by
  induction xs generalizing ys zs with
  | nil =>
      -- An empty list comes first; what matters is whether the others are empty too.
      cases ys with
      | nil =>
          obtain rfl := Except.ok.inj left
          exact right
      | cons y ys =>
          obtain rfl := Except.ok.inj left
          cases zs with
          | nil => exact absurd (Except.ok.inj right).symm below'
          | cons z zs => rfl
  | cons x xs ih =>
      cases ys with
      | nil => exact absurd (Except.ok.inj left).symm below
      | cons y ys =>
          cases zs with
          | nil => exact absurd (Except.ok.inj right).symm below'
          | cons z zs =>
              have cleanX := cleanXs x List.mem_cons_self
              have cleanY := cleanYs y List.mem_cons_self
              have cleanZ := cleanZs z List.mem_cons_self
              rcases compareItems_cons_eq_ok.mp left with ⟨xy, rest⟩ | ⟨xy, different⟩
              · rcases compareItems_cons_eq_ok.mp right with ⟨yz, rest'⟩ | ⟨yz, different'⟩
                · have xz := preorders.trans cleanX cleanY cleanZ xy yz (by simp) (by simp)
                  rw [compareItems_cons_of_eq xz]
                  exact ih (fun item member => cleanXs item (List.mem_cons_of_mem _ member))
                    (fun item member => cleanYs item (List.mem_cons_of_mem _ member))
                    (fun item member => cleanZs item (List.mem_cons_of_mem _ member)) rest rest'
                · obtain rfl : second = .lt := eq_lt_of_ne below' different'
                  have xz := preorders.trans cleanX cleanY cleanZ xy yz (by simp) below'
                  rw [compareItems_cons_of_ne xz (by simp), then_lt below]
                  rfl
              · obtain rfl : first = .lt := eq_lt_of_ne below different
                obtain ⟨middle, yz, middleBelow⟩ :
                    ∃ middle, compareItem y z = .ok middle ∧ middle ≠ .gt := by
                  rcases compareItems_cons_eq_ok.mp right with ⟨yz, -⟩ | ⟨yz, -⟩
                  · exact ⟨.eq, yz, by simp⟩
                  · exact ⟨second, yz, below'⟩
                have xz := preorders.trans cleanX cleanY cleanZ xy yz below middleBelow
                exact compareItems_cons_of_ne xz (by simp)

/-- Comparing lists of items is a total preorder where comparing their items is. -/
theorem compareItems_preorders (preorders : Preorders compareItem clean) :
    Preorders (compareItems compareItem) fun items => ∀ item ∈ items, clean item where
  swap := compareItems_swap preorders
  trans := compareItems_trans preorders

end Items

/-! ## Objects of one kind -/

/-- What decides between two objects of one kind. -/
inductive Standing where
  | number (key : Int)
  | text (bytes : Bytes)
  | items (refs : List Ref)
  | place (index : Nat)

namespace Standing

/-- Where an object stands among those of its kind. -/
def ofPayload (ref : Ref) : Payload → Standing
  | .int value => number value.toInt
  | .float value => number value.orderKey
  | .string bytes => text bytes
  | .list refs => items refs.toList
  | .tuple refs => items refs.toList
  | _ => place ref.index

/-- The sort of a standing; only those of one sort are compared. -/
def sort : Standing → Nat
  | number _ => 0
  | text _ => 1
  | items _ => 2
  | place _ => 3

/-- The sort of standing that objects of a kind have. -/
def sortOf : Kind → Nat
  | .int | .float => 0
  | .string => 1
  | .list | .tuple => 2
  | _ => 3

theorem sort_ofPayload (ref : Ref) (payload : Payload) :
    (ofPayload ref payload).sort = sortOf payload.kind := by
  cases payload <;> rfl

/-- The items that a comparison goes on with. -/
def parts : Standing → List Ref
  | items refs => refs
  | _ => []

/-- The order of two standings of one sort. -/
def compareWith {φ : Type} (compareItem : Ref → Ref → Except φ Ordering) :
    Standing → Standing → Except φ Ordering
  | number x, number y => .ok (compare x y)
  | text x, text y => .ok (compare x y)
  | items xs, items ys => compareItems compareItem xs ys
  | place x, place y => .ok (compare x y)
  | _, _ => .ok .eq

variable {φ : Type} {compareItem : Ref → Ref → Except φ Ordering} {clean : Ref → Prop}

theorem preorders (itemsPreorder : Preorders compareItem clean) (kind : Nat) :
    Preorders (compareWith compareItem) fun standing =>
      standing.sort = kind ∧ ∀ item ∈ standing.parts, clean item where
  swap {x y ordering} cleanX cleanY answer := by
    have alike : x.sort = y.sort := cleanX.1.trans cleanY.1.symm
    cases x with
    | number x =>
        cases y with
        | number y => exact Preorders.of_transOrd.swap trivial trivial answer
        | _ => cases alike
    | text x =>
        cases y with
        | text y => exact Preorders.of_transOrd.swap trivial trivial answer
        | _ => cases alike
    | items xs =>
        cases y with
        | items ys => exact (compareItems_preorders itemsPreorder).swap cleanX.2 cleanY.2 answer
        | _ => cases alike
    | place x =>
        cases y with
        | place y => exact Preorders.of_transOrd.swap trivial trivial answer
        | _ => cases alike
  trans {x y z first second} cleanX cleanY cleanZ left right below below' := by
    have alike : x.sort = y.sort := cleanX.1.trans cleanY.1.symm
    have alike' : y.sort = z.sort := cleanY.1.trans cleanZ.1.symm
    cases x with
    | number x =>
        cases y with
        | number y =>
            cases z with
            | number z =>
                exact Preorders.of_transOrd.trans trivial trivial trivial left right below below'
            | _ => cases alike'
        | _ => cases alike
    | text x =>
        cases y with
        | text y =>
            cases z with
            | text z =>
                exact Preorders.of_transOrd.trans trivial trivial trivial left right below below'
            | _ => cases alike'
        | _ => cases alike
    | items xs =>
        cases y with
        | items ys =>
            cases z with
            | items zs =>
                exact (compareItems_preorders itemsPreorder).trans cleanX.2 cleanY.2 cleanZ.2
                  left right below below'
            | _ => cases alike'
        | _ => cases alike
    | place x =>
        cases y with
        | place y =>
            cases z with
            | place z =>
                exact Preorders.of_transOrd.trans trivial trivial trivial left right below below'
            | _ => cases alike'
        | _ => cases alike

end Standing

/-! ## Any two objects -/

variable {τ : Type} {store : Store τ}

/-- `part` is reached from `ref` through the items of lists and tuples. -/
inductive Reaches (store : Store τ) (ref : Ref) : Ref → Prop where
  | self : Reaches store ref ref
  | item {container part : Ref} {items : Array Ref} (reached : Reaches store ref container)
      (holds : store.payload? container = some (.list items) ∨
        store.payload? container = some (.tuple items))
      (member : part ∈ items) : Reaches store ref part

/-- No NaN is reached from an object through lists and tuples. -/
def NoNaN (store : Store τ) (ref : Ref) : Prop :=
  ∀ part value, store.Reaches ref part → store.payload? part = some (.float value) →
    value.isNaN = false

theorem Reaches.trans {ref middle part : Ref} (first : store.Reaches ref middle)
    (second : store.Reaches middle part) : store.Reaches ref part := by
  induction second with
  | self => exact first
  | item reached holds member ih => exact .item ih holds member

theorem NoNaN.parts {ref : Ref} {payload : Payload} (clean : store.NoNaN ref)
    (found : store.payload? ref = some payload) :
    ∀ item ∈ (Standing.ofPayload ref payload).parts, store.NoNaN item := by
  intro item member part value reached float
  apply clean part value _ float
  cases payload with
  | list items =>
      exact (Reaches.item .self (Or.inl found) (Array.mem_toList_iff.mp member)).trans reached
  | tuple items =>
      exact (Reaches.item .self (Or.inr found) (Array.mem_toList_iff.mp member)).trans reached
  | _ => cases member

theorem compare?_getD {x y : Double} (cleanX : x.isNaN = false) (cleanY : y.isNaN = false) :
    (x.compare? y).getD .eq = compare x.orderKey y.orderKey := by
  simp [Double.compare?, cleanX, cleanY]

/-- Kinds decide first, then standings. -/
def compareObjects (store : Store τ) (room : Nat) (left right : Ref × Payload) :
    Except (Stop Cause) Ordering :=
  if left.2.kind = right.2.kind then
    (Standing.ofPayload left.1 left.2).compareWith (store.compareWithin room)
      (Standing.ofPayload right.1 right.2)
  else
    .ok (left.2.kind.compareName right.2.kind)

theorem compareWithin_succ {room : Nat} {left right : Ref} {leftPayload rightPayload : Payload}
    (cleanLeft : store.NoNaN left) (cleanRight : store.NoNaN right)
    (different : left ≠ right) (foundLeft : store.payload? left = some leftPayload)
    (foundRight : store.payload? right = some rightPayload) :
    store.compareWithin (room + 1) left right =
      store.compareObjects room (left, leftPayload) (right, rightPayload) := by
  rw [compareWithin, if_neg different, get_eq_ok_iff.mpr foundLeft, get_eq_ok_iff.mpr foundRight]
  simp only [bind, Except.bind]
  split
  · rfl
  · have cleanX := cleanLeft left _ .self foundLeft
    have cleanY := cleanRight right _ .self foundRight
    rw [compare?_getD cleanX cleanY]
    rfl
  · rfl
  · rfl
  · rfl
  · rename_i ints floats strings lists tuples
    unfold compareObjects
    simp only
    split
    · rename_i alike
      cases leftPayload <;> cases rightPayload <;> cases alike <;> first | rfl | simp_all
    · rfl

theorem sort_ofPayload_eq {left right : Ref} {leftPayload rightPayload : Payload}
    (alike : leftPayload.kind = rightPayload.kind) :
    (Standing.ofPayload left leftPayload).sort = (Standing.ofPayload right rightPayload).sort := by
  rw [Standing.sort_ofPayload, Standing.sort_ofPayload, alike]

/-- The comparison of two objects is a total preorder where that of their items is. -/
theorem compareObjects_preorders {room : Nat}
    (itemsPreorder : Preorders (store.compareWithin room) store.NoNaN) :
    Preorders (store.compareObjects room) fun object =>
      store.payload? object.1 = some object.2 ∧ store.NoNaN object.1 where
  swap {x y ordering} cleanX cleanY answer := by
    unfold compareObjects at answer ⊢
    split at answer
    · rename_i alike
      rw [if_pos alike.symm]
      exact (Standing.preorders itemsPreorder _).swap
        ⟨sort_ofPayload_eq alike, cleanX.2.parts cleanX.1⟩ ⟨rfl, cleanY.2.parts cleanY.1⟩ answer
    · rename_i different
      rw [if_neg (Ne.symm different)]
      obtain rfl := Except.ok.inj answer
      exact congrArg Except.ok Std.OrientedOrd.eq_swap
  trans {x y z first second} cleanX cleanY cleanZ left right below below' := by
    unfold compareObjects at left right ⊢
    split at left
    · rename_i alike
      split at right
      · rename_i alike'
        rw [if_pos (alike.trans alike')]
        exact (Standing.preorders itemsPreorder _).trans
          ⟨sort_ofPayload_eq (alike.trans alike'), cleanX.2.parts cleanX.1⟩
          ⟨sort_ofPayload_eq alike', cleanY.2.parts cleanY.1⟩ ⟨rfl, cleanZ.2.parts cleanZ.1⟩
          left right below below'
      · rename_i different
        rw [if_neg (alike ▸ different), alike]
        obtain rfl := Except.ok.inj right
        rw [eq_lt_of_ne below' (compareName_eq_eq_iff.not.mpr different), then_lt below]
    · rename_i different
      have less := eq_lt_of_ne (Except.ok.inj left ▸ below)
        (compareName_eq_eq_iff.not.mpr different)
      obtain rfl := Except.ok.inj left
      rw [less]
      split at right
      · rename_i alike'
        rw [if_neg (alike' ▸ different), ← alike', less]
        rfl
      · rename_i different'
        obtain rfl := Except.ok.inj right
        have less' := eq_lt_of_ne below' (compareName_eq_eq_iff.not.mpr different')
        have whole : compare x.2.kind.name z.2.kind.name = .lt := Std.TransCmp.lt_trans less less'
        have apart : x.2.kind ≠ z.2.kind := by
          rw [Ne, ← compareName_eq_eq_iff, Kind.compareName, whole]
          simp
        rw [if_neg apart, Kind.compareName, whole]
        rfl

/-- What is compared with itself is equal, so only the comparison of different objects counts. -/
theorem preorders_of_different {compareThem : Ref → Ref → Except (Stop Cause) Ordering}
    {clean : Ref → Prop} (same : ∀ x, compareThem x x = .ok .eq)
    (swap : ∀ {x y ordering}, x ≠ y → clean x → clean y → compareThem x y = .ok ordering →
      compareThem y x = .ok ordering.swap)
    (trans : ∀ {x y z first second}, x ≠ y → y ≠ z → x ≠ z → clean x → clean y → clean z →
      compareThem x y = .ok first → compareThem y z = .ok second → first ≠ .gt → second ≠ .gt →
      compareThem x z = .ok (first.then second)) : Preorders compareThem clean where
  swap {x y ordering} cleanX cleanY answer := by
    by_cases equal : x = y
    · subst equal
      rw [same] at answer ⊢
      obtain rfl := Except.ok.inj answer
      rfl
    · exact swap equal cleanX cleanY answer
  trans {x y z first second} cleanX cleanY cleanZ left right below below' := by
    by_cases xy : x = y
    · subst xy
      rw [same] at left
      obtain rfl := Except.ok.inj left
      exact right
    by_cases yz : y = z
    · subst yz
      rw [same] at right
      obtain rfl := Except.ok.inj right
      rw [left]
      cases first <;> rfl
    by_cases xz : x = z
    · -- Neither direction is above the other, so both are equal.
      subst xz
      rw [same]
      have back := swap xy cleanX cleanY left
      rw [right] at back
      obtain rfl := Except.ok.inj back
      cases first <;> simp at below below' ⊢
    · exact trans xy yz xz cleanX cleanY cleanZ left right below below'

/-- Two different objects that were compared are there. -/
theorem compareWithin_succ_eq_ok {room : Nat} {left right : Ref} {ordering : Ordering}
    (cleanLeft : store.NoNaN left) (cleanRight : store.NoNaN right) (different : left ≠ right)
    (answer : store.compareWithin (room + 1) left right = .ok ordering) :
    ∃ leftPayload rightPayload, store.payload? left = some leftPayload ∧
      store.payload? right = some rightPayload ∧
      store.compareObjects room (left, leftPayload) (right, rightPayload) = .ok ordering := by
  cases foundLeft : store.get left with
  | error stop =>
      rw [compareWithin, if_neg different, foundLeft] at answer
      cases answer
  | ok leftPayload =>
      cases foundRight : store.get right with
      | error stop =>
          rw [compareWithin, if_neg different, foundLeft, foundRight] at answer
          cases answer
      | ok rightPayload =>
          rw [get_eq_ok_iff] at foundLeft foundRight
          rw [compareWithin_succ cleanLeft cleanRight different foundLeft foundRight] at answer
          exact ⟨leftPayload, rightPayload, foundLeft, foundRight, answer⟩

theorem compareWithin_self (store : Store τ) (room : Nat) (ref : Ref) :
    store.compareWithin room ref ref = .ok .eq := by
  cases room <;> rw [compareWithin, if_pos rfl]

/-- Comparison is a total preorder at every depth. -/
theorem compareWithin_preorders (store : Store τ) (room : Nat) :
    Preorders (store.compareWithin room) store.NoNaN := by
  induction room with
  | zero =>
      have never : ∀ {x y ordering}, x ≠ y → store.compareWithin 0 x y ≠ .ok ordering := by
        intro x y ordering different answer
        rw [compareWithin, if_neg different] at answer
        cases answer
      exact preorders_of_different (store.compareWithin_self 0)
        (fun different _ _ answer => absurd answer (never different))
        (fun different _ _ _ _ _ answer => absurd answer (never different))
  | succ room ih =>
      have objects := compareObjects_preorders ih
      apply preorders_of_different (store.compareWithin_self (room + 1))
      · intro x y ordering different cleanX cleanY answer
        obtain ⟨p, q, foundX, foundY, compared⟩ :=
          compareWithin_succ_eq_ok cleanX cleanY different answer
        rw [compareWithin_succ cleanY cleanX (Ne.symm different) foundY foundX]
        exact objects.swap ⟨foundX, cleanX⟩ ⟨foundY, cleanY⟩ compared
      · intro x y z first second xy yz xz cleanX cleanY cleanZ left right below below'
        obtain ⟨p, q, foundX, foundY, compared⟩ := compareWithin_succ_eq_ok cleanX cleanY xy left
        obtain ⟨q', r, foundY', foundZ, compared'⟩ :=
          compareWithin_succ_eq_ok cleanY cleanZ yz right
        obtain rfl := Option.some.inj (foundY.symm.trans foundY')
        rw [compareWithin_succ cleanX cleanZ xz foundX foundZ]
        exact objects.trans ⟨foundX, cleanX⟩ ⟨foundY, cleanY⟩ ⟨foundZ, cleanZ⟩ compared compared'
          below below'

/-- Three objects are ordered as in a total preorder. -/
structure Orders (store : Store τ) (a b c : Ref) : Prop where
  same : store.compareRefs a a = .ok .eq
  fails_iff : (∃ stop, store.compareRefs a b = .error stop) ↔
    ∃ stop, store.compareRefs b a = .error stop
  reverse : ∀ ordering, store.compareRefs a b = .ok ordering →
    store.compareRefs b a = .ok ordering.swap
  /-- What is at most what is at most a third is at most the third, and below it if
  there is a step below in between. -/
  chain : ∀ first second, store.compareRefs a b = .ok first → store.compareRefs b c = .ok second →
    first ≠ .gt → second ≠ .gt →
    ∃ ordering, store.compareRefs a c = .ok ordering ∧ ordering ≠ .gt ∧
      (first = .lt ∨ second = .lt → ordering = .lt)

theorem compareRefs_orders (store : Store τ) {a b c : Ref}
    (clean : ∀ ref ∈ [a, b, c], store.NoNaN ref) : store.Orders a b c := by
  have preorders := store.compareWithin_preorders (maxDepth + 1)
  have cleanA := clean a (by simp)
  have cleanB := clean b (by simp)
  have cleanC := clean c (by simp)
  constructor
  · exact store.compareWithin_self _ a
  · have answers := preorders.answers_iff cleanA cleanB
    unfold compareRefs
    cases ab : store.compareWithin (maxDepth + 1) a b <;>
      cases ba : store.compareWithin (maxDepth + 1) b a <;> simp_all
  · exact fun _ answer => preorders.swap cleanA cleanB answer
  · intro first second left right below below'
    refine ⟨_, preorders.trans cleanA cleanB cleanC left right below below', ?_, ?_⟩
    · cases first <;> cases second <;> simp at below below' ⊢
    · cases first <;> cases second <;> simp at below below' ⊢

/-- Three lists that begin with the first of them, which so holds itself. -/
def looped : Store Unlimited where
  cells := #[some ⟨1, some (.list #[⟨0⟩, ⟨3⟩])⟩, some ⟨1, some (.list #[⟨0⟩, ⟨4⟩])⟩,
    some ⟨1, some (.list #[⟨0⟩, ⟨4⟩, ⟨4⟩])⟩, some ⟨1, some (.int 1)⟩, some ⟨1, some (.int 2)⟩]
  free := []
  tracker := {}

theorem looped_noNaN (ref : Ref) : looped.NoNaN ref := by
  rintro ⟨index⟩ value - float
  rcases index with _ | _ | _ | _ | _ | index <;> cases float

theorem compareRefs_orders_looped :
    looped.compareRefs ⟨0⟩ ⟨1⟩ = .ok .lt ∧ looped.compareRefs ⟨1⟩ ⟨2⟩ = .ok .lt ∧
      (∀ ref ∈ ([⟨0⟩, ⟨1⟩, ⟨2⟩] : List Ref), looped.NoNaN ref) ∧ looped.Orders ⟨0⟩ ⟨1⟩ ⟨2⟩ :=
  ⟨rfl, rfl, fun ref _ => looped_noNaN ref, compareRefs_orders looped fun ref _ => looped_noNaN ref⟩

end Store

end StackMachine
