import StackMachine.Proofs.Store.Natives
import StackMachine.Proofs.Store.Sequences

/-!
# Ranges are exact

The length of a range is found by one division, and its items by adding the step again and again.
Seen from unbounded integers the length is the number of steps that stay before the end, whatever
the signs are.  All items lie between the two ends, so none of the additions that are used leaves
what a word can hold; only the last one, whose result is dropped, may wrap around.
-/

namespace StackMachine

open Store Outcome

/-! ## The length -/

/-- The item of a range at a position, found without a word in between. -/
def rangeItem (low step : Int) (position : Nat) : Int :=
  low + position * step

/-- Is the range not at its end yet, at a position? -/
def InRange (low high step : Int) (position : Nat) : Prop :=
  if 0 < step then rangeItem low step position < high else high < rangeItem low step position

/-- A quotient is rounded up by truncating it, after something was added.  Below zero that leaves
nothing. -/
theorem lt_tdiv_iff {size : Int} (positive : 0 < size) (span : Int) (position : Nat) :
    (position : Int) < (span + size - 1).tdiv size ↔ position * size < span := by
  have product : (0 : Int) ≤ position * size := by positivity
  by_cases negative : span + size - 1 < 0
  · have upwards : 0 ≤ (-(span + size - 1)).tdiv size :=
      Int.tdiv_nonneg (by omega) positive.le
    rw [Int.neg_tdiv] at upwards
    omega
  · have multiple : ((position : Int) + 1) * size = position * size + size := by ring
    rw [Int.tdiv_eq_ediv_of_nonneg (by omega), ← Int.add_one_le_iff,
      Int.le_ediv_iff_mul_le positive, multiple]
    omega

/-- The positions before the end are those below the length, which always is a word. -/
theorem lt_rangeLength {low high step : Int64} (nonzero : step ≠ 0) (position : Nat) :
    position < rangeLength low.toInt high.toInt step.toInt ↔
      InRange low.toInt high.toInt step.toInt position := by
  have step_ne : step.toInt ≠ 0 := fun zero => nonzero (Int64.toInt_inj.mp zero)
  have := low.le_toInt
  have := low.toInt_lt
  have := high.le_toInt
  have := high.toInt_lt
  unfold rangeLength InRange rangeItem
  split
  · rename_i positive
    have farther : (position : Int) ≤ position * step.toInt :=
      le_mul_of_one_le_right (by positivity) (by omega)
    have before := lt_tdiv_iff positive (high.toInt - low.toInt) position
    rw [Nat.lt_min, Int.lt_toNat]
    omega
  · rename_i negative
    have farther : (position : Int) ≤ position * -step.toInt :=
      le_mul_of_one_le_right (by positivity) (by omega)
    have opposite : (position : Int) * -step.toInt = -(position * step.toInt) := by ring
    have swapped : (high.toInt - low.toInt + step.toInt + 1).tdiv step.toInt =
        (low.toInt - high.toInt + -step.toInt - 1).tdiv (-step.toInt) := by
      rw [Int.tdiv_neg, ← Int.neg_tdiv]
      congr 1
      ring
    have before := lt_tdiv_iff (show 0 < -step.toInt by omega) (low.toInt - high.toInt) position
    rw [Nat.lt_min, Int.lt_toNat, swapped]
    omega

theorem encard_inRange {low high step : Int64} (nonzero : step ≠ 0) :
    {position | InRange low.toInt high.toInt step.toInt position}.encard =
      rangeLength low.toInt high.toInt step.toInt := by
  have positions : {position | InRange low.toInt high.toInt step.toInt position} =
      (Finset.range (rangeLength low.toInt high.toInt step.toInt) : Set Nat) := by
    ext position
    rw [Set.mem_ofPred_eq, ← lt_rangeLength nonzero, Finset.mem_coe, Finset.mem_range]
  rw [positions, Set.encard_coe_eq_coe_finsetCard, Finset.card_range]

/-- An item before the end can be told in a word. -/
theorem InRange.bounds {low high step : Int64} {position : Nat}
    (inside : InRange low.toInt high.toInt step.toInt position) :
    -2 ^ 63 ≤ rangeItem low.toInt step.toInt position ∧
      rangeItem low.toInt step.toInt position < 2 ^ 63 := by
  have := low.le_toInt
  have := low.toInt_lt
  have := high.le_toInt
  have := high.toInt_lt
  unfold InRange rangeItem at inside
  unfold rangeItem
  split at inside
  · have upwards : 0 ≤ position * step.toInt := by positivity
    omega
  · have downwards : position * step.toInt ≤ 0 :=
      mul_nonpos_of_nonneg_of_nonpos (by positivity) (by omega)
    omega

/-! ## The items -/

variable {τ α : Type} {store : Store τ} {held inner : List Ref} {argument : Ref}

namespace Store

/-- The references lead to integers that start with `first` and are `step` apart. -/
def Progression (store : Store τ) (first step : Int) (items : List Ref) : Prop :=
  ∀ position item, items[position]? = some item →
    ∃ value, store.payload? item = some (.int value) ∧ value.toInt = rangeItem first step position

theorem Progression.nil (first step : Int) : store.Progression first step [] :=
  fun _ _ none => by simp at none

theorem Progression.cons {first step : Int} {value : Int64} {item : Ref} {items : List Ref}
    (found : store.payload? item = some (.int value)) (exact : value.toInt = first)
    (rest : store.Progression (first + step) step items) :
    store.Progression first step (item :: items) := by
  intro position other here
  cases position with
  | zero =>
      obtain rfl := Option.some.inj here
      exact ⟨value, found, by simp [rangeItem, exact]⟩
  | succ position =>
      obtain ⟨value, found, exact⟩ := rest position other here
      refine ⟨value, found, exact.trans ?_⟩
      unfold rangeItem
      push_cast
      ring

theorem Progression.retained {after : Store τ} {first step : Int} {items : List Ref}
    (progression : store.Progression first step items) (retains : store.Retains after) :
    after.Progression first step items := by
  intro position item here
  obtain ⟨value, found, exact⟩ := progression position item here
  exact ⟨value, retains _ _ found, exact⟩

end Store

namespace StoreM

variable [Tracker τ]

theorem chargeTable_granted (sound : store.Sound held inner) (bytes : Nat) :
    Granted store.tracker (chargeTable bytes store) fun _ after =>
      store.Grows held inner [] after := by
  have asked : Asked store.tracker (Tracker.noteBuild bytes store.tracker) :=
    Relation.ReflTransGen.single ⟨.build bytes, rfl⟩
  unfold chargeTable
  cases answer : Tracker.build bytes store.tracker with
  | none => exact ⟨sound.withTracker _, fun _ _ => id, asked⟩
  | some refusal =>
      exact ⟨refusal, rfl, .build bytes, trivial, store.tracker, .refl, answer, .refl⟩

/-- Integers are made until there are `count` of them.  The last addition may wrap around, but
its result is not used. -/
theorem allocateInts_granted (step : Int64) (count : Nat) (current : Int64) {made : Array Ref}
    (sound : store.Sound (made.toList ++ held) inner)
    (bounded : ∀ position < count, -2 ^ 63 ≤ rangeItem current.toInt step.toInt position ∧
      rangeItem current.toInt step.toInt position < 2 ^ 63) :
    Granted store.tracker (allocateInts step count current made store) fun items after =>
      store.Grows held inner items.toList after ∧ ∃ new, items.toList = made.toList ++ new ∧
        new.length = count ∧ after.Progression current.toInt step.toInt new := by
  induction count generalizing store current made with
  | zero =>
      refine ⟨⟨sound, fun _ _ => id, Relation.ReflTransGen.refl⟩, [], by simp, rfl, .nil _ _⟩
  | succ count ih =>
      unfold allocateInts
      rcases attempt_cases (allocate_int sound current) (allocate_int_granted sound current) with
        ⟨item, middle, ran, grown, -, found⟩ | ⟨refusal, after, final, failed, released, denies⟩
      case inr =>
        rw [bind_ok failed]
        show Granted _ ((releaseAll made.toList >>= fun _ => raise (.refused refusal)) after) _
        rw [bind_ok released]
        exact ⟨refusal, rfl, denies⟩
      rw [bind_ok ran]
      have owned : middle.Sound ((made.push item).toList ++ held) inner := by
        refine grown.sound.perm ?_ (List.Perm.refl _)
        rw [Array.toList_push, List.append_assoc]
        exact List.perm_append_comm_assoc _ _ _
      -- Unless this was the last item, the next one is a word, so the addition is exact.
      have exact (more : 0 < count) : (current + step).toInt = current.toInt + step.toInt := by
        obtain ⟨low, high⟩ := bounded 1 (by omega)
        unfold rangeItem at low high
        rw [Int64.toInt_add]
        apply Int.bmod_eq_of_le <;> omega
      have following (position : Nat) (more : 0 < count) :
          rangeItem (current + step).toInt step.toInt position =
            rangeItem current.toInt step.toInt (position + 1) := by
        unfold rangeItem
        rw [exact more]
        push_cast
        ring
      have later := ih (current + step) owned fun position below => by
        rw [following position (by omega)]
        exact bounded (position + 1) (by omega)
      apply (later.of_asked grown.asked).imp
      rintro items after ⟨more, new, listed, length, progression⟩
      refine ⟨grown.trans more, item :: new, ?_, by simp [length], ?_⟩
      · rw [listed, Array.toList_push, List.append_assoc, List.singleton_append]
      · apply Progression.cons (more.retains _ _ found) rfl
        cases new with
        | nil => exact .nil _ _
        | cons second others =>
            rw [← exact (by rw [← length]; exact Nat.succ_pos _)]
            exact progression

omit [Tracker τ] in
/-- The bounds and the step are read off a tuple of three integers. -/
theorem rangeBounds?_eq {first second third : Ref} {low high step : Int64}
    (found : store.payload? argument = some (.tuple #[first, second, third]))
    (lowFound : store.payload? first = some (.int low))
    (highFound : store.payload? second = some (.int high))
    (stepFound : store.payload? third = some (.int step)) :
    rangeBounds? (some argument) store = .ok (some (low, high, step)) store := by
  have read : (getOption (some argument) : StoreM τ _) store =
      .ok (some (.tuple #[first, second, third])) store := by
    show EStateM.map some (StoreM.get argument) store = _
    rw [EStateM.map, get_eq found]
  have all : (getAll [first, second, third] : StoreM τ _) store =
      .ok [.int low, .int high, .int step] store := by
    simp only [getAll, bind_assoc, pure_bind]
    rw [StoreM.get_bind lowFound, StoreM.get_bind highFound, StoreM.get_bind stepFound]
    rfl
  unfold rangeBounds?
  rw [bind_ok read]
  simp only [List.size_toArray, List.length_cons, List.length_nil, Nat.reduceAdd, Nat.le_refl,
    if_true]
  rw [bind_ok all]
  rfl

theorem callRange_granted {first second third : Ref} {low high step : Int64}
    (sound : store.Sound ([argument] ++ held) inner)
    (found : store.payload? argument = some (.tuple #[first, second, third]))
    (lowFound : store.payload? first = some (.int low))
    (highFound : store.payload? second = some (.int high))
    (stepFound : store.payload? third = some (.int step)) (nonzero : step ≠ 0) :
    Granted store.tracker (callRange (some argument) store) fun list after =>
      ∃ items, after.payload? list = some (.list items) ∧
        items.size = rangeLength low.toInt high.toInt step.toInt ∧
        after.Progression low.toInt step.toInt items.toList := by
  obtain ⟨freed, released, left, -⟩ := releaseAll_sound sound
  have asked := ((releaseAll_evolves [argument]).of_ok released).asked
  unfold callRange
  rw [bind_ok (rangeBounds?_eq found lowFound highFound stepFound), releaseOption,
    Option.toList_some, bind_ok released]
  simp only [if_neg nonzero]
  apply Granted.of_asked asked
  apply (chargeTable_granted left.sound _).bind
  intro _ charged room
  apply Granted.of_asked room.asked
  have bounded (position : Nat) (below : position < rangeLength low.toInt high.toInt step.toInt) :=
    ((lt_rangeLength nonzero position).mp below).bounds
  have empty : charged.Sound ((#[] : Array Ref).toList ++ held) inner := room.sound
  apply (allocateInts_granted step _ low empty bounded).bind
  rintro items made ⟨grown, new, listed, length, progression⟩
  apply Granted.of_asked grown.asked
  apply (allocate_sequence_granted (.inl rfl) grown.sound).imp
  intro list after ⟨packed, _, present⟩
  have items_eq : items.toList = new := by simpa using listed
  refine ⟨items, present, ?_, ?_⟩
  · rw [← Array.length_toList, items_eq, length]
  · rw [items_eq]
    exact progression.retained packed.retains

end StoreM

end StackMachine
