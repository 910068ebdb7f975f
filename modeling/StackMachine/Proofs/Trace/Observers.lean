import StackMachine.Proofs.Evolution.Launching
import StackMachine.Trace.Tracer

/-!
# What those who are told a run come to know

A run tells the same events whoever is told, and does the same otherwise.  A recording has
the first of these events, as many as it has room for, and a profile sums them up: what it
has counted can be counted in the recording of all of them.
-/

namespace StackMachine

/-! ## Sorting -/

/-- Sorting does not exchange items that may stand in either order. -/
theorem filter_mergeSort {α : Type} {le : α → α → Bool} {items : List α} {alike : α → Bool}
    (trans : ∀ first second third, le first second → le second third → le first third)
    (total : ∀ first second, le first second || le second first)
    (same : ∀ first second, alike first → alike second → le first second) :
    (items.mergeSort le).filter alike = items.filter alike := by
  have ordered : (items.filter alike).Pairwise fun first second => le first second := by
    refine List.pairwise_of_forall_mem_list fun first member second member' => ?_
    exact same first second (List.mem_filter.mp member).2 (List.mem_filter.mp member').2
  have within := (List.sublist_mergeSort trans total ordered List.filter_sublist).filter alike
  rw [List.filter_filter] at within
  simp only [Bool.and_self] at within
  exact (within.eq_of_length ((List.mergeSort_perm items le).filter alike).length_eq.symm).symm

theorem filterMap_concat {α β : Type} (items : List α) (item : α) (image : α → Option β) :
    (items ++ [item]).filterMap image = items.filterMap image ++ (image item).toList := by
  rw [List.filterMap_append, List.filterMap_cons]
  cases image item <;> rfl

/-! ## Recordings -/

namespace Recording

/-- A recording with a limit has the events up to it. -/
theorem observeAll_some (limit : Nat) (events : List Event) :
    (Tracer.recording (.start (some limit))).observeAll events =
      .recording ⟨some limit, (events.take limit).toArray⟩ := by
  induction events using List.reverseRecOn with
  | nil => simp [Tracer.observeAll, start]
  | append_singleton events event ih =>
      rw [Tracer.observeAll_append, ih]
      show Tracer.recording (observe ⟨some limit, (events.take limit).toArray⟩ event) = _
      unfold observe hasRoom
      by_cases room : events.length < limit
      · have all : events.take limit = events := List.take_of_length_le (by omega)
        have more : (events ++ [event]).take limit = events ++ [event] :=
          List.take_of_length_le (by rw [List.length_append, List.length_singleton]; omega)
        simp [all, more, room]
      · have full : (events.take limit).length = limit := List.length_take_of_le (by omega)
        have still : (events ++ [event]).take limit = events.take limit :=
          List.take_append_of_le_length (by omega)
        simp [full, still]

/-- A recording without one has all events. -/
theorem observeAll_none (events : List Event) :
    (Tracer.recording (.start none)).observeAll events = .recording ⟨none, events.toArray⟩ :=
  observeAll_recorder [] events

end Recording

/-! ## Profiles -/

namespace Event

/-- The depth at which a frame was entered. -/
def entry? : Event → Option Nat
  | entered _ depth => some depth
  | _ => none

/-- Why the straight path was left. -/
def reason? : Event → Option Unwinding
  | unwound reason _ => some reason
  | _ => none

/-- The depth at which a block was pushed. -/
def push? : Event → Option Nat
  | pushed _ depth => some depth
  | _ => none

end Event

theorem Opcode.byte_injective : Function.Injective Opcode.byte := by
  intro first second same
  have read := congrArg Opcode.ofByte? same
  rwa [ofByte?_byte, ofByte?_byte, Option.some.injEq] at read

namespace Profile

variable {profile : Profile} {events : List Event}

/-- The profile has counted some events. -/
structure Tallies (profile : Profile) (events : List Event) : Prop where
  size : profile.counts.size = 256
  counts : ∀ op, profile.count op = (events.filterMap Event.opcode?).count op
  instructions : profile.instructions = (events.filterMap Event.opcode?).length
  calls : profile.calls = (events.filterMap Event.entry?).length
  maxDepth : profile.maxDepth = (events.filterMap Event.entry?).foldl max 0
  unwindings : profile.unwindings = (events.filterMap Event.reason?).length
  maxBlocks : profile.maxBlocks = (events.filterMap Event.push?).foldl max 0

theorem tallies_start : start.Tallies [] where
  size := Array.size_replicate
  counts op := by
    have inside : op.byte.toNat < 256 := op.byte.toNat_lt
    simp [count, start, inside]
  instructions := rfl
  calls := rfl
  maxDepth := rfl
  unwindings := rfl
  maxBlocks := rfl

/-- An event is counted for the operation code that it tells of. -/
theorem count_observe (size : profile.counts.size = 256) (event : Event) (op : Opcode) :
    (profile.observe event).count op = profile.count op + event.opcode?.toList.count op := by
  cases event with
  | instruction offset told values frames =>
      have inside : op.byte.toNat < profile.counts.size := by
        rw [size]
        exact op.byte.toNat_lt
      simp only [observe, count, Array.getElem?_modify, Array.getElem?_eq_getElem inside,
        Event.opcode?, Option.toList_some, List.count_singleton, beq_iff_eq]
      by_cases same : told = op
      · simp [same]
      · have apart : told.byte.toNat ≠ op.byte.toNat := fun equal =>
          same (Opcode.byte_injective (UInt8.toNat_inj.mp equal))
        simp [same, apart]
  | entered | left | unwound | pushed | popped => rfl

theorem size_observe (profile : Profile) (event : Event) :
    (profile.observe event).counts.size = profile.counts.size := by
  cases event with
  | instruction => exact Array.size_modify
  | entered | left | unwound | pushed | popped => rfl

/-- Another event is counted. -/
theorem Tallies.observe (tallies : profile.Tallies events) (event : Event) :
    (profile.observe event).Tallies (events ++ [event]) where
  size := (size_observe profile event).trans tallies.size
  counts op := by
    rw [count_observe tallies.size, tallies.counts, filterMap_concat, List.count_append]
  instructions := by
    rw [filterMap_concat, List.length_append, ← tallies.instructions]
    cases event <;> rfl
  calls := by
    rw [filterMap_concat, List.length_append, ← tallies.calls]
    cases event <;> rfl
  maxDepth := by
    rw [filterMap_concat, List.foldl_append, ← tallies.maxDepth]
    cases event <;> rfl
  unwindings := by
    rw [filterMap_concat, List.length_append, ← tallies.unwindings]
    cases event <;> rfl
  maxBlocks := by
    rw [filterMap_concat, List.foldl_append, ← tallies.maxBlocks]
    cases event <;> rfl

/-- Whoever is told some events has a profile of them. -/
theorem observeAll_start (events : List Event) :
    ∃ profile, (Tracer.profile start).observeAll events = .profile profile ∧
      profile.Tallies events := by
  induction events using List.reverseRecOn with
  | nil => exact ⟨start, rfl, tallies_start⟩
  | append_singleton events event ih =>
      obtain ⟨profile, told, tallies⟩ := ih
      refine ⟨profile.observe event, ?_, tallies.observe event⟩
      rw [Tracer.observeAll_append, told]
      rfl

/-! ### The ranking -/

/-- The operation codes that were carried out, in the order of their bytes. -/
def counted (profile : Profile) : List (Opcode × Nat) :=
  Opcode.all.filterMap fun op =>
    if profile.count op = 0 then none else some (op, profile.count op)

theorem mem_counted {op : Opcode} {count : Nat} :
    (op, count) ∈ profile.counted ↔ 0 < count ∧ count = profile.count op := by
  simp only [counted, List.mem_filterMap]
  constructor
  case mp =>
    rintro ⟨other, -, found⟩
    split at found
    · cases found
    · cases found
      exact ⟨by omega, rfl⟩
  case mpr =>
    rintro ⟨positive, rfl⟩
    exact ⟨op, Opcode.mem_all op, by rw [if_neg (by omega)]⟩

theorem counted_sorted (profile : Profile) :
    profile.counted.Pairwise fun first second => first.1.byte < second.1.byte := by
  have bytes : Opcode.all.Pairwise fun first second => first.byte < second.byte := by decide
  refine List.Pairwise.filterMap _ (fun first second less one found other found' => ?_) bytes
  split at found <;> split at found' <;> cases found <;> cases found'
  exact less

/-- Operation codes that were carried out as often are ranked in the order of their bytes. -/
theorem ranking_sorted (profile : Profile) : profile.ranking.Pairwise fun first second =>
    second.2 < first.2 ∨ second.2 = first.2 ∧ first.1.byte < second.1.byte := by
  let before (first second : Opcode × Nat) : Bool := second.2 ≤ first.2
  have trans : ∀ first second third, before first second → before second third →
      before first third := by
    intro first second third earlier later
    simp only [before, decide_eq_true_eq] at earlier later ⊢
    omega
  have total : ∀ first second, before first second || before second first := by
    intro first second
    simp only [before, Bool.or_eq_true, decide_eq_true_eq]
    omega
  have falling := List.pairwise_mergeSort trans total profile.counted
  refine List.pairwise_iff_forall_sublist.mpr fun {first second} pair => ?_
  have least : before first second := List.pairwise_iff_forall_sublist.mp falling pair
  rcases Nat.lt_or_eq_of_le (of_decide_eq_true least) with less | same
  · exact Or.inl less
  · -- Where the counts are the same, sorting leaves the order of the bytes.
    have among := pair.filter fun entry => decide (entry.2 = first.2)
    have unmoved :
        (profile.counted.mergeSort before).filter (fun entry => decide (entry.2 = first.2)) =
          profile.counted.filter fun entry => decide (entry.2 = first.2) := by
      refine filter_mergeSort trans total ?_
      intro one other found found'
      simp only [before, decide_eq_true_eq] at found found' ⊢
      omega
    change List.Sublist _ ((profile.counted.mergeSort before).filter _) at among
    rw [unmoved] at among
    have kept : [first, second].filter (fun entry => decide (entry.2 = first.2)) =
        [first, second] := by simp [same]
    rw [kept] at among
    have ordered := among.trans List.filter_sublist
    exact Or.inr ⟨same, List.pairwise_iff_forall_sublist.mp profile.counted_sorted ordered⟩

/-- The profile sums up some events, and ranks the operation codes that they tell of. -/
structure Summarizes (profile : Profile) (events : List Event) : Prop extends
    profile.Tallies events where
  ranked : profile.ranking.Pairwise fun first second =>
    second.2 < first.2 ∨ second.2 = first.2 ∧ first.1.byte < second.1.byte
  complete : ∀ op count, (op, count) ∈ profile.ranking ↔
    0 < count ∧ count = (events.filterMap Event.opcode?).count op

theorem Tallies.summarizes (tallies : profile.Tallies events) : profile.Summarizes events where
  toTallies := tallies
  ranked := ranking_sorted profile
  complete op count := by
    rw [← tallies.counts op, ← mem_counted]
    exact (List.mergeSort_perm profile.counted _).mem_iff

end Profile

/-! ## Runs -/

namespace MachineM

variable {τ : Type} [Tracker τ]

/-- A run of an image does the same whoever is told of it, and tells everybody the same
events: a recording has them, a recording with a limit has the first of them, and a profile
sums them up. -/
theorem runImage_observed (fuel : Nat) (image : Image) (machine : Machine τ) :
    ∃ events : List Event,
      (∀ tracer, runImage fuel image { machine with tracer } =
        retraced (tracer.observeAll events) (runImage fuel image machine)) ∧
      (Tracer.recording (.start none)).observeAll events = .recording ⟨none, events.toArray⟩ ∧
      (∀ limit, (Tracer.recording (.start (some limit))).observeAll events =
        .recording ⟨some limit, (events.take limit).toArray⟩) ∧
      ∃ profile, (Tracer.profile .start).observeAll events = .profile profile ∧
        profile.Summarizes events := by
  obtain ⟨events, same, -⟩ := runImage_follows (evaluates_free fuel) image machine
  obtain ⟨profile, told, tallies⟩ := Profile.observeAll_start events
  exact ⟨events, same, Recording.observeAll_none events,
    fun limit => Recording.observeAll_some limit events, profile, told, tallies.summarizes⟩

end MachineM

end StackMachine
