import StackMachine.Proofs.Machine.Effects
import StackMachine.Proofs.Store.Sequences

/-!
# Loops over sequences

A loop keeps its state on the stack: the sequence, and over it the index of the element that comes
next.  One step of it, `step_forLoop`, depends on nothing but that index and on what the sequence
holds at that moment; either there is such an element, and the step leaves it with the next index,
or the loop is over.

Between two steps the body of the loop may do anything to the store, also to the sequence, as long
as the sequence and the index that the loop left are not freed.  The index is an integer and thus
stays as it is, so it counts the steps, by induction on their number.
-/

namespace StackMachine

open Store Outcome

/-- What a step of a loop leaves if it goes on: the element at a position, the index after it, and
the sequence, which is as it was. -/
structure LoopValues {τ : Type} (store : Store τ) (sequence : Ref) (kind : Kind)
    (elements : List Element) (position : Nat) (element : Element) (item following : Ref) :
    Prop where
  item : store.ElementAt item element
  following : ∃ value, store.payload? following = some (.int value) ∧ value.toInt = position + 1
  sequence : store.SequenceAt sequence kind elements

/-- The index after an element is made. -/
theorem StoreM.nextIndex_granted {τ : Type} [Tracker τ] {store : Store τ}
    {refs held inner : List Ref} {position : Nat} (sound : store.Sound (refs ++ held) inner)
    (word : position + 1 ≤ Int64.maxValue.toInt) :
    Granted store.tracker
      (orRelease refs (allocate (.int (.ofNat (min (position + 1) 0x7fffffffffffffff)))) store)
      fun following after => store.Grows (refs ++ held) inner [following] after ∧
        ∃ value, after.payload? following = some (.int value) ∧ value.toInt = position + 1 := by
  apply (orRelease_granted (allocate_int sound _) (allocate_int_granted sound _)).imp
  rintro following after ⟨grown, -, found⟩
  refine ⟨grown, _, found, ?_⟩
  rw [Int64.toInt_maxValue] at word
  rw [Int64.toInt_ofNat_of_lt (by omega)]
  omega

/-! ## One step within the frame -/

namespace FrameM

variable {τ α β : Type} {state : FrameState τ} {top second sequence index : Ref} {kind : Kind}
variable {own below held inner : List Ref} {elements : List Element} {position : Nat}

theorem popTwo_eq (splits : state.Splits (top :: second :: own) below) :
    ∃ values, (popTwo : FrameM τ (Ref × Ref)) state = .ok (second, top) { state with values } ∧
      ({ state with values } : FrameState τ).Splits own below := by
  have enough : ¬ (top :: second :: own).length < 2 := by simp
  have required := requireDepth_eq splits 2
  rw [if_neg enough] at required
  have items : state.values.items = top :: second :: (own ++ below) := splits.items
  refine ⟨state.values.drop 2, ?_, ?_, splits.base⟩
  · unfold popTwo
    rw [StoreM.bind_ok required, StoreM.bind_ok (takeTop_first state items),
      StoreM.bind_ok (takeTop_eq state 1 (by rw [items]; rfl))]
    rfl
  · simp [items]

variable [Tracker τ]

instance : Tracked (FrameState τ) τ :=
  ⟨fun state => state.store.tracker⟩

theorem onStore_granted {tracker : τ} {act : StoreM τ α} {next : α → FrameM τ β}
    {middle : α → Store τ → Prop} {returns : β → FrameState τ → Prop}
    (first : Granted tracker (act state.store) middle)
    (rest : ∀ value store, middle value store →
      Granted tracker (next value { state with store }) returns) :
    Granted tracker ((onStore act >>= next) state) returns := by
  rcases onStore_bind_cases act next state with ⟨value, store, ran, same⟩ | ⟨stop, store, ran, same⟩
  · rw [ran] at first
    rw [same]
    exact rest value store first
  · rw [ran] at first
    rw [same]
    exact first

omit [Tracker τ] in
/-- What is still held is as it was before references were given back. -/
theorem held_remains {store after : Store τ} {ref : Ref} (sound : after.Sound held inner)
    (member : ref ∈ held) (remains : after.Remains store) :
    after.payload? ref = store.payload? ref := by
  obtain ⟨payload, found⟩ := (sound.usable member).filled
  obtain ⟨count, live⟩ := cell?_of_payload? found
  exact remains.payload?_eq live

/-- References that the frame took off its stack are given back. -/
theorem releaseAll_gives {refs : List Ref} (sound : state.store.Sound (refs ++ held) inner) :
    ∃ store, (releaseAll refs : FrameM τ Unit) state = .ok () { state with store } ∧
      store.Sound held inner ∧ store.Remains state.store ∧
      Asked state.store.tracker store.tracker := by
  obtain ⟨store, released, leaves, remains⟩ := StoreM.releaseAll_sound sound
  have asked := ((StoreM.releaseAll_evolves refs).of_ok released).asked
  exact ⟨store, onStore_eq released, leaves.sound, remains, asked⟩

/-- A loop goes on with the element at its position, or it is over. -/
theorem forLoop_granted {value : Int64} {exhausted : Nat}
    (splits : state.Splits (index :: sequence :: own) below)
    (sound : state.store.Sound (index :: sequence :: held) inner)
    (found : state.store.payload? index = some (.int value)) (natural : value.toInt = position)
    (known : state.store.SequenceAt sequence kind elements)
    (sized : elements.length ≤ Int64.maxValue.toInt) :
    Granted state.store.tracker (forLoop exhausted state) fun _ after =>
      after.store.Vacancies ∧ match elements[position]? with
      | some element => ∃ item following,
          LoopValues after.store sequence kind elements position element item following ∧
          after.Splits (item :: following :: sequence :: own) below ∧
          after.activation = state.activation
      | none => after.Splits own below ∧
          after.activation = { state.activation with offset := exhausted } := by
  obtain ⟨values, popped, left⟩ := popTwo_eq splits
  have read : (onStore (StoreM.get index) : FrameM τ Payload) { state with values } =
      .ok (.int value) { state with values } := onStore_eq (StoreM.get_eq found)
  have counted : loopPosition? (.int value) = some position := by
    rw [loopPosition?, if_pos (by omega), natural, Int.toNat_natCast]
  have owned : ({ state with values } : FrameState τ).store.Sound
      ([index] ++ (sequence :: held)) inner := sound
  obtain ⟨freed, gaveBack, freedSound, remains, asked⟩ := releaseAll_gives owned
  have still : freed.SequenceAt sequence kind elements := known.transfer fun payload present => by
    rw [held_remains freedSound List.mem_cons_self remains, present]
  unfold forLoop
  rw [StoreM.bind_ok popped]
  simp only
  rw [StoreM.bind_ok read, StoreM.bind_ok gaveBack, counted]
  apply Granted.of_asked asked
  simp only
  have accounts := StoreM.loopItem_accounts freedSound List.mem_cons_self position
  have looks := StoreM.loopItem_granted freedSound still sized position
  apply onStore_granted (StoreM.orRelease_granted accounts looks)
  intro item? looped found?
  cases here : elements[position]? with
  | none =>
      rw [here] at found?
      obtain ⟨rfl, rfl⟩ := found?
      have ended : ({ state with store := looped, values } : FrameState τ).store.Sound
          ([sequence] ++ held) inner := freedSound
      obtain ⟨final, gaveBack, rest, -⟩ := releaseAll_gives ended
      simp only
      rw [StoreM.bind_ok gaveBack]
      exact ⟨rest.exact.vacancies, ⟨left.items, left.base⟩, rfl⟩
  | some element =>
      rw [here] at found?
      obtain ⟨item, rfl, grown, elementAt⟩ := found?
      obtain ⟨inside, -⟩ := List.getElem?_eq_some_iff.mp here
      have holding : looped.Sound ([sequence, item] ++ held) inner :=
        grown.sound.perm (List.Perm.swap _ _ _) (List.Perm.refl _)
      simp only
      apply Granted.of_asked grown.asked
      apply onStore_granted (StoreM.nextIndex_granted holding (by omega))
      rintro following final ⟨more, next⟩
      have stays := (still.transfer (grown.retains sequence)).transfer (more.retains sequence)
      refine ⟨more.sound.exact.vacancies, item, following,
        ⟨elementAt.transfer (more.retains item), next, stays⟩, ⟨?_, left.base⟩, rfl⟩
      show item :: following :: sequence :: values.items = _
      rw [left.items]
      rfl

end FrameM

/-! ## One step of the machine -/

namespace MachineM

open Machine

variable {τ α : Type} [Tracker τ] {machine after later : Machine τ} {run : MachineM τ Ref}
variable {sequence : Ref} {kind : Kind} {elements : List Element} {position : Nat}

/-- Where a loop is about to take a step: the frame that does it and the values of that frame, with
an index on top of the sequence. -/
structure LoopSite where
  activation : Activation
  callers : List Activation
  index : Ref
  own : List Ref
  below : List Ref
  operand : Nat
  next : Nat

namespace LoopSite

/-- The machine is about to take the step.  No sequence in memory is longer than `sized` says. -/
structure Ready (site : LoopSite) (sequence : Ref) (machine : Machine τ) : Prop where
  ready : ∃ held, machine.Ready held
  stands : Stands machine site.activation site.callers (site.index :: sequence :: site.own)
    site.below
  here : Fetched.read site.activation.bytecode site.activation.offset =
    .instruction .forLoop site.operand site.next
  sized : ∃ kind elements, machine.store.SequenceAt sequence kind elements ∧
    elements.length ≤ Int64.maxValue.toInt

/-- The loop went on with an element: it is left on top of the next index and the sequence. -/
structure Continued (site : LoopSite) (sequence : Ref) (kind : Kind) (elements : List Element)
    (position : Nat) (element : Element) (item following : Ref) (after : Machine τ) : Prop where
  values : LoopValues after.store sequence kind elements position element item following
  stands : Stands after { site.activation with offset := site.next } site.callers
    (item :: following :: sequence :: site.own) site.below

/-- The step was taken.  If there is an element at the position, the loop goes on with it; if there
is none, index and sequence are gone, and the frame is at the end of the loop. -/
structure Stepped (site : LoopSite) (sequence : Ref) (kind : Kind) (elements : List Element)
    (position : Nat) (before after : Machine τ) : Prop where
  error : after.error = before.error
  vacancies : after.store.Vacancies
  outcome : match elements[position]? with
    | some element => ∃ item following,
        site.Continued sequence kind elements position element item following after
    | none => Stands after { site.activation with offset := site.next + site.operand }
        site.callers site.own site.below

end LoopSite

/-- What a frame does unless it is denied an object. -/
theorem onFrame_granted {act : FrameM τ α} {current : Activation} {callers : List Activation}
    {tracker : τ} {returns : α → FrameState τ → Prop}
    (frames : machine.frames.items = current :: callers)
    (granted : Granted tracker (act ⟨machine.store, machine.values, current⟩) returns) :
    (∃ value state, ∃ frames : Stack Activation, frames.items = state.activation :: callers ∧
      returns value state ∧ onFrame act machine =
        .ok value { machine with store := state.store, values := state.values, frames }) ∨
    ∃ refusal after, onFrame act machine = .error (.failed (.raised (.refused refusal))) after ∧
      Denies tracker refusal after.store.tracker := by
  cases result : act ⟨machine.store, machine.values, current⟩ with
  | ok value state =>
      rw [result] at granted
      obtain ⟨others, items, done⟩ := onFrame_eq frames result
      exact .inl ⟨value, state, others, items, granted, done⟩
  | error stop state =>
      rw [result] at granted
      obtain ⟨refusal, rfl, denies⟩ := granted
      obtain ⟨others, -, done⟩ := onFrame_error frames result
      exact .inr ⟨refusal, _, done, denies⟩

section Step

variable {site : LoopSite} {value : Int64} {item following : Ref}

/-- A step that the tracker grants depends on the index and on what the sequence holds at that
moment. -/
theorem step_forLoop_granted (ready : site.Ready sequence machine)
    (granted : (Tracker.tick machine.store.tracker).1 = none)
    (found : machine.store.payload? site.index = some (.int value))
    (natural : value.toInt = position)
    (known : machine.store.SequenceAt sequence kind elements) :
    (∃ after, step run machine = .ok .next after ∧
      site.Stepped sequence kind elements position machine after) ∨
    ∃ refusal after, step run machine = .error (.failed (.raised (.refused refusal))) after ∧
      Denies machine.store.tracker refusal after.store.tracker := by
  obtain ⟨⟨held, invariant⟩, stands, here, _, _, known', sized⟩ := ready
  obtain rfl := known.unique known'
  obtain ⟨frames, tracer, items, same⟩ :=
    step_dispatches (onStore_tick granted) stands.frames stands.items stands.base here
  let entered : Machine τ := { machine.ticked with frames, tracer }
  have asked : Asked machine.store.tracker entered.store.tracker :=
    Relation.ReflTransGen.single ⟨.tick, rfl⟩
  have sound : entered.store.Sound (site.index :: sequence ::
      (held ++ ((site.own ++ site.below) ++ machine.errorRefs))) machine.internals := by
    have all := invariant.sound.withTracker (Tracker.tick machine.store.tracker).2
    rw [stands.items] at all
    exact all.perm (List.perm_middle.trans (List.perm_middle.cons _)) (List.Perm.refl _)
  have splits : (⟨entered.store, entered.values, { site.activation with offset := site.next }⟩ :
      FrameState τ).Splits (site.index :: sequence :: site.own) site.below :=
    ⟨stands.items, stands.base⟩
  have loops : Granted _ (FrameM.forLoop (site.next + site.operand) _) _ :=
    FrameM.forLoop_granted splits sound found natural (known.transfer fun _ => id) sized
  have dispatched : dispatch run .forLoop site.operand site.next entered =
      (onFrame (FrameM.forLoop (site.next + site.operand)) >>= fun _ => pure .next) entered := rfl
  rw [same, dispatched]
  rcases onFrame_granted items (loops.of_asked asked) with
    ⟨_, state, others, moved, ⟨vacancies, stepped⟩, ran⟩ | ⟨refusal, after, failed, denies⟩
  · rw [StoreM.bind_ok ran]
    refine .inl ⟨_, rfl, rfl, vacancies, ?_⟩
    cases here : elements[position]? with
    | none =>
        rw [here] at stepped
        obtain ⟨split, activation⟩ := stepped
        rw [activation] at moved
        exact ⟨moved, split.items, stands.base⟩
    | some element =>
        rw [here] at stepped
        obtain ⟨item, following, values, split, activation⟩ := stepped
        rw [activation] at moved
        exact ⟨item, following, values, moved, split.items, stands.base⟩
  · rw [bind_error failed]
    exact .inr ⟨refusal, after, rfl, denies⟩

/-- Nothing but a refusal of the tracker keeps a step from being taken. -/
theorem step_forLoop (run : MachineM τ Ref) (ready : site.Ready sequence machine)
    (found : machine.store.payload? site.index = some (.int value))
    (natural : value.toInt = position)
    (known : machine.store.SequenceAt sequence kind elements) :
    (∃ after, step run machine = .ok .next after ∧
      site.Stepped sequence kind elements position machine after) ∨
    ∃ refusal after, step run machine = .error (.failed (.raised (.refused refusal))) after ∧
      ((Tracker.tick machine.store.tracker).1 = some refusal ∨
        Denies machine.store.tracker refusal after.store.tracker) := by
  cases granted : (Tracker.tick machine.store.tracker).1 with
  | some refusal =>
      have stopped : step run machine = _ := bind_error (onStore_tick_refused granted)
      exact .inr ⟨refusal, _, stopped, .inl rfl⟩
  | none =>
      rcases step_forLoop_granted ready granted found natural known with
        taken | ⟨refusal, after, failed, denies⟩
      · exact .inl taken
      · exact .inr ⟨refusal, after, failed, .inr denies⟩

/-- A step that left an element and the next index was not the last one. -/
theorem LoopSite.Ready.continued (ready : site.Ready sequence machine)
    (found : machine.store.payload? site.index = some (.int value))
    (natural : value.toInt = position)
    (known : machine.store.SequenceAt sequence kind elements)
    (ran : step run machine = .ok .next after)
    (pushed : after.values.items = item :: following :: sequence :: (site.own ++ site.below)) :
    ∃ element, elements[position]? = some element ∧
      site.Continued sequence kind elements position element item following after ∧
      after.store.Vacancies := by
  rcases step_forLoop run ready found natural known with
    ⟨_, same, stepped⟩ | ⟨_, _, failed, -⟩
  · cases ran.symm.trans same
    have outcome := stepped.outcome
    cases here : elements[position]? with
    | none =>
        -- The loop is over, and there are fewer values than it would have left.
        rw [here] at outcome
        have lengths := congrArg List.length (outcome.items.symm.trans pushed)
        simp at lengths
        omega
    | some element =>
        rw [here] at outcome
        obtain ⟨left, next, continued⟩ := outcome
        have values := continued.stands.items.symm.trans pushed
        simp only [List.cons_append, List.cons.injEq] at values
        obtain ⟨rfl, rfl, -⟩ := values
        exact ⟨element, rfl, continued, stepped.vacancies⟩
  · cases ran.symm.trans failed

end Step

/-! ## Any number of steps -/

/-- A step that a loop has taken, and the item that it left. -/
structure LoopStage (τ : Type) where
  site : LoopSite
  before : Machine τ
  item : Ref
  after : Machine τ

/-- A loop has taken some steps, the oldest first, and is about to take one more.

Each of them left an item, which the body takes away, and the index for the next one.  In between,
anything may happen to the store, and the stack may be any other, but the sequence and the index are
not freed. -/
inductive Looping (run : MachineM τ Ref) (sequence : Ref) :
    List (LoopStage τ) → LoopSite → Machine τ → Prop where
  | start {site : LoopSite} {machine : Machine τ} (ready : site.Ready sequence machine)
      (zero : machine.store.payload? site.index = some (.int 0)) :
      Looping run sequence [] site machine
  | again {stages : List (LoopStage τ)} {site following : LoopSite} {item : Ref}
      {machine after later : Machine τ} (earlier : Looping run sequence stages site machine)
      (ran : step run machine = .ok .next after)
      (pushed : after.values.items =
        item :: following.index :: sequence :: (site.own ++ site.below))
      (body : Sparing [following.index, sequence] after.store later.store)
      (ready : following.Ready sequence later) :
      Looping run sequence (stages ++ [⟨site, machine, item, after⟩]) following later

namespace Looping

variable {stages : List (LoopStage τ)} {site : LoopSite}

theorem ready (looping : Looping run sequence stages site machine) :
    site.Ready sequence machine := by
  cases looping with
  | start ready => exact ready
  | again _ _ _ _ ready => exact ready

/-- The index counts the steps. -/
theorem counts (looping : Looping run sequence stages site machine) :
    ∃ value, machine.store.payload? site.index = some (.int value) ∧
      value.toInt = stages.length := by
  induction looping with
  | start ready zero => exact ⟨0, zero, rfl⟩
  | again earlier ran pushed body ready ih =>
      obtain ⟨value, found, natural⟩ := ih
      obtain ⟨kind, elements, known, -⟩ := earlier.ready.sized
      obtain ⟨element, -, continued, vacancies⟩ :=
        earlier.ready.continued found natural known ran pushed
      obtain ⟨next, made, counted⟩ := continued.values.following
      obtain ⟨payload, stays, becomes⟩ := body.becomes vacancies List.mem_cons_self made
      obtain rfl := becomes.eq_of_fixed rfl
      refine ⟨next, stays, ?_⟩
      rw [counted, List.length_append, List.length_singleton, Int.natCast_add]
      rfl

/-- Each step left the element that the sequence had at that moment. -/
theorem past (looping : Looping run sequence stages site machine) {stage : LoopStage τ}
    (taken : stages[position]? = some stage)
    (known : stage.before.store.SequenceAt sequence kind elements) :
    ∃ element following, elements[position]? = some element ∧
      stage.site.Continued sequence kind elements position element stage.item following
        stage.after := by
  induction looping with
  | start => cases taken
  | @again stages site following item machine after later earlier ran pushed body ready ih =>
      by_cases old : position < stages.length
      · rw [List.getElem?_append_left old] at taken
        exact ih taken
      · rw [List.getElem?_append_right (by omega)] at taken
        have last : position - stages.length = 0 := by
          by_contra other
          rw [List.getElem?_eq_none (by simp; omega)] at taken
          cases taken
        rw [last] at taken
        obtain rfl := Option.some.inj taken
        obtain rfl : position = stages.length := by omega
        obtain ⟨value, found, natural⟩ := earlier.counts
        obtain ⟨element, here, continued, -⟩ :=
          earlier.ready.continued found natural known ran pushed
        exact ⟨element, _, here, continued⟩

/-- A sequence that stays as it is was gone through in order. -/
theorem unmodified (looping : Looping run sequence stages site machine)
    (same : ∀ stage ∈ stages, stage.before.store.SequenceAt sequence kind elements) :
    stages.length ≤ elements.length ∧
      List.Forall₂ (fun stage element => stage.after.store.ElementAt stage.item element) stages
        (elements.take stages.length) := by
  have each : ∀ position (inside : position < stages.length), ∃ element,
      elements[position]? = some element ∧
        stages[position].after.store.ElementAt stages[position].item element := by
    intro position inside
    obtain ⟨element, following, here, continued⟩ :=
      looping.past (List.getElem?_eq_getElem inside) (same _ (List.getElem_mem inside))
    exact ⟨element, here, continued.values.item⟩
  have enough : stages.length ≤ elements.length := by
    by_contra less
    obtain ⟨element, here, -⟩ := each elements.length (by omega)
    rw [List.getElem?_eq_none (le_refl _)] at here
    cases here
  refine ⟨enough, List.forall₂_iff_get.mpr ⟨by simp [enough], fun position first second => ?_⟩⟩
  obtain ⟨element, here, left⟩ := each position first
  obtain ⟨_, rfl⟩ := List.getElem?_eq_some_iff.mp here
  simpa using left

end Looping

end MachineM

end StackMachine
