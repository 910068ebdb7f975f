import StackMachine.Machine.Host
import StackMachine.Proofs.Evolution.Following
import StackMachine.Proofs.Evolution.Frame

/-!
# Where a machine gets to

Whatever the machine does takes its store along a path, tells every tracer the same, and
carries out no instruction that its tracker has not granted.  Frames and entries of the
traceback are made in two places only: where a frame is entered, and where an error passes
one.

Between these two, the machine is `Calm`, and what it tells is so of its frames; where a frame
is entered it has `Opened` one; and whatever it does, it `Roams`.  Two courses put this
together.  On the plain course no frame ever runs, so that it leads calmly to the point where
the first one would.
-/

namespace StackMachine

open Relation Store

/-- The instructions among some events. -/
def Event.instructions (events : List Event) : Nat :=
  events.countP (·.opcode?.isSome)

theorem Event.instructions_append (first second : List Event) :
    instructions (first ++ second) = instructions first + instructions second :=
  List.countP_append

/-- What is done without telling of an instruction. -/
def Course.wordless (σ : Type) : Course σ where
  goes _ events _ := Event.instructions events = 0
  halts _ events _ := Event.instructions events = 0
  refl _ := rfl
  trans earlier later := by rw [Event.instructions_append, earlier, later]
  halts_after earlier later := by rw [Event.instructions_append, earlier, later]

variable {τ : Type} [Tracker τ]

/-- One comes from a tracker to another by asking, and it grants so many instructions, or
more, on the way. -/
inductive Spends : Nat → τ → τ → Prop where
  | start (tracker : τ) : Spends 0 tracker tracker
  | asked {count : Nat} {first last : τ} (query : Query) (earlier : Spends count first last) :
      Spends count first (query.pose last).2
  | ticked {count : Nat} {first last : τ} (earlier : Spends count first last)
      (granted : (Tracker.tick last).1 = none) :
      Spends (count + 1) first (Tracker.tick last).2

theorem Spends.of_asked {first last : τ} (asked : Asked first last) : Spends 0 first last := by
  induction asked with
  | refl => exact .start first
  | tail _ posed ih =>
      obtain ⟨query, rfl⟩ := posed
      exact .asked query ih

theorem Spends.to_asked {count : Nat} {first last : τ} (spends : Spends count first last) :
    Asked first last := by
  induction spends with
  | start => exact ReflTransGen.refl
  | asked query _ ih => exact ReflTransGen.tail ih ⟨query, rfl⟩
  | ticked _ _ ih => exact ReflTransGen.tail ih ⟨.tick, rfl⟩

theorem Spends.trans {count more : Nat} {first middle last : τ}
    (earlier : Spends count first middle) (later : Spends more middle last) :
    Spends (count + more) first last := by
  induction later with
  | start => exact earlier
  | asked query _ ih => exact .asked query (ih earlier)
  | ticked _ granted ih => exact .ticked (ih earlier) granted

namespace Machine

instance : Traced (Machine τ) where
  tracer := Machine.tracer
  retrace tracer machine := { machine with tracer }
  tracer_retrace _ _ := rfl
  retrace_retrace _ _ _ := rfl
  retrace_tracer _ := rfl

variable {before middle after : Machine τ} {events more : List Event}

/-- The machine is about to carry out an instruction, and to tell of it: the one that its
innermost frame is at. -/
def Delivers (machine : Machine τ) (event : Event) : Prop :=
  ∃ activation callers op operand next, machine.frames.items = activation :: callers ∧
    Fetched.read activation.bytecode activation.offset = .instruction op operand next ∧
      event = .instruction activation.offset op (machine.values.height - activation.base)
        machine.frames.height

/-- The machine got from one state to another, entering and leaving as many frames. -/
structure Calm (before : Machine τ) (events : List Event) (after : Machine τ) : Prop where
  path : PlainPath before.store after.store
  spends : Spends (Event.instructions events) before.store.tracker after.store.tracker
  height : after.frames.height = before.frames.height
  outline : before.outline.follow? events = some after.outline

/-- The machine got from one state to another. -/
structure Roams (before : Machine τ) (events : List Event) (after : Machine τ) : Prop where
  path : AnyPath before.store after.store
  spends : Spends (Event.instructions events) before.store.tracker after.store.tracker

/-- A store in which a new object was made, which may be a frame or an entry of a traceback. -/
structure ObjectMade (before : Store τ) (ref : Ref) (after : Store τ) : Prop where
  made : ∃ middle payload, PlainPath before middle ∧ payload.IsLight ∧
    (Tracker.allocate payload.bytes middle.tracker).1 = none ∧
    ((middle.asking (.allocate payload.bytes)).place payload) = (ref, after)

/-- The machine has entered a frame, and the tracker has agreed to that. -/
structure Opened (before : Machine τ) (events : List Event) (inside : Machine τ) : Prop where
  made : ∃ frame, inside.frames.top?.map (·.frame) = some frame ∧
    ObjectMade before.store frame inside.store
  spends : Spends (Event.instructions events) before.store.tracker inside.store.tracker
  height : inside.frames.height = before.frames.height + 1
  outline : before.outline.follow? events = some inside.outline
  agreed : ∃ tracker, Asked before.store.tracker tracker ∧
    Tracker.enter before.frames.height tracker = none

theorem Calm.refl (machine : Machine τ) : machine.Calm [] machine :=
  ⟨Store.Path.refl _, .start _, rfl, rfl⟩

theorem Roams.refl (machine : Machine τ) : machine.Roams [] machine :=
  ⟨Store.Path.refl _, .start _⟩

theorem Calm.trans (earlier : before.Calm events middle) (later : middle.Calm more after) :
    before.Calm (events ++ more) after where
  path := earlier.path.trans later.path
  spends := by
    rw [Event.instructions_append]
    exact earlier.spends.trans later.spends
  height := later.height.trans earlier.height
  outline := Outline.follow?_trans earlier.outline later.outline

theorem Roams.trans (earlier : before.Roams events middle) (later : middle.Roams more after) :
    before.Roams (events ++ more) after where
  path := earlier.path.trans later.path
  spends := by
    rw [Event.instructions_append]
    exact earlier.spends.trans later.spends

theorem Calm.roams (calm : before.Calm events after) : before.Roams events after :=
  ⟨calm.path.any, calm.spends⟩

theorem ObjectMade.of_plain {before middle after : Store τ} {ref : Ref}
    (made : ObjectMade middle ref after) (path : PlainPath before middle) :
    ObjectMade before ref after := by
  obtain ⟨store, payload, later, rest⟩ := made.made
  exact ⟨store, payload, path.trans later, rest⟩

theorem Opened.of_calm (opened : middle.Opened more after) (calm : before.Calm events middle) :
    before.Opened (events ++ more) after where
  made := by
    obtain ⟨frame, top, made⟩ := opened.made
    exact ⟨frame, top, made.of_plain calm.path⟩
  spends := by
    rw [Event.instructions_append]
    exact calm.spends.trans opened.spends
  height := by rw [opened.height, calm.height]
  outline := Outline.follow?_trans calm.outline opened.outline
  agreed := by
    obtain ⟨tracker, asked, agreed⟩ := opened.agreed
    exact ⟨tracker, ReflTransGen.trans calm.spends.to_asked asked, calm.height ▸ agreed⟩

theorem ObjectMade.path {before after : Store τ} {ref : Ref} (made : ObjectMade before ref after) :
    AnyPath before after := by
  obtain ⟨middle, payload, path, light, granted, placed⟩ := made.made
  have last : AnyPath middle _ := Path.make trivial light granted
  rw [placed] at last
  exact path.any.trans last

theorem Opened.roams (opened : before.Opened events after) : before.Roams events after := by
  obtain ⟨frame, -, made⟩ := opened.made
  exact ⟨made.path, opened.spends⟩

/-- The store has gone along a path, and nothing else has changed. -/
theorem calm_store {store : Store τ} (path : PlainPath before.store store) :
    before.Calm [] { before with store } :=
  ⟨path, .of_asked path.asked, rfl, rfl⟩

/-! Nothing of this depends on who is told. -/

theorem Roams.of_retrace {tracer : Tracer}
    (roams : before.Roams events (Traced.retrace tracer after)) : before.Roams events after :=
  ⟨roams.path, roams.spends⟩

theorem Opened.of_retrace {tracer : Tracer}
    (opened : before.Opened events (Traced.retrace tracer after)) : before.Opened events after :=
  ⟨opened.made, opened.spends, opened.height, opened.outline, opened.agreed⟩

/-- Everything a machine does. -/
def free (τ : Type) [Tracker τ] : Course (Machine τ) where
  goes := Roams
  halts _ _ _ := True
  refl := Roams.refl
  trans := Roams.trans
  halts_after _ _ := trivial

/-- What a machine does where no frame runs.  It may stop where a frame was entered. -/
def plain (τ : Type) [Tracker τ] : Course (Machine τ) where
  goes := Calm
  halts before events after :=
    after.frames.height ≠ before.frames.height → Opened before events after
  refl := Calm.refl
  trans := Calm.trans
  halts_after calm opened other := (opened (calm.height ▸ other)).of_calm calm

/-- What a machine does where no frame is even entered. -/
def still (τ : Type) [Tracker τ] : Course (Machine τ) where
  goes := Calm
  halts before _ after := after.frames.height = before.frames.height
  refl := Calm.refl
  trans := Calm.trans
  halts_after calm same := same.trans calm.height

/-- What a machine does without making a frame or an entry of a traceback. -/
def loose (τ : Type) [Tracker τ] : Course (Machine τ) where
  goes before _ after := PlainPath before.store after.store
  halts _ _ _ := True
  refl machine := Store.Path.refl machine.store
  trans := Store.Path.trans
  halts_after _ _ := trivial

/-- What a machine does without touching its traceback. -/
def sparing (τ : Type) : Course (Machine τ) where
  goes before _ after := after.traceback = before.traceback
  halts _ _ _ := True
  refl _ := rfl
  trans earlier later := later.trans earlier
  halts_after _ _ := trivial

/-- What a machine does that keeps its frames and tells nothing. -/
def steady (τ : Type) : Course (Machine τ) where
  goes before events after := events = [] ∧ after.frames = before.frames
  halts _ events _ := events = []
  refl _ := ⟨rfl, rfl⟩
  trans earlier later := ⟨by rw [earlier.1, later.1]; rfl, later.2.trans earlier.2⟩
  halts_after earlier later := by rw [earlier.1, later]; rfl

/-- A course that leads where nothing but the store goes on. -/
class Narrow (course : Course (Machine τ)) : Prop where
  goes_store : ∀ {before : Machine τ} {store : Store τ}, PlainPath before.store store →
    course.goes before [] { before with store }
  halts_store : ∀ {before : Machine τ} {store : Store τ},
    course.halts before [] { before with store }

instance : Narrow (sparing τ) where
  goes_store _ := rfl
  halts_store := trivial

/-- A course that leads where the store and the frames stay as they are and nothing is told. -/
class Modest (course : Course (Machine τ)) : Prop extends Narrow course where
  stays : ∀ {before after : Machine τ}, after.store = before.store →
    after.frames = before.frames → course.goes before [] after

instance : Modest (steady τ) where
  goes_store _ := ⟨rfl, rfl⟩
  halts_store := rfl
  stays _ frames := ⟨rfl, frames⟩

/-- Where the store and the frames stay as they are, the machine is calm. -/
theorem calm_frames (store : after.store = before.store) (frames : after.frames = before.frames) :
    before.Calm [] after where
  path := by rw [store]; exact Store.Path.refl _
  spends := by rw [store]; exact .start _
  height := by rw [frames]
  outline := by rw [outline, outline, frames]; rfl

/-- A course that leads where the plain course does, as long as no instruction is told. -/
class Tame (course : Course (Machine τ)) : Prop where
  goes : ∀ {before events after}, Calm before events after → Event.instructions events = 0 →
    course.goes before events after
  halts : ∀ {before after : Machine τ}, after.frames.height = before.frames.height →
    course.halts before [] after

instance (course : Course (Machine τ)) [Tame course] : Modest course where
  goes_store path := Tame.goes (calm_store path) rfl
  halts_store := Tame.halts rfl
  stays store frames := Tame.goes (calm_frames store frames) rfl

/-- A course that leads where the plain course does. -/
class Ample (course : Course (Machine τ)) : Prop where
  goes : ∀ {before events after}, Calm before events after → course.goes before events after
  halts : ∀ {before after : Machine τ}, after.frames.height = before.frames.height →
    course.halts before [] after

instance (course : Course (Machine τ)) [Ample course] : Tame course where
  goes calm _ := Ample.goes calm
  halts := Ample.halts

instance : Ample (free τ) where
  goes := Calm.roams
  halts _ := trivial

instance : Ample (plain τ) where
  goes := id
  halts same other := absurd same other

instance : Ample (still τ) where
  goes := id
  halts := id

instance : Ample (loose τ) where
  goes := Calm.path
  halts _ := trivial

/-- A course that leads wherever the store is the same and no instruction is told. -/
class Wide (course : Course (Machine τ)) : Prop extends Tame course where
  stands : ∀ {before after : Machine τ} {events : List Event}, Event.instructions events = 0 →
    after.store = before.store → course.goes before events after

instance : Wide (free τ) where
  stands none same :=
    ⟨by rw [same]; exact Store.Path.refl _, by rw [same, none]; exact .start _⟩

instance : Wide (loose τ) where
  stands _ same := by
    show PlainPath _ _
    rw [same]
    exact Store.Path.refl _

/-- A course that leads wherever frames and entries of the traceback may be made. -/
class Ranging (course : Course (Machine τ)) : Prop extends Wide course where
  goes_any : ∀ {before : Machine τ} {store : Store τ}, AnyPath before.store store →
    course.goes before [] { before with store }

instance : Ranging (free τ) where
  goes_any path := ⟨path, .of_asked path.asked⟩

instance : Ranging (Course.wordless (Machine τ)) where
  goes _ none := none
  halts _ := rfl
  stands none _ := none
  goes_any _ := rfl

end Machine

end StackMachine
