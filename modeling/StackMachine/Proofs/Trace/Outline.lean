import Mathlib.Data.List.Basic
import StackMachine.Machine.Basic
import StackMachine.Proofs.Machine.Readiness
import StackMachine.Trace.Coverage

/-!
# Events that are bracketed

Whoever is told the events knows which frames are open: a frame is open from the event that
enters it to the one that leaves it, and a block of it from the event that pushes the block to
the one that pops it.  An `Outline` is what they know.  It decides which events may come next,
since each of them tells a depth: a frame that is entered is one deeper than those that are
open, a frame is left only when it is in no block, and it is never in more than `maxBlocks`.

Events that lead from no open frame to no open frame are balanced: each frame that is entered
has a matching event that leaves it, and what comes between the two is told by the frame itself
or is balanced again.
-/

namespace StackMachine

/-- What is told of a frame that is open: the file of its code, and how many blocks it is in. -/
structure OpenFrame where
  file : String
  blocks : Nat
  deriving DecidableEq, Repr

/-- The frames that are open, innermost first. -/
abbrev Outline := List OpenFrame

namespace Outline

/-- The frames that are open after an event, if that may come next. -/
def next? : Outline → Event → Option Outline
  | outline, .entered file depth =>
      if depth = outline.length + 1 then some (⟨file, 0⟩ :: outline) else none
  | frame :: callers, .left depth =>
      if frame.blocks = 0 ∧ depth = callers.length then some callers else none
  | frame :: callers, .instruction _ _ _ depth =>
      if depth = callers.length + 1 then some (frame :: callers) else none
  | frame :: callers, .unwound _ depth =>
      if depth = callers.length + 1 then some (frame :: callers) else none
  | frame :: callers, .pushed _ blocks =>
      if blocks = frame.blocks + 1 ∧ blocks ≤ maxBlocks then some ({ frame with blocks } :: callers)
      else none
  | frame :: callers, .popped blocks =>
      if frame.blocks = blocks + 1 then some ({ frame with blocks } :: callers) else none
  | [], _ => none

section Next

variable (frame : OpenFrame) (callers : Outline) {depth : Nat}

theorem next?_entered (outline : Outline) (file : String) (level : depth = outline.length + 1) :
    outline.next? (.entered file depth) = some (⟨file, 0⟩ :: outline) := by
  unfold next?
  exact if_pos level

theorem next?_left (file : String) (level : depth = callers.length) :
    next? (⟨file, 0⟩ :: callers) (.left depth) = some callers :=
  if_pos ⟨rfl, level⟩

theorem next?_instruction (offset : Nat) (op : Opcode) (values : Nat)
    (level : depth = callers.length + 1) :
    next? (frame :: callers) (.instruction offset op values depth) = some (frame :: callers) :=
  if_pos level

theorem next?_unwound (reason : Unwinding) (level : depth = callers.length + 1) :
    next? (frame :: callers) (.unwound reason depth) = some (frame :: callers) :=
  if_pos level

theorem next?_pushed (file : String) (blocks : Nat) (kind : BlockKind) (room : blocks < maxBlocks) :
    next? (⟨file, blocks⟩ :: callers) (.pushed kind (blocks + 1)) =
      some (⟨file, blocks + 1⟩ :: callers) :=
  if_pos ⟨rfl, room⟩

theorem next?_popped (file : String) (blocks : Nat) :
    next? (⟨file, blocks + 1⟩ :: callers) (.popped blocks) = some (⟨file, blocks⟩ :: callers) :=
  if_pos rfl

end Next

/-- Which event may come next, and what is open after it. -/
inductive Allows : Outline → Event → Outline → Prop
  | entered (outline : Outline) (file : String) :
      Allows outline (.entered file (outline.length + 1)) (⟨file, 0⟩ :: outline)
  | left (file : String) (callers : Outline) :
      Allows (⟨file, 0⟩ :: callers) (.left callers.length) callers
  | instruction (frame : OpenFrame) (callers : Outline) (offset : Nat) (op : Opcode)
      (values : Nat) :
      Allows (frame :: callers) (.instruction offset op values (callers.length + 1))
        (frame :: callers)
  | unwound (frame : OpenFrame) (callers : Outline) (reason : Unwinding) :
      Allows (frame :: callers) (.unwound reason (callers.length + 1)) (frame :: callers)
  | pushed (file : String) (blocks : Nat) (callers : Outline) (kind : BlockKind)
      (room : blocks < maxBlocks) :
      Allows (⟨file, blocks⟩ :: callers) (.pushed kind (blocks + 1)) (⟨file, blocks + 1⟩ :: callers)
  | popped (file : String) (blocks : Nat) (callers : Outline) :
      Allows (⟨file, blocks + 1⟩ :: callers) (.popped blocks) (⟨file, blocks⟩ :: callers)

theorem next?_eq_some_iff {outline after : Outline} {event : Event} :
    outline.next? event = some after ↔ Allows outline event after := by
  constructor
  case mp =>
      intro told
      unfold next? at told
      split at told
      case h_1 file depth =>
          obtain ⟨rfl, opened⟩ := Option.ite_none_right_eq_some.mp told
          exact Option.some.inj opened ▸ .entered outline file
      case h_2 frame callers depth =>
          obtain ⟨⟨none, rfl⟩, left⟩ := Option.ite_none_right_eq_some.mp told
          obtain ⟨file, blocks⟩ := frame
          obtain rfl : blocks = 0 := none
          exact Option.some.inj left ▸ .left file callers
      case h_3 frame callers offset op values depth =>
          obtain ⟨rfl, same⟩ := Option.ite_none_right_eq_some.mp told
          exact Option.some.inj same ▸ .instruction frame callers offset op values
      case h_4 frame callers reason depth =>
          obtain ⟨rfl, same⟩ := Option.ite_none_right_eq_some.mp told
          exact Option.some.inj same ▸ .unwound frame callers reason
      case h_5 frame callers kind depth =>
          obtain ⟨⟨rfl, room⟩, deeper⟩ := Option.ite_none_right_eq_some.mp told
          exact Option.some.inj deeper ▸ .pushed frame.file frame.blocks callers kind room
      case h_6 frame callers blocks =>
          obtain ⟨one, back⟩ := Option.ite_none_right_eq_some.mp told
          obtain ⟨file, depth⟩ := frame
          obtain rfl : depth = blocks + 1 := one
          exact Option.some.inj back ▸ .popped file blocks callers
      case h_7 => cases told
  case mpr =>
      intro allowed
      cases allowed with
      | entered _ file => exact next?_entered outline file rfl
      | left file => exact next?_left after file rfl
      | instruction frame callers offset op values =>
          exact next?_instruction frame callers offset op values rfl
      | unwound frame callers reason => exact next?_unwound frame callers reason rfl
      | pushed file blocks callers kind room => exact next?_pushed callers file blocks kind room
      | popped file blocks callers => exact next?_popped callers file blocks

/-- The frames that are open after some events, if those may come one after the other. -/
def follow? (outline : Outline) (events : List Event) : Option Outline :=
  events.foldlM next? outline

variable {outline middle after : Outline} {frame : OpenFrame} {callers : Outline}
variable {event : Event} {events more : List Event}

@[simp] theorem follow?_nil (outline : Outline) : outline.follow? [] = some outline :=
  rfl

theorem follow?_cons (outline : Outline) (event : Event) (events : List Event) :
    outline.follow? (event :: events) = (outline.next? event).bind (·.follow? events) :=
  rfl

@[simp] theorem follow?_singleton (outline : Outline) (event : Event) :
    outline.follow? [event] = outline.next? event := by
  rw [follow?_cons]
  cases outline.next? event <;> rfl

theorem follow?_cons_eq_some : outline.follow? (event :: events) = some after ↔
    ∃ middle, outline.next? event = some middle ∧ middle.follow? events = some after := by
  rw [follow?_cons, Option.bind_eq_some_iff]

theorem follow?_append (outline : Outline) (events more : List Event) :
    outline.follow? (events ++ more) = (outline.follow? events).bind (·.follow? more) :=
  List.foldlM_append

theorem follow?_trans (earlier : outline.follow? events = some middle)
    (later : middle.follow? more = some after) : outline.follow? (events ++ more) = some after := by
  rw [follow?_append, earlier, Option.bind_some, later]

/-- A frame that is left in no block leaves those around it as they were when it was entered. -/
theorem follow?_call {depth : Nat} {body rest : List Event} (file : String)
    (level : depth = outline.length)
    (inside : follow? (⟨file, 0⟩ :: outline) body = some (⟨file, 0⟩ :: outline)) :
    outline.follow? (.entered file (depth + 1) :: (body ++ .left depth :: rest)) =
      outline.follow? rest := by
  rw [follow?_cons, next?_entered outline file (by rw [level]), Option.bind_some, follow?_append,
    inside, Option.bind_some, follow?_cons, next?_left outline file level, Option.bind_some]

/-- No frame is in more blocks than a frame may be in. -/
def Bounded (outline : Outline) : Prop :=
  ∀ frame ∈ outline, frame.blocks ≤ maxBlocks

theorem Bounded.next (bounded : outline.Bounded) (told : outline.next? event = some after) :
    after.Bounded := by
  cases next?_eq_some_iff.mp told with
  | entered _ file => exact List.forall_mem_cons.mpr ⟨Nat.zero_le maxBlocks, bounded⟩
  | left file => exact (List.forall_mem_cons.mp bounded).2
  | instruction | unwound => exact bounded
  | pushed file blocks callers kind room =>
      exact List.forall_mem_cons.mpr ⟨room, (List.forall_mem_cons.mp bounded).2⟩
  | popped file blocks callers =>
      obtain ⟨first, rest⟩ := List.forall_mem_cons.mp bounded
      exact List.forall_mem_cons.mpr ⟨Nat.le_of_succ_le first, rest⟩

/-- However long the events go on, no frame is in more blocks than it may be in. -/
theorem Bounded.follow (bounded : outline.Bounded) (told : outline.follow? events = some after) :
    after.Bounded := by
  induction events generalizing outline with
  | nil => exact Option.some.inj told ▸ bounded
  | cons event rest ih =>
      obtain ⟨middle, first, later⟩ := follow?_cons_eq_some.mp told
      exact ih (bounded.next first) later

end Outline

/-! ## Balanced events -/

namespace Event

/-- What a frame at some depth tells, with all that it calls, while it goes from so many blocks
to so many. -/
inductive Within : (depth blocks : Nat) → List Event → (after : Nat) → Prop
  | nothing {depth blocks : Nat} : Within depth blocks [] blocks
  | instruction {depth blocks after : Nat} {rest : List Event} (offset : Nat) (op : Opcode)
      (values : Nat) (later : Within depth blocks rest after) :
      Within depth blocks (.instruction offset op values depth :: rest) after
  | unwound {depth blocks after : Nat} {rest : List Event} (reason : Unwinding)
      (later : Within depth blocks rest after) :
      Within depth blocks (.unwound reason depth :: rest) after
  | pushed {depth blocks after : Nat} {rest : List Event} (kind : BlockKind)
      (room : blocks < maxBlocks) (later : Within depth (blocks + 1) rest after) :
      Within depth blocks (.pushed kind (blocks + 1) :: rest) after
  | popped {depth blocks after : Nat} {rest : List Event} (later : Within depth blocks rest after) :
      Within depth (blocks + 1) (.popped blocks :: rest) after
  | call {depth blocks after : Nat} {body rest : List Event} (file : String)
      (inner : Within (depth + 1) 0 body 0) (later : Within depth blocks rest after) :
      Within depth blocks (.entered file (depth + 1) :: (body ++ .left depth :: rest)) after

/-- Calls one after the other, at depth 0 before, between and after them.  A frame is in no block
when it is entered, and in none when it is left. -/
inductive Balanced : List Event → Prop
  | nothing : Balanced []
  | call {body rest : List Event} (file : String) (inner : Within 1 0 body 0)
      (later : Balanced rest) : Balanced (.entered file 1 :: (body ++ .left 0 :: rest))

/-- The events leave all open frames, one after the other, and are balanced after that. -/
def Closes : Outline → List Event → Prop
  | [], events => Balanced events
  | frame :: callers, events => ∃ body rest, events = body ++ .left callers.length :: rest ∧
      Within (callers.length + 1) frame.blocks body 0 ∧ Closes callers rest

variable {outline after : Outline} {frame : OpenFrame} {callers : Outline}
variable {event : Event} {events : List Event} {depth blocks final : Nat}

/-- The innermost frame tells something more before it is left. -/
theorem Closes.head (closes : Closes ({ frame with blocks } :: callers) events)
    (more : ∀ {body}, Within (callers.length + 1) blocks body 0 →
      Within (callers.length + 1) frame.blocks (event :: body) 0) :
    Closes (frame :: callers) (event :: events) := by
  obtain ⟨body, rest, rfl, inner, later⟩ := closes
  exact ⟨event :: body, rest, rfl, more inner, later⟩

/-- A frame that is entered is left before those around it. -/
theorem Closes.call {file : String} (closes : Closes (⟨file, 0⟩ :: outline) events) :
    Closes outline (.entered file (outline.length + 1) :: events) := by
  obtain ⟨body, rest, rfl, inner, later⟩ := closes
  cases outline with
  | nil => exact .call file inner later
  | cons frame callers =>
      obtain ⟨own, others, rfl, outer, later⟩ := later
      refine ⟨.entered file (callers.length + 2) :: (body ++ .left (callers.length + 1) :: own),
        others, ?_, .call file inner outer, later⟩
      simp only [List.cons_append, List.append_assoc, List.length_cons]

theorem Closes.cons (closes : Closes after events) (told : outline.next? event = some after) :
    Closes outline (event :: events) := by
  cases Outline.next?_eq_some_iff.mp told with
  | entered file => exact closes.call
  | left file callers => exact ⟨[], events, rfl, .nothing, closes⟩
  | instruction frame callers offset op values =>
      exact closes.head fun later => .instruction offset op values later
  | unwound frame callers reason => exact closes.head fun later => .unwound reason later
  | pushed file blocks callers kind room => exact closes.head fun later => .pushed kind room later
  | popped file blocks callers => exact closes.head fun later => .popped later

theorem closes_of_follow (told : outline.follow? events = some []) : Closes outline events := by
  induction events generalizing outline with
  | nil => exact Option.some.inj told ▸ .nothing
  | cons event rest ih =>
      obtain ⟨middle, first, later⟩ := Outline.follow?_cons_eq_some.mp told
      exact (ih later).cons first

/-- What a frame tells leaves those around it open. -/
theorem Within.follow (within : Within depth blocks events final)
    (level : depth = callers.length + 1) (file : String) :
    Outline.follow? (⟨file, blocks⟩ :: callers) events = some (⟨file, final⟩ :: callers) := by
  induction within generalizing callers file with
  | nothing => rfl
  | instruction offset op values later ih =>
      rw [Outline.follow?_cons, Outline.next?_instruction _ _ _ _ _ level]
      exact ih level file
  | unwound reason later ih =>
      rw [Outline.follow?_cons, Outline.next?_unwound _ _ _ level]
      exact ih level file
  | pushed kind room later ih =>
      rw [Outline.follow?_cons, Outline.next?_pushed _ _ _ _ room]
      exact ih level file
  | popped later ih =>
      rw [Outline.follow?_cons, Outline.next?_popped]
      exact ih level file
  | @call depth blocks after body rest entered inner later ihInner ihLater =>
      have inside := @ihInner (⟨file, blocks⟩ :: callers) (by rw [level]; rfl) entered
      rw [Outline.follow?_call entered (by rw [level]; rfl) inside]
      exact ihLater level file

theorem Balanced.follow (balanced : Balanced events) : Outline.follow? [] events = some [] := by
  induction balanced with
  | nothing => rfl
  | call file inner later ih =>
      have inside := @Within.follow [] _ _ _ _ inner rfl file
      exact (Outline.follow?_call file rfl inside).trans ih

/-- Balanced events are those that may be told where no frame is open and leave none open. -/
theorem balanced_iff : Balanced events ↔ Outline.follow? [] events = some [] :=
  ⟨Balanced.follow, closes_of_follow⟩

instance : Decidable (Balanced events) :=
  decidable_of_iff _ balanced_iff.symm

example : Balanced [.entered "main" 1, .pushed .loop 1, .entered "callee" 2,
    .unwound .returning 2, .left 1, .unwound .error 1, .popped 0, .left 0] := by
  decide

end Event

/-! ## The files of coverage -/

namespace Coverage

variable {outline after : Outline} {coverage : Coverage} {event : Event} {events : List Event}

/-- Coverage knows the files of the frames that are open. -/
def Knows (coverage : Coverage) (outline : Outline) : Prop :=
  coverage.files = outline.map (·.file)

theorem Knows.observe (knows : coverage.Knows outline) (told : outline.next? event = some after) :
    (coverage.observe event).Knows after := by
  cases Outline.next?_eq_some_iff.mp told <;> simp_all [Knows, Coverage.observe]

/-- Coverage that is told all events goes on knowing the files of the frames that are open. -/
theorem Knows.observeAll (knows : coverage.Knows outline)
    (told : outline.follow? events = some after) :
    ∃ covered : Coverage, (Tracer.coverage coverage).observeAll events = .coverage covered ∧
      covered.Knows after := by
  induction events generalizing outline coverage with
  | nil => exact ⟨coverage, rfl, Option.some.inj told ▸ knows⟩
  | cons event rest ih =>
      obtain ⟨middle, first, later⟩ := Outline.follow?_cons_eq_some.mp told
      exact ih (knows.observe first) later

end Coverage

/-! ## The outline of a machine -/

/-- What is told of a frame at work. -/
def Activation.opened (activation : Activation) : OpenFrame :=
  ⟨activation.file, activation.blocks.length⟩

/-- What is told of the active frames. -/
def Machine.outline {τ : Type} (machine : Machine τ) : Outline :=
  machine.frames.items.map Activation.opened

namespace Machine

variable {τ : Type} {machine : Machine τ}

theorem length_outline (machine : Machine τ) : machine.outline.length = machine.frames.height := by
  rw [outline, List.length_map, machine.frames.height_eq]

theorem outline_eq_nil : machine.outline = [] ↔ machine.frames.items = [] :=
  List.map_eq_nil_iff

theorem files_outline (machine : Machine τ) :
    machine.outline.map (·.file) = machine.frames.items.map (·.file) := by
  rw [outline, List.map_map]
  rfl

end Machine

end StackMachine
