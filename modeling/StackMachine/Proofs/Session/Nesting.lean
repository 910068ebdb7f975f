import StackMachine.Proofs.Session.Delivering

/-!
# Events that nest

The events of a request are balanced once it is replied to: each frame that was entered was left
again, at the depth it was entered at and in no block, whether it returned or failed.  At each
point before that, the frames that are open are those that are active in the machine.

This is all that coverage relies on.  Where it is told of an instruction, it knows the files of
the active frames, and the innermost of them is the file of the code that the instruction is read
from.
-/

namespace StackMachine

open Outcome Machine Course

variable {τ : Type} [Tracker τ]

namespace MachineM

variable {machine visited : Machine τ} {fuel : Nat} {events : List Event}

/-- What is told on the way to a state opens the frames that are active there, and closes the
others. -/
theorem Visits.outline (visits : Visits fuel machine events visited) :
    machine.outline.follow? events = some visited.outline := by
  induction visits with
  | here machine => rfl
  | next stepped rest ih =>
      obtain ⟨_, led⟩ := stepped.goes (step_follows (evaluates_bracketed _))
      exact Outline.follow?_trans led ih
  | breaks stepped caught rest ih =>
      obtain ⟨_, led⟩ := stepped.goes (step_follows (evaluates_bracketed _))
      obtain ⟨_, unwound⟩ := caught.goes (unwind_bracketed .breaking)
      exact Outline.follow?_trans led (Outline.follow?_trans unwound ih)
  | inside halts deeper rest ih =>
      obtain ⟨_, opened⟩ := halts.halts (step_follows evaluates_plain)
      exact Outline.follow?_trans (opened deeper).outline ih

end MachineM

/-- The event tells of the instruction that the innermost frame is at, which is read from its
code at that offset. -/
def Machine.Reads (machine : Machine τ) (code : CodeObject) (offset : Nat) (event : Event) : Prop :=
  ∃ activation callers op operand next values, machine.frames.items = activation :: callers ∧
    machine.store.payload? activation.code = some (.code code) ∧ activation.offset = offset ∧
      Fetched.read code.bytecode offset = .instruction op operand next ∧
        event = .instruction offset op values machine.frames.height

/-- Coverage knows the files of the active frames, and puts the offset of the instruction that it
is told of under the file of the code that this is read from. -/
structure Coverage.Attributes (coverage : Coverage) (machine : Machine τ) (event : Event) :
    Prop where
  files : coverage.files = machine.frames.items.map (·.file)
  attributed : ∃ code offset, machine.Reads code offset event ∧
    (coverage.observe event).covered = coverage.covered.insert (code.file, offset)

/-- What it means that events nest. -/
structure Session.EventsNest (initial : τ) : Prop where
  /-- What a request tells that runs code may be told one after the other, and it is balanced once
  the request is replied to. -/
  balanced : ∀ {session : Session τ} {lost : List Ref} {log : List Event} {request : Request},
    session.Logged initial lost log → request.runs → ∀ fuel,
      ∃ events, Tells (SessionM.reply fuel request) session events ∧
        (∃ outline, Outline.follow? [] events = some outline) ∧
        Ends (SessionM.reply fuel request session)
          (fun _ after => Event.Balanced events ∧ after.machine.frames.items = []) fun _ _ => False
  /-- In every state that is attained, the frames that are open are those that are active, and
  none is in more blocks than it may be in. -/
  active : ∀ {session : Session τ} {lost : List Ref} {log : List Event},
    session.Attained initial lost log →
      Outline.follow? [] log = some session.machine.outline ∧
        ∀ activation ∈ session.machine.frames.items, activation.blocks.length ≤ maxBlocks
  /-- Where a request tells of an instruction, coverage attributes it to the file of its code. -/
  attributed : ∀ {session : Session τ} {lost : List Ref} {log earlier later : List Event}
    {request : Request} {fuel : Nat} {event : Event} {coverage : Coverage},
    session.Logged initial lost log → request.runs →
      Tells (SessionM.reply fuel request) session (earlier ++ event :: later) →
        event.opcode?.isSome → coverage.files = [] →
          ∃ (visited : Session τ) (covered : Coverage),
            session.Visits fuel request earlier visited ∧
              (Tracer.coverage coverage).observeAll earlier = .coverage covered ∧
                covered.Attributes visited.machine event
  /-- After balanced events it knows of no frame, as before them. -/
  rests : ∀ {events : List Event} {coverage : Coverage}, Event.Balanced events →
    coverage.files = [] → ∃ covered : Coverage,
      (Tracer.coverage coverage).observeAll events = .coverage covered ∧ covered.files = []

namespace Session

variable {initial : τ} {session : Session τ} {lost : List Ref}
variable {log earlier later events : List Event}
variable {request : Request} {fuel : Nat} {event : Event} {coverage : Coverage}

theorem Logged.outline (logged : session.Logged initial lost log) :
    Outline.follow? [] log = some session.machine.outline := by
  induction logged with
  | start tracer => rfl
  | reply fuel request _ replied ih =>
      obtain ⟨_, led⟩ := reply_goes (MachineM.evaluates_bracketed fuel) replied
      exact Outline.follow?_trans ih led

/-- Between two requests no frame is open. -/
theorem Logged.outline_eq_nil (logged : session.Logged initial lost log) :
    session.machine.outline = [] :=
  Machine.outline_eq_nil.mpr logged.holds.idle.frames

theorem Attained.outline (attained : session.Attained initial lost log) :
    Outline.follow? [] log = some session.machine.outline := by
  cases attained with
  | rest logged => exact logged.outline
  | busy request fuel logged halts active visits =>
      exact Outline.follow?_trans logged.outline
        (Outline.follow?_trans (logged.opened halts active).outline visits.outline)

theorem Attained.bounded (attained : session.Attained initial lost log) :
    session.machine.outline.Bounded :=
  Outline.Bounded.follow (by simp [Outline.Bounded]) attained.outline

/-- What a request tells follows what is open before it, and is balanced once it is replied to. -/
theorem Logged.balanced (logged : session.Logged initial lost log) (runs : request.runs)
    (fuel : Nat) : ∃ events, Tells (SessionM.reply fuel request) session events ∧
      (∃ outline, Outline.follow? [] events = some outline) ∧
      Ends (SessionM.reply fuel request session)
        (fun _ after => Event.Balanced events ∧ after.machine.frames.items = [])
        fun _ _ => False := by
  have other : request ≠ .trace := by
    rintro rfl
    cases runs
  obtain ⟨events, tells, led⟩ := SessionM.reply_follows other
    (fun _ => MachineM.evaluates_bracketed (τ := τ) fuel) session
  have holds := reply_holds fuel request logged.holds
  have open_ : session.machine.outline = [] := logged.outline_eq_nil
  refine ⟨events, tells, ?_⟩
  cases ran : SessionM.reply fuel request session with
  | ok answer after =>
      rw [ran] at led holds
      have rested : after.Holds _ := holds.1
      have idle : after.machine.frames.items = [] := rested.idle.frames
      have followed : session.machine.outline.follow? events = some after.machine.outline := led
      rw [open_, Machine.outline_eq_nil.mpr idle] at followed
      exact ⟨⟨[], followed⟩, Event.balanced_iff.mpr followed, idle⟩
  | error stop after =>
      rw [ran] at led holds
      cases stop with
      | failed failure => exact holds.elim
      | fault broken => exact holds.elim
      | unfinished =>
          have followed : ∃ outline, session.machine.outline.follow? events = some outline := led
          rw [open_] at followed
          exact ⟨followed, trivial⟩

/-- Where an instruction is told, coverage that knows the files of the active frames attributes
it to the file of its code. -/
theorem Attained.attributes (attained : session.Attained initial lost log)
    (delivers : session.machine.Delivers event) (knows : coverage.Knows session.machine.outline) :
    coverage.Attributes session.machine event := by
  have files : coverage.files = session.machine.frames.items.map (·.file) :=
    knows.trans (Machine.files_outline _)
  refine ⟨files, ?_⟩
  obtain ⟨activation, callers, op, operand, next, active, read, rfl⟩ := delivers
  obtain ⟨held, ready, -⟩ := attained.ready
  obtain ⟨code, stored, file, bytecode, -⟩ := (ready.placed activation (by simp [active])).code
  refine ⟨code, activation.offset, ⟨activation, callers, op, operand, next, _, active, stored, rfl,
    bytecode ▸ read, rfl⟩, ?_⟩
  have innermost : coverage.file = code.file := by
    rw [Coverage.file, files, active, file]
    rfl
  rw [← innermost]
  rfl

/-- Coverage that knows of no frame before a request knows those that are active where it is told
of an instruction. -/
theorem Logged.attributed (logged : session.Logged initial lost log) (runs : request.runs)
    (tells : Tells (SessionM.reply fuel request) session (earlier ++ event :: later))
    (told : event.opcode?.isSome) (fresh : coverage.files = []) :
    ∃ (visited : Session τ) (covered : Coverage), session.Visits fuel request earlier visited ∧
      (Tracer.coverage coverage).observeAll earlier = .coverage covered ∧
        covered.Attributes visited.machine event := by
  obtain ⟨visited, visits, delivers⟩ := logged.delivers runs tells told
  have attained := logged.attains visits
  have followed := attained.outline
  rw [Outline.follow?_append, logged.outline, logged.outline_eq_nil, Option.bind_some] at followed
  have none : coverage.Knows [] := fresh
  obtain ⟨covered, observed, knows⟩ := none.observeAll followed
  exact ⟨visited, covered, visits, observed, attained.attributes delivers knows⟩

/-- Events nest, whatever is run and whoever is told. -/
theorem events_nest (initial : τ) : EventsNest initial where
  balanced := Logged.balanced
  active attained := by
    refine ⟨attained.outline, fun activation member => ?_⟩
    exact attained.bounded activation.opened (List.mem_map_of_mem member)
  attributed := Logged.attributed
  rests balanced fresh := by
    have none : Coverage.Knows _ [] := fresh
    exact none.observeAll balanced.follow

/-- An instruction fails inside a block, where there is no value to take. -/
theorem events_nest_failing :
    let loaded := (Session.start Unlimited.mk .off).next 0
      (.loadCode "code" ⟨"main", #[120, 3, 0, 1], [], []⟩)
    let bound := loaded.next 0 (.dict "names")
    let request : Request := .evaluate "result" "code" "names" "names" none
    let events : List Event := [.entered "main" 1, .instruction 0 (.setup .loop) 0 1,
      .pushed .loop 1, .instruction 3 .popTop 0 1, .unwound .error 1, .popped 0, .left 0]
    Tells (SessionM.reply 9 request) bound events ∧ Event.Balanced events ∧
      ∃ (visited : Session Unlimited) (covered : Coverage),
        bound.Visits 9 request (events.take 3) visited ∧
          (Tracer.coverage .start).observeAll (events.take 3) = .coverage covered ∧
            covered.Attributes visited.machine (.instruction 3 .popTop 0 1) := by
  intro loaded bound request events
  obtain ⟨_, logged⟩ : ∃ log, loaded.Logged Unlimited.mk [] log :=
    (Logged.start .off).next (by decide +kernel)
  obtain ⟨_, logged⟩ : ∃ log, bound.Logged Unlimited.mk [] log :=
    ⟨_, (logged.next (by decide +kernel)).choose_spec⟩
  have nest := events_nest Unlimited.mk
  obtain ⟨told, tells, -, -⟩ := nest.balanced logged (rfl : request.runs) 9
  have run : toldIn (SessionM.reply 9 request (Traced.retrace (recorder []) bound)) =
      recorder events := by
    simp only [bound, loaded, request, events]
    cbv
  have same : told = events := tells.recorded run
  rw [same] at tells
  exact ⟨tells, by decide, nest.attributed logged rfl tells rfl rfl⟩

end Session

end StackMachine
