import StackMachine.Proofs.Session.Attained
import StackMachine.Proofs.Tracking.Metering
import StackMachine.Proofs.Tracking.Refusals

/-!
# Limits that are never exceeded

A session that is held to limits is within them in every state that it attains, whatever was
run and asked for before: it has made no more allocations, uses no more memory, has no more
frames active and has carried out no more instructions than they allow.

A frame is only ever entered with the consent of the tracker, at the depth it then has, and
an instruction is only carried out once the tracker has granted it.
-/

namespace StackMachine

open Outcome Watching Machine Relation

variable {τ : Type} [Tracker τ]

/-! ## Frames that were agreed to -/

/-- The tracker agreed to the latest of the frames that are active. -/
def Machine.Agreed (initial : τ) (machine : Machine τ) : Prop :=
  ∀ depth, machine.frames.height = depth + 1 →
    ∃ tracker, Asked initial tracker ∧ Tracker.enter depth tracker = none

namespace Machine

variable {machine after inside : Machine τ} {initial : τ} {callers : List Activation}
variable {below held : List Ref} {events : List Event}

omit [Tracker τ] in
theorem Working.height_eq (working : machine.Working callers below held) :
    machine.frames.height = callers.length + 1 := by
  obtain ⟨activation, within⟩ := working.within
  rw [Stack.height_eq, within.frames, List.length_cons]

theorem Opened.agreed_of_asked (opened : machine.Opened events inside)
    (asked : Asked initial machine.store.tracker) : inside.Agreed initial := by
  intro depth height
  obtain ⟨tracker, later, agreed⟩ := opened.agreed
  rw [opened.height, Nat.add_right_cancel_iff] at height
  exact ⟨tracker, asked.trans later, height ▸ agreed⟩

end Machine

namespace MachineM

variable {machine visited : Machine τ} {initial : τ} {fuel : Nat} {events : List Event}
variable {callers : List Activation} {below held : List Ref}

/-- Wherever a frame at work gets to, the tracker agreed to the frame that is at work there. -/
theorem Visits.agreed (visits : Visits fuel machine events visited)
    (working : machine.Working callers below held) (asked : Asked initial machine.store.tracker)
    (agreed : machine.Agreed initial) : visited.Agreed initial := by
  induction visits generalizing callers below held with
  | here machine => exact agreed
  | @next fuel machine after _ events _ stepped rest ih =>
      obtain ⟨_, roams⟩ := stepped.goes (step_follows (evaluates_free fuel))
      have left := (working.step stepped.ran rfl).of_retrace
      have later : Asked initial after.store.tracker :=
        asked.trans roams.of_retrace.spends.to_asked
      refine ih left later fun depth height => agreed depth ?_
      rw [working.height_eq, ← left.height_eq, height]
  | @breaks fuel machine middle after _ _ _ _ stepped caught rest ih =>
      obtain ⟨_, roams⟩ := stepped.goes (step_follows (evaluates_free fuel))
      obtain ⟨_, unwound⟩ := caught.goes (unwind_roams .breaking)
      have left := ((working.step stepped.ran rfl).of_retrace.unwind caught.ran).of_retrace
      have later : Asked initial after.store.tracker :=
        asked.trans (roams.of_retrace.trans unwound.of_retrace).spends.to_asked
      refine ih left later fun depth height => agreed depth ?_
      rw [working.height_eq, ← left.height_eq, height]
  | @inside fuel machine entered _ _ _ halts deeper rest ih =>
      obtain ⟨_, opens⟩ := halts.halts (step_follows evaluates_plain)
      have opened := (opens deeper).of_retrace
      obtain ⟨current, own, pending, inner, -⟩ := working.enter halts.ran deeper
      exact ih inner.of_retrace (asked.trans opened.spends.to_asked)
        (opened.agreed_of_asked asked)

end MachineM

namespace Session

variable {session : Session τ} {initial : τ} {lost : List Ref} {log : List Event}

/-- The tracker of a session is one that was asked. -/
theorem Attained.asked (attained : session.Attained initial lost log) :
    Asked initial session.machine.store.tracker :=
  attained.roams.spends.to_asked

theorem Attained.agreed (attained : session.Attained initial lost log) :
    session.machine.Agreed initial := by
  cases attained with
  | rest logged =>
      intro depth height
      rw [Stack.height_eq, logged.holds.idle.frames] at height
      cases height
  | busy request fuel logged halts active visits =>
      have opened := logged.opened halts active
      have asked := logged.roams.spends.to_asked
      obtain ⟨held, working, -⟩ := logged.working halts active
      exact visits.agreed working (asked.trans opened.spends.to_asked)
        (opened.agreed_of_asked asked)

end Session

/-! ## Refusals at their places -/

namespace Table

/-- A table that a dictionary is not rebuilt in leaves it as it is, unless it is full: then the
refusal is what inserting fails for. -/
theorem makeRoom_refused {α : Type} {table : Table α} {tracker : τ} {size : Nat}
    {refusal : Refusal} (crowded : table.isCrowded) (next : nextSize? table.used = some size)
    (refused : Tracker.build (size * slotBytes) tracker = some refusal) :
    table.makeRoom tracker =
      if table.size < table.fill + 1 then .error (.failed (.refused refusal)) else .ok table := by
  have rebuilt : table.rebuild tracker = .error (.failed (.refused refusal)) := by
    rw [rebuild, next]
    simp only [refused]
  rw [makeRoom, if_pos crowded, rebuilt]

end Table

/-- A range that room for its items is refused to fails for that. -/
theorem StoreM.callRange_refused {argument : Option Ref} {store first second : Store τ}
    {low high step : Int64} {refusal : Refusal} (proper : step ≠ 0)
    (found : rangeBounds? argument store = .ok (some (low, high, step)) first)
    (released : releaseOption argument first = .ok () second)
    (refused : Tracker.build (min Meter.maxBytes
      (Payload.refBytes * rangeLength low.toInt high.toInt step.toInt)) second.tracker =
        some refusal) :
    ∃ after, callRange argument store = .error (.failed (.refused refusal)) after := by
  have charged : chargeTable (min Meter.maxBytes
      (Payload.refBytes * rangeLength low.toInt high.toInt step.toInt)) second =
        .error (.failed (.refused refusal))
          { second with tracker := Tracker.noteBuild (min Meter.maxBytes
            (Payload.refBytes * rangeLength low.toInt high.toInt step.toInt)) second.tracker } := by
    unfold chargeTable
    simp only [refused]
  rw [callRange, bind_ok found, bind_ok released]
  simp only [if_neg proper]
  exact ⟨_, bind_error charged⟩

/-! ## Sessions with a meter -/

/-- A machine is within limits that its meter holds it to, and so are the instructions among
what was told. -/
structure Machine.Obeys (machine : Machine Meter) (limits : Limits) (log : List Event) : Prop where
  meter : machine.store.tracker.Obeys limits
  frames_le : ∀ limit ∈ limits.recursion, machine.frames.height ≤ limit
  instructions_le : ∀ limit ∈ limits.operations, Event.instructions log ≤ limit

/-- Every refusal in a call from the host is accounted for, as can be seen by watching the
tracker. -/
structure Machine.HeedsRefusals (machine : Machine τ) (held : List Ref) (argument : Option Ref)
    (fuel : Nat) : Prop where
  evaluate : ∀ code globals locals, [code, globals, locals] ⊆ held →
    MachineM.evaluate fuel code globals locals argument machine =
        seen (MachineM.evaluate fuel code globals locals argument machine.watched) ∧
      MachineM.HeedsCall (fun run => MachineM.evaluateCode run code globals locals argument) []
        (MachineM.evaluate fuel code globals locals argument machine.watched)
  invoke : ∀ callee ∈ held,
    MachineM.invoke fuel callee argument machine =
        seen (MachineM.invoke fuel callee argument machine.watched) ∧
      MachineM.HeedsCall (fun run => MachineM.call run callee argument) []
        (MachineM.invoke fuel callee argument machine.watched)
  runImage : ∀ image,
    MachineM.runImage fuel image machine =
        seen (MachineM.runImage fuel image machine.watched) ∧
      MachineM.HeedsRun [] (MachineM.runImage fuel image machine.watched)

theorem Machine.Idle.heedsRefusals {machine : Machine τ} {held : List Ref} {argument : Option Ref}
    (idle : machine.Idle (argument.toList ++ held)) (fuel : Nat) :
    machine.HeedsRefusals held argument fuel := by
  obtain ⟨evaluated, invoked, ran⟩ := MachineM.calls_seen fuel machine argument
  have empty : Fate.fine.Accounts [] machine.watched.store.tracker.log := .refl _ _
  constructor
  case evaluate =>
    exact fun code globals locals parts =>
      ⟨evaluated code globals locals, MachineM.evaluate_heedsCall idle.watched parts empty⟩
  case invoke =>
    exact fun callee member => ⟨invoked callee, MachineM.invoke_heedsCall idle.watched member empty⟩
  case runImage =>
    exact fun image => ⟨ran image, MachineM.runImage_heedsRun idle.watched image empty⟩

/-- What it means that limits are never exceeded. -/
structure Session.LimitsHold (limits : Limits) (elapsed : Duration) : Prop where
  /-- In every state that a session attains, its counts are within the limits, -/
  obeys : ∀ {session : Session Meter} {lost : List Ref} {log : List Event},
    session.Attained (Meter.start limits elapsed) lost log → session.machine.Obeys limits log
  /-- and so are those of a meter whenever it has been asked. -/
  between : ∀ {meter : Meter}, Asked (Meter.start limits elapsed) meter → meter.Obeys limits
  /-- A refusal changes neither of the counts that are refused. -/
  refused : ∀ {query : Query} {meter : Meter} {refusal : Refusal},
    (query.pose meter).1 = some refusal →
      (query.pose meter).2.allocations = meter.allocations ∧
        (query.pose meter).2.memory = meter.memory
  /-- A refusal in a run ends the run, -/
  heeded : ∀ {session : Session Meter} {lost held : List Ref} {log : List Event}
    {argument : Option Ref}, session.Logged (Meter.start limits elapsed) lost log →
      (lost ++ session.refs).Perm (argument.toList ++ held) →
        ∀ fuel, session.machine.HeedsRefusals held argument fuel
  /-- with an error of its kind. -/
  kinds : ∀ limit count, (Refusal.allocation limit count).kind = .memoryError ∧
    (Refusal.memory limit count).kind = .memoryError ∧
      (Refusal.operation limit count).kind = .runtimeError ∧
        (Refusal.recursion limit count).kind = .runtimeError
  /-- A dictionary that is not rebuilt goes on as long as it has a slot left, -/
  rebuilt : ∀ {α : Type} {table : Table α} {meter : Meter} {size : Nat} {refusal : Refusal},
    table.isCrowded → Table.nextSize? table.used = some size →
      Tracker.build (size * Table.slotBytes) meter = some refusal →
        table.makeRoom meter = if table.size < table.fill + 1 then
          .error (.failed (.refused refusal)) else .ok table
  /-- but a range does not go on. -/
  range : ∀ {argument : Option Ref} {store first second : Store Meter} {low high step : Int64}
    {refusal : Refusal}, step ≠ 0 →
      StoreM.rangeBounds? argument store = .ok (some (low, high, step)) first →
        StoreM.releaseOption argument first = .ok () second →
          Tracker.build (min Meter.maxBytes (Payload.refBytes *
            rangeLength low.toInt high.toInt step.toInt)) second.tracker = some refusal →
            ∃ after, StoreM.callRange argument store = .error (.failed (.refused refusal)) after

namespace Session

variable {limits : Limits} {elapsed : Duration} {session : Session Meter} {lost : List Ref}
variable {log : List Event}

theorem Attained.obeys (attained : session.Attained (Meter.start limits elapsed) lost log) :
    session.machine.Obeys limits log where
  meter := Meter.obeys_of_asked attained.asked
  frames_le := by
    intro limit limited
    cases height : session.machine.frames.height with
    | zero => exact Nat.zero_le limit
    | succ depth =>
        obtain ⟨meter, asked, agreed⟩ := attained.agreed depth height
        have own := (Meter.obeys_of_asked asked).limits_eq
        exact Meter.enter_granted agreed limit (own ▸ limited)
  instructions_le := fun limit limited => (attained.roams.spends.count_le limited).2

/-- Limits are never exceeded, whatever is run and asked for. -/
theorem limits_hold (limits : Limits) (elapsed : Duration) : LimitsHold limits elapsed where
  obeys := Attained.obeys
  between := Meter.obeys_of_asked
  refused := Meter.pose_refused
  heeded := fun logged owned => (logged.holds.idle.perm owned).heedsRefusals
  kinds := fun _ _ => ⟨rfl, rfl, rfl, rfl⟩
  rebuilt := Table.makeRoom_refused
  range := StoreM.callRange_refused

/-- A jump to itself is about to be carried out, and would go on for ever but for the limits. -/
theorem limits_hold_runaway :
    let limits : Limits := ⟨some 2, some 3, none, some 1000, some 1⟩
    let loaded := (Session.start (Meter.start limits ⟨0, 0⟩) .off).next 0
      (.loadCode "code" ⟨"main", #[113, 0, 0], [], []⟩)
    let bound := loaded.next 0 (.dict "names")
    let entered := bound.next 0 (.evaluate "result" "code" "names" "names" none)
    entered.machine.frames.height = 1 ∧ (∃ log, entered.machine.Obeys limits log) ∧
      bound.machine.HeedsRefusals bound.refs none 9 := by
  intro limits
  obtain ⟨_, loaded⟩ : ∃ events, (next 0 (.loadCode "code" ⟨"main", #[113, 0, 0], [], []⟩)
      (Session.start (Meter.start limits ⟨0, 0⟩) .off)).Logged
        (Meter.start limits ⟨0, 0⟩) [] events :=
    (Logged.start .off).next (by decide +kernel)
  obtain ⟨_, bound⟩ : ∃ events, (next 0 (.dict "names") _).Logged (Meter.start limits ⟨0, 0⟩) []
      events :=
    ⟨_, (loaded.next (by decide +kernel)).choose_spec⟩
  obtain ⟨_, entered⟩ :
      ∃ events, (next 0 (.evaluate "result" "code" "names" "names" none) _).Attained
      (Meter.start limits ⟨0, 0⟩) [] events :=
    ⟨_, (bound.enter (by decide +kernel)).choose_spec⟩
  have holds := limits_hold limits ⟨0, 0⟩
  exact ⟨by decide +kernel, ⟨_, holds.obeys entered⟩, holds.heeded bound (.refl _) 9⟩

end Session

end StackMachine
