import StackMachine.Trace.Event

/-!
# Recordings

A recording keeps the events in their order, up to a number of them if one is
given.
-/

namespace StackMachine

/-- Recorded events. -/
structure Recording where
  limit : Option Nat
  events : Array Event

namespace Recording

/-- Nothing recorded yet. -/
def start (limit : Option Nat) : Recording :=
  ⟨limit, #[]⟩

/-- May another event be recorded? -/
def hasRoom (recording : Recording) : Bool :=
  match recording.limit with
  | some limit => recording.events.size < limit
  | none => true

/-- Record an event. -/
def observe (recording : Recording) (event : Event) : Recording :=
  if recording.hasRoom then { recording with events := recording.events.push event }
  else recording

/-- The operation codes of the recorded instructions, in their order. -/
def opcodes (recording : Recording) : List Opcode :=
  recording.events.toList.filterMap Event.opcode?

end Recording

end StackMachine
