import StackMachine.Trace.Coverage
import StackMachine.Trace.Printed
import StackMachine.Trace.Profile
import StackMachine.Trace.Recording

/-!
# Tracers

A tracer is told every event and keeps what it needs of them.  It has no way to
change what the machine does.
-/

namespace StackMachine

/-- Someone who is told the events, and what they know so far. -/
inductive Tracer where
  | off
  | recording (recording : Recording)
  | profile (profile : Profile)
  | coverage (coverage : Coverage)
  | printed (trace : PrintedTrace)

namespace Tracer

/-- Tell a tracer an event.  The event is only worked out if someone wants to
know it. -/
def observe (tracer : Tracer) (event : Unit → Event) : Tracer :=
  match tracer with
  | off => off
  | recording state => recording (state.observe (event ()))
  | profile state => profile (state.observe (event ()))
  | coverage state => coverage (state.observe (event ()))
  | printed state => printed (state.observe (event ()))

end Tracer

end StackMachine
