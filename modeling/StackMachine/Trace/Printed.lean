import StackMachine.Text.Lines
import StackMachine.Trace.Event

/-!
# Printed traces

A printed trace has a line for every event.  With a limit on instructions it
says so after the last one and ends there.
-/

namespace StackMachine

/-- The lines printed so far, last one first, and the number of instructions
that may still be printed. -/
structure PrintedTrace where
  remaining : Option Nat
  lines : List String

namespace PrintedTrace

/-- Nothing printed yet. -/
def start (limit : Option Nat) : PrintedTrace :=
  ⟨limit, []⟩

/-- Print an event. -/
def observe (trace : PrintedTrace) (event : Event) : PrintedTrace :=
  match trace.remaining with
  | none => { trace with lines := event.line :: trace.lines }
  | some 0 => trace
  | some (remaining + 1) =>
      match event with
      | .instruction _ _ _ _ =>
          let lines := event.line :: trace.lines
          ⟨some remaining, if remaining = 0 then "(trace limit reached)" :: lines else lines⟩
      | _ => { trace with lines := event.line :: trace.lines }

/-- The text printed so far. -/
def text (trace : PrintedTrace) : String :=
  Lines.text trace.lines.reverse

end PrintedTrace

end StackMachine
