import StackMachine.Cause
import StackMachine.Text.Lines

/-!
# Error reports

A report is an error detached from the machine: the text of the error object, the
text of the value raised with it, and the frames it passed, outermost first.
-/

namespace StackMachine

/-- A frame that an error passed: the file of its code and the line it was
at. -/
structure TracePoint where
  file : String
  line : Nat
  deriving DecidableEq, Repr

/-- The line of a frame in a printed traceback. -/
def TracePoint.text (point : TracePoint) : String :=
  "  `" ++ point.file ++ ":" ++ toString point.line ++ "':"

/-- An error, detached from the machine.  `kind` is absent if the error object is
none of the machine's own. -/
structure Report where
  kind : Option ErrorKind
  error : String
  message : Option String
  traceback : List TracePoint
  deriving DecidableEq, Repr

namespace Report

/-- The lines of a printed traceback; none if it is empty. -/
def tracebackLines (points : List TracePoint) : List String :=
  if points.isEmpty then []
  else "Traceback (innermost last):" :: points.map TracePoint.text

/-- A traceback, each line ended. -/
def tracebackText (points : List TracePoint) : String :=
  Lines.text (tracebackLines points)

/-- The report of an error that passed no frame. -/
def ofCause (cause : Cause) : Report :=
  ⟨some cause.kind, cause.kind.text, cause.message?, []⟩

/-- The report without its traceback. -/
def summary (report : Report) : String :=
  match report.message with
  | some message => report.error ++ ": " ++ message
  | none => report.error

/-- The printed form of a report. -/
def text (report : Report) : String :=
  tracebackText report.traceback ++ report.summary

end Report

end StackMachine
