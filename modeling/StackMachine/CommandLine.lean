import StackMachine.FileTree
import StackMachine.Listing
import StackMachine.Machine.Host
import StackMachine.Wire.Image

/-!
# The command line

The program is given a stored image and, before it, an optional command: to run
the image, to list it, or to run it and print a profile or a trace.  Reading the
image comes first, so that a bad image is reported also where the command is
unknown.

Everything is decided here from the arguments and the contents of the image.
What is left to the outside is to read the file and to print.
-/

namespace StackMachine.CommandLine

/-- What can be done with an image. -/
inductive Command where
  | run
  | list
  | profile
  | trace
  deriving DecidableEq, Repr

/-- The command of a given name. -/
def Command.ofName? : String → Option Command
  | "run" => some .run
  | "dis" => some .list
  | "profile" => some .profile
  | "trace" => some .trace
  | _ => none

/-- What the arguments ask for: a command, by its name, and the path of an
image. -/
structure Invocation where
  command : String
  path : String
  deriving DecidableEq, Repr

/-- Read the arguments.  An image alone is run. -/
def Invocation.ofArguments? : List String → Option Invocation
  | [path] => some ⟨"run", path⟩
  | [command, path] => some ⟨command, path⟩
  | _ => none

/-- How the program ends and what it prints. -/
structure Response where
  /-- The code the program exits with. -/
  code : UInt32
  stdout : String
  /-- What is printed on the error stream while the image runs. -/
  log : String
  /-- Is the time the run took printed after that? -/
  timed : Bool
  /-- What is printed on the error stream at the end. -/
  complaint : String
  deriving DecidableEq, Repr

namespace Response

/-- Success, with some output. -/
def success (stdout : String) : Response :=
  ⟨0, stdout, "", false, ""⟩

/-- Failure, with a complaint of one line or more. -/
def failure (complaint : String) : Response :=
  ⟨1, "", "", false, complaint ++ "\n"⟩

/-- What is printed on the error stream, with the given line where a time is
printed. -/
def stderr (response : Response) (timeLine : String) : String :=
  response.log ++ (if response.timed then timeLine else "") ++ response.complaint

end Response

/-- How the program is used. -/
def usage : String := "usage: cinder [dis|profile|trace] <image>"

/-- The line that tells how long a run took. -/
def timeLine (elapsed : Duration) : String :=
  Lines.text ["time taken: " ++ elapsed.toText]

/-- The response to a result: its printed form, or nothing for `none`. -/
def ofResult : Except Report Object → Response
  | .ok .none => .success ""
  | .ok object => .success (Lines.text [object.reprText])
  | .error report => .failure report.text

/-- What the tracer of a run has to print. -/
def logOf : Tracer → String
  | .profile profile => profile.text
  | .printed trace => trace.text
  | _ => ""

/-- Run an image under a tracer.  Between runs that end and those that stop
short of an answer only the exit code tells. -/
def execute (fuel : Nat) (tracer : Tracer) (timed : Bool) (image : Image) : Response :=
  match MachineM.runImage fuel image (Machine.start Unlimited.mk tracer) with
  | .ok result machine => { ofResult result with log := logOf machine.tracer, timed }
  | .error _ machine => ⟨101, "", logOf machine.tracer, timed, ""⟩

/-- Carry out a command. -/
def Command.respond (fuel : Nat) (image : Image) : Command → Response
  | run => execute fuel .off false image
  | list => .success (Listing.text image)
  | profile => execute fuel (.profile .start) true image
  | trace => execute fuel (.printed (.start none)) false image

/-- Respond to an invocation, given the contents of the file it names, or why
they cannot be read. -/
def Invocation.respond (fuel : Nat) (invocation : Invocation)
    (contents : Except ReadFailure (List UInt8)) : Response :=
  match contents with
  | .error failure =>
      .failure ("error: reading " ++ invocation.path ++ ": " ++ failure.message)
  | .ok contents =>
      match CodeImage.decode contents with
      | .error error =>
          .failure ("error: decoding " ++ invocation.path ++ ": " ++ error.message)
      | .ok image =>
          match Command.ofName? invocation.command with
          | some command => command.respond fuel image
          | none => .failure ("unknown command '" ++ invocation.command ++ "'\n" ++ usage)

/-- Respond to the arguments, given how files read. -/
def respond (fuel : Nat) (arguments : List String)
    (read : String → Except ReadFailure (List UInt8)) : Response :=
  match Invocation.ofArguments? arguments with
  | some invocation => invocation.respond fuel (read invocation.path)
  | none => .failure usage

end StackMachine.CommandLine
