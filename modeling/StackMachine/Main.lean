import StackMachine.CommandLine

/-!
# The program

Reads the image named on the command line and prints the response.
-/

namespace StackMachine.Main

/-- A bound on the steps of each frame that no run reaches. -/
def fuel : Nat := 0x4000000000000000

/-- The number the system has for an error, if it is one of reading a file. -/
def codeOf? : IO.Error → Option UInt32
  | .noFileOrDirectory _ code _ => some code
  | .inappropriateType _ code _ => some code
  | .permissionDenied _ code _ => some code
  | .invalidArgument _ code _ => some code
  | _ => none

/-- Why a file cannot be read. -/
def failureOf (error : IO.Error) : ReadFailure :=
  match (codeOf? error).bind fun code => ReadFailure.ofCode? code.toNat with
  | some failure => failure
  | none => .other (toString error)

/-- The contents of a file. -/
def readContents (path : String) : IO (Except ReadFailure (List UInt8)) := do
  try
    return .ok (← IO.FS.readBinFile path).toList
  catch error =>
    return .error (failureOf error)

end StackMachine.Main

open StackMachine in
/-- Respond to the command line. -/
def main (arguments : List String) : IO UInt32 := do
  let contents ←
    match CommandLine.Invocation.ofArguments? arguments with
    | some invocation => StackMachine.Main.readContents invocation.path
    | none => pure (.ok [])
  let started ← IO.monoNanosNow
  let response := CommandLine.respond StackMachine.Main.fuel arguments fun _ => contents
  (← IO.getStdout).putStr response.stdout
  let elapsed := (← IO.monoNanosNow) - started
  (← IO.getStderr).putStr
    (response.stderr (CommandLine.timeLine ⟨elapsed / 1000000000, elapsed % 1000000000⟩))
  return response.code
