import StackMachine.ErrorKind
import StackMachine.Number.Duration

/-!
# Limits on what a program may use

A program may be held to limits on the instructions it executes, the objects it
allocates, the memory they take, the depth of its calls and the time it runs.
The machine asks a tracker before it spends any of these, and the tracker either
agrees or refuses.

`Tracker` is what the machine needs of one.  `Unlimited` agrees to everything;
`Meter` counts, and refuses what would pass one of its `Limits`.
-/

namespace StackMachine

/-- What a program may use; an absent limit does not bind. -/
structure Limits where
  operations : Option Nat
  allocations : Option Nat
  duration : Option Duration
  memory : Option Nat
  recursion : Option Nat
  deriving DecidableEq, Repr, Inhabited

namespace Limits

/-- The call depth that is allowed where nothing else is said. -/
def defaultRecursion : Nat := 1000

/-- Nothing bound but the call depth. -/
def standard : Limits :=
  ⟨none, none, none, none, some defaultRecursion⟩

end Limits

/-- A request that a limit does not allow. -/
inductive Refusal where
  | allocation (limit count : Nat)
  | operation (limit count : Nat)
  | time (limit elapsed : Duration)
  | memory (limit used : Nat)
  | recursion (limit depth : Nat)
  deriving DecidableEq, Repr

namespace Refusal

/-- The message of a refusal. -/
def message : Refusal → String
  | allocation limit count =>
      "allocation limit exceeded: " ++ toString count ++ " > " ++ toString limit
  | operation limit count =>
      "operation limit exceeded: " ++ toString count ++ " > " ++ toString limit
  | time limit elapsed =>
      "time limit exceeded: " ++ elapsed.toText ++ " > " ++ limit.toText
  | memory limit used =>
      "memory limit exceeded: " ++ toString used ++ " bytes > " ++ toString limit ++ " bytes"
  | recursion _ _ => "maximum recursion depth exceeded"

/-- The kind of error a refusal is raised as. -/
def kind : Refusal → ErrorKind
  | allocation _ _ | memory _ _ => .memoryError
  | operation _ _ | time _ _ | recursion _ _ => .runtimeError

end Refusal

/-- A party that is asked before resources are spent.  A request is answered by
a refusal or by nothing. -/
class Tracker (τ : Type) where
  /-- May an object of `size` bytes be allocated? -/
  allocate (size : Nat) (tracker : τ) : Option Refusal × τ
  /-- May an existing container grow by one entry? -/
  insert (tracker : τ) : Option Refusal × τ
  /-- An object of `size` bytes was freed. -/
  free (size : Nat) (tracker : τ) : τ
  /-- May the next instruction be executed? -/
  tick (tracker : τ) : Option Refusal × τ
  /-- May a call be made while `depth` calls are active? -/
  enter (depth : Nat) (tracker : τ) : Option Refusal
  /-- What the tracker keeps of having been asked for a call. -/
  noteEnter (depth : Nat) (tracker : τ) : τ := tracker
  /-- May a table of `size` bytes be built? -/
  build (size : Nat) (tracker : τ) : Option Refusal
  /-- What the tracker keeps of having been asked for a table. -/
  noteBuild (size : Nat) (tracker : τ) : τ := tracker
  /-- The bytes in use, if they are counted. -/
  memory? (tracker : τ) : Option Nat

/-- The tracker that never refuses. -/
structure Unlimited where
  deriving DecidableEq, Repr, Inhabited

instance : Tracker Unlimited where
  allocate _ tracker := (none, tracker)
  insert tracker := (none, tracker)
  free _ tracker := tracker
  tick tracker := (none, tracker)
  enter _ _ := none
  build _ _ := none
  memory? _ := none

/-- A tracker that counts what is used and holds it to limits.  `elapsed` is
what the clock shows when it is read. -/
structure Meter where
  limits : Limits
  elapsed : Duration
  allocations : Nat
  operations : Nat
  memory : Nat
  deriving DecidableEq, Repr, Inhabited

namespace Meter

/-- A meter on which nothing is used yet. -/
def start (limits : Limits) (elapsed : Duration) : Meter :=
  ⟨limits, elapsed, 0, 0, 0⟩

/-- The largest number of bytes that is told apart from larger ones. -/
def maxBytes : Nat := 0xffffffffffffffff

/-- Would one more allocation pass its limit? -/
def allocationRefusal? (meter : Meter) : Option Refusal :=
  match meter.limits.allocations with
  | some limit =>
      if limit ≤ meter.allocations then some (.allocation limit (meter.allocations + 1)) else none
  | none => none

/-- Would `used` bytes pass the limit on memory? -/
def memoryRefusal? (meter : Meter) (used : Nat) : Option Refusal :=
  match meter.limits.memory with
  | some limit => if limit < used then some (.memory limit used) else none
  | none => none

/-- Ask for an allocation of `size` bytes. -/
def allocate (size : Nat) (meter : Meter) : Option Refusal × Meter :=
  match meter.allocationRefusal? with
  | some refusal => (some refusal, meter)
  | none =>
      match meter.memoryRefusal? (meter.memory + size) with
      | some refusal => (some refusal, meter)
      | none =>
          (none, { meter with
            allocations := meter.allocations + 1, memory := meter.memory + size })

/-- Ask for one more entry in a container. -/
def insert (meter : Meter) : Option Refusal × Meter :=
  match meter.allocationRefusal? with
  | some refusal => (some refusal, meter)
  | none => (none, { meter with allocations := meter.allocations + 1 })

/-- Give `size` bytes back. -/
def free (size : Nat) (meter : Meter) : Meter :=
  { meter with memory := meter.memory - size }

/-- Has the time run out? -/
def timeRefusal? (meter : Meter) : Option Refusal :=
  match meter.limits.duration with
  | some limit =>
      if limit.totalNanos < meter.elapsed.totalNanos then some (.time limit meter.elapsed)
      else none
  | none => none

/-- Ask for one more instruction.  Instructions are counted only where they are
limited. -/
def tick (meter : Meter) : Option Refusal × Meter :=
  match meter.limits.operations with
  | none => (meter.timeRefusal?, meter)
  | some limit =>
      let counted := { meter with operations := meter.operations + 1 }
      if limit < counted.operations then (some (.operation limit counted.operations), counted)
      else (counted.timeRefusal?, counted)

/-- Ask for a call inside `depth` calls. -/
def enter (depth : Nat) (meter : Meter) : Option Refusal :=
  match meter.limits.recursion with
  | some limit => if limit ≤ depth then some (.recursion limit (depth + 1)) else none
  | none => none

/-- Ask for a table of `size` bytes. -/
def build (size : Nat) (meter : Meter) : Option Refusal :=
  meter.memoryRefusal? (min maxBytes (meter.memory + size))

end Meter

instance : Tracker Meter where
  allocate := Meter.allocate
  insert := Meter.insert
  free := Meter.free
  tick := Meter.tick
  enter := Meter.enter
  build := Meter.build
  memory? meter := some meter.memory

end StackMachine
