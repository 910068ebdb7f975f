/-!
# How an operation ends

An operation on the machine's state either returns a value or stops.  It may
stop because it failed, which a program or a host gets to see; because a promise
that the machine makes to itself was broken; or without an answer, because the
steps it was given ran out or a search in it never ends.

Only failures can be caught.  `attempt` turns one into a value, so that what has
to be released can be released before `settle` lets the failure go on.
-/

namespace StackMachine

/-- A reference to an object: the slot of the store that holds it. -/
structure Ref where
  index : Nat
  deriving DecidableEq, Repr, Inhabited, Hashable

/-- Promises that the machine makes to itself, broken. -/
inductive Fault where
  /-- A reference leads to a slot that holds no object. -/
  | vacant (ref : Ref)
  /-- A reference leads to a slot whose object is out on loan. -/
  | lent (ref : Ref)
  /-- There are fewer values than a frame counts on. -/
  | shortStack
  /-- A frame is needed and none is active. -/
  | idle
  /-- A frame is left for an error and no error is set. -/
  | silentError
  /-- A frame is left without an error and one is set. -/
  | staleError
  /-- The function of a bound method is not a plain callable. -/
  | nestedMethod
  deriving DecidableEq, Repr

/-- Why an operation stops; `φ` is the type of failures. -/
inductive Stop (φ : Type) where
  | failed (failure : φ)
  | fault (fault : Fault)
  | unfinished
  deriving DecidableEq, Repr

namespace Outcome

variable {φ σ α : Type}

/-- Run an operation and hand over its failure as a value.  The state is the one
the failure left. -/
@[inline] def attempt (act : EStateM (Stop φ) σ α) : EStateM (Stop φ) σ (Except φ α) :=
  fun state =>
    match act state with
    | .ok value state => .ok (.ok value) state
    | .error (.failed failure) state => .ok (.error failure) state
    | .error (.fault fault) state => .error (.fault fault) state
    | .error .unfinished state => .error .unfinished state

/-- Return a value, or fail with a failure. -/
@[inline] def settle : Except φ α → EStateM (Stop φ) σ α
  | .ok value => pure value
  | .error failure => throw (.failed failure)

/-- Run an operation that only reads the state. -/
@[inline] def reading (read : σ → Except (Stop φ) α) : EStateM (Stop φ) σ α :=
  fun state =>
    match read state with
    | .ok value => .ok value state
    | .error stop => .error stop state

end Outcome

end StackMachine
