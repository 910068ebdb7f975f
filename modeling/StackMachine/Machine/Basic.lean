import StackMachine.Machine.Activation
import StackMachine.Report
import StackMachine.Store.Conversion
import StackMachine.Trace.Tracer

/-!
# The machine

A machine is a store, the frames that are active, with the values of all of them
on one stack, the error that is set, if any, with the traceback that led to it,
and a tracer.  Between calls from the host no frame is active.

An operation of the machine fails either with a cause that is still to be
recorded as the current error, or after that has been done.
-/

namespace StackMachine

/-- A failure: with a cause that is not recorded yet, or with one that is. -/
inductive Failure where
  | raised (cause : Cause)
  | recorded
  deriving DecidableEq, Repr

/-- A machine.  The topmost frame is the innermost; an error is an error object
and the value raised with it. -/
structure Machine (τ : Type) where
  store : Store τ
  values : Stack Ref
  frames : Stack Activation
  error : Option (Ref × Ref)
  traceback : Option Ref
  tracer : Tracer

/-- An operation of the machine. -/
abbrev MachineM (τ : Type) := EStateM (Stop Failure) (Machine τ)

/-- A machine on which nothing has run yet. -/
def Machine.start {τ : Type} (tracker : τ) (tracer : Tracer) : Machine τ :=
  ⟨Store.initial tracker, .empty, .empty, none, none, tracer⟩

/-- Read why an operation within a frame or on the store stopped. -/
def Stop.raised : Stop Cause → Stop Failure
  | .failed cause => .failed (.raised cause)
  | .fault broken => .fault broken
  | .unfinished => .unfinished

namespace MachineM

variable {τ α : Type}

/-- Act on the store. -/
@[inline] def onStore (act : StoreM τ α) : MachineM τ α
  | ⟨store, values, frames, error, traceback, tracer⟩ =>
      match act store with
      | .ok value store => .ok value ⟨store, values, frames, error, traceback, tracer⟩
      | .error stop store => .error stop.raised ⟨store, values, frames, error, traceback, tracer⟩

/-- Act within the innermost frame. -/
@[inline] def onFrame (act : FrameM τ α) : MachineM τ α
  | ⟨store, values, ⟨[], height, height_eq⟩, error, traceback, tracer⟩ =>
      .error (.fault .idle) ⟨store, values, ⟨[], height, height_eq⟩, error, traceback, tracer⟩
  | ⟨store, values, ⟨activation :: rest, height, height_eq⟩, error, traceback, tracer⟩ =>
      match act ⟨store, values, activation⟩ with
      | .ok value ⟨store, values, activation⟩ =>
          .ok value
            ⟨store, values, ⟨activation :: rest, height, height_eq⟩, error, traceback, tracer⟩
      | .error stop ⟨store, values, activation⟩ =>
          .error stop.raised
            ⟨store, values, ⟨activation :: rest, height, height_eq⟩, error, traceback, tracer⟩

/-- Tell the tracer an event, made up from the active frames. -/
@[inline] def tell (event : Stack Activation → Event) : MachineM τ Unit
  | ⟨store, values, frames, error, traceback, tracer⟩ =>
      .ok () ⟨store, values, frames, error, traceback, tracer.observe fun _ => event frames⟩

/-- Fail with a cause. -/
@[inline] def raise (cause : Cause) : MachineM τ α :=
  throw (.failed (.raised cause))

/-- The number of active frames. -/
def depth : MachineM τ Nat := do
  return (← get).frames.height

variable [Tracker τ]

/-- Give back references. -/
@[inline] def releaseAll (refs : List Ref) : MachineM τ Unit :=
  onStore (StoreM.releaseAll refs)

/-- Run an operation, then give back references, whether it failed or not. -/
@[inline] def releasing (refs : List Ref) (act : MachineM τ α) : MachineM τ α := do
  let result ← Outcome.attempt act
  releaseAll refs
  Outcome.settle result

end MachineM

end StackMachine
