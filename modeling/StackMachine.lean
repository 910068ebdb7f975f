import StackMachine.Assembler.Basic
import StackMachine.Assembler.Script
import StackMachine.Cause
import StackMachine.CommandLine
import StackMachine.ErrorKind
import StackMachine.FileTree
import StackMachine.Image
import StackMachine.Instruction
import StackMachine.Kind
import StackMachine.Limits
import StackMachine.Listing
import StackMachine.Machine.Activation
import StackMachine.Machine.Basic
import StackMachine.Machine.Errors
import StackMachine.Machine.Host
import StackMachine.Machine.Instructions
import StackMachine.Machine.Run
import StackMachine.Main
import StackMachine.Number.Double
import StackMachine.Number.DoubleText
import StackMachine.Number.Duration
import StackMachine.Number.Elementary
import StackMachine.Number.Shortest
import StackMachine.Object
import StackMachine.Opcode
import StackMachine.Outcome
import StackMachine.Proofs.Assembler.Calls
import StackMachine.Proofs.Assembler.Decoding
import StackMachine.Proofs.Ending
import StackMachine.Proofs.Evolution.Advancing
import StackMachine.Proofs.Evolution.Bracketing
import StackMachine.Proofs.Evolution.Changes
import StackMachine.Proofs.Evolution.Conversion
import StackMachine.Proofs.Evolution.Following
import StackMachine.Proofs.Evolution.Frame
import StackMachine.Proofs.Evolution.Launching
import StackMachine.Proofs.Evolution.Layers
import StackMachine.Proofs.Evolution.Machine
import StackMachine.Proofs.Evolution.Operations
import StackMachine.Proofs.Evolution.Running
import StackMachine.Proofs.Evolution.Session
import StackMachine.Proofs.Evolution.Store
import StackMachine.Proofs.Evolution.Weighing
import StackMachine.Proofs.Listing.Agreement
import StackMachine.Proofs.Listing.Breaks
import StackMachine.Proofs.Listing.Entries
import StackMachine.Proofs.Machine.Breaking
import StackMachine.Proofs.Machine.Calls
import StackMachine.Proofs.Machine.Causes
import StackMachine.Proofs.Machine.Delivery
import StackMachine.Proofs.Machine.Effects
import StackMachine.Proofs.Machine.Errors
import StackMachine.Proofs.Machine.Failing
import StackMachine.Proofs.Machine.Frame
import StackMachine.Proofs.Machine.Host
import StackMachine.Proofs.Machine.Instructions
import StackMachine.Proofs.Machine.Isolation
import StackMachine.Proofs.Machine.Locality
import StackMachine.Proofs.Machine.Looping
import StackMachine.Proofs.Machine.Operands
import StackMachine.Proofs.Machine.Propagation
import StackMachine.Proofs.Machine.Readiness
import StackMachine.Proofs.Machine.Running
import StackMachine.Proofs.Machine.Steps
import StackMachine.Proofs.Machine.Tracebacks
import StackMachine.Proofs.Machine.Unwinding
import StackMachine.Proofs.Session.Attained
import StackMachine.Proofs.Session.Construction
import StackMachine.Proofs.Session.Delivering
import StackMachine.Proofs.Session.Equality
import StackMachine.Proofs.Session.Failing
import StackMachine.Proofs.Session.Limits
import StackMachine.Proofs.Session.Looping
import StackMachine.Proofs.Session.Memory
import StackMachine.Proofs.Session.Nesting
import StackMachine.Proofs.Session.OwnObjects
import StackMachine.Proofs.Session.Ranges
import StackMachine.Proofs.Session.Reachable
import StackMachine.Proofs.Session.Requests
import StackMachine.Proofs.Session.RoundTrip
import StackMachine.Proofs.Session.Seclusion
import StackMachine.Proofs.Session.Serving
import StackMachine.Proofs.Session.Slicing
import StackMachine.Proofs.Session.Typing
import StackMachine.Proofs.Store.Accounting
import StackMachine.Proofs.Store.Attributes
import StackMachine.Proofs.Store.BadCalls
import StackMachine.Proofs.Store.Building
import StackMachine.Proofs.Store.Causes
import StackMachine.Proofs.Store.Constructing
import StackMachine.Proofs.Store.Containers
import StackMachine.Proofs.Store.Counting
import StackMachine.Proofs.Store.Equality
import StackMachine.Proofs.Store.Granting
import StackMachine.Proofs.Store.Initial
import StackMachine.Proofs.Store.Likeness
import StackMachine.Proofs.Store.Natives
import StackMachine.Proofs.Store.Order
import StackMachine.Proofs.Store.Originals
import StackMachine.Proofs.Store.Ranges
import StackMachine.Proofs.Store.Reading
import StackMachine.Proofs.Store.Releasing
import StackMachine.Proofs.Store.Restoring
import StackMachine.Proofs.Store.Reverting
import StackMachine.Proofs.Store.RoundTrip
import StackMachine.Proofs.Store.Sequences
import StackMachine.Proofs.Store.Showing
import StackMachine.Proofs.Store.Soundness
import StackMachine.Proofs.Store.Typing
import StackMachine.Proofs.Store.Values
import StackMachine.Proofs.Table.Binding
import StackMachine.Proofs.Table.Filling
import StackMachine.Proofs.Table.Overwriting
import StackMachine.Proofs.Table.Probing
import StackMachine.Proofs.Table.Refinement
import StackMachine.Proofs.Table.Routes
import StackMachine.Proofs.Table.Sizing
import StackMachine.Proofs.Table.Stepping
import StackMachine.Proofs.Table.Validity
import StackMachine.Proofs.Text.Lines
import StackMachine.Proofs.Text.Numerals
import StackMachine.Proofs.Text.Printed
import StackMachine.Proofs.Text.Quoted
import StackMachine.Proofs.Trace.Observers
import StackMachine.Proofs.Trace.Outline
import StackMachine.Proofs.Tracking.Frame
import StackMachine.Proofs.Tracking.Machine
import StackMachine.Proofs.Tracking.Memory
import StackMachine.Proofs.Tracking.Metering
import StackMachine.Proofs.Tracking.Mirroring
import StackMachine.Proofs.Tracking.Operations
import StackMachine.Proofs.Tracking.Refusals
import StackMachine.Proofs.Tracking.Runs
import StackMachine.Proofs.Tracking.Store
import StackMachine.Proofs.Tracking.Watched
import StackMachine.Proofs.Wire.Reading
import StackMachine.Proofs.Wire.RoundTrip
import StackMachine.Report
import StackMachine.Session.Basic
import StackMachine.Session.Perform
import StackMachine.Session.Request
import StackMachine.Stack
import StackMachine.Store.Arithmetic
import StackMachine.Store.Attributes
import StackMachine.Store.Basic
import StackMachine.Store.Containers
import StackMachine.Store.Conversion
import StackMachine.Store.Loading
import StackMachine.Store.Natives
import StackMachine.Store.Order
import StackMachine.Store.Payload
import StackMachine.Store.Roots
import StackMachine.Store.Sequences
import StackMachine.Table
import StackMachine.Text.Bytes
import StackMachine.Text.Columns
import StackMachine.Text.Lines
import StackMachine.Text.Quoted
import StackMachine.Trace.Coverage
import StackMachine.Trace.Event
import StackMachine.Trace.Printed
import StackMachine.Trace.Profile
import StackMachine.Trace.Recording
import StackMachine.Trace.Tracer
import StackMachine.Wire.Basic
import StackMachine.Wire.Image
import StackMachine.Wire.Limits
import StackMachine.Wire.Object
