import StackMachine.Image
import StackMachine.Machine.Host

/-!
# Requests to a machine

A host talks to a machine in requests.  References it holds are kept in named
registers, and requests name registers, not references.  The answer to a request
says what it yields.
-/

namespace StackMachine

/-- The name of a register. -/
abbrev Register := String

/-- What a host can ask of a machine.  Where a request yields a new reference,
`target` is the register that receives it. -/
inductive Request where
  | int (target : Register) (value : Int64)
  | float (target : Register) (value : Double)
  | string (target : Register) (text : String)
  | dict (target : Register)
  | none (target : Register)
  | bool (target : Register) (value : Bool)
  | list (target : Register) (items : List Register)
  | tuple (target : Register) (items : List Register)
  | object (target : Register) (value : Object)
  | acquire (target source : Register)
  | release (source : Register)
  | releaseNothing
  | count (source : Register)
  | slot (source : Register)
  | kind (source : Register)
  | truthy (source : Register)
  | length (source : Register)
  | isLive (name : Register)
  | same (left right : Register)
  | value (source : Register)
  | repr (source : Register)
  | display (source : Register)
  | typeName (source : Register)
  | memberClass (source : Register) (target : Option Register)
  | boundParts (source function self : Register)
  | dictLookup (dict : Register) (key : String) (target : Option Register)
  | listGet (list : Register) (index : Nat) (target : Option Register)
  | dictInsert (dict : Register) (key : String) (value : Register)
  | dictRemove (dict : Register) (key : String)
  | listSet (list : Register) (index : Nat) (value : Register)
  | tupleSet (tuple : Register) (index : Nat) (value : Register)
  | listInsert (list : Register) (index : Int64) (value : Register)
  | listAppend (list value : Register)
  | setAttr (object : Register) (name : String) (value : Register)
  | dictLength (dict : Register)
  | dictCapacity (dict : Register)
  | dictKeyAt (dict : Register) (index : Nat)
  | dictSlots (dict : Register)
  | dictFill (dict : Register) (count : Nat) (stem : String)
  | nestList (source : Register) (count : Nat)
  | nestTuple (source : Register) (count : Nat)
  | index (target sequence : Register) (index : Int64)
  | slice (target sequence : Register) (low high : Option Int64)
  | concat (target left right : Register)
  | getAttr (target object : Register) (name : String)
  | module (target : Register) (name : String)
  | loadCode (target : Register) (image : Image)
  | compare (left right : Register)
  | evaluate (target code globals locals : Register) (argument : Option Register)
  | call (target callee : Register) (argument : Option Register)
  | run (image : Image)
  | setError (kind : ErrorKind)
  | setErrorText (kind : ErrorKind) (message : String)
  | setErrorValue (error value : Register)
  | clearError
  | errorState
  | takeError (error value : Register)
  | takeReport
  | takeTraceback
  | printTraceback
  | stats
  | depth
  | tracker
  | trace

/-- What a request yields. -/
inductive Answer (τ : Type) where
  | nothing
  | object (value : Object)
  | number (value : Nat)
  | ordering (value : Ordering)
  | text (value : String)
  | flag (value : Bool)
  | keys (slots : List (Option String))
  /-- There is no such thing. -/
  | absent
  | found (value : Object)
  | foundParts
  | foundError (error value : Object)
  | errorState (occurred : Bool) (kind : Option ErrorKind)
  | report (report : Report)
  | points (points : List TracePoint)
  | stats (stats : StoreStats)
  | tracker (tracker : τ)
  | trace (tracer : Tracer)

/-- How a request ends. -/
inductive Reply (τ : Type) where
  | answer (answer : Answer τ)
  /-- A register that the request reads is empty; nothing was done. -/
  | emptyRegister (name : Register)
  | failed (report : Report)
  | refusedInput (error : InputError)
  /-- Code that was run failed; the error is the current one. -/
  | noResult (kind : Option ErrorKind)

end StackMachine
