import StackMachine.Session.Basic

/-!
# Carrying out requests

What each request does, in terms of the machine and the registers.
-/

namespace StackMachine.SessionM

variable {τ : Type} [Tracker τ]

/-- The table of an object that is a dictionary. -/
def tableOf? : Payload → Option (Table Ref)
  | .dict table => some table
  | _ => none

/-- Answer by something that is read off what an object holds. -/
def inspectPayload (source : Register) (read_ : Payload → Answer τ) : SessionM τ (Answer τ) :=
  inspect source fun store ref => do return read_ (← store.get ref)

/-- Answer by the value of an object. -/
def inspectObject (source : Register) (read_ : Object → Answer τ) : SessionM τ (Answer τ) :=
  inspect source fun store ref => do return read_ (← store.toObject ref)

/-- A number if there is one. -/
def optionalNumber : Option Nat → Answer τ
  | some value => .number value
  | none => .nothing

/-- Bind `stem0`, `stem1` and so on to `none`, from `index` on. -/
def fill (dict : Ref) (stem : String) : (count index : Nat) → StoreM τ Unit
  | 0, _ => return ()
  | count + 1, index => do
      let value ← StoreM.acquire .noneObject
      StoreM.dictInsert dict (Bytes.ofString (stem ++ toString index)) value
      fill dict stem count (index + 1)

/-- Put the object in a register into a container of one item, and the container
into the register. -/
def nestOnce (source : Register) (pack : Array Ref → Payload) : SessionM τ Unit := do
  let ref ← take source
  write source (← reporting (StoreM.allocate (pack #[ref])))

/-- Put the object in a register into containers of one item, one inside the
other.  The register receives each of them in turn; where one cannot be made, it
is left empty. -/
def nest (source : Register) (pack : Array Ref → Payload) : (count : Nat) → SessionM τ (Answer τ)
  | 0 => do
      let _ ← read source
      return .nothing
  | count + 1 => do
      nestOnce source pack
      nest source pack count

/-- Make a container out of objects that are taken out of registers. -/
def gather (target : Register) (items : List Register) (pack : Array Ref → Payload) :
    SessionM τ (Answer τ) := do
  let _ ← readAll items
  let refs ← takeAll items
  produce target (StoreM.allocate (pack refs.toArray))

/-- Build an object from a value. -/
def input (target : Register) (value : Object) : SessionM τ (Answer τ) := do
  let built ← onMachine fun machine =>
    match machine with
    | ⟨store, values, frames, error, traceback, tracer⟩ =>
        match Outcome.attempt (StoreM.ofObject value) store with
        | .ok built store => .ok built ⟨store, values, frames, error, traceback, tracer⟩
        | .error (.fault fault) store =>
            .error (.fault fault) ⟨store, values, frames, error, traceback, tracer⟩
        | .error _ store => .error .unfinished ⟨store, values, frames, error, traceback, tracer⟩
  match built with
  | .ok ref => conclude target (some ref)
  | .error error => throw (.refusedInput error)

/-- Run code or call an object.  The argument, if any, is taken out of its
register. -/
def runWith (target : Register) (sources : List Register) (argument : Option Register)
    (act : List Ref → Option Ref → MachineM τ (Option Ref)) : SessionM τ (Answer τ) := do
  let refs ← readAll sources
  let _ ← readAll argument.toList
  holding refs do
    let taken ← takeAll argument.toList
    conclude target (← onMachine (act refs taken.head?))

/-- The references an object owns, if it is of the kind in question. -/
def partsOf (read_ : Payload → List Ref) (source : Register) : SessionM τ (List Ref) := do
  let ref ← read source
  return read_ (← onStore (StoreM.get ref))

/-- The class of a member. -/
def ownerOf : Payload → List Ref
  | .member owner _ => [owner]
  | _ => []

/-- The function and the object of a bound method. -/
def methodParts : Payload → List Ref
  | .method function self => [function, self]
  | _ => []

/-- An item of a list. -/
def itemOf (index : Nat) : Payload → List Ref
  | .list items => items[index]?.toList
  | _ => []

/-- Carry out a request. -/
def perform (fuel : Nat) : Request → SessionM τ (Answer τ)
  | .int target value => produce target (StoreM.allocate (.int value))
  | .float target value => produce target (StoreM.allocate (.float value))
  | .string target text => produce target (StoreM.allocate (.string (Bytes.ofString text)))
  | .dict target => produce target (StoreM.allocate (.dict .empty))
  | .none target => produce target (StoreM.acquire .noneObject)
  | .bool target value => produce target (StoreM.acquire (.ofBool value))
  | .list target items => gather target items .list
  | .tuple target items => gather target items .tuple
  | .object target value => input target value
  | .acquire target source => produceFrom target [source] fun refs =>
      StoreM.acquire (refs.headD .noneObject)
  | .release source => do
      onStore (StoreM.release (← take source))
      return .nothing
  | .releaseNothing => return .nothing
  | .count source => inspect source fun store ref =>
      return .number (((store.cell? ref).map (·.count)).getD 0)
  | .slot source => inspect source fun _ ref => return .number ref.index
  | .kind source => inspectPayload source fun payload => .text payload.kind.name
  | .truthy source => inspectPayload source fun payload => .flag payload.isTruthy
  | .length source => inspectPayload source fun payload => optionalNumber payload.length?
  | .isLive name => do
      match (← get).seen.lookup name with
      | some ref => return .flag ((← get).machine.store.isLive ref)
      | none => throw (.emptyRegister name)
  | .same left right => do
      let first ← read left
      return .flag (first = (← read right))
  | .value source => inspectObject source .object
  | .repr source => inspectObject source fun object => .text object.reprText
  | .display source => inspectObject source fun object => .text object.display
  | .typeName source => inspectObject source fun object => .text object.typeName
  | .memberClass source target => do discover target (← partsOf ownerOf source).head?
  | .boundParts source function self => do
      match ← partsOf methodParts source with
      | [foundFunction, foundSelf] => do
          onStore (StoreM.acquireAll [foundFunction, foundSelf])
          write function foundFunction
          write self foundSelf
          return .foundParts
      | _ => return .absent
  | .dictLookup dict key target => do
      let ref ← read dict
      discover target (← onStore (StoreM.dictLookup ref (Bytes.ofString key)))
  | .listGet list index target => do discover target (← partsOf (itemOf index) list).head?
  | .dictInsert dict key value => change dict value fun dict value =>
      StoreM.dictInsert dict (Bytes.ofString key) value
  | .dictRemove dict key => do
      let ref ← read dict
      holding [ref] (reporting (StoreM.dictRemove ref (Bytes.ofString key)))
      return .nothing
  | .listSet list index value => change list value fun list value =>
      StoreM.listSet list index value
  | .tupleSet tuple index value => change tuple value fun tuple value =>
      StoreM.tupleSet tuple index value
  | .listInsert list index value => change list value fun list value =>
      StoreM.listInsert list index value
  | .listAppend list value => change list value fun list value => StoreM.listAppend list value
  | .setAttr object name value => change object value fun object value =>
      StoreM.storeAttr object name value
  | .dictLength dict => inspectPayload dict fun payload =>
      optionalNumber ((tableOf? payload).map (·.used))
  | .dictCapacity dict => inspectPayload dict fun payload =>
      optionalNumber ((tableOf? payload).map (·.size))
  | .dictKeyAt dict index => inspectPayload dict fun payload =>
      match (tableOf? payload).bind (·.keyAt? index) with
      | some key => .text key.toText
      | none => .nothing
  | .dictSlots dict => inspectPayload dict fun payload =>
      match tableOf? payload with
      | some table =>
          .keys ((List.range table.size).map fun index => (table.keyAt? index).map (·.toText))
      | none => .keys []
  | .dictFill dict count stem => do
      let ref ← read dict
      holding [ref] (reporting (fill ref stem count 0))
      return .nothing
  | .nestList source count => nest source .list count
  | .nestTuple source count => nest source .tuple count
  | .index target sequence index => produceFrom target [sequence] fun refs =>
      StoreM.index (refs.headD .noneObject) index
  | .slice target sequence low high => produceFrom target [sequence] fun refs =>
      StoreM.slice (refs.headD .noneObject) low high
  | .concat target left right => produceFrom target [left, right] fun refs =>
      StoreM.concat (refs.headD .noneObject) (refs.getD 1 .noneObject)
  | .getAttr target object name => produceFrom target [object] fun refs =>
      StoreM.loadAttr (refs.headD .noneObject) name
  | .module target name => produce target (StoreM.registerModule name)
  | .loadCode target image => produce target (StoreM.loadImage image)
  | .compare left right => do
      let first ← read left
      let second ← read right
      return .ordering (← reporting (StoreM.reading (·.compareRefs first second)))
  | .evaluate target code globals locals argument =>
      runWith target [code, globals, locals] argument fun refs argument =>
        MachineM.evaluate fuel (refs.headD .noneObject) (refs.getD 1 .noneObject)
          (refs.getD 2 .noneObject) argument
  | .call target callee argument =>
      runWith target [callee] argument fun refs argument =>
        MachineM.invoke fuel (refs.headD .noneObject) argument
  | .run image => do
      match ← onMachine (MachineM.runImage fuel image) with
      | .ok object => return .object object
      | .error report => throw (.failed report)
  | .setError kind => do
      onMachine (MachineM.setError kind)
      return .nothing
  | .setErrorText kind message => do
      onMachine (MachineM.setErrorText kind message)
      return .nothing
  | .setErrorValue error value => do
      let _ ← readAll [error, value]
      let first ← take error
      onMachine (MachineM.setErrorValue first (← take value))
      return .nothing
  | .clearError => do
      onMachine MachineM.clearError
      return .nothing
  | .errorState => do
      return .errorState (← get).machine.error.isSome (← onMachine MachineM.errorKind)
  | .takeError error value => do
      match ← onMachine MachineM.takeError with
      | some (foundError, foundValue) => do
          let shownError ← object foundError
          let shownValue ← object foundValue
          write error foundError
          write value foundValue
          return .foundError shownError shownValue
      | none => return .absent
  | .takeReport => do
      match ← onMachine MachineM.takeReport with
      | some report => return .report report
      | none => return .absent
  | .takeTraceback => do return .points (← onMachine MachineM.takeTraceback)
  | .printTraceback => do
      return .text (Report.tracebackText (← onMachine MachineM.traceback))
  | .stats => do return .stats (← get).machine.store.stats
  | .depth => do return .number (← onMachine MachineM.depth)
  | .tracker => do return .tracker (← get).machine.store.tracker
  | .trace => do return .trace (← get).machine.tracer

/-- Carry out a request and reply to it. -/
def reply (fuel : Nat) (request : Request) : EStateM (Stop Failure) (Session τ) (Reply τ) := do
  match ← (perform fuel request).run with
  | .ok answer => return .answer answer
  | .error reply => return reply

/-- Carry out requests one after the other.  With each reply comes the number of
live objects. -/
def replies (fuel : Nat) : List Request →
    EStateM (Stop Failure) (Session τ) (List (Reply τ × Nat))
  | [] => return []
  | request :: rest => do
      let first ← reply fuel request
      let live := (← get).machine.store.liveCount
      return (first, live) :: (← replies fuel rest)

end StackMachine.SessionM
