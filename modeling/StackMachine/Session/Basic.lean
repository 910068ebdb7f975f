import StackMachine.Session.Request

/-!
# Sessions

A session is a machine and the registers of its host.  A register owns the
reference in it.  A request that stores a reference gives back what the register
held before, once the new reference is there.  Some requests take the reference
out of a register, and leave it empty also where they fail.

While a request runs, the session holds one more reference to each object it
reads.
-/

namespace StackMachine

/-- A machine and the registers of its host.  `seen` has, for every register
that was ever used, the reference it received last. -/
structure Session (τ : Type) where
  machine : Machine τ
  registers : List (Register × Ref)
  seen : List (Register × Ref)

/-- An operation of a session; an ordinary failure of one is a reply. -/
abbrev SessionM (τ : Type) := ExceptT (Reply τ) (EStateM (Stop Failure) (Session τ))

/-- A session in which nothing was asked yet. -/
def Session.start {τ : Type} (tracker : τ) (tracer : Tracer) : Session τ :=
  ⟨Machine.start tracker tracer, [], []⟩

namespace SessionM

variable {τ α : Type}

/-- Act on the machine. -/
def onMachine (act : MachineM τ α) : SessionM τ α :=
  ExceptT.lift fun session =>
    match session with
    | ⟨machine, registers, seen⟩ =>
        match act machine with
        | .ok value machine => .ok value ⟨machine, registers, seen⟩
        | .error stop machine => .error stop ⟨machine, registers, seen⟩

/-- Act on the store. -/
def onStore (act : StoreM τ α) : SessionM τ α :=
  onMachine (MachineM.onStore act)

/-- The reference in a register, which has to hold one. -/
def read (name : Register) : SessionM τ Ref := do
  match (← get).registers.lookup name with
  | some ref => return ref
  | none => throw (.emptyRegister name)

/-- The references in some registers. -/
def readAll : List Register → SessionM τ (List Ref)
  | [] => return []
  | name :: rest => do
      let first ← read name
      return first :: (← readAll rest)

/-- Take the reference out of a register. -/
def take (name : Register) : SessionM τ Ref := do
  let ref ← read name
  modify fun session =>
    { session with registers := session.registers.filter fun entry => entry.1 != name }
  return ref

/-- Take the references out of some registers. -/
def takeAll : List Register → SessionM τ (List Ref)
  | [] => return []
  | name :: rest => do
      let first ← take name
      return first :: (← takeAll rest)

variable [Tracker τ]

/-- Store a reference in a register and give back what it held. -/
def write (name : Register) (ref : Ref) : SessionM τ Unit := do
  let previous := (← get).registers.lookup name
  modify fun session =>
    { session with
      registers := (name, ref) :: session.registers.filter fun entry => entry.1 != name
      seen := (name, ref) :: session.seen.filter fun entry => entry.1 != name }
  onStore (StoreM.releaseAll previous.toList)

/-- Run an operation on the store; its failure is the reply. -/
def reporting (act : StoreM τ α) : SessionM τ α := do
  match ← onMachine (MachineM.reporting act) with
  | .ok value => return value
  | .error report => throw (.failed report)

/-- Run an operation while holding one more reference to some objects. -/
def holding (refs : List Ref) (act : SessionM τ α) : SessionM τ α := do
  onStore (StoreM.acquireAll refs)
  let result ← (ExceptT.lift act.run : SessionM τ (Except (Reply τ) α))
  onStore (StoreM.releaseAll refs)
  MonadExcept.ofExcept result

/-- The value of an object. -/
def object (ref : Ref) : SessionM τ Object :=
  onMachine (MachineM.toObject ref)

/-- Make an object and store it in a register. -/
def produce (target : Register) (act : StoreM τ Ref) : SessionM τ (Answer τ) := do
  let ref ← reporting act
  let shown ← object ref
  write target ref
  return .object shown

/-- Make an object out of others, which are read from registers, and store it in
a register. -/
def produceFrom (target : Register) (sources : List Register) (act : List Ref → StoreM τ Ref) :
    SessionM τ (Answer τ) := do
  let refs ← readAll sources
  holding refs (produce target (act refs))

/-- Answer by something that is read off an object. -/
def inspect (source : Register) (read_ : Store τ → Ref → Except (Stop Cause) (Answer τ)) :
    SessionM τ (Answer τ) := do
  let ref ← read source
  onStore (StoreM.reading fun store => read_ store ref)

/-- Change an object by a reference that is taken out of a register. -/
def change (container value : Register) (act : Ref → Ref → StoreM τ Unit) :
    SessionM τ (Answer τ) := do
  let refs ← readAll [container, value]
  holding refs do
    let ref ← read container
    let taken ← take value
    reporting (act ref taken)
    return .nothing

/-- Answer by a reference that an object owns, and store one more reference to it
if a register is given. -/
def discover (target : Option Register) (found : Option Ref) : SessionM τ (Answer τ) := do
  match found with
  | none => return .absent
  | some ref => do
      let shown ← object ref
      match target with
      | none => pure ()
      | some target => write target (← onStore (StoreM.acquire ref))
      return .found shown

/-- Store the result of code that was run. -/
def conclude (target : Register) (result : Option Ref) : SessionM τ (Answer τ) := do
  match result with
  | some ref => do
      let shown ← object ref
      write target ref
      return .object shown
  | none => throw (.noResult (← onMachine MachineM.errorKind))

end SessionM

end StackMachine
