import StackMachine.Store.Containers
import StackMachine.Store.Roots

/-!
# Attributes and modules

Modules, classes and class members have attributes in a dictionary of their own.
A member is also looked up in its class; a function found there is bound to the
member.  A module shows its dictionary and its name under two special names,
which cannot be assigned.
-/

namespace StackMachine.StoreM

/-- The special name of a module's dictionary. -/
def dictName : String := "__dict__"

/-- The special name of a module's name. -/
def titleName : String := "__name__"

/-- The module that is made when it is first imported. -/
def mathName : String := "math"

variable {τ : Type} [Tracker τ]

/-- Take a reference to what a name was found to be bound to. -/
def acquireNamed (name : String) : Option Ref → StoreM τ Ref
  | some ref => acquire ref
  | none => raise (.undefinedName name)

/-- A function of a class, bound to a member. -/
def bind (function member : Ref) : StoreM τ Ref := do
  let _ ← acquire function
  let _ ← acquire member
  allocate (.method function member)

/-- The value of an attribute. -/
def loadAttr (object : Ref) (name : String) : StoreM τ Ref := do
  let key := Bytes.ofString name
  match ← get object with
  | .module title attrs =>
      if name = dictName then acquire attrs
      else if name = titleName then acquire title
      else acquireNamed name (← dictLookup attrs key)
  | .class_ attrs => acquireNamed name (← dictLookup attrs key)
  | .member owner attrs => do
      match ← dictLookup attrs key with
      | some value => acquire value
      | none => do
          match ← get owner with
          | .class_ shared => do
              match ← dictLookup shared key with
              | none => raise (.undefinedName name)
              | some value => do
                  match ← get value with
                  | .function _ _ => bind value object
                  | _ => acquire value
          | _ => raise .badCall
  | other => raise (.unsupported .attributeAccess other.kind)

/-- Assign an attribute. -/
def storeAttr (object : Ref) (name : String) (value : Ref) : StoreM τ Unit := do
  match ← get object with
  | .member _ attrs => dictInsert attrs (Bytes.ofString name) value
  | .module _ attrs =>
      if name = dictName ∨ name = titleName then do
        release value
        raise .readOnlyAttribute
      else
        dictInsert attrs (Bytes.ofString name) value
  | other => do
      release value
      raise (.unsupported .attributeAssignment other.kind)

/-- Enter a module into the table of modules. -/
def enterModule (name : String) (module : Ref) : StoreM τ Ref := do
  let _ ← acquire module
  orRelease [module] (dictInsert .modules (Bytes.ofString name) module)
  return module

/-- A new module with the given attributes. -/
def newModule (name : String) (attrs : Ref) : StoreM τ Ref := do
  let title ← orRelease [attrs] (allocate (.string (Bytes.ofString name)))
  allocate (.module title attrs)

/-- Make an empty module and enter it into the table of modules. -/
def registerModule (name : String) : StoreM τ Ref := do
  let attrs ← allocate (.dict .empty)
  enterModule name (← newModule name attrs)

/-- Put the functions of the module `math` into a dictionary. -/
def installMath (attrs : Ref) : List MathFunction → StoreM τ Unit
  | [] => pure ()
  | function :: rest => do
      let value ← allocate (.native (.math function))
      dictInsert attrs (Bytes.ofString function.name) value
      installMath attrs rest

/-- Make the module `math`. -/
def newMath : StoreM τ Ref := do
  let attrs ← allocate (.dict .empty)
  orRelease [attrs] (installMath attrs MathFunction.all)
  newModule mathName attrs

/-- The module of a name; `math` is made when it is first asked for. -/
def importModule (name : String) : StoreM τ Ref := do
  match ← dictLookup .modules (Bytes.ofString name) with
  | some module => acquire module
  | none =>
      if name = mathName then do enterModule name (← newMath)
      else raise (.undefinedName name)

end StackMachine.StoreM
