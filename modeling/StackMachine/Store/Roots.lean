import StackMachine.Store.Basic

/-!
# The objects a machine starts with

Every store starts with the same objects in the same slots: `none`, the integers
one and zero that stand for true and false, the dictionary of built-in names, the
table of modules, the built-in functions, and the error objects, one for each
kind of error.  The machine itself holds a reference to each of these but the
built-in functions, which belong to the dictionary of built-in names.
-/

namespace StackMachine

namespace Ref

/-- The only object of kind `none`. -/
def noneObject : Ref := ⟨0⟩

/-- The object that stands for true. -/
def trueObject : Ref := ⟨1⟩

/-- The object that stands for false. -/
def falseObject : Ref := ⟨2⟩

/-- The object that stands for a truth value. -/
def ofBool (value : Bool) : Ref :=
  if value then trueObject else falseObject

/-- The dictionary of built-in names. -/
def builtins : Ref := ⟨3⟩

/-- The dictionary of modules, by their names. -/
def modules : Ref := ⟨4⟩

end Ref

/-- The built-in functions, each with its slot. -/
def Builtin.slots : List (Builtin × Ref) :=
  Builtin.all.zipIdx.map fun entry => (entry.1, ⟨entry.2 + 5⟩)

/-- The error object of a kind of error. -/
def ErrorKind.object (kind : ErrorKind) : Ref :=
  ⟨13 + kind.index⟩

/-- The kind of error an object stands for. -/
def ErrorKind.ofObject? (ref : Ref) : Option ErrorKind :=
  ErrorKind.all.find? (·.object = ref)

@[simp] theorem ErrorKind.ofObject?_object (kind : ErrorKind) :
    ErrorKind.ofObject? kind.object = some kind := by
  cases kind <;> rfl

namespace Store

/-- The built-in names and what they are bound to, in the order in which they
are bound. -/
def builtinEntries : List (Bytes × Ref) :=
  Builtin.slots.map (fun entry => (Bytes.ofString entry.1.name, entry.2)) ++
    [(Bytes.ofString "true", Ref.trueObject), (Bytes.ofString "false", Ref.falseObject),
      (Bytes.ofString "none", Ref.noneObject)] ++
    ErrorKind.all.map (fun kind => (Bytes.ofString kind.name, kind.object))

/-- The objects a store starts with.  A count of two is one reference of the
machine's own and one of the dictionary of built-in names. -/
def initialCells : List Cell :=
  [⟨2, some .none⟩, ⟨2, some (.int 1)⟩, ⟨2, some (.int 0)⟩,
    ⟨1, some (.dict (Table.ofEntries builtinEntries))⟩, ⟨1, some (.dict Table.empty)⟩] ++
    Builtin.all.map (fun function => ⟨1, some (.native (.builtin function))⟩) ++
    ErrorKind.all.map (fun kind => ⟨2, some (.string (Bytes.ofString kind.text))⟩)

/-- A store in which nothing has happened yet.  The tracker does not know of the
objects in it. -/
def initial {τ : Type} (tracker : τ) : Store τ :=
  ⟨(initialCells.map some).toArray, [], tracker⟩

/-- The number of objects that are always there and never counted as made. -/
def pinned : Nat := 3

end Store

end StackMachine
