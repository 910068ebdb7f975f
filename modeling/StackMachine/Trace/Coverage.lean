import Std.Data.HashSet
import StackMachine.Trace.Event

/-!
# Coverage

Coverage collects the offsets that were carried out, each under the file of the
code it belongs to: the file of the innermost frame.
-/

namespace StackMachine

/-- The files of the active frames, innermost first, and the places that were
reached. -/
structure Coverage where
  files : List String
  covered : Std.HashSet (String × Nat)

namespace Coverage

/-- Nothing reached yet. -/
def start : Coverage :=
  ⟨[], ∅⟩

/-- The file of the innermost frame. -/
def file (coverage : Coverage) : String :=
  coverage.files.headD ""

/-- Take an event into account. -/
def observe (coverage : Coverage) : Event → Coverage
  | .instruction offset _ _ _ =>
      { coverage with covered := coverage.covered.insert (coverage.file, offset) }
  | .entered file _ => { coverage with files := file :: coverage.files }
  | .left _ => { coverage with files := coverage.files.tail }
  | .unwound _ _ | .pushed _ _ | .popped _ => coverage

/-- The offsets reached in a file, in their order; nothing if its code was never
carried out. -/
def offsets? (coverage : Coverage) (file : String) : Option (List Nat) :=
  let reached := coverage.covered.toList.filterMap fun place =>
    if place.1 == file then some place.2 else none
  if reached.isEmpty then none else some (reached.mergeSort (· ≤ ·))

/-- The number of places reached. -/
def count (coverage : Coverage) : Nat :=
  coverage.covered.size

end Coverage

end StackMachine
