import StackMachine.Store.Basic

/-!
# The order of objects

Any two objects can be compared.  An object equals itself.  Objects of different
kinds are ordered by the names of their kinds.  Numbers are ordered by value,
strings by their bytes, lists and tuples item by item and then by length.  Other
objects of one kind are ordered by their slots.

A NaN equals every float.  Containers nested too deep cannot be compared.
-/

namespace StackMachine.Store

variable {τ : Type}

/-- How deep containers may be nested to be compared or converted.  This is the number of a build
with debug assertions; a build without them allows 500.  What is proved of every object holds for
either: only the examples that are worked out use the number. -/
def maxDepth : Nat := 100

/-- Compare item by item, then by length. -/
def compareItems {φ : Type} (compareItem : Ref → Ref → Except φ Ordering) :
    List Ref → List Ref → Except φ Ordering
  | [], [] => .ok .eq
  | [], _ :: _ => .ok .lt
  | _ :: _, [] => .ok .gt
  | left :: lefts, right :: rights => do
      match ← compareItem left right with
      | .eq => compareItems compareItem lefts rights
      | ordering => .ok ordering

/-- Compare two objects, going at most `room` containers deep. -/
def compareWithin (store : Store τ) : (room : Nat) → (left right : Ref) →
    Except (Stop Cause) Ordering
  | room, left, right =>
      if left = right then
        .ok .eq
      else
        match room with
        | 0 => .error (.failed .comparisonTooDeep)
        | room + 1 => do
            let leftPayload ← store.get left
            let rightPayload ← store.get right
            match leftPayload, rightPayload with
            | .int x, .int y => .ok (compare x.toInt y.toInt)
            | .float x, .float y => .ok ((x.compare? y).getD .eq)
            | .string x, .string y => .ok (compare x y)
            | .list xs, .list ys => compareItems (compareWithin store room) xs.toList ys.toList
            | .tuple xs, .tuple ys => compareItems (compareWithin store room) xs.toList ys.toList
            | _, _ =>
                if leftPayload.kind = rightPayload.kind then
                  .ok (compare left.index right.index)
                else
                  .ok (leftPayload.kind.compareName rightPayload.kind)

/-- Compare two objects. -/
def compareRefs (store : Store τ) (left right : Ref) : Except (Stop Cause) Ordering :=
  store.compareWithin (maxDepth + 1) left right

/-- Is one of the items equal to an object? -/
def anyEqual (store : Store τ) (item : Ref) : List Ref → Except (Stop Cause) Bool
  | [] => .ok false
  | candidate :: rest => do
      match ← store.compareRefs candidate item with
      | .eq => .ok true
      | _ => store.anyEqual item rest

/-- Is `item` in `sequence`?  Of a string, single bytes are members. -/
def contains (store : Store τ) (sequence item : Ref) : Except (Stop Cause) Bool := do
  match ← store.get sequence with
  | .string bytes =>
      match ← store.get item with
      | .string character =>
          match character.toList with
          | [byte] => .ok (bytes.contains byte)
          | _ => .error (.failed .memberNotCharacter)
      | _ => .error (.failed .memberNotCharacter)
  | .list items => store.anyEqual item items.toList
  | .tuple items => store.anyEqual item items.toList
  | _ => .error (.failed .memberOfNonSequence)

/-- Does an error match a pattern: the same error object, or a tuple that holds
it? -/
def errorMatches (store : Store τ) (error pattern : Ref) : Except (Stop Cause) Bool :=
  if error = pattern then
    .ok true
  else do
    match ← store.get pattern with
    | .tuple items => .ok (items.contains error)
    | _ => .ok false

/-- The outcome of a comparison instruction. -/
def test (store : Store τ) (comparison : Comparison) (left right : Ref) :
    Except (Stop Cause) Bool :=
  match comparison with
  | .same => .ok (left = right)
  | .notSame => .ok (left ≠ right)
  | .member => store.contains right left
  | .notMember => (store.contains right left).map (!·)
  | .errorMatch => store.errorMatches left right
  | .less => (store.compareRefs left right).map (· == .lt)
  | .lessEqual => (store.compareRefs left right).map (· != .gt)
  | .equal => (store.compareRefs left right).map (· == .eq)
  | .notEqual => (store.compareRefs left right).map (· != .eq)
  | .greater => (store.compareRefs left right).map (· == .gt)
  | .greaterEqual => (store.compareRefs left right).map (· != .lt)

end StackMachine.Store
