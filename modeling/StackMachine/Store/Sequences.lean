import StackMachine.Store.Basic

/-!
# Strings, lists and tuples as sequences

Concatenation, indexing and slicing of the three kinds of sequences.  A result
that would equal an operand as a whole is that operand itself for strings and
tuples, which cannot change; a list is always made anew.
-/

namespace StackMachine

/-- An integer as one of a word, if it is one. -/
def toWord? (value : Int) : Option Int64 :=
  if Int64.minValue.toInt ≤ value ∧ value ≤ Int64.maxValue.toInt then some (.ofInt value) else none

/-- The sum of two words, or the word that comes nearest to it. -/
def saturatingAdd (x y : Int64) : Int64 :=
  .ofInt (max Int64.minValue.toInt (min Int64.maxValue.toInt (x.toInt + y.toInt)))

/-- The position an index stands for; a negative one counts from the end. -/
def resolveIndex? (index : Int64) (length : Nat) : Option Nat := do
  let last ← toWord? length
  let position ← if index < 0 then toWord? (index.toInt + last.toInt) else some index
  if 0 ≤ position ∧ position.toInt < length then some position.toInt.toNat else none

/-- One bound of a slice of a sequence that ends at `last`; a negative one counts from
the end. -/
def resolveBound (bound : Option Int64) (absent last : Int64) : Int64 :=
  match bound with
  | none => absent
  | some bound => if bound < 0 then saturatingAdd bound last else bound

/-- Bring the bounds of a slice into the sequence, and in order. -/
def clampSlice (low high : Int64) (length : Nat) : Nat × Nat :=
  let start := min low.toNatClampNeg length
  (start, max (min high.toNatClampNeg length) start)

/-- The positions a slice starts at and ends before. -/
def resolveSlice (low high : Option Int64) (length : Nat) : Nat × Nat :=
  let last := (toWord? length).getD Int64.maxValue
  clampSlice (resolveBound low 0 last) (resolveBound high last last) length

namespace StoreM

variable {τ : Type} [Tracker τ]

/-- A new object that holds more references to some items. -/
def allocateItems (pack : Array Ref → Payload) (items : Array Ref) : StoreM τ Ref := do
  acquireAll items.toList
  allocate (pack items)

/-- One sequence after the other. -/
def concat (left right : Ref) : StoreM τ Ref := do
  match ← get left, ← get right with
  | .string first, .string second =>
      if second.isEmpty then acquire left
      else if first.isEmpty then acquire right
      else allocate (.string (first ++ second))
  | .tuple first, .tuple second =>
      if second.isEmpty then acquire left
      else if first.isEmpty then acquire right
      else allocateItems .tuple (first ++ second)
  | .list first, .list second => allocateItems .list (first ++ second)
  | first, second => raise (.badOperands .add first.kind second.kind)

/-- An item of a list or a tuple. -/
def itemAt (kind : Kind) (items : Array Ref) (index : Int64) : StoreM τ Ref :=
  match (resolveIndex? index items.size).bind (items[·]?) with
  | some item => acquire item
  | none => raise (.indexOutOfRange kind)

/-- The item at an index.  Of a string it is a new string of one byte. -/
def index (sequence : Ref) (index : Int64) : StoreM τ Ref := do
  match ← get sequence with
  | .string bytes =>
      match (resolveIndex? index bytes.size).bind (bytes[·]?) with
      | some byte => allocate (.string #[byte])
      | none => raise (.indexOutOfRange .string)
  | .list items => itemAt .list items index
  | .tuple items => itemAt .tuple items index
  | other => raise (.unsupported .subscript other.kind)

/-- The item a loop is at; nothing once the sequence is exhausted, which is not an
error. -/
def loopItem (sequence : Ref) (position : Nat) : StoreM τ (Option Ref) := do
  let payload ← get sequence
  if payload.kind.isSequence then
    if payload.length?.any (· ≤ position) then
      pure none
    else
      match toWord? position with
      | some position => some <$> index sequence position
      | none => raise (.indexOutOfRange payload.kind)
  else
    raise .loopOverNonSequence

/-- The items between two bounds. -/
def slice (sequence : Ref) (low high : Option Int64) : StoreM τ Ref := do
  match ← get sequence with
  | .string bytes =>
      let (start, stop) := resolveSlice low high bytes.size
      if start = 0 ∧ stop = bytes.size then acquire sequence
      else allocate (.string (bytes.extract start stop))
  | .tuple items =>
      let (start, stop) := resolveSlice low high items.size
      if start = 0 ∧ stop = items.size then acquire sequence
      else allocateItems .tuple (items.extract start stop)
  | .list items =>
      let (start, stop) := resolveSlice low high items.size
      allocateItems .list (items.extract start stop)
  | other => raise (.unsupported .slice other.kind)

/-- The value of a subscript: an entry of a dictionary or an item of a
sequence. -/
def subscript (container key : Ref) : StoreM τ Ref := do
  match ← get container, ← get key with
  | .dict table, .string key => do
      match ← reading fun _ => table.lookup key with
      | some value => acquire value
      | none => raise .missingKey
  | .dict _, key => raise (.keyNotString key.kind)
  | payload, key =>
      if payload.kind.isSequence then
        match key with
        | .int position => index container position
        | _ => raise (.indexNotInt payload.kind)
      else
        raise (.unsupported .subscript payload.kind)

end StoreM

end StackMachine
