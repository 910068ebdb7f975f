import StackMachine.Cause
import StackMachine.Outcome
import StackMachine.Text.Bytes

/-!
# Tables

A dictionary keeps its entries in a table with open addresses.  The size of the
table is one of sixteen primes.  A key is looked for from the slot its hash names,
in equal steps around the table; both the slot and the step come from the hash.  A
removed entry leaves a mark behind, so that searches that passed it still find
what lies beyond; a rebuild drops the marks.

The order of a dictionary's entries is the order of their slots.
-/

namespace StackMachine

/-- A place in a table. -/
inductive Slot (α : Type) where
  | empty
  /-- An entry was here and was removed. -/
  | removed
  | live (key : Bytes) (value : α)
  deriving DecidableEq, Inhabited

/-- A table of entries.  `fill` counts the slots that are not empty and `used`
those that hold an entry. -/
structure Table (α : Type) where
  slots : Array (Slot α)
  fill : Nat
  used : Nat
  deriving DecidableEq, Inhabited

namespace Table

variable {α : Type}

/-- The sizes a table may have. -/
def sizes : List Nat :=
  [3, 7, 13, 31, 61, 127, 251, 509, 1021, 2017, 4093, 5987, 9551, 15683, 19609, 31397]

/-- What a slot adds to the size of a dictionary, in bytes. -/
def slotBytes : Nat := 32

/-- A table of `size` empty slots. -/
def ofSize (size : Nat) : Table α :=
  ⟨Array.replicate size .empty, 0, 0⟩

/-- The table of a new dictionary. -/
def empty : Table α := ofSize 3

/-- The number of slots. -/
def size (table : Table α) : Nat :=
  table.slots.size

/-- The hash of a key: each byte is added to twice the sum so far, which starts
with 128 times the first byte.  It wraps at 64 bits. -/
def hash (key : Bytes) : UInt64 :=
  key.foldl (fun sum byte => sum + sum + byte.toUInt64) ((key[0]?.getD 0).toUInt64 * 128)

/-- Double and add one until the remainder by the table size is not zero, at
most `attempts` times. -/
def stepFrom (size : Nat) : (attempts : Nat) → (sum : UInt64) → Option Nat
  | 0, _ => none
  | attempts + 1, sum =>
      let next := sum + sum + 1
      if next.toNat % size = 0 then stepFrom size attempts next else some (next.toNat % size)

/-- The step of a search.  Doubling and adding one turns every hash into 64 ones
after 64 turns and leaves that number as it is, so a search for a step that has
not ended by then never ends; it has no result. -/
def step? (size : Nat) (key : Bytes) : Option Nat :=
  stepFrom size 64 (hash key)

/-- Where a search for a key ends. -/
inductive Probe where
  /-- At the key's entry. -/
  | found (index : Nat)
  /-- At an empty slot: the key is not in the table. -/
  | vacant (index : Nat)
  /-- Every slot was seen; the key is not in the table, and no slot is empty. -/
  | full
  /-- Nowhere: the search for a step never ends. -/
  | endless
  deriving DecidableEq, Repr

/-- Search for a key in `visits` slots, from `index` on. -/
def probeFrom (table : Table α) (key : Bytes) (step : Nat) : (visits index : Nat) → Probe
  | 0, _ => .full
  | visits + 1, index =>
      match table.slots[index]? with
      | some .empty => .vacant index
      | some (.live other _) =>
          if other == key then .found index
          else probeFrom table key step visits ((index + step) % table.size)
      | _ => probeFrom table key step visits ((index + step) % table.size)

/-- Search for a key. -/
def probe (table : Table α) (key : Bytes) : Probe :=
  match step? table.size key with
  | none => .endless
  | some step => probeFrom table key step table.size ((hash key).toNat % table.size)

/-- The value in a slot. -/
def valueAt? (table : Table α) (index : Nat) : Option α :=
  match table.slots[index]? with
  | some (.live _ value) => some value
  | _ => none

/-- The key in a slot. -/
def keyAt? (table : Table α) (index : Nat) : Option Bytes :=
  match table.slots[index]? with
  | some (.live key _) => some key
  | _ => none

/-- The value of a key. -/
def find? (table : Table α) (key : Bytes) : Option α :=
  match table.probe key with
  | .found index => table.valueAt? index
  | _ => none

/-- The value of a key, or no answer where the search never ends. -/
def lookup {φ : Type} (table : Table α) (key : Bytes) : Except (Stop φ) (Option α) :=
  match table.probe key with
  | .found index => .ok (table.valueAt? index)
  | .endless => .error .unfinished
  | _ => .ok none

/-- What is in a slot. -/
def content? : Slot α → Option (Bytes × α)
  | .live key value => some (key, value)
  | _ => none

/-- The entries, in the order of their slots. -/
def entries (table : Table α) : List (Bytes × α) :=
  table.slots.toList.filterMap content?

/-- The values, in the order of their slots. -/
def values (table : Table α) : List α :=
  table.entries.map Prod.snd

/-- Put an entry into a slot that was empty. -/
def occupy (table : Table α) (index : Nat) (key : Bytes) (value : α) : Table α :=
  ⟨table.slots.setIfInBounds index (.live key value), table.fill + 1, table.used + 1⟩

/-- Put another value into a slot that holds an entry. -/
def rebind (table : Table α) (index : Nat) (key : Bytes) (value : α) : Table α :=
  { table with slots := table.slots.setIfInBounds index (.live key value) }

/-- Put entries that are not in the table into it. -/
def occupyAll : List (Bytes × α) → Table α → Except (Stop Cause) (Table α)
  | [], table => .ok table
  | (key, value) :: rest, table =>
      match table.probe key with
      | .vacant index | .found index => occupyAll rest (table.occupy index key value)
      | .full => .error (.failed .tableFull)
      | .endless => .error .unfinished

/-- The size a table with `used` entries is rebuilt at: the smallest that is
more than twice as many. -/
def nextSize? (used : Nat) : Option Nat :=
  sizes.find? (2 * used < ·)

/-- Move the entries into a new table, if there is a size for it and the tracker
agrees. -/
def rebuild {τ : Type} [Tracker τ] (table : Table α) (tracker : τ) :
    Except (Stop Cause) (Table α) :=
  match nextSize? table.used with
  | none => .error (.failed .tableFull)
  | some size =>
      match Tracker.build (size * slotBytes) tracker with
      | some refusal => .error (.failed (.refused refusal))
      | none => occupyAll table.entries (ofSize size)

/-- Is the table two thirds full? -/
def isCrowded (table : Table α) : Bool :=
  2 * table.size ≤ 3 * table.fill

/-- Make room for one more entry.  A crowded table is rebuilt; where that fails,
the table stays as it is, which is an error only if none of its slots is left. -/
def makeRoom {τ : Type} [Tracker τ] (table : Table α) (tracker : τ) :
    Except (Stop Cause) (Table α) :=
  if table.isCrowded then
    match table.rebuild tracker with
    | .error (.failed cause) =>
        if table.size < table.fill + 1 then .error (.failed cause) else .ok table
    | result => result
  else
    .ok table

/-- The tracker after it was asked to make room: a crowded table asks for a new
one, if there is a size for it. -/
def askRoom {τ : Type} [Tracker τ] (table : Table α) (tracker : τ) : τ :=
  if table.isCrowded then
    match nextSize? table.used with
    | some size => Tracker.noteBuild (size * slotBytes) tracker
    | none => tracker
  else
    tracker

/-- Bind a key to a value.  The first result is the value the key was bound to
before.  The table is the new one also where binding fails after a rebuild. -/
def insert {τ : Type} [Tracker τ] (table : Table α) (tracker : τ) (key : Bytes) (value : α) :
    Except (Stop Cause) (Option α) × Table α × τ :=
  let asked := table.askRoom tracker
  match table.makeRoom tracker with
  | .error stop => (.error stop, table, asked)
  | .ok table =>
      match table.probe key with
      | .endless => (.error .unfinished, table, asked)
      | .full => (.error (.failed .tableFull), table, asked)
      | .found index =>
          let displaced := table.valueAt? index
          (.ok displaced, table.rebind index key value, asked)
      | .vacant index =>
          match Tracker.insert asked with
          | (some refusal, tracker) => (.error (.failed (.refused refusal)), table, tracker)
          | (none, tracker) => (.ok none, table.occupy index key value, tracker)

/-- Remove a key.  The first result is the value it was bound to. -/
def erase (table : Table α) (key : Bytes) : Except (Stop Cause) α × Table α :=
  match table.probe key with
  | .endless => (.error .unfinished, table)
  | .found index =>
      match table.valueAt? index with
      | some value =>
          (.ok value,
            { table with
              slots := table.slots.setIfInBounds index .removed, used := table.used - 1 })
      | none => (.error (.failed .missingKey), table)
  | _ => (.error (.failed .missingKey), table)

/-- The table that results from binding keys one after the other. -/
def ofEntries (entries : List (Bytes × α)) : Table α :=
  entries.foldl (fun table entry => (table.insert ({} : Unlimited) entry.1 entry.2).2.1) empty

end Table

end StackMachine
