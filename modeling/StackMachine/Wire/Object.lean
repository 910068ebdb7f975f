import StackMachine.Object
import StackMachine.Wire.Basic

/-!
# Stored values

A value is stored as a tag for its alternative and then its parts.
-/

namespace StackMachine.Object

mutual

/-- The stored form of a value. -/
def encode : Object → List UInt8
  | none => Wire.encodeNat 0
  | int value => Wire.encodeNat 1 ++ Wire.encodeInt64 value
  | float value => Wire.encodeNat 2 ++ Wire.encodeDouble value
  | string text => Wire.encodeNat 3 ++ Wire.encodeText text
  | list items => Wire.encodeNat 4 ++ Wire.encodeNat items.length ++ encodeItems items
  | tuple items => Wire.encodeNat 5 ++ Wire.encodeNat items.length ++ encodeItems items
  | dict entries => Wire.encodeNat 6 ++ Wire.encodeNat entries.length ++ encodeEntries entries
  | module name => Wire.encodeNat 7 ++ Wire.encodeText name
  | repr text => Wire.encodeNat 8 ++ Wire.encodeText text
  | cycle slot text => Wire.encodeNat 9 ++ Wire.encodeNat slot ++ Wire.encodeText text

/-- The stored forms of some values, one after the other. -/
def encodeItems : List Object → List UInt8
  | [] => []
  | item :: rest => encode item ++ encodeItems rest

/-- The stored forms of some entries, one after the other. -/
def encodeEntries : List (String × Object) → List UInt8
  | [] => []
  | entry :: rest => encodeEntry entry ++ encodeEntries rest

/-- The stored form of an entry: its key and its value. -/
def encodeEntry : String × Object → List UInt8
  | (key, value) => Wire.encodeText key ++ encode value

end

/-- Read an entry, with `value` to read its value. -/
def entryDecoder (value : Wire.Decoder Object) : Wire.Decoder (String × Object) := do
  let key ← Wire.text
  return (key, ← value)

/-- Read a value nested at most `depth` deep. -/
def decoder : (depth : Nat) → Wire.Decoder Object
  | 0 => throw .unexpectedEnd
  | depth + 1 => do
      match (← Wire.nat32) with
      | 0 => return none
      | 1 => return int (← Wire.int64)
      | 2 => return float (← Wire.double)
      | 3 => return string (← Wire.text)
      | 4 => return list (← Wire.sequence (decoder depth))
      | 5 => return tuple (← Wire.sequence (decoder depth))
      | 6 => return dict (← Wire.sequence (entryDecoder (decoder depth)))
      | 7 => return module (← Wire.text)
      | 8 => return repr (← Wire.text)
      | 9 => return cycle (← Wire.nat64) (← Wire.text)
      | _ => throw .badValue

/-- Read a stored value.  Nesting takes bytes, so a value is never nested deeper
than its stored form is long. -/
def decode (input : List UInt8) : Except Wire.DecodeError Object :=
  Wire.decode (decoder (input.length + 1)) input

end StackMachine.Object
