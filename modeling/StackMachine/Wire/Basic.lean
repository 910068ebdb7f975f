import StackMachine.Number.Double

/-!
# The wire format

Values are stored as bytes without names or padding.  A natural number is
written seven bits a byte, lowest first, with the high bit set on every byte but
the last.  A signed number is first folded onto the naturals, so that small
negative numbers stay short.  Texts and sequences carry their length in front,
alternatives a tag, and an optional value one byte that says whether it is
there.

Each `encode` below writes one such part, and the decoder of the same name reads
it back from the front of its input and leaves the rest.
-/

namespace StackMachine.Wire

/-- Why some bytes are not the form of a value. -/
inductive DecodeError where
  /-- The input ends inside a value. -/
  | unexpectedEnd
  /-- A number has more bytes, or more bits, than its type. -/
  | badVarint
  /-- A text is not UTF-8. -/
  | badUtf8
  /-- The byte before an optional value is neither 0 nor 1. -/
  | badOption
  /-- A tag names no alternative, or a value is out of its range. -/
  | badValue
  deriving DecidableEq, Repr

/-- The message of a decoding error. -/
def DecodeError.message : DecodeError → String
  | unexpectedEnd => "Hit the end of buffer, expected more data"
  | badVarint => "Found a varint that didn't terminate. Is the usize too big for this platform?"
  | badUtf8 => "Tried to parse invalid utf-8"
  | badOption => "Found an Option discriminant that wasn't 0 or 1"
  | badValue => "Serde Deserialization Error"

/-- A reader of values from the front of some bytes. -/
abbrev Decoder := StateT (List UInt8) (Except DecodeError)

/-- The next byte. -/
def byte : Decoder UInt8 := fun input =>
  match input with
  | [] => .error .unexpectedEnd
  | first :: rest => .ok (first, rest)

/-- The next `count` bytes. -/
def bytes (count : Nat) : Decoder (List UInt8) := fun input =>
  let taken := input.take count
  if taken.length < count then .error .unexpectedEnd else .ok (taken, input.drop count)

/-- A natural number, seven bits a byte. -/
def encodeNat (number : Nat) : List UInt8 :=
  if number < 128 then [UInt8.ofNat number]
  else UInt8.ofNat (number % 128 + 128) :: encodeNat (number / 128)
termination_by number

/-- A natural number of at most `length` bytes, of which the last possible one
is at most `top`. -/
def nat (top : Nat) : (length : Nat) → Decoder Nat
  | 0 => throw .badVarint
  | length + 1 => do
      let first ← byte
      if first.toNat < 128 then
        if length = 0 ∧ top < first.toNat then throw .badVarint else return first.toNat
      else
        let higher ← nat top length
        return first.toNat - 128 + 128 * higher

/-- A natural number below `2 ^ 64`. -/
def nat64 : Decoder Nat := nat 1 10

/-- A natural number below `2 ^ 32`. -/
def nat32 : Decoder Nat := nat 15 5

/-- Fold a signed number onto the naturals: 0, -1, 1, -2, 2 and so on. -/
def fold (number : Int) : Nat :=
  if 0 ≤ number then (2 * number).toNat else (-2 * number - 1).toNat

/-- Undo `fold`. -/
def unfold (number : Nat) : Int :=
  if number % 2 = 0 then (number / 2 : Nat) else -((number / 2 : Nat) : Int) - 1

/-- A signed number. -/
def encodeInt64 (value : Int64) : List UInt8 :=
  encodeNat (fold value.toInt)

/-- A signed number of 64 bits. -/
def int64 : Decoder Int64 := do
  return Int64.ofInt (unfold (← nat64))

/-- The lowest `count` bytes of a number, lowest first. -/
def littleEndian : (count number : Nat) → List UInt8
  | 0, _ => []
  | count + 1, number => UInt8.ofNat number :: littleEndian count (number / 256)

/-- The number whose bytes are given, lowest first. -/
def ofLittleEndian : List UInt8 → Nat
  | [] => 0
  | first :: rest => first.toNat + 256 * ofLittleEndian rest

/-- A double, as the eight bytes of its bits. -/
def encodeDouble (value : Double) : List UInt8 :=
  littleEndian 8 value.bits.toNat

/-- A double. -/
def double : Decoder Double := do
  return ⟨UInt64.ofNat (ofLittleEndian (← bytes 8))⟩

/-- A byte string with its length in front. -/
def encodeBytes (content : List UInt8) : List UInt8 :=
  encodeNat content.length ++ content

/-- A byte string. -/
def byteString : Decoder (List UInt8) := do
  bytes (← nat64)

/-- A text with the length of its UTF-8 form in front. -/
def encodeText (text : String) : List UInt8 :=
  encodeBytes text.toUTF8.data.toList

/-- A text. -/
def text : Decoder String := do
  match String.fromUTF8? ⟨(← byteString).toArray⟩ with
  | some decoded => return decoded
  | none => throw .badUtf8

/-- `count` values, one after the other. -/
def replicate {α : Type} (item : Decoder α) : (count : Nat) → Decoder (List α)
  | 0 => return []
  | count + 1 => do
      let first ← item
      let rest ← replicate item count
      return first :: rest

/-- A sequence with its length in front. -/
def sequence {α : Type} (item : Decoder α) : Decoder (List α) := do
  replicate item (← nat64)

/-- An optional value, with a byte in front that says whether it is there. -/
def encodeOption {α : Type} (encode : α → List UInt8) : Option α → List UInt8
  | none => [0]
  | some value => 1 :: encode value

/-- An optional value. -/
def option {α : Type} (item : Decoder α) : Decoder (Option α) := do
  match (← byte) with
  | 0 => return none
  | 1 => return some (← item)
  | _ => throw .badOption

/-- Run a decoder on some bytes.  What follows the value is ignored. -/
def decode {α : Type} (decoder : Decoder α) (input : List UInt8) : Except DecodeError α :=
  (decoder.run input).map Prod.fst

end StackMachine.Wire
