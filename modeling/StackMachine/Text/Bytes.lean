/-!
# Byte strings and their text

Strings of the running machine are sequences of bytes, and nothing makes them
valid UTF-8: a slice may cut a character in two.  This module names that type
and gives the two directions between it and text.

Reading bytes as text never fails.  A byte sequence that is UTF-8 reads as
itself; in any other, each longest part that could still have begun a character
reads as one replacement character.
-/

namespace StackMachine

/-- A string of the machine. -/
abbrev Bytes := Array UInt8

namespace Bytes

/-- The UTF-8 form of a text. -/
def ofString (text : String) : Bytes :=
  text.toUTF8.data

/-- What stands for a part that is not UTF-8. -/
def replacement : Char := Char.ofNat 0xFFFD

/-- The shape of a character that starts with the given byte: how many bytes
follow, the bounds of the first of them, and the bits the first byte carries. -/
def lead? (byte : Nat) : Option (Nat × Nat × Nat × Nat) :=
  if 0xC2 ≤ byte ∧ byte ≤ 0xDF then some (1, 0x80, 0xBF, byte - 0xC0)
  else if byte = 0xE0 then some (2, 0xA0, 0xBF, 0)
  else if byte = 0xED then some (2, 0x80, 0x9F, 0xD)
  else if 0xE1 ≤ byte ∧ byte ≤ 0xEF then some (2, 0x80, 0xBF, byte - 0xE0)
  else if byte = 0xF0 then some (3, 0x90, 0xBF, 0)
  else if 0xF1 ≤ byte ∧ byte ≤ 0xF3 then some (3, 0x80, 0xBF, byte - 0xF0)
  else if byte = 0xF4 then some (3, 0x80, 0x8F, 4)
  else none

/-- Read the bytes a character still owes.  The first result is the character's
number when all of them are there, the second what is left unread. -/
def continuation : (owed low high bits : Nat) → List UInt8 → Option Nat × List UInt8
  | 0, _, _, bits, rest => (some bits, rest)
  | _ + 1, _, _, _, [] => (none, [])
  | owed + 1, low, high, bits, byte :: rest =>
      if low ≤ byte.toNat ∧ byte.toNat ≤ high then
        continuation owed 0x80 0xBF (bits * 64 + byte.toNat % 64) rest
      else
        (none, byte :: rest)

theorem length_continuation_le (owed low high bits : Nat) (bytes : List UInt8) :
    (continuation owed low high bits bytes).2.length ≤ bytes.length := by
  induction bytes generalizing owed low high bits with
  | nil => cases owed <;> simp [continuation]
  | cons byte rest ih =>
      cases owed with
      | zero => simp [continuation]
      | succ owed =>
          simp only [continuation]
          split
          · exact Nat.le_succ_of_le (ih ..)
          · simp

/-- The characters of a byte sequence, one replacement for each part that is
not UTF-8. -/
def lossyChars (bytes : List UInt8) : List Char :=
  match bytes with
  | [] => []
  | byte :: rest =>
      if byte.toNat < 0x80 then
        Char.ofNat byte.toNat :: lossyChars rest
      else
        match lead? byte.toNat with
        | none => replacement :: lossyChars rest
        | some (owed, low, high, bits) =>
            let read := continuation owed low high bits rest
            (read.1.map Char.ofNat).getD replacement :: lossyChars read.2
termination_by bytes.length
decreasing_by
  · simp
  · simp
  · simp only [List.length_cons]
    exact Nat.lt_succ_of_le (length_continuation_le ..)

/-- The text a byte string is shown as. -/
def toText (bytes : Bytes) : String :=
  match String.fromUTF8? ⟨bytes⟩ with
  | some text => text
  | none => String.ofList (lossyChars bytes.toList)

end Bytes

end StackMachine
