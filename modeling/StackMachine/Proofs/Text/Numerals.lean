import Mathlib
import StackMachine.Number.DoubleText

/-!
# The characters of numbers

A number is printed in digits, with a sign where it is negative, and a double with a point or the
letter of an exponent as well.  Nothing else stands in a number, no separator and no line feed.
-/

namespace StackMachine

namespace Numeral

variable {character : Char}

theorem isDigit_of_mem_nat {number : Nat} (member : character ∈ (toString number).toList) :
    character.isDigit := by
  rw [Nat.toString_eq_repr, Nat.toList_repr] at member
  exact Nat.isDigit_of_mem_toDigits (by decide) (by decide) member

theorem nat_ne_nil (number : Nat) : (toString number).toList ≠ [] := by
  rw [Nat.toString_eq_repr, Nat.toList_repr]
  exact Nat.toDigits_ne_nil

/-- The characters of an integer: those of its size, behind a sign if it is negative. -/
theorem toList_int (number : Int) : (toString number).toList =
    if number < 0 then '-' :: (toString number.natAbs).toList
    else (toString number.natAbs).toList := by
  rw [Int.toString_eq_repr, Int.repr_eq_if]
  by_cases negative : number < 0
  · have size : (-number).toNat = number.natAbs := by omega
    simp [negative, Int.not_le.mpr negative, size]
  · have size : number.toNat = number.natAbs := by omega
    simp [negative, Int.not_lt.mp negative, size]

theorem of_mem_int {number : Int} (member : character ∈ (toString number).toList) :
    character = '-' ∨ character.isDigit := by
  rw [toList_int] at member
  split at member
  · rcases List.mem_cons.mp member with sign | digit
    · exact Or.inl sign
    · exact Or.inr (isDigit_of_mem_nat digit)
  · exact Or.inr (isDigit_of_mem_nat member)

end Numeral

namespace Double

open Numeral

variable {character : Char} {digits : List Char}

theorem mem_of_mem_stripZeros (member : character ∈ stripZeros digits) : character ∈ digits := by
  rw [stripZeros, List.mem_reverse] at member
  exact List.mem_reverse.mp (List.dropWhile_subset _ member)

/-- What may stand in the text of a double besides digits. -/
def marks : List Char :=
  ['-', '.', 'e', 'i', 'n', 'f', 'N', 'a']

/-- The characters that a double may be printed with. -/
def IsCharacter (character : Char) : Prop :=
  character.isDigit ∨ character ∈ marks

theorem isCharacter_positional {point : Int} (written : ∀ digit ∈ digits, IsCharacter digit)
    (member : character ∈ positional digits point) : IsCharacter character := by
  have zero : IsCharacter '0' := Or.inl rfl
  have dot : IsCharacter '.' := Or.inr (by decide)
  have filled {count : Nat} (listed : character ∈ List.replicate count '0') :
      IsCharacter character := List.eq_of_mem_replicate listed ▸ zero
  unfold positional at member
  split at member
  · simp only [List.mem_append, List.mem_cons] at member
    rcases member with (rfl | rfl | filling) | digit
    · exact zero
    · exact dot
    · exact filled filling
    · exact written _ digit
  · simp only [List.mem_append, List.mem_cons] at member
    rcases member with (digit | filling) | rfl | part
    · exact written _ (List.mem_of_mem_take digit)
    · exact filled filling
    · exact dot
    · split at part
      · rw [List.mem_singleton] at part
        exact part ▸ zero
      · exact written _ (List.mem_of_mem_drop part)

theorem isCharacter_scientific {point : Int} (written : ∀ digit ∈ digits, IsCharacter digit)
    (member : character ∈ scientific digits point) : IsCharacter character := by
  unfold scientific at member
  simp only [List.mem_append, List.mem_cons] at member
  rcases member with (digit | part) | rfl | exponent
  · exact written _ (List.mem_of_mem_take digit)
  · split at part
    · exact absurd part List.not_mem_nil
    · rcases List.mem_cons.mp part with rfl | digit
      · exact Or.inr (by decide)
      · exact written _ (List.mem_of_mem_drop digit)
  · exact Or.inr (by decide)
  · rcases of_mem_int exponent with rfl | digit
    · exact Or.inr (by decide)
    · exact Or.inl digit

theorem isCharacter_finiteText {value : Double} (member : character ∈ value.finiteText) :
    IsCharacter character := by
  unfold finiteText at member
  split at member
  · simp only [List.mem_cons, List.not_mem_nil, or_false] at member
    rcases member with rfl | rfl | rfl
    · exact Or.inl rfl
    · exact Or.inr (by decide)
    · exact Or.inl rfl
  · have written : ∀ digit ∈ stripZeros
        (toString (Shortest.shortest value.significand value.exponent).digits).toList,
        IsCharacter digit :=
      fun _ digit => Or.inl (isDigit_of_mem_nat (mem_of_mem_stripZeros digit))
    simp only at member
    split at member
    · exact isCharacter_positional written member
    · exact isCharacter_scientific written member

theorem isCharacter_toText {value : Double} (member : character ∈ value.toText.toList) :
    IsCharacter character := by
  have sized : ∀ other ∈ (if value.isInfinite then ['i', 'n', 'f'] else value.finiteText),
      IsCharacter other := by
    intro other listed
    split at listed
    · have infinite : ['i', 'n', 'f'] ⊆ marks := by decide
      exact Or.inr (infinite listed)
    · exact isCharacter_finiteText listed
  unfold toText at member
  split at member
  · have undefined : "NaN".toList ⊆ marks := by decide
    exact Or.inr (undefined member)
  · rw [String.toList_ofList] at member
    split at member
    · rcases List.mem_cons.mp member with rfl | listed
      · exact Or.inr (by decide)
      · exact sized _ listed
    · exact sized _ member

end Double

end StackMachine
