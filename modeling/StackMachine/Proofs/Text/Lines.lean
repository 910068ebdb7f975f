import Mathlib
import StackMachine.Text.Columns
import StackMachine.Text.Lines

/-!
# Reading a text line by line

A text that was put together from lines is read by cutting it at its line feeds.  That gives the
lines back exactly where none of them has a line feed of its own; otherwise there are as many more
as there are such line feeds.
-/

namespace StackMachine

/-- There is no line feed in the text. -/
def Unbroken (text : String) : Prop :=
  '\n' ∉ text.toList

instance (text : String) : Decidable (Unbroken text) :=
  inferInstanceAs (Decidable ('\n' ∉ text.toList))

theorem unbroken_append {first second : String} :
    Unbroken (first ++ second) ↔ Unbroken first ∧ Unbroken second := by
  simp [Unbroken, String.toList_append]

namespace Columns

variable {width : Nat} {text : String}

theorem unbroken_padding : Unbroken (padding width text) := by
  simp [Unbroken, padding]

theorem unbroken_right : Unbroken (right width text) ↔ Unbroken text := by
  rw [right, unbroken_append, and_iff_right unbroken_padding]

theorem unbroken_left : Unbroken (left width text) ↔ Unbroken text := by
  rw [left, unbroken_append, and_iff_left unbroken_padding]

end Columns

namespace Lines

/-- Cut characters at the line feeds, which are left out. -/
def cut : List Char → List (List Char)
  | [] => []
  | character :: rest =>
      if character = '\n' then [] :: cut rest
      else
        match cut rest with
        | [] => [[character]]
        | line :: lines => (character :: line) :: lines

/-- The lines of a text. -/
def read (text : String) : List String :=
  (cut text.toList).map String.ofList

/-- A line without a line feed ends at the one behind it. -/
theorem cut_line {line : List Char} (unbroken : '\n' ∉ line) (rest : List Char) :
    cut (line ++ '\n' :: rest) = line :: cut rest := by
  induction line with
  | nil => simp [cut]
  | cons character line ih =>
      rw [List.mem_cons, not_or] at unbroken
      rw [List.cons_append, cut, if_neg (Ne.symm unbroken.1), ih unbroken.2]

/-- There is a line for every line feed of a text that ends with one. -/
theorem length_cut (characters : List Char) :
    (cut (characters ++ ['\n'])).length = characters.count '\n' + 1 := by
  induction characters with
  | nil => rfl
  | cons character rest ih =>
      rw [List.cons_append, cut, List.count_cons]
      by_cases feed : character = '\n'
      · simp [feed, ih]
      · rw [if_neg feed]
        cases found : cut (rest ++ ['\n']) with
        | nil => simp [found] at ih
        | cons line lines => simpa [feed, found] using ih

theorem toList_text (lines : List String) :
    (text lines).toList = lines.flatMap fun line => line.toList ++ ['\n'] := by
  rw [text, String.toList_join, List.flatMap_map]
  simp [String.toList_append]

/-- The line feeds of a text: one behind each line, and those within the lines. -/
theorem count_text (lines : List String) : (text lines).toList.count '\n' =
    lines.length + (lines.map fun line => line.toList.count '\n').sum := by
  rw [toList_text]
  induction lines with
  | nil => rfl
  | cons line lines ih =>
      rw [List.flatMap_cons, List.count_append, ih, List.count_append, List.count_singleton_self,
        List.map_cons, List.sum_cons, List.length_cons]
      omega

/-- There are as many lines to be read as there are line feeds, in the lines and behind them. -/
theorem length_read_text (lines : List String) : (read (text lines)).length =
    lines.length + (lines.map fun line => line.toList.count '\n').sum := by
  rw [read, List.length_map, ← count_text, toList_text]
  cases lines using List.reverseRecOn with
  | nil => rfl
  | append_singleton lines last =>
      rw [List.flatMap_append, List.flatMap_singleton, ← List.append_assoc, length_cut]
      simp only [List.count_append, List.count_singleton_self]

/-- A text is read as the lines that it was put together from if they have no line feeds. -/
theorem read_text {lines : List String} (unbroken : ∀ line ∈ lines, Unbroken line) :
    read (text lines) = lines := by
  rw [read, toList_text]
  induction lines with
  | nil => rfl
  | cons line lines ih =>
      rw [List.forall_mem_cons] at unbroken
      rw [List.flatMap_cons, List.append_assoc, List.singleton_append, cut_line unbroken.1,
        List.map_cons, ih unbroken.2, String.ofList_toList]

/-- Only then is it read as these lines. -/
theorem read_text_iff {lines : List String} :
    read (text lines) = lines ↔ ∀ line ∈ lines, Unbroken line := by
  refine ⟨fun same line listed feed => ?_, read_text⟩
  have counted := length_read_text lines
  rw [same, left_eq_add, List.sum_eq_zero_iff] at counted
  have none := counted _ (List.mem_map_of_mem listed)
  exact List.count_eq_zero.mp none feed

end Lines

end StackMachine
