import StackMachine.Proofs.Listing.Entries
import StackMachine.Proofs.Text.Lines
import StackMachine.Proofs.Text.Numerals

/-!
# Listings line by line

A listing is put together from one header for each image, one line for each entry of its code, and
a blank line before each nested image.  File names, names and texts stand in these lines as they
are.  So whoever reads the listing line by line finds just these lines where no text that is shown
has a line feed, and more of them otherwise.
-/

namespace StackMachine.Listing

open Numeral

variable {image : Image} {entry : Entry}

/-! ## Numbers -/

theorem unbroken_nat (number : Nat) : Unbroken (toString number) := fun feed =>
  absurd (isDigit_of_mem_nat feed) (by decide)

theorem unbroken_int (number : Int) : Unbroken (toString number) := by
  intro feed
  rcases of_mem_int feed with sign | digit
  · exact absurd sign (by decide)
  · exact absurd digit (by decide)

theorem unbroken_double (value : Double) : Unbroken value.toText := by
  intro feed
  rcases Double.isCharacter_toText feed with digit | mark
  · exact absurd digit (by decide)
  · exact absurd mark (by decide)

/-! ## Lines of entries -/

/-- What the operand of an entry stands for, where the listing says so. -/
def Entry.detail? (image : Image) (entry : Entry) : Option String :=
  match entry.fetched with
  | .instruction op operand next =>
      if op.hasOperand then Listing.detail? image op operand next else none
  | .unknown _ | .truncated _ | .pastEnd => none

theorem unbroken_name (op : Opcode) : Unbroken op.name := by
  have all : ∀ op ∈ Opcode.all, Unbroken op.name := by decide +kernel
  exact all op (Opcode.mem_all op)

theorem unbroken_columns (entry : Entry) (op : Opcode) (operand : Nat) :
    Unbroken (entry.columns op operand) := by
  have space : Unbroken " " := by decide
  unfold Entry.columns
  simp only [unbroken_append, Columns.unbroken_right, Columns.unbroken_left]
  exact ⟨⟨⟨⟨unbroken_nat _, space⟩, unbroken_name op⟩, space⟩, unbroken_nat _⟩

/-- All that may break the line of an entry is what its operand stands for. -/
theorem unbroken_line_iff :
    Unbroken (line image entry) ↔ ∀ detail ∈ entry.detail? image, Unbroken detail := by
  obtain ⟨offset, fetched⟩ := entry
  have placed : Unbroken (Columns.right 5 (toString offset)) :=
    Columns.unbroken_right.mpr (unbroken_nat offset)
  cases fetched with
  | pastEnd => exact iff_of_true placed (by simp [Entry.detail?])
  | unknown byte =>
      refine iff_of_true ?_ (by simp [Entry.detail?])
      simp only [line, unbroken_append]
      exact ⟨⟨⟨placed, by decide⟩, unbroken_nat _⟩, by decide⟩
  | truncated op =>
      refine iff_of_true ?_ (by simp [Entry.detail?])
      simp only [line, unbroken_append]
      exact ⟨⟨⟨placed, by decide⟩, Columns.unbroken_left.mpr (unbroken_name op)⟩, by decide⟩
  | instruction op operand next =>
      cases takes : op.hasOperand with
      | false =>
          refine iff_of_true ?_ (by simp [Entry.detail?, takes])
          simp only [line, takes, Bool.false_eq_true, ↓reduceIte, unbroken_append]
          exact ⟨⟨placed, by decide⟩, unbroken_name op⟩
      | true =>
          have columns := unbroken_columns ⟨offset, .instruction op operand next⟩ op operand
          cases shown : Listing.detail? image op operand next with
          | none =>
              refine iff_of_true ?_ (by simp [Entry.detail?, takes, shown])
              simp only [line, takes, ↓reduceIte, shown]
              exact columns
          | some detail =>
              have opening : Unbroken " (" := by decide
              have closing : Unbroken ")" := by decide
              rw [line_of_detail rfl takes shown]
              simp [Entry.detail?, takes, shown, unbroken_append, columns, opening, closing]

/-! ## Listings -/

/-- No text that the listing of an image shows has a line feed. -/
def ShowsUnbroken (image : Image) : Prop :=
  ∀ code ∈ image :: image.nested, Unbroken code.file ∧
    ∀ entry ∈ entries code.bytecode, ∀ detail ∈ entry.detail? code, Unbroken detail

theorem unbroken_codeLines_iff : (∀ shown ∈ codeLines image, Unbroken shown) ↔
    Unbroken image.file ∧
      ∀ entry ∈ entries image.bytecode, ∀ detail ∈ entry.detail? image, Unbroken detail := by
  have title : Unbroken "Disassembly of " := by decide
  have colon : Unbroken ":" := by decide
  rw [codeLines, List.forall_mem_cons, unbroken_append, unbroken_append, List.forall_mem_map]
  simp only [title, colon, true_and, and_true, unbroken_line_iff]

theorem unbroken_lines_iff : (∀ shown ∈ lines image, Unbroken shown) ↔ ShowsUnbroken image := by
  have blank : Unbroken "" := by decide
  rw [lines_eq, ShowsUnbroken, List.forall_mem_append, List.forall_mem_cons,
    unbroken_codeLines_iff, List.forall_mem_flatMap]
  simp only [List.forall_mem_cons, blank, true_and, unbroken_codeLines_iff]

/-- The text that a constant shows, where it is not a number. -/
def heldText? : Constant → Option String
  | .text value => some value
  | .code inner => some inner.file
  | .none | .int _ | .float _ => none

theorem unbroken_constantText {constant : Constant}
    (unbroken : ∀ shown ∈ heldText? constant, Unbroken shown) :
    Unbroken (constantText constant) := by
  cases constant with
  | none => decide
  | int value => exact unbroken_int value.toInt
  | float value => exact unbroken_double value
  | text value =>
      have quote : Unbroken "'" := by decide
      rw [constantText, unbroken_append, unbroken_append]
      exact ⟨⟨quote, unbroken value rfl⟩, quote⟩
  | code inner =>
      rw [constantText, unbroken_append, unbroken_append]
      exact ⟨⟨by decide, unbroken inner.file rfl⟩, by decide⟩

theorem unbroken_comparison (comparison : Comparison) : Unbroken comparison.text := by
  cases comparison <;> decide

/-- What an operand stands for has a line feed only where an entry of a table has. -/
theorem unbroken_detail {op : Opcode} {operand next : Nat} {detail : String}
    (names : ∀ name ∈ image.names, Unbroken name)
    (constants : ∀ constant ∈ image.constants, ∀ shown ∈ heldText? constant, Unbroken shown)
    (shown : Listing.detail? image op operand next = some detail) : Unbroken detail := by
  have missing : Unbroken "?" := by decide
  have target (offset : Nat) : Unbroken ("to " ++ toString offset) :=
    unbroken_append.mpr ⟨by decide, unbroken_nat offset⟩
  unfold Listing.detail? at shown
  split at shown
  · obtain rfl := Option.some.inj shown
    cases found : image.constants[operand]? with
    | none => exact missing
    | some constant =>
        exact unbroken_constantText (constants constant (List.mem_of_getElem? found))
  split at shown
  · obtain rfl := Option.some.inj shown
    cases found : image.names[operand]? with
    | none => exact missing
    | some name => exact names name (List.mem_of_getElem? found)
  split at shown
  · obtain rfl := Option.some.inj shown
    cases Comparison.ofOperand? operand with
    | none => exact missing
    | some comparison => exact unbroken_comparison comparison
  split at shown
  · exact Option.some.inj shown ▸ target operand
  split at shown
  · exact Option.some.inj shown ▸ target (next + operand)
  · cases shown

/-- No text in an image or in the images nested in it has a line feed. -/
def HoldsUnbroken (image : Image) : Prop :=
  ∀ code ∈ image :: image.nested, Unbroken code.file ∧ (∀ name ∈ code.names, Unbroken name) ∧
    ∀ constant ∈ code.constants, ∀ shown ∈ heldText? constant, Unbroken shown

theorem HoldsUnbroken.shows (holds : HoldsUnbroken image) : ShowsUnbroken image := by
  intro code listed
  obtain ⟨file, names, constants⟩ := holds code listed
  refine ⟨file, fun entry _ detail shown => ?_⟩
  unfold Entry.detail? at shown
  split at shown
  · split at shown
    · exact unbroken_detail names constants shown
    · cases shown
  all_goals cases shown

/-- A listing has one header for each image, one line for each entry of its code, and a blank line
before each nested image.  It is read as these lines just where no text that it shows has a line
feed, as is the case where no text of the images has one; each line feed in such a text is read as
the end of one more line. -/
theorem listing_linewise (image : Image) :
    lines image = codeLines image ++ (image.nested.flatMap fun inner => "" :: codeLines inner) ∧
    (∀ code : Image, codeLines code = ("Disassembly of " ++ code.file ++ ":") ::
      (entries code.bytecode).map (line code)) ∧
    (Lines.read (text image) = lines image ↔ ShowsUnbroken image) ∧
    (HoldsUnbroken image → Lines.read (text image) = lines image) ∧
    (Lines.read (text image)).length =
      (lines image).length + ((lines image).map fun line => line.toList.count '\n').sum := by
  have linewise : Lines.read (text image) = lines image ↔ ShowsUnbroken image := by
    rw [text, Lines.read_text_iff, unbroken_lines_iff]
  exact ⟨lines_eq image, fun _ => rfl, linewise, fun holds => linewise.mpr holds.shows,
    Lines.length_read_text (lines image)⟩

/-- Code that loads a text with a line feed: its one entry is listed in two lines. -/
theorem listing_breaks :
    entries #[100, 0, 0] = [⟨0, .instruction .loadConst 0 3⟩] ∧
    CodeImage.nested ⟨"m", #[100, 0, 0], [.text "a\nb"], []⟩ = [] ∧
    (Lines.read (text ⟨"m", #[100, 0, 0], [.text "a\nb"], []⟩)).length = 3 ∧
    Lines.read (text ⟨"m", #[100, 0, 0], [.text "a\nb"], []⟩) ≠
      lines ⟨"m", #[100, 0, 0], [.text "a\nb"], []⟩ := by
  have listed : entries #[100, 0, 0] = [⟨0, .instruction .loadConst 0 3⟩] := by decide +kernel
  have shown : lines ⟨"m", #[100, 0, 0], [.text "a\nb"], []⟩ =
      ["Disassembly of m:", "    0 LOAD_CONST           0 ('a\nb')"] := by
    rw [lines_eq, codeLines, listed]
    decide +kernel
  have counted : (Lines.read (text ⟨"m", #[100, 0, 0], [.text "a\nb"], []⟩)).length = 3 := by
    rw [text, Lines.length_read_text, shown]
    decide +kernel
  refine ⟨listed, rfl, counted, fun same => ?_⟩
  rw [same, shown] at counted
  exact absurd counted (by decide)

end StackMachine.Listing
