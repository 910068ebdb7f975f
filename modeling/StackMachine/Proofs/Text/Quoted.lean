import Mathlib
import StackMachine.Text.Quoted

/-!
# Quoted strings are told apart

What a character becomes between quotes tells which one it was and where it ends, and it is never
taken for the quote at the end.  So a quoted string is known from the text that begins with it.
-/

namespace StackMachine.Quoted

/-- A character is written with a backslash, or stands for itself and is neither a quote nor a
backslash. -/
theorem escape_cases (character : Char) :
    (∃ sign, escape character = ['\\', sign] ∧
      ∀ other, escape other = ['\\', sign] → other = character) ∨
    escape character = [character] ∧ character ≠ '\'' ∧ character ≠ '\\' := by
  unfold escape
  split
  case h_5 quote slash _ _ => exact Or.inr ⟨rfl, quote, slash⟩
  all_goals
    refine Or.inl ⟨_, rfl, fun other => ?_⟩
    split <;> simp_all

/-- The text that begins with a written character tells which one it is. -/
theorem escape_cancel {first second : Char} {rest others : List Char}
    (same : escape first ++ rest = escape second ++ others) : first = second ∧ rest = others := by
  rcases escape_cases first with ⟨sign, written, only⟩ | ⟨written, quote, slash⟩ <;>
    rcases escape_cases second with ⟨sign', written', only'⟩ | ⟨written', quote', slash'⟩ <;>
    rw [written, written'] at same
  · simp only [List.cons_append, List.nil_append, List.cons.injEq, true_and] at same
    obtain ⟨rfl, rest_eq⟩ := same
    exact ⟨(only second written').symm, rest_eq⟩
  · simp only [List.cons_append, List.nil_append, List.cons.injEq] at same
    exact absurd same.1.symm slash'
  · simp only [List.cons_append, List.nil_append, List.cons.injEq] at same
    exact absurd same.1 slash
  · simpa using same

/-- No written character begins with the quote that ends a string. -/
theorem escape_append_ne (character : Char) (rest others : List Char) :
    escape character ++ rest ≠ '\'' :: others := by
  rcases escape_cases character with ⟨sign, written, -⟩ | ⟨written, quote, -⟩ <;>
    rw [written]
  · simp
  · simpa using fun same => absurd same quote

theorem escapes_cancel {first second rest others : List Char}
    (same : first.flatMap escape ++ '\'' :: rest = second.flatMap escape ++ '\'' :: others) :
    first = second ∧ rest = others := by
  induction first generalizing second with
  | nil =>
      cases second with
      | nil => simpa using same
      | cons character second =>
          rw [List.flatMap_cons, List.append_assoc] at same
          exact absurd same.symm (escape_append_ne character _ _)
  | cons character first ih =>
      cases second with
      | nil =>
          rw [List.flatMap_cons, List.append_assoc] at same
          exact absurd same (escape_append_ne character _ _)
      | cons other second =>
          rw [List.flatMap_cons, List.flatMap_cons, List.append_assoc, List.append_assoc] at same
          obtain ⟨rfl, later⟩ := escape_cancel same
          obtain ⟨rfl, rest_eq⟩ := ih later
          exact ⟨rfl, rest_eq⟩

theorem toList_encode (text : String) :
    (encode text).toList = '\'' :: (text.toList.flatMap escape ++ ['\'']) := by
  rw [encode, String.toList_ofList]
  rfl

/-- The text that begins with a quoted string tells which one it is, and what follows. -/
theorem encode_cancel {first second : String} {rest others : List Char}
    (same : (encode first).toList ++ rest = (encode second).toList ++ others) :
    first = second ∧ rest = others := by
  rw [toList_encode, toList_encode] at same
  simp only [List.cons_append, List.append_assoc, List.nil_append, List.cons.injEq,
    true_and] at same
  obtain ⟨texts, rest_eq⟩ := escapes_cancel same
  exact ⟨String.toList_inj.mp texts, rest_eq⟩

end StackMachine.Quoted
