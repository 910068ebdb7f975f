import StackMachine.Object
import StackMachine.Proofs.Text.Numerals
import StackMachine.Proofs.Text.Quoted

/-!
# Printed values are told apart

Values that are made of `none`, integers, strings, lists, tuples and dictionaries are printed so
that no two of them have the same text.  The first character tells what is printed.  A value may
be followed by a comma or by the bracket that ends what it stands in, and none of these could be
part of a number; so where its text ends is known as well, whatever is nested in it.
-/

namespace StackMachine.Object

variable {α : Type} {first second : Object} {rest others : List Char}

/-- The value is made of `none`, integers, strings, lists, tuples and dictionaries. -/
inductive Structured : Object → Prop where
  | none : Structured .none
  | int (value : Int64) : Structured (.int value)
  | string (text : String) : Structured (.string text)
  | list {items : List Object} (parts : ∀ item ∈ items, Structured item) : Structured (.list items)
  | tuple {items : List Object} (parts : ∀ item ∈ items, Structured item) :
      Structured (.tuple items)
  | dict {entries : List (String × Object)} (parts : ∀ entry ∈ entries, Structured entry.2) :
      Structured (.dict entries)

/-! ## How a value is printed -/

theorem reprChars_none : reprChars .none = 'N' :: ['o', 'n', 'e'] := by
  have shown : reprChars .none = "None".toList := rfl
  rw [shown]
  decide +kernel

theorem reprChars_int (value : Int64) :
    reprChars (.int value) = (toString value.toInt).toList :=
  rfl

theorem reprChars_string (text : String) :
    reprChars (.string text) = (Quoted.encode text).toList :=
  rfl

/-- What is printed after a first value, with commas before each of them. -/
def joinedAfter (print : α → List Char) : List α → List Char
  | [] => []
  | value :: values => ',' :: ' ' :: (print value ++ joinedAfter print values)

/-- Values with commas between them. -/
def joined (print : α → List Char) : List α → List Char
  | [] => []
  | value :: values => print value ++ joinedAfter print values

theorem itemsChars_eq (items : List Object) : itemsChars items = joined reprChars items := by
  induction items with
  | nil => rfl
  | cons item items ih =>
      cases items with
      | nil => exact (List.append_nil (reprChars item)).symm
      | cons next items =>
          have step : itemsChars (item :: next :: items) =
              reprChars item ++ ',' :: ' ' :: itemsChars (next :: items) := rfl
          rw [step, ih]
          rfl

theorem entriesChars_eq (entries : List (String × Object)) :
    entriesChars entries = joined entryChars entries := by
  induction entries with
  | nil => rfl
  | cons entry entries ih =>
      cases entries with
      | nil => exact (List.append_nil (entryChars entry)).symm
      | cons next entries =>
          have step : entriesChars (entry :: next :: entries) =
              entryChars entry ++ ',' :: ' ' :: entriesChars (next :: entries) := rfl
          rw [step, ih]
          rfl

theorem reprChars_list (items : List Object) :
    reprChars (.list items) = '[' :: (joined reprChars items ++ [']']) := by
  rw [← itemsChars_eq]
  rfl

theorem reprChars_dict (entries : List (String × Object)) :
    reprChars (.dict entries) = '\x7b' :: (joined entryChars entries ++ ['\x7d']) := by
  rw [← entriesChars_eq]
  rfl

theorem entryChars_eq (key : String) (value : Object) :
    entryChars (key, value) = (Quoted.encode key).toList ++ ':' :: ' ' :: reprChars value :=
  rfl

/-- What stands behind the items of a tuple. -/
def tupleEnd : List Object → List Char
  | [_] => [',', ')']
  | _ => [')']

theorem reprChars_tuple (items : List Object) :
    reprChars (.tuple items) = '(' :: (joined reprChars items ++ tupleEnd items) := by
  rcases items with _ | ⟨item, _ | ⟨next, items⟩⟩
  · rfl
  · have one : joined reprChars [item] = reprChars item := List.append_nil _
    rw [one]
    rfl
  · rw [← itemsChars_eq]
    rfl

/-! ## How a printed value begins -/

/-- The type of the value whose text begins with a character. -/
def leadingType (character : Char) : String :=
  match character with
  | 'N' => "none"
  | '\'' => "string"
  | '[' => "list"
  | '(' => "tuple"
  | '\x7b' => "dictionary"
  | _ => "int"

/-- Characters that end what a value stands in. -/
def closers : List Char :=
  [']', ')', '\x7d']

/-- A character that a value may begin with, and that tells its type. -/
def Leads (character : Char) (object : Object) : Prop :=
  leadingType character = object.typeName ∧ character ∉ closers

theorem leads_int {character : Char} {value : Int64}
    (numeral : character = '-' ∨ character.isDigit) : Leads character (.int value) := by
  rcases numeral with rfl | digit
  · exact ⟨rfl, by decide⟩
  · constructor
    · unfold leadingType
      split <;> first | rfl | exact absurd digit (by decide)
    · intro closer
      have none : ∀ other ∈ closers, other.isDigit = false := by simp [closers]
      rw [none character closer] at digit
      exact Bool.false_ne_true digit

theorem exists_lead (structured : first.Structured) :
    ∃ character text, first.reprChars = character :: text ∧ Leads character first := by
  cases structured with
  | none =>
      have leads : Leads 'N' .none := ⟨rfl, by decide⟩
      exact ⟨_, _, reprChars_none, leads⟩
  | int value =>
      rw [reprChars_int]
      cases found : (toString value.toInt).toList with
      | nil =>
          have size := Numeral.nat_ne_nil value.toInt.natAbs
          rw [Numeral.toList_int] at found
          split at found <;> simp_all
      | cons character text =>
          have listed : character ∈ (toString value.toInt).toList := by
            rw [found]
            exact List.mem_cons_self
          exact ⟨character, text, rfl, leads_int (Numeral.of_mem_int listed)⟩
  | string text =>
      rw [reprChars_string, Quoted.toList_encode]
      exact ⟨_, _, rfl, rfl, by decide⟩
  | list parts => exact ⟨_, _, reprChars_list _, rfl, by decide⟩
  | tuple parts => exact ⟨_, _, reprChars_tuple _, rfl, by decide⟩
  | dict parts => exact ⟨_, _, reprChars_dict _, rfl, by decide⟩

/-- Values whose texts begin the same are of one type. -/
theorem typeName_eq (structured : first.Structured) (structured' : second.Structured)
    (same : first.reprChars ++ rest = second.reprChars ++ others) :
    first.typeName = second.typeName := by
  obtain ⟨character, text, written, leads⟩ := exists_lead structured
  obtain ⟨character', text', written', leads'⟩ := exists_lead structured'
  rw [written, written', List.cons_append, List.cons_append, List.cons.injEq] at same
  rw [← leads.1, ← leads'.1, same.1]

/-! ## What may follow a value -/

/-- What follows is not taken for part of a number. -/
def Follows (rest : List Char) : Prop :=
  ∀ character ∈ rest.head?, character ≠ '-' ∧ character.isDigit = false

theorem follows_comma (rest : List Char) : Follows (',' :: rest) := by
  simp [Follows]

theorem follows_closer {closer : Char} (closes : closer ∈ closers) (rest : List Char) :
    Follows (closer :: rest) := by
  have all : ∀ other ∈ closers, other ≠ '-' ∧ other.isDigit = false := by simp [closers]
  intro character head
  obtain rfl := Option.some.inj head
  exact all closer closes

/-- An integer ends where its digits end. -/
theorem takeWhile_int (number : Int) (follows : Follows rest) :
    ((toString number).toList ++ rest).takeWhile
      (fun character => character = '-' || character.isDigit) = (toString number).toList := by
  have numeral : ∀ character ∈ (toString number).toList,
      (decide (character = '-') || character.isDigit) = true := by
    intro character member
    simpa using Numeral.of_mem_int member
  rw [List.takeWhile_append_of_pos numeral]
  cases rest with
  | nil => simp
  | cons character rest =>
      obtain ⟨sign, digit⟩ := follows character rfl
      simp [sign, digit]

theorem int_cancel {number other : Int} (follows : Follows rest) (follows' : Follows others)
    (same : (toString number).toList ++ rest = (toString other).toList ++ others) :
    number = other ∧ rest = others := by
  have texts := takeWhile_int number follows
  rw [same, takeWhile_int other follows'] at texts
  rw [texts] at same
  rw [Int.toString_eq_repr, Int.toString_eq_repr] at texts
  exact ⟨Int.repr_injective (String.toList_inj.mp texts.symm), List.append_cancel_left same⟩

/-! ## Values one after the other -/

/-- The text of a value that is followed by something tells the value, and what follows. -/
def Cancels (print : α → List Char) (value : α) (admits : α → Prop) : Prop :=
  ∀ other rest others, admits other → Follows rest → Follows others →
    print value ++ rest = print other ++ others → value = other ∧ rest = others

section Joined

variable {print : α → List Char} {admits : α → Prop} {values values' : List α} {closer : Char}

theorem follows_joinedAfter (closes : closer ∈ closers) (values : List α) (rest : List Char) :
    Follows (joinedAfter print values ++ closer :: rest) := by
  cases values with
  | nil => exact follows_closer closes rest
  | cons value values => exact follows_comma _

theorem joinedAfter_cancel (closes : closer ∈ closers)
    (cancels : ∀ value ∈ values, Cancels print value admits)
    (admitted : ∀ value ∈ values', admits value)
    (same :
      joinedAfter print values ++ closer :: rest = joinedAfter print values' ++ closer :: others) :
    values = values' ∧ rest = others := by
  have comma : closer ≠ ',' := by
    rintro rfl
    exact absurd closes (by decide)
  induction values generalizing values' with
  | nil =>
      cases values' with
      | nil => simpa [joinedAfter] using same
      | cons value values' =>
          simp only [joinedAfter, List.nil_append, List.cons_append, List.cons.injEq] at same
          exact absurd same.1 comma
  | cons value values ih =>
      cases values' with
      | nil =>
          simp only [joinedAfter, List.nil_append, List.cons_append, List.cons.injEq] at same
          exact absurd same.1.symm comma
      | cons value' values' =>
          simp only [joinedAfter, List.cons_append, List.append_assoc, List.cons.injEq,
            true_and] at same
          rw [List.forall_mem_cons] at cancels admitted
          obtain ⟨rfl, later⟩ := cancels.1 value' _ _ admitted.1 (follows_joinedAfter closes _ _)
            (follows_joinedAfter closes _ _) same
          obtain ⟨rfl, rest_eq⟩ := ih cancels.2 admitted.2 later
          exact ⟨rfl, rest_eq⟩

/-- Values with commas between them are told apart if each of them is, and if none of them begins
like what ends them. -/
theorem joined_cancel (closes : closer ∈ closers)
    (begins : ∀ value, admits value → ∀ text text', print value ++ text ≠ closer :: text')
    (cancels : ∀ value ∈ values, Cancels print value admits)
    (admitted : ∀ value ∈ values, admits value)
    (admitted' : ∀ value ∈ values', admits value)
    (same : joined print values ++ closer :: rest = joined print values' ++ closer :: others) :
    values = values' ∧ rest = others := by
  rcases values with _ | ⟨value, values⟩ <;> rcases values' with _ | ⟨value', values'⟩
  · simpa [joined] using same
  · simp only [joined, List.nil_append, List.append_assoc] at same
    exact absurd same.symm (begins value' (admitted' value' List.mem_cons_self) _ _)
  · simp only [joined, List.nil_append, List.append_assoc] at same
    exact absurd same (begins value (admitted value List.mem_cons_self) _ _)
  · simp only [joined, List.append_assoc] at same
    rw [List.forall_mem_cons] at cancels admitted'
    obtain ⟨rfl, later⟩ := cancels.1 value' _ _ admitted'.1 (follows_joinedAfter closes _ _)
      (follows_joinedAfter closes _ _) same
    obtain ⟨rfl, rest_eq⟩ := joinedAfter_cancel closes cancels.2 admitted'.2 later
    exact ⟨rfl, rest_eq⟩

end Joined

/-! ## Values that are printed the same -/

/-- No value begins like the end of what it stands in. -/
theorem reprChars_append_ne {closer : Char} (closes : closer ∈ closers)
    (structured : first.Structured) (rest others : List Char) :
    first.reprChars ++ rest ≠ closer :: others := by
  obtain ⟨character, text, written, leads⟩ := exists_lead structured
  rw [written, List.cons_append]
  intro same
  obtain ⟨rfl, -⟩ := List.cons.inj same
  exact leads.2 closes

section Nested

variable {items : List Object} {entries : List (String × Object)}

theorem int_cancels (value : Int64) : Cancels reprChars (.int value) Structured := by
  intro other rest others structured follows follows' same
  have types := typeName_eq (.int value) structured same
  cases structured with
  | int value' =>
      rw [reprChars_int, reprChars_int] at same
      obtain ⟨values, rest_eq⟩ := int_cancel follows follows' same
      rw [Int64.toInt_inj.mp values]
      exact ⟨rfl, rest_eq⟩
  | none | string | list | tuple | dict => exact absurd types (by simp [typeName])

theorem string_cancels (text : String) : Cancels reprChars (.string text) Structured := by
  intro other rest others structured _ _ same
  have types := typeName_eq (.string text) structured same
  cases structured with
  | string text' =>
      rw [reprChars_string, reprChars_string] at same
      obtain ⟨rfl, rest_eq⟩ := Quoted.encode_cancel same
      exact ⟨rfl, rest_eq⟩
  | none | int | list | tuple | dict => exact absurd types (by simp [typeName])

theorem list_cancels (parts : ∀ item ∈ items, item.Structured)
    (cancels : ∀ item ∈ items, Cancels reprChars item Structured) :
    Cancels reprChars (.list items) Structured := by
  intro other rest others structured _ _ same
  have types := typeName_eq (.list parts) structured same
  cases structured with
  | list parts' =>
      simp only [reprChars_list, List.cons_append, List.append_assoc, List.nil_append,
        List.cons.injEq, true_and] at same
      obtain ⟨rfl, rest_eq⟩ := joined_cancel (by decide)
        (fun item structured => reprChars_append_ne (by decide) structured)
        cancels parts parts' same
      exact ⟨rfl, rest_eq⟩
  | none | int | string | tuple | dict => exact absurd types (by simp [typeName])

/-- What follows the first item of a tuple tells whether it is the only one. -/
theorem tupleRest_cancel {items items' : List Object} {item item' : Object}
    (cancels : ∀ item ∈ items, Cancels reprChars item Structured)
    (parts : ∀ item ∈ items', item.Structured)
    (same : joinedAfter reprChars items ++ (tupleEnd (item :: items) ++ rest) =
      joinedAfter reprChars items' ++ (tupleEnd (item' :: items') ++ others)) :
    items = items' ∧ rest = others := by
  rcases items with _ | ⟨second, items⟩ <;> rcases items' with _ | ⟨second', items'⟩
  · simpa [joinedAfter, tupleEnd] using same
  · simp [joinedAfter, tupleEnd] at same
  · simp [joinedAfter, tupleEnd] at same
  · exact joinedAfter_cancel (by decide) cancels parts same

theorem follows_tupleRest (item : Object) (items : List Object) (rest : List Char) :
    Follows (joinedAfter reprChars items ++ (tupleEnd (item :: items) ++ rest)) := by
  cases items with
  | nil => exact follows_comma _
  | cons next items => exact follows_comma _

theorem tuple_cancels (parts : ∀ item ∈ items, item.Structured)
    (cancels : ∀ item ∈ items, Cancels reprChars item Structured) :
    Cancels reprChars (.tuple items) Structured := by
  intro other rest others structured _ _ same
  have types := typeName_eq (.tuple parts) structured same
  cases structured with
  | @tuple items' parts' =>
      simp only [reprChars_tuple, List.cons_append, List.append_assoc, List.cons.injEq,
        true_and] at same
      rcases items with _ | ⟨item, items⟩ <;> rcases items' with _ | ⟨item', items'⟩
      · simpa [joined, tupleEnd] using same
      · simp only [joined, List.append_assoc, List.nil_append] at same
        exact absurd same.symm
          (reprChars_append_ne (by decide) (parts' item' List.mem_cons_self) _ _)
      · simp only [joined, List.append_assoc, List.nil_append] at same
        exact absurd same (reprChars_append_ne (by decide) (parts item List.mem_cons_self) _ _)
      · simp only [joined, List.append_assoc] at same
        rw [List.forall_mem_cons] at cancels parts'
        obtain ⟨rfl, later⟩ := cancels.1 item' _ _ parts'.1 (follows_tupleRest item items rest)
          (follows_tupleRest item' items' others) same
        obtain ⟨rfl, rest_eq⟩ := tupleRest_cancel cancels.2 parts'.2 later
        exact ⟨rfl, rest_eq⟩
  | none | int | string | list | dict => exact absurd types (by simp [typeName])

/-- An entry is known by its key and its value. -/
theorem entry_cancels {entry : String × Object} (cancels : Cancels reprChars entry.2 Structured) :
    Cancels entryChars entry fun other => other.2.Structured := by
  obtain ⟨key, value⟩ := entry
  rintro ⟨key', value'⟩ rest others structured follows follows' same
  simp only [entryChars_eq, List.append_assoc, List.cons_append] at same
  obtain ⟨rfl, later⟩ := Quoted.encode_cancel same
  simp only [List.cons.injEq, true_and] at later
  obtain ⟨rfl, rest_eq⟩ := cancels value' rest others structured follows follows' later
  exact ⟨rfl, rest_eq⟩

theorem entryChars_append_ne (entry : String × Object) (rest others : List Char) :
    entryChars entry ++ rest ≠ '\x7d' :: others := by
  obtain ⟨key, value⟩ := entry
  rw [entryChars_eq, Quoted.toList_encode]
  simp

theorem dict_cancels (parts : ∀ entry ∈ entries, entry.2.Structured)
    (cancels : ∀ entry ∈ entries, Cancels reprChars entry.2 Structured) :
    Cancels reprChars (.dict entries) Structured := by
  intro other rest others structured _ _ same
  have types := typeName_eq (.dict parts) structured same
  cases structured with
  | dict parts' =>
      simp only [reprChars_dict, List.cons_append, List.append_assoc, List.nil_append,
        List.cons.injEq, true_and] at same
      obtain ⟨rfl, rest_eq⟩ := joined_cancel (by decide)
        (fun entry _ => entryChars_append_ne entry)
        (fun entry member => entry_cancels (cancels entry member)) parts parts' same
      exact ⟨rfl, rest_eq⟩
  | none | int | string | list | tuple => exact absurd types (by simp [typeName])

end Nested

theorem none_cancels : Cancels reprChars .none Structured := by
  intro other rest others structured _ _ same
  have types := typeName_eq .none structured same
  cases structured with
  | none => exact ⟨rfl, List.append_cancel_left same⟩
  | int | string | list | tuple | dict => exact absurd types (by simp [typeName])

/-- The text of a value tells the value, and where it ends. -/
theorem Structured.cancels (structured : first.Structured) :
    Cancels reprChars first Structured := by
  induction structured with
  | none => exact none_cancels
  | int value => exact int_cancels value
  | string text => exact string_cancels text
  | list parts ih => exact list_cancels parts ih
  | tuple parts ih => exact tuple_cancels parts ih
  | dict parts ih => exact dict_cancels parts ih

/-- Values made of `none`, integers, strings, lists, tuples and dictionaries have the same printed
form only if they are the same. -/
theorem reprText_unambiguous (structured : first.Structured) (structured' : second.Structured) :
    first.reprText = second.reprText ↔ first = second := by
  constructor
  · intro same
    have texts : first.reprChars ++ [] = second.reprChars ++ [] := by
      rw [List.append_nil, List.append_nil]
      exact String.ofList_injective same
    exact (structured.cancels second [] [] structured' nofun nofun texts).1
  · rintro rfl
    rfl

/-- A list of one string, in which a quote, a comma and a quote stand, and a list of two. -/
theorem reprText_unambiguous_separator :
    (Object.list [.string "a', 'b"]).Structured ∧
    (Object.list [.string "a", .string "b"]).Structured ∧
    ((Object.list [.string "a', 'b"]).reprText = (Object.list [.string "a", .string "b"]).reprText ↔
      Object.list [.string "a', 'b"] = .list [.string "a", .string "b"]) := by
  have one : (Object.list [.string "a', 'b"]).Structured := .list (by simp [Structured.string])
  have two : (Object.list [.string "a", .string "b"]).Structured :=
    .list (by simp [Structured.string])
  exact ⟨one, two, reprText_unambiguous one two⟩

end StackMachine.Object
