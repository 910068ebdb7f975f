/-!
# Columns of text

Listings and traces print their fields in columns.  A field shorter than its
column is filled with blanks on one side; a longer one is printed whole.
-/

namespace StackMachine.Columns

/-- As many blanks as `text` lacks to be `width` characters wide. -/
def padding (width : Nat) (text : String) : String :=
  String.ofList (List.replicate (width - text.length) ' ')

/-- `text` at the right edge of a column. -/
def right (width : Nat) (text : String) : String :=
  padding width text ++ text

/-- `text` at the left edge of a column. -/
def left (width : Nat) (text : String) : String :=
  text ++ padding width text

end StackMachine.Columns
