/-!
# Quoted strings

A string inside a printed value stands between single quotes.  A quote, a
backslash, a line feed and a tab inside it are written with a backslash; every
other character stands for itself.
-/

namespace StackMachine.Quoted

/-- One character as it stands between the quotes. -/
def escape : Char → List Char
  | '\'' => ['\\', '\'']
  | '\\' => ['\\', '\\']
  | '\n' => ['\\', 'n']
  | '\t' => ['\\', 't']
  | character => [character]

/-- The characters of a text as they stand between the quotes. -/
def body (text : String) : List Char :=
  text.toList.flatMap escape

/-- A text between quotes. -/
def encode (text : String) : String :=
  String.ofList ('\'' :: body text ++ ['\''])

end StackMachine.Quoted
