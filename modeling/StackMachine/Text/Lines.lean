/-!
# Lines of text

A text that is printed is put together from lines, and every line is ended.
-/

namespace StackMachine.Lines

/-- The text of some lines, each of them ended. -/
def text (lines : List String) : String :=
  String.join (lines.map (· ++ "\n"))

end StackMachine.Lines
