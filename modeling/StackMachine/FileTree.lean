/-!
# Files by their paths

A path is walked name by name, from the root if it starts with a slash and from
the working directory if not.  Every name, the empty one after a last slash
included, needs a directory to be looked up in.  A dot stays in a directory and
two dots go to the one around it; the root is around itself.

A path that leads nowhere, to a directory or through a file cannot be read, and
neither can one that is too long as a whole or in one of its names.
-/

namespace StackMachine

/-- Why a file cannot be read. -/
inductive ReadFailure where
  | missing
  | denied
  | notDirectory
  | isDirectory
  | tooLong
  | other (description : String)
  deriving DecidableEq, Repr

namespace ReadFailure

/-- What is printed, given a description and the number the system has for the
failure. -/
def describe (description : String) (code : Nat) : String :=
  description ++ " (os error " ++ toString code ++ ")"

/-- The text of a failure. -/
def message : ReadFailure → String
  | missing => describe "No such file or directory" 2
  | denied => describe "Permission denied" 13
  | notDirectory => describe "Not a directory" 20
  | isDirectory => describe "Is a directory" 21
  | tooLong => describe "File name too long" 36
  | other description => description

/-- The failure the system has a number for. -/
def ofCode? : Nat → Option ReadFailure
  | 2 => some missing
  | 13 => some denied
  | 20 => some notDirectory
  | 21 => some isDirectory
  | 36 => some tooLong
  | _ => none

end ReadFailure

/-- A file, or a directory of named entries. -/
inductive FileNode where
  | file (contents : List UInt8)
  | directory (entries : List (String × FileNode))
  deriving Inhabited

/-- The files a program sees: the root, and the names that lead from it to the
working directory. -/
structure FileTree where
  root : FileNode
  working : List String

namespace FileTree

/-- How many bytes a name may have. -/
def maxNameBytes : Nat := 255

/-- How many bytes a path may have. -/
def maxPathBytes : Nat := 4095

/-- Walk along names from a node.  `around` has the directories around it,
innermost first. -/
def walk : List String → (around : List FileNode) → FileNode → Except ReadFailure FileNode
  | [], _, node => .ok node
  | _ :: _, _, .file _ => .error .notDirectory
  | name :: rest, around, .directory entries =>
      if name = "" ∨ name = "." then
        walk rest around (.directory entries)
      else if name = ".." then
        match around with
        | parent :: around => walk rest around parent
        | [] => walk rest [] (.directory entries)
      else if maxNameBytes < name.utf8ByteSize then
        .error .tooLong
      else
        match entries.lookup name with
        | some node => walk rest (.directory entries :: around) node
        | none => .error .missing

/-- The names a path is walked along from the root. -/
def names (tree : FileTree) (path : String) : List String :=
  if path.startsWith "/" then path.splitOn "/" else tree.working ++ path.splitOn "/"

/-- The contents of the file at a path. -/
def read (tree : FileTree) (path : String) : Except ReadFailure (List UInt8) :=
  if path = "" then
    .error .missing
  else if maxPathBytes < path.utf8ByteSize then
    .error .tooLong
  else
    match walk (tree.names path) [] tree.root with
    | .ok (.file contents) => .ok contents
    | .ok (.directory _) => .error .isDirectory
    | .error failure => .error failure

end FileTree

end StackMachine
