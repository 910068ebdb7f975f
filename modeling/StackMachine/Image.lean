import StackMachine.Number.Double
import StackMachine.Text.Bytes

/-!
# Code images

An image is code at rest: the name of the file it came from, its bytes, and the
tables of constants and names that operands index.  A constant may be the image
of a function, so images nest.
-/

namespace StackMachine

/-- Code whose constants are of type `κ`. -/
structure CodeImage (κ : Type) where
  file : String
  bytecode : Bytes
  constants : List κ
  names : List String

/-- An entry of a table of constants. -/
inductive Constant where
  | none
  | int (value : Int64)
  | float (value : Double)
  | text (value : String)
  | code (image : CodeImage Constant)

/-- A code image. -/
abbrev Image := CodeImage Constant

mutual

/-- The file names of an image and of all images nested in it, outermost
first. -/
def CodeImage.files : Image → List String
  | { file, constants, .. } => file :: Constant.allFiles constants

/-- The file names of the images nested in a constant. -/
def Constant.files : Constant → List String
  | .code image => CodeImage.files image
  | _ => []

/-- The file names of the images nested in a table of constants. -/
def Constant.allFiles : List Constant → List String
  | [] => []
  | constant :: rest => Constant.files constant ++ Constant.allFiles rest

end

end StackMachine
