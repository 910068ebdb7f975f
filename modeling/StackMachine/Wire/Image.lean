import StackMachine.Image
import StackMachine.Wire.Basic

/-!
# Stored images

An image is stored as its file name, its bytecode, its constants and its names.
A constant starts with a tag for its alternative; a nested image follows its tag
as a whole image.
-/

namespace StackMachine

mutual

/-- The stored form of an image. -/
def CodeImage.encode : Image → List UInt8
  | { file, bytecode, constants, names } =>
      Wire.encodeText file ++ Wire.encodeBytes bytecode.toList ++
        Wire.encodeNat constants.length ++ Constant.encodeAll constants ++
        Wire.encodeNat names.length ++ names.flatMap Wire.encodeText

/-- The stored form of a constant. -/
def Constant.encode : Constant → List UInt8
  | .none => Wire.encodeNat 0
  | .int value => Wire.encodeNat 1 ++ Wire.encodeInt64 value
  | .float value => Wire.encodeNat 2 ++ Wire.encodeDouble value
  | .text value => Wire.encodeNat 3 ++ Wire.encodeText value
  | .code image => Wire.encodeNat 4 ++ CodeImage.encode image

/-- The stored forms of some constants, one after the other. -/
def Constant.encodeAll : List Constant → List UInt8
  | [] => []
  | constant :: rest => Constant.encode constant ++ Constant.encodeAll rest

end

/-- Read a constant, with `image` to read a nested image. -/
def Constant.decoder (image : Wire.Decoder Image) : Wire.Decoder Constant := do
  match (← Wire.nat32) with
  | 0 => return .none
  | 1 => return .int (← Wire.int64)
  | 2 => return .float (← Wire.double)
  | 3 => return .text (← Wire.text)
  | 4 => return .code (← image)
  | _ => throw .badValue

/-- Read an image nested at most `depth` deep. -/
def CodeImage.decoder : (depth : Nat) → Wire.Decoder Image
  | 0 => throw .unexpectedEnd
  | depth + 1 => do
      let file ← Wire.text
      let bytecode ← Wire.byteString
      let constants ← Wire.sequence (Constant.decoder (CodeImage.decoder depth))
      let names ← Wire.sequence Wire.text
      return { file, bytecode := bytecode.toArray, constants, names }

/-- Read a stored image.  Nesting takes bytes, so an image is never nested
deeper than its stored form is long. -/
def CodeImage.decode (input : List UInt8) : Except Wire.DecodeError Image :=
  Wire.decode (CodeImage.decoder (input.length + 1)) input

end StackMachine
