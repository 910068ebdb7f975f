import StackMachine.Image
import StackMachine.Store.Roots

/-!
# Loading images

An image becomes an object of the store, with its constants as objects and nested
images as code objects of their own.  Where one of them cannot be made, what was
made before it is given back.
-/

namespace StackMachine.StoreM

variable {τ : Type} [Tracker τ]

mutual

/-- Load an image. -/
def loadImage : Image → StoreM τ Ref
  | { file, bytecode, constants, names } => do
      let loaded ← loadConstants constants #[]
      allocate (.code { file, bytecode, names := names.toArray, constants := loaded })

/-- Load a constant. -/
def loadConstant : Constant → StoreM τ Ref
  | .none => acquire .noneObject
  | .int value => allocate (.int value)
  | .float value => allocate (.float value)
  | .text value => allocate (.string (Bytes.ofString value))
  | .code image => loadImage image

/-- Load constants, after the ones loaded already. -/
def loadConstants : List Constant → Array Ref → StoreM τ (Array Ref)
  | [], loaded => pure loaded
  | constant :: rest, loaded => do
      match ← Outcome.attempt (loadConstant constant) with
      | .ok ref => loadConstants rest (loaded.push ref)
      | .error cause => do
          releaseAll loaded.toList
          raise cause

end

end StackMachine.StoreM
