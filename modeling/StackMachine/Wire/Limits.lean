import StackMachine.Limits
import StackMachine.Wire.Basic

/-!
# Stored limits

Limits are stored in a fixed order, each as an optional value.  A span of time is
its seconds and then its nanoseconds; nanoseconds that make up whole seconds are
carried over when it is read.
-/

namespace StackMachine

/-- The stored form of a duration. -/
def Duration.encode (span : Duration) : List UInt8 :=
  Wire.encodeNat span.seconds ++ Wire.encodeNat span.nanos

/-- Read a duration.  Its seconds are below `2 ^ 64`. -/
def Duration.decoder : Wire.Decoder Duration := do
  let seconds ← Wire.nat64
  let nanos ← Wire.nat32
  let total := seconds + nanos / 1000000000
  if total < 0x10000000000000000 then return ⟨total, nanos % 1000000000⟩ else throw .badValue

namespace Limits

/-- The stored form of some limits. -/
def encode (limits : Limits) : List UInt8 :=
  Wire.encodeOption Wire.encodeNat limits.operations ++
    Wire.encodeOption Wire.encodeNat limits.allocations ++
    Wire.encodeOption Duration.encode limits.duration ++
    Wire.encodeOption Wire.encodeNat limits.memory ++
    Wire.encodeOption Wire.encodeNat limits.recursion

/-- Read limits. -/
def decoder : Wire.Decoder Limits := do
  let operations ← Wire.option Wire.nat64
  let allocations ← Wire.option Wire.nat64
  let duration ← Wire.option Duration.decoder
  let memory ← Wire.option Wire.nat64
  let recursion ← Wire.option Wire.nat64
  return { operations, allocations, duration, memory, recursion }

/-- Read stored limits. -/
def decode (input : List UInt8) : Except Wire.DecodeError Limits :=
  Wire.decode decoder input

end Limits

end StackMachine
