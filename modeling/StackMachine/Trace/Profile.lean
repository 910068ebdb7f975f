import StackMachine.Text.Lines
import StackMachine.Trace.Event

/-!
# Profiles

A profile counts the instructions that were carried out, in all and for each
operation code, the frames entered and the unwindings, and keeps the greatest
depths of frames and blocks.
-/

namespace StackMachine

/-- What was counted.  `counts` has a place for every byte that may be an
operation code. -/
structure Profile where
  counts : Array Nat
  instructions : Nat
  maxDepth : Nat
  calls : Nat
  unwindings : Nat
  maxBlocks : Nat

namespace Profile

/-- Nothing counted yet. -/
def start : Profile :=
  ⟨Array.replicate 256 0, 0, 0, 0, 0, 0⟩

/-- Count an event. -/
def observe (profile : Profile) : Event → Profile
  | .instruction _ op _ _ =>
      { profile with
        counts := profile.counts.modify op.byte.toNat (· + 1)
        instructions := profile.instructions + 1 }
  | .entered _ depth =>
      { profile with calls := profile.calls + 1, maxDepth := max profile.maxDepth depth }
  | .unwound _ _ => { profile with unwindings := profile.unwindings + 1 }
  | .pushed _ depth => { profile with maxBlocks := max profile.maxBlocks depth }
  | .left _ | .popped _ => profile

/-- How often an operation code was carried out. -/
def count (profile : Profile) (op : Opcode) : Nat :=
  profile.counts[op.byte.toNat]?.getD 0

/-- The operation codes that were carried out and how often, most often first;
among equals the smaller byte first. -/
def ranking (profile : Profile) : List (Opcode × Nat) :=
  let counted := Opcode.all.filterMap fun op =>
    if profile.count op = 0 then none else some (op, profile.count op)
  counted.mergeSort fun left right => right.2 ≤ left.2

/-- The first line of a printed profile. -/
def headline (profile : Profile) : String :=
  "instructions " ++ toString profile.instructions ++ ", frames " ++ toString profile.calls ++
    " (max depth " ++ toString profile.maxDepth ++ "), unwinds " ++
    toString profile.unwindings ++ ", max blocks " ++ toString profile.maxBlocks

/-- The line of an operation code that was carried out `count` times. -/
def countLine (op : Opcode) (count : Nat) : String :=
  Columns.right 10 (toString count) ++ "  " ++ op.name

/-- The printed form of a profile. -/
def text (profile : Profile) : String :=
  Lines.text (profile.headline :: profile.ranking.map fun (op, count) => countLine op count)

end Profile

end StackMachine
