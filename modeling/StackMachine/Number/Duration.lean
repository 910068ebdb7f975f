/-!
# Spans of time

A duration is a number of seconds and nanoseconds.  It is printed in the
largest unit of which it holds at least one, with the fraction written out and
no trailing zeros.
-/

namespace StackMachine

/-- A span of time; `nanos` stays below one second. -/
structure Duration where
  seconds : Nat
  nanos : Nat
  deriving DecidableEq, Repr, Inhabited

namespace Duration

/-- A span given in milliseconds. -/
def ofMillis (millis : Nat) : Duration :=
  ⟨millis / 1000, millis % 1000 * 1000000⟩

/-- The span in nanoseconds. -/
def totalNanos (span : Duration) : Nat :=
  span.seconds * 1000000000 + span.nanos

/-- The digits after the point of `part / 10 ^ places`, without trailing
zeros. -/
def fractionDigits (places part : Nat) : List Char :=
  let digits := (toString part).toList
  let padded := List.replicate (places - digits.length) '0' ++ digits
  (padded.reverse.dropWhile (· == '0')).reverse

/-- `whole + part / 10 ^ places` in some unit. -/
def decimal (whole places part : Nat) (unit : String) : String :=
  let digits := fractionDigits places part
  toString whole ++ (if digits.isEmpty then "" else "." ++ String.ofList digits) ++ unit

/-- The text of a duration. -/
def toText (span : Duration) : String :=
  if 0 < span.seconds then
    decimal span.seconds 9 span.nanos "s"
  else if 1000000 ≤ span.nanos then
    decimal (span.nanos / 1000000) 6 (span.nanos % 1000000) "ms"
  else if 1000 ≤ span.nanos then
    decimal (span.nanos / 1000) 3 (span.nanos % 1000) "µs"
  else
    decimal span.nanos 0 0 "ns"

end Duration

end StackMachine
