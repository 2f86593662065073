/-! # Durations as text

A duration counts milliseconds. From one second on it is written in seconds, with as many decimals
as are needed; below that in milliseconds; nothing at all is written in nanoseconds.
-/
namespace Reconciliation.Text

/-- The decimals of `ms` thousandths without trailing zeros, with their leading point. -/
def thousandths (ms : Nat) : String :=
  let digits := [ms / 100 % 10, ms / 10 % 10, ms % 10]
  let kept := (digits.reverse.dropWhile (· == 0)).reverse
  if kept.isEmpty then "" else "." ++ String.join (kept.map toString)

def duration (ms : Nat) : String :=
  if ms = 0 then "0ns"
  else if ms < 1000 then toString ms ++ "ms"
  else toString (ms / 1000) ++ thousandths (ms % 1000) ++ "s"

end Reconciliation.Text
