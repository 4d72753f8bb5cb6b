import Handoff.Clock

/-!
# Spans in words

A span is written in the largest unit of which it holds at least one (seconds, milliseconds,
microseconds, nanoseconds), as a decimal fraction without zeros at its end: `1.5ms`, `999ns`, `2s`.
-/

namespace Handoff

/-- The digits of `n < 10 ^ places` after a decimal point: padded to `places` digits, and without
zeros at the end. -/
def fractionDigits (n places : Nat) : List Char :=
  let digits := Nat.toDigits 10 n
  let padded := List.replicate (places - digits.length) '0' ++ digits
  (padded.reverse.dropWhile (· = '0')).reverse

/-- The quotient of `n` by `10 ^ places`, in decimal notation. -/
def decimal (n places : Nat) : String :=
  let whole := toString (n / Nat.pow 10 places)
  match n % Nat.pow 10 places with
  | 0 => whole
  | rest => whole ++ "." ++ String.ofList (fractionDigits rest places)

/-- A span in words. -/
def Span.text (span : Span) : String :=
  let n := span.nanoseconds
  if 1000000000 ≤ n then decimal n 9 ++ "s"
  else if 1000000 ≤ n then decimal n 6 ++ "ms"
  else if 1000 ≤ n then decimal n 3 ++ "µs"
  else decimal n 0 ++ "ns"

end Handoff
