import FieldCamera.Number.Places
/-!
# Spans of time

Spans are counted in milliseconds. Messages write them in the largest unit that is not more than
the span, with the fraction that is left and without trailing zeros.
-/

namespace FieldCamera.Span

/-- The fraction `n / 1000` behind its point, empty for zero. -/
def fractionText (n : Nat) : String :=
  if n % 1000 = 0 then ""
  else if n % 100 = 0 then "." ++ toString (n / 100)
  else if n % 10 = 0 then "." ++ Number.padded 2 (n / 10)
  else "." ++ Number.padded 3 n

def text (ms : Nat) : String :=
  if ms = 0 then "0ns"
  else if ms < 1000 then s!"{ms}ms"
  else toString (ms / 1000) ++ fractionText (ms % 1000) ++ "s"

end FieldCamera.Span
