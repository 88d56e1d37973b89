import FieldCamera.Text.Cut
/-!
# Status lines

A status line is `HTTP/1.1` or `HTTP/1.0`, a space and three digits, and then nothing more or a
space and any text.
-/

namespace FieldCamera.Upload

def protocols : List (List Char) :=
  ["HTTP/1.1 ".toList, "HTTP/1.0 ".toList]

/-- The number of three digits. -/
def threeDigits? (a b c : Char) : Option Nat :=
  if a.isDigit && b.isDigit && c.isDigit then
    some ((a.toNat - '0'.toNat) * 100 + (b.toNat - '0'.toNat) * 10 + (c.toNat - '0'.toNat))
  else none

/-- The code at the front of what follows the protocol. -/
def codeOf? : List Char → Option Nat
  | [a, b, c] => threeDigits? a b c
  | a :: b :: c :: ' ' :: _ => threeDigits? a b c
  | _ => none

/-- The code of a status line. -/
def statusCode? (line : List Char) : Option Nat :=
  (protocols.findSome? (Text.dropStart? · line)).bind codeOf?

end FieldCamera.Upload
