import FieldCamera.Text.Blank
/-!
# The integer at the front of a text

Numbers in forms, headers and addresses are read leniently: blanks are skipped, a sign may follow,
then digits up to the first other character. No text is refused, and a number out of range becomes
the nearest one in range.
-/

namespace FieldCamera.Number

/-- The greatest signed number of 64 bits. -/
def greatest : Nat := 0x7FFFFFFFFFFFFFFF

/-- Appends a decimal digit, stopping at `greatest` after each of the two operations. -/
def appendDigit (n : Nat) (c : Char) : Nat :=
  min (min (n * 10) greatest + (c.toNat - '0'.toNat)) greatest

/-- The value of the digits at the front, zero without any. -/
def leadingNat (cs : List Char) : Nat :=
  (cs.takeWhile Char.isDigit).foldl appendDigit 0

/-- The integer at the front, after blanks and at most one sign. -/
def leading (cs : List Char) : Int :=
  match Text.trimStart cs with
  | '-' :: ds => - (leadingNat ds : Int)
  | '+' :: ds => leadingNat ds
  | ds => leadingNat ds

/-- The integer at the front of a text. -/
def ofText (s : String) : Int :=
  leading s.toList

/-- The nearest number that a 32-bit field can hold. -/
def clamp32 (n : Int) : Int32 :=
  Int32.ofInt (max (-0x80000000) (min n 0x7FFFFFFF))

/-- The port a text names, if it is one: a number from 1 to 65535. -/
def port? (cs : List Char) : Option UInt16 :=
  let n := leading cs
  if 0 < n ∧ n < 65536 then some n.toNat.toUInt16 else none

end FieldCamera.Number
