import FieldCamera.Number.Nearest
import FieldCamera.Text.Cut
import FieldCamera.Text.Hex
/-!
# Numbers in TOML

Integers are decimal with an optional sign, or hexadecimal, octal or binary without one. Floats have
a fraction or an exponent. An underscore may part two digits.
-/

namespace FieldCamera.Toml

/-- The digits of a number in some base, without the underscores that part them. -/
def digitValues? (base : Nat) (cs : List Char) : Option (List Nat) :=
  let groups := Text.pieces '_' cs
  if [] ∈ groups then none
  else (groups.flatten.mapM Text.hexValue?).filter fun ds => ds.all (· < base)

def ofDigits (base : Nat) (ds : List Nat) : Nat :=
  ds.foldl (fun n d => n * base + d) 0

/-- The digits of a decimal number that starts with a zero only if it is zero. -/
def decimalDigits? (cs : List Char) : Option (List Nat) :=
  (digitValues? 10 cs).filter fun ds => ds.length = 1 ∨ ds.head? ≠ some 0

/-- Whether a number has a minus, and its text behind the sign. -/
def signed : List Char → Bool × List Char
  | '-' :: cs => (true, cs)
  | '+' :: cs => (false, cs)
  | cs => (false, cs)

/-- An integer. It has to fit 64 bits with a sign. -/
def integer? (cs : List Char) : Option Int :=
  let read : Option Int :=
    match cs with
    | '0' :: 'x' :: cs => (digitValues? 16 cs).map fun ds => ofDigits 16 ds
    | '0' :: 'o' :: cs => (digitValues? 8 cs).map fun ds => ofDigits 8 ds
    | '0' :: 'b' :: cs => (digitValues? 2 cs).map fun ds => ofDigits 2 ds
    | cs =>
      let (negative, cs) := signed cs
      (decimalDigits? cs).map fun ds =>
        if negative then - (ofDigits 10 ds : Int) else ofDigits 10 ds
  read.filter fun n => -0x8000000000000000 ≤ n ∧ n < 0x8000000000000000

/-- The power of ten behind an `e`. -/
def exponent? (cs : List Char) : Option Int :=
  let (negative, cs) := signed cs
  (digitValues? 10 cs).map fun ds =>
    if negative then - (ofDigits 10 ds : Int) else ofDigits 10 ds

/-- What stands before the exponent, and the exponent if there is one. -/
def cutExponent (cs : List Char) : List Char × Option (List Char) :=
  let isMark (c : Char) : Bool := c == 'e' || c == 'E'
  (cs.takeWhile (!isMark ·), (cs.dropWhile (!isMark ·)).tail?)

/-- A float. A positive one beyond the range is refused, a negative one becomes infinite. -/
def float? (cs : List Char) : Option Float :=
  let (negative, body) := signed cs
  if body = "inf".toList then
    some (Float.ofBits (Number.infinityBits + if negative then Number.signBit else 0).toUInt64)
  else if body = "nan".toList then some (0.0 / 0.0)
  else do
    let (front, exponentText) := cutExponent body
    let power ← match exponentText with
      | some e => exponent? e
      | none => some 0
    let (whole, places) ← match Text.cut '.' front with
      | some (whole, places) => do
        let ds ← digitValues? 10 places
        some (whole, ds)
      | none => if exponentText.isSome then some (front, []) else none
    let ds ← decimalDigits? whole
    let x := Number.ofDecimal negative (ofDigits 10 (ds ++ places)) (power - places.length)
    if x.isInf ∧ ¬ negative then none else some x

end FieldCamera.Toml
