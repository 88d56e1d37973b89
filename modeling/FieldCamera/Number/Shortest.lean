import FieldCamera.Number.Binary
/-!
# The shortest decimal that reads back

A decimal reads back as a floating-point number when it lies in the interval of reals that round
to it. Of the grids of multiples of a power of ten the coarsest that meets the interval gives the
fewest digits; on it the point nearest to the number is taken.
-/

namespace FieldCamera.Number

/-- A whole number times a power of ten. -/
structure Decimal where
  digits : Nat
  exponent : Int
  deriving DecidableEq, Repr

/-- The point of the grid of multiples of `10 ^ k` that is taken for `mantissa * 2 ^ exponent`, if
the grid meets the interval that rounds to it. All is measured in quarters of the last place. -/
def gridPoint? (mantissa : Nat) (exponent : Int) (atPower : Bool) (k : Int) : Option Nat :=
  let e := exponent - 2
  let step := Nat.pow 10 k.toNat * Nat.pow 2 (- e).toNat
  let unit := Nat.pow 2 e.toNat * Nat.pow 10 (- k).toNat
  let value := 4 * mantissa * unit
  let low := (4 * mantissa - (if atPower then 1 else 2)) * unit
  let high := (4 * mantissa + 2) * unit
  let inside (d : Nat) : Bool :=
    if mantissa % 2 = 0 then low ≤ d * step && d * step ≤ high
    else low < d * step && d * step < high
  let below := value / step
  let above := below + 1
  match inside below, inside above with
  | false, false => none
  | true, false => some below
  | false, true => some above
  | true, true =>
    let toBelow := value - below * step
    let toAbove := above * step - value
    if toBelow < toAbove then some below
    else if toAbove < toBelow then some above
    else if below % 2 = 0 then some below else some above

/-- Tries ever finer grids, from `10 ^ k` downwards. -/
def shortestFrom (mantissa : Nat) (exponent : Int) (atPower : Bool) : Nat → Int → Decimal
  | 0, k => ⟨0, k⟩
  | tries + 1, k =>
    match gridPoint? mantissa exponent atPower k with
    | some d => ⟨d, k⟩
    | none => shortestFrom mantissa exponent atPower tries (k - 1)

/-- The shortest decimal for `mantissa * 2 ^ exponent`. The first grid is coarser than the number
itself, and seventeen digits always suffice. -/
def shortest (mantissa : Nat) (exponent : Int) (atPower : Bool) : Decimal :=
  if mantissa = 0 then ⟨0, 0⟩
  else
    let log2 : Int := Nat.log2 mantissa + exponent
    shortestFrom mantissa exponent atPower 24 (log2 * 30103 / 100000 + 2)

/-- Places of the leading digit that are written without an exponent. -/
def positional (place : Int) : Bool :=
  -5 ≤ place && place ≤ 15

/-- A decimal as text: with a point and at least one digit on each side of it, or with one digit
before the point and a signed exponent. -/
def Decimal.text (d : Decimal) : String :=
  let digits := Nat.toDigits 10 d.digits
  let place : Int := digits.length - 1 + d.exponent
  let zeros (n : Int) := List.replicate n.toNat '0'
  if d.digits = 0 then "0.0"
  else if positional place then
    if 0 ≤ d.exponent then String.ofList (digits ++ zeros d.exponent ++ ".0".toList)
    else if 0 ≤ place then
      String.ofList (digits.take (place.toNat + 1) ++ '.' :: digits.drop (place.toNat + 1))
    else String.ofList ("0.".toList ++ zeros (-place - 1) ++ digits)
  else
    let fraction := digits.drop 1
    String.ofList (digits.take 1 ++ (if fraction = [] then [] else '.' :: fraction)) ++
      (if place < 0 then "e-" else "e+") ++ toString place.natAbs

/-- The shortest text of a number, if it is finite. -/
def Binary.shortestText? : Binary → Option String
  | finite negative mantissa exponent atPower =>
    some ((if negative then "-" else "") ++ (shortest mantissa exponent atPower).text)
  | _ => none

end FieldCamera.Number
