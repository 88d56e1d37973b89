/-!
# Binary fractions

What the bits of a floating-point number stand for: a whole number times a power of two.
-/

namespace FieldCamera.Number

inductive Binary where
  | nan
  | infinite (negative : Bool)
  /-- The number `mantissa * 2 ^ exponent`. `atPower` holds where the mantissa is a power of two
  below which the numbers of the format lie twice as dense. -/
  | finite (negative : Bool) (mantissa : Nat) (exponent : Int) (atPower : Bool)
  deriving DecidableEq, Repr

namespace Binary

/-- Reads a number of `1 + exponentBits + fractionBits` bits. -/
def ofBits (exponentBits fractionBits bits : Nat) : Binary :=
  let fraction := bits % Nat.pow 2 fractionBits
  let biased := bits / Nat.pow 2 fractionBits % Nat.pow 2 exponentBits
  let negative := bits / Nat.pow 2 (fractionBits + exponentBits) % 2 == 1
  let offset : Int := Nat.pow 2 (exponentBits - 1) - 1 + fractionBits
  if biased = Nat.pow 2 exponentBits - 1 then
    if fraction = 0 then infinite negative else nan
  else if biased = 0 then finite negative fraction (1 - offset) false
  else
    finite negative (fraction + Nat.pow 2 fractionBits) (biased - offset)
      (fraction == 0 && 1 < biased)

def ofFloat (x : Float) : Binary :=
  ofBits 11 52 x.toBits.toNat

def ofFloat32 (x : Float32) : Binary :=
  ofBits 8 23 x.toBits.toNat

end Binary

/-- The nearest whole number to `num / den`, of two the even one. -/
def roundDiv (num den : Nat) : Nat :=
  let q := num / den
  let r := num % den
  if 2 * r < den then q
  else if den < 2 * r then q + 1
  else if q % 2 = 0 then q else q + 1

end FieldCamera.Number
