import FieldCamera.Number.Binary
/-!
# The floating-point number nearest to a fraction

A decimal text stands for an exact fraction. Its value is the number of 64 bits that is nearest to
it, of two the one with the even last bit, and infinity beyond the greatest of them.
-/

namespace FieldCamera.Number

/-- The bits of infinity. -/
def infinityBits : Nat := 0x7FF0000000000000

/-- The bit of the sign. -/
def signBit : Nat := 0x8000000000000000

/-- The number of steps from one power of two to the next. -/
def stepsOfPower : Nat := 0x10000000000000

/-- The power of two that one step of the numbers around `num / den` is worth. -/
def stepPower (num den : Nat) : Int :=
  let guess : Int := num.log2 - den.log2 - 52
  let reached : Bool :=
    if 0 ≤ guess then stepsOfPower * (den * Nat.pow 2 guess.toNat) ≤ num
    else stepsOfPower * den ≤ num * Nat.pow 2 (-guess).toNat
  max (if reached then guess else guess - 1) (-1074)

/-- The bits of the number nearest to `num / den`. The bits count the steps from zero. -/
def nearestBits (num den : Nat) : Nat :=
  let power := stepPower num den
  let steps :=
    if 0 ≤ power then roundDiv num (den * Nat.pow 2 power.toNat)
    else roundDiv (num * Nat.pow 2 (-power).toNat) den
  min infinityBits (steps + (power + 1074).toNat * stepsOfPower)

/-- The number nearest to `digits * 10 ^ scale`. A scale that leaves the range by itself decides
without the power being computed. -/
def ofDecimal (negative : Bool) (digits : Nat) (scale : Int) : Float :=
  let size : Int := (Nat.toDigits 10 digits).length + scale
  let bits :=
    if digits = 0 ∨ size < -330 then 0
    else if 310 < size then infinityBits
    else if 0 ≤ scale then nearestBits (digits * Nat.pow 10 scale.toNat) 1
    else nearestBits digits (Nat.pow 10 (-scale).toNat)
  Float.ofBits (bits + if negative then signBit else 0).toUInt64

end FieldCamera.Number
