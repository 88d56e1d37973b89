import FieldCamera.Number.Binary
/-!
# Numbers with a fixed count of decimal places
-/

namespace FieldCamera.Number

/-- Digits of `n`, with zeros in front up to `width`. -/
def padded (width n : Nat) : String :=
  let digits := Nat.toDigits 10 n
  String.ofList (List.replicate (width - digits.length) '0' ++ digits)

/-- Rounds to `places` decimal places, a half going to the even neighbour. A negative number keeps
its sign even where it rounds to zero. -/
def Binary.toPlaces (places : Nat) : Binary → String
  | nan => "NaN"
  | infinite negative => if negative then "-inf" else "inf"
  | finite negative mantissa exponent _ =>
    let unit := Nat.pow 10 places
    let n := roundDiv (mantissa * unit * Nat.pow 2 exponent.toNat) (Nat.pow 2 (- exponent).toNat)
    (if negative then "-" else "") ++ toString (n / unit) ++ "." ++ padded places (n % unit)

end FieldCamera.Number
