import FieldCamera.Number.Leading
import FieldCamera.Text.Cut
import FieldCamera.Text.Hex
import FieldCamera.Text.Utf8
/-!
# Form encoding

A submitted form is a text of `key=value` pairs between ampersands. In a value a plus sign stands
for a space and `%` with two hexadecimal digits for a byte; an escape that is not complete stands
for itself.
-/

namespace FieldCamera.Setup

/-- The bytes that an encoded value stands for. -/
def unescape : List UInt8 → List UInt8
  | [] => []
  | b :: bs =>
    if b = '+'.toUInt8 then ' '.toUInt8 :: unescape bs
    else if b = '%'.toUInt8 then
      match bs with
      | h :: l :: rest =>
        match Text.hexPair? h l with
        | some v => v :: unescape rest
        | none => b :: unescape (h :: l :: rest)
      | rest => b :: unescape rest
    else b :: unescape bs

/-- The text that an encoded value stands for. -/
def decodeValue (s : String) : String :=
  Utf8.decodeLossy (unescape (Utf8.encode s))

/-- Key and value of one pair; a pair without `=` has an empty value. -/
def splitPair (pair : List Char) : List Char × List Char :=
  (Text.cut '=' pair).getD (pair, [])

/-- The value of the first pair whose key is `name`, empty without such a pair. -/
def field (form name : String) : String :=
  let pairs := (Text.pieces '&' form.toList).map splitPair
  match pairs.find? fun pair => pair.1 == name.toList with
  | some pair => decodeValue (String.ofList pair.2)
  | none => ""

/-- The integer at the front of a field's value, brought into 32 bits. -/
def intField (form name : String) : Int32 :=
  Number.clamp32 (Number.ofText (field form name))

end FieldCamera.Setup
