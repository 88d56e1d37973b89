import FieldCamera.Json
import FieldCamera.Number.Nearest
import FieldCamera.Text.Hex
import FieldCamera.Text.Utf8
/-!
# Reading JSON

Readers take a value of a wanted shape from the front of some bytes and give the bytes behind it.
The first fault in reading order counts: the bytes are no JSON, they are JSON of another shape, or
they end too early. A structure may be written as an object, with its members in any order and
among others, or as an array of its first members.
-/

namespace FieldCamera.Json

inductive Fault where
  | malformed
  | mistyped
  | truncated
  deriving DecidableEq, Repr

abbrev Bytes := List UInt8

abbrev Reader (α : Type) := Bytes → Except Fault (α × Bytes)

def isBlankByte (b : UInt8) : Bool :=
  b == ' '.toUInt8 || b == '\n'.toUInt8 || b == '\t'.toUInt8 || b == '\r'.toUInt8

def isDigitByte (b : UInt8) : Bool :=
  '0'.toUInt8 ≤ b && b ≤ '9'.toUInt8

def skipBlank (bs : Bytes) : Bytes :=
  bs.dropWhile isBlankByte

/-- The bytes behind a word. -/
def expect : List Char → Bytes → Except Fault Bytes
  | [], bs => .ok bs
  | _ :: _, [] => .error .truncated
  | c :: cs, b :: bs => if b = c.toUInt8 then expect cs bs else .error .malformed

/-- What an escape of one letter stands for. -/
def plainEscape? (b : UInt8) : Option UInt8 :=
  if b = '"'.toUInt8 ∨ b = '\\'.toUInt8 ∨ b = '/'.toUInt8 then some b
  else if b = 'b'.toUInt8 then some 0x08
  else if b = 'f'.toUInt8 then some 0x0C
  else if b = 'n'.toUInt8 then some 0x0A
  else if b = 'r'.toUInt8 then some 0x0D
  else if b = 't'.toUInt8 then some 0x09
  else none

/-- A number of four hexadecimal digits. -/
def hexQuad : Reader Nat
  | a :: b :: c :: d :: rest =>
    match Text.hexPair? a b, Text.hexPair? c d with
    | some high, some low => .ok (high.toNat * 256 + low.toNat, rest)
    | _, _ => .error .malformed
  | _ => .error .truncated

/-- The character that an escape by number stands for. A character above U+FFFF is written as a
pair of numbers, and neither of the two may stand alone. -/
def numberedEscape : Reader Char := fun bs => do
  let (n, bs) ← hexQuad bs
  if 0xDC00 ≤ n ∧ n < 0xE000 then .error .malformed
  else if n < 0xD800 ∨ 0xDC00 ≤ n then .ok (Char.ofNat n, bs)
  else
    let bs ← expect ['\\', 'u'] bs
    let (m, bs) ← hexQuad bs
    if 0xDC00 ≤ m ∧ m < 0xE000 then
      .ok (Char.ofNat (0x10000 + (n - 0xD800) * 0x400 + (m - 0xDC00)), bs)
    else .error .malformed

/-- The bytes that an escape stands for, read behind its backslash. Text that is only skipped may
hold any number of four digits. -/
def escape (skipping : Bool) : Reader Bytes
  | [] => .error .truncated
  | b :: bs =>
    match plainEscape? b with
    | some plain => .ok ([plain], bs)
    | none =>
      if b ≠ 'u'.toUInt8 then .error .malformed
      else if skipping then (hexQuad bs).map fun r => ([], r.2)
      else (numberedEscape bs).map fun r => (Utf8.encodeChar r.1, r.2)

theorem length_expect {cs : List Char} {bs rest : Bytes} (h : expect cs bs = .ok rest) :
    rest.length ≤ bs.length := by
  induction cs generalizing bs with
  | nil => simp_all [expect]
  | cons c cs ih =>
    cases bs with
    | nil => simp [expect] at h
    | cons b bs =>
      simp only [expect] at h
      split at h
      · exact Nat.le_succ_of_le (ih h)
      · simp at h

theorem length_hexQuad {bs rest : Bytes} {n : Nat} (h : hexQuad bs = .ok (n, rest)) :
    rest.length ≤ bs.length := by
  unfold hexQuad at h
  split at h
  · split at h
    · simp only [Except.ok.injEq, Prod.mk.injEq] at h
      rw [← h.2]
      simp only [List.length_cons]
      omega
    · simp at h
  · simp at h

theorem length_numberedEscape {bs rest : Bytes} {c : Char}
    (h : numberedEscape bs = .ok (c, rest)) : rest.length ≤ bs.length := by
  simp only [numberedEscape, bind, Except.bind] at h
  split at h
  · simp at h
  · rename_i first hfirst
    have hle := length_hexQuad hfirst
    split at h
    · simp at h
    · split at h
      · simp only [Except.ok.injEq, Prod.mk.injEq] at h
        exact h.2 ▸ hle
      · split at h
        · simp at h
        · rename_i between hbetween
          have := length_expect hbetween
          split at h
          · simp at h
          · rename_i second hsecond
            have := length_hexQuad hsecond
            split at h
            · simp only [Except.ok.injEq, Prod.mk.injEq] at h
              rw [← h.2]
              omega
            · simp at h

theorem length_escape {skipping : Bool} {bs new rest : Bytes}
    (h : escape skipping bs = .ok (new, rest)) : rest.length < bs.length := by
  cases bs with
  | nil => simp [escape] at h
  | cons b bs =>
    simp only [escape] at h
    split at h
    · simp only [Except.ok.injEq, Prod.mk.injEq] at h
      simp [h.2]
    · split at h
      · simp at h
      · split at h
        · cases hq : hexQuad bs with
          | error f => simp [hq, Except.map] at h
          | ok r =>
            simp only [hq, Except.map, Except.ok.injEq, Prod.mk.injEq] at h
            exact Nat.lt_succ_of_le (h.2 ▸ length_hexQuad hq)
        · cases hq : numberedEscape bs with
          | error f => simp [hq, Except.map] at h
          | ok r =>
            simp only [hq, Except.map, Except.ok.injEq, Prod.mk.injEq] at h
            exact Nat.lt_succ_of_le (h.2 ▸ length_numberedEscape hq)

/-- The bytes of a text, read behind its opening quote up to and with the closing one. -/
def textBytes (skipping : Bool) (bs : Bytes) : Except Fault (Bytes × Bytes) :=
  match bs with
  | [] => .error .truncated
  | b :: bs =>
    if b = '"'.toUInt8 then .ok ([], bs)
    else if b = '\\'.toUInt8 then
      match _h : escape skipping bs with
      | .error fault => .error fault
      | .ok (new, rest) => (textBytes skipping rest).map fun r => (new ++ r.1, r.2)
    else if b < 0x20 then .error .malformed
    else (textBytes skipping bs).map fun r => (b :: r.1, r.2)
termination_by bs.length
decreasing_by
  · exact Nat.lt_succ_of_lt (length_escape _h)
  · simp

/-- A text behind its opening quote. Its bytes have to be UTF-8. -/
def openText : Reader String := fun bs => do
  let (content, rest) ← textBytes false bs
  match Utf8.decode? content with
  | some s => .ok (s, rest)
  | none => .error .malformed

/-- The greatest number that is kept while its digits are read. -/
def greatestWord : Nat := 0xFFFFFFFFFFFFFFFF

/-- Appends digits to a number as long as it fits a word, and gives the digits that are left. -/
def absorb : Nat → Bytes → Nat × Bytes
  | n, [] => (n, [])
  | n, d :: ds =>
    let next := n * 10 + (d.toNat - 48)
    if next ≤ greatestWord then absorb next ds else (n, d :: ds)

/-- Whether `significand * 10 ^ scale` is beyond all floating-point numbers. Both factors are
rounded before they are multiplied, so that numbers close to the greatest one may fall on either
side. -/
def isHuge (significand : Nat) (scale : Int) : Bool :=
  significand ≠ 0 && 0 ≤ scale &&
    (308 < scale || (significand.toUInt64.toFloat * Number.ofDecimal false 1 scale).isInf)

/-- The power of ten behind an `e`, and the bytes behind it. -/
def exponentPart (bs : Bytes) : Except Fault (Int × Bytes) :=
  let (negative, bs) :=
    match bs with
    | b :: rest =>
      if b = '-'.toUInt8 then (true, rest)
      else if b = '+'.toUInt8 then (false, rest)
      else (false, b :: rest)
    | [] => (false, [])
  let digits := bs.takeWhile isDigitByte
  if digits = [] then .error (if bs = [] then .truncated else .malformed)
  else
    let n : Int := digits.foldl (fun n d => n * 10 + (d.toNat - 48)) 0
    .ok (if negative then -n else n, bs.dropWhile isDigitByte)

/-- The end of a number that is no integer: perhaps an exponent, and the test for its size. -/
def endScaled (significand : Nat) (scale : Int) : Bytes → Except Fault (Option Int × Bytes)
  | b :: bs =>
    if b = 'e'.toUInt8 ∨ b = 'E'.toUInt8 then do
      let (power, bs) ← exponentPart bs
      if isHuge significand (scale + power) then .error .malformed else .ok (none, bs)
    else if isHuge significand scale then .error .malformed
    else .ok (none, b :: bs)
  | [] => if isHuge significand scale then .error .malformed else .ok (none, [])

/-- The fraction of a number behind its point. -/
def fraction (significand : Nat) (scale : Int) (bs : Bytes) :
    Except Fault (Option Int × Bytes) :=
  let digits := bs.takeWhile isDigitByte
  let rest := bs.dropWhile isDigitByte
  if digits = [] then .error (if rest = [] then .truncated else .malformed)
  else
    let (significand, left) := absorb significand digits
    endScaled significand (scale - (digits.length - left.length)) rest

/-- A number behind its sign: its value where it is written as an integer and fits a word, else
`none`. A negative zero is no integer. -/
def unsignedNumber (negative : Bool) (bs : Bytes) : Except Fault (Option Int × Bytes) :=
  let digits := bs.takeWhile isDigitByte
  let rest := bs.dropWhile isDigitByte
  let (significand, left) := absorb 0 digits
  match digits with
  | [] => .error (if bs = [] then .truncated else .malformed)
  | d :: more =>
    if d = '0'.toUInt8 ∧ more ≠ [] then .error .malformed
    else
      match rest with
      | b :: after =>
        if b = '.'.toUInt8 then fraction significand left.length after
        else whole significand left rest
      | [] => whole significand left rest
where
  /-- A number without a fraction. -/
  whole (significand : Nat) (left rest : Bytes) : Except Fault (Option Int × Bytes) :=
    if left ≠ [] ∨ rest.head? = some 'e'.toUInt8 ∨ rest.head? = some 'E'.toUInt8 then
      endScaled significand left.length rest
    else if negative then
      .ok (if significand = 0 ∨ 0x8000000000000000 < significand then none else some (-significand),
        rest)
    else .ok (some significand, rest)

/-- The fault of a value that is not of the wanted shape. A plain value is read to its end, so that
a fault inside it comes first. -/
def mismatch : Bytes → Fault
  | [] => .truncated
  | b :: bs =>
    let of {α : Type} (r : Except Fault α) : Fault :=
      match r with
      | .ok _ => .mistyped
      | .error fault => fault
    if b = 'n'.toUInt8 then of (expect "ull".toList bs)
    else if b = 't'.toUInt8 then of (expect "rue".toList bs)
    else if b = 'f'.toUInt8 then of (expect "alse".toList bs)
    else if b = '-'.toUInt8 then of (unsignedNumber true bs)
    else if isDigitByte b then of (unsignedNumber false (b :: bs))
    else if b = '"'.toUInt8 then of (openText bs)
    else if b = '['.toUInt8 ∨ b = '\x7b'.toUInt8 then .mistyped
    else .malformed

/-- A text. -/
def string : Reader String := fun bs =>
  match skipBlank bs with
  | b :: rest => if b = '"'.toUInt8 then openText rest else .error (mismatch (b :: rest))
  | [] => .error .truncated

/-- An integer between two bounds. -/
def integerIn (low high : Int) : Reader Int := fun bs =>
  let check : Option Int × Bytes → Except Fault (Int × Bytes)
    | (some n, rest) => if low ≤ n ∧ n ≤ high then .ok (n, rest) else .error .mistyped
    | (none, _) => .error .mistyped
  match skipBlank bs with
  | b :: rest =>
    if b = '-'.toUInt8 then unsignedNumber true rest >>= check
    else if isDigitByte b then unsignedNumber false (b :: rest) >>= check
    else .error (mismatch (b :: rest))
  | [] => .error .truncated

def int32 : Reader Int32 := fun bs =>
  (integerIn (-0x80000000) 0x7FFFFFFF bs).map fun r => (Int32.ofInt r.1, r.2)

def int64 : Reader Int64 := fun bs =>
  (integerIn (-0x8000000000000000) 0x7FFFFFFFFFFFFFFF bs).map fun r => (Int64.ofInt r.1, r.2)

/-- A value or `null`. -/
def optional {α : Type} (value : Reader α) : Reader (Option α) := fun bs =>
  match skipBlank bs with
  | b :: rest =>
    if b = 'n'.toUInt8 then (expect "ull".toList rest).map fun rest => (none, rest)
    else (value (b :: rest)).map fun r => (some r.1, r.2)
  | [] => .error .truncated

end FieldCamera.Json
