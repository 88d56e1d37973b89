/-!
# UTF-8

Characters as bytes, and bytes read back as characters. Where bytes are no UTF-8, reading goes on
after the longest beginning of a character that they still spell: `decodeLossy` puts one U+FFFD
for it, and `decode?` refuses the whole.
-/

namespace FieldCamera.Utf8

def encodeChar (c : Char) : List UInt8 :=
  let n := c.toNat
  if n < 0x80 then [n.toUInt8]
  else if n < 0x800 then [(0xC0 + n / 64).toUInt8, (0x80 + n % 64).toUInt8]
  else if n < 0x10000 then
    [(0xE0 + n / 4096).toUInt8, (0x80 + n / 64 % 64).toUInt8, (0x80 + n % 64).toUInt8]
  else
    [(0xF0 + n / 262144).toUInt8, (0x80 + n / 4096 % 64).toUInt8, (0x80 + n / 64 % 64).toUInt8,
      (0x80 + n % 64).toUInt8]

def encode (s : String) : List UInt8 :=
  s.toList.flatMap encodeChar

/-- The number of bytes that characters take. -/
def size : List Char → Nat
  | [] => 0
  | c :: cs => c.utf8Size + size cs

/-- What a first byte announces: the bits it gives, how many bytes follow, and the least and the
greatest value of the next one. -/
structure Lead where
  bits : Nat
  following : Nat
  least : Nat := 0x80
  greatest : Nat := 0xBF

def lead? (a : UInt8) : Option Lead :=
  let n := a.toNat
  if n < 0x80 then some ⟨n, 0, 0x80, 0xBF⟩
  else if n < 0xC2 then none
  else if n < 0xE0 then some ⟨n - 0xC0, 1, 0x80, 0xBF⟩
  else if n = 0xE0 then some ⟨0, 2, 0xA0, 0xBF⟩
  else if n = 0xED then some ⟨13, 2, 0x80, 0x9F⟩
  else if n < 0xF0 then some ⟨n - 0xE0, 2, 0x80, 0xBF⟩
  else if n = 0xF0 then some ⟨0, 3, 0x90, 0xBF⟩
  else if n < 0xF4 then some ⟨n - 0xF0, 3, 0x80, 0xBF⟩
  else if n = 0xF4 then some ⟨4, 3, 0x80, 0x8F⟩
  else none

/-- Adds the bits of `k` further bytes to `bits`, and gives the bytes from the first one that
does not fit. -/
def follow : Nat → Nat → Nat → Nat → List UInt8 → Option Nat × List UInt8
  | 0, _, _, bits, bs => (some bits, bs)
  | _ + 1, _, _, _, [] => (none, [])
  | k + 1, least, greatest, bits, b :: bs =>
    if least ≤ b.toNat ∧ b.toNat ≤ greatest then
      follow k 0x80 0xBF (bits * 64 + (b.toNat - 0x80)) bs
    else (none, b :: bs)

theorem follow_length_le (k least greatest bits : Nat) (bs : List UInt8) :
    (follow k least greatest bits bs).2.length ≤ bs.length := by
  induction bs generalizing k least greatest bits with
  | nil => cases k <;> simp [follow]
  | cons b bs ih =>
    cases k with
    | zero => simp [follow]
    | succ k =>
      simp only [follow]
      split
      · exact Nat.le_succ_of_le (ih ..)
      · exact Nat.le_refl _

/-- The characters spelled by the bytes, with `none` for each stretch that spells none. -/
def scan : List UInt8 → List (Option Char)
  | [] => []
  | a :: bs =>
    match lead? a with
    | none => none :: scan bs
    | some l =>
      let r := follow l.following l.least l.greatest l.bits bs
      r.1.map Char.ofNat :: scan r.2
termination_by bs => bs.length
decreasing_by
  · simp
  · exact Nat.lt_succ_of_le (follow_length_le ..)

def decodeLossy (bs : List UInt8) : String :=
  String.ofList ((scan bs).map (·.getD '\uFFFD'))

def decode? (bs : List UInt8) : Option String :=
  ((scan bs).mapM id).map String.ofList

end FieldCamera.Utf8
