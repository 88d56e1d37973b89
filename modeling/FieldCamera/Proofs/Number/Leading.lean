import FieldCamera.Number.Leading
/-!
# The value of leading digits

Stopping at `greatest` after every digit is stopping once at the end (`foldl_appendDigit`). So a
number in decimal digits is read as itself, up to that bound (`leading_toDigits`), and so is one
with a minus sign in front, which holds for every number of 32 bits (`clamp32_ofText_toString`).
-/

namespace FieldCamera.Number

/-- Digits that are appended one by one make their decimal value, if that is in range. -/
theorem foldl_appendDigit (cs : List Char) (n : Nat) :
    cs.foldl appendDigit (min n greatest) = min (Nat.ofDigitChars 10 cs n) greatest := by
  induction cs generalizing n with
  | nil => rfl
  | cons c cs ih =>
      have hstep : appendDigit (min n greatest) c =
          min (10 * n + (c.toNat - '0'.toNat)) greatest := by
        generalize hd : c.toNat - '0'.toNat = d
        unfold appendDigit greatest
        rw [hd]
        omega
      rw [List.foldl_cons, hstep, ih, Nat.ofDigitChars_cons]

theorem leadingNat_eq (cs : List Char) :
    leadingNat cs = min (Nat.ofDigitChars 10 (cs.takeWhile Char.isDigit) 0) greatest :=
  foldl_appendDigit _ 0

theorem toNat_of_isDigit {c : Char} (h : c.isDigit = true) : 48 ≤ c.toNat ∧ c.toNat ≤ 57 := by
  simp only [Char.isDigit, Bool.and_eq_true, decide_eq_true_eq, ge_iff_le,
    UInt32.le_iff_toNat_le] at h
  exact h

/-- The text begins with neither a blank nor a sign. -/
def Unmarked (cs : List Char) : Prop :=
  ∀ c ∈ cs.head?, Text.isBlank c = false ∧ c ≠ '+' ∧ c ≠ '-'

theorem unmarked_cons_of_isDigit {c : Char} (h : c.isDigit = true) (cs : List Char) :
    Unmarked (c :: cs) := by
  have hrange := toNat_of_isDigit h
  intro d hd
  obtain rfl : c = d := Option.some.inj hd
  refine ⟨?_, ?_, ?_⟩
  · rw [← Bool.not_eq_true]
    unfold Text.isBlank
    generalize c.toNat = n at hrange
    simp only [Bool.or_eq_true, Bool.and_eq_true, decide_eq_true_eq, beq_iff_eq]
    omega
  · rintro rfl
    simp at hrange
  · rintro rfl
    simp at hrange

theorem leading_of_unmarked {cs : List Char} (h : Unmarked cs) : leading cs = leadingNat cs := by
  have htrim : Text.trimStart cs = cs := by
    cases cs with
    | nil => rfl
    | cons c cs => simp [Text.trimStart, (h c rfl).1]
  rw [leading, htrim]
  split
  · exact absurd rfl (h '-' rfl).2.2
  · exact absurd rfl (h '+' rfl).2.1
  · rfl

/-- A digit is neither a blank nor a sign. -/
theorem leading_of_digit {c : Char} (h : c.isDigit = true) (cs : List Char) :
    leading (c :: cs) = leadingNat (c :: cs) :=
  leading_of_unmarked (unmarked_cons_of_isDigit h cs)

theorem leading_cons_of_isBlank {c : Char} (h : Text.isBlank c = true) (cs : List Char) :
    leading (c :: cs) = leading cs := by
  simp [leading, Text.trimStart, h]

theorem leading_minus (ds : List Char) : leading ('-' :: ds) = -(leadingNat ds : Int) := by
  have htrim : Text.trimStart ('-' :: ds) = '-' :: ds := by
    simp [Text.trimStart, Text.isBlank]
  simp only [leading, htrim]

theorem leading_plus (ds : List Char) : leading ('+' :: ds) = leadingNat ds := by
  have htrim : Text.trimStart ('+' :: ds) = '+' :: ds := by
    simp [Text.trimStart, Text.isBlank]
  simp only [leading, htrim]

theorem isDigit_of_mem_toDigits {n : Nat} {c : Char} (h : c ∈ Nat.toDigits 10 n) :
    c.isDigit = true :=
  Nat.isDigit_of_mem_toDigits (by decide) (by decide) h

theorem leadingNat_toDigits (n : Nat) : leadingNat (Nat.toDigits 10 n) = min n greatest := by
  have hdigits : (Nat.toDigits 10 n ++ []).takeWhile Char.isDigit =
      Nat.toDigits 10 n ++ [].takeWhile Char.isDigit :=
    List.takeWhile_append_of_pos fun _ => isDigit_of_mem_toDigits
  rw [List.append_nil, List.takeWhile_nil, List.append_nil] at hdigits
  rw [leadingNat_eq, hdigits, Nat.ofDigitChars_ten_toDigits]

/-- A number in decimal digits is read as itself, up to the greatest that is read. -/
theorem leading_toDigits (n : Nat) : leading (Nat.toDigits 10 n) = (min n greatest : Nat) := by
  rw [← leadingNat_toDigits]
  cases hdigits : Nat.toDigits 10 n with
  | nil => exact absurd hdigits Nat.toDigits_ne_nil
  | cons c cs =>
      have hc : c ∈ Nat.toDigits 10 n := hdigits ▸ List.mem_cons_self
      exact leading_of_digit (isDigit_of_mem_toDigits hc) cs

/-- An integer in decimal digits, with a minus sign in front where it is negative. -/
theorem toList_toString (n : Int) :
    (toString n).toList =
      if n < 0 then '-' :: Nat.toDigits 10 n.natAbs else Nat.toDigits 10 n.natAbs := by
  have htext : toString n = n.repr := rfl
  rw [htext, Int.repr_eq_if]
  by_cases hneg : n < 0
  · have habs : (-n).toNat = n.natAbs := by omega
    rw [if_neg (by omega), if_pos hneg, habs]
    simp
  · have habs : n.toNat = n.natAbs := by omega
    rw [if_pos (by omega), if_neg hneg, habs]
    simp

/-- An integer in decimal digits is read as itself, if it is in range. -/
theorem ofText_toString {n : Int} (h : n.natAbs ≤ greatest) : ofText (toString n) = n := by
  have hvalue := leading_toDigits n.natAbs
  rw [Nat.min_eq_left h] at hvalue
  rw [ofText, toList_toString]
  by_cases hneg : n < 0
  · rw [if_pos hneg, leading_minus, leadingNat_toDigits, Nat.min_eq_left h]
    omega
  · rw [if_neg hneg, hvalue]
    omega

/-- A number of 32 bits is read back from its decimal digits. -/
theorem clamp32_ofText_toString (n : Int32) : clamp32 (ofText (toString n.toInt)) = n := by
  have hlow := n.le_toInt
  have hhigh := n.toInt_lt
  have hrange : n.toInt.natAbs ≤ greatest := by
    unfold greatest
    omega
  have hsame : max (-0x80000000) (min n.toInt 0x7FFFFFFF) = n.toInt := by omega
  rw [ofText_toString hrange, clamp32, hsame, Int32.ofInt_toInt]

end FieldCamera.Number
