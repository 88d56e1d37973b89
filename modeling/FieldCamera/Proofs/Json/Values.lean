import FieldCamera.Proofs.Json.Texts
import FieldCamera.Proofs.Number.Leading
/-!
# Reading single values

`Reads` says that a reader finds a value in a text, whatever blanks stand in front and whatever may
follow a value stands behind. It holds of a text between quotes and of an integer in its decimal
digits, at every size that has a word (`reads_integerIn`).
-/

namespace FieldCamera.Json

section Surroundings

/-- Bytes that are all blanks. -/
def Blank (bs : Bytes) : Prop :=
  ∀ b ∈ bs, isBlankByte b = true

/-- Whether a value may end in front of these bytes. -/
def Closes (bs : Bytes) : Prop :=
  ∀ b ∈ bs.head?, isBlankByte b = true ∨ b ∈ [','.toUInt8, ']'.toUInt8, '\x7d'.toUInt8]

theorem blank_nil : Blank [] := by
  simp [Blank]

theorem skipBlank_append {lead : Bytes} (h : Blank lead) (bs : Bytes) :
    skipBlank (lead ++ bs) = skipBlank bs :=
  List.dropWhile_append_of_pos h

theorem skipBlank_cons {b : UInt8} (h : isBlankByte b = false) (bs : Bytes) :
    skipBlank (b :: bs) = b :: bs := by
  simp [skipBlank, h]

theorem closes_nil : Closes [] := by
  simp [Closes]

theorem Closes.append {lead bs : Bytes} (hlead : Blank lead) (h : Closes bs) :
    Closes (lead ++ bs) := by
  cases lead with
  | nil => exact h
  | cons b lead =>
      rintro c hc
      cases hc
      exact .inl (hlead b List.mem_cons_self)

/-- A number does not go on where a value may end. -/
theorem Closes.ne {bs : Bytes} (h : Closes bs) {b : UInt8} (hb : b ∈ bs.head?) :
    isDigitByte b = false ∧ b ≠ '.'.toUInt8 ∧ b ≠ 'e'.toUInt8 ∧ b ≠ 'E'.toUInt8 := by
  obtain hblank | hmark := h b hb
  · simp only [isBlankByte, Bool.or_eq_true, beq_iff_eq] at hblank
    obtain ((rfl | rfl) | rfl) | rfl := hblank <;> decide
  · simp only [List.mem_cons, List.not_mem_nil, or_false] at hmark
    obtain rfl | rfl | rfl := hmark <;> decide

/-- Whether a reader finds a value in a text, whatever stands around it. -/
def Reads {α : Type} (value : Reader α) (text : Bytes) (x : α) : Prop :=
  ∀ lead rest, Blank lead → Closes rest → value (lead ++ text ++ rest) = .ok (x, rest)

end Surroundings

theorem reads_string {text : Bytes} {s : String} (h : IsQuoted text s) : Reads string text s := by
  obtain ⟨body, rfl, hbody⟩ := h
  intro lead rest hlead _
  have hskip : skipBlank (lead ++ '"'.toUInt8 :: body ++ rest) = '"'.toUInt8 :: (body ++ rest) := by
    rw [List.append_assoc, skipBlank_append hlead, List.cons_append, skipBlank_cons (by decide)]
  simp only [string, hskip, if_pos, hbody rest]

section Digits

theorem toNat_toUInt8 {c : Char} (h : c.isDigit = true) : c.toUInt8.toNat = c.toNat := by
  have hrange := Number.toNat_of_isDigit h
  have hbyte : c.toUInt8.toNat = c.toNat % 256 := rfl
  omega

theorem isDigitByte_toUInt8 {c : Char} (h : c.isDigit = true) : isDigitByte c.toUInt8 = true := by
  simp only [isDigitByte, Bool.and_eq_true, decide_eq_true_eq, UInt8.le_iff_toNat_le,
    toNat_toUInt8 h]
  exact Number.toNat_of_isDigit h

/-- A digit is neither a blank nor a sign. -/
theorem ne_of_isDigitByte {b : UInt8} (h : isDigitByte b = true) :
    isBlankByte b = false ∧ b ≠ '-'.toUInt8 := by
  constructor
  · rw [Bool.eq_false_iff]
    intro hblank
    simp only [isBlankByte, Bool.or_eq_true, beq_iff_eq] at hblank
    obtain ((rfl | rfl) | rfl) | rfl := hblank <;> exact absurd h (by decide)
  · rintro rfl
    exact absurd h (by decide)

/-- The digits of a number, as bytes. -/
def digitBytes (n : Nat) : Bytes :=
  (Nat.toDigits 10 n).map Char.toUInt8

theorem isDigitByte_of_mem_digitBytes {n : Nat} {b : UInt8} (h : b ∈ digitBytes n) :
    isDigitByte b = true := by
  obtain ⟨c, hc, rfl⟩ := List.mem_map.1 h
  exact isDigitByte_toUInt8 (Number.isDigit_of_mem_toDigits hc)

/-- No number but zero begins with a zero. -/
theorem eq_nil_of_toDigits_eq_zero_cons {n : Nat} {cs : List Char}
    (h : Nat.toDigits 10 n = '0' :: cs) : cs = [] := by
  induction n using Nat.strongRecOn generalizing cs with
  | ind n ih =>
      by_cases hsmall : n < 10
      · rw [Nat.toDigits_of_lt_base hsmall] at h
        exact (List.cons.inj h).2.symm
      · rw [Nat.toDigits_of_base_le (by decide) (by omega)] at h
        cases hhead : Nat.toDigits 10 (n / 10) with
        | nil => exact absurd hhead Nat.toDigits_ne_nil
        | cons d ds =>
            rw [hhead, List.cons_append] at h
            obtain ⟨rfl, -⟩ := List.cons.inj h
            have hzero := Nat.ofDigitChars_ten_toDigits (n := n / 10)
            rw [hhead, ih (n / 10) (by omega) hhead] at hzero
            simp [Nat.ofDigitChars_cons] at hzero
            omega

/-- Digits are read up to their end where their number has a word. -/
theorem absorb_map_toUInt8 {cs : List Char} (hcs : ∀ c ∈ cs, c.isDigit = true) {n : Nat}
    (h : Nat.ofDigitChars 10 cs n ≤ greatestWord) :
    absorb n (cs.map Char.toUInt8) = (Nat.ofDigitChars 10 cs n, []) := by
  induction cs generalizing n with
  | nil => rfl
  | cons c cs ih =>
      rw [List.forall_mem_cons] at hcs
      have hstep : n * 10 + (c.toUInt8.toNat - 48) = 10 * n + (c.toNat - '0'.toNat) := by
        rw [toNat_toUInt8 hcs.1, Nat.mul_comm]
        rfl
      rw [Nat.ofDigitChars_cons] at h ⊢
      have hfits : 10 * n + (c.toNat - '0'.toNat) ≤ greatestWord := by
        calc
          10 * n + (c.toNat - '0'.toNat) ≤ 10 ^ cs.length * (10 * n + (c.toNat - '0'.toNat)) :=
            Nat.le_mul_of_pos_left _ (Nat.pow_pos (by decide))
          _ ≤ 10 ^ cs.length * (10 * n + (c.toNat - '0'.toNat)) + Nat.ofDigitChars 10 cs 0 :=
            Nat.le_add_right _ _
          _ = Nat.ofDigitChars 10 cs (10 * n + (c.toNat - '0'.toNat)) :=
            Nat.ofDigitChars_eq_ofDigitChars_zero.symm
          _ ≤ greatestWord := h
      simp only [List.map_cons, absorb, hstep, if_pos hfits]
      exact ih hcs.2 h

/-- The digits of a number: at least one, and no zero in front of others. -/
theorem digitBytes_eq_cons (n : Nat) :
    ∃ d ds, digitBytes n = d :: ds ∧ ¬(d = '0'.toUInt8 ∧ ds ≠ []) := by
  cases hdigits : Nat.toDigits 10 n with
  | nil => exact absurd hdigits Nat.toDigits_ne_nil
  | cons c cs =>
      refine ⟨c.toUInt8, cs.map Char.toUInt8, by rw [digitBytes, hdigits, List.map_cons], ?_⟩
      rintro ⟨hzero, hmore⟩
      have hdigit : c.isDigit = true :=
        Number.isDigit_of_mem_toDigits (hdigits ▸ List.mem_cons_self)
      have hchar : c = '0' := by
        rw [← Char.toNat_inj, ← toNat_toUInt8 hdigit, hzero]
        rfl
      subst hchar
      rw [eq_nil_of_toDigits_eq_zero_cons hdigits] at hmore
      exact hmore rfl

/-- The digits of a number are read up to where a value may end. -/
theorem takeWhile_digitBytes (n : Nat) {rest : Bytes} (h : Closes rest) :
    (digitBytes n ++ rest).takeWhile isDigitByte = digitBytes n ∧
      (digitBytes n ++ rest).dropWhile isDigitByte = rest := by
  rw [List.takeWhile_append_of_pos fun _ => isDigitByte_of_mem_digitBytes,
    List.dropWhile_append_of_pos fun _ => isDigitByte_of_mem_digitBytes]
  cases rest with
  | nil => simp
  | cons b rest => simp [(h.ne (b := b) rfl).1]

/-- A number that has a word is read from its digits, as one without a fraction. -/
theorem unsignedNumber_digitBytes {n : Nat} (h : n ≤ greatestWord) (negative : Bool) {rest : Bytes}
    (hrest : Closes rest) :
    unsignedNumber negative (digitBytes n ++ rest) = unsignedNumber.whole negative n [] rest := by
  obtain ⟨htake, hdrop⟩ := takeWhile_digitBytes n hrest
  have habsorb : absorb 0 (digitBytes n) = (n, []) := by
    have hvalue := Nat.ofDigitChars_ten_toDigits (n := n)
    have hread := absorb_map_toUInt8 (n := 0) (fun c => Number.isDigit_of_mem_toDigits (n := n))
      (hvalue.symm ▸ h)
    rwa [hvalue] at hread
  obtain ⟨d, ds, hdigits, hzero⟩ := digitBytes_eq_cons n
  simp only [unsignedNumber, htake, hdrop, habsorb]
  rw [hdigits]
  simp only [if_neg hzero]
  split
  · rw [if_neg (hrest.ne rfl).2.1]
  · rfl

/-- A number without a fraction ends where a value may end. With a minus sign in front it has to be
an integer of 64 bits, and no zero. -/
theorem whole_of_closes (negative : Bool) (n : Nat) {rest : Bytes} (h : Closes rest) :
    unsignedNumber.whole negative n [] rest =
      if negative then
        .ok (if n = 0 ∨ 0x8000000000000000 < n then none else some (-n), rest)
      else .ok (some n, rest) := by
  have hplain : ¬(([] : Bytes) ≠ [] ∨ rest.head? = some 'e'.toUInt8 ∨
      rest.head? = some 'E'.toUInt8) := by
    rintro (hleft | hsmall | hlarge)
    · exact hleft rfl
    · exact (h.ne hsmall).2.2.1 rfl
    · exact (h.ne hlarge).2.2.2 rfl
  rw [unsignedNumber.whole, if_neg hplain]

end Digits

section Integers

/-- An integer as it is written: its digits, with a minus sign in front where it is negative. -/
theorem encode_toString (n : Int) :
    Utf8.encode (toString n) =
      if n < 0 then '-'.toUInt8 :: digitBytes n.natAbs else digitBytes n.natAbs := by
  have hdigits : (Nat.toDigits 10 n.natAbs).flatMap Utf8.encodeChar = digitBytes n.natAbs := by
    refine Utf8.flatMap_encodeChar_of_ascii fun c hc => ?_
    have hrange := Number.toNat_of_isDigit (Number.isDigit_of_mem_toDigits hc)
    omega
  have hminus : Utf8.encodeChar '-' = ['-'.toUInt8] := by decide
  rw [Utf8.encode, Number.toList_toString]
  split
  · rw [List.flatMap_cons, hminus, hdigits, List.singleton_append]
  · exact hdigits

theorem reads_integerIn {low high n : Int} (hlow : low ≤ n) (hhigh : n ≤ high)
    (hleast : -0x8000000000000000 ≤ n) (hgreatest : n ≤ greatestWord) :
    Reads (integerIn low high) (Utf8.encode (toString n)) n := by
  intro lead rest hlead hrest
  have hword : n.natAbs ≤ greatestWord := by
    unfold greatestWord at *
    omega
  rw [List.append_assoc, encode_toString]
  by_cases hneg : n < 0
  · have hsize : ¬(n.natAbs = 0 ∨ 0x8000000000000000 < n.natAbs) := by omega
    have hback : -(n.natAbs : Int) = n := by omega
    have hvalue : unsignedNumber true (digitBytes n.natAbs ++ rest) = .ok (some n, rest) := by
      rw [unsignedNumber_digitBytes hword true hrest, whole_of_closes true _ hrest, if_pos rfl,
        if_neg hsize, hback]
    simp only [if_pos hneg, integerIn, skipBlank_append hlead, List.cons_append,
      skipBlank_cons (b := '-'.toUInt8) (by decide), if_pos, hvalue]
    exact if_pos ⟨hlow, hhigh⟩
  · have hback : (n.natAbs : Int) = n := by omega
    have hvalue : unsignedNumber false (digitBytes n.natAbs ++ rest) = .ok (some n, rest) := by
      rw [unsignedNumber_digitBytes hword false hrest, whole_of_closes false _ hrest,
        if_neg (by decide), hback]
    obtain ⟨d, ds, hdigits, -⟩ := digitBytes_eq_cons n.natAbs
    have hdigit : isDigitByte d = true :=
      isDigitByte_of_mem_digitBytes (hdigits ▸ List.mem_cons_self)
    have hblank : isBlankByte d = false ∧ d ≠ '-'.toUInt8 := ne_of_isDigitByte hdigit
    rw [hdigits, List.cons_append] at hvalue
    simp only [if_neg hneg, integerIn, skipBlank_append hlead, hdigits, List.cons_append,
      skipBlank_cons hblank.1, if_neg hblank.2, hdigit, if_pos, hvalue]
    exact if_pos ⟨hlow, hhigh⟩

theorem reads_int32 (n : Int32) : Reads int32 (Utf8.encode (toString n.toInt)) n := by
  have hlow := n.le_toInt
  have hhigh := n.toInt_lt
  have hread : Reads (integerIn (-0x80000000) 0x7FFFFFFF) (Utf8.encode (toString n.toInt))
      n.toInt :=
    reads_integerIn (by omega) (by omega) (by omega) (by unfold greatestWord; omega)
  intro lead rest hlead hrest
  rw [int32, hread lead rest hlead hrest, Except.map, Int32.ofInt_toInt]

end Integers

end FieldCamera.Json
