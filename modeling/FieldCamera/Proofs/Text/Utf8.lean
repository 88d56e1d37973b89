import FieldCamera.Text.Utf8
/-!
# Reading back what was written in UTF-8

The bytes of a character are read as that character, whatever follows them (`scan_encodeChar`). So
text comes back from its bytes unchanged (`decodeLossy_encode`), and a byte that is no part of a
longer character stands for itself (`mem_encode_iff`).
-/

namespace FieldCamera.Utf8

@[simp] theorem encode_empty : encode "" = [] := rfl

@[simp] theorem encode_append (s t : String) : encode (s ++ t) = encode s ++ encode t := by
  simp [encode]

theorem scan_nil : scan [] = [] := by
  rw [scan]

/-- A character from its first byte on: what the byte announces, and what follows it. -/
theorem scan_cons {a : UInt8} {l : Lead} (h : lead? a = some l) (bs : List UInt8) :
    scan (a :: bs) =
      (follow l.following l.least l.greatest l.bits bs).1.map Char.ofNat ::
        scan (follow l.following l.least l.greatest l.bits bs).2 := by
  rw [scan]
  split
  · simp_all
  · rename_i l' h'
    obtain rfl : l = l' := Option.some.inj (h.symm.trans h')
    rfl

/-- A further byte gives six bits. -/
theorem follow_cons {v : Nat} (hv : v < 64) (k least greatest bits : Nat) (bs : List UInt8)
    (hleast : least ≤ 0x80 + v) (hgreatest : 0x80 + v ≤ greatest) :
    follow (k + 1) least greatest bits ((0x80 + v).toUInt8 :: bs) =
      follow k 0x80 0xBF (bits * 64 + v) bs := by
  have hbyte : (0x80 + v).toUInt8.toNat = 0x80 + v :=
    UInt8.toNat_ofNat_of_lt' (by simp only [UInt8.size]; omega)
  rw [follow, hbyte, if_pos ⟨hleast, hgreatest⟩, Nat.add_sub_cancel_left]

section Leads

theorem lead?_of_one {n : Nat} (h : n < 0x80) : lead? n.toUInt8 = some ⟨n, 0, 0x80, 0xBF⟩ := by
  have hbyte : n.toUInt8.toNat = n :=
    UInt8.toNat_ofNat_of_lt' (by simp only [UInt8.size]; omega)
  simp [lead?, hbyte, h]

theorem lead?_of_two {m : Nat} (hlow : 2 ≤ m) (hhigh : m < 0x20) :
    lead? (0xC0 + m).toUInt8 = some ⟨m, 1, 0x80, 0xBF⟩ := by
  have hbyte : (0xC0 + m).toUInt8.toNat = 0xC0 + m :=
    UInt8.toNat_ofNat_of_lt' (by simp only [UInt8.size]; omega)
  simp only [lead?, hbyte]
  rw [if_neg (by omega), if_neg (by omega), if_pos (by omega), Nat.add_sub_cancel_left]

/-- Of three bytes the first bounds the second: no number below 0x800 is spelled, and none of a
surrogate. -/
theorem lead?_of_three {m : Nat} (h : m < 0x10) :
    lead? (0xE0 + m).toUInt8 =
      some ⟨m, 2, if m = 0 then 0xA0 else 0x80, if m = 13 then 0x9F else 0xBF⟩ := by
  have hbyte : (0xE0 + m).toUInt8.toNat = 0xE0 + m :=
    UInt8.toNat_ofNat_of_lt' (by simp only [UInt8.size]; omega)
  simp only [lead?, hbyte]
  rw [if_neg (by omega), if_neg (by omega), if_neg (by omega)]
  by_cases hzero : m = 0
  · simp [hzero]
  · by_cases hlast : m = 13
    · simp [hlast]
    · rw [if_neg (by omega), if_neg (by omega), if_pos (by omega), if_neg hzero, if_neg hlast,
        Nat.add_sub_cancel_left]

/-- Of four bytes too: no number below 0x10000 is spelled, and none above 0x10FFFF. -/
theorem lead?_of_four {m : Nat} (h : m < 5) :
    lead? (0xF0 + m).toUInt8 =
      some ⟨m, 3, if m = 0 then 0x90 else 0x80, if m = 4 then 0x8F else 0xBF⟩ := by
  have hbyte : (0xF0 + m).toUInt8.toNat = 0xF0 + m :=
    UInt8.toNat_ofNat_of_lt' (by simp only [UInt8.size]; omega)
  simp only [lead?, hbyte]
  rw [if_neg (by omega), if_neg (by omega), if_neg (by omega), if_neg (by omega),
    if_neg (by omega), if_neg (by omega)]
  by_cases hzero : m = 0
  · simp [hzero]
  · by_cases hlast : m = 4
    · simp [hlast]
    · rw [if_neg (by omega), if_pos (by omega), if_neg hzero, if_neg hlast,
        Nat.add_sub_cancel_left]

end Leads

/-- The bytes of a character are read as that character. -/
theorem scan_encodeChar (c : Char) (bs : List UInt8) :
    scan (encodeChar c ++ bs) = some c :: scan bs := by
  have hvalid : c.toNat < 0xD800 ∨ 0xDFFF < c.toNat ∧ c.toNat < 0x110000 := c.valid
  have hback : Char.ofNat c.toNat = c := Char.ofNat_toNat c
  unfold encodeChar
  generalize c.toNat = n at hvalid hback
  simp only
  split
  · rename_i h
    simp only [List.cons_append, List.nil_append]
    rw [scan_cons (lead?_of_one h), follow, Option.map_some, hback]
  split
  · rename_i hlow hhigh
    simp only [List.cons_append, List.nil_append]
    rw [scan_cons (lead?_of_two (by omega) (by omega)),
      follow_cons (by omega) _ _ _ _ _ (by dsimp only; omega) (by dsimp only; omega), follow,
      Option.map_some, Nat.div_add_mod', hback]
  split
  · rename_i hlow hhigh
    have hbits : (n / 4096 * 64 + n / 64 % 64) * 64 + n % 64 = n := by omega
    simp only [List.cons_append, List.nil_append]
    rw [scan_cons (lead?_of_three (by omega)),
      follow_cons (by omega) _ _ _ _ _ (by dsimp only; split <;> omega)
        (by dsimp only; split <;> omega),
      follow_cons (by omega) _ _ _ _ _ (by omega) (by omega), follow, Option.map_some, hbits,
      hback]
  · have hbits : ((n / 262144 * 64 + n / 4096 % 64) * 64 + n / 64 % 64) * 64 + n % 64 = n := by
      omega
    simp only [List.cons_append, List.nil_append]
    rw [scan_cons (lead?_of_four (by omega)),
      follow_cons (by omega) _ _ _ _ _ (by dsimp only; split <;> omega)
        (by dsimp only; split <;> omega),
      follow_cons (by omega) _ _ _ _ _ (by omega) (by omega),
      follow_cons (by omega) _ _ _ _ _ (by omega) (by omega), follow, Option.map_some, hbits,
      hback]

theorem scan_flatMap_encodeChar (cs : List Char) (bs : List UInt8) :
    scan (cs.flatMap encodeChar ++ bs) = cs.map some ++ scan bs := by
  induction cs with
  | nil => rfl
  | cons c cs ih =>
      rw [List.flatMap_cons, List.append_assoc, scan_encodeChar, ih]
      rfl

theorem scan_encode (s : String) : scan (encode s) = s.toList.map some := by
  have h := scan_flatMap_encodeChar s.toList []
  rwa [List.append_nil, scan_nil, List.append_nil] at h

/-- Text comes back from its bytes. -/
@[simp] theorem decodeLossy_encode (s : String) : decodeLossy (encode s) = s := by
  have hvalue : (fun c : Option Char => c.getD '\uFFFD') ∘ some = id := rfl
  rw [decodeLossy, scan_encode, List.map_map, hvalue, List.map_id, String.ofList_toList]

/-- Text that was written in UTF-8 is not refused. -/
@[simp] theorem decode?_encode (s : String) : decode? (encode s) = some s := by
  have hchars (cs : List Char) : (cs.map some).mapM id = some cs := by
    induction cs with
    | nil => rfl
    | cons c cs ih => simp [ih]
  rw [decode?, scan_encode, hchars, Option.map_some, String.ofList_toList]

theorem encode_injective {s t : String} (h : encode s = encode t) : s = t := by
  rw [← decodeLossy_encode s, h, decodeLossy_encode]

theorem encode_eq_nil_iff {s : String} : encode s = [] ↔ s = "" :=
  ⟨fun h => encode_injective (h.trans encode_empty.symm), fun h => h ▸ encode_empty⟩

/-- A byte below 0x80 is the whole of the character that it is a part of. -/
theorem mem_encodeChar_iff {b : UInt8} (hb : b.toNat < 0x80) (c : Char) :
    b ∈ encodeChar c ↔ c.toNat = b.toNat := by
  have hbyte (n : Nat) (h : n < 0x100) : b = n.toUInt8 ↔ n = b.toNat := by
    rw [← UInt8.toNat_inj, UInt8.toNat_ofNat', Nat.mod_eq_of_lt h, eq_comm]
  have hvalid : c.toNat < 0xD800 ∨ 0xDFFF < c.toNat ∧ c.toNat < 0x110000 := c.valid
  unfold encodeChar
  generalize c.toNat = n at hvalid
  simp only
  split
  · rw [List.mem_singleton, hbyte _ (by omega)]
  split
  · simp only [List.mem_cons, List.not_mem_nil, or_false]
    rw [hbyte _ (by omega), hbyte _ (by omega)]
    omega
  split
  · simp only [List.mem_cons, List.not_mem_nil, or_false]
    rw [hbyte _ (by omega), hbyte _ (by omega), hbyte _ (by omega)]
    omega
  · simp only [List.mem_cons, List.not_mem_nil, or_false]
    rw [hbyte _ (by omega), hbyte _ (by omega), hbyte _ (by omega), hbyte _ (by omega)]
    omega

/-- A character below 0x80 is one byte. -/
theorem encodeChar_of_ascii {c : Char} (h : c.toNat < 0x80) : encodeChar c = [c.toUInt8] := by
  simp only [encodeChar, if_pos h]
  rfl

theorem flatMap_encodeChar_of_ascii {cs : List Char} (h : ∀ c ∈ cs, c.toNat < 0x80) :
    cs.flatMap encodeChar = cs.map Char.toUInt8 := by
  induction cs with
  | nil => rfl
  | cons c cs ih =>
      rw [List.forall_mem_cons] at h
      rw [List.flatMap_cons, encodeChar_of_ascii h.1, ih h.2]
      rfl

/-- A byte below 0x80 is in the bytes of a text where its character is in the text. -/
theorem mem_encode_iff {c : Char} (hc : c.toNat < 0x80) (s : String) :
    c.toUInt8 ∈ encode s ↔ c ∈ s.toList := by
  have hbyte : c.toUInt8.toNat = c.toNat := by
    have : c.toUInt8.toNat = c.toNat % 256 := rfl
    omega
  rw [encode, List.mem_flatMap]
  constructor
  · rintro ⟨d, hd, hmem⟩
    rw [mem_encodeChar_iff (by omega), hbyte] at hmem
    rwa [Char.toNat_inj.1 hmem] at hd
  · intro h
    exact ⟨c, h, (mem_encodeChar_iff (by omega) c).2 hbyte.symm⟩

end FieldCamera.Utf8
