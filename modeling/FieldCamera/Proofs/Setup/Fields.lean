import FieldCamera.Proofs.Text.Occurrence
import FieldCamera.Setup.Encoding
/-!
# What a form says

A form is pairs with ampersands between them. The first pair of a name says the value of its field
(`FirstValue`), in an encoding that leaves no choice to its reader (`Spells`). Reading a field gives
just the text that is meant there (`field_eq_iff`).
-/

namespace FieldCamera.Setup

/-- A byte that is the digit of a value, in lower or upper case. -/
def IsHexDigit (b : UInt8) (v : Nat) : Prop :=
  v < 16 ∧ (b = v.digitChar.toUInt8 ∨ b = v.digitChar.toUpper.toUInt8)

instance (b : UInt8) (v : Nat) : Decidable (IsHexDigit b v) :=
  inferInstanceAs (Decidable (_ ∧ _))

theorem IsHexDigit.hexDigit? {b : UInt8} {v : Nat} (h : IsHexDigit b v) :
    Text.hexDigit? b = some v.toUInt8 := by
  have hdigits : ∀ v < 16, Text.hexDigit? v.digitChar.toUInt8 = some v.toUInt8 ∧
      Text.hexDigit? v.digitChar.toUpper.toUInt8 = some v.toUInt8 := by
    decide
  obtain ⟨hv, rfl | rfl⟩ := h
  · exact (hdigits v hv).1
  · exact (hdigits v hv).2

theorem isHexDigit_of_hexDigit? {b d : UInt8} (h : Text.hexDigit? b = some d) :
    IsHexDigit b d.toNat := by
  have hbytes : ∀ n : Fin 256, (Text.hexDigit? (UInt8.ofFin n)).all fun d =>
      decide (IsHexDigit (UInt8.ofFin n) d.toNat) := by
    decide +kernel
  have hbyte := hbytes b.toFin
  rw [UInt8.ofFin_toFin, h] at hbyte
  exact of_decide_eq_true hbyte

theorem hexPair?_eq_some_iff {h l x : UInt8} :
    Text.hexPair? h l = some x ↔
      ∃ u v, IsHexDigit h u ∧ IsHexDigit l v ∧ x = (16 * u + v).toUInt8 := by
  have hvalue (u v : Nat) : (16 * u + v).toUInt8 = u.toUInt8 * 16 + v.toUInt8 := by
    rw [Nat.toUInt8, UInt8.ofNat_add, UInt8.ofNat_mul, UInt8.mul_comm]
    rfl
  constructor
  · intro hpair
    cases hh : Text.hexDigit? h with
    | none => simp [Text.hexPair?, hh] at hpair
    | some u =>
        cases hl : Text.hexDigit? l with
        | none => simp [Text.hexPair?, hh, hl] at hpair
        | some v =>
            obtain rfl : u * 16 + v = x := by simpa [Text.hexPair?, hh, hl] using hpair
            refine ⟨u.toNat, v.toNat, isHexDigit_of_hexDigit? hh, isHexDigit_of_hexDigit? hl, ?_⟩
            rw [hvalue]
            simp
  · rintro ⟨u, v, hu, hv, rfl⟩
    simp only [Text.hexPair?, hu.hexDigit?, hv.hexDigit?, hvalue]

/-- Bytes that begin with two digits, so that a percent sign in front of them is an escape. -/
def StartsByte (bs : List UInt8) : Prop :=
  ∃ h l rest u v, bs = h :: l :: rest ∧ IsHexDigit h u ∧ IsHexDigit l v

/-- The bytes that an encoded value spells. -/
inductive Spells : List UInt8 → List UInt8 → Prop
  | nil : Spells [] []
  | space {bs vs : List UInt8} (rest : Spells bs vs) :
      Spells ('+'.toUInt8 :: bs) (' '.toUInt8 :: vs)
  | byte {h l : UInt8} {u v : Nat} {bs vs : List UInt8} (high : IsHexDigit h u)
      (low : IsHexDigit l v) (rest : Spells bs vs) :
      Spells ('%'.toUInt8 :: h :: l :: bs) ((16 * u + v).toUInt8 :: vs)
  | percent {bs vs : List UInt8} (alone : ¬StartsByte bs) (rest : Spells bs vs) :
      Spells ('%'.toUInt8 :: bs) ('%'.toUInt8 :: vs)
  | literal {b : UInt8} {bs vs : List UInt8} (plus : b ≠ '+'.toUInt8) (percent : b ≠ '%'.toUInt8)
      (rest : Spells bs vs) : Spells (b :: bs) (b :: vs)

theorem spells_unescape (bs : List UInt8) : Spells bs (unescape bs) := by
  fun_induction unescape bs with
  | case1 => exact .nil
  | case2 bs ih => exact .space ih
  | case3 h l rest x hpair _ ih =>
      obtain ⟨u, v, hu, hv, rfl⟩ := hexPair?_eq_some_iff.1 hpair
      exact .byte hu hv ih
  | case4 h l rest hnone _ ih =>
      refine .percent ?_ ih
      rintro ⟨_, _, _, u, v, heq, hu, hv⟩
      cases heq
      rw [hexPair?_eq_some_iff.2 ⟨u, v, hu, hv, rfl⟩] at hnone
      contradiction
  | case5 rest hshort _ ih =>
      refine .percent ?_ ih
      rintro ⟨h, l, more, u, v, heq, -⟩
      exact hshort h l more heq
  | case6 b bs hplus hpercent ih => exact .literal hplus hpercent ih

theorem unescape_percent {bs : List UInt8} (h : ¬StartsByte bs) :
    unescape ('%'.toUInt8 :: bs) = '%'.toUInt8 :: unescape bs := by
  match bs with
  | [] => rfl
  | [b] => rfl
  | high :: low :: rest =>
      have hnone : Text.hexPair? high low = none := by
        rw [Option.eq_none_iff_forall_ne_some]
        intro x hpair
        obtain ⟨u, v, hu, hv, -⟩ := hexPair?_eq_some_iff.1 hpair
        exact h ⟨high, low, rest, u, v, rfl, hu, hv⟩
      rw [unescape, if_neg (by decide), if_pos rfl]
      simp only [hnone]

/-- An encoded value spells nothing but what it is read as. -/
theorem spells_iff {bs vs : List UInt8} : Spells bs vs ↔ unescape bs = vs := by
  refine ⟨fun h => ?_, fun h => h ▸ spells_unescape bs⟩
  induction h with
  | nil => rfl
  | space rest ih =>
      rw [unescape.eq_def]
      simp only [if_true, ih]
  | byte high low rest ih =>
      have hpair := hexPair?_eq_some_iff.2 ⟨_, _, high, low, rfl⟩
      rw [unescape, if_neg (by decide), if_pos rfl]
      simp only [hpair, ih]
  | percent alone rest ih => rw [unescape_percent alone, ih]
  | literal plus percent rest ih =>
      rw [unescape.eq_def]
      simp only [if_neg plus, if_neg percent, ih]

/-- The text that an encoded value means. -/
def Means (value text : String) : Prop :=
  ∃ bytes, Spells (Utf8.encode value) bytes ∧ Utf8.decodeLossy bytes = text

theorem means_iff {value text : String} : Means value text ↔ decodeValue value = text := by
  constructor
  · rintro ⟨bytes, hspells, htext⟩
    rw [decodeValue, spells_iff.1 hspells, htext]
  · exact fun h => ⟨_, spells_unescape _, h⟩

/-- A pair of this name, and its value. -/
inductive IsPair (name : List Char) : List Char → List Char → Prop
  | value (value : List Char) : IsPair name (name ++ '=' :: value) value
  | bare : IsPair name name []

theorem isPair_iff {name pair value : List Char} (hname : '=' ∉ name) :
    IsPair name pair value ↔ splitPair pair = (name, value) := by
  constructor
  · rintro (value | _)
    · rw [splitPair, Text.cut_eq_some_iff.2 ⟨rfl, hname⟩, Option.getD_some]
    · rw [splitPair, Text.cut_eq_none_iff.2 hname, Option.getD_none]
  · intro h
    rw [splitPair] at h
    cases hcut : Text.cut '=' pair with
    | none =>
        rw [hcut, Option.getD_none] at h
        obtain ⟨rfl, rfl⟩ := Prod.mk.inj h
        exact .bare
    | some r =>
        rw [hcut, Option.getD_some] at h
        rw [h, Text.cut_eq_some_iff] at hcut
        rw [hcut.1]
        exact .value value

/-- The value of the first pair of a form that has this name. -/
def FirstValue (name form value : String) : Prop :=
  ∃ earlier pair later, form.toList = ['&'].intercalate (earlier ++ pair :: later) ∧
    (∀ p ∈ earlier ++ pair :: later, '&' ∉ p) ∧
    (∀ p ∈ earlier, ∀ v, ¬IsPair name.toList p v) ∧
    IsPair name.toList pair value.toList

/-- The first pair of a name is the first that splits into the name and a value. -/
theorem firstValue_iff {name form value : String} (hname : '=' ∉ name.toList) :
    FirstValue name form value ↔
      ((Text.pieces '&' form.toList).map splitPair).find? (·.1 == name.toList) =
        some (name.toList, value.toList) := by
  rw [List.find?_map, Option.map_eq_some_iff]
  constructor
  · rintro ⟨earlier, pair, later, hform, hfree, hearlier, hpair⟩
    have hpieces : Text.pieces '&' form.toList = earlier ++ pair :: later :=
      Text.pieces_eq_iff.2 ⟨by simp, hfree, hform⟩
    have hsplit := (isPair_iff hname).1 hpair
    refine ⟨pair, ?_, hsplit⟩
    rw [hpieces, List.find?_eq_some_iff_append]
    refine ⟨by simp [hsplit], earlier, later, rfl, fun p hp => ?_⟩
    have hother : (splitPair p).1 ≠ name.toList := fun h =>
      hearlier p hp _ ((isPair_iff hname).2 (Prod.ext h rfl))
    simp [hother]
  · rintro ⟨pair, hfind, hsplit⟩
    obtain ⟨-, earlier, later, hpieces, hearlier⟩ := List.find?_eq_some_iff_append.1 hfind
    obtain ⟨-, hfree, hform⟩ := Text.pieces_eq_iff.1 hpieces
    refine ⟨earlier, pair, later, hform, hfree, fun p hp v hpair => ?_, (isPair_iff hname).2 hsplit⟩
    have hother := hearlier p hp
    simp [(isPair_iff hname).1 hpair] at hother

/-- A field has just the value that the first pair of its name means, and none without one. -/
theorem field_eq_iff {name form text : String} (hname : '=' ∉ name.toList) (htext : text ≠ "") :
    field form name = text ↔ ∃ value, FirstValue name form value ∧ Means value text := by
  simp only [firstValue_iff hname, means_iff]
  unfold field
  dsimp only
  constructor
  · intro h
    split at h
    · rename_i pair hfind
      have hkey : pair.1 = name.toList := by simpa using List.find?_some hfind
      refine ⟨String.ofList pair.2, ?_, h⟩
      rw [hfind, ← hkey, String.toList_ofList]
    · exact absurd h.symm htext
  · rintro ⟨value, hfind, htext⟩
    rw [hfind]
    simp only [String.ofList_toList, htext]

end FieldCamera.Setup
