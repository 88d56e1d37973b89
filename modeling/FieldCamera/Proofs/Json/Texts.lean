import FieldCamera.Json.Reading
import FieldCamera.Proofs.Text.Utf8
/-!
# Reading back a quoted text

Whatever a character is escaped to, its bytes are read from there (`textBytes_escapeChar`). So a
text is read back from its quoted form, whatever stands behind it (`isQuoted_quote`).
-/

namespace FieldCamera.Json

section Bytes

variable {skipping : Bool}

theorem textBytes_close (bs : Bytes) : textBytes skipping ('"'.toUInt8 :: bs) = .ok ([], bs) := by
  rw [textBytes, if_pos rfl]

theorem textBytes_escape {bs new rest : Bytes} (h : escape skipping bs = .ok (new, rest)) :
    textBytes skipping ('\\'.toUInt8 :: bs) =
      (textBytes skipping rest).map fun r => (new ++ r.1, r.2) := by
  rw [textBytes, if_neg (by decide), if_pos rfl]
  split <;> simp_all

/-- A byte that stands for itself in a text. -/
def IsPlainByte (b : UInt8) : Prop :=
  b ≠ '"'.toUInt8 ∧ b ≠ '\\'.toUInt8 ∧ ¬b < 0x20

theorem textBytes_plain {b : UInt8} (h : IsPlainByte b) (bs : Bytes) :
    textBytes skipping (b :: bs) = (textBytes skipping bs).map fun r => (b :: r.1, r.2) := by
  rw [textBytes, if_neg h.1, if_neg h.2.1, if_neg h.2.2]

theorem textBytes_append {plain : Bytes} (h : ∀ b ∈ plain, IsPlainByte b) (bs : Bytes) :
    textBytes skipping (plain ++ bs) =
      (textBytes skipping bs).map fun r => (plain ++ r.1, r.2) := by
  induction plain with
  | nil =>
      cases hbs : textBytes skipping bs <;> simp [Except.map, hbs]
  | cons b plain ih =>
      rw [List.forall_mem_cons] at h
      rw [List.cons_append, textBytes_plain h.1, ih h.2]
      cases textBytes skipping bs <;> rfl

end Bytes

section Escapes

theorem escape_letter {skipping : Bool} {b plain : UInt8} (h : plainEscape? b = some plain)
    (bs : Bytes) : escape skipping (b :: bs) = .ok ([plain], bs) := by
  simp only [escape, h]

/-- A control character is escaped by its number, which is read from there. -/
theorem escape_numbered {c : Char} (h : c.toNat < 0x20) (bs : Bytes) :
    escape false (Utf8.encode ("u" ++ Text.hexPadded 4 c.toNat) ++ bs) =
      .ok (Utf8.encodeChar c, bs) := by
  have hdigits : ∀ n < 0x20, Utf8.encode ("u" ++ Text.hexPadded 4 n) =
      ['u'.toUInt8, '0'.toUInt8, '0'.toUInt8, (n / 16).digitChar.toUInt8,
        (n % 16).digitChar.toUInt8] := by
    decide +kernel
  have hlow : ∀ n < 0x20, Text.hexPair? (n / 16).digitChar.toUInt8 (n % 16).digitChar.toUInt8 =
      some n.toUInt8 := by
    decide +kernel
  have hhigh : Text.hexPair? '0'.toUInt8 '0'.toUInt8 = some 0 := by decide
  have hbyte : c.toNat.toUInt8.toNat = c.toNat :=
    UInt8.toNat_ofNat_of_lt' (by simp only [UInt8.size]; omega)
  have hnumber : numberedEscape ('0'.toUInt8 :: '0'.toUInt8 :: (c.toNat / 16).digitChar.toUInt8 ::
      (c.toNat % 16).digitChar.toUInt8 :: bs) = .ok (c, bs) := by
    have hquad : hexQuad ('0'.toUInt8 :: '0'.toUInt8 :: (c.toNat / 16).digitChar.toUInt8 ::
        (c.toNat % 16).digitChar.toUInt8 :: bs) = .ok (c.toNat, bs) := by
      simp only [hexQuad, hhigh, hlow _ h, hbyte, UInt8.toNat_zero, Nat.zero_mul, Nat.zero_add]
    simp only [numberedEscape, hquad, bind, Except.bind]
    rw [if_neg (by omega), if_pos (by omega), Char.ofNat_toNat]
  rw [hdigits _ h]
  simp only [List.cons_append, List.nil_append, escape, plainEscape?]
  simp only [hnumber]
  rfl

/-- What a character is escaped to: a letter for it, its number, or itself. -/
theorem escapeChar_cases (c : Char) :
    (c.toNat < 0x80 ∧ ∃ b, Utf8.encode (escapeChar c) = ['\\'.toUInt8, b] ∧
      plainEscape? b = some c.toUInt8) ∨
    (c.toNat < 0x20 ∧ escapeChar c = "\\u" ++ Text.hexPadded 4 c.toNat) ∨
    (escapeChar c = c.toString ∧ c ≠ '"' ∧ c ≠ '\\' ∧ 0x20 ≤ c.toNat) := by
  have hletters : ∀ c ∈ ['"', '\\', '\x08', '\x0c', '\n', '\r', '\t'], c.toNat < 0x80 ∧
      ∃ b, Utf8.encode (escapeChar c) = ['\\'.toUInt8, b] ∧ plainEscape? b = some c.toUInt8 := by
    simp only [List.forall_mem_cons]
    exact ⟨⟨by decide, '"'.toUInt8, by decide +kernel, by decide⟩,
      ⟨by decide, '\\'.toUInt8, by decide +kernel, by decide⟩,
      ⟨by decide, 'b'.toUInt8, by decide +kernel, by decide⟩,
      ⟨by decide, 'f'.toUInt8, by decide +kernel, by decide⟩,
      ⟨by decide, 'n'.toUInt8, by decide +kernel, by decide⟩,
      ⟨by decide, 'r'.toUInt8, by decide +kernel, by decide⟩,
      ⟨by decide, 't'.toUInt8, by decide +kernel, by decide⟩, List.forall_mem_nil _⟩
  by_cases hletter : c ∈ ['"', '\\', '\x08', '\x0c', '\n', '\r', '\t']
  · exact .inl (hletters c hletter)
  · simp only [List.mem_cons, List.not_mem_nil, or_false, not_or] at hletter
    obtain ⟨hquote, hslash, hbackspace, hform, hfeed, hreturn, htab⟩ := hletter
    simp only [escapeChar, if_neg hquote, if_neg hslash, if_neg hbackspace, if_neg hform,
      if_neg hfeed, if_neg hreturn, if_neg htab]
    by_cases hcontrol : c.toNat < 0x20
    · exact .inr (.inl ⟨hcontrol, if_pos hcontrol⟩)
    · exact .inr (.inr ⟨if_neg hcontrol, hquote, hslash, by omega⟩)

/-- The bytes of a character that is not escaped stand for themselves. -/
theorem isPlainByte_of_mem {c : Char} (hquote : c ≠ '"') (hslash : c ≠ '\\')
    (hcontrol : 0x20 ≤ c.toNat) {b : UInt8} (h : b ∈ Utf8.encodeChar c) : IsPlainByte b := by
  by_cases hsmall : b.toNat < 0x80
  · have hsame := (Utf8.mem_encodeChar_iff hsmall c).1 h
    refine ⟨?_, ?_, ?_⟩
    · rintro rfl
      exact hquote (Char.toNat_inj.1 hsame)
    · rintro rfl
      exact hslash (Char.toNat_inj.1 hsame)
    · rw [UInt8.lt_iff_toNat_lt, ← hsame]
      exact Nat.not_lt.2 hcontrol
  · refine ⟨?_, ?_, ?_⟩
    · rintro rfl
      exact hsmall (by decide)
    · rintro rfl
      exact hsmall (by decide)
    · rw [UInt8.lt_iff_toNat_lt]
      exact fun hlow => hsmall (Nat.lt_trans hlow (by decide))

/-- The bytes of a character are read from what it is escaped to. -/
theorem textBytes_escapeChar (c : Char) (bs : Bytes) :
    textBytes false (Utf8.encode (escapeChar c) ++ bs) =
      (textBytes false bs).map fun r => (Utf8.encodeChar c ++ r.1, r.2) := by
  obtain ⟨hsmall, b, hescape, hplain⟩ | ⟨hcontrol, hescape⟩ | ⟨hescape, hquote, hslash, hhigh⟩ :=
    escapeChar_cases c
  · rw [hescape, List.cons_append, List.cons_append, List.nil_append,
      textBytes_escape (escape_letter hplain bs), Utf8.encodeChar_of_ascii hsmall]
  · have hstart : Utf8.encode "\\u" = '\\'.toUInt8 :: Utf8.encode "u" := by decide +kernel
    rw [hescape, Utf8.encode_append, hstart, List.cons_append, ← Utf8.encode_append,
      List.cons_append, textBytes_escape (escape_numbered hcontrol bs)]
  · have hself : Utf8.encode c.toString = Utf8.encodeChar c := by simp [Utf8.encode]
    rw [hescape, hself, textBytes_append fun b hb => isPlainByte_of_mem hquote hslash hhigh hb]

end Escapes

theorem textBytes_escaped (cs : List Char) (rest : Bytes) :
    textBytes false (Utf8.encode (String.join (cs.map escapeChar)) ++ '"'.toUInt8 :: rest) =
      .ok (cs.flatMap Utf8.encodeChar, rest) := by
  induction cs with
  | nil => exact textBytes_close rest
  | cons c cs ih =>
      have hjoin : String.join ((c :: cs).map escapeChar) =
          escapeChar c ++ String.join (cs.map escapeChar) := by
        rw [← String.toList_inj]
        simp [String.toList_join]
      rw [hjoin, Utf8.encode_append, List.append_assoc, textBytes_escapeChar, ih]
      rfl

/-- Bytes that hold a text between quotes, whatever stands behind them. -/
def IsQuoted (bs : Bytes) (s : String) : Prop :=
  ∃ body, bs = '"'.toUInt8 :: body ∧ ∀ rest, openText (body ++ rest) = .ok (s, rest)

theorem isQuoted_quote (s : String) : IsQuoted (Utf8.encode (quote s)) s := by
  have hmark : Utf8.encode "\"" = ['"'.toUInt8] := by decide +kernel
  refine ⟨Utf8.encode (String.join (s.toList.map escapeChar)) ++ ['"'.toUInt8], ?_, ?_⟩
  · rw [quote, Utf8.encode_append, Utf8.encode_append, hmark, List.append_assoc,
      List.singleton_append]
  · intro rest
    have hbytes := textBytes_escaped s.toList rest
    have hdecode := Utf8.decode?_encode s
    rw [Utf8.encode] at hdecode
    rw [List.append_assoc, List.singleton_append, openText]
    simp only [hbytes, bind, Except.bind]
    rw [hdecode]

end FieldCamera.Json
