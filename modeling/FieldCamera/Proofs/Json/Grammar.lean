import FieldCamera.Json.Skipping
import FieldCamera.Proofs.Json.Values
import FieldCamera.Proofs.Setup.Fields
import Mathlib.Data.List.Forall2
/-!
# The grammar of JSON

Which bytes write a text, a number or a value, with every choice that a writer has: a character may
stand for itself or be escaped in several ways, and blanks may stand between any two parts. A text
is read from each of its forms (`isQuoted_of_writes`), and texts and numbers that nobody asked for
are passed over (`skipText_of_isText`, `skipNumber_append`).
-/

namespace FieldCamera.Json

open Setup (IsHexDigit)

section Texts

/-- A number of four hexadecimal digits, in lower or upper case. -/
inductive HexQuad : Nat → Bytes → Prop
  | digits {a b c d : UInt8} {u v w x : Nat} (first : IsHexDigit a u) (second : IsHexDigit b v)
      (third : IsHexDigit c w) (fourth : IsHexDigit d x) :
      HexQuad (4096 * u + 256 * v + 16 * w + x) [a, b, c, d]

/-- The letters that may follow a backslash, each with the character that it stands for. -/
def escapeLetters : List (Char × Char) :=
  [('"', '"'), ('\\', '\\'), ('/', '/'), ('b', '\x08'), ('f', '\x0c'), ('n', '\n'), ('r', '\r'),
    ('t', '\t')]

/-- What may stand in a text for a character. -/
inductive Spells : Char → Bytes → Prop
  | plain {c : Char} (quote : c ≠ '"') (slash : c ≠ '\\') (control : 0x20 ≤ c.toNat) :
      Spells c (Utf8.encodeChar c)
  | letter {c l : Char} (letter : (l, c) ∈ escapeLetters) :
      Spells c ['\\'.toUInt8, l.toUInt8]
  | number {c : Char} {quad : Bytes} (number : HexQuad c.toNat quad) :
      Spells c ('\\'.toUInt8 :: 'u'.toUInt8 :: quad)
  /-- A character above U+FFFF may be written as two numbers of ten bits each. -/
  | pair {c : Char} {high low : Bytes} (above : 0x10000 ≤ c.toNat)
      (first : HexQuad (0xD800 + (c.toNat - 0x10000) / 0x400) high)
      (second : HexQuad (0xDC00 + (c.toNat - 0x10000) % 0x400) low) :
      Spells c ('\\'.toUInt8 :: 'u'.toUInt8 :: (high ++ '\\'.toUInt8 :: 'u'.toUInt8 :: low))

/-- The forms of a text, between its quotes. -/
def WritesText (s : String) (bs : Bytes) : Prop :=
  ∃ parts : List Bytes, List.Forall₂ Spells s.toList parts ∧
    bs = '"'.toUInt8 :: (parts.flatten ++ ['"'.toUInt8])

/-- A part of a text of which nobody asks what it stands for. An escape by number may have any
digits. -/
inductive IsTextPart : Bytes → Prop
  | plain {c : Char} (quote : c ≠ '"') (slash : c ≠ '\\') (control : 0x20 ≤ c.toNat) :
      IsTextPart (Utf8.encodeChar c)
  | letter {c l : Char} (letter : (l, c) ∈ escapeLetters) : IsTextPart ['\\'.toUInt8, l.toUInt8]
  | number {n : Nat} {quad : Bytes} (number : HexQuad n quad) :
      IsTextPart ('\\'.toUInt8 :: 'u'.toUInt8 :: quad)

def IsText (bs : Bytes) : Prop :=
  ∃ parts : List Bytes, (∀ part ∈ parts, IsTextPart part) ∧
    bs = '"'.toUInt8 :: (parts.flatten ++ ['"'.toUInt8])

theorem HexQuad.hexQuad_eq {n : Nat} {quad : Bytes} (h : HexQuad n quad) (bs : Bytes) :
    hexQuad (quad ++ bs) = .ok (n, bs) := by
  cases h with
  | @digits a b c d u v w x ha hb hc hd =>
      have hhigh := Setup.hexPair?_eq_some_iff.2 ⟨u, v, ha, hb, rfl⟩
      have hlow := Setup.hexPair?_eq_some_iff.2 ⟨w, x, hc, hd, rfl⟩
      have hbyte {m k : Nat} (hm : m < 16) (hk : k < 16) :
          (16 * m + k).toUInt8.toNat = 16 * m + k :=
        UInt8.toNat_ofNat_of_lt' (by simp only [UInt8.size]; omega)
      simp only [List.cons_append, List.nil_append, hexQuad, hhigh, hlow, hbyte ha.1 hb.1,
        hbyte hc.1 hd.1]
      congr 2
      omega

theorem plainEscape?_letter {l c : Char} (h : (l, c) ∈ escapeLetters) :
    plainEscape? l.toUInt8 = some c.toUInt8 ∧ c.toNat < 0x80 := by
  have hall : ∀ p ∈ escapeLetters, plainEscape? p.1.toUInt8 = some p.2.toUInt8 ∧
      p.2.toNat < 0x80 := by
    decide
  exact hall (l, c) h

/-- An escape by number is read for its character. -/
theorem numberedEscape_number {c : Char} {quad : Bytes} (h : HexQuad c.toNat quad) (bs : Bytes) :
    numberedEscape (quad ++ bs) = .ok (c, bs) := by
  have hvalid : c.toNat < 0xD800 ∨ 0xDFFF < c.toNat ∧ c.toNat < 0x110000 := c.valid
  simp only [numberedEscape, h.hexQuad_eq, bind, Except.bind]
  rw [if_neg (by omega), if_pos (by omega), Char.ofNat_toNat]

theorem numberedEscape_pair {c : Char} {high low : Bytes} (above : 0x10000 ≤ c.toNat)
    (hhigh : HexQuad (0xD800 + (c.toNat - 0x10000) / 0x400) high)
    (hlow : HexQuad (0xDC00 + (c.toNat - 0x10000) % 0x400) low) (bs : Bytes) :
    numberedEscape (high ++ ('\\'.toUInt8 :: 'u'.toUInt8 :: (low ++ bs))) = .ok (c, bs) := by
  have hvalid : c.toNat < 0xD800 ∨ 0xDFFF < c.toNat ∧ c.toNat < 0x110000 := c.valid
  have hback : 0x10000 + (0xD800 + (c.toNat - 0x10000) / 0x400 - 0xD800) * 0x400 +
      (0xDC00 + (c.toNat - 0x10000) % 0x400 - 0xDC00) = c.toNat := by
    omega
  have hmark : expect ['\\', 'u'] ('\\'.toUInt8 :: 'u'.toUInt8 :: (low ++ bs)) = .ok (low ++ bs) :=
    rfl
  simp only [numberedEscape, hhigh.hexQuad_eq, hlow.hexQuad_eq, hmark, bind, Except.bind]
  rw [if_neg (by omega), if_neg (by omega), if_pos (by omega), hback, Char.ofNat_toNat]

/-- The bytes of a character are read from whatever it is spelled as. -/
theorem Spells.textBytes_eq {c : Char} {part : Bytes} (h : Spells c part) (bs : Bytes) :
    textBytes false (part ++ bs) =
      (textBytes false bs).map fun r => (Utf8.encodeChar c ++ r.1, r.2) := by
  have hnumbered {digits rest : Bytes} (hread : numberedEscape digits = .ok (c, rest)) :
      escape false ('u'.toUInt8 :: digits) = .ok (Utf8.encodeChar c, rest) := by
    have hplain : plainEscape? 'u'.toUInt8 = none := by decide
    simp [escape, hplain, hread, Except.map]
  cases h with
  | plain hquote hslash hcontrol =>
      exact textBytes_append (fun b hb => isPlainByte_of_mem hquote hslash hcontrol hb) bs
  | letter hletter =>
      obtain ⟨hplain, hascii⟩ := plainEscape?_letter hletter
      rw [List.cons_append, List.cons_append, List.nil_append,
        textBytes_escape (escape_letter hplain bs), Utf8.encodeChar_of_ascii hascii]
  | number hquad =>
      rw [List.cons_append, List.cons_append,
        textBytes_escape (hnumbered (numberedEscape_number hquad bs))]
  | pair above hhigh hlow =>
      rw [List.cons_append, List.cons_append, List.append_assoc, List.cons_append, List.cons_append,
        textBytes_escape (hnumbered (numberedEscape_pair above hhigh hlow bs))]

/-- A text is read from each of its forms. -/
theorem isQuoted_of_writes {s : String} {bs : Bytes} (h : WritesText s bs) : IsQuoted bs s := by
  obtain ⟨parts, hparts, rfl⟩ := h
  refine ⟨parts.flatten ++ ['"'.toUInt8], rfl, fun rest => ?_⟩
  have hbytes {cs : List Char} {parts : List Bytes} (hparts : List.Forall₂ Spells cs parts) :
      textBytes false (parts.flatten ++ '"'.toUInt8 :: rest) =
        .ok (cs.flatMap Utf8.encodeChar, rest) := by
    induction hparts with
    | nil => exact textBytes_close rest
    | cons hpart _ ih =>
        rw [List.flatten_cons, List.append_assoc, hpart.textBytes_eq, ih, List.flatMap_cons]
        rfl
  have hdecode : Utf8.decode? (s.toList.flatMap Utf8.encodeChar) = some s := Utf8.decode?_encode s
  rw [List.append_assoc, List.singleton_append, openText]
  simp only [hbytes hparts, hdecode, bind, Except.bind]

theorem IsTextPart.textBytes_eq {part : Bytes} (h : IsTextPart part) (bs : Bytes) :
    ∃ new, textBytes true (part ++ bs) =
      (textBytes true bs).map fun r => (new ++ r.1, r.2) := by
  cases h with
  | @plain c hquote hslash hcontrol =>
      exact ⟨_, textBytes_append (fun b hb => isPlainByte_of_mem hquote hslash hcontrol hb) bs⟩
  | letter hletter =>
      exact ⟨_, textBytes_escape (escape_letter (plainEscape?_letter hletter).1 bs)⟩
  | @number n quad hquad =>
      have hplain : plainEscape? 'u'.toUInt8 = none := by decide
      have hescape : escape true ('u'.toUInt8 :: (quad ++ bs)) = .ok ([], bs) := by
        simp [escape, hplain, hquad.hexQuad_eq, Except.map]
      exact ⟨_, textBytes_escape hescape⟩

/-- A text is passed over behind its opening quote. -/
theorem skipText_of_isText {bs : Bytes} (h : IsText bs) :
    ∃ body, bs = '"'.toUInt8 :: body ∧ ∀ rest, skipText (body ++ rest) = .ok rest := by
  obtain ⟨parts, hparts, rfl⟩ := h
  refine ⟨parts.flatten ++ ['"'.toUInt8], rfl, fun rest => ?_⟩
  rw [List.append_assoc, List.singleton_append]
  induction parts with
  | nil =>
      rw [List.flatten_nil, List.nil_append, skipText, textBytes_close]
      rfl
  | cons part parts ih =>
      rw [List.forall_mem_cons] at hparts
      obtain ⟨new, hnew⟩ := hparts.1.textBytes_eq (parts.flatten ++ '"'.toUInt8 :: rest)
      have hrest := ih hparts.2
      rw [skipText] at hrest ⊢
      rw [List.flatten_cons, List.append_assoc, hnew]
      cases hread : textBytes true (parts.flatten ++ '"'.toUInt8 :: rest) with
      | error fault =>
          rw [hread] at hrest
          contradiction
      | ok r =>
          rw [hread] at hrest
          exact hrest

end Texts

section Numbers

/-- Digits of which there is at least one. -/
structure IsDigits (ds : Bytes) : Prop where
  given : ds ≠ []
  digits : ∀ d ∈ ds, isDigitByte d = true

/-- The integer part of a number, which has no zero in front of other digits. -/
inductive IsWhole : Bytes → Prop
  | zero : IsWhole ['0'.toUInt8]
  | digits {d : UInt8} {ds : Bytes} (first : isDigitByte d = true) (nonzero : d ≠ '0'.toUInt8)
      (more : ∀ d ∈ ds, isDigitByte d = true) : IsWhole (d :: ds)

inductive IsFraction : Bytes → Prop
  | none : IsFraction []
  | some {ds : Bytes} (digits : IsDigits ds) : IsFraction ('.'.toUInt8 :: ds)

inductive IsExponent : Bytes → Prop
  | none : IsExponent []
  | some {mark : UInt8} {sign ds : Bytes} (marked : mark ∈ ['e'.toUInt8, 'E'.toUInt8])
      (signed : sign ∈ [[], ['+'.toUInt8], ['-'.toUInt8]]) (digits : IsDigits ds) :
      IsExponent (mark :: (sign ++ ds))

/-- A number of any size. -/
inductive IsNumber : Bytes → Prop
  | parts {sign whole fraction exponent : Bytes} (signed : sign ∈ [[], ['-'.toUInt8]])
      (hwhole : IsWhole whole) (hfraction : IsFraction fraction) (hexponent : IsExponent exponent) :
      IsNumber (sign ++ (whole ++ (fraction ++ exponent)))

/-- Digits are passed over up to the first other byte. -/
theorem skipDigits_append {ds rest : Bytes} (h : IsDigits ds)
    (hrest : ∀ b ∈ rest.head?, isDigitByte b = false) : skipDigits (ds ++ rest) = .ok rest := by
  have hdrop : (ds ++ rest).dropWhile isDigitByte = rest := by
    rw [List.dropWhile_append_of_pos h.digits]
    cases rest with
    | nil => rfl
    | cons b rest => simp [hrest b rfl]
  obtain ⟨hgiven, hdigits⟩ := h
  cases ds with
  | nil => contradiction
  | cons d ds =>
      rw [List.forall_mem_cons] at hdigits
      rw [List.cons_append, List.dropWhile_cons_of_pos hdigits.1] at hdrop
      rw [List.cons_append, skipDigits, if_pos hdigits.1, hdrop]

section Parts

variable {fraction exponent rest : Bytes}

/-- An exponent, or what follows a number, goes on with no digit and no point. -/
theorem IsExponent.head_append (h : IsExponent exponent) (hrest : Closes rest) :
    ∀ b ∈ (exponent ++ rest).head?, isDigitByte b = false ∧ b ≠ '.'.toUInt8 := by
  cases h with
  | none => exact fun b hb => ⟨(hrest.ne hb).1, (hrest.ne hb).2.1⟩
  | some hmark =>
      intro b hb
      obtain rfl := Option.some.inj hb
      simp only [List.mem_cons, List.not_mem_nil, or_false] at hmark
      obtain rfl | rfl := hmark <;> decide

theorem IsFraction.head_append (h : IsFraction fraction) (he : IsExponent exponent)
    (hrest : Closes rest) :
    ∀ b ∈ (fraction ++ (exponent ++ rest)).head?, isDigitByte b = false := by
  cases h with
  | none => exact fun b hb => (he.head_append hrest b hb).1
  | some =>
      intro b hb
      obtain rfl := Option.some.inj hb
      decide

theorem skipExponent_append (h : IsExponent exponent) (hrest : Closes rest) :
    skipExponent (exponent ++ rest) = .ok rest := by
  cases h with
  | none =>
      cases rest with
      | nil => rfl
      | cons b rest =>
          obtain ⟨-, -, hsmall, hlarge⟩ := hrest.ne (b := b) rfl
          simp [skipExponent, hsmall, hlarge]
  | @some mark sign ds hmark hsign hdigits =>
      have hend := skipDigits_append hdigits fun b hb => (hrest.ne hb).1
      have hmark : mark = 'e'.toUInt8 ∨ mark = 'E'.toUInt8 := by simpa using hmark
      simp only [List.mem_cons, List.not_mem_nil, or_false] at hsign
      obtain rfl | rfl | rfl := hsign
      · obtain ⟨d, ds, rfl⟩ := List.exists_cons_of_ne_nil hdigits.given
        have hdigit : isDigitByte d = true := hdigits.digits d List.mem_cons_self
        have hunsigned : ¬(d = '+'.toUInt8 ∨ d = '-'.toUInt8) := by
          rintro (rfl | rfl) <;> exact absurd hdigit (by decide)
        simp only [List.cons_append, List.nil_append, skipExponent, if_pos hmark, if_neg hunsigned]
        exact hend
      · simp only [List.cons_append, List.nil_append, skipExponent, if_pos hmark, true_or, if_true,
          hend]
      · simp only [List.cons_append, List.nil_append, skipExponent, if_pos hmark, or_true, if_true,
          hend]

theorem skipFraction_append (h : IsFraction fraction) (he : IsExponent exponent)
    (hrest : Closes rest) : skipFraction (fraction ++ (exponent ++ rest)) = .ok rest := by
  have hexponent := skipExponent_append he hrest
  have hhead := he.head_append hrest
  cases h with
  | none =>
      rw [List.nil_append]
      cases htail : exponent ++ rest with
      | nil =>
          rw [htail] at hexponent
          exact hexponent
      | cons b tail =>
          rw [htail] at hhead hexponent
          rw [skipFraction, if_neg (hhead b rfl).2, hexponent]
  | some hdigits =>
      rw [List.cons_append, skipFraction, if_pos rfl,
        skipDigits_append hdigits fun b hb => (hhead b hb).1]
      exact hexponent

theorem skipNumber_append {whole : Bytes} (h : IsWhole whole) (hf : IsFraction fraction)
    (he : IsExponent exponent) (hrest : Closes rest) :
    skipNumber (whole ++ (fraction ++ (exponent ++ rest))) = .ok rest := by
  have hfraction := skipFraction_append hf he hrest
  have hhead := hf.head_append he hrest
  cases h with
  | zero =>
      cases htail : fraction ++ (exponent ++ rest) with
      | nil =>
          rw [htail] at hfraction
          exact hfraction
      | cons b tail =>
          rw [htail] at hhead hfraction
          simp only [List.singleton_append, skipNumber, if_true, hhead b rfl, Bool.false_eq_true,
            if_false, hfraction]
  | @digits d ds hfirst hnonzero hmore =>
      have hall : IsDigits (d :: ds) :=
        ⟨List.cons_ne_nil d ds, List.forall_mem_cons.2 ⟨hfirst, hmore⟩⟩
      have hdigits := skipDigits_append hall hhead
      rw [List.cons_append] at hdigits ⊢
      simp only [skipNumber, if_neg hnonzero, hdigits, bind, Except.bind, hfraction]

end Parts

end Numbers

section Values

def Container.opening : Container → UInt8
  | array => '['.toUInt8
  | object => '\x7b'.toUInt8

/-- What stands in front of a value inside a container, and then makes it the next item. -/
inductive Front : Container → Bytes → Prop
  | array {lead : Bytes} (blank : Blank lead) : Front .array lead
  | object {lead name gap pad : Bytes} (blank : ∀ bs ∈ [lead, gap, pad], Blank bs)
      (isText : IsText name) : Front .object (lead ++ (name ++ (gap ++ ':'.toUInt8 :: pad)))

/-- A piece of JSON: a value, or all items of a container. -/
inductive Piece where
  | value
  | items (c : Container)

/-- Whether some bytes write a piece of JSON. -/
inductive Written : Piece → Bytes → Prop
  | word {word : String} (known : word ∈ ["null", "true", "false"]) :
      Written .value (Utf8.encode word)
  | number {bs : Bytes} (isNumber : IsNumber bs) : Written .value bs
  | text {bs : Bytes} (isText : IsText bs) : Written .value bs
  | empty {gap : Bytes} (c : Container) (blank : Blank gap) :
      Written .value (c.opening :: (gap ++ [c.closing]))
  | filled {c : Container} {items : Bytes} (inner : Written (.items c) items) :
      Written .value (c.opening :: (items ++ [c.closing]))
  | last {c : Container} {front value trail : Bytes} (hfront : Front c front)
      (hvalue : Written .value value) (blank : Blank trail) :
      Written (.items c) (front ++ (value ++ trail))
  | cons {c : Container} {front value trail items : Bytes} (hfront : Front c front)
      (hvalue : Written .value value) (blank : Blank trail) (more : Written (.items c) items) :
      Written (.items c) (front ++ (value ++ (trail ++ ','.toUInt8 :: items)))

end Values

end FieldCamera.Json
