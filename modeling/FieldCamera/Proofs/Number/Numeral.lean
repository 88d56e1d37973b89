import FieldCamera.Proofs.Number.Leading
import Mathlib.Data.List.TakeWhile
/-!
# The number at the front of a text

Blanks, a sign, digits and a rest divide every text (`exists_numeral`). However many digits there
are, what is read is their value, stopped once at the greatest number and then signed
(`Numeral.leading_text`). The same steps taken in words of 64 bits give the same number, and none of
them wraps (`leadingWord?_eq`).
-/

namespace FieldCamera.Number

inductive Sign where
  | absent
  | plus
  | minus
  deriving DecidableEq, Repr

namespace Sign

def text : Sign → List Char
  | absent => []
  | plus => ['+']
  | minus => ['-']

/-- The number of a sign and a magnitude. -/
def of : Sign → Nat → Int
  | minus, n => -n
  | _, n => n

end Sign

/-- A text with a number at its front: blanks, at most one sign, any digits, and a rest that goes on
with none of them. -/
structure Numeral where
  blanks : List Char
  sign : Sign
  digits : List Char
  rest : List Char
  blanks_blank : ∀ c ∈ blanks, Text.isBlank c = true
  digits_digit : ∀ c ∈ digits, c.isDigit = true
  rest_closed : ∀ c ∈ rest.head?, c.isDigit = false
  /-- What stands behind blanks alone is neither a further blank nor a sign. -/
  rest_unmarked : sign = .absent → digits = [] → Unmarked rest

namespace Numeral

variable (m : Numeral)

def text : List Char :=
  m.blanks ++ (m.sign.text ++ (m.digits ++ m.rest))

/-- The value of the digits, zero without any. -/
def value : Nat :=
  Nat.ofDigitChars 10 m.digits 0

/-- The exact number. -/
def number : Int :=
  m.sign.of m.value

end Numeral

section Reading

theorem leading_append_of_blanks {blanks : List Char} (h : ∀ c ∈ blanks, Text.isBlank c = true)
    (cs : List Char) : leading (blanks ++ cs) = leading cs := by
  induction blanks with
  | nil => rfl
  | cons c blanks ih =>
      rw [List.forall_mem_cons] at h
      rw [List.cons_append, leading_cons_of_isBlank h.1, ih h.2]

theorem leadingNat_append {digits rest : List Char} (hdigits : ∀ c ∈ digits, c.isDigit = true)
    (hrest : ∀ c ∈ rest.head?, c.isDigit = false) :
    leadingNat (digits ++ rest) = min (Nat.ofDigitChars 10 digits 0) greatest := by
  have hstop : rest.takeWhile Char.isDigit = [] := by
    cases rest with
    | nil => rfl
    | cons c rest => simp [hrest c rfl]
  rw [leadingNat_eq, List.takeWhile_append_of_pos hdigits, hstop, List.append_nil]

namespace Numeral

variable (m : Numeral)

/-- What is read is the value of the digits, stopped at the greatest number and then signed. -/
theorem leading_text : leading m.text = m.sign.of (min m.value greatest) := by
  have hmagnitude : leadingNat (m.digits ++ m.rest) = min m.value greatest :=
    leadingNat_append m.digits_digit m.rest_closed
  rw [text, leading_append_of_blanks m.blanks_blank]
  cases hsign : m.sign with
  | absent =>
      have hunmarked : Unmarked (m.digits ++ m.rest) := by
        cases hdigits : m.digits with
        | nil => exact m.rest_unmarked hsign hdigits
        | cons c digits =>
            exact unmarked_cons_of_isDigit (m.digits_digit c (hdigits ▸ List.mem_cons_self)) _
      rw [Sign.text, List.nil_append, leading_of_unmarked hunmarked, hmagnitude]
      rfl
  | plus =>
      rw [Sign.text, List.singleton_append, leading_plus, hmagnitude]
      rfl
  | minus =>
      rw [Sign.text, List.singleton_append, leading_minus, hmagnitude]
      rfl

end Numeral

/-- Digits and a rest divide what stands behind blanks and a sign. -/
def Numeral.ofParts (blanks : List Char) (sign : Sign) (behind : List Char)
    (hblanks : ∀ c ∈ blanks, Text.isBlank c = true) (hbehind : sign = .absent → Unmarked behind) :
    Numeral where
  blanks := blanks
  sign := sign
  digits := behind.takeWhile Char.isDigit
  rest := behind.dropWhile Char.isDigit
  blanks_blank := hblanks
  digits_digit _ := List.mem_takeWhile_imp
  rest_closed c hc := by
    have hstop := List.head?_dropWhile_not Char.isDigit behind
    rw [hc] at hstop
    simpa using hstop
  rest_unmarked hsign hdigits := by
    have hall := List.takeWhile_append_dropWhile (p := Char.isDigit) (l := behind)
    rw [hdigits, List.nil_append] at hall
    rw [hall]
    exact hbehind hsign

theorem Numeral.text_ofParts {blanks behind : List Char} (sign : Sign)
    (hblanks : ∀ c ∈ blanks, Text.isBlank c = true) (hbehind : sign = .absent → Unmarked behind) :
    (ofParts blanks sign behind hblanks hbehind).text = blanks ++ (sign.text ++ behind) := by
  simp only [text, ofParts, List.takeWhile_append_dropWhile]

/-- Blanks, a sign, digits and a rest divide every text. -/
theorem exists_numeral (cs : List Char) : ∃ m : Numeral, m.text = cs := by
  have hblanks : ∀ c ∈ cs.takeWhile Text.isBlank, Text.isBlank c = true :=
    fun _ => List.mem_takeWhile_imp
  have hcs : cs.takeWhile Text.isBlank ++ cs.dropWhile Text.isBlank = cs :=
    List.takeWhile_append_dropWhile
  have hhead := List.head?_dropWhile_not Text.isBlank cs
  generalize cs.takeWhile Text.isBlank = blanks, cs.dropWhile Text.isBlank = marked at *
  subst hcs
  by_cases hminus : marked.head? = some '-'
  · obtain ⟨behind, rfl⟩ := List.head?_eq_some_iff.1 hminus
    exact ⟨_, Numeral.text_ofParts .minus hblanks (by simp)⟩
  by_cases hplus : marked.head? = some '+'
  · obtain ⟨behind, rfl⟩ := List.head?_eq_some_iff.1 hplus
    exact ⟨_, Numeral.text_ofParts .plus hblanks (by simp)⟩
  · refine ⟨_, Numeral.text_ofParts .absent hblanks fun _ c hc => ?_⟩
    rw [hc] at hhead hminus hplus
    exact ⟨by simpa using hhead, by simpa using hplus, by simpa using hminus⟩

/-- So no text gives a number out of range. -/
theorem natAbs_leading_le (cs : List Char) : (leading cs).natAbs ≤ greatest := by
  obtain ⟨m, rfl⟩ := exists_numeral cs
  rw [m.leading_text]
  cases m.sign <;> simp only [Sign.of] <;> omega

end Reading

section Words

/-- The difference of two bytes, unless it wraps. -/
def subByte? (a b : UInt8) : Option UInt8 :=
  if b ≤ a then some (a - b) else none

/-- The opposite of a word, unless it wraps. -/
def negWord? (a : Int64) : Option Int64 :=
  if a = Int64.minValue then none else some (-a)

def mulWord (a b : Int64) : Int64 :=
  Int64.ofIntClamp (a.toInt * b.toInt)

def addWord (a b : Int64) : Int64 :=
  Int64.ofIntClamp (a.toInt + b.toInt)

/-- Appends a decimal digit to a word. -/
def appendDigitWord? (n : Int64) (c : Char) : Option Int64 :=
  (subByte? c.toUInt8 '0'.toUInt8).map fun d => addWord (mulWord n 10) (Int64.ofNat d.toNat)

def leadingNatWord? (cs : List Char) : Option Int64 :=
  (cs.takeWhile Char.isDigit).foldlM appendDigitWord? 0

/-- The integer at the front, in words of 64 bits. Product and sum stop at the ends of the range;
there is no outcome if any other step wraps. -/
def leadingWord? (cs : List Char) : Option Int64 :=
  match Text.trimStart cs with
  | '-' :: ds => (leadingNatWord? ds).bind negWord?
  | '+' :: ds => leadingNatWord? ds
  | ds => leadingNatWord? ds

theorem toInt_ofIntClamp_of_nonneg {n : Int} (h : 0 ≤ n) :
    (Int64.ofIntClamp n).toInt = min n greatest := by
  have hmax : Int64.maxValue.toInt = greatest := by decide
  have hmin : Int64.minValue.toInt ≤ n := Int.le_trans (by decide) h
  rw [Int64.ofIntClamp, dif_pos hmin]
  split
  · rename_i hle
    rw [Int64.toInt_ofIntLE, Int.min_eq_left (hmax ▸ hle)]
  · rename_i hlt
    rw [hmax, Int.min_eq_right (by omega)]

/-- Appending a digit to a word wraps nowhere. -/
theorem appendDigitWord?_eq {w : Int64} {n : Nat} (hw : w.toInt = n) {c : Char}
    (hc : c.isDigit = true) :
    ∃ w', appendDigitWord? w c = some w' ∧ w'.toInt = appendDigit n c := by
  have hrange := toNat_of_isDigit hc
  have hbyte : c.toUInt8.toNat = c.toNat := by
    have : c.toUInt8.toNat = c.toNat % 256 := rfl
    omega
  have hle : '0'.toUInt8 ≤ c.toUInt8 := by
    rw [UInt8.le_iff_toNat_le, hbyte]
    exact hrange.1
  have hdigit : (c.toUInt8 - '0'.toUInt8).toNat = c.toNat - '0'.toNat := by
    rw [UInt8.toNat_sub_of_le _ _ hle, hbyte]
    rfl
  refine ⟨_, by rw [appendDigitWord?, subByte?, if_pos hle, Option.map_some], ?_⟩
  have hten : (10 : Int64).toInt = 10 := by decide
  have hword : (Int64.ofNat (c.toNat - '0'.toNat)).toInt = (c.toNat - '0'.toNat : Nat) :=
    Int64.toInt_ofNat_of_lt (by omega)
  have hproduct : (mulWord w 10).toInt = min ((n : Int) * 10) greatest := by
    rw [mulWord, hw, hten, toInt_ofIntClamp_of_nonneg (by omega)]
  rw [hdigit, addWord, hproduct, hword, toInt_ofIntClamp_of_nonneg (by omega), appendDigit]
  omega

theorem foldlM_appendDigitWord? {cs : List Char} (hcs : ∀ c ∈ cs, c.isDigit = true) {w : Int64}
    {n : Nat} (hw : w.toInt = n) :
    ∃ w', cs.foldlM appendDigitWord? w = some w' ∧ w'.toInt = cs.foldl appendDigit n := by
  induction cs generalizing w n with
  | nil => exact ⟨w, rfl, hw⟩
  | cons c cs ih =>
      rw [List.forall_mem_cons] at hcs
      obtain ⟨w₁, hstep, hw₁⟩ := appendDigitWord?_eq hw hcs.1
      obtain ⟨w₂, hrest, hw₂⟩ := ih hcs.2 hw₁
      refine ⟨w₂, ?_, hw₂⟩
      rw [List.foldlM_cons, hstep]
      exact hrest

theorem leadingNatWord?_eq (cs : List Char) :
    ∃ w, leadingNatWord? cs = some w ∧ w.toInt = leadingNat cs :=
  foldlM_appendDigitWord? (fun _ => List.mem_takeWhile_imp) rfl

theorem negWord?_eq {w : Int64} {n : Nat} (hw : w.toInt = n) :
    ∃ w', negWord? w = some w' ∧ w'.toInt = -n := by
  have hleast : w ≠ Int64.minValue := by
    rintro rfl
    have : Int64.minValue.toInt < 0 := by decide
    omega
  have hbound := w.toInt_lt
  refine ⟨-w, if_neg hleast, ?_⟩
  rw [Int64.toInt_neg, hw, Int.bmod_eq_of_le (by omega) (by omega)]

/-- In words the same number is read, and no step wraps. -/
theorem leadingWord?_eq (cs : List Char) :
    ∃ w, leadingWord? cs = some w ∧ w.toInt = leading cs := by
  fun_cases leading cs with
  | case1 ds htrim =>
      obtain ⟨w, hread, hw⟩ := leadingNatWord?_eq ds
      simp only [leadingWord?, htrim, hread, Option.bind_some]
      exact negWord?_eq hw
  | case2 ds htrim =>
      simp only [leadingWord?, htrim]
      exact leadingNatWord?_eq ds
  | case3 hminus hplus =>
      unfold leadingWord?
      split
      · rename_i ds htrim
        exact (hminus ds htrim).elim
      · rename_i ds htrim
        exact (hplus ds htrim).elim
      · exact leadingNatWord?_eq _

end Words

end FieldCamera.Number
