import FieldCamera.Text.Blank
import Mathlib.Data.List.TakeWhile
/-!
# Text without blanks at its ends, and the case of letters

Trimming leaves characters out at the two ends and nowhere else. It leaves a text as it is exactly
if neither end is a blank (`trim_eq_self_iff`). Texts that differ in the case of letters only are
the same text in capitals (`sameLetters_iff_toUpper`).
-/

namespace FieldCamera.Text

/-- Neither end of the text is a blank. -/
structure Bare (cs : List Char) : Prop where
  head : ∀ c ∈ cs.head?, isBlank c = false
  last : ∀ c ∈ cs.getLast?, isBlank c = false

theorem trimStart_eq_self_iff {cs : List Char} :
    trimStart cs = cs ↔ ∀ c ∈ cs.head?, isBlank c = false := by
  rw [trimStart, List.dropWhile_eq_self_iff]
  cases cs <;> simp

theorem trimEnd_eq_self_iff {cs : List Char} :
    trimEnd cs = cs ↔ ∀ c ∈ cs.getLast?, isBlank c = false := by
  rw [trimEnd, List.reverse_eq_iff, ← List.head?_reverse]
  exact trimStart_eq_self_iff

theorem trimStart_sublist (cs : List Char) : (trimStart cs).Sublist cs :=
  List.dropWhile_sublist _

theorem trimEnd_sublist (cs : List Char) : (trimEnd cs).Sublist cs := by
  rw [trimEnd, ← List.reverse_sublist, List.reverse_reverse]
  exact List.dropWhile_sublist _

theorem trim_sublist (cs : List Char) : (trim cs).Sublist cs :=
  (trimEnd_sublist _).trans (trimStart_sublist cs)

theorem trim_eq_self_iff {cs : List Char} : trim cs = cs ↔ Bare cs := by
  constructor
  · intro h
    have hstart : trimStart cs = cs := by
      apply (trimStart_sublist cs).eq_of_length_le
      calc
        cs.length = (trim cs).length := by rw [h]
        _ ≤ (trimStart cs).length := (trimEnd_sublist _).length_le
    have hend : trimEnd cs = cs := by rwa [trim, hstart] at h
    exact ⟨trimStart_eq_self_iff.1 hstart, trimEnd_eq_self_iff.1 hend⟩
  · intro h
    rw [trim, trimStart_eq_self_iff.2 h.head, trimEnd_eq_self_iff.2 h.last]

instance (cs : List Char) : Decidable (Bare cs) :=
  decidable_of_iff (trim cs = cs) trim_eq_self_iff

/-- Characters that are the same in capitals are the same in small letters. -/
theorem toLower_eq_iff_toUpper_eq (c d : Char) : c.toLower = d.toLower ↔ c.toUpper = d.toUpper := by
  have hc := c.val.toNat_lt
  have hd := d.val.toNat_lt
  delta Char.toLower Char.toUpper
  simp only [Char.ext_iff, apply_dite Char.val, dite_eq_ite, ge_iff_le, UInt32.le_iff_toNat_le,
    ← UInt32.toNat_inj, apply_ite UInt32.toNat, UInt32.toNat_add]
  grind

theorem sameLetters_iff_toUpper {a b : List Char} :
    sameLetters a b = true ↔ a.map Char.toUpper = b.map Char.toUpper := by
  rw [sameLetters, beq_iff_eq, lower, lower]
  induction a generalizing b with
  | nil => cases b <;> simp
  | cons c a ih => cases b <;> simp [ih, toLower_eq_iff_toUpper_eq]

end FieldCamera.Text
