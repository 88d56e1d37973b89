import FieldCamera.Proofs.Text.Utf8
/-!
# Texts within a line

A text without carriage return and line feed cannot end the line it stands in, and neither can its
bytes.
-/

namespace FieldCamera.Text

/-- A text that ends no line. -/
def OneLine (s : String) : Prop :=
  '\r' ∉ s.toList ∧ '\n' ∉ s.toList

instance (s : String) : Decidable (OneLine s) :=
  inferInstanceAs (Decidable (_ ∧ _))

@[simp] theorem oneLine_append {s t : String} : OneLine (s ++ t) ↔ OneLine s ∧ OneLine t := by
  simp only [OneLine, String.toList_append, List.mem_append, not_or]
  constructor
  · rintro ⟨⟨hs, ht⟩, hs', ht'⟩
    exact ⟨⟨hs, hs'⟩, ht, ht'⟩
  · rintro ⟨⟨hs, hs'⟩, ht, ht'⟩
    exact ⟨⟨hs, ht⟩, hs', ht'⟩

/-- Digits end no line. -/
theorem oneLine_of_digits {cs : List Char} (h : ∀ c ∈ cs, c.isDigit = true) :
    OneLine (String.ofList cs) := by
  rw [OneLine, String.toList_ofList]
  constructor
  · intro hmem
    exact absurd (h _ hmem) (by decide)
  · intro hmem
    exact absurd (h _ hmem) (by decide)

theorem oneLine_toString (n : Nat) : OneLine (toString n) := by
  have hdigits := oneLine_of_digits fun c hc =>
    Nat.isDigit_of_mem_toDigits (b := 10) (n := n) (by decide) (by decide) hc
  rwa [← Nat.toList_repr, String.ofList_toList] at hdigits

theorem OneLine.return_notMem {s : String} (h : OneLine s) : '\r'.toUInt8 ∉ Utf8.encode s := by
  rw [Utf8.mem_encode_iff (by decide)]
  exact h.1

theorem OneLine.feed_notMem {s : String} (h : OneLine s) : '\n'.toUInt8 ∉ Utf8.encode s := by
  rw [Utf8.mem_encode_iff (by decide)]
  exact h.2

end FieldCamera.Text
