import FieldCamera.Proofs.Number.Numeral
import FieldCamera.Proofs.Setup.Server
import FieldCamera.Request.Receiver
import FieldCamera.Setup.Encoding
/-!
# Where numbers are read from texts

A field of a form, the declared length of a body and the port of an address are each the number at
the front of a text, brought into a range of its own. Each comes out as if it were made of the exact
number, which may have more digits than any word holds (`Numeral.readings_exact`).
-/

namespace FieldCamera.Number

open Address (Begins Rooted endsHost defaultPort)
open Request.Receiver (textOf declaredAfter endLine)

theorem toInt_clamp32 (n : Int) : (clamp32 n).toInt = max (-0x80000000) (min n 0x7FFFFFFF) :=
  Int32.toInt_ofInt_of_le (by omega) (by omega)

namespace Numeral

variable (m : Numeral)

/-- What is read is the number in the range of a word. -/
theorem leading_text_eq_max_min :
    leading m.text = max (-(greatest : Int)) (min m.number greatest) := by
  rw [leading_text, number]
  cases m.sign <;> simp only [Sign.of] <;> omega

/-- A field of 32 bits is brought into range from the exact number. -/
theorem toInt_clamp32_text :
    (clamp32 (leading m.text)).toInt = max (-0x80000000) (min m.number 0x7FFFFFFF) := by
  rw [toInt_clamp32, leading_text_eq_max_min]
  unfold greatest
  omega

theorem toNat_leading_text : (leading m.text).toNat = min m.number.toNat greatest := by
  rw [leading_text_eq_max_min]
  omega

/-- A number is a port if it is one exactly. -/
theorem port?_text :
    port? m.text =
      if 0 < m.number ∧ m.number < 65536 then some m.number.toNat.toUInt16 else none := by
  have hsame : (0 < leading m.text ∧ leading m.text < 65536) ↔
      0 < m.number ∧ m.number < 65536 := by
    rw [leading_text_eq_max_min]
    unfold greatest
    omega
  rw [port?]
  simp only [hsame, toNat_leading_text]
  split
  · rename_i hrange
    rw [Nat.min_eq_left]
    unfold greatest
    omega
  · rfl

/-- The header line that declares a length sets it, stopped at the greatest number. -/
theorem endLine_of_length {name : List Char}
    (hname : Text.sameLetters name "content-length:".toList = true) {pending : Array UInt8}
    (hpending : textOf pending = name ++ m.text) (limits : Request.Limits)
    (first : Request.FirstLine) (used declared : Nat) :
    endLine limits (.headers first pending used declared) =
      (.headers first #[] used (min m.number.toNat greatest), none) := by
  have hlength : name.length = "content-length:".toList.length := by
    have hlower := congrArg List.length (beq_iff_eq.1 hname)
    rwa [Text.lower, Text.lower, List.length_map, List.length_map] at hlower
  have hpresent : pending.isEmpty = false := by
    rw [← Bool.not_eq_true, Array.isEmpty_iff]
    rintro rfl
    have hempty : textOf #[] = [] := by decide +kernel
    rw [hempty, eq_comm, List.append_eq_nil_iff] at hpending
    rw [hpending.1] at hlength
    contradiction
  have hdeclared : declaredAfter (name ++ m.text) declared = min m.number.toNat greatest := by
    rw [declaredAfter, ← hlength, List.take_left, List.drop_left, if_pos hname, toNat_leading_text]
  rw [endLine, hpresent, hpending, hdeclared]
  rfl

/-- Behind the colon of an authority, a number that is a port gives the port, and any other
none. -/
theorem ofUrl_of_port {url : String} {scheme host tail : List Char}
    (hbegins : Begins scheme (host ++ ':' :: (m.text ++ tail)) url.toList) (hgiven : host ≠ [])
    (hhost : ∀ c ∈ host, endsHost c = false) (htext : '/' ∉ m.text) (htail : Rooted tail) :
    ∃ target, Address.ofUrl url = .ok target ∧ target.host.toList = host ∧
      target.port.toNat =
        if 0 < m.number ∧ m.number < 65536 then m.number.toNat
        else (defaultPort scheme).toNat := by
  have hcolon : ':' ∉ host := fun hmem => absurd (hhost ':' hmem) (by decide)
  have hslash : '/' ∉ host ++ ':' :: m.text := by
    rw [List.mem_append, List.mem_cons]
    rintro (hmem | hmem | hmem)
    · exact absurd (hhost '/' hmem) (by decide)
    · exact absurd hmem (by decide)
    · exact htext hmem
  have hauthority :
      (Address.splitPath (host ++ ':' :: (m.text ++ tail))).1 = host ++ ':' :: m.text := by
    rw [← List.cons_append, ← List.append_assoc, Address.splitPath_fst_append htail,
      Address.splitPath, Text.cut_eq_none_iff.2 hslash]
  have hserver : Address.splitPort (defaultPort scheme) (host ++ ':' :: m.text) =
      (host, (port? m.text).getD (defaultPort scheme)) := by
    rw [Address.splitPort, Text.cut_eq_some_iff.2 ⟨rfl, hcolon⟩]
  rw [Address.ofUrl_of_begins hbegins, hauthority]
  simp only [hserver, if_neg hgiven]
  refine ⟨_, rfl, String.toList_ofList, ?_⟩
  simp only [port?_text]
  split
  · rename_i hrange
    exact UInt16.toNat_ofNat_of_lt' (by simp only [UInt16.size]; omega)
  · rfl

end Numeral

/-- Of all words only the least is not read back from its decimal digits. -/
theorem ofText_toString_word_iff (n : Int64) :
    ofText (toString n.toInt) = n.toInt ↔ n ≠ Int64.minValue := by
  constructor
  · rintro h rfl
    exact absurd h (by decide +kernel)
  · intro hne
    have hleast : n.toInt ≠ Int64.minValue.toInt := fun h => hne (Int64.toInt_inj.1 h)
    have hmin : Int64.minValue.toInt = -2 ^ 63 := by decide
    have hlow := n.le_toInt
    have hhigh := n.toInt_lt
    refine ofText_toString ?_
    unfold greatest
    omega

/-- A number is read as it is, up to one end of the range of a word or the other, whatever stands
around it and however many digits it has; in words no step on the way wraps. So all but the least
word are read back from their digits, a form field is the number in the range of the field, the
length of a body is not cut short, and what is no port is not taken for one. -/
theorem Numeral.readings_exact (m : Numeral) :
    leading m.text = m.sign.of (min m.value 0x7FFFFFFFFFFFFFFF) ∧
    (∃ w, leadingWord? m.text = some w ∧ w.toInt = leading m.text) ∧
    (∀ n : Int64, ofText (toString n.toInt) = n.toInt ↔ n ≠ Int64.minValue) ∧
    (∀ form name, (Setup.field form name).toList = m.text →
      (Setup.intField form name).toInt = max (-0x80000000) (min m.number 0x7FFFFFFF)) ∧
    (∀ name pending, Text.sameLetters name "content-length:".toList = true →
      textOf pending = name ++ m.text → ∀ limits first used declared,
      endLine limits (.headers first pending used declared) =
        (.headers first #[] used (min m.number.toNat 0x7FFFFFFFFFFFFFFF), none)) ∧
    ∀ (url : String) (scheme host tail : List Char),
      Begins scheme (host ++ ':' :: (m.text ++ tail)) url.toList → host ≠ [] →
      (∀ c ∈ host, endsHost c = false) → '/' ∉ m.text → Rooted tail →
      ∃ target, Address.ofUrl url = .ok target ∧ target.host.toList = host ∧
        target.port.toNat =
          if 0 < m.number ∧ m.number < 65536 then m.number.toNat
          else (defaultPort scheme).toNat := by
  refine ⟨m.leading_text, leadingWord?_eq m.text, ofText_toString_word_iff, ?_, ?_, ?_⟩
  · intro form name hfield
    rw [Setup.intField, ofText, hfield, m.toInt_clamp32_text]
  · intro name pending hname hpending limits first used declared
    exact m.endLine_of_length hname hpending limits first used declared
  · intro url scheme host tail hbegins hgiven hhost htext htail
    exact m.ofUrl_of_port hbegins hgiven hhost htext htail

/-- Twenty digits are out of range of a field, of a length and of a port. -/
theorem Numeral.readings_of_twenty_digits :
    let m : Numeral := ⟨[' '], .plus, List.replicate 20 '9', ['x'], by simp [Text.isBlank],
      by simp, by simp, by simp⟩
    leading m.text = 0x7FFFFFFFFFFFFFFF ∧
      (Setup.intField "n=1&interval=+%2b99999999999999999999x" "interval").toInt = 0x7FFFFFFF ∧
      endLine {} (.headers ⟨.post, "/"⟩
        (Utf8.encode "Content-LENGTH: +99999999999999999999x").toArray 37 5) =
        (.headers ⟨.post, "/"⟩ #[] 37 0x7FFFFFFFFFFFFFFF, none) ∧
      ∃ target, Address.ofUrl "http://h: +99999999999999999999x/y" = .ok target ∧
        target.port.toNat = 80 := by
  intro m
  obtain ⟨hread, -, -, hfield, hlength, hport⟩ := m.readings_exact
  refine ⟨hread.trans (by decide +kernel), ?_, ?_, ?_⟩
  · exact (hfield _ _ (by decide +kernel)).trans (by decide +kernel)
  · exact (hlength "Content-LENGTH:".toList _ (by decide +kernel) (by decide +kernel)
      {} _ 37 5).trans (by decide +kernel)
  · have hbegins : Begins "http".toList ("h".toList ++ ':' :: (m.text ++ "/y".toList))
        "http://h: +99999999999999999999x/y".toList :=
      Address.splitScheme_eq_iff.1 (by decide +kernel)
    have hslash : '/' ∉ m.text := by decide +kernel
    obtain ⟨target, htarget, -, hvalue⟩ := hport _ _ _ _ hbegins (by simp) (by simp [endsHost])
      hslash (by simp [Rooted])
    exact ⟨target, htarget, hvalue.trans (by decide +kernel)⟩

end FieldCamera.Number
