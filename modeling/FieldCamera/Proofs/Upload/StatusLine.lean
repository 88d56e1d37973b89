import FieldCamera.Proofs.Number.Leading
import FieldCamera.Proofs.Text.Occurrence
import FieldCamera.Upload.Reply
import Mathlib.Data.List.Basic
/-!
# The grammar of status lines

A status line is accepted just where it is a protocol, three digits, and then nothing or a space and
any text (`statusCode?_eq_some_iff`). It can be read by byte positions too. The third byte behind
the protocol may be inside a character; where it is not, and the bytes before it are digits, the
line can be cut there without asking, so that no cut fails (`statusBySlices?_eq`).
-/

namespace FieldCamera.Text

/-- What stands before a byte position and from it on. Inside a character and beyond the end there
is no place to cut at. -/
def splitAtByte? (s : String) (n : Nat) : Option (String × String) :=
  if h : String.Pos.Raw.IsValid s ⟨n⟩ then
    some ((s.sliceTo (s.pos ⟨n⟩ h)).copy, (s.sliceFrom (s.pos ⟨n⟩ h)).copy)
  else none

theorem splitAtByte?_eq_some_iff {s l r : String} {n : Nat} :
    splitAtByte? s n = some (l, r) ↔ s = l ++ r ∧ l.utf8ByteSize = n := by
  rw [splitAtByte?]
  constructor
  · intro h
    split at h
    · rename_i hvalid
      have hsplits := (s.pos ⟨n⟩ hvalid).splits
      obtain ⟨rfl, rfl⟩ := Prod.mk.inj (Option.some.inj h)
      exact ⟨hsplits.eq_append, congrArg String.Pos.Raw.byteIdx hsplits.offset_eq_rawEndPos.symm⟩
    · contradiction
  · rintro ⟨rfl, rfl⟩
    have hvalid : String.Pos.Raw.IsValid (l ++ r) ⟨l.utf8ByteSize⟩ :=
      String.Pos.Raw.isValid_iff_exists_append.2 ⟨l, r, rfl, rfl⟩
    have hsplits : ((l ++ r).pos ⟨l.utf8ByteSize⟩ hvalid).Splits l r := ⟨rfl, rfl⟩
    rw [dif_pos hvalid, hsplits.copy_sliceTo_eq, hsplits.copy_sliceFrom_eq]

/-- A digit is one byte. -/
theorem utf8ByteSize_of_digits {s : String} (h : ∀ c ∈ s.toList, c.isDigit = true) :
    s.utf8ByteSize = s.toList.length := by
  rw [← String.ofList_toList (s := s)]
  generalize s.toList = cs at h ⊢
  induction cs with
  | nil => rfl
  | cons c cs ih =>
      rw [List.forall_mem_cons] at h
      have hrange := Number.toNat_of_isDigit h.1
      have hone : c.utf8Size = 1 := by
        rw [Char.utf8Size_eq_one_iff, UInt32.le_iff_toNat_le]
        exact Nat.le_trans hrange.2 (by decide)
      rw [String.ofList_cons, String.utf8ByteSize_append, ih h.2]
      simp [hone, Nat.add_comm]

end FieldCamera.Text

namespace FieldCamera.Upload

/-- A status line with its number: the protocol in version 1.1 or 1.0, a space, three digits, and
behind them nothing or a space and any text. -/
inductive IsStatusLine : List Char → Nat → Prop
  | of {protocol digits reason : List Char}
      (known : protocol = "HTTP/1.1 ".toList ∨ protocol = "HTTP/1.0 ".toList)
      (three : digits.length = 3) (decimal : ∀ c ∈ digits, c.isDigit = true)
      (closed : ∀ c ∈ reason.head?, c = ' ') :
      IsStatusLine (protocol ++ (digits ++ reason)) (Nat.ofDigitChars 10 digits 0)

section Grammar

theorem threeDigits?_eq_some_iff {a b c : Char} {n : Nat} :
    threeDigits? a b c = some n ↔
      (∀ d ∈ [a, b, c], d.isDigit = true) ∧ n = Nat.ofDigitChars 10 [a, b, c] 0 := by
  have hvalue : Nat.ofDigitChars 10 [a, b, c] 0 = (a.toNat - '0'.toNat) * 100 +
      (b.toNat - '0'.toNat) * 10 + (c.toNat - '0'.toNat) := by
    simp only [Nat.ofDigitChars_cons, Nat.ofDigitChars_nil]
    omega
  have hall : (a.isDigit && b.isDigit && c.isDigit) = true ↔
      ∀ d ∈ [a, b, c], d.isDigit = true := by
    simp [and_assoc]
  rw [threeDigits?, ← hvalue, ← hall]
  split
  · rename_i hdecimal
    rw [Option.some.injEq, and_iff_right hdecimal, eq_comm]
  · rename_i hother
    constructor
    · intro h
      contradiction
    · intro h
      exact absurd h.1 hother

theorem codeOf?_cons_eq_some_iff {a b c : Char} {reason : List Char} {n : Nat} :
    codeOf? (a :: b :: c :: reason) = some n ↔
      (∀ d ∈ reason.head?, d = ' ') ∧ threeDigits? a b c = some n := by
  cases reason with
  | nil => simp [codeOf?]
  | cons d reason =>
      by_cases hd : d = ' '
      · simp [codeOf?, hd]
      · simp [codeOf?, hd]

/-- Three digits at the front and their end. -/
theorem codeOf?_eq_some_iff {cs : List Char} {n : Nat} :
    codeOf? cs = some n ↔ ∃ digits reason, cs = digits ++ reason ∧ digits.length = 3 ∧
      (∀ c ∈ digits, c.isDigit = true) ∧ (∀ c ∈ reason.head?, c = ' ') ∧
      n = Nat.ofDigitChars 10 digits 0 := by
  constructor
  · intro h
    match cs with
    | [] | [_] | [_, _] => simp [codeOf?] at h
    | a :: b :: c :: reason =>
      obtain ⟨hclosed, hthree⟩ := codeOf?_cons_eq_some_iff.1 h
      obtain ⟨hdecimal, hn⟩ := threeDigits?_eq_some_iff.1 hthree
      exact ⟨[a, b, c], reason, rfl, rfl, hdecimal, hclosed, hn⟩
  · rintro ⟨digits, reason, rfl, hthree, hdecimal, hclosed, hn⟩
    obtain ⟨a, b, c, rfl⟩ := List.length_eq_three.1 hthree
    exact codeOf?_cons_eq_some_iff.2 ⟨hclosed, threeDigits?_eq_some_iff.2 ⟨hdecimal, hn⟩⟩

theorem findSome?_protocols_eq_some_iff {line rest : List Char} :
    protocols.findSome? (Text.dropStart? · line) = some rest ↔
      ∃ protocol, (protocol = "HTTP/1.1 ".toList ∨ protocol = "HTTP/1.0 ".toList) ∧
        line = protocol ++ rest := by
  have hother (rest : List Char) :
      Text.dropStart? "HTTP/1.1 ".toList ("HTTP/1.0 ".toList ++ rest) = none := rfl
  simp only [protocols, List.findSome?_cons, List.findSome?_nil]
  constructor
  · intro h
    split at h
    · rename_i hfirst
      exact ⟨_, .inl rfl, Text.dropStart?_eq_some_iff.1 (hfirst.trans h)⟩
    · split at h
      · rename_i hsecond
        exact ⟨_, .inr rfl, Text.dropStart?_eq_some_iff.1 (hsecond.trans h)⟩
      · contradiction
  · rintro ⟨_, rfl | rfl, rfl⟩
    · rw [Text.dropStart?_append]
    · rw [hother, Text.dropStart?_append]

/-- The lines that are accepted are those of the grammar. -/
theorem statusCode?_eq_some_iff {line : List Char} {n : Nat} :
    statusCode? line = some n ↔ IsStatusLine line n := by
  rw [statusCode?, Option.bind_eq_some_iff]
  constructor
  · rintro ⟨rest, hrest, hcode⟩
    obtain ⟨protocol, hknown, rfl⟩ := findSome?_protocols_eq_some_iff.1 hrest
    obtain ⟨digits, reason, rfl, hthree, hdecimal, hclosed, rfl⟩ := codeOf?_eq_some_iff.1 hcode
    exact .of hknown hthree hdecimal hclosed
  · rintro ⟨hknown, hthree, hdecimal, hclosed⟩
    exact ⟨_, findSome?_protocols_eq_some_iff.2 ⟨_, hknown, rfl⟩,
      codeOf?_eq_some_iff.2 ⟨_, _, rfl, hthree, hdecimal, hclosed, rfl⟩⟩

theorem statusCode?_eq_none_iff {line : List Char} :
    statusCode? line = none ↔ ∀ n, ¬IsStatusLine line n := by
  simp only [Option.eq_none_iff_forall_ne_some, ne_eq, statusCode?_eq_some_iff]

instance (line : List Char) (n : Nat) : Decidable (IsStatusLine line n) :=
  decidable_of_iff _ statusCode?_eq_some_iff

end Grammar

section Slices

open Text (splitAtByte?)

/-- The number that digits make, if 16 bits hold it. -/
def word? (digits : String) : Option Nat :=
  let n := Nat.ofDigitChars 10 digits.toList 0
  if n < 65536 then some n else none

/-- The code at the front, read by its bytes: three of them are asked for, and if they are digits
and there are more, the text is cut behind them without asking. There is no outcome if that is no
place to cut at. -/
def codeBySlices? (rest : String) : Option (Option Nat) :=
  match splitAtByte? rest 3 with
  | none => some none
  | some (code, _) =>
    if code.toList.all Char.isDigit then
      if 3 < rest.utf8ByteSize then
        (splitAtByte? rest 3).map fun halves =>
          if halves.2.toList.head? = some ' ' then word? code else none
      else some (word? code)
    else some none

/-- What a line says that is read by its bytes. -/
def statusBySlices? (line : String) : Option (Except Reply.Fault Nat) :=
  match protocols.findSome? (Text.dropStart? · line.toList) with
  | none => some (.error (.malformed line))
  | some rest =>
    (codeBySlices? (String.ofList rest)).map fun
      | none => .error (.malformed line)
      | some n => .ok n

theorem word?_of_three {digits : String} (h : ∀ c ∈ digits.toList, c.isDigit = true)
    (hthree : digits.toList.length = 3) :
    word? digits = some (Nat.ofDigitChars 10 digits.toList 0) := by
  obtain ⟨a, b, c, habc⟩ := List.length_eq_three.1 hthree
  rw [word?, habc]
  simp only [habc, List.forall_mem_cons] at h
  have ha := Number.toNat_of_isDigit h.1
  have hb := Number.toNat_of_isDigit h.2.1
  have hc := Number.toNat_of_isDigit h.2.2.1
  have hsmall : Nat.ofDigitChars 10 [a, b, c] 0 < 65536 := by
    simp only [Nat.ofDigitChars_cons, Nat.ofDigitChars_nil]
    omega
  exact if_pos hsmall

/-- Three digits at the front are three bytes. -/
theorem splitAtByte?_of_codeOf? {rest : String} {n : Nat} (h : codeOf? rest.toList = some n) :
    ∃ code reason, splitAtByte? rest 3 = some (code, reason) ∧
      (∀ c ∈ code.toList, c.isDigit = true) ∧ ∀ c ∈ reason.toList.head?, c = ' ' := by
  obtain ⟨digits, reason, hrest, hthree, hdecimal, hclosed, -⟩ := codeOf?_eq_some_iff.1 h
  refine ⟨String.ofList digits, String.ofList reason, Text.splitAtByte?_eq_some_iff.2 ⟨?_, ?_⟩,
    by simpa using hdecimal, by simpa using hclosed⟩
  · rw [← String.ofList_append, ← hrest, String.ofList_toList]
  · rw [Text.utf8ByteSize_of_digits (by simpa using hdecimal), String.toList_ofList, hthree]

section Cut

variable {rest code reason : String} (hcut : splitAtByte? rest 3 = some (code, reason))
include hcut

/-- Three bytes of digits are three digits. -/
theorem codeOf?_of_splitAtByte? (hdecimal : ∀ c ∈ code.toList, c.isDigit = true)
    (hclosed : ∀ c ∈ reason.toList.head?, c = ' ') : codeOf? rest.toList = word? code := by
  obtain ⟨rfl, hsize⟩ := Text.splitAtByte?_eq_some_iff.1 hcut
  rw [Text.utf8ByteSize_of_digits hdecimal] at hsize
  rw [word?_of_three hdecimal hsize, codeOf?_eq_some_iff]
  exact ⟨code.toList, reason.toList, String.toList_append, hsize, hdecimal, hclosed, rfl⟩

theorem codeOf?_eq_none_of_splitAtByte?
    (h : (∀ c ∈ code.toList, c.isDigit = true) → ¬∀ c ∈ reason.toList.head?, c = ' ') :
    codeOf? rest.toList = none := by
  rw [Option.eq_none_iff_forall_ne_some]
  intro n hn
  obtain ⟨_, _, hcut', hdecimal, hclosed⟩ := splitAtByte?_of_codeOf? hn
  obtain ⟨rfl, rfl⟩ := Prod.mk.inj (Option.some.inj (hcut.symm.trans hcut'))
  exact h hdecimal hclosed

theorem three_lt_utf8ByteSize_iff : 3 < rest.utf8ByteSize ↔ reason ≠ "" := by
  obtain ⟨rfl, hsize⟩ := Text.splitAtByte?_eq_some_iff.1 hcut
  rw [String.utf8ByteSize_append, hsize, Nat.lt_add_right_iff_pos, Nat.pos_iff_ne_zero, ne_eq,
    String.utf8ByteSize_eq_zero_iff]

end Cut

/-- The code by bytes is the code by characters, and no cut fails. -/
theorem codeBySlices?_eq (rest : String) : codeBySlices? rest = some (codeOf? rest.toList) := by
  rw [codeBySlices?]
  cases hcut : splitAtByte? rest 3 with
  | none =>
      cases hcode : codeOf? rest.toList with
      | none => rfl
      | some n =>
          obtain ⟨_, _, hsome, -⟩ := splitAtByte?_of_codeOf? hcode
          exact absurd (hcut.symm.trans hsome) (by simp)
  | some halves =>
      obtain ⟨code, reason⟩ := halves
      have hmore := three_lt_utf8ByteSize_iff hcut
      dsimp only
      split
      · rename_i hdecimal
        rw [List.all_eq_true] at hdecimal
        split
        · rename_i hlong
          -- This is the cut that was asked for before, so that there is a place for it.
          obtain ⟨d, behind, hreason⟩ :=
            List.exists_cons_of_ne_nil (mt String.toList_eq_nil_iff.1 (hmore.1 hlong))
          rw [Option.map_some, hreason, List.head?_cons]
          split
          · rename_i hspace
            rw [codeOf?_of_splitAtByte? hcut hdecimal (by simpa [hreason] using hspace)]
          · rename_i hother
            rw [codeOf?_eq_none_of_splitAtByte? hcut fun _ => by simpa [hreason] using hother]
        · rename_i hshort
          obtain rfl : reason = "" := not_not.1 (mt hmore.2 hshort)
          rw [codeOf?_of_splitAtByte? hcut hdecimal (by simp)]
      · rename_i hother
        rw [List.all_eq_true] at hother
        rw [codeOf?_eq_none_of_splitAtByte? hcut fun hdecimal => absurd hdecimal hother]

/-- A line read by its bytes says what it says read by its characters. -/
theorem statusBySlices?_eq (line : String) :
    statusBySlices? line = some (match statusCode? line.toList with
      | none => .error (.malformed line)
      | some n => .ok n) := by
  rw [statusBySlices?, statusCode?]
  cases protocols.findSome? (Text.dropStart? · line.toList) with
  | none => rfl
  | some rest =>
      simp only [codeBySlices?_eq, String.toList_ofList, Option.map_some, Option.bind_some]

theorem statusBySlices?_of_isStatusLine {line : String} {n : Nat}
    (h : IsStatusLine line.toList n) : statusBySlices? line = some (.ok n) := by
  rw [statusBySlices?_eq, statusCode?_eq_some_iff.2 h]

theorem statusBySlices?_of_forall_not {line : String} (h : ∀ n, ¬IsStatusLine line.toList n) :
    statusBySlices? line = some (.error (.malformed line)) := by
  rw [statusBySlices?_eq, statusCode?_eq_none_iff.2 h]

end Slices

section Replies

open Reply

/-- A first line that has ended decides whether the reply is read on. -/
theorem receive_of_firstLine {limits : Limits} {now : Nat} {r : Link.Reader} {bytes : List UInt8}
    (h : (readLine limits [] now r).result = some (bytes, .newline)) :
    receive limits now r =
      let t := readLine limits [] now r
      match statusCode? (lineText bytes).toList with
      | some status => readRest limits status (lineText bytes) t.now t.reader
      | none => ⟨.error (.malformed (lineText bytes)), t.now, t.reader⟩ := by
  simp only [receive, h]
  cases statusCode? (lineText bytes).toList <;> rfl

/-- A line is accepted where it is one of the grammar, with the number of its digits, and any other
is refused as it stands. Read by its bytes it says the same, so that no cut fails, and a reply whose
first line it is goes on or ends there. -/
theorem status_line_grammar (line : String) :
    (∀ n, statusCode? line.toList = some n ↔ IsStatusLine line.toList n) ∧
    (∀ n, IsStatusLine line.toList n → statusBySlices? line = some (.ok n)) ∧
    ((∀ n, ¬IsStatusLine line.toList n) →
      statusBySlices? line = some (.error (.malformed line))) ∧
    ∀ (limits : Limits) (now : Nat) (r : Link.Reader) (bytes : List UInt8),
      (readLine limits [] now r).result = some (bytes, .newline) → lineText bytes = line →
      let t := readLine limits [] now r
      (∀ n, IsStatusLine line.toList n →
        receive limits now r = readRest limits n line t.now t.reader) ∧
      ((∀ n, ¬IsStatusLine line.toList n) →
        receive limits now r = ⟨.error (.malformed line), t.now, t.reader⟩) := by
  refine ⟨fun n => statusCode?_eq_some_iff, fun n => statusBySlices?_of_isStatusLine,
    statusBySlices?_of_forall_not, ?_⟩
  rintro limits now r bytes hline rfl
  have hreceive := receive_of_firstLine hline
  constructor
  · intro n h
    rw [hreceive, statusCode?_eq_some_iff.2 h]
  · intro h
    rw [hreceive, statusCode?_eq_none_iff.2 h]

/-- In one line no reason follows the space behind the digits. In the other the third byte behind
the protocol is inside a character. -/
theorem status_line_of_cut_character :
    IsStatusLine "HTTP/1.0 204 ".toList 204 ∧
      statusBySlices? "HTTP/1.0 204 " = some (.ok 204) ∧
      statusBySlices? "HTTP/1.1 20é" = some (.error (.malformed "HTTP/1.1 20é")) ∧
      (receive {} 0 { capacity := 4, stream := { arrivals :=
        [.bytes (Utf8.encode "HTTP/1.1 20é\r\n\r\n")] } }).result =
        .error (.malformed "HTTP/1.1 20é") := by
  have hgood : IsStatusLine "HTTP/1.0 204 ".toList 204 := by decide +kernel
  have hbad : ∀ n, ¬IsStatusLine "HTTP/1.1 20é".toList n :=
    statusCode?_eq_none_iff.1 (by decide +kernel)
  obtain ⟨-, hread, -⟩ := status_line_grammar "HTTP/1.0 204 "
  obtain ⟨-, -, hrefused, hreceive⟩ := status_line_grammar "HTTP/1.1 20é"
  refine ⟨hgood, hread 204 hgood, hrefused hbad, ?_⟩
  have hended := hreceive {} 0 { capacity := 4, stream := { arrivals :=
    [.bytes (Utf8.encode "HTTP/1.1 20é\r\n\r\n")] } } (Utf8.encode "HTTP/1.1 20é\r")
    (by decide +kernel) (by decide +kernel)
  rw [hended.2 hbad]

end Replies

end FieldCamera.Upload
