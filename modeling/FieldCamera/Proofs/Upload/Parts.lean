import FieldCamera.Proofs.Text.Lines
import FieldCamera.Proofs.Text.Occurrence
import FieldCamera.Upload.Envelope
import Mathlib.Data.List.Infix
/-!
# Reading a form of parts

A form begins with the line of its boundary. Each part is header lines, an empty line and a content
that ends before the next line break that is followed by the boundary; behind the boundary stands
the end of a line where another part follows, and two dashes where the form ends. Nothing in a
content is escaped, so it has to be free of that delimiter. Read in this way, the body of an upload
is the three parts it was made of (`read_seal`).
-/

namespace FieldCamera.Upload.Form

/-- What separates two lines. -/
def lineBreak : List Char := ['\r', '\n']

/-- The lines of a text. -/
def linesOf (cs : List Char) : List (List Char) :=
  match _h : Text.cutText lineBreak cs with
  | none => [cs]
  | some (line, rest) => line :: linesOf rest
termination_by cs.length
decreasing_by exact Text.length_cutText_lt (by decide) _h

/-- The value of the first header line that has a name, in any letter case. -/
def header? (name : String) (lines : List (List Char)) : Option (List Char) :=
  lines.findSome? fun line =>
    match Text.cut ':' line with
    | some (key, value) =>
      if Text.sameLetters key name.toList then some (Text.trimStart value) else none
    | none => none

/-- A parameter at the front, `; key="value"`, and what stands behind it. The value ends at the
next quote. -/
def parameter? (cs : List Char) : Option ((List Char × List Char) × List Char) := do
  let rest ← Text.dropStart? "; ".toList cs
  let (key, rest) ← Text.cutText "=\"".toList rest
  let (value, rest) ← Text.cut '"' rest
  some ((key, value), rest)

theorem parameter?_eq_some {cs key value rest : List Char}
    (h : parameter? cs = some ((key, value), rest)) :
    cs = "; ".toList ++ (key ++ ("=\"".toList ++ (value ++ '"' :: rest))) := by
  simp only [parameter?, Option.bind_eq_bind, Option.bind_eq_some_iff] at h
  obtain ⟨start, hstart, ⟨k, behind⟩, hkey, ⟨v, r⟩, hvalue, heq⟩ := h
  dsimp only at hvalue heq
  obtain ⟨⟨rfl, rfl⟩, rfl⟩ : (k = key ∧ v = value) ∧ r = rest := by simpa using heq
  rw [Text.dropStart?_eq_some_iff.1 hstart, Text.eq_of_cutText_eq_some hkey,
    (Text.cut_eq_some_iff.1 hvalue).1]

/-- All parameters of a text that holds nothing else. -/
def parameters? (cs : List Char) : Option (List (List Char × List Char)) :=
  if cs = [] then some []
  else
    match _h : parameter? cs with
    | none => none
    | some (p, rest) => (parameters? rest).map (p :: ·)
termination_by cs.length
decreasing_by
  obtain ⟨key, value⟩ := p
  rw [parameter?_eq_some _h]
  simp
  omega

/-- One part of a form. -/
structure Part where
  name : String
  filename : Option String
  contentType : Option String
  content : List UInt8
  deriving DecidableEq, Repr

/-- A part with these header lines, which have to give it a name. -/
def Part.ofHeaders? (lines : List (List Char)) (content : List UInt8) : Option Part := do
  let disposition ← header? "Content-Disposition" lines
  let parameters ← parameters? (← Text.dropStart? "form-data".toList disposition)
  let name ← parameters.lookup "name".toList
  some ⟨String.ofList name, (parameters.lookup "filename".toList).map String.ofList,
    (header? "Content-Type" lines).map String.ofList, content⟩

/-- What ends a content. -/
def delimiter (boundary : String) : List UInt8 :=
  Utf8.encode ("\r\n--" ++ boundary)

/-- The part at the front, and what stands behind the delimiter that ends it. -/
def part? (boundary : String) (bs : List UInt8) : Option (Part × List UInt8) := do
  let (headers, rest) ← Text.cutText (Utf8.encode "\r\n\r\n") bs
  let (content, rest) ← Text.cutText (delimiter boundary) rest
  let part ← Part.ofHeaders? (linesOf (Utf8.decodeLossy headers).toList) content
  some (part, rest)

theorem length_part?_lt {boundary : String} {bs rest : List UInt8} {part : Part}
    (h : part? boundary bs = some (part, rest)) : rest.length < bs.length := by
  simp only [part?, Option.bind_eq_bind, Option.bind_eq_some_iff] at h
  obtain ⟨⟨headers, behind⟩, hheaders, ⟨content, r⟩, hcontent, p, -, heq⟩ := h
  dsimp only at hcontent heq
  obtain ⟨rfl, rfl⟩ : p = part ∧ r = rest := by simpa using heq
  have hbehind := Text.length_cutText_lt (by decide) hheaders
  rw [Text.eq_of_cutText_eq_some hcontent, List.length_append, List.length_append] at hbehind
  omega

/-- The parts up to the end of the form, and what stands behind it. -/
def parts? (boundary : String) (bs : List UInt8) : Option (List Part × List UInt8) :=
  match _h : part? boundary bs with
  | none => none
  | some (part, rest) =>
    match Text.dropStart? (Utf8.encode "--\r\n") rest with
    | some rest => some ([part], rest)
    | none =>
      match _hmore : Text.dropStart? (Utf8.encode "\r\n") rest with
      | some more => (parts? boundary more).map fun r => (part :: r.1, r.2)
      | none => none
termination_by bs.length
decreasing_by
  have := length_part?_lt _h
  rw [Text.dropStart?_eq_some_iff.1 _hmore, List.length_append] at this
  omega

/-- The boundary that a content type names. -/
def boundaryOf? (contentType : String) : Option String :=
  (Text.dropStart? "multipart/form-data; boundary=".toList contentType.toList).map String.ofList

/-- Reads a body with the boundary that its content type names: the parts, and what is left. -/
def read? (contentType : String) (body : List UInt8) : Option (List Part × List UInt8) := do
  let boundary ← boundaryOf? contentType
  parts? boundary (← Text.dropStart? (Utf8.encode ("--" ++ boundary ++ "\r\n")) body)

section Laws

theorem linesOf_of_not_infix {line : List Char} (h : ¬lineBreak <:+: line) :
    linesOf line = [line] := by
  have hcut : Text.cutText lineBreak line = none := Text.cutText_eq_none_iff.2 h
  rw [linesOf]
  split <;> simp_all

theorem linesOf_append {line : List Char} (h : ¬lineBreak <:+: line) (rest : List Char) :
    linesOf (line ++ (lineBreak ++ rest)) = line :: linesOf rest := by
  have hcut : Text.cutText lineBreak (line ++ (lineBreak ++ rest)) = some (line, rest) :=
    Text.cutText_append (by decide) h rest
  rw [linesOf]
  split <;> simp_all

theorem linesOf_ne_nil (cs : List Char) : linesOf cs ≠ [] := by
  rw [linesOf]
  split
  · exact List.cons_ne_nil _ _
  · exact List.cons_ne_nil _ _

/-- The lines of a text are the only ones that line breaks join to it. -/
theorem linesOf_eq_iff {cs : List Char} {lines : List (List Char)} :
    linesOf cs = lines ↔
      lines ≠ [] ∧ (∀ line ∈ lines, ¬lineBreak <:+: line) ∧ cs = lineBreak.intercalate lines := by
  constructor
  · rintro rfl
    refine ⟨linesOf_ne_nil cs, ?_⟩
    fun_induction linesOf cs with
    | case1 cs hcut =>
        rw [List.forall_mem_singleton, List.intercalate_singleton]
        exact ⟨Text.cutText_eq_none_iff.1 hcut, rfl⟩
    | case2 cs line rest hcut ih =>
        obtain ⟨hfree, hrest⟩ := ih
        obtain ⟨next, more, hmore⟩ := List.exists_cons_of_ne_nil (linesOf_ne_nil rest)
        refine ⟨List.forall_mem_cons.2
          ⟨Text.not_infix_of_cutText_eq_some (by decide) hcut, hfree⟩, ?_⟩
        rw [Text.eq_of_cutText_eq_some hcut, hmore, List.intercalate_cons_cons, ← hmore, ← hrest,
          List.append_assoc]
  · rintro ⟨hne, hfree, rfl⟩
    induction lines with
    | nil => contradiction
    | cons line lines ih =>
        obtain ⟨hline, hlines⟩ := List.forall_mem_cons.1 hfree
        cases lines with
        | nil =>
            rw [List.intercalate_singleton]
            exact linesOf_of_not_infix hline
        | cons next more =>
            rw [List.intercalate_cons_cons, List.append_assoc, linesOf_append hline,
              ih (List.cons_ne_nil next more) hlines]

theorem not_infix_of_oneLine {s : String} (h : Text.OneLine s) : ¬lineBreak <:+: s.toList :=
  Text.cutText_eq_none_iff.1 (Text.cutText_eq_none_of_notMem h.1 _)

/-- A parameter is read back if its value holds no quote. -/
theorem parameter?_append {key value : List Char} (hkey : '=' ∉ key) (hvalue : '"' ∉ value)
    (rest : List Char) :
    parameter? ("; ".toList ++ (key ++ ("=\"".toList ++ (value ++ '"' :: rest)))) =
      some ((key, value), rest) := by
  have hfirst : Text.cutText "=\"".toList (key ++ ("=\"".toList ++ (value ++ '"' :: rest))) =
      some (key, value ++ '"' :: rest) := Text.cutText_append_self hkey ['"'] _
  have hsecond : Text.cut '"' (value ++ '"' :: rest) = some (value, rest) :=
    Text.cut_eq_some_iff.2 ⟨rfl, hvalue⟩
  simp only [parameter?, Text.dropStart?_append, hfirst, hsecond, Option.bind_eq_bind,
    Option.bind_some]

theorem parameters?_nil : parameters? [] = some [] := by
  rw [parameters?, if_pos rfl]

theorem parameters?_append {key value : List Char} (hkey : '=' ∉ key) (hvalue : '"' ∉ value)
    (rest : List Char) :
    parameters? ("; ".toList ++ (key ++ ("=\"".toList ++ (value ++ '"' :: rest)))) =
      (parameters? rest).map ((key, value) :: ·) := by
  have hfirst := parameter?_append hkey hvalue rest
  rw [parameters?, if_neg (by simp)]
  split <;> simp_all

/-- The first header line has the name. -/
theorem header?_cons_self {name : String} (hname : ':' ∉ name.toList) {value : List Char}
    (hvalue : Text.trimStart value = value) (lines : List (List Char)) :
    header? name ((name.toList ++ ':' :: ' ' :: value) :: lines) = some value := by
  have hcut : Text.cut ':' (name.toList ++ ':' :: ' ' :: value) =
      some (name.toList, ' ' :: value) := Text.cut_eq_some_iff.2 ⟨rfl, hname⟩
  have hsame : Text.sameLetters name.toList name.toList = true := by simp [Text.sameLetters]
  have hblank : Text.isBlank ' ' = true := by decide
  have htrim : Text.trimStart (' ' :: value) = value := by
    rw [Text.trimStart, List.dropWhile_cons_of_pos hblank, ← Text.trimStart, hvalue]
  rw [header?, List.findSome?_cons]
  simp only [hcut, hsame, if_true, htrim]

/-- A header line of another name is passed over. -/
theorem header?_cons_of_ne {name : String} {key : List Char} (hkey : ':' ∉ key)
    (hname : Text.sameLetters key name.toList = false) (value : List Char)
    (lines : List (List Char)) :
    header? name ((key ++ ':' :: value) :: lines) = header? name lines := by
  have hcut : Text.cut ':' (key ++ ':' :: value) = some (key, value) :=
    Text.cut_eq_some_iff.2 ⟨rfl, hkey⟩
  rw [header?, List.findSome?_cons]
  simp [hcut, hname, header?]

/-- Lines with a line break between each two. -/
def joined : List String → String
  | [] => ""
  | [line] => line
  | line :: next :: more => line ++ ("\r\n" ++ joined (next :: more))

theorem toList_joined (lines : List String) :
    (joined lines).toList = lineBreak.intercalate (lines.map String.toList) := by
  fun_induction joined lines with
  | case1 => rfl
  | case2 line => rw [List.map_singleton, List.intercalate_singleton]
  | case3 line next more ih =>
      have hbreak : "\r\n".toList = lineBreak := by simp [lineBreak]
      rw [String.toList_append, String.toList_append, ih, hbreak, List.map_cons, List.map_cons,
        List.map_cons, List.intercalate_cons_cons, List.append_assoc]

theorem linesOf_joined {lines : List String} (hne : lines ≠ [])
    (hone : ∀ line ∈ lines, Text.OneLine line) :
    linesOf (joined lines).toList = lines.map String.toList := by
  rw [linesOf_eq_iff, toList_joined]
  refine ⟨mt List.map_eq_nil_iff.1 hne, ?_, rfl⟩
  rw [List.forall_mem_map]
  exact fun line hline => not_infix_of_oneLine (hone line hline)

/-- A line break in front of a line is not the empty line. -/
theorem cutText_lineBreak {b : UInt8} (hb : b ≠ '\r'.toUInt8) (bs : List UInt8) :
    Text.cutText (Utf8.encode "\r\n\r\n") (Utf8.encode "\r\n" ++ b :: bs) =
      (Text.cutText (Utf8.encode "\r\n\r\n") (b :: bs)).map fun r =>
        (Utf8.encode "\r\n" ++ r.1, r.2) := by
  have hempty : Utf8.encode "\r\n\r\n" =
      '\r'.toUInt8 :: '\n'.toUInt8 :: '\r'.toUInt8 :: '\n'.toUInt8 :: [] := rfl
  have hbreak : Utf8.encode "\r\n" = '\r'.toUInt8 :: '\n'.toUInt8 :: [] := rfl
  have hfeed : '\r'.toUInt8 ≠ '\n'.toUInt8 := by decide
  have hreturn : '\r'.toUInt8 ≠ b := hb.symm
  simp only [hempty, hbreak, List.cons_append, List.nil_append]
  rw [Text.cutText, if_neg (by simp [List.isPrefixOf, hreturn]), Text.cutText,
    if_neg (by simp [List.isPrefixOf, hfeed]), Option.map_map]
  rfl

theorem exists_joined (line : String) (more : List String) :
    ∃ tail, Utf8.encode (joined (line :: more)) = Utf8.encode line ++ tail := by
  cases more with
  | nil => exact ⟨[], (List.append_nil _).symm⟩
  | cons next more => exact ⟨_, Utf8.encode_append ..⟩

/-- Behind lines of which none is empty, the empty line is found where it was put. -/
theorem cutText_joined {lines : List String} (hne : lines ≠ [])
    (hone : ∀ line ∈ lines, Text.OneLine line) (hlines : ∀ line ∈ lines, line ≠ "")
    (rest : List UInt8) :
    Text.cutText (Utf8.encode "\r\n\r\n")
        (Utf8.encode (joined lines) ++ (Utf8.encode "\r\n\r\n" ++ rest)) =
      some (Utf8.encode (joined lines), rest) := by
  fun_induction joined lines with
  | case1 => contradiction
  | case2 line => exact Text.cutText_append_self (hone line List.mem_cons_self).return_notMem _ _
  | case3 line next more ih =>
      rw [List.forall_mem_cons] at hone hlines
      have hrest := ih (by simp) hone.2 hlines.2
      obtain ⟨tail, htail⟩ := exists_joined next more
      have hreturn := (hone.2 next List.mem_cons_self).return_notMem
      have hne : Utf8.encode next ≠ [] := fun h =>
        hlines.2 next List.mem_cons_self (Utf8.encode_eq_nil_iff.1 h)
      obtain ⟨b, bs, hnext⟩ := List.exists_cons_of_ne_nil hne
      rw [hnext, List.mem_cons, not_or] at hreturn
      have hpassed (bs : List UInt8) :
          Text.cutText (Utf8.encode "\r\n\r\n") (Utf8.encode line ++ bs) =
            (Text.cutText (Utf8.encode "\r\n\r\n") bs).map fun r =>
              (Utf8.encode line ++ r.1, r.2) :=
        Text.cutText_append_of_notMem hone.1.return_notMem _ _
      rw [Utf8.encode_append, Utf8.encode_append, List.append_assoc, List.append_assoc, hpassed]
      rw [htail, hnext] at hrest ⊢
      rw [List.cons_append, List.cons_append, cutText_lineBreak (Ne.symm hreturn.1),
        ← List.cons_append, ← List.cons_append, hrest]
      rfl

/-- The header line of a part with a name and more parameters. -/
def disposition (name more : String) : String :=
  "Content-Disposition: form-data; name=\"" ++ name ++ "\"" ++ more

theorem toList_disposition (name more : String) :
    (disposition name more).toList = "Content-Disposition".toList ++ ':' :: ' ' ::
      ("form-data".toList ++ ("; ".toList ++ ("name".toList ++ ("=\"".toList ++
        (name.toList ++ '"' :: more.toList))))) := by
  have hstart : "Content-Disposition: form-data; name=\"".toList =
      "Content-Disposition".toList ++ ':' :: ' ' ::
        ("form-data".toList ++ ("; ".toList ++ ("name".toList ++ "=\"".toList))) := by
    simp
  have hquote : "\"".toList = ['"'] := by simp
  unfold disposition
  simp only [String.toList_append, hstart, hquote, List.append_assoc, List.cons_append,
    List.nil_append]

theorem header?_disposition (name more : String) (lines : List (List Char)) :
    header? "Content-Disposition" ((disposition name more).toList :: lines) =
      some ("form-data".toList ++ ("; ".toList ++ ("name".toList ++ ("=\"".toList ++
        (name.toList ++ '"' :: more.toList))))) := by
  rw [toList_disposition, header?_cons_self (by simp)]
  simp [Text.trimStart, Text.isBlank]

theorem header?_type_disposition (name more : String) (lines : List (List Char)) :
    header? "Content-Type" ((disposition name more).toList :: lines) =
      header? "Content-Type" lines := by
  rw [toList_disposition]
  apply header?_cons_of_ne
  · simp
  · simp [Text.sameLetters, Text.lower]

/-- A part of which the only header line gives its name. -/
theorem ofHeaders?_text {name : String} (hname : '"' ∉ name.toList) (content : List UInt8) :
    Part.ofHeaders? [(disposition name "").toList] content =
      some ⟨name, none, none, content⟩ := by
  have hparameters := parameters?_append (by simp : '=' ∉ "name".toList) hname []
  have hfile : ("filename".toList == "name".toList) = false := by simp
  rw [parameters?_nil, Option.map_some] at hparameters
  simp only [Part.ofHeaders?, header?_disposition, header?_type_disposition, Option.bind_eq_bind,
    Option.bind_some, Text.dropStart?_append, String.toList_empty, hparameters,
    List.lookup_cons_self, List.lookup_cons, hfile, List.lookup_nil, Option.map_none,
    String.ofList_toList]
  rfl

/-- A part that has a name, a file name and a type. -/
theorem ofHeaders?_file {name filename : String} (hname : '"' ∉ name.toList)
    (hfilename : '"' ∉ filename.toList) (content : List UInt8) :
    Part.ofHeaders? [(disposition name ("; filename=\"" ++ filename ++ "\"")).toList,
        "Content-Type: image/jpeg".toList] content =
      some ⟨name, some filename, some "image/jpeg", content⟩ := by
  have hmore : ("; filename=\"" ++ filename ++ "\"").toList = "; ".toList ++ ("filename".toList ++
      ("=\"".toList ++ (filename.toList ++ '"' :: []))) := by
    simp
  have hsecond := parameters?_append (by simp : '=' ∉ "filename".toList) hfilename []
  have hparameters := parameters?_append (by simp : '=' ∉ "name".toList) hname
    ("; ".toList ++ ("filename".toList ++ ("=\"".toList ++ (filename.toList ++ '"' :: []))))
  have hfile : ("filename".toList == "name".toList) = false := by simp
  have htype : header? "Content-Type" ["Content-Type: image/jpeg".toList] =
      some "image/jpeg".toList := by
    simp [header?, Text.cut, Text.sameLetters, Text.lower, Text.trimStart, Text.isBlank]
  rw [hsecond, parameters?_nil, Option.map_some, Option.map_some] at hparameters
  simp only [Part.ofHeaders?, header?_disposition, header?_type_disposition, Option.bind_eq_bind,
    Option.bind_some, Text.dropStart?_append, hmore, hparameters, htype, List.lookup_cons_self,
    List.lookup_cons, hfile, Option.map_some, String.ofList_toList]

/-- The bytes of a part, up to the delimiter that ends it. -/
def partBytes (boundary : String) (headers : List String) (content : List UInt8) : List UInt8 :=
  Utf8.encode (joined headers) ++ (Utf8.encode "\r\n\r\n" ++ (content ++ delimiter boundary))

/-- A content that is free of the delimiter ends where the delimiter was put. -/
theorem cutText_delimiter {boundary : String} {content : List UInt8}
    (hboundary : Text.OneLine boundary) (hcontent : ¬delimiter boundary <:+: content)
    (rest : List UInt8) :
    Text.cutText (delimiter boundary) (content ++ (delimiter boundary ++ rest)) =
      some (content, rest) := by
  have hdelimiter : delimiter boundary =
      '\r'.toUInt8 :: Utf8.encode ("\n--" ++ boundary) := by
    rw [delimiter, Utf8.encode_append, Utf8.encode_append]
    rfl
  have hborder : '\r'.toUInt8 ∉ Utf8.encode ("\n--" ++ boundary) := by
    have hdashes : '\r' ∉ "\n--".toList := by simp
    rw [Utf8.mem_encode_iff (by decide), String.toList_append, List.mem_append, not_or]
    exact ⟨hdashes, hboundary.1⟩
  rw [hdelimiter] at hcontent ⊢
  exact Text.cutText_append hborder hcontent rest

/-- A text within a line is free of the delimiter. -/
theorem delimiter_not_infix {boundary value : String} (h : Text.OneLine value) :
    ¬delimiter boundary <:+: Utf8.encode value := by
  have hreturn : '\r'.toUInt8 ∈ delimiter boundary := by
    rw [delimiter, Utf8.encode_append]
    exact List.mem_append_left _ List.mem_cons_self
  exact fun hwithin => h.return_notMem (hwithin.subset hreturn)

/-- A part is read back if its header lines are and its content is free of the delimiter. -/
theorem part?_partBytes {boundary : String} {headers : List String} {content rest : List UInt8}
    {part : Part} (hboundary : Text.OneLine boundary) (hne : headers ≠ [])
    (hone : ∀ line ∈ headers, Text.OneLine line) (hlines : ∀ line ∈ headers, line ≠ "")
    (hcontent : ¬delimiter boundary <:+: content)
    (hpart : Part.ofHeaders? (headers.map String.toList) content = some part) :
    part? boundary (partBytes boundary headers content ++ rest) = some (part, rest) := by
  have hbytes : partBytes boundary headers content ++ rest =
      Utf8.encode (joined headers) ++ (Utf8.encode "\r\n\r\n" ++
        (content ++ (delimiter boundary ++ rest))) := by
    simp only [partBytes, List.append_assoc]
  simp only [part?, hbytes, cutText_joined hne hone hlines, cutText_delimiter hboundary hcontent,
    Utf8.decodeLossy_encode, linesOf_joined hne hone, hpart, Option.bind_eq_bind, Option.bind_some]

theorem parts?_of_more {boundary : String} {bs rest : List UInt8} {part : Part}
    (h : part? boundary bs = some (part, Utf8.encode "\r\n" ++ rest)) :
    parts? boundary bs = (parts? boundary rest).map fun r => (part :: r.1, r.2) := by
  have hmore := Text.dropStart?_append (Utf8.encode "\r\n") rest
  have hend : Text.dropStart? (Utf8.encode "--\r\n") (Utf8.encode "\r\n" ++ rest) = none := rfl
  rw [parts?]
  split
  · simp_all
  · rename_i heq
    obtain ⟨rfl, rfl⟩ := Prod.mk.inj (Option.some.inj (h.symm.trans heq))
    rw [hend]
    simp only
    split <;> simp_all

theorem parts?_of_end {boundary : String} {bs rest : List UInt8} {part : Part}
    (h : part? boundary bs = some (part, Utf8.encode "--\r\n" ++ rest)) :
    parts? boundary bs = some ([part], rest) := by
  have hend := Text.dropStart?_append (Utf8.encode "--\r\n") rest
  rw [parts?]
  split
  · simp_all
  · rename_i heq
    obtain ⟨rfl, rfl⟩ := Prod.mk.inj (Option.some.inj (h.symm.trans heq))
    rw [hend]

end Laws

section Uploads

theorem oneLine_padded (width n : Nat) : Text.OneLine (Number.padded width n) := by
  apply Text.oneLine_of_digits
  intro c hc
  obtain hzero | hdigit := List.mem_append.1 hc
  · rw [List.eq_of_mem_replicate hzero]
    decide
  · exact Nat.isDigit_of_mem_toDigits (by decide) (by decide) hdigit

theorem oneLine_toPlaces (places : Nat) (b : Number.Binary) :
    Text.OneLine (b.toPlaces places) := by
  have hempty : Text.OneLine "" := by simp [Text.OneLine]
  have hminus : Text.OneLine "-" := by simp [Text.OneLine]
  have hpoint : Text.OneLine "." := by simp [Text.OneLine]
  have hnan : Text.OneLine "NaN" := by simp [Text.OneLine]
  have hinf : Text.OneLine "inf" ∧ Text.OneLine "-inf" := by simp [Text.OneLine]
  cases b with
  | nan => exact hnan
  | infinite negative =>
      cases negative with
      | true => exact hinf.2
      | false => exact hinf.1
  | finite negative mantissa exponent atPower =>
      unfold Number.Binary.toPlaces
      refine Text.oneLine_append.2 ⟨Text.oneLine_append.2 ⟨Text.oneLine_append.2 ⟨?_, ?_⟩, hpoint⟩,
        oneLine_padded _ _⟩
      · cases negative with
        | true => exact hminus
        | false => exact hempty
      · exact Text.oneLine_toString _

/-- The header lines of the part that holds an image. -/
def imageHeaders (filename : String) : List String :=
  [disposition "image" ("; filename=\"" ++ filename ++ "\""), "Content-Type: image/jpeg"]

/-- The body of an upload is the opening line and three parts. -/
theorem body_seal (p : Payload) (boundary : String) :
    (p.seal boundary).head ++ (p.seal boundary).image ++ (p.seal boundary).tail =
      Utf8.encode ("--" ++ boundary ++ "\r\n") ++
        (partBytes boundary [disposition "mac" ""] (Utf8.encode (toString p.deviceId.toNat)) ++
          (Utf8.encode "\r\n" ++
            (partBytes boundary [disposition "battery" ""] (Utf8.encode p.batteryText) ++
              (Utf8.encode "\r\n" ++
                (partBytes boundary (imageHeaders p.filename) p.image ++
                  Utf8.encode "--\r\n"))))) := by
  have hempty : Utf8.encode "\r\n\r\n" = Utf8.encode "\r\n" ++ Utf8.encode "\r\n" := rfl
  have hdelimiter : Utf8.encode "\r\n--" = Utf8.encode "\r\n" ++ Utf8.encode "--" := rfl
  have hend : Utf8.encode "--\r\n" = Utf8.encode "--" ++ Utf8.encode "\r\n" := rfl
  have himage : Utf8.encode "Content-Disposition: form-data; name=\"image\"; filename=\"" =
      Utf8.encode "Content-Disposition: form-data; name=\"" ++ (Utf8.encode "image" ++
        (Utf8.encode "\"" ++ Utf8.encode "; filename=\"")) := by
    simp only [← Utf8.encode_append]
    rfl
  unfold Payload.seal textPart imageHead opening lineEnd imageHeaders partBytes joined disposition
    delimiter joined
  simp only [Utf8.encode_append, hempty, hdelimiter, hend, himage, Utf8.encode_empty,
    List.append_assoc, List.append_nil]

theorem disposition_ne_empty (name more : String) : disposition name more ≠ "" := by
  intro h
  have hnil := congrArg String.toList h
  rw [toList_disposition, String.toList_empty, List.append_eq_nil_iff] at hnil
  exact List.cons_ne_nil _ _ hnil.2

theorem oneLine_disposition {name more : String} (hname : Text.OneLine name)
    (hmore : Text.OneLine more) : Text.OneLine (disposition name more) := by
  have hstart : Text.OneLine "Content-Disposition: form-data; name=\"" := by simp [Text.OneLine]
  have hquote : Text.OneLine "\"" := by simp [Text.OneLine]
  have hfront := Text.oneLine_append.2 ⟨hstart, hname⟩
  exact Text.oneLine_append.2 ⟨Text.oneLine_append.2 ⟨hfront, hquote⟩, hmore⟩

/-- A part that holds a short text. -/
theorem part?_text {boundary name value : String} (hboundary : Text.OneLine boundary)
    (hname : Text.OneLine name) (hquote : '"' ∉ name.toList) (hvalue : Text.OneLine value)
    (rest : List UInt8) :
    part? boundary (partBytes boundary [disposition name ""] (Utf8.encode value) ++ rest) =
      some (⟨name, none, none, Utf8.encode value⟩, rest) := by
  have hempty : Text.OneLine "" := by simp [Text.OneLine]
  apply part?_partBytes hboundary (List.cons_ne_nil _ _)
  · exact List.forall_mem_singleton.2 (oneLine_disposition hname hempty)
  · exact List.forall_mem_singleton.2 (disposition_ne_empty name "")
  · exact delimiter_not_infix hvalue
  · exact ofHeaders?_text hquote _

/-- The part that holds the image. -/
theorem part?_image {boundary filename : String} {image : List UInt8}
    (hboundary : Text.OneLine boundary) (hfilename : Text.OneLine filename)
    (hquote : '"' ∉ filename.toList) (himage : ¬delimiter boundary <:+: image)
    (rest : List UInt8) :
    part? boundary (partBytes boundary (imageHeaders filename) image ++ rest) =
      some (⟨"image", some filename, some "image/jpeg", image⟩, rest) := by
  have hname : Text.OneLine "image" ∧ '"' ∉ "image".toList := by simp [Text.OneLine]
  have hmore : Text.OneLine "; filename=\"" ∧ Text.OneLine "\"" := by simp [Text.OneLine]
  have htype : Text.OneLine "Content-Type: image/jpeg" := by simp [Text.OneLine]
  have hparameter := Text.oneLine_append.2 ⟨Text.oneLine_append.2 ⟨hmore.1, hfilename⟩, hmore.2⟩
  apply part?_partBytes hboundary (List.cons_ne_nil _ _)
  · exact List.forall_mem_cons.2
      ⟨oneLine_disposition hname.1 hparameter, List.forall_mem_singleton.2 htype⟩
  · exact List.forall_mem_cons.2
      ⟨disposition_ne_empty _ _, List.forall_mem_singleton.2 (by decide)⟩
  · exact himage
  · exact ofHeaders?_file hname.2 hquote image

end Uploads

/-- The body of an upload, read with the boundary that its content type names, is just its three
parts, with nothing left; the image comes back byte for byte, if it is free of the delimiter. -/
theorem read_seal (p : Payload) (boundary : String) (hboundary : Text.OneLine boundary)
    (hfilename : Text.OneLine p.filename) (hquote : '"' ∉ p.filename.toList)
    (himage : ¬delimiter boundary <:+: p.image) :
    let e := p.seal boundary
    let body := e.head ++ e.image ++ e.tail
    boundaryOf? e.contentType = some boundary ∧ body.length = e.contentLength ∧
      read? e.contentType body =
        some ([⟨"mac", none, none, Utf8.encode (toString p.deviceId.toNat)⟩,
          ⟨"battery", none, none, Utf8.encode p.batteryText⟩,
          ⟨"image", some p.filename, some "image/jpeg", p.image⟩], []) := by
  intro e body
  have hnamed : boundaryOf? e.contentType = some boundary := by
    have htype : e.contentType = "multipart/form-data; boundary=" ++ boundary := rfl
    unfold boundaryOf?
    simp only [htype, String.toList_append, Text.dropStart?_append, Option.map_some,
      String.ofList_toList]
  have hlength : body.length = e.contentLength := by
    simp only [body, Envelope.contentLength, List.length_append]
  have hmac : Text.OneLine "mac" ∧ '"' ∉ "mac".toList := by simp [Text.OneLine]
  have hbattery : Text.OneLine "battery" ∧ '"' ∉ "battery".toList := by simp [Text.OneLine]
  have hfirst := part?_text hboundary hmac.1 hmac.2 (Text.oneLine_toString p.deviceId.toNat)
  have hlevel : Text.OneLine p.batteryText := oneLine_toPlaces 2 _
  have hsecond := part?_text hboundary hbattery.1 hbattery.2 hlevel
  have hthird := part?_image hboundary hfilename hquote himage (Utf8.encode "--\r\n")
  have hlast := parts?_of_end (hthird.trans (by rw [List.append_nil]))
  have hbody : body = _ := body_seal p boundary
  refine ⟨hnamed, hlength, ?_⟩
  simp only [read?, hnamed, hbody, Option.bind_eq_bind, Option.bind_some, Text.dropStart?_append]
  rw [parts?_of_more (hfirst _), parts?_of_more (hsecond _), hlast]
  rfl

/-- An image that holds the boundary, empty lines and the text of a further part, and breaks off
within a delimiter. -/
theorem read_seal_of_image_like_parts :
    let image := Utf8.encode "--b--\r\n\r\n--\r\nContent-Disposition: form-data; name=\"mac\"\r\n-"
    let p : Payload := ⟨7, 0.5, "; name=x.jpg", image⟩
    let e := p.seal "b"
    let body := e.head ++ e.image ++ e.tail
    (Text.OneLine "b" ∧ Text.OneLine p.filename ∧ '"' ∉ p.filename.toList ∧
        ¬delimiter "b" <:+: p.image) ∧
      boundaryOf? e.contentType = some "b" ∧ body.length = e.contentLength ∧
        read? e.contentType body =
          some ([⟨"mac", none, none, Utf8.encode (toString p.deviceId.toNat)⟩,
            ⟨"battery", none, none, Utf8.encode p.batteryText⟩,
            ⟨"image", some p.filename, some "image/jpeg", p.image⟩], []) := by
  intro image p e body
  have hboundary : Text.OneLine "b" := by simp [Text.OneLine]
  have hfilename : Text.OneLine p.filename := by simp [p, Text.OneLine]
  have hquote : '"' ∉ p.filename.toList := by simp [p]
  have himage : ¬delimiter "b" <:+: p.image := by decide +kernel
  exact ⟨⟨hboundary, hfilename, hquote, himage⟩, read_seal p "b" hboundary hfilename hquote himage⟩

end FieldCamera.Upload.Form
