import FieldCamera.Proofs.Text.Occurrence
import Mathlib.Data.List.Basic
/-!
# Reading markup

Markup is tags with text between them. The value of an attribute runs from its opening quote to the
next one, whatever stands between them, and five entities stand for the characters that have a
meaning in markup. Tags are read back from what is written for them (`tagsIn?_written`).
-/

namespace FieldCamera.Markup

/-- An attribute, with the text between its quotes if it has any. -/
structure Attribute where
  name : String
  value : Option String
  deriving DecidableEq, Repr

/-- A tag, and the text from its end to the next tag. -/
structure Tag where
  name : String
  attributes : List Attribute
  text : String
  deriving DecidableEq, Repr

/-- A character of the name of a tag or of an attribute. -/
def isNameChar (c : Char) : Bool :=
  c != ' ' && c != '<' && c != '>' && c != '=' && c != '"'

/-- The attribute at the front, behind the space before it. -/
def attribute? (cs : List Char) : Option (Attribute × List Char) :=
  let name := cs.takeWhile isNameChar
  if name = [] then none
  else
    match cs.dropWhile isNameChar with
    | '=' :: '"' :: rest =>
      (Text.cut '"' rest).map fun r => (⟨String.ofList name, some (String.ofList r.1)⟩, r.2)
    | rest => some (⟨String.ofList name, none⟩, rest)

theorem length_attribute? {cs rest : List Char} {a : Attribute}
    (h : attribute? cs = some (a, rest)) : rest.length ≤ cs.length := by
  have hdrop := (List.dropWhile_sublist (l := cs) isNameChar).length_le
  unfold attribute? at h
  dsimp only at h
  split at h
  · contradiction
  · split at h
    · rename_i behind hbehind
      obtain ⟨⟨value, r⟩, hcut, heq⟩ := Option.map_eq_some_iff.1 h
      obtain ⟨-, rfl⟩ := Prod.mk.inj heq
      have hvalue := congrArg List.length (Text.cut_eq_some_iff.1 hcut).1
      rw [hbehind] at hdrop
      simp only [List.length_append, List.length_cons] at hvalue hdrop
      show r.length ≤ cs.length
      omega
    · obtain ⟨-, rfl⟩ := Prod.mk.inj (Option.some.inj h)
      exact hdrop

/-- The attributes up to the end of the tag, and what stands behind it. -/
def attributes? (cs : List Char) : Option (List Attribute × List Char) :=
  match cs with
  | '>' :: rest => some ([], rest)
  | ' ' :: rest =>
    match _h : attribute? rest with
    | some (a, behind) => (attributes? behind).map fun r => (a :: r.1, r.2)
    | none => none
  | _ => none
termination_by cs.length
decreasing_by exact Nat.lt_succ_of_le (length_attribute? _h)

theorem length_attributes? {cs rest : List Char} {as : List Attribute}
    (h : attributes? cs = some (as, rest)) : rest.length < cs.length := by
  fun_induction attributes? cs generalizing as with
  | case1 behind =>
      obtain ⟨-, rfl⟩ := Prod.mk.inj (Option.some.inj h)
      simp
  | case2 cs a behind ha ih =>
      obtain ⟨⟨more, r⟩, hmore, heq⟩ := Option.map_eq_some_iff.1 h
      obtain ⟨-, rfl⟩ := Prod.mk.inj heq
      have := length_attribute? ha
      have := ih hmore
      rw [List.length_cons]
      omega
  | case3 => contradiction
  | case4 => contradiction

/-- The tag at the front, behind its opening bracket, and the text behind it. -/
def tag? (cs : List Char) : Option (Tag × List Char) :=
  (attributes? (cs.dropWhile isNameChar)).map fun r =>
    (⟨String.ofList (cs.takeWhile isNameChar), r.1, String.ofList (r.2.takeWhile (· != '<'))⟩,
      r.2.dropWhile (· != '<'))

theorem length_tag? {cs rest : List Char} {t : Tag} (h : tag? cs = some (t, rest)) :
    rest.length ≤ cs.length := by
  obtain ⟨⟨as, behind⟩, has, heq⟩ := Option.map_eq_some_iff.1 h
  obtain ⟨-, rfl⟩ := Prod.mk.inj heq
  calc
    (behind.dropWhile (· != '<')).length ≤ behind.length := (List.dropWhile_sublist _).length_le
    _ ≤ (cs.dropWhile isNameChar).length := Nat.le_of_lt (length_attributes? has)
    _ ≤ cs.length := (List.dropWhile_sublist _).length_le

/-- The tags of characters that begin with one. -/
def tagsIn? (cs : List Char) : Option (List Tag) :=
  match cs with
  | [] => some []
  | '<' :: rest =>
    match _h : tag? rest with
    | some (t, behind) => (tagsIn? behind).map (t :: ·)
    | none => none
  | _ => none
termination_by cs.length
decreasing_by exact Nat.lt_succ_of_le (length_tag? _h)

/-- The tags of a text that begins with one. -/
def tags? (s : String) : Option (List Tag) :=
  tagsIn? s.toList

/-- Text with the five entities replaced by what they stand for. -/
def decodeEntities : List Char → List Char
  | [] => []
  | '&' :: 'a' :: 'm' :: 'p' :: ';' :: rest => '&' :: decodeEntities rest
  | '&' :: 'l' :: 't' :: ';' :: rest => '<' :: decodeEntities rest
  | '&' :: 'g' :: 't' :: ';' :: rest => '>' :: decodeEntities rest
  | '&' :: 'q' :: 'u' :: 'o' :: 't' :: ';' :: rest => '"' :: decodeEntities rest
  | '&' :: '#' :: '3' :: '9' :: ';' :: rest => '\'' :: decodeEntities rest
  | c :: rest => c :: decodeEntities rest

/-- The text between the quotes of the first attribute of this name. -/
def Tag.attribute? (t : Tag) (name : String) : Option String :=
  (t.attributes.find? (·.name == name)).bind (·.value)

/-- The name of an input, and its value as it is meant. -/
def Tag.input? (t : Tag) : Option (String × String) := do
  let name ← t.attribute? "name"
  let value ← t.attribute? "value"
  some (name, String.ofList (decodeEntities value.toList))

/-- All inputs in their order, if each of them has a name and a value. -/
def inputs? (ts : List Tag) : Option (List (String × String)) :=
  (ts.filter (·.name == "input")).mapM Tag.input?

section Written

/-- What is written for an attribute. -/
def Attribute.written (a : Attribute) : List Char :=
  ' ' :: (a.name.toList ++
    match a.value with
    | some value => '=' :: '"' :: (value.toList ++ ['"'])
    | none => [])

/-- What is written for a tag and the text behind it. -/
def Tag.written (t : Tag) : List Char :=
  '<' :: (t.name.toList ++ (t.attributes.flatMap Attribute.written ++ '>' :: t.text.toList))

/-- A text that is a name as a whole. -/
def IsName (name : String) : Prop :=
  name.toList ≠ [] ∧ name.toList.all isNameChar = true

instance (name : String) : Decidable (IsName name) :=
  inferInstanceAs (Decidable (_ ∧ _))

/-- An attribute of which the value holds no quote. -/
structure Attribute.WellFormed (a : Attribute) : Prop where
  isName : IsName a.name
  value_free : ∀ v ∈ a.value, '"' ∉ v.toList

instance (a : Attribute) : Decidable a.WellFormed :=
  decidable_of_iff (IsName a.name ∧ ∀ v ∈ a.value, '"' ∉ v.toList)
    ⟨fun h => ⟨h.1, h.2⟩, fun h => ⟨h.isName, h.value_free⟩⟩

theorem wellFormed_attribute {name value : String} (hname : IsName name)
    (hvalue : '"' ∉ value.toList) : (⟨name, some value⟩ : Attribute).WellFormed where
  isName := hname
  value_free v hv := by
    obtain rfl := Option.some.inj hv
    exact hvalue

/-- A tag with well-formed attributes, and no bracket opens in the text behind it. -/
structure Tag.WellFormed (t : Tag) : Prop where
  isName : IsName t.name
  attributes : ∀ a ∈ t.attributes, a.WellFormed
  text_free : '<' ∉ t.text.toList

instance (t : Tag) : Decidable t.WellFormed :=
  decidable_of_iff
    (IsName t.name ∧ (∀ a ∈ t.attributes, a.WellFormed) ∧ '<' ∉ t.text.toList)
    ⟨fun h => ⟨h.1, h.2.1, h.2.2⟩, fun h => ⟨h.isName, h.attributes, h.text_free⟩⟩

theorem wellFormed_tag {name text : String} {as : List Attribute} (hname : IsName name)
    (has : ∀ a ∈ as, a.WellFormed) (htext : '<' ∉ text.toList) :
    (⟨name, as, text⟩ : Tag).WellFormed :=
  ⟨hname, has, htext⟩

/-- A name ends at the first character that can be in no name. -/
theorem takeWhile_name {name : List Char} (h : name.all isNameChar = true) {c : Char}
    (hc : isNameChar c = false) (rest : List Char) :
    (name ++ c :: rest).takeWhile isNameChar = name ∧
      (name ++ c :: rest).dropWhile isNameChar = c :: rest := by
  have hname := List.all_eq_true.1 h
  constructor
  · rw [List.takeWhile_append_of_pos hname, List.takeWhile_cons_of_neg (by simp [hc]),
      List.append_nil]
  · rw [List.dropWhile_append_of_pos hname, List.dropWhile_cons_of_neg (by simp [hc])]

/-- The end of an attribute: another one, or the end of the tag. -/
def EndsAttribute (rest : List Char) : Prop :=
  ∃ c behind, rest = c :: behind ∧ (c = ' ' ∨ c = '>')

theorem endsAttribute_written (as : List Attribute) (rest : List Char) :
    EndsAttribute (as.flatMap Attribute.written ++ '>' :: rest) := by
  cases as with
  | nil => exact ⟨'>', rest, rfl, .inr rfl⟩
  | cons a as => exact ⟨' ', _, rfl, .inl rfl⟩

/-- A name ends where an attribute ends. -/
theorem takeWhile_name_of_ends {name rest : List Char} (hname : name.all isNameChar = true)
    (hrest : EndsAttribute rest) :
    (name ++ rest).takeWhile isNameChar = name ∧ (name ++ rest).dropWhile isNameChar = rest := by
  obtain ⟨c, behind, rfl, hc⟩ := hrest
  have hend : isNameChar c = false := by
    obtain rfl | rfl := hc <;> decide
  exact takeWhile_name hname hend behind

theorem attribute?_written {a : Attribute} (h : a.WellFormed) {rest : List Char}
    (hrest : EndsAttribute rest) :
    attribute? ((a.name.toList ++
      match a.value with
      | some value => '=' :: '"' :: (value.toList ++ ['"'])
      | none => []) ++ rest) = some (a, rest) := by
  obtain ⟨name, value⟩ := a
  cases value with
  | some value =>
      obtain ⟨htake, hdrop⟩ := takeWhile_name h.isName.2 (c := '=') (by decide)
        ('"' :: (value.toList ++ '"' :: rest))
      have hcut : Text.cut '"' (value.toList ++ '"' :: rest) = some (value.toList, rest) :=
        Text.cut_eq_some_iff.2 ⟨rfl, h.value_free value rfl⟩
      unfold attribute?
      simp only [List.append_assoc, List.cons_append, List.nil_append] at htake hdrop ⊢
      simp only [htake, hdrop, if_neg h.isName.1, hcut, Option.map_some, String.ofList_toList]
  | none =>
      obtain ⟨htake, hdrop⟩ := takeWhile_name_of_ends h.isName.2 hrest
      unfold attribute?
      simp only [List.append_nil, htake, hdrop, if_neg h.isName.1, String.ofList_toList]
      obtain ⟨c, behind, rfl, rfl | rfl⟩ := hrest <;> rfl

theorem attributes?_space {rest behind : List Char} {a : Attribute}
    (h : attribute? rest = some (a, behind)) :
    attributes? (' ' :: rest) = (attributes? behind).map fun r => (a :: r.1, r.2) := by
  rw [attributes?]
  split <;> simp_all

theorem attributes?_written {as : List Attribute} (h : ∀ a ∈ as, a.WellFormed)
    (rest : List Char) :
    attributes? (as.flatMap Attribute.written ++ '>' :: rest) = some (as, rest) := by
  induction as with
  | nil => rw [List.flatMap_nil, List.nil_append, attributes?]
  | cons a as ih =>
      rw [List.forall_mem_cons] at h
      have hend := endsAttribute_written as rest
      rw [List.flatMap_cons, List.append_assoc, Attribute.written, List.cons_append,
        attributes?_space (attribute?_written h.1 hend), ih h.2, Option.map_some]

/-- The end of the text behind a tag: another tag, or the end of all. -/
def EndsText (rest : List Char) : Prop :=
  rest = [] ∨ ∃ behind, rest = '<' :: behind

theorem takeWhile_text {text rest : List Char} (htext : '<' ∉ text) (hrest : EndsText rest) :
    (text ++ rest).takeWhile (· != '<') = text ∧ (text ++ rest).dropWhile (· != '<') = rest := by
  have hall : ∀ c ∈ text, (c != '<') = true := by
    intro c hc
    rw [bne_iff_ne]
    rintro rfl
    exact htext hc
  rw [List.takeWhile_append_of_pos hall, List.dropWhile_append_of_pos hall]
  obtain rfl | ⟨behind, rfl⟩ := hrest <;> simp

theorem tag?_written {t : Tag} (h : t.WellFormed) {rest : List Char} (hrest : EndsText rest) :
    tag? (t.name.toList ++ (t.attributes.flatMap Attribute.written ++
      '>' :: (t.text.toList ++ rest))) = some (t, rest) := by
  have hname := takeWhile_name_of_ends h.isName.2
    (endsAttribute_written t.attributes (t.text.toList ++ rest))
  have htext := takeWhile_text h.text_free hrest
  rw [tag?, hname.1, hname.2, attributes?_written h.attributes, Option.map_some]
  simp only [htext, String.ofList_toList]

theorem tagsIn?_open {rest behind : List Char} {t : Tag} (h : tag? rest = some (t, behind)) :
    tagsIn? ('<' :: rest) = (tagsIn? behind).map (t :: ·) := by
  rw [tagsIn?]
  split <;> simp_all

/-- Tags are read back from what is written for them. -/
theorem tagsIn?_written {ts : List Tag} (h : ∀ t ∈ ts, t.WellFormed) :
    tagsIn? (ts.flatMap Tag.written) = some ts := by
  induction ts with
  | nil => rw [List.flatMap_nil, tagsIn?]
  | cons t ts ih =>
      rw [List.forall_mem_cons] at h
      have hend : EndsText (ts.flatMap Tag.written) := by
        cases ts with
        | nil => exact .inl rfl
        | cons t' ts => exact .inr ⟨_, rfl⟩
      rw [List.flatMap_cons, Tag.written]
      simp only [List.cons_append, List.append_assoc]
      rw [tagsIn?_open (tag?_written h.1 hend), ih h.2, Option.map_some]

end Written

section Pieces

/-- A text that is just what is written for these tags. -/
structure IsMarkup (s : String) (ts : List Tag) : Prop where
  written : s.toList = ts.flatMap Tag.written
  wellFormed : ∀ t ∈ ts, t.WellFormed

instance (s : String) (ts : List Tag) : Decidable (IsMarkup s ts) :=
  decidable_of_iff (s.toList = ts.flatMap Tag.written ∧ ∀ t ∈ ts, t.WellFormed)
    ⟨fun h => ⟨h.1, h.2⟩, fun h => ⟨h.written, h.wellFormed⟩⟩

variable {s s' : String} {ts ts' : List Tag}

theorem IsMarkup.tags?_eq (h : IsMarkup s ts) : tags? s = some ts := by
  rw [tags?, h.written, tagsIn?_written h.wellFormed]

theorem IsMarkup.append (h : IsMarkup s ts) (h' : IsMarkup s' ts') :
    IsMarkup (s ++ s') (ts ++ ts') where
  written := by rw [String.toList_append, List.flatMap_append, h.written, h'.written]
  wellFormed := List.forall_mem_append.2 ⟨h.wellFormed, h'.wellFormed⟩

theorem IsMarkup.join {α : Type} {xs : List α} {f : α → String} {g : α → List Tag}
    (h : ∀ x ∈ xs, IsMarkup (f x) (g x)) : IsMarkup (String.join (xs.map f)) (xs.flatMap g) where
  written := by
    rw [String.toList_join, List.flatMap_map, List.flatMap_assoc]
    exact List.flatMap_congr fun x hx => (h x hx).written
  wellFormed := by
    intro t ht
    obtain ⟨x, hx, hmem⟩ := List.mem_flatMap.1 ht
    exact (h x hx).wellFormed t hmem

theorem inputs?_append {found found' : List (String × String)} (h : inputs? ts = some found)
    (h' : inputs? ts' = some found') : inputs? (ts ++ ts') = some (found ++ found') := by
  unfold inputs? at h h' ⊢
  rw [List.filter_append, List.mapM_append, h, h']
  rfl

theorem inputs?_flatMap {α : Type} {xs : List α} {g : α → List Tag} {value : α → String × String}
    (h : ∀ x ∈ xs, inputs? (g x) = some [value x]) :
    inputs? (xs.flatMap g) = some (xs.map value) := by
  induction xs with
  | nil => rfl
  | cons x xs ih =>
      rw [List.forall_mem_cons] at h
      rw [List.flatMap_cons, inputs?_append h.1 (ih h.2)]
      rfl

end Pieces

end FieldCamera.Markup
