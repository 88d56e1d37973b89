import FieldCamera.Proofs.Text.Markup
import FieldCamera.Setup.Page
/-!
# What the setup page shows

An escaped value holds no quote and is read back as it was, so the page is the same tags for every
configuration and token: only its values differ, and the option that is marked (`page_tags`).
-/

namespace FieldCamera.Setup

open Markup

section Escaping

theorem decodeEntities_cons {c : Char} (h : c ≠ '&') (rest : List Char) :
    decodeEntities (c :: rest) = c :: decodeEntities rest := by
  rw [decodeEntities.eq_def]
  split <;> simp_all

theorem decodeEntities_escapeChar (c : Char) (rest : List Char) :
    decodeEntities (escapeChar c ++ rest) = c :: decodeEntities rest := by
  unfold escapeChar
  split
  · simp_all [decodeEntities]
  split
  · simp_all [decodeEntities]
  split
  · simp_all [decodeEntities]
  split
  · simp_all [decodeEntities]
  split
  · simp_all [decodeEntities]
  · rename_i hand _ _ _ _
    exact decodeEntities_cons hand rest

/-- A value is read back from the text that it is escaped to. -/
theorem decodeEntities_escape (s : String) : decodeEntities (escape s).toList = s.toList := by
  rw [escape, String.toList_ofList]
  induction s.toList with
  | nil => rfl
  | cons c cs ih => rw [List.flatMap_cons, decodeEntities_escapeChar, ih]

theorem quote_notMem_escape (s : String) : '"' ∉ (escape s).toList := by
  rw [escape, String.toList_ofList, List.mem_flatMap]
  rintro ⟨c, -, hmem⟩
  unfold escapeChar at hmem
  split at hmem
  · simp at hmem
  split at hmem
  · simp at hmem
  split at hmem
  · simp at hmem
  split at hmem
  · simp at hmem
  split at hmem
  · simp at hmem
  · rename_i hquote _
    exact hquote (List.mem_singleton.1 hmem).symm

end Escaping

/-- The tag of the style, with the rules that stand behind it. -/
def styleTag : Tag :=
  ⟨"style", [],
    "body\x7bfont-family:sans-serif;max-width:720px;margin:40px auto;padding:0 20px\x7d" ++
    ".field\x7bmargin-bottom:14px\x7dlabel\x7bdisplay:block;font-weight:600\x7d" ++
    "input,select\x7bwidth:100%;padding:8px\x7d.message\x7bbackground:#e6f4ea;padding:12px\x7d"⟩

/-- The tags before the form. -/
def headTags : List Tag :=
  [⟨"!DOCTYPE", [⟨"html", none⟩], ""⟩, ⟨"html", [], ""⟩, ⟨"head", [], "\n"⟩,
    ⟨"meta", [⟨"name", some "viewport"⟩,
      ⟨"content", some "width=device-width, initial-scale=1"⟩], "\n"⟩,
    ⟨"title", [], "Camera Node Configuration"⟩, ⟨"/title", [], "\n"⟩] ++
    styleTag :: [⟨"/style", [], "\n"⟩, ⟨"/head", [], ""⟩, ⟨"body", [], "\n"⟩,
      ⟨"h1", [], "Camera Node Configuration"⟩, ⟨"/h1", [], "\n"⟩]

/-- The tags of the note on a page for what has just been saved. -/
def noteTags : List Tag :=
  [⟨"div", [⟨"class", some "message"⟩], ""⟩,
    ⟨"strong", [], "Configuration saved successfully."⟩, ⟨"/strong", [], ""⟩, ⟨"/div", [], "\n"⟩]

/-- The tag that opens the form. -/
def formTag : Tag :=
  ⟨"form", [⟨"action", some "/save"⟩, ⟨"method", some "POST"⟩, ⟨"autocomplete", some "off"⟩], "\n"⟩

/-- The tags of the heading of a section. -/
def headingTags (title : String) : List Tag :=
  [⟨"h2", [], title⟩, ⟨"/h2", [], "\n"⟩]

/-- The tag of an input, with the text behind it. -/
def inputTag (kind name value text : String) : Tag :=
  ⟨"input", [⟨"type", some kind⟩, ⟨"name", some name⟩, ⟨"value", some (escape value)⟩], text⟩

/-- The tags of an input with its label. -/
def labelledTags (i : Input) : List Tag :=
  [⟨"div", [⟨"class", some "field"⟩], ""⟩, ⟨"label", [], i.label⟩, ⟨"/label", [], ""⟩,
    inputTag i.kind i.name i.value "", ⟨"/div", [], "\n"⟩]

/-- The tags of one choice of the resolution. -/
def optionTags (named : Option Resolution) (r : Resolution) : List Tag :=
  [⟨"option", ⟨"value", some r.name⟩ :: (if named = some r then [⟨"selected", none⟩] else []),
      r.name.toUpper ++ " - " ++ toString r.dimensions.1 ++ "x" ++ toString r.dimensions.2⟩,
    ⟨"/option", [], "\n"⟩]

/-- The tags of the resolution, with those of its choices. -/
def resolutionTags (d : Device) : List Tag :=
  [⟨"div", [⟨"class", some "field"⟩], ""⟩, ⟨"label", [], "Resolution"⟩, ⟨"/label", [], ""⟩,
      ⟨"select", [⟨"name", some "res"⟩], "\n"⟩] ++
    Resolution.all.flatMap (optionTags (Resolution.named? d.resolution)) ++
    [⟨"/select", [], ""⟩, ⟨"/div", [], "\n"⟩]

/-- The tags from the end of the last input on. -/
def closingTags : List Tag :=
  [⟨"button", [⟨"type", some "submit"⟩], "Save Configuration"⟩, ⟨"/button", [], "\n"⟩,
    ⟨"/form", [], ""⟩, ⟨"/body", [], ""⟩, ⟨"/html", [], "\n"⟩]

/-- The tags of the page. -/
def pageTags (d : Device) (token : Token) (saved : Bool) : List Tag :=
  headTags ++ (if saved then noteTags else []) ++ [formTag] ++
    [inputTag "hidden" "session" token.text "\n"] ++
    headingTags "General" ++ (generalInputs d).flatMap labelledTags ++
    headingTags "Network" ++ (networkInputs d).flatMap labelledTags ++
    headingTags "Camera" ++ (intervalInputs d).flatMap labelledTags ++ resolutionTags d ++
    (pictureInputs d).flatMap labelledTags ++ closingTags

section Pieces

/-- An input as it is in every configuration. -/
def blank (i : Input) : Input :=
  { i with value := "" }

/-- A label and names that cannot be taken for markup. -/
structure IsPlain (i : Input) : Prop where
  label : '<' ∉ i.label.toList
  name : '"' ∉ i.name.toList
  kind : '"' ∉ i.kind.toList

instance (i : Input) : Decidable (IsPlain i) :=
  decidable_of_iff ('<' ∉ i.label.toList ∧ '"' ∉ i.name.toList ∧ '"' ∉ i.kind.toList)
    ⟨fun h => ⟨h.1, h.2.1, h.2.2⟩, fun h => ⟨h.label, h.name, h.kind⟩⟩

theorem isPlain_of_blank {i : Input} (h : IsPlain (blank i)) : IsPlain i :=
  ⟨h.label, h.name, h.kind⟩

theorem wellFormed_inputTag {kind name text : String} (hkind : '"' ∉ kind.toList)
    (hname : '"' ∉ name.toList) (value : String) (htext : '<' ∉ text.toList) :
    (inputTag kind name value text).WellFormed := by
  refine wellFormed_tag (by decide) ?_ htext
  simp only [List.forall_mem_cons]
  refine ⟨wellFormed_attribute (by decide) hkind, wellFormed_attribute (by decide) hname,
    wellFormed_attribute (by decide) (quote_notMem_escape value), by simp⟩

theorem isMarkup_input {i : Input} (h : IsPlain i) : IsMarkup i.html (labelledTags i) where
  written := by
    unfold Input.html
    simp [labelledTags, inputTag, Tag.written, Attribute.written]
  wellFormed := by
    simp only [labelledTags, List.forall_mem_cons]
    refine ⟨by decide, wellFormed_tag (by decide) (by simp) h.label, by decide,
      wellFormed_inputTag h.kind h.name i.value (by simp), by decide, by simp⟩

theorem isMarkup_inputs {inputs : List Input} (h : ∀ i ∈ inputs.map blank, IsPlain i) :
    IsMarkup (inputsHtml inputs) (inputs.flatMap labelledTags) :=
  .join fun _ hi => isMarkup_input (isPlain_of_blank (h _ (List.mem_map_of_mem hi)))

theorem isMarkup_token (token : Token) :
    IsMarkup (tokenHtml token) [inputTag "hidden" "session" token.text "\n"] where
  written := by
    unfold tokenHtml
    simp [inputTag, Tag.written, Attribute.written]
  wellFormed := by
    rw [List.forall_mem_singleton]
    exact wellFormed_inputTag (by simp) (by simp) token.text (by simp)

theorem isMarkup_option (named : Option Resolution) (r : Resolution) :
    IsMarkup (optionHtml named r) (optionTags named r) where
  written := by
    unfold optionHtml
    by_cases h : named = some r <;>
      simp [optionTags, h, Tag.written, Attribute.written]
  wellFormed := by
    unfold optionTags
    by_cases h : named = some r
    · rw [if_pos h]
      cases r <;> decide +kernel
    · rw [if_neg h]
      cases r <;> decide +kernel

theorem isMarkup_resolution (d : Device) : IsMarkup (resolutionHtml d) (resolutionTags d) := by
  unfold resolutionHtml resolutionTags
  refine .append (.append ?_ (.join fun r _ => isMarkup_option _ r)) ?_
  · decide +kernel
  · decide +kernel

theorem wellFormed_style : styleTag.WellFormed := by
  refine wellFormed_tag (by decide) (by simp) ?_
  -- The style is long, so its lines are looked through one by one.
  simp only [String.toList_append, List.mem_append]
  decide +kernel

theorem isMarkup_head : IsMarkup pageHead headTags where
  written := by
    unfold pageHead headTags styleTag
    simp only [String.toList_append, List.flatMap_append, List.flatMap_cons, List.flatMap_nil,
      Tag.written, Attribute.written]
    decide +kernel
  wellFormed := by
    refine List.forall_mem_append.2 ⟨by decide +kernel, List.forall_mem_cons.2 ⟨?_, ?_⟩⟩
    · exact wellFormed_style
    · decide +kernel

/-- The page is what is written for its tags. -/
theorem isMarkup_page (d : Device) (token : Token) (saved : Bool) :
    IsMarkup (page d token saved) (pageTags d token saved) := by
  have hnote : IsMarkup (if saved then savedNote else "") (if saved then noteTags else []) := by
    cases saved <;> decide +kernel
  have hform : IsMarkup "<form action=\"/save\" method=\"POST\" autocomplete=\"off\">\n"
      [formTag] := by
    decide +kernel
  have hgeneral : IsMarkup "<h2>General</h2>\n" (headingTags "General") := by decide +kernel
  have hnetwork : IsMarkup "<h2>Network</h2>\n" (headingTags "Network") := by decide +kernel
  have hcamera : IsMarkup "<h2>Camera</h2>\n" (headingTags "Camera") := by decide +kernel
  have hclosing : IsMarkup
      "<button type=\"submit\">Save Configuration</button>\n</form></body></html>\n"
      closingTags := by
    decide +kernel
  have hinputs : ∀ inputs ∈ [generalInputs, networkInputs, intervalInputs, pictureInputs],
      IsMarkup (inputsHtml (inputs d)) ((inputs d).flatMap labelledTags) := by
    simp only [List.forall_mem_cons]
    refine ⟨isMarkup_inputs ?_, isMarkup_inputs ?_, isMarkup_inputs ?_, isMarkup_inputs ?_, by simp⟩
    · exact (by decide +kernel : ∀ i ∈ (generalInputs {}).map blank, IsPlain i)
    · exact (by decide +kernel : ∀ i ∈ (networkInputs {}).map blank, IsPlain i)
    · exact (by decide +kernel : ∀ i ∈ (intervalInputs {}).map blank, IsPlain i)
    · exact (by decide +kernel : ∀ i ∈ (pictureInputs {}).map blank, IsPlain i)
  unfold page pageTags
  exact isMarkup_head.append hnote |>.append hform |>.append (isMarkup_token token)
    |>.append hgeneral |>.append (hinputs _ (by simp))
    |>.append hnetwork |>.append (hinputs _ (by simp))
    |>.append hcamera |>.append (hinputs _ (by simp)) |>.append (isMarkup_resolution d)
    |>.append (hinputs _ (by simp)) |>.append hclosing

end Pieces

/-- A tag without what depends on the configuration: what stands in the values, and the mark of an
option. -/
def outline (t : Tag) : Tag :=
  { t with
    attributes := (t.attributes.filter fun a => !(t.name == "option" && a.name == "selected")).map
      fun a => if a.name = "value" then { a with value := a.value.map fun _ => "" } else a }

section Outlines

theorem outline_blank (i : Input) :
    (labelledTags (blank i)).map outline = (labelledTags i).map outline := by
  simp [labelledTags, inputTag, blank, outline]

theorem outline_inputs (inputs others : List Input) (h : inputs.map blank = others.map blank) :
    (inputs.flatMap labelledTags).map outline = (others.flatMap labelledTags).map outline := by
  have hblank (is : List Input) : (is.flatMap labelledTags).map outline =
      (is.map blank).flatMap fun i => (labelledTags i).map outline := by
    simp only [List.map_flatMap, List.flatMap_map, outline_blank]
  rw [hblank, hblank, h]

theorem outline_option (named : Option Resolution) (r : Resolution) :
    (optionTags named r).map outline = (optionTags none r).map outline := by
  by_cases h : named = some r <;> simp [optionTags, outline, h]

theorem outline_resolution (d : Device) :
    (resolutionTags d).map outline = (resolutionTags {}).map outline := by
  simp only [resolutionTags, List.map_append, List.map_flatMap, outline_option]

/-- The outline of the page is the same for every configuration and token. -/
theorem outline_page (d : Device) (token : Token) (saved : Bool) :
    (pageTags d token saved).map outline = (pageTags {} ⟨""⟩ saved).map outline := by
  have hgeneral := outline_inputs (generalInputs d) (generalInputs {}) rfl
  have hnetwork := outline_inputs (networkInputs d) (networkInputs {}) rfl
  have hinterval := outline_inputs (intervalInputs d) (intervalInputs {}) rfl
  have hpicture := outline_inputs (pictureInputs d) (pictureInputs {}) rfl
  have htoken : outline (inputTag "hidden" "session" token.text "\n") =
      outline (inputTag "hidden" "session" "" "\n") := by
    simp [inputTag, outline]
  simp only [pageTags, List.map_append, List.map_cons, List.map_nil, hgeneral, hnetwork, hinterval,
    hpicture, htoken, outline_resolution d]

end Outlines

section Values

theorem input?_inputTag (kind name value text : String) :
    (inputTag kind name value text).input? = some (name, value) := by
  simp [inputTag, Tag.input?, Tag.attribute?, decodeEntities_escape]

theorem inputs?_labelled (i : Input) : inputs? (labelledTags i) = some [(i.name, i.value)] := by
  have hfilter : (labelledTags i).filter (·.name == "input") =
      [inputTag i.kind i.name i.value ""] := by
    simp [labelledTags, inputTag]
  rw [inputs?, hfilter, List.mapM_cons, input?_inputTag]
  rfl

theorem inputs?_eq_nil {ts : List Tag} (h : ∀ t ∈ ts, t.name ≠ "input") : inputs? ts = some [] := by
  have hfilter : ts.filter (·.name == "input") = [] := by simpa using h
  rw [inputs?, hfilter]
  rfl

theorem inputs?_resolution (d : Device) : inputs? (resolutionTags d) = some [] := by
  apply inputs?_eq_nil
  have hoptions : ∀ t ∈ Resolution.all.flatMap (optionTags (Resolution.named? d.resolution)),
      t.name ≠ "input" := by
    intro t ht
    obtain ⟨r, -, hmem⟩ := List.mem_flatMap.1 ht
    simp only [optionTags, List.mem_cons, List.not_mem_nil, or_false] at hmem
    obtain rfl | rfl := hmem <;> simp
  rw [resolutionTags, List.forall_mem_append, List.forall_mem_append]
  exact ⟨⟨by decide, hoptions⟩, by decide⟩

/-- The inputs of the page, each with the value that it was made for. -/
theorem inputs?_page (d : Device) (token : Token) (saved : Bool) :
    inputs? (pageTags d token saved) =
      some (("session", token.text) :: (generalInputs d ++ networkInputs d ++ intervalInputs d ++
        pictureInputs d).map fun i => (i.name, i.value)) := by
  have hhead : inputs? headTags = some [] := inputs?_eq_nil (by decide)
  have hnote : inputs? (if saved then noteTags else []) = some [] :=
    inputs?_eq_nil (by cases saved <;> decide)
  have hform : inputs? [formTag] = some [] := inputs?_eq_nil (by decide)
  have htoken : inputs? [inputTag "hidden" "session" token.text "\n"] =
      some [("session", token.text)] := by
    have hfilter : [inputTag "hidden" "session" token.text "\n"].filter (·.name == "input") =
        [inputTag "hidden" "session" token.text "\n"] := by
      simp [inputTag]
    rw [inputs?, hfilter, List.mapM_cons, input?_inputTag]
    rfl
  have hheading (title : String) : inputs? (headingTags title) = some [] :=
    inputs?_eq_nil (by simp [headingTags])
  have hclosing : inputs? closingTags = some [] := inputs?_eq_nil (by decide)
  have hinputs (is : List Input) :
      inputs? (is.flatMap labelledTags) = some (is.map fun i => (i.name, i.value)) :=
    inputs?_flatMap fun i _ => inputs?_labelled i
  have hall := inputs?_append hhead hnote |> (inputs?_append · hform)
    |> (inputs?_append · htoken)
    |> (inputs?_append · (hheading "General")) |> (inputs?_append · (hinputs (generalInputs d)))
    |> (inputs?_append · (hheading "Network")) |> (inputs?_append · (hinputs (networkInputs d)))
    |> (inputs?_append · (hheading "Camera")) |> (inputs?_append · (hinputs (intervalInputs d)))
    |> (inputs?_append · (inputs?_resolution d))
    |> (inputs?_append · (hinputs (pictureInputs d))) |> (inputs?_append · hclosing)
  rw [pageTags, hall]
  simp

end Values

/-- The page is read as tags, whatever the configuration and the token are. Outside of its values
and the mark of an option it is the same for all of them, and its inputs have the values that they
were made for, character by character. -/
theorem page_tags (saved : Bool) :
    ∃ shape : List Tag, ∀ (d : Device) (token : Token), ∃ ts,
      tags? (page d token saved) = some ts ∧ ts.map outline = shape ∧
      inputs? ts = some [("session", token.text), ("module_name", d.moduleName), ("ssid", d.ssid),
        ("password", d.password), ("init_base", (splitUrl d.initUrl).1),
        ("init_endpoint", (splitUrl d.initUrl).2), ("upload_base", (splitUrl d.uploadUrl).1),
        ("upload_endpoint", (splitUrl d.uploadUrl).2),
        ("interval", toString d.captureIntervalMs.toInt),
        ("vflip", toString d.verticalFlip.toInt), ("bright", toString d.brightness.toInt),
        ("sat", toString d.saturation.toInt)] := by
  refine ⟨(pageTags {} ⟨""⟩ saved).map outline, fun d token => ⟨pageTags d token saved, ?_, ?_, ?_⟩⟩
  · exact (isMarkup_page d token saved).tags?_eq
  · exact outline_page d token saved
  · exact inputs?_page d token saved

end FieldCamera.Setup
