import FieldCamera.Proofs.Setup.Shown
import FieldCamera.Setup.Submission
/-!
# The choice that the form shows

The form offers every frame size and marks the one that the configuration names. A text that names
none is used as VGA, but no choice is marked for it, so that the form comes back with the first one
(`page_choices`).
-/

namespace FieldCamera.Markup

/-- The tags of the first choice list, up to its end. -/
def selectTags (ts : List Tag) : List Tag :=
  (ts.dropWhile (·.name != "select")).takeWhile (·.name != "/select")

/-- The value of a choice as it is meant, and whether the choice is marked. -/
def Tag.choice? (t : Tag) : Option (String × Bool) := do
  let value ← t.attribute? "value"
  some (String.ofList (decodeEntities value.toList), t.attributes.any (·.name == "selected"))

/-- The choices of the first choice list, if each of them has a value. -/
def choices? (ts : List Tag) : Option (List (String × Bool)) :=
  ((selectTags ts).filter (·.name == "option")).mapM Tag.choice?

/-- The values of the choices that are marked. -/
def marked (choices : List (String × Bool)) : List String :=
  (choices.filter (·.2)).map (·.1)

/-- What is sent for a choice list that nobody touched: the choice that is marked, the last one if
there are several, and the first choice of all if none is. -/
def untouched? (choices : List (String × Bool)) : Option String :=
  (marked choices).getLast?.or ((choices.map (·.1)).head?)

theorem selectTags_append {front inner : List Tag} {select close : Tag}
    (hfront : ∀ t ∈ front, t.name ≠ "select") (hselect : select.name = "select")
    (hinner : ∀ t ∈ inner, t.name ≠ "/select") (hclose : close.name = "/select")
    (behind : List Tag) :
    selectTags (front ++ select :: (inner ++ close :: behind)) = select :: inner := by
  rw [selectTags, List.dropWhile_append_of_pos (by simpa using hfront),
    List.dropWhile_cons_of_neg (by simp [hselect]), List.takeWhile_cons_of_pos (by simp [hselect]),
    List.takeWhile_append_of_pos (by simpa using hinner),
    List.takeWhile_cons_of_neg (by simp [hclose]), List.append_nil]

end FieldCamera.Markup

namespace FieldCamera.Setup

open Markup

section Choices

/-- The tags in front of the list of frame sizes. -/
def frontTags (d : Device) (token : Token) (saved : Bool) : List Tag :=
  headTags ++ (if saved then noteTags else []) ++ [formTag] ++
    [inputTag "hidden" "session" token.text "\n"] ++
    headingTags "General" ++ (generalInputs d).flatMap labelledTags ++
    headingTags "Network" ++ (networkInputs d).flatMap labelledTags ++
    headingTags "Camera" ++ (intervalInputs d).flatMap labelledTags ++
    [⟨"div", [⟨"class", some "field"⟩], ""⟩, ⟨"label", [], "Resolution"⟩, ⟨"/label", [], ""⟩]

/-- The tags behind the list of frame sizes. -/
def backTags (d : Device) : List Tag :=
  ⟨"/div", [], "\n"⟩ :: ((pictureInputs d).flatMap labelledTags ++ closingTags)

/-- The page has one list of choices, and its tags are those of the frame sizes. -/
theorem pageTags_eq (d : Device) (token : Token) (saved : Bool) :
    pageTags d token saved = frontTags d token saved ++ ⟨"select", [⟨"name", some "res"⟩], "\n"⟩ ::
      (Resolution.all.flatMap (optionTags (Resolution.named? d.resolution)) ++
        ⟨"/select", [], ""⟩ :: backTags d) := by
  simp only [pageTags, resolutionTags, frontTags, backTags, List.append_assoc, List.cons_append,
    List.nil_append]

theorem name_labelledTags {inputs : List Input} {t : Tag} (h : t ∈ inputs.flatMap labelledTags) :
    t.name ∈ ["div", "label", "/label", "input", "/div"] := by
  obtain ⟨i, -, hmem⟩ := List.mem_flatMap.1 h
  simp only [labelledTags, List.mem_cons, List.not_mem_nil, or_false] at hmem
  obtain rfl | rfl | rfl | rfl | rfl := hmem <;> simp [inputTag]

theorem name_frontTags (d : Device) (token : Token) (saved : Bool) :
    ∀ t ∈ frontTags d token saved, t.name ≠ "select" := by
  have hinputs (inputs : List Input) : ∀ t ∈ inputs.flatMap labelledTags, t.name ≠ "select" := by
    intro t ht hname
    have hnames := name_labelledTags ht
    rw [hname] at hnames
    exact absurd hnames (by decide)
  have hheading (title : String) : ∀ t ∈ headingTags title, t.name ≠ "select" := by
    simp [headingTags]
  have hnote : ∀ t ∈ if saved then noteTags else [], t.name ≠ "select" := by
    cases saved <;> decide
  simp only [frontTags, List.forall_mem_append]
  exact ⟨⟨⟨⟨⟨⟨⟨⟨⟨⟨by decide, hnote⟩, by decide⟩, by simp [inputTag]⟩, hheading _⟩, hinputs _⟩,
    hheading _⟩, hinputs _⟩, hheading _⟩, hinputs _⟩, by decide⟩

/-- The frame sizes as choices, with a mark at the one that is named. -/
def choicesFor (named : Option Resolution) : List (String × Bool) :=
  Resolution.all.map fun r => (r.name, decide (named = some r))

theorem choices?_page (d : Device) (token : Token) (saved : Bool) :
    choices? (pageTags d token saved) = some (choicesFor (Resolution.named? d.resolution)) := by
  have hinner : ∀ t ∈ Resolution.all.flatMap (optionTags (Resolution.named? d.resolution)),
      t.name ≠ "/select" := by
    intro t ht
    obtain ⟨r, -, hmem⟩ := List.mem_flatMap.1 ht
    simp only [optionTags, List.mem_cons, List.not_mem_nil, or_false] at hmem
    obtain rfl | rfl := hmem <;> simp
  rw [choices?, pageTags_eq, selectTags_append (name_frontTags d token saved) rfl hinner rfl]
  generalize Resolution.named? d.resolution = named
  cases named with
  | none => decide +kernel
  | some r => cases r <;> decide +kernel

theorem marked_choicesFor (named : Option Resolution) :
    marked (choicesFor named) = named.toList.map Resolution.name := by
  cases named with
  | none => rfl
  | some r => cases r <;> rfl

theorem untouched?_choicesFor (named : Option Resolution) :
    untouched? (choicesFor named) = some (named.getD .qvga).name := by
  cases named with
  | none => rfl
  | some r => cases r <;> rfl

/-- The name of a frame size names it. -/
theorem inForce_name (r : Resolution) : Resolution.inForce r.name = r := by
  cases r <;> decide +kernel

end Choices

/-- The page offers the frame sizes, and marks the one in force and no other, if the configuration
names one. If it names none, no choice is marked, and it is then that the list comes back untouched
with another frame size than the one in force. -/
theorem page_choices (d : Device) (token : Token) (saved : Bool) :
    ∃ ts choices, tags? (page d token saved) = some ts ∧ choices? ts = some choices ∧
      choices.map Prod.fst = Resolution.all.map Resolution.name ∧
      marked choices =
        (if (Resolution.named? d.resolution).isSome then [d.frameSize.name] else []) ∧
      ∀ form, untouched? choices = some (field form "res") →
        ((deviceOfForm form).frameSize = d.frameSize ↔
          (Resolution.named? d.resolution).isSome) := by
  refine ⟨_, _, (isMarkup_page d token saved).tags?_eq, choices?_page d token saved, ?_, ?_, ?_⟩
  · simp [choicesFor]
  · rw [marked_choicesFor, Device.frameSize, Resolution.inForce]
    cases Resolution.named? d.resolution <;> rfl
  · intro form hform
    rw [untouched?_choicesFor, Option.some.injEq] at hform
    have hback : (deviceOfForm form).frameSize = (Resolution.named? d.resolution).getD .qvga := by
      rw [Device.frameSize, deviceOfForm, ← hform, inForce_name]
    rw [hback, Device.frameSize, Resolution.inForce]
    cases Resolution.named? d.resolution <;> simp

/-- A text that names no frame size is used as VGA, and no choice shows it. -/
theorem page_without_marked_choice :
    ¬∀ (d : Device) (token : Token) (saved : Bool),
      ∃ ts choices, tags? (page d token saved) = some ts ∧ choices? ts = some choices ∧
        marked choices = [d.frameSize.name] := by
  intro h
  obtain ⟨ts, choices, htags, hchoices, hmarked⟩ := h { resolution := "8k" } ⟨"c0ffee"⟩ false
  rw [(isMarkup_page _ _ _).tags?_eq, Option.some.injEq] at htags
  rw [← htags, choices?_page, Option.some.injEq] at hchoices
  have hnone : Resolution.named? "8k" = none := by decide +kernel
  rw [← hchoices, marked_choicesFor, hnone] at hmarked
  contradiction

end FieldCamera.Setup
