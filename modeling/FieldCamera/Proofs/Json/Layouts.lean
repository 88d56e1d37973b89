import FieldCamera.Proofs.Json.Passing
/-!
# Objects in any layout

An object may hold any of the known members, in any order and among others. Where no known name
comes twice, it is read into what its members make of a structure together (`reads_writesObject`).
-/

namespace FieldCamera.Json

section Layouts

variable {α : Type}

/-- A name and its value, with any blanks around them. A name is a text, so that no escape in it
stands for half a pair. -/
inductive WritesMember (writes : α → Bytes → Prop) : String × α → Bytes → Prop
  | parts {name : String} {x : α} {lead quoted gap pad value trail : Bytes}
      (blank : ∀ bs ∈ [lead, gap, pad, trail], Blank bs) (hname : WritesText name quoted)
      (hvalue : writes x value) :
      WritesMember writes (name, x)
        (lead ++ (quoted ++ (gap ++ ':'.toUInt8 :: (pad ++ value ++ trail))))

/-- An object with these members, in this order. -/
def WritesObject (writes : α → Bytes → Prop) (es : List (String × α)) (bs : Bytes) : Prop :=
  ∃ parts close, List.Forall₂ (WritesMember writes) es parts ∧ Blank close ∧
    bs = '\x7b'.toUInt8 :: ([','.toUInt8].intercalate parts ++ (close ++ ['\x7d'.toUInt8]))

/-- A character that may stand for itself in a text. -/
def isOrdinary (c : Char) : Bool :=
  c ≠ '"' && c ≠ '\\' && 0x20 ≤ c.toNat

theorem writesText_plain {s : String} (h : s.toList.all isOrdinary = true) :
    WritesText s ('"'.toUInt8 :: (Utf8.encode s ++ ['"'.toUInt8])) := by
  refine ⟨s.toList.map Utf8.encodeChar, ?_, by rw [Utf8.encode, List.flatMap_def]⟩
  rw [List.forall₂_map_right_iff, List.forall₂_same]
  intro c hc
  have hordinary : (c ≠ '"' ∧ c ≠ '\\') ∧ 0x20 ≤ c.toNat := by
    simpa [isOrdinary] using List.all_eq_true.1 h c hc
  exact .plain hordinary.1.1 hordinary.1.2 hordinary.2

/-- A member may be written without blanks. -/
theorem writesMember_tight {writes : α → Bytes → Prop} {name : String} {x : α} {value : Bytes}
    (h : name.toList.all isOrdinary = true) (hvalue : writes x value) :
    WritesMember writes (name, x)
      ('"'.toUInt8 :: (Utf8.encode name ++ '"'.toUInt8 :: ':'.toUInt8 :: value)) := by
  have hblank : ∀ bs ∈ [[], [], [], []], Blank bs := by simp [Blank]
  simpa using WritesMember.parts hblank (writesText_plain h) hvalue

/-- No name of a list comes twice. -/
def Once (names : List String) (es : List (String × α)) : Prop :=
  es.Pairwise fun e f => e.1 ∈ names → f.1 ≠ e.1

/-- What a member is read as, if it is there. -/
def valueIn {β : Type} (pick : α → Option β) (es : List (String × α)) (name : String)
    (absent : β) : β :=
  ((es.lookup name).bind pick).getD absent

variable {writes : α → Bytes → Prop} {e : String × α} {es : List (String × α)} {bs : Bytes}

theorem WritesMember.item (h : WritesMember writes e bs) :
    ∃ i : Item, i.name = e.1 ∧ writes e.2 i.value ∧ i.bytes = bs := by
  cases h with
  | @parts name x lead quoted gap pad value trail hblank hname hvalue =>
      exact ⟨⟨name, quoted, isQuoted_of_writes hname, value, lead, gap, pad, trail, hblank⟩, rfl,
        hvalue, rfl⟩

theorem Item.joined_eq (i : Item) (is : List Item) :
    Item.joined true (i :: is) = [','.toUInt8].intercalate (i.bytes :: is.map Item.bytes) := by
  induction is generalizing i with
  | nil => simp [Item.joined, Item.separator]
  | cons j is ih =>
      have hrest := ih j
      simp only [Item.joined, Item.separator, Bool.false_eq_true, if_true, if_false,
        List.nil_append] at hrest ⊢
      rw [List.map_cons, List.intercalate_cons_cons, ← hrest]
      simp only [List.append_assoc]

theorem WritesObject.items (h : WritesObject writes es bs) :
    ∃ is close, List.Forall₂ (fun e (i : Item) => i.name = e.1 ∧ writes e.2 i.value) es is ∧
      Blank close ∧ bs = objectBytes is close := by
  obtain ⟨parts, close, hparts, hclose, rfl⟩ := h
  have hitems : ∃ is : List Item,
      List.Forall₂ (fun e (i : Item) => i.name = e.1 ∧ writes e.2 i.value) es is ∧
        is.map Item.bytes = parts := by
    induction hparts with
    | nil => exact ⟨[], .nil, rfl⟩
    | cons hpart _ ih =>
        obtain ⟨i, hname, hvalue, hbytes⟩ := hpart.item
        obtain ⟨is, his, hmap⟩ := ih
        exact ⟨i :: is, .cons ⟨hname, hvalue⟩ his, by rw [List.map_cons, hbytes, hmap]⟩
  obtain ⟨is, his, rfl⟩ := hitems
  refine ⟨is, close, his, hclose, ?_⟩
  cases is with
  | nil => rfl
  | cons i is => rw [objectBytes, Item.joined_eq, List.map_cons]

theorem valueIn_absent {β : Type} (pick : α → Option β) {name : String}
    (h : ∀ e ∈ es, e.1 ≠ name) (absent : β) : valueIn pick es name absent = absent := by
  have hlookup : es.lookup name = none := by
    rw [List.lookup_eq_none_iff]
    intro e he
    simpa using (h e he).symm
  rw [valueIn, hlookup, Option.bind_none, Option.getD_none]

theorem valueIn_cons {β : Type} (pick : α → Option β) {name : String}
    (hnew : e.1 = name → ∀ f ∈ es, f.1 ≠ name) (absent : β) :
    valueIn pick (e :: es) name absent = valueIn pick es name (valueIn pick [e] name absent) := by
  obtain ⟨known, x⟩ := e
  by_cases hname : known = name
  · subst hname
    rw [valueIn_absent pick (hnew rfl)]
    simp only [valueIn, List.lookup_cons_self]
  · have hother : (name == known) = false := by simpa using Ne.symm hname
    simp only [valueIn, List.lookup_cons, hother, List.lookup_nil, Option.bind_none,
      Option.getD_none]

/-- A member that comes first has its say in front of the others. -/
theorem valueIn_known {β : Type} (pick : α → Option β) {names : List String}
    (hnew : e.1 ∈ names → ∀ f ∈ es, f.1 ≠ e.1) (name : String) (hname : name ∈ names)
    (absent : β) :
    valueIn pick (e :: es) name absent = valueIn pick es name (valueIn pick [e] name absent) :=
  valueIn_cons pick (fun heq f hf => heq ▸ hnew (heq ▸ hname) f hf) absent

/-- A value of another type has no say. -/
theorem valueIn_silent {β : Type} (pick : α → Option β) {x : α} (h : pick x = none)
    (name known : String) (absent : β) : valueIn pick [(name, x)] known absent = absent := by
  rw [valueIn, List.lookup_cons]
  cases known == name <;> simp [h]

end Layouts

section Overlays

variable {σ α : Type}

/-- What members make of a structure, when each of them has a say in its own part only. -/
structure Overlays (names : List String) (overlay : σ → List (String × α) → σ) : Prop where
  nil : ∀ s, overlay s [] = s
  cons : ∀ s e es, (e.1 ∈ names → ∀ f ∈ es, f.1 ≠ e.1) →
    overlay s (e :: es) = overlay (overlay s [e]) es

/-- A member is known and read into the structure, or it is passed over and has no say. -/
def Takes (members : List (Member σ)) (writes : α → Bytes → Prop)
    (overlay : σ → List (String × α) → σ) (e : String × α) : Prop :=
  ∀ bs, writes e.2 bs →
    (∃ m, members.find? (fun m => m.name == e.1) = some m ∧
      ∀ s, Reads (m.read s) bs (overlay s [e])) ∨
    (members.find? (fun m => m.name == e.1) = none ∧ Skips bs ∧ ∀ s, overlay s [e] = s)

variable {members : List (Member σ)} {writes : α → Bytes → Prop}
  {overlay : σ → List (String × α) → σ} {es : List (String × α)}

theorem makes_of_takes (hoverlay : Overlays (members.map Member.name) overlay)
    (htakes : ∀ e ∈ es, Takes members writes overlay e)
    (honce : Once (members.map Member.name) es) {is : List Item}
    (his : List.Forall₂ (fun e (i : Item) => i.name = e.1 ∧ writes e.2 i.value) es is)
    {seen : List String} (hseen : ∀ e ∈ es, e.1 ∈ members.map Member.name → e.1 ∉ seen) (s : σ) :
    Makes members seen s is (overlay s es) := by
  induction his generalizing seen s with
  | nil =>
      rw [hoverlay.nil]
      exact .done
  | @cons e i es is hi _ ih =>
      obtain ⟨hname, hvalue⟩ := hi
      rw [List.forall_mem_cons] at htakes hseen
      obtain ⟨hnew, honce⟩ := List.pairwise_cons.1 honce
      have hfresh (hknown : e.1 ∈ members.map Member.name) (f : String × α) (hf : f ∈ es) :
          f.1 ≠ e.1 :=
        hnew f hf hknown
      rw [hoverlay.cons s e es hfresh]
      obtain ⟨m, hfind, hread⟩ | ⟨hfind, hskip, hsame⟩ := htakes.1 i.value hvalue
      · have hknown : e.1 ∈ members.map Member.name := by
          have hm := List.find?_some hfind
          rw [beq_iff_eq] at hm
          exact hm ▸ List.mem_map_of_mem (List.mem_of_find?_eq_some hfind)
        refine .item (hname ▸ hfind) (hname ▸ hseen.1 hknown) (hread s) ?_
        refine ih htakes.2 honce (fun f hf hf' => ?_) _
        rw [List.mem_cons, not_or, hname]
        exact ⟨hfresh hknown f hf, hseen.2 f hf hf'⟩
      · rw [hsame]
        exact .other (hname ▸ hfind) hskip (ih htakes.2 honce hseen.2 s)

/-- A structure is read from an object in any layout. -/
theorem reads_writesObject (hoverlay : Overlays (members.map Member.name) overlay)
    (htakes : ∀ e ∈ es, Takes members writes overlay e)
    (honce : Once (members.map Member.name) es) {bs : Bytes} (hwrites : WritesObject writes es bs)
    (s : σ) : Reads (structured members s) bs (overlay s es) := by
  obtain ⟨is, close, his, hclose, rfl⟩ := hwrites.items
  exact reads_structured (makes_of_takes hoverlay htakes honce his (by simp) s) hclose

end Overlays

end FieldCamera.Json
