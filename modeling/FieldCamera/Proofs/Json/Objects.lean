import FieldCamera.Json.Structure
import FieldCamera.Proofs.Json.Values
/-!
# Reading a structure from an object

An object is read member by member. A member that is known and new leaves behind what its value
makes of the structure (`objectMembers_item`), any other is passed over (`objectMembers_other`), and
the members of an object do so one after the other (`Makes`), whatever blanks stand between them
(`reads_structured`). The form over several lines is one such object (`encode_prettyAt_object`).
-/

namespace FieldCamera.Json

/-- A member as it stands in an object, with the blanks around its parts. -/
structure Item where
  name : String
  quoted : Bytes
  isQuoted : IsQuoted quoted name
  value : Bytes
  /-- In front of the name. -/
  lead : Bytes
  /-- In front of the colon. -/
  gap : Bytes
  /-- In front of the value. -/
  pad : Bytes
  /-- Behind the value. -/
  trail : Bytes
  blank : ∀ bs ∈ [lead, gap, pad, trail], Blank bs

namespace Item

def bytes (i : Item) : Bytes :=
  i.lead ++ (i.quoted ++ (i.gap ++ ':'.toUInt8 :: (i.pad ++ i.value ++ i.trail)))

theorem length_bytes_pos (i : Item) : 0 < i.bytes.length := by
  simp only [bytes, List.length_append, List.length_cons]
  omega

/-- What stands in front of a member: a comma, but for the first. -/
def separator (first : Bool) : Bytes :=
  if first then [] else [','.toUInt8]

/-- Members up to the end of their object. -/
def joined (first : Bool) : List Item → Bytes
  | [] => []
  | i :: is => separator first ++ (i.bytes ++ joined false is)

theorem length_le_joined (first : Bool) (is : List Item) :
    is.length ≤ (joined first is).length := by
  induction is generalizing first with
  | nil => exact Nat.le_refl _
  | cons i is ih =>
      have hstep := ih false
      have hpos := i.length_bytes_pos
      simp only [joined, List.length_append, List.length_cons]
      omega

end Item

/-- An object with some blanks in front of its end. -/
def objectBytes (is : List Item) (close : Bytes) : Bytes :=
  '\x7b'.toUInt8 :: (Item.joined true is ++ (close ++ ['\x7d'.toUInt8]))

section Steps

/-- The name of the next member is found behind its opening quote. -/
theorem nextMember_item (first : Bool) (i : Item) (bs : Bytes) :
    ∃ body, nextMember first (Item.separator first ++ (i.lead ++ (i.quoted ++ bs))) =
        .ok (.element, body ++ bs) ∧
      ∀ rest, openText (body ++ rest) = .ok (i.name, rest) := by
  obtain ⟨body, hquoted, hbody⟩ := i.isQuoted
  have hskip : skipBlank (i.lead ++ (i.quoted ++ bs)) = '"'.toUInt8 :: (body ++ bs) := by
    rw [skipBlank_append (i.blank _ (by simp)), hquoted, List.cons_append,
      skipBlank_cons (by decide)]
  refine ⟨body, ?_, hbody⟩
  cases first with
  | true =>
      simp only [Item.separator, if_pos, List.nil_append, nextMember, hskip]
      rfl
  | false =>
      have hcomma : skipBlank (','.toUInt8 :: (i.lead ++ (i.quoted ++ bs))) =
          ','.toUInt8 :: (i.lead ++ (i.quoted ++ bs)) :=
        skipBlank_cons (by decide) _
      simp only [Item.separator, Bool.false_eq_true, if_false, List.singleton_append, nextMember,
        hcomma, hskip]
      rfl

theorem nextMember_close (first : Bool) {close : Bytes} (h : Blank close) (rest : Bytes) :
    nextMember first (close ++ '\x7d'.toUInt8 :: rest) = .ok (.close, rest) := by
  have hskip : skipBlank ('\x7d'.toUInt8 :: rest) = '\x7d'.toUInt8 :: rest :=
    skipBlank_cons (by decide) rest
  simp only [nextMember, skipBlank_append h, hskip, if_pos]

theorem expect_colon {gap : Bytes} (h : Blank gap) (bs : Bytes) :
    expect [':'] (skipBlank (gap ++ ':'.toUInt8 :: bs)) = .ok bs := by
  rw [skipBlank_append h, skipBlank_cons (by decide)]
  rfl

/-- Blanks in front of a comma or of the end make no difference. -/
theorem nextMember_append (first : Bool) {lead : Bytes} (h : Blank lead) (bs : Bytes) :
    nextMember first (lead ++ bs) = nextMember first bs := by
  simp only [nextMember, skipBlank_append h]

end Steps

variable {σ : Type} {members : List (Member σ)}

theorem objectMembers_append {room : Bytes} {seen : List String} {first : Bool} {s : σ}
    {lead : Bytes} (h : Blank lead) (bs : Bytes) :
    objectMembers members room seen first s (lead ++ bs) =
      objectMembers members room seen first s bs := by
  cases room with
  | nil => rfl
  | cons b room => simp only [objectMembers, nextMember_append first h]

/-- A reader of members comes to the value of the next one. What it does then depends on whether it
knows the name. -/
theorem objectMembers_value (i : Item) (seen : List String) (s : σ) (b : UInt8) (room : Bytes)
    (first : Bool) (rest : Bytes) :
    objectMembers members (b :: room) seen first s (Item.separator first ++ (i.bytes ++ rest)) =
      (match members.find? fun m => m.name == i.name with
      | none =>
        (skipValue (i.pad ++ i.value ++ (i.trail ++ rest))).bind
          (objectMembers members room seen false s)
      | some m =>
        if seen.contains i.name then .error .mistyped
        else
          (m.read s (i.pad ++ i.value ++ (i.trail ++ rest))).bind fun r =>
            objectMembers members room (i.name :: seen) false r.1 r.2) := by
  have hblank := i.blank
  simp only [List.forall_mem_cons] at hblank
  obtain ⟨-, hgap, -⟩ := hblank
  obtain ⟨body, hnext, hbody⟩ := nextMember_item first i
    (i.gap ++ ':'.toUInt8 :: (i.pad ++ i.value ++ (i.trail ++ rest)))
  have hsplit : i.bytes ++ rest = i.lead ++ (i.quoted ++
      (i.gap ++ ':'.toUInt8 :: (i.pad ++ i.value ++ (i.trail ++ rest)))) := by
    simp only [Item.bytes, List.append_assoc, List.cons_append]
  rw [hsplit, objectMembers]
  cases hfind : members.find? fun m => m.name == i.name <;>
    simp only [hnext, hbody, hfind, expect_colon hgap, bind, Except.bind]

/-- A known member that has not been read yet is read into the structure. -/
theorem objectMembers_item {i : Item} {m : Member σ} {seen : List String} {s s' : σ}
    (hfind : members.find? (fun m => m.name == i.name) = some m) (hnew : i.name ∉ seen)
    (hread : Reads (m.read s) i.value s') (b : UInt8) (room : Bytes) (first : Bool) {rest : Bytes}
    (hrest : Closes rest) :
    objectMembers members (b :: room) seen first s (Item.separator first ++ (i.bytes ++ rest)) =
      objectMembers members room (i.name :: seen) false s' rest := by
  have hblank := i.blank
  simp only [List.forall_mem_cons] at hblank
  obtain ⟨-, -, hpad, htrail, -⟩ := hblank
  have hvalue : m.read s (i.pad ++ i.value ++ (i.trail ++ rest)) = .ok (s', i.trail ++ rest) :=
    hread i.pad (i.trail ++ rest) hpad (hrest.append htrail)
  have hunseen : seen.contains i.name = false := by simpa using hnew
  rw [objectMembers_value]
  simp only [hfind, hunseen, Bool.false_eq_true, if_false, hvalue, Except.bind]
  exact objectMembers_append htrail rest

/-- Whether a value is passed over, whatever stands around it. -/
def Skips (text : Bytes) : Prop :=
  ∀ lead rest, Blank lead → Closes rest → skipValue (lead ++ text ++ rest) = .ok rest

/-- A member that is not known is passed over, however often its name comes. -/
theorem objectMembers_other {i : Item} (hfind : members.find? (fun m => m.name == i.name) = none)
    (hskip : Skips i.value) (seen : List String) (s : σ) (b : UInt8) (room : Bytes) (first : Bool)
    {rest : Bytes} (hrest : Closes rest) :
    objectMembers members (b :: room) seen first s (Item.separator first ++ (i.bytes ++ rest)) =
      objectMembers members room seen false s rest := by
  have hblank := i.blank
  simp only [List.forall_mem_cons] at hblank
  obtain ⟨-, -, hpad, htrail, -⟩ := hblank
  have hvalue : skipValue (i.pad ++ i.value ++ (i.trail ++ rest)) = .ok (i.trail ++ rest) :=
    hskip i.pad (i.trail ++ rest) hpad (hrest.append htrail)
  rw [objectMembers_value]
  simp only [hfind, hvalue, Except.bind]
  exact objectMembers_append htrail rest

/-- What the members of an object make of a structure when they are read one after the other. -/
inductive Makes (members : List (Member σ)) : List String → σ → List Item → σ → Prop
  | done {seen : List String} {s : σ} : Makes members seen s [] s
  | item {seen : List String} {s s' t : σ} {i : Item} {is : List Item} {m : Member σ}
      (hfind : members.find? (fun m => m.name == i.name) = some m) (hnew : i.name ∉ seen)
      (hread : Reads (m.read s) i.value s') (hrest : Makes members (i.name :: seen) s' is t) :
      Makes members seen s (i :: is) t
  | other {seen : List String} {s t : σ} {i : Item} {is : List Item}
      (hfind : members.find? (fun m => m.name == i.name) = none) (hskip : Skips i.value)
      (hrest : Makes members seen s is t) : Makes members seen s (i :: is) t

theorem closes_joined (is : List Item) {close : Bytes} (h : Blank close) (rest : Bytes) :
    Closes (Item.joined false is ++ (close ++ '\x7d'.toUInt8 :: rest)) := by
  cases is with
  | nil =>
      have hend : Closes ('\x7d'.toUInt8 :: rest) := by simp [Closes]
      rw [Item.joined, List.nil_append]
      exact hend.append h
  | cons i is => simp [Item.joined, Item.separator, Closes]

/-- All members of an object are read up to its end. -/
theorem Makes.objectMembers_eq {seen : List String} {s t : σ} {is : List Item}
    (h : Makes members seen s is t) {room : Bytes} (hroom : is.length < room.length) (first : Bool)
    {close : Bytes} (hclose : Blank close) (rest : Bytes) :
    objectMembers members room seen first s
      (Item.joined first is ++ (close ++ '\x7d'.toUInt8 :: rest)) = .ok (t, rest) := by
  induction h generalizing room first with
  | done =>
      cases room with
      | nil => exact absurd hroom (by simp)
      | cons b room =>
          simp only [Item.joined, List.nil_append, objectMembers, nextMember_close first hclose,
            bind, Except.bind]
  | @item seen s s' t i is m hfind hnew hread _ ih =>
      cases room with
      | nil => exact absurd hroom (by simp)
      | cons b room =>
          rw [Item.joined, List.append_assoc, List.append_assoc,
            objectMembers_item hfind hnew hread b room first (closes_joined is hclose rest)]
          exact ih (Nat.lt_of_succ_lt_succ hroom) false
  | @other seen s t i is hfind hskip _ ih =>
      cases room with
      | nil => exact absurd hroom (by simp)
      | cons b room =>
          rw [Item.joined, List.append_assoc, List.append_assoc,
            objectMembers_other hfind hskip seen s b room first (closes_joined is hclose rest)]
          exact ih (Nat.lt_of_succ_lt_succ hroom) false

/-- A structure is read from an object. -/
theorem reads_structured {s t : σ} {is : List Item} (h : Makes members [] s is t) {close : Bytes}
    (hclose : Blank close) : Reads (structured members s) (objectBytes is close) t := by
  intro lead rest hlead _
  have hskip : skipBlank (lead ++ objectBytes is close ++ rest) =
      '\x7b'.toUInt8 :: (Item.joined true is ++ (close ++ '\x7d'.toUInt8 :: rest)) := by
    rw [List.append_assoc, skipBlank_append hlead, objectBytes, List.cons_append,
      skipBlank_cons (by decide)]
    simp only [List.append_assoc, List.singleton_append]
  have hroom : is.length <
      ('\x7b'.toUInt8 :: (Item.joined true is ++ (close ++ '\x7d'.toUInt8 :: rest))).length := by
    have hitems := Item.length_le_joined true is
    simp only [List.length_cons, List.length_append]
    omega
  simp only [structured, hskip, if_pos]
  exact h.objectMembers_eq hroom true hclose rest

/-- A member that takes a value over is read where the value is. -/
theorem reads_member {α : Type} {value : Reader α} {text : Bytes} {x : α} (h : Reads value text x)
    (name : String) (put : σ → α → σ) (s : σ) :
    Reads ((member name value put).read s) text (put s x) := by
  intro lead rest hlead hrest
  simp only [member, h lead rest hlead hrest, Except.map]

/-- A value that is all there is, blanks apart. -/
theorem whole_append {α : Type} {value : Reader α} {lead text trail : Bytes} {x : α}
    (h : Reads value text x) (hlead : Blank lead) (htrail : Blank trail) :
    whole value (lead ++ text ++ trail) = .ok x := by
  have hcloses : Closes (trail ++ []) := closes_nil.append htrail
  have hend : skipBlank (trail ++ []) = [] := skipBlank_append htrail []
  rw [List.append_nil] at hcloses hend
  simp only [whole, h lead trail hlead hcloses, bind, Except.bind, hend, if_true]

theorem whole_of_reads {α : Type} {value : Reader α} {text : Bytes} {x : α}
    (h : Reads value text x) : whole value text = .ok x := by
  simpa using whole_append h blank_nil blank_nil

section Pretty

theorem blank_indent (level : Nat) : Blank (Utf8.encode (indent level)) := by
  have hspace : Utf8.encodeChar ' ' = [' '.toUInt8] := by decide
  intro b hb
  rw [Utf8.encode, indent, String.toList_ofList, List.mem_flatMap] at hb
  obtain ⟨c, hc, hmem⟩ := hb
  rw [List.eq_of_mem_replicate hc, hspace, List.mem_singleton] at hmem
  rw [hmem]
  decide

/-- A member of the form over several lines: a new line in front of it, and one blank in front of
its value. -/
def prettyItem (level : Nat) (name : String) (value : Json) : Item where
  name := name
  quoted := Utf8.encode (quote name)
  isQuoted := isQuoted_quote name
  value := Utf8.encode (prettyAt level value)
  lead := '\n'.toUInt8 :: Utf8.encode (indent level)
  gap := []
  pad := [' '.toUInt8]
  trail := []
  blank := by
    have hindent := blank_indent level
    have hline : isBlankByte '\n'.toUInt8 = true := by decide
    have hspace : isBlankByte ' '.toUInt8 = true := by decide
    simp_all [Blank]

def prettyItems (level : Nat) (members : List (String × Json)) : List Item :=
  members.map fun m => prettyItem level m.1 m.2

theorem encode_prettyItem (level : Nat) (name : String) (value : Json) :
    Utf8.encode ("\n" ++ (indent level ++ quote name ++ ": " ++ prettyAt level value)) =
      (prettyItem level name value).bytes := by
  have hline : Utf8.encode "\n" = ['\n'.toUInt8] := by decide +kernel
  have hcolon : Utf8.encode ": " = [':'.toUInt8, ' '.toUInt8] := by decide +kernel
  simp only [Utf8.encode_append, hline, hcolon, Item.bytes, prettyItem, List.append_assoc,
    List.cons_append, List.nil_append, List.append_nil]

theorem encode_prettyMembers (level : Nat) (name : String) (value : Json)
    (members : List (String × Json)) :
    Utf8.encode ("\n" ++ ",\n".intercalate (prettyMembers level ((name, value) :: members))) =
      (prettyItem level name value).bytes ++ Item.joined false (prettyItems level members) := by
  induction members generalizing name value with
  | nil =>
      rw [prettyMembers, prettyMembers, String.intercalate_singleton, encode_prettyItem]
      exact (List.append_nil _).symm
  | cons next members ih =>
      have hcomma : Utf8.encode ",\n" = ','.toUInt8 :: Utf8.encode "\n" := by decide +kernel
      have hrest := ih next.1 next.2
      rw [prettyMembers, prettyMembers, String.intercalate_cons_cons, ← prettyMembers,
        String.append_assoc, ← String.append_assoc, Utf8.encode_append, encode_prettyItem,
        Utf8.encode_append, hcomma, List.cons_append, ← Utf8.encode_append, hrest]
      rfl

/-- An object in the form over several lines. -/
theorem encode_prettyAt_object (level : Nat) (name : String) (value : Json)
    (members : List (String × Json)) :
    Utf8.encode (prettyAt level (.object ((name, value) :: members))) =
      objectBytes (prettyItems (level + 1) ((name, value) :: members))
        ('\n'.toUInt8 :: Utf8.encode (indent level)) := by
  have hopen : Utf8.encode "\x7b\n" = '\x7b'.toUInt8 :: Utf8.encode "\n" := by decide +kernel
  have hline : Utf8.encode "\n" = ['\n'.toUInt8] := by decide +kernel
  have hclose : Utf8.encode "\x7d" = ['\x7d'.toUInt8] := by decide +kernel
  have hmembers := encode_prettyMembers (level + 1) name value members
  rw [Utf8.encode_append] at hmembers
  rw [prettyAt]
  simp only [Utf8.encode_append, hopen, hclose, List.cons_append, hmembers]
  simp [objectBytes, prettyItems, Item.joined, Item.separator, hline]

/-- A member of the form over several lines, in front of others. -/
theorem Makes.pretty {seen : List String} {s s' t : σ} {level : Nat} {name : String} {value : Json}
    {rest : List (String × Json)} {m : Member σ}
    (hfind : members.find? (fun m => m.name == name) = some m) (hnew : name ∉ seen)
    (hread : Reads (m.read s) (Utf8.encode (prettyAt level value)) s')
    (hrest : Makes members (name :: seen) s' (prettyItems level rest) t) :
    Makes members seen s (prettyItems level ((name, value) :: rest)) t :=
  .item (i := prettyItem level name value) hfind hnew hread hrest

/-- A structure is read from the form of an object over several lines. -/
theorem reads_pretty {s t : σ} {level : Nat} {object : List (String × Json)} (h : object ≠ [])
    (hmakes : Makes members [] s (prettyItems (level + 1) object) t) :
    Reads (structured members s) (Utf8.encode (prettyAt level (.object object))) t := by
  have hclose : Blank ('\n'.toUInt8 :: Utf8.encode (indent level)) :=
    List.forall_mem_cons.2 ⟨by decide, blank_indent level⟩
  cases object with
  | nil => exact absurd rfl h
  | cons first rest =>
      rw [encode_prettyAt_object]
      exact reads_structured hmakes hclose

end Pretty

end FieldCamera.Json
