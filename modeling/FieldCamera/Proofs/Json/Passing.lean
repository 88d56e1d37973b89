import FieldCamera.Proofs.Json.Grammar
import FieldCamera.Proofs.Json.Objects
import Mathlib.Data.List.DropRight
/-!
# Passing over values

Every value that JSON can write is passed over, however deep it is nested and whatever it holds
(`skips_of_written`). The containers that are open are a stack: a value leaves it as it was, and
each value or opening is one step of a run, of which there are no more than bytes (`Comes`).
-/

namespace FieldCamera.Json

section Entering

theorem enter_append {lead : Bytes} (h : Blank lead) (bs : Bytes) :
    enter (lead ++ bs) = enter bs := by
  simp only [enter, skipBlank_append h]

theorem skipOne_append (opened : List Container) {lead : Bytes} (h : Blank lead) (bs : Bytes) :
    skipOne opened (lead ++ bs) = skipOne opened bs := by
  simp only [skipOne, enter_append h]

theorem leave_append {lead : Bytes} (h : Blank lead) (c : Container) (outer : List Container)
    (bs : Bytes) : leave (c :: outer) (lead ++ bs) = leave (c :: outer) bs := by
  simp only [leave, skipBlank_append h]

/-- Whether a value without parts is entered and left in one step. -/
def IsPlain (bs : Bytes) : Prop :=
  ∀ rest, Closes rest → enter (bs ++ rest) = .ok (none, rest)

/-- A byte with which a value may begin. -/
def IsFirst (b : UInt8) : Prop :=
  isBlankByte b = false ∧ ∀ c : Container, b ≠ c.closing

theorem isFirst_of_isDigitByte {b : UInt8} (h : isDigitByte b = true) : IsFirst b := by
  refine ⟨(ne_of_isDigitByte h).1, fun c hc => ?_⟩
  rw [hc] at h
  cases c <;> exact absurd h (by decide)

theorem isFirst_opening (c : Container) : IsFirst c.opening := by
  refine ⟨by cases c <;> decide, fun c' => ?_⟩
  cases c <;> cases c' <;> decide

theorem isPlain_word {word : String} (h : word ∈ ["null", "true", "false"]) :
    IsPlain (Utf8.encode word) ∧ ∃ b bs, Utf8.encode word = b :: bs ∧ IsFirst b := by
  have hnull : Utf8.encode "null" = "null".toList.map Char.toUInt8 := by decide +kernel
  have htrue : Utf8.encode "true" = "true".toList.map Char.toUInt8 := by decide +kernel
  have hfalse : Utf8.encode "false" = "false".toList.map Char.toUInt8 := by decide +kernel
  have hfirst {b : UInt8} (hblank : isBlankByte b = false) (harray : b ≠ ']'.toUInt8)
      (hobject : b ≠ '\x7d'.toUInt8) : IsFirst b :=
    ⟨hblank, fun c => by cases c <;> assumption⟩
  simp only [List.mem_cons, List.not_mem_nil, or_false] at h
  obtain rfl | rfl | rfl := h
  · rw [hnull]
    exact ⟨fun rest _ => rfl, _, _, rfl, hfirst (by decide) (by decide) (by decide)⟩
  · rw [htrue]
    exact ⟨fun rest _ => rfl, _, _, rfl, hfirst (by decide) (by decide) (by decide)⟩
  · rw [hfalse]
    exact ⟨fun rest _ => rfl, _, _, rfl, hfirst (by decide) (by decide) (by decide)⟩

theorem isPlain_text {bs : Bytes} (h : IsText bs) :
    IsPlain bs ∧ ∃ b tail, bs = b :: tail ∧ IsFirst b := by
  obtain ⟨body, rfl, hbody⟩ := skipText_of_isText h
  refine ⟨fun rest _ => ?_, _, _, rfl, by decide, fun c => by cases c <;> decide⟩
  have henter : enter ('"'.toUInt8 :: body ++ rest) =
      (skipText (body ++ rest)).map fun rest => (none, rest) := rfl
  rw [henter, hbody]
  rfl

/-- A number begins with a minus sign or a digit, and both are seen in `enter`. -/
theorem enter_number {whole : Bytes} (h : IsWhole whole) (bs : Bytes) :
    enter (whole ++ bs) = (skipNumber (whole ++ bs)).map fun rest => (none, rest) := by
  have hdigit {d : UInt8} (hd : isDigitByte d = true) (ds : Bytes) :
      enter (d :: ds) = (skipNumber (d :: ds)).map fun rest => (none, rest) := by
    have hne {b : UInt8} (hb : isDigitByte b = false) : d ≠ b := by
      rintro rfl
      rw [hd] at hb
      contradiction
    simp only [enter, skipBlank_cons (ne_of_isDigitByte hd).1, hd,
      if_neg (hne (b := 'n'.toUInt8) (by decide)), if_neg (hne (b := 't'.toUInt8) (by decide)),
      if_neg (hne (b := 'f'.toUInt8) (by decide)), if_neg (hne (b := '-'.toUInt8) (by decide)),
      if_true]
  cases h with
  | zero => exact hdigit (by decide) bs
  | digits hfirst => exact hdigit hfirst _

theorem isPlain_number {bs : Bytes} (h : IsNumber bs) :
    IsPlain bs ∧ ∃ b tail, bs = b :: tail ∧ IsFirst b := by
  cases h with
  | @parts sign whole fraction exponent hsign hwhole hfraction hexponent =>
      have hskip (rest : Bytes) (hrest : Closes rest) :
          (skipNumber (whole ++ (fraction ++ (exponent ++ rest)))).map
            (fun rest => ((none : Option Container), rest)) = .ok (none, rest) := by
        rw [skipNumber_append hwhole hfraction hexponent hrest]
        rfl
      simp only [List.mem_cons, List.not_mem_nil, or_false] at hsign
      obtain rfl | rfl := hsign
      · constructor
        · intro rest hrest
          rw [List.nil_append, List.append_assoc, List.append_assoc, enter_number hwhole,
            hskip rest hrest]
        · cases hwhole with
          | zero => exact ⟨_, _, rfl, isFirst_of_isDigitByte (by decide)⟩
          | digits hfirst => exact ⟨_, _, rfl, isFirst_of_isDigitByte hfirst⟩
      · refine ⟨fun rest hrest => ?_, _, _, rfl, by decide, fun c => by cases c <;> decide⟩
        rw [List.append_assoc, List.append_assoc, List.append_assoc]
        exact hskip rest hrest

/-- The byte with which a value begins. -/
theorem Written.begins {bs : Bytes} (h : Written .value bs) :
    ∃ b tail, bs = b :: tail ∧ IsFirst b := by
  cases h with
  | word hword => exact (isPlain_word hword).2
  | number hnumber => exact (isPlain_number hnumber).2
  | text htext => exact (isPlain_text htext).2
  | empty c => exact ⟨_, _, rfl, isFirst_opening c⟩
  | @filled c => exact ⟨_, _, rfl, isFirst_opening c⟩

end Entering

section Fronts

/-- Passes what stands in front of a value in a container. -/
def passFront : Container → Bytes → Except Fault Bytes
  | .array, bs => .ok bs
  | .object, bs => skipName bs

variable {c : Container} {front : Bytes}

theorem Front.passFront_append (h : Front c front) :
    ∃ pad, Blank pad ∧ ∀ bs, passFront c (front ++ bs) = .ok (pad ++ bs) := by
  cases h with
  | array hlead => exact ⟨front, hlead, fun bs => rfl⟩
  | @object lead name gap pad hblank hname =>
      simp only [List.forall_mem_cons] at hblank
      obtain ⟨hlead, hgap, hpad, -⟩ := hblank
      obtain ⟨body, rfl, hbody⟩ := skipText_of_isText hname
      refine ⟨pad, hpad, fun bs => ?_⟩
      have hquote (bs : Bytes) : expect ['"'] ('"'.toUInt8 :: bs) = .ok bs := rfl
      simp only [passFront, skipName, List.append_assoc, List.cons_append, skipBlank_append hlead,
        skipBlank_cons (b := '"'.toUInt8) (by decide), hquote, hbody, expect_colon hgap, bind,
        Except.bind]

/-- A value of a container is not taken for its end. -/
theorem Front.skipBlank_append (h : Front c front) {value : Bytes} (hvalue : Written .value value)
    (bs : Bytes) :
    ∃ b after, skipBlank (front ++ (value ++ bs)) = b :: after ∧ b ≠ c.closing := by
  cases h with
  | array hlead =>
      obtain ⟨b, tail, rfl, hblank, hend⟩ := hvalue.begins
      exact ⟨b, tail ++ bs, by rw [Json.skipBlank_append hlead, List.cons_append,
        skipBlank_cons hblank], hend _⟩
  | @object lead name gap pad hblank hname =>
      simp only [List.forall_mem_cons] at hblank
      obtain ⟨body, rfl, -⟩ := skipText_of_isText hname
      have hquote (bs : Bytes) : skipBlank ('"'.toUInt8 :: bs) = '"'.toUInt8 :: bs :=
        skipBlank_cons (by decide) bs
      simp only [List.append_assoc, List.cons_append, Json.skipBlank_append hblank.1, hquote]
      exact ⟨_, _, rfl, by decide⟩

theorem Written.skipBlank_append {items : Bytes} (h : Written (.items c) items) (bs : Bytes) :
    ∃ b after, skipBlank (items ++ bs) = b :: after ∧ b ≠ c.closing := by
  cases h with
  | last hfront hvalue =>
      rw [List.append_assoc, List.append_assoc]
      exact hfront.skipBlank_append hvalue _
  | cons hfront hvalue =>
      rw [List.append_assoc, List.append_assoc]
      exact hfront.skipBlank_append hvalue _

end Fronts

section Runs

/-- What comes of a value or an opening: the containers that are still open, if any are, and the
bytes behind it. -/
abbrev Outcome := Except Fault (Option (List Container) × Bytes)

/-- What a run comes to after so many values and openings. -/
inductive Comes : Nat → List Container → Bytes → Outcome → Prop
  | last {opened : List Container} {bs : Bytes} {outcome : Outcome}
      (hstep : skipOne opened bs = outcome) : Comes 1 opened bs outcome
  | step {steps : Nat} {opened next : List Container} {bs rest : Bytes} {outcome : Outcome}
      (hstep : skipOne opened bs = .ok (some next, rest)) (hrest : Comes steps next rest outcome) :
      Comes (steps + 1) opened bs outcome

variable {steps : Nat} {opened : List Container} {bs rest : Bytes} {outcome : Outcome}

theorem Comes.trans {more : Nat} {next : List Container}
    (h : Comes steps opened bs (.ok (some next, rest))) (hnext : Comes more next rest outcome) :
    Comes (steps + more) opened bs outcome := by
  generalize hmiddle : (Except.ok (some next, rest) : Outcome) = middle at h
  induction h with
  | last hstep =>
      subst hmiddle
      rw [Nat.add_comm]
      exact .step hstep hnext
  | step hstep _ ih =>
      rw [Nat.add_right_comm]
      exact .step hstep (ih hmiddle)

/-- A run depends on its first bytes through its first step only. -/
theorem Comes.of_skipOne_eq {other : Bytes} (h : Comes steps opened bs outcome)
    (heq : skipOne opened other = skipOne opened bs) : Comes steps opened other outcome := by
  cases h with
  | last hstep => exact .last (heq.trans hstep)
  | step hstep hrest => exact .step (heq.trans hstep) hrest

theorem Comes.skipSome_eq (h : Comes steps opened bs (.ok (none, rest))) {room : Bytes}
    (hroom : steps ≤ room.length) : skipSome room opened bs = .ok rest := by
  generalize hend : (Except.ok (none, rest) : Outcome) = outcome at h
  induction h generalizing room with
  | last hstep =>
      subst hend
      cases room with
      | nil => exact absurd hroom (by simp)
      | cons b room => simp only [skipSome, hstep]
  | step hstep _ ih =>
      cases room with
      | nil => exact absurd hroom (by simp)
      | cons b room =>
          simp only [skipSome, hstep]
          exact ih (Nat.le_of_succ_le_succ hroom) hend

end Runs

section Pieces

variable {opened : List Container} {c : Container} {bs lead rest : Bytes}

theorem leave_closing (c : Container) (outer : List Container) (rest : Bytes) :
    leave (c :: outer) (c.closing :: rest) = leave outer rest := by
  cases c <;> rfl

theorem leave_comma (c : Container) (outer : List Container) (bs : Bytes) :
    leave (c :: outer) (','.toUInt8 :: bs) =
      (passFront c bs).map fun bs => (some (c :: outer), bs) := by
  cases c <;> rfl

theorem skipOne_plain (h : IsPlain bs) (hlead : Blank lead) (hrest : Closes rest) :
    skipOne opened (lead ++ (bs ++ rest)) = leave opened rest := by
  rw [skipOne_append opened hlead, skipOne, h rest hrest]
  rfl

theorem enter_opening (c : Container) (bs : Bytes) :
    enter (c.opening :: bs) = .ok (some c, bs) := by
  cases c <;> rfl

theorem skipOne_empty (c : Container) {gap : Bytes} (hgap : Blank gap) (hlead : Blank lead) :
    skipOne opened (lead ++ (c.opening :: (gap ++ c.closing :: rest))) = leave opened rest := by
  have hclose : skipBlank (c.closing :: rest) = c.closing :: rest := by cases c <;> rfl
  rw [skipOne_append opened hlead, skipOne]
  simp only [enter_opening, bind, Except.bind, skipBlank_append hgap, hclose, if_true]

theorem skipOne_filled (opened : List Container) (hlead : Blank lead)
    (h : ∃ b after, skipBlank bs = b :: after ∧ b ≠ c.closing) :
    skipOne opened (lead ++ c.opening :: bs) =
      (passFront c (skipBlank bs)).map fun rest => (some (c :: opened), rest) := by
  obtain ⟨b, after, hskip, hend⟩ := h
  rw [skipOne_append opened hlead, skipOne]
  simp only [enter_opening, bind, Except.bind, hskip, if_neg hend]
  cases c <;> rfl

/-- How a run passes over a piece, with a step for no more than each byte: it leaves a value, and
after the last item it leaves their container. -/
def Piece.Passes : Piece → Bytes → Prop
  | .value, bs => ∃ steps ≤ bs.length, ∀ opened lead rest, Blank lead → Closes rest →
      Comes steps opened (lead ++ (bs ++ rest)) (leave opened rest)
  | .items c, bs => ∃ steps ≤ bs.length, ∀ opened rest,
      ∃ next, passFront c (bs ++ c.closing :: rest) = .ok next ∧
        Comes steps (c :: opened) next (leave opened rest)

theorem passes_plain (h : IsPlain bs) (hpos : 0 < bs.length) : Piece.value.Passes bs :=
  ⟨1, hpos, fun _ _ _ hlead hrest => .last (skipOne_plain h hlead hrest)⟩

/-- A container is entered, its items are passed over, and the last of them leaves it. -/
theorem passes_filled {items : Bytes} (h : (Piece.items c).Passes items)
    (hbegins : ∀ bs, ∃ b after, skipBlank (items ++ bs) = b :: after ∧ b ≠ c.closing) :
    Piece.value.Passes (c.opening :: (items ++ [c.closing])) := by
  obtain ⟨steps, hsteps, hrun⟩ := h
  refine ⟨steps + 1, ?_, fun opened lead rest hlead _ => ?_⟩
  · simp only [List.length_cons, List.length_append]
    omega
  have hstep := skipOne_filled opened hlead (hbegins (c.closing :: rest))
  obtain ⟨next, hfront, hitems⟩ := hrun opened rest
  have hblank : skipBlank (skipBlank (items ++ c.closing :: rest)) =
      skipBlank (items ++ c.closing :: rest) :=
    List.dropWhile_idempotent _ _
  -- The look for the end of the container has passed the blanks in front of its first item.
  have hsame : ∃ near, passFront c (skipBlank (items ++ c.closing :: rest)) = .ok near ∧
      skipOne (c :: opened) near = skipOne (c :: opened) next := by
    cases c with
    | array =>
        obtain rfl := Except.ok.inj hfront
        exact ⟨_, rfl, by simp only [skipOne, enter, hblank]⟩
    | object => exact ⟨next, by simpa only [passFront, skipName, hblank] using hfront, rfl⟩
  obtain ⟨near, hnear, hsame⟩ := hsame
  rw [hnear] at hstep
  simp only [List.cons_append, List.append_assoc]
  exact .step hstep (hitems.of_skipOne_eq hsame)

theorem passes_last {front value trail : Bytes} (hfront : Front c front)
    (hvalue : Piece.value.Passes value) (htrail : Blank trail) :
    (Piece.items c).Passes (front ++ (value ++ trail)) := by
  obtain ⟨steps, hsteps, hrun⟩ := hvalue
  refine ⟨steps, ?_, fun opened rest => ?_⟩
  · simp only [List.length_append]
    omega
  obtain ⟨pad, hpad, hpass⟩ := hfront.passFront_append
  have hcloses : Closes (c.closing :: rest) := by cases c <;> simp [Closes, Container.closing]
  have hitem := hrun (c :: opened) pad (trail ++ c.closing :: rest) hpad (hcloses.append htrail)
  rw [leave_append htrail, leave_closing] at hitem
  simp only [List.append_assoc]
  exact ⟨_, hpass _, hitem⟩

theorem passes_cons {front value trail items : Bytes} (hfront : Front c front)
    (hvalue : Piece.value.Passes value) (htrail : Blank trail)
    (hitems : (Piece.items c).Passes items) :
    (Piece.items c).Passes (front ++ (value ++ (trail ++ ','.toUInt8 :: items))) := by
  obtain ⟨steps, hsteps, hrun⟩ := hvalue
  obtain ⟨more, hmore, hothers⟩ := hitems
  refine ⟨steps + more, ?_, fun opened rest => ?_⟩
  · simp only [List.length_append, List.length_cons]
    omega
  obtain ⟨pad, hpad, hpass⟩ := hfront.passFront_append
  obtain ⟨next, hnext, hrest⟩ := hothers opened rest
  have hcloses : Closes (','.toUInt8 :: (items ++ c.closing :: rest)) := by simp [Closes]
  have hitem := hrun (c :: opened) pad (trail ++ ','.toUInt8 :: (items ++ c.closing :: rest)) hpad
    (hcloses.append htrail)
  rw [leave_append htrail, leave_comma, hnext] at hitem
  simp only [List.append_assoc, List.cons_append]
  exact ⟨_, hpass _, hitem.trans hrest⟩

/-- The induction is on how the piece is written. The containers around it are arbitrary, since its
parts are passed over inside one more. -/
theorem Written.passes {piece : Piece} (h : Written piece bs) : piece.Passes bs := by
  have hplain {bs : Bytes} (hplain : IsPlain bs) (hwritten : Written .value bs) :
      Piece.value.Passes bs := by
    obtain ⟨b, tail, rfl, -⟩ := hwritten.begins
    exact passes_plain hplain (Nat.succ_pos _)
  induction h with
  | word hword => exact hplain (isPlain_word hword).1 (.word hword)
  | number hnumber => exact hplain (isPlain_number hnumber).1 (.number hnumber)
  | text htext => exact hplain (isPlain_text htext).1 (.text htext)
  | @empty gap c hgap =>
      refine ⟨1, Nat.succ_pos _, fun opened lead rest hlead _ => .last ?_⟩
      simp only [List.cons_append, List.append_assoc]
      exact skipOne_empty c hgap hlead
  | filled hitems ih => exact passes_filled ih hitems.skipBlank_append
  | last hfront _ htrail ih => exact passes_last hfront ih htrail
  | cons hfront _ htrail _ ihvalue ihitems => exact passes_cons hfront ihvalue htrail ihitems

/-- Every value is passed over, however deep it is nested. -/
theorem skips_of_written (h : Written .value bs) : Skips bs := by
  obtain ⟨steps, hsteps, hrun⟩ := h.passes
  intro lead rest hlead hrest
  rw [List.append_assoc]
  refine (hrun [] lead rest hlead hrest).skipSome_eq ?_
  simp only [List.length_cons, List.length_append]
  omega

end Pieces

end FieldCamera.Json
