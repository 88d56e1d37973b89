import FieldCamera.Proofs.Request.Feeding
import FieldCamera.Proofs.Text.Blank
/-!
# The grammar of a request

A request is lines and a body. Of a line the bytes other than carriage returns count, and a line
feed ends it. The first line that is not empty asks for something; the header lines follow it, up to
the next empty line. `reading` tells what bytes are read as, without a receiver: it looks at whole
lines, and at the first byte that is one too many. Feeding a new receiver leads just there
(`feed_start_tells`).
-/

namespace FieldCamera.Text

variable {α : Type} [BEq α] {sep : α} {xs : List α}

/-- The first piece is what stands before the first separator, and the others are those of what
stands after it. -/
theorem pieces_eq (sep : α) (xs : List α) :
    pieces sep xs = before sep xs :: ((cut sep xs).map fun r => pieces sep r.2).getD [] := by
  induction xs with
  | nil => rfl
  | cons x xs ih =>
      rw [pieces, before, cut]
      by_cases hx : (x == sep) = true
      · simp [hx]
      · rw [if_neg hx, if_neg hx, ih, before]
        cases cut sep xs <;> rfl

end FieldCamera.Text

namespace FieldCamera.Method

/-- The method that a token spells: in capitals GET or POST, and else another one, which is the
token as it stands. -/
def spelled (token : List Char) : Method :=
  if token.map Char.toUpper = ['G', 'E', 'T'] then .get
  else if token.map Char.toUpper = ['P', 'O', 'S', 'T'] then .post
  else .other (String.ofList token)

theorem ofToken_eq_spelled (token : List Char) : ofToken token = spelled token := by
  have hget : "get".toList.map Char.toUpper = ['G', 'E', 'T'] := by decide
  have hpost : "post".toList.map Char.toUpper = ['P', 'O', 'S', 'T'] := by decide
  simp only [ofToken, spelled, Text.sameLetters_iff_toUpper, hget, hpost]

end FieldCamera.Method

namespace FieldCamera.Request

/-- The bytes of a line that count. -/
def lineOf (bs : List UInt8) : List UInt8 :=
  bs.filter (· != '\r'.toUInt8)

/-- The text of a line. -/
def lineText (line : List UInt8) : List Char :=
  (Utf8.decodeLossy line).toList

/-- What a line asks for: its first two tokens between single spaces, empty where missing. -/
def FirstLine.spelled (line : List Char) : FirstLine :=
  let tokens := Text.pieces ' ' line
  ⟨Method.spelled (tokens.getD 0 []), String.ofList (tokens.getD 1 [])⟩

theorem FirstLine.ofText_eq_spelled (line : List Char) : ofText line = spelled line := by
  rw [ofText, spelled, Method.ofToken_eq_spelled, Text.pieces_eq, Text.after]
  cases hcut : Text.cut ' ' line with
  | none => rfl
  | some r =>
      rw [Option.map_some, Option.getD_some, Text.pieces_eq]
      rfl

/-- The length of the body that a header line declares, if it is a line that declares one. -/
def lengthOf? (line : List UInt8) : Option Nat :=
  let name := "CONTENT-LENGTH:".toList
  let text := lineText line
  if (text.take name.length).map Char.toUpper = name then
    some (Number.leading (text.drop name.length)).toNat
  else none

/-- The last length that header lines declare. -/
def declaredBy (lines : List (List UInt8)) (otherwise : Nat) : Nat :=
  (lines.filterMap lengthOf?).getLast?.getD otherwise

/-- What stands behind header lines. -/
inductive Behind where
  /-- The empty line, and then the rest. -/
  | ended (rest : List UInt8)
  /-- A line that has not ended. -/
  | unended (line : List UInt8)

/-- The header lines up to the first empty line. -/
def headerLines (bs : List UInt8) : List (List UInt8) × Behind :=
  match _h : Text.cut '\n'.toUInt8 bs with
  | none => ([], .unended (lineOf bs))
  | some (line, rest) =>
    if lineOf line = [] then ([], .ended rest)
    else
      let (lines, behind) := headerLines rest
      (lineOf line :: lines, behind)
termination_by bs.length
decreasing_by
  obtain ⟨rfl, -⟩ := Text.cut_eq_some_iff.1 _h
  simp
  omega

section Lines

variable {bs line rest : List UInt8}

theorem headerLines_of_none (h : Text.cut '\n'.toUInt8 bs = none) :
    headerLines bs = ([], .unended (lineOf bs)) := by
  rw [headerLines]
  split <;> simp_all

theorem headerLines_of_empty (h : Text.cut '\n'.toUInt8 bs = some (line, rest))
    (hline : lineOf line = []) : headerLines bs = ([], .ended rest) := by
  rw [headerLines]
  split <;> simp_all

theorem headerLines_of_some (h : Text.cut '\n'.toUInt8 bs = some (line, rest))
    (hline : lineOf line ≠ []) :
    headerLines bs = (lineOf line :: (headerLines rest).1, (headerLines rest).2) := by
  rw [headerLines]
  split <;> simp_all

end Lines

/-- For each byte of some lines, the length of its line up to it, and that of all lines together,
counted from `used`. -/
def extents (used : Nat) (lines : List (List UInt8)) : List (Nat × Nat) :=
  (lines.flatMap fun line => List.range' 1 line.length).zipIdx (used + 1)

/-- The bound that a byte breaks. The bound of all header lines does not hold for the first line. -/
def breach? (limits : Limits) (inHeaders : Bool) (extent : Nat × Nat) : Option Fault :=
  if limits.line < extent.1 then some (.lineTooLong limits.line)
  else if inHeaders ∧ limits.headers < extent.2 then some (.headersTooLarge limits.headers)
  else none

/-- The bound that the first byte to break one breaks. -/
def firstBreach? (limits : Limits) (inHeaders : Bool) (used : Nat) (lines : List (List UInt8)) :
    Option Fault :=
  (extents used lines).findSome? (breach? limits inHeaders)

/-- What the bytes of a stream are read as. -/
inductive Reading where
  /-- A bound is broken, in this phase of the request. -/
  | broken (fault : Fault) (phase : Phase)
  | incomplete (phase : Phase)
  /-- A request, and what stands behind it. -/
  | complete (request : Request) (rest : List UInt8)

/-- The rest after the empty line: a body of the declared length if the method is POST, and else no
body. -/
def bodyReading (limits : Limits) (first : FirstLine) (declared : Nat) (rest : List UInt8) :
    Reading :=
  if first.method = .post ∧ 0 < declared then
    if limits.body < declared then .broken (.bodyTooLarge declared limits.body) .headers
    else if rest.length < declared then .incomplete .body
    else .complete ⟨first.method, first.target, Utf8.decodeLossy (rest.take declared), declared⟩
      (rest.drop declared)
  else .complete ⟨first.method, first.target, "", declared⟩ rest

/-- Header lines and the rest, behind header lines of `used` bytes that declare `declared`. -/
def headersReading (limits : Limits) (first : FirstLine) (used declared : Nat)
    (bs : List UInt8) : Reading :=
  match headerLines bs with
  | (lines, .unended line) =>
    match firstBreach? limits true used (lines ++ [line]) with
    | some fault => .broken fault .headers
    | none => .incomplete .headers
  | (lines, .ended rest) =>
    match firstBreach? limits true used lines with
    | some fault => .broken fault .headers
    | none => bodyReading limits first (declaredBy lines declared) rest

/-- Whether a byte is a part of what ends a line. -/
def isLineEnd (b : UInt8) : Bool :=
  b == '\r'.toUInt8 || b == '\n'.toUInt8

/-- What bytes are read as; empty lines in front are skipped. -/
def reading (limits : Limits) (bs : List UInt8) : Reading :=
  let bs := bs.dropWhile isLineEnd
  match Text.cut '\n'.toUInt8 bs with
  | none =>
    match firstBreach? limits false 0 [lineOf bs] with
    | some fault => .broken fault .line
    | none => .incomplete .line
  | some (line, rest) =>
    match firstBreach? limits false 0 [lineOf line] with
    | some fault => .broken fault .line
    | none => headersReading limits (.spelled (lineText (lineOf line))) 0 0 rest

/-- What a run of bytes has led to is what they are read as. -/
def Reading.Tells (bs : List UInt8) (fed : Receiver.Fed) : Reading → Prop
  | broken fault phase =>
    fed.fault = some fault ∧ fed.receiver.finish = .error (.incomplete phase)
  | incomplete phase =>
    fed.fault = none ∧ fed.consumed = bs.length ∧
      fed.receiver.finish = .error (.incomplete phase)
  | complete request rest =>
    fed.fault = none ∧ fed.receiver.finish = .ok request ∧
      ∃ taken, bs = taken ++ rest ∧ fed.consumed = taken.length

section Bounds

variable {limits : Limits} {inHeaders : Bool}

/-- Lines are tested one after another. -/
theorem firstBreach?_cons (used : Nat) (line : List UInt8) (lines : List (List UInt8)) :
    firstBreach? limits inHeaders used (line :: lines) =
      (firstBreach? limits inHeaders used [line]).or
        (firstBreach? limits inHeaders (used + line.length) lines) := by
  have hlength : used + 1 + line.length = used + line.length + 1 := by omega
  simp only [firstBreach?, extents, List.flatMap_cons, List.flatMap_nil, List.append_nil,
    List.zipIdx_append, List.findSome?_append, List.length_range', hlength]

end Bounds

theorem declaredBy_cons (line : List UInt8) (lines : List (List UInt8)) (otherwise : Nat) :
    declaredBy (line :: lines) otherwise =
      declaredBy lines ((lengthOf? line).getD otherwise) := by
  unfold declaredBy
  rw [List.filterMap_cons]
  cases lengthOf? line with
  | none => rfl
  | some length =>
      rw [List.getLast?_cons]
      rfl

/-- Bytes that are taken as they are leave what the bytes behind them are read as. -/
theorem Reading.Tells.of_rest {limits : Limits} {r r' : Receiver} {head more : List UInt8}
    {reading : Reading} (h : Receiver.feed limits r head = ⟨r', head.length, none⟩)
    (hrest : reading.Tells more (Receiver.feed limits r' more)) :
    reading.Tells (head ++ more) (Receiver.feed limits r (head ++ more)) := by
  rw [Receiver.feed_append_of_fault_none (by rw [h]), h]
  cases reading with
  | broken fault phase => exact hrest
  | incomplete phase =>
      obtain ⟨hfault, hconsumed, hfinish⟩ := hrest
      refine ⟨hfault, ?_, hfinish⟩
      rw [Receiver.Fed.andThen, List.length_append, ← hconsumed]
  | complete request rest =>
      obtain ⟨hfault, hfinish, taken, rfl, hconsumed⟩ := hrest
      refine ⟨hfault, hfinish, head ++ taken, by rw [List.append_assoc], ?_⟩
      rw [Receiver.Fed.andThen, List.length_append, ← hconsumed]

/-- A bound that is broken is told whatever follows. -/
theorem Reading.tells_broken {limits : Limits} {r : Receiver} {head : List UInt8} {fault : Fault}
    {phase : Phase} (hfault : (Receiver.feed limits r head).fault = some fault)
    (hfinish : (Receiver.feed limits r head).receiver.finish = .error (.incomplete phase))
    (more : List UInt8) :
    (broken fault phase).Tells (head ++ more) (Receiver.feed limits r (head ++ more)) := by
  rw [Receiver.feed_append_of_fault hfault]
  exact ⟨hfault, hfinish⟩

namespace Receiver

variable {limits : Limits}

/-- A receiver in a line before the body, `pending` being there of it. Without `head` this is the
first line; else it is a header line behind the first line and the length declared so far. -/
def inLine (head : Option (FirstLine × Nat)) (pending : List UInt8) (used : Nat) : Receiver :=
  match head with
  | none => line pending.toArray
  | some (first, declared) => headers first pending.toArray used declared

/-- The phase of a receiver in a line. -/
def linePhase (head : Option (FirstLine × Nat)) : Phase :=
  if head.isSome then .headers else .line

/-- A byte of a line is kept, or it breaks the bound that its place in the line tells. -/
theorem receive_inLine (limits : Limits) (head : Option (FirstLine × Nat))
    (pending : List UInt8) (used : Nat) {b : UInt8} (hfeed : b ≠ '\n'.toUInt8)
    (hreturn : b ≠ '\r'.toUInt8) :
    match breach? limits head.isSome (pending.length + 1, used + 1) with
    | some fault => ∃ r, receive limits (inLine head pending used) b = (r, some fault) ∧
        r.finish = .error (.incomplete (linePhase head))
    | none =>
      receive limits (inLine head pending used) b =
        (inLine head (pending ++ [b]) (used + 1), none) := by
  have hpush : receive limits (inLine head pending used) b =
      push limits b (inLine head pending used) := by
    cases head <;> simp [inLine, receive, hfeed, hreturn]
  have hline : limits.line ≤ pending.length ↔ limits.line < pending.length + 1 :=
    Nat.lt_succ_iff.symm
  rw [hpush]
  by_cases hlong : limits.line < pending.length + 1
  · cases head <;> simp [breach?, inLine, push, hline, hlong, linePhase, finish, phase]
  · cases head with
    | none => simp [breach?, inLine, push, hline, hlong]
    | some p =>
        by_cases hlarge : limits.headers < used + 1
        · simp [breach?, inLine, push, hline, hlong, hlarge, linePhase, finish, phase]
        · simp [breach?, inLine, push, hline, hlong, hlarge]

/-- The bytes of a line that has not ended are kept, up to the first that breaks a bound. -/
theorem feed_inLine (limits : Limits) (head : Option (FirstLine × Nat))
    (pending : List UInt8) (used : Nat) {bs : List UInt8} (hbs : '\n'.toUInt8 ∉ bs) :
    let breach := ((List.range' (pending.length + 1) (lineOf bs).length).zipIdx
      (used + 1)).findSome? (breach? limits head.isSome)
    (∀ fault, breach = some fault →
      (feed limits (inLine head pending used) bs).fault = some fault ∧
        (feed limits (inLine head pending used) bs).receiver.finish =
          .error (.incomplete (linePhase head))) ∧
    (breach = none →
      feed limits (inLine head pending used) bs =
        ⟨inLine head (pending ++ lineOf bs) (used + (lineOf bs).length), bs.length, none⟩) := by
  induction bs generalizing pending used with
  | nil => simp [lineOf, feed]
  | cons b bs ih =>
      have hopen : (inLine head pending used).isComplete = false := by
        cases head <;> simp [inLine, isComplete, phase]
      rw [List.mem_cons, not_or] at hbs
      have hfeed : b ≠ '\n'.toUInt8 := fun h => hbs.1 h.symm
      by_cases hreturn : b = '\r'.toUInt8
      · subst hreturn
        have hdropped : receive limits (inLine head pending used) '\r'.toUInt8 =
            (inLine head pending used, none) := by
          cases head <;> simp [inLine, receive, hfeed]
        have hline : lineOf ('\r'.toUInt8 :: bs) = lineOf bs := by simp [lineOf]
        obtain ⟨hbroken, hkept⟩ := ih pending used hbs.2
        rw [feed_cons_of_none hopen hdropped, hline]
        refine ⟨hbroken, fun hnone => ?_⟩
        rw [hkept hnone, Fed.andThen, List.length_cons, Nat.add_comm bs.length]
      · have hstep := receive_inLine limits head pending used hfeed hreturn
        have hline : lineOf (b :: bs) = b :: lineOf bs := by simp [lineOf, hreturn]
        rw [hline, List.length_cons, List.range'_succ, List.zipIdx_cons, List.findSome?_cons]
        cases hbreach : breach? limits head.isSome (pending.length + 1, used + 1) with
        | some fault =>
            rw [hbreach] at hstep
            obtain ⟨r, hreceive, hfinish⟩ := hstep
            rw [feed_cons_of_fault hopen hreceive]
            constructor
            · rintro _ ⟨⟩
              exact ⟨rfl, hfinish⟩
            · intro hnone
              contradiction
        | none =>
            rw [hbreach] at hstep
            obtain ⟨hbroken, hkept⟩ := ih (pending ++ [b]) (used + 1) hbs.2
            rw [List.length_append, List.length_singleton] at hbroken hkept
            rw [feed_cons_of_none hopen hstep]
            refine ⟨hbroken, fun hnone => ?_⟩
            rw [hkept hnone, Fed.andThen]
            congr 1
            · rw [List.append_assoc, List.singleton_append, Nat.add_assoc, Nat.add_comm 1]
            · rw [List.length_cons, Nat.add_comm]

/-- A line from its first byte on. -/
theorem feed_line (limits : Limits) (head : Option (FirstLine × Nat)) (used : Nat) {bs : List UInt8}
    (hbs : '\n'.toUInt8 ∉ bs) :
    (∀ fault, firstBreach? limits head.isSome used [lineOf bs] = some fault →
      (feed limits (inLine head [] used) bs).fault = some fault ∧
        (feed limits (inLine head [] used) bs).receiver.finish =
          .error (.incomplete (linePhase head))) ∧
    (firstBreach? limits head.isSome used [lineOf bs] = none →
      feed limits (inLine head [] used) bs =
        ⟨inLine head (lineOf bs) (used + (lineOf bs).length), bs.length, none⟩) := by
  simpa [firstBreach?, extents] using feed_inLine limits head [] used hbs

/-- A line that ends, where neither a byte of it nor its end is refused. -/
theorem feed_ended_line {head : Option (FirstLine × Nat)} {used : Nat} {bs : List UInt8}
    {r' : Receiver} (hbs : '\n'.toUInt8 ∉ bs)
    (hbreach : firstBreach? limits head.isSome used [lineOf bs] = none)
    (hend : receive limits (inLine head (lineOf bs) (used + (lineOf bs).length)) '\n'.toUInt8 =
      (r', none)) :
    feed limits (inLine head [] used) (bs ++ ['\n'.toUInt8]) =
      ⟨r', (bs ++ ['\n'.toUInt8]).length, none⟩ := by
  have hline := (feed_line limits head used hbs).2 hbreach
  have hopen : (inLine head (lineOf bs) (used + (lineOf bs).length)).isComplete = false := by
    cases head <;> simp [inLine, isComplete, phase]
  rw [feed_append_of_fault_none (by rw [hline]), hline, feed_cons_of_none hopen hend, feed,
    Fed.andThen, Fed.andThen, List.length_append]
  rfl

/-- The end of the first line. -/
theorem receive_firstLine_end {line : List UInt8} (hline : line ≠ []) (used : Nat) :
    receive limits (inLine none line used) '\n'.toUInt8 =
      (inLine (some (.spelled (lineText line), 0)) [] 0, none) := by
  simp [inLine, receive, endLine, hline, textOf, lineText, FirstLine.ofText_eq_spelled]

theorem declaredAfter_eq (line : List UInt8) (declared : Nat) :
    declaredAfter (lineText line) declared = (lengthOf? line).getD declared := by
  have hlength : "content-length:".toList.length = "CONTENT-LENGTH:".toList.length := by decide
  have hname : "content-length:".toList.map Char.toUpper = "CONTENT-LENGTH:".toList := by decide
  simp only [declaredAfter, lengthOf?, Text.sameLetters_iff_toUpper, hlength, hname]
  split <;> rfl

/-- The end of a header line. -/
theorem receive_headerLine_end {line : List UInt8} (hline : line ≠ []) (first : FirstLine)
    (declared used : Nat) :
    receive limits (inLine (some (first, declared)) line used) '\n'.toUInt8 =
      (inLine (some (first, (lengthOf? line).getD declared)) [] used, none) := by
  have hdeclared := declaredAfter_eq line declared
  rw [lineText] at hdeclared
  simp [inLine, receive, endLine, hline, textOf, hdeclared]

/-- The empty line behind the headers, and the rest. -/
theorem feed_empty_line_tells (limits : Limits) (first : FirstLine) (declared used : Nat)
    (rest : List UInt8) :
    (bodyReading limits first declared rest).Tells ('\n'.toUInt8 :: rest)
      (feed limits (inLine (some (first, declared)) [] used) ('\n'.toUInt8 :: rest)) := by
  have hopen : (inLine (some (first, declared)) [] used).isComplete = false := by
    simp [inLine, isComplete, phase]
  have hend : receive limits (inLine (some (first, declared)) [] used) '\n'.toUInt8 =
      endHeaders limits first used declared := by
    simp [inLine, receive, endLine]
  unfold bodyReading
  unfold endHeaders at hend
  split
  · rename_i hbody
    rw [if_pos hbody] at hend
    split
    · rename_i hlarge
      rw [if_pos hlarge] at hend
      rw [feed_cons_of_fault hopen hend]
      exact ⟨rfl, rfl⟩
    · rename_i hsmall
      rw [if_neg hsmall] at hend
      have hfeed := feed_body limits first declared [] hbody.2 rest
      split
      · rename_i hshort
        rw [if_pos hshort] at hfeed
        rw [feed_cons_of_none hopen hend, hfeed]
        exact ⟨rfl, Nat.add_comm .., rfl⟩
      · rename_i hlong
        rw [if_neg hlong] at hfeed
        rw [feed_cons_of_none hopen hend, hfeed]
        refine ⟨rfl, rfl, '\n'.toUInt8 :: rest.take declared, by simp, ?_⟩
        rw [Fed.andThen, List.length_cons, List.length_take_of_le (by omega), Nat.add_comm]
  · rename_i hnone
    rw [if_neg hnone] at hend
    have hempty : Utf8.decodeLossy [] = "" := by rw [Utf8.decodeLossy, Utf8.scan]; rfl
    rw [feed_cons_of_none hopen hend, feed_of_isComplete rfl]
    refine ⟨rfl, ?_, ['\n'.toUInt8], rfl, rfl⟩
    rw [Fed.andThen, finish, hempty]

/-- A line in front of header lines that keeps the bounds. -/
theorem headersReading_of_kept {limits : Limits} {first : FirstLine} {used declared : Nat}
    {bs line rest : List UInt8} (hcut : Text.cut '\n'.toUInt8 bs = some (line, rest))
    (hline : lineOf line ≠ []) (h : firstBreach? limits true used [lineOf line] = none) :
    headersReading limits first used declared bs =
      headersReading limits first (used + (lineOf line).length)
        ((lengthOf? (lineOf line)).getD declared) rest := by
  rw [headersReading, headersReading, headerLines_of_some hcut hline]
  rcases headerLines rest with ⟨lines, _ | _⟩
  · simp only [firstBreach?_cons used (lineOf line) lines, h, Option.none_or, declaredBy_cons]
  · simp only [List.cons_append, firstBreach?_cons used (lineOf line) (lines ++ _), h,
      Option.none_or]

/-- A line in front of header lines that breaks a bound. -/
theorem headersReading_of_broken {limits : Limits} {first : FirstLine} {used declared : Nat}
    {bs line rest : List UInt8} {fault : Fault}
    (hcut : Text.cut '\n'.toUInt8 bs = some (line, rest)) (hline : lineOf line ≠ [])
    (h : firstBreach? limits true used [lineOf line] = some fault) :
    headersReading limits first used declared bs = .broken fault .headers := by
  rw [headersReading, headerLines_of_some hcut hline]
  rcases headerLines rest with ⟨lines, _ | _⟩
  · simp only [firstBreach?_cons used (lineOf line) lines, h, Option.some_or]
  · simp only [List.cons_append, firstBreach?_cons used (lineOf line) (lines ++ _), h,
      Option.some_or]

/-- Header lines and the rest. -/
theorem feed_headers_tells (limits : Limits) (first : FirstLine) (used declared : Nat)
    (bs : List UInt8) :
    (headersReading limits first used declared bs).Tells bs
      (feed limits (inLine (some (first, declared)) [] used) bs) := by
  fun_induction headerLines bs generalizing used declared with
  | case1 bs hcut =>
      obtain ⟨hbroken, hkept⟩ := feed_line limits (some (first, declared)) used
        (Text.cut_eq_none_iff.1 hcut)
      rw [headersReading, headerLines_of_none hcut]
      simp only [List.nil_append]
      cases hbreach : firstBreach? limits true used [lineOf bs] with
      | some fault => exact hbroken fault hbreach
      | none =>
          rw [hkept hbreach]
          exact ⟨rfl, rfl, rfl⟩
  | case2 bs line rest hcut hempty =>
      have hlines := headerLines_of_empty hcut hempty
      obtain ⟨rfl, hnot⟩ := Text.cut_eq_some_iff.1 hcut
      have hbreach : firstBreach? limits true used [lineOf line] = none := by rw [hempty]; rfl
      have hkept := (feed_line limits (some (first, declared)) used hnot).2 hbreach
      rw [hempty] at hkept
      rw [headersReading, hlines]
      exact (feed_empty_line_tells ..).of_rest hkept
  | case3 bs line rest hcut hline lines behind heq ih =>
      cases hbreach : firstBreach? limits true used [lineOf line] with
      | some fault =>
          rw [headersReading_of_broken hcut hline hbreach]
          obtain ⟨rfl, hnot⟩ := Text.cut_eq_some_iff.1 hcut
          obtain ⟨hfault, hfinish⟩ :=
            (feed_line limits (some (first, declared)) used hnot).1 fault hbreach
          exact Reading.tells_broken hfault hfinish _
      | none =>
          rw [headersReading_of_kept hcut hline hbreach]
          obtain ⟨rfl, hnot⟩ := Text.cut_eq_some_iff.1 hcut
          have hend := feed_ended_line hnot hbreach (receive_headerLine_end hline first declared _)
          rw [List.append_cons]
          exact (ih ..).of_rest hend

/-- Behind skipped line ends, a line that ends has bytes that count. -/
theorem lineOf_ne_nil {bs line rest : List UInt8}
    (h : bs.dropWhile isLineEnd = line ++ '\n'.toUInt8 :: rest) : lineOf line ≠ [] := by
  have hne : bs.dropWhile isLineEnd ≠ [] := by simp [h]
  have hhead := List.head_dropWhile_not isLineEnd hne
  cases line with
  | nil => simp [h, isLineEnd] at hhead
  | cons b line =>
      simp only [h, List.cons_append, List.head_cons, isLineEnd, Bool.or_eq_false_iff] at hhead
      simp [lineOf, bne, hhead.1]

/-- In front of the first line nothing is kept of what ends lines. -/
theorem feed_lineEnds {bs : List UInt8} (h : ∀ b ∈ bs, isLineEnd b = true) :
    feed limits (inLine none [] 0) bs = ⟨inLine none [] 0, bs.length, none⟩ := by
  induction bs with
  | nil => rfl
  | cons b bs ih =>
      rw [List.forall_mem_cons] at h
      have hopen : (inLine none [] 0).isComplete = false := by simp [inLine, isComplete, phase]
      have hskip : receive limits (inLine none [] 0) b = (inLine none [] 0, none) := by
        have hb := h.1
        rw [isLineEnd, Bool.or_eq_true, beq_iff_eq, beq_iff_eq] at hb
        obtain rfl | rfl := hb <;> simp [inLine, receive, endLine]
      rw [feed_cons_of_none hopen hskip, ih h.2, Fed.andThen, List.length_cons, Nat.add_comm]

/-- Feeding a new receiver leads where the bytes are read to lead: to the first bound that a byte
breaks, to the phase in which the bytes end, or to the request that they spell. -/
theorem feed_start_tells (limits : Limits) (bs : List UInt8) :
    (reading limits bs).Tells bs (feed limits start bs) := by
  have hsplit : bs.takeWhile isLineEnd ++ bs.dropWhile isLineEnd = bs :=
    List.takeWhile_append_dropWhile
  have hskipped : feed limits start (bs.takeWhile isLineEnd) =
      ⟨inLine none [] 0, (bs.takeWhile isLineEnd).length, none⟩ :=
    feed_lineEnds (List.all_eq_true.1 List.all_takeWhile)
  suffices hrest : (reading limits bs).Tells (bs.dropWhile isLineEnd)
      (feed limits (inLine none [] 0) (bs.dropWhile isLineEnd)) by
    have := hrest.of_rest hskipped
    rwa [hsplit] at this
  rw [reading]
  cases hcut : Text.cut '\n'.toUInt8 (bs.dropWhile isLineEnd) with
  | none =>
      obtain ⟨hbroken, hkept⟩ := feed_line limits none 0 (Text.cut_eq_none_iff.1 hcut)
      simp only
      cases hbreach : firstBreach? limits false 0 [lineOf (bs.dropWhile isLineEnd)] with
      | some fault => exact hbroken fault hbreach
      | none =>
          rw [hkept hbreach]
          exact ⟨rfl, rfl, rfl⟩
  | some r =>
      obtain ⟨line, rest⟩ := r
      obtain ⟨heq, hnot⟩ := Text.cut_eq_some_iff.1 hcut
      obtain ⟨hbroken, hkept⟩ := feed_line limits none 0 hnot
      simp only
      rw [heq, List.append_cons]
      cases hbreach : firstBreach? limits false 0 [lineOf line] with
      | some fault =>
          obtain ⟨hfault, hfinish⟩ := hbroken fault hbreach
          rw [List.append_assoc]
          exact Reading.tells_broken hfault hfinish _
      | none =>
          have hend := feed_ended_line hnot hbreach (receive_firstLine_end
            (lineOf_ne_nil heq) _)
          exact (feed_headers_tells ..).of_rest hend

end Receiver

end FieldCamera.Request
