import FieldCamera.Proofs.Link.Course
import FieldCamera.Upload.Reply
import Mathlib.Data.List.DropRight
/-!
# Replies and the course of a stream

What is read as a reply depends on nothing but the course of the stream: `ofCourse` says which
reply its bytes spell, without a buffer and without arrivals. The main statement is
`receive_result`.
-/

namespace FieldCamera.Text

variable {α : Type} [BEq α] [LawfulBEq α] {sep : α} {xs l r : List α}

theorem cut_append_of_some (h : cut sep xs = some (l, r)) (ys : List α) :
    cut sep (xs ++ ys) = some (l, r ++ ys) := by
  obtain ⟨rfl, hl⟩ := cut_eq_some_iff.1 h
  exact cut_eq_some_iff.2 ⟨by simp, hl⟩

theorem cut_append_of_none (h : cut sep xs = none) (ys : List α) :
    cut sep (xs ++ ys) = (cut sep ys).map fun p => (xs ++ p.1, p.2) := by
  have hxs := cut_eq_none_iff.1 h
  cases hys : cut sep ys with
  | none =>
      have := cut_eq_none_iff.1 hys
      exact cut_eq_none_iff.2 (by simp [hxs, this])
  | some p =>
      obtain ⟨rfl, hl⟩ := cut_eq_some_iff.1 hys
      exact cut_eq_some_iff.2 ⟨by simp, by simp [hxs, hl]⟩

end FieldCamera.Text

namespace FieldCamera.Upload.Reply

open Link

/-- What follows the header block. Lines are dropped up to the first of which the kept part is
empty or a lone carriage return. -/
def afterHeaders (limit : Nat) (bs : List UInt8) : Option (List UInt8) :=
  match _h : Text.cut '\n'.toUInt8 bs with
  | none => none
  | some (line, rest) =>
    if line.take limit = [] ∨ line.take limit = ['\r'.toUInt8] then some rest
    else afterHeaders limit rest
termination_by bs.length
decreasing_by
  obtain ⟨rfl, -⟩ := Text.cut_eq_some_iff.1 _h
  simp
  omega

/-- The text of a status line: what is kept of it, decoded, without carriage returns at its end. -/
def statusText (limit : Nat) (line : List UInt8) : String :=
  String.ofList ((Utf8.decodeLossy (line.take limit)).toList.rdropWhile (· == '\r'))

/-- The reply behind a good status line: what is left of its body, if its headers end. -/
def ofRest (limits : Limits) (status : Nat) (text : String) (heard : List UInt8) (ended : Bool) :
    Except Fault Reply :=
  match afterHeaders limits.line heard with
  | some body => .ok ⟨status, text, body.take limits.body, ended⟩
  | none => if ended then .ok ⟨status, text, [], true⟩ else .error (.timeout limits.idleMs)

/-- The reply that bytes spell which are all that is heard, up to the end of the stream or else up
to a silence. -/
def ofHeard (limits : Limits) (heard : List UInt8) (ended : Bool) : Except Fault Reply :=
  match Text.cut '\n'.toUInt8 heard with
  | none =>
    if ended then .error (.malformed (statusText limits.line heard))
    else .error (.timeout limits.idleMs)
  | some (line, rest) =>
    match statusCode? (statusText limits.line line).toList with
    | none => .error (.malformed (statusText limits.line line))
    | some status => ofRest limits status (statusText limits.line line) rest ended

/-- The reply that the course of a stream spells. -/
def ofCourse (limits : Limits) (c : Course) : Except Fault Reply :=
  ofHeard limits (c.heard limits.idleMs) (c.endsWithin limits.idleMs)

@[simp] theorem keep_nil (limit : Nat) (bs : List UInt8) : keep limit [] bs = bs.take limit := by
  simp [keep]

@[simp] theorem keep_empty (limit : Nat) (kept : List UInt8) : keep limit kept [] = kept := by
  simp [keep]

theorem keep_append (limit : Nat) (kept bs more : List UInt8) :
    keep limit kept (bs ++ more) = keep limit (keep limit kept bs) more := by
  have hroom : limit - kept.length - bs.length =
      limit - (kept.length + min (limit - kept.length) bs.length) := by omega
  simp only [keep, List.take_append, List.length_append, List.length_take, List.append_assoc,
    hroom]

/-- What reading up to a line feed finds among bytes, behind which the stream may end. -/
def firstLine (limit : Nat) (kept heard : List UInt8) (ended : Bool) :
    Option (List UInt8 × LineEnd) :=
  match Text.cut '\n'.toUInt8 heard with
  | some (line, _) => some (keep limit kept line, .newline)
  | none => if ended then some (keep limit kept heard, .streamEnd) else none

theorem firstLine_append {limit : Nat} {kept bs : List UInt8} (h : Text.cut '\n'.toUInt8 bs = none)
    (more : List UInt8) (ended : Bool) :
    firstLine limit kept (bs ++ more) ended = firstLine limit (keep limit kept bs) more ended := by
  rw [firstLine, firstLine, Text.cut_append_of_none h]
  cases Text.cut '\n'.toUInt8 more <;> simp [keep_append]

theorem firstLine_eq_none {limit : Nat} {kept heard : List UInt8} {ended : Bool}
    (h : firstLine limit kept heard ended = none) :
    Text.cut '\n'.toUInt8 heard = none ∧ ended = false := by
  unfold firstLine at h
  split at h
  · contradiction
  · exact ⟨‹_›, by simpa using h⟩

theorem firstLine_eq_streamEnd {limit : Nat} {kept heard line : List UInt8} {ended : Bool}
    (h : firstLine limit kept heard ended = some (line, .streamEnd)) :
    Text.cut '\n'.toUInt8 heard = none ∧ ended = true ∧ line = keep limit kept heard := by
  unfold firstLine at h
  split at h
  · simp at h
  · cases ended with
    | true => simp_all
    | false => simp at h

theorem firstLine_eq_newline {limit : Nat} {kept heard line : List UInt8} {ended : Bool}
    (h : firstLine limit kept heard ended = some (line, .newline)) :
    ∃ content rest, Text.cut '\n'.toUInt8 heard = some (content, rest) ∧
      line = keep limit kept content := by
  unfold firstLine at h
  split at h
  · exact ⟨_, _, ‹_›, by simpa using h.symm⟩
  · simp at h

/-- A line is read up to the first line feed that is heard, and what follows it is left. -/
theorem readLine_result (limits : Limits) (kept : List UInt8) (now : Nat) (r : Reader)
    (hcap : 0 < r.capacity) :
    let c := r.course now
    let t := readLine limits kept now r
    t.result = firstLine limits.line kept (c.heard limits.idleMs) (c.endsWithin limits.idleMs) ∧
      t.reader.capacity = r.capacity ∧
      ∀ line rest, Text.cut '\n'.toUInt8 (c.heard limits.idleMs) = some (line, rest) →
        (t.reader.course t.now).heard limits.idleMs = rest ∧
        (t.reader.course t.now).endsWithin limits.idleMs = c.endsWithin limits.idleMs := by
  fun_induction readLine limits kept now r with
  | case1 kept now r t hlate =>
      obtain ⟨h₁, h₂⟩ := Reader.yields_fill hcap hlate
      simp [h₁, h₂, firstLine, Text.cut, t]
  | case2 kept now r t reason hf =>
      obtain ⟨h₁, h₂⟩ := Reader.yields_fill hcap hf
      simp [h₁, h₂, firstLine, Text.cut, t]
  | case3 kept now r t hd =>
      obtain ⟨h₁, h₂⟩ := Reader.yields_fill hcap hd
      simp [h₁, h₂, firstLine, Text.cut, t]
  | case4 kept now r t bytes hd hb content after hcut =>
      have hy : (r.course now).Yields limits.idleMs (.done bytes) (t.state.stream.course t.now) :=
        Reader.yields_fill hcap hd
      obtain ⟨h₁, h₂⟩ := hy.of_bytes hb
      have hbuffer : t.state.buffer = bytes := Reader.fill_buffer hd
      obtain ⟨rfl, -⟩ := Text.cut_eq_some_iff.1 hcut
      have hrest : (t.state.consume (content.length + 1)).course t.now =
          (t.state.stream.course t.now).prepend after := by
        rw [Reader.course, Reader.consume, hbuffer]
        simp
      have hheard :=
        Text.cut_append_of_some hcut ((t.state.stream.course t.now).heard limits.idleMs)
      refine ⟨?_, Reader.capacity_fill .., fun line rest hline => ?_⟩
      · rw [h₁, firstLine, hheard]
      · rw [h₁, hheard] at hline
        obtain ⟨rfl, rfl⟩ := Prod.mk.inj (Option.some.inj hline)
        rw [hrest, h₂]
        exact ⟨Course.heard_prepend .., Course.endsWithin_prepend ..⟩
  | case5 kept now r t bytes hd hb hcut ih =>
      have hy : (r.course now).Yields limits.idleMs (.done bytes) (t.state.stream.course t.now) :=
        Reader.yields_fill hcap hd
      obtain ⟨h₁, h₂⟩ := hy.of_bytes hb
      have hbuffer : t.state.buffer = bytes := Reader.fill_buffer hd
      have hc : t.state.capacity = r.capacity := r.capacity_fill ..
      have hrest : (t.state.consume bytes.length).course t.now = t.state.stream.course t.now := by
        rw [Reader.course, Reader.consume, hbuffer]
        simp
      obtain ⟨ih₁, ih₂, ih₃⟩ := ih (by rwa [Reader.capacity_consume, hc])
      rw [hrest] at ih₁ ih₃
      refine ⟨?_, ih₂.trans hc, fun line rest hline => ?_⟩
      · rw [ih₁, h₁, h₂, firstLine_append hcut]
      · rw [h₁, Text.cut_append_of_none hcut] at hline
        obtain ⟨p, hp, heq⟩ := Option.map_eq_some_iff.1 hline
        obtain ⟨-, rfl⟩ := Prod.mk.inj heq
        rw [h₂]
        exact ih₃ p.1 p.2 hp

theorem afterHeaders_of_none {limit : Nat} {bs : List UInt8}
    (h : Text.cut '\n'.toUInt8 bs = none) : afterHeaders limit bs = none := by
  rw [afterHeaders]
  split <;> simp_all

theorem afterHeaders_of_some {limit : Nat} {bs line rest : List UInt8}
    (h : Text.cut '\n'.toUInt8 bs = some (line, rest)) :
    afterHeaders limit bs =
      if line.take limit = [] ∨ line.take limit = ['\r'.toUInt8] then some rest
      else afterHeaders limit rest := by
  rw [afterHeaders]
  split <;> simp_all

/-- The header lines are skipped up to the line that ends them, and the body is left. -/
theorem skipHeaders_result (limits : Limits) (now : Nat) (r : Reader) (hcap : 0 < r.capacity) :
    let c := r.course now
    let t := skipHeaders limits now r
    t.reader.capacity = r.capacity ∧
      match afterHeaders limits.line (c.heard limits.idleMs) with
      | none => t.result = if c.endsWithin limits.idleMs then some .streamEnd else none
      | some body => t.result = some .newline ∧
          (t.reader.course t.now).heard limits.idleMs = body ∧
          (t.reader.course t.now).endsWithin limits.idleMs = c.endsWithin limits.idleMs := by
  fun_induction skipHeaders limits now r with
  | case1 now r t ht =>
      obtain ⟨h₁, h₂, -⟩ := readLine_result limits [] now r hcap
      obtain ⟨hcut, hended⟩ := firstLine_eq_none (h₁.symm.trans ht)
      refine ⟨h₂, ?_⟩
      rw [afterHeaders_of_none hcut]
      simp [hended]
  | case2 now r t line ht =>
      obtain ⟨h₁, h₂, -⟩ := readLine_result limits [] now r hcap
      obtain ⟨hcut, hended, -⟩ := firstLine_eq_streamEnd (h₁.symm.trans ht)
      refine ⟨h₂, ?_⟩
      rw [afterHeaders_of_none hcut]
      simp [hended]
  | case3 now r t line ht hempty =>
      obtain ⟨h₁, h₂, h₃⟩ := readLine_result limits [] now r hcap
      obtain ⟨content, rest, hcut, rfl⟩ := firstLine_eq_newline (h₁.symm.trans ht)
      rw [keep_nil] at hempty
      refine ⟨h₂, ?_⟩
      rw [afterHeaders_of_some hcut, if_pos hempty]
      exact ⟨rfl, h₃ _ _ hcut⟩
  | case4 now r t line ht hempty ih =>
      obtain ⟨h₁, h₂, h₃⟩ := readLine_result limits [] now r hcap
      obtain ⟨content, rest, hcut, rfl⟩ := firstLine_eq_newline (h₁.symm.trans ht)
      rw [keep_nil] at hempty
      obtain ⟨hheard, hended⟩ := h₃ _ _ hcut
      obtain ⟨ih₁, ih₂⟩ := ih (h₂ ▸ hcap)
      rw [hheard, hended] at ih₂
      refine ⟨ih₁.trans h₂, ?_⟩
      rw [afterHeaders_of_some hcut, if_neg hempty]
      exact ih₂

/-- The body is all that is heard from here on, and what ends it is the end or the silence. -/
theorem readBody_result (limits : Limits) (kept : List UInt8) (now : Nat) (r : Reader)
    (hcap : 0 < r.capacity) :
    (readBody limits kept now r).result =
      (keep limits.body kept ((r.course now).heard limits.idleMs),
        (r.course now).endsWithin limits.idleMs) := by
  fun_induction readBody limits kept now r with
  | case1 kept now r t hlate =>
      obtain ⟨h₁, h₂⟩ := Reader.yields_read hcap (by decide) hlate
      simp [h₁, h₂]
  | case2 kept now r t reason hf =>
      obtain ⟨h₁, h₂⟩ := Reader.yields_read hcap (by decide) hf
      simp [h₁, h₂]
  | case3 kept now r t hd =>
      obtain ⟨h₁, h₂⟩ := Reader.yields_read hcap (by decide) hd
      simp [h₁, h₂]
  | case4 kept now r t bytes hd hb ih =>
      have hy : (r.course now).Yields limits.idleMs (.done bytes) (t.state.course t.now) :=
        Reader.yields_read hcap (by decide) hd
      obtain ⟨h₁, h₂⟩ := hy.of_bytes hb
      have hc : t.state.capacity = r.capacity := r.capacity_read ..
      rw [ih (hc ▸ hcap), h₁, h₂, keep_append]

theorem readRest_result (limits : Limits) (status : Nat) (text : String) (now : Nat) (r : Reader)
    (hcap : 0 < r.capacity) :
    (readRest limits status text now r).result =
      ofRest limits status text ((r.course now).heard limits.idleMs)
        ((r.course now).endsWithin limits.idleMs) := by
  obtain ⟨h₁, h₂⟩ := skipHeaders_result limits now r hcap
  unfold readRest ofRest
  split at h₂
  · rename_i hafter
    rw [hafter]
    cases hended : (r.course now).endsWithin limits.idleMs <;> simp [h₂, hended]
  · rename_i body hafter
    obtain ⟨hresult, hheard, hended⟩ := h₂
    have hbody := readBody_result limits [] (skipHeaders limits now r).now
      (skipHeaders limits now r).reader (h₁ ▸ hcap)
    rw [hheard, hended, keep_nil] at hbody
    simp [hafter, hresult, hbody]

theorem lineText_take (limit : Nat) (line : List UInt8) :
    lineText (line.take limit) = statusText limit line := rfl

/-- Reading a reply gives what the course of the stream spells, through a buffer of any capacity. -/
theorem receive_result (limits : Limits) (now : Nat) (r : Reader) (hcap : 0 < r.capacity) :
    (receive limits now r).result = ofCourse limits (r.course now) := by
  obtain ⟨h₁, h₂, h₃⟩ := readLine_result limits [] now r hcap
  unfold receive ofCourse ofHeard
  cases hcut : Text.cut '\n'.toUInt8 ((r.course now).heard limits.idleMs) with
  | none =>
      rw [firstLine, hcut] at h₁
      cases hended : (r.course now).endsWithin limits.idleMs <;>
        simp [h₁, hended, lineText_take]
  | some p =>
      obtain ⟨line, rest⟩ := p
      obtain ⟨hheard, hended⟩ := h₃ line rest hcut
      rw [firstLine, hcut] at h₁
      have hrest := fun status text => readRest_result limits status text
        (readLine limits [] now r).now (readLine limits [] now r).reader (h₂ ▸ hcap)
      simp only [hheard, hended] at hrest
      cases hstatus : statusCode? (statusText limits.line line).toList <;>
        simp [h₁, lineText_take, hstatus, hrest]

/-- Reading the reply that a stream brings is `ofCourse`, whatever the capacity of the reader and
however the bytes arrive. -/
theorem receive_eq_ofCourse (limits : Limits) (now : Nat) (s : Stream) (capacity : Nat)
    (hcap : 0 < capacity) :
    (receive limits now { stream := s, capacity := capacity }).result =
      ofCourse limits (s.course now) := by
  rw [receive_result limits now _ hcap, Reader.course_of_buffer_eq_nil rfl]

/-- A status line in three arrivals that is cut at the limit of a line, and a body that is cut at
its limit and ended by a silence, read two bytes at a time. -/
theorem receive_cut_reply :
    0 < 2 ∧ (receive ⟨10, 12, 3⟩ 0 { capacity := 2, stream := { arrivals :=
      [.bytes (Utf8.encode "HTTP/1.1 2"), .pause 3, .bytes (Utf8.encode "04 No\r"),
        .bytes (Utf8.encode "\nA: b\r\n"), .pause 5, .bytes (Utf8.encode "\r\nbody"),
        .pause 11] } }).result =
      .ok ⟨204, "HTTP/1.1 204", Utf8.encode "bod", false⟩ :=
  ⟨by decide, (receive_eq_ofCourse _ _ _ _ (by decide)).trans (by decide +kernel)⟩

variable {limits : Limits} {now : Nat} {r : Reader} {reply : Reply}

theorem readLine_of_capacity (limits : Limits) (kept : List UInt8) (now : Nat)
    (hb : r.buffer = []) (hcap : r.capacity = 0) (line : List UInt8) :
    (readLine limits kept now r).result ≠ some (line, .newline) := by
  unfold readLine
  dsimp only
  split
  · simp
  · simp
  · rename_i bytes hfill
    rw [dif_pos (Reader.fill_of_capacity hb hcap hfill)]
    simp

/-- A good reply is the one that the course spells, also where the reader can hold nothing. -/
theorem ofCourse_of_receive (hb : r.buffer = [])
    (h : (receive limits now r).result = .ok reply) :
    ofCourse limits (r.stream.course now) = .ok reply := by
  rcases Nat.eq_zero_or_pos r.capacity with hcap | hcap
  · have hline := readLine_of_capacity limits [] now hb hcap
    cases hresult : (readLine limits [] now r).result with
    | none => simp [receive, hresult] at h
    | some p =>
        obtain ⟨line, ending⟩ := p
        cases ending with
        | newline => exact absurd hresult (hline line)
        | streamEnd => simp [receive, hresult] at h
  · rw [← Reader.course_of_buffer_eq_nil hb, ← receive_result limits now r hcap, h]

theorem ofRest_eq_ok_iff {status : Nat} {text : String} {heard : List UInt8} {ended : Bool} :
    ofRest limits status text heard ended = .ok reply ↔
      ((afterHeaders limits.line heard).isSome ∨ ended = true) ∧
      reply = ⟨status, text, ((afterHeaders limits.line heard).getD []).take limits.body,
        ended⟩ := by
  unfold ofRest
  cases hafter : afterHeaders limits.line heard with
  | some body => simp [eq_comm]
  | none => cases ended <;> simp [eq_comm]

end FieldCamera.Upload.Reply
