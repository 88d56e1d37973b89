import FieldCamera.Proofs.Upload.Connecting
/-!
# The bytes of a request on the wire

A request is written in one passage: its head, the head of the form, the chunks of the image and
the tail of the form. `Envelope.offer` says what a write offers when so many bytes have been taken.
-/

namespace FieldCamera.Upload

open Link

/-- Why sending breaks off at an act, where it does. -/
def breakReason? (limit : Nat) : Act → Option String
  | .write _ .late => some ("write stalled for " ++ Span.text limit)
  | .write _ (.failed reason) => some reason
  | .write _ (.done 0) => some "zero-length write"
  | .write _ (.done (_ + 1)) => none
  | .flush .late => some "flush timed out"
  | .flush (.failed reason) => some reason
  | .flush (.done ()) => none

theorem breakReason?_eq_none_iff {limit : Nat} {a : Act} :
    breakReason? limit a = none ↔ ¬a.Breaks := by
  cases a with
  | write data outcome =>
      cases outcome with
      | done accepted => cases accepted <;> simp [breakReason?, Act.Breaks]
      | failed reason => simp [breakReason?, Act.Breaks]
      | late => simp [breakReason?, Act.Breaks]
  | flush outcome => cases outcome <;> simp [breakReason?, Act.Breaks]

/-- The reason of the first act that breaks. -/
def firstBreak? (limit : Nat) (acts : List Act) : Option String :=
  acts.findSome? (breakReason? limit)

theorem firstBreak?_eq_none_iff {limit : Nat} {acts : List Act} :
    firstBreak? limit acts = none ↔ ∀ a ∈ acts, ¬a.Breaks := by
  simp [firstBreak?, breakReason?_eq_none_iff]

theorem firstBreak?_append (limit : Nat) (acts later : List Act) :
    firstBreak? limit (acts ++ later) = (firstBreak? limit acts).or (firstBreak? limit later) := by
  simp [firstBreak?, List.findSome?_append]

/-- Writing one piece is a passage of it, which adds the bytes that are passed on to the count. -/
theorem writeAll_passage (limit : Nat) (data : List UInt8) (p : Progress) :
    ∃ acts, Passage (· + limit) [data] p.stream p.now acts (writeAll limit data p).1.stream
        (writeAll limit data p).1.now (writeAll limit data p).2.isNone ∧
      (writeAll limit data p).1.sent = p.sent + (passed acts).length ∧
      (writeAll limit data p).2 = firstBreak? limit acts := by
  fun_induction writeAll limit data p with
  | case1 p => exact ⟨[], .skip (.nil _ _), rfl, rfl⟩
  | case2 data p hdata t hlate => exact ⟨_, .broken hdata hlate trivial, rfl, rfl⟩
  | case3 data p hdata t reason hf => exact ⟨_, .broken hdata hf trivial, rfl, rfl⟩
  | case4 data p hdata t hzero => exact ⟨_, .broken hdata hzero rfl, rfl, rfl⟩
  | case5 data p hdata t n hn ih =>
      obtain ⟨acts, hpassage, hsent, hbreak⟩ := ih
      have hle : n + 1 ≤ data.length := Stream.accepted_le hn
      refine ⟨_, .taken hdata hn hpassage, ?_, hbreak⟩
      rw [hsent, passed_cons, Act.passed, List.length_append, List.length_take_of_le hle]
      exact Nat.add_assoc ..

/-- Writing pieces is a passage of them. -/
theorem writePieces_passage (limit : Nat) (pieces : List (List UInt8)) (p : Progress) :
    ∃ acts, Passage (· + limit) pieces p.stream p.now acts (writePieces limit pieces p).1.stream
        (writePieces limit pieces p).1.now (writePieces limit pieces p).2.isNone ∧
      (writePieces limit pieces p).1.sent = p.sent + (passed acts).length ∧
      (writePieces limit pieces p).2 = firstBreak? limit acts := by
  induction pieces generalizing p with
  | nil => exact ⟨[], .nil _ _, rfl, rfl⟩
  | cons piece rest ih =>
      obtain ⟨acts, hpassage, hsent, hbreak⟩ := writeAll_passage limit piece p
      rw [writePieces]
      split
      · rename_i q reason heq
        rw [heq] at hpassage hsent hbreak
        exact ⟨acts, hpassage.append_of_broken rfl rest, hsent, hbreak⟩
      · rename_i q heq
        rw [heq] at hpassage hsent hbreak
        obtain ⟨later, hpassage', hsent', hbreak'⟩ := ih q
        refine ⟨acts ++ later, hpassage.append rfl hpassage', ?_, ?_⟩
        · rw [hsent', hsent, passed_append, List.length_append, Nat.add_assoc]
        · rw [hbreak', firstBreak?_append, ← hbreak]
          rfl

theorem chunks_flatten (size : Nat) (bs : List UInt8) : (chunks size bs).flatten = bs := by
  fun_induction chunks size bs with
  | case1 => rfl
  | case2 bs h ih => rw [List.flatten_cons, ih, List.take_append_drop]

theorem pieces_flatten (e : Envelope) (target : Address) (chunkSize : Nat) :
    (e.pieces target chunkSize).flatten = e.wire target := by
  simp [Envelope.pieces, Envelope.wire, chunks_flatten]

/-- What is left, at byte `k`, of the stretch of `size` bytes that it lies in. -/
def chunkFrom (size : Nat) (bs : List UInt8) (k : Nat) : List UInt8 :=
  ((bs.drop (size * (k / size))).take size).drop (k % size)

theorem length_chunkFrom_le (size : Nat) (bs : List UInt8) (k : Nat) :
    (chunkFrom size bs k).length ≤ size := by
  rw [chunkFrom, List.length_drop, List.length_take]
  omega

theorem chunkFrom_of_lt {size k : Nat} (hk : k < size) (bs : List UInt8) :
    chunkFrom size bs k = (bs.take size).drop k := by
  rw [chunkFrom, Nat.div_eq_of_lt hk, Nat.mod_eq_of_lt hk, Nat.mul_zero, List.drop_zero]

theorem chunkFrom_of_le {size k : Nat} (hsize : 0 < size) (hk : size ≤ k) (bs : List UInt8) :
    chunkFrom size bs k = chunkFrom size (bs.drop size) (k - size) := by
  have hdiv : size * (k / size) = size + size * ((k - size) / size) := by
    calc
      size * (k / size) = size * ((k - size) / size + 1) := by rw [Nat.div_eq_sub_div hsize hk]
      _ = size + size * ((k - size) / size) := by rw [Nat.mul_add, Nat.mul_one, Nat.add_comm]
  have hmod : k % size = (k - size) % size := Nat.mod_eq_sub_mod hk
  rw [chunkFrom, chunkFrom, hdiv, hmod, List.drop_drop]

theorem pieceFrom_chunks (size : Nat) (bs : List UInt8) (rest : List (List UInt8)) (k : Nat) :
    pieceFrom (chunks size bs ++ rest) k =
      if k < bs.length then chunkFrom (max size 1) bs k else pieceFrom rest (k - bs.length) := by
  fun_induction chunks size bs generalizing k with
  | case1 => simp
  | case2 bs h ih =>
      have hsize : 0 < max size 1 := by omega
      rw [List.cons_append, pieceFrom, List.length_take]
      by_cases hk : k < max size 1
      · rw [chunkFrom_of_lt hk]
        by_cases hlt : k < bs.length
        · rw [if_pos (by omega), if_pos hlt]
        · rw [if_neg (by omega), if_neg hlt, ih, List.length_drop, if_neg (by omega)]
          congr 1
          omega
      · rw [if_neg (by omega), ih, List.length_drop]
        by_cases hlt : k < bs.length
        · have hmin : min (max size 1) bs.length = max size 1 := by omega
          rw [hmin, if_pos (by omega), if_pos hlt, ← chunkFrom_of_le hsize (by omega)]
        · rw [if_neg (by omega), if_neg hlt]
          congr 1
          omega

/-- What a write of a request offers when so many bytes have been taken: the rest of the head of
the request, of the head of the form, of one chunk of the image, or of the tail of the form. -/
def Envelope.offer (e : Envelope) (target : Address) (chunkSize sent : Nat) : List UInt8 :=
  let head := Utf8.encode (e.requestHead target)
  if sent < head.length then head.drop sent
  else if sent < head.length + e.head.length then e.head.drop (sent - head.length)
  else if sent < head.length + e.head.length + e.image.length then
    chunkFrom (max chunkSize 1) e.image (sent - (head.length + e.head.length))
  else e.tail.drop (sent - (head.length + e.head.length + e.image.length))

theorem pieceFrom_pieces (e : Envelope) (target : Address) (chunkSize : Nat) :
    pieceFrom (e.pieces target chunkSize) = e.offer target chunkSize := by
  funext sent
  unfold Envelope.offer Envelope.pieces
  rw [List.cons_append, List.cons_append, pieceFrom, pieceFrom, pieceFrom_chunks,
    pieceFrom_singleton, Nat.sub_sub, Nat.sub_sub]
  dsimp only
  by_cases hhead : sent < (Utf8.encode (e.requestHead target)).length
  · rw [if_pos hhead, if_pos hhead]
  rw [if_neg hhead, if_neg hhead]
  by_cases hform : sent < (Utf8.encode (e.requestHead target)).length + e.head.length
  · rw [if_pos hform, if_pos (by omega)]
  rw [if_neg hform, if_neg (by omega)]
  by_cases himage :
      sent < (Utf8.encode (e.requestHead target)).length + e.head.length + e.image.length
  · rw [if_pos himage, if_pos (by omega)]
  · rw [if_neg himage, if_neg (by omega)]

/-- The acts are all that is tried on the stream `s` in writing and flushing a request, from `now`
to `later`. Nothing is tried after an act that breaks, and without one the request is taken. -/
structure Sends (pace : Pace) (target : Address) (e : Envelope) (s : Stream) (now : Nat)
    (acts : List Act) (s' : Stream) (later : Nat) : Prop where
  performs : Performs (· + pace.writeMs) s now acts s' later
  part : passed acts <+: e.wire target
  offers : Offers (e.offer target pace.chunkSize) 0 acts
  last : ∀ a ∈ acts.dropLast, ¬a.Breaks
  whole : passed acts = e.wire target ∧ .flush (.done ()) ∈ acts ↔ ∀ a ∈ acts, ¬a.Breaks

section Sending

variable {pace : Pace} {target : Address} {e : Envelope} {s s' : Stream} {now later : Nat}
  {acts : List Act}

/-- A request of which a write breaks is not flushed. -/
theorem sends_of_broken
    (h : Passage (· + pace.writeMs) (e.pieces target pace.chunkSize) s now acts s' later false) :
    Sends pace target e s now acts s' later := by
  have hpart := h.isPrefix
  have hoffers := h.offers
  have hbreaks := h.breaks_iff.2 rfl
  rw [pieces_flatten] at hpart
  rw [pieceFrom_pieces] at hoffers
  refine ⟨h.performs, hpart, hoffers, h.not_breaks_dropLast, ?_⟩
  constructor
  · intro hwhole
    exact absurd hwhole.2 (h.flush_notMem _)
  · intro hgood
    obtain ⟨a, ha, hb⟩ := hbreaks
    exact absurd hb (hgood a ha)

/-- A request that is written whole is flushed once. -/
theorem sends_of_whole
    (h : Passage (· + pace.writeMs) (e.pieces target pace.chunkSize) s now acts s' later true) :
    let f := s'.flush (later + pace.writeMs) later
    Sends pace target e s now (acts ++ [.flush f.outcome]) f.state f.now := by
  intro f
  have hwire := h.whole_iff.1 rfl
  have hoffers := h.offers
  have hgood : ∀ a ∈ acts, ¬a.Breaks := by
    intro a ha hb
    exact Bool.noConfusion (h.breaks_iff.1 ⟨a, ha, hb⟩)
  rw [pieces_flatten] at hwire
  rw [pieceFrom_pieces] at hoffers
  refine ⟨h.performs.append (.flush (.nil _ _)), ?_, hoffers.append trivial, ?_, ?_⟩
  · simp [hwire]
  · rwa [List.dropLast_concat]
  · have hnot := h.flush_notMem (.done ())
    have hall : (∀ a ∈ acts ++ [.flush f.outcome], ¬a.Breaks) ↔ f.outcome = .done () := by
      rw [List.forall_mem_append, List.forall_mem_singleton, Act.breaks_flush, not_not]
      exact and_iff_right hgood
    have hmem : .flush (.done ()) ∈ acts ++ [Act.flush f.outcome] ↔ f.outcome = .done () := by
      rw [List.mem_append, List.mem_singleton, Act.flush.injEq, or_iff_right hnot, eq_comm]
    rw [hall, hmem, passed_append, hwire]
    simp

/-- Where bytes of the image are next, a write offers what is left of one chunk of it. -/
theorem Sends.image_write (h : Sends pace target e s now acts s' later) {before after : List Act}
    {data : List UInt8} {outcome : Outcome Nat} {k : Nat}
    (hacts : acts = before ++ .write data outcome :: after) (hk : k < e.image.length)
    (hbefore : (passed before).length = (Utf8.encode (e.requestHead target)).length +
      e.head.length + k) :
    data = chunkFrom (max pace.chunkSize 1) e.image k := by
  subst hacts
  have hdata := h.offers.at
  rw [Nat.zero_add, hbefore] at hdata
  unfold Envelope.offer at hdata
  dsimp only at hdata
  rwa [if_neg (by omega), if_neg (by omega), if_pos (by omega), Nat.add_sub_cancel_left] at hdata

/-- After a write that took a part of its bytes, the next write offers the rest of them. -/
theorem Sends.next_write (h : Sends pace target e s now acts s' later) {before after : List Act}
    {data next : List UInt8} {n : Nat} {outcome : Outcome Nat}
    (hacts : acts = before ++ .write data (.done n) :: .write next outcome :: after)
    (hn : n < data.length) : next = data.drop n := by
  subst hacts
  have hdata := h.offers.at
  have hoffers := h.offers
  rw [List.append_cons] at hoffers
  have hnext := hoffers.at
  have hlength : (Act.write data (.done n)).passed.length = n := by
    rw [Act.passed, List.length_take_of_le (Nat.le_of_lt hn)]
  rw [← pieceFrom_pieces] at hdata hnext
  rw [passed_append, passed_cons, passed_nil, List.append_nil, List.length_append, hlength,
    ← Nat.add_assoc, pieceFrom_add (hdata ▸ hn), ← hdata] at hnext
  exact hnext

/-- What breaks is the last act, and its reason is the reason of the whole. -/
theorem Sends.firstBreak?_eq (h : Sends pace target e s now acts s' later) {a : Act}
    (ha : a ∈ acts) (hb : a.Breaks) :
    firstBreak? pace.writeMs acts = breakReason? pace.writeMs a := by
  obtain ⟨front, b, hacts⟩ := (List.eq_nil_or_concat acts).resolve_left (List.ne_nil_of_mem ha)
  rw [List.concat_eq_append] at hacts
  have hlast := h.last
  rw [hacts, List.dropLast_concat] at hlast
  rw [hacts, List.mem_append, List.mem_singleton] at ha
  obtain hmem | rfl := ha
  · exact absurd hb (hlast a hmem)
  · rw [hacts, firstBreak?_append, firstBreak?_eq_none_iff.2 hlast]
    simp [firstBreak?]

end Sending

/-- What is made of a reply, for a request of so many bytes. -/
def delivered (length : Nat) (reply : Except Reply.Fault Reply) : Except Fault Delivery :=
  (reply.mapError Fault.ofReply).map (⟨·, length⟩)

/-- What an exchange comes to, when these acts have been tried and the reply is then read. -/
def exchanged (pace : Pace) (acts : List Act) (length : Nat)
    (reply : Except Reply.Fault Reply) : Except Fault Delivery :=
  match firstBreak? pace.writeMs acts with
  | some reason => .error (.write (passed acts).length reason)
  | none => delivered length reply

theorem exchanged_of_flush {pace : Pace} {acts : List Act} {length : Nat}
    {reply : Except Reply.Fault Reply} (h : firstBreak? pace.writeMs acts = none)
    (outcome : Outcome Unit) :
    exchanged pace (acts ++ [.flush outcome]) length reply =
      match outcome with
      | .late => .error (.write (passed acts).length "flush timed out")
      | .failed reason => .error (.write (passed acts).length reason)
      | .done () => delivered length reply := by
  have hflush : firstBreak? pace.writeMs (acts ++ [.flush outcome]) =
      breakReason? pace.writeMs (.flush outcome) := by
    rw [firstBreak?_append, h]
    simp [firstBreak?]
  rw [exchanged, hflush]
  cases outcome <;> simp [breakReason?]

/-- What is made of a reply is never taken for a failure to write. -/
theorem judge_delivered_ne_write (length sent : Nat) (reply : Except Reply.Fault Reply)
    (reason : String) :
    Uplink.judge (delivered length reply) ≠ .error (.write sent reason) := by
  cases reply with
  | error fault =>
      cases fault <;> simp [delivered, Uplink.judge, Except.mapError, Except.map, Fault.ofReply]
  | ok reply =>
      simp only [delivered, Uplink.judge, Except.mapError, Except.map]
      split <;> simp

theorem judge_eq_ok_iff {result : Except Fault Delivery} {d : Delivery} :
    Uplink.judge result = .ok d ↔ result = .ok d ∧ d.reply.isSuccess = true := by
  cases result with
  | error fault => simp [Uplink.judge]
  | ok d' =>
      simp only [Uplink.judge, Except.ok.injEq]
      by_cases hgood : d'.reply.isSuccess = true
      · rw [if_pos hgood]
        constructor
        · rintro ⟨⟩
          exact ⟨rfl, hgood⟩
        · rintro ⟨rfl, -⟩
          rfl
      · rw [if_neg hgood]
        constructor
        · intro h
          contradiction
        · rintro ⟨rfl, h⟩
          exact absurd h hgood

theorem exchanged_eq_ok_iff {pace : Pace} {acts : List Act} {length : Nat}
    {reply : Except Reply.Fault Reply} {d : Delivery} :
    exchanged pace acts length reply = .ok d ↔
      (∀ a ∈ acts, ¬a.Breaks) ∧ reply = .ok d.reply ∧ d.sent = length := by
  unfold exchanged
  rw [← firstBreak?_eq_none_iff]
  cases firstBreak? pace.writeMs acts with
  | some reason => simp
  | none =>
      cases reply with
      | error fault => simp [delivered, Except.mapError, Except.map]
      | ok reply =>
          obtain ⟨reply', sent⟩ := d
          simp [delivered, Except.mapError, Except.map, eq_comm]

/-- The result that a request earns by its acts and by the reply behind them. It is a delivery only
if no act breaks, the reply can be read and its status is good; else it is the error of what went
wrong first. -/
structure Earns (acts : List Act) (length : Nat) (reply : Except Reply.Fault Reply)
    (result : Except Fault Delivery) : Prop where
  of_break : (∃ a ∈ acts, a.Breaks) →
    ∃ reason, result = .error (.write (passed acts).length reason)
  of_fault : (∀ a ∈ acts, ¬a.Breaks) → ∀ fault, reply = .error fault →
    result = .error (.ofReply fault)
  of_status : (∀ a ∈ acts, ¬a.Breaks) → ∀ r, reply = .ok r →
    ¬(200 ≤ r.status ∧ r.status < 300) → result = .error (.status r.status)
  of_success : (∀ a ∈ acts, ¬a.Breaks) → ∀ r, reply = .ok r →
    200 ≤ r.status → r.status < 300 → result = .ok ⟨r, length⟩

/-- What an exchange comes to, when it is judged, is what the request earns. -/
theorem earns_judge_exchanged (pace : Pace) (acts : List Act) (length : Nat)
    (reply : Except Reply.Fault Reply) :
    Earns acts length reply (Uplink.judge (exchanged pace acts length reply)) := by
  have hwhole (hgood : ∀ a ∈ acts, ¬a.Breaks) :
      exchanged pace acts length reply = delivered length reply := by
    rw [exchanged, firstBreak?_eq_none_iff.2 hgood]
  constructor
  case of_break =>
    rintro ⟨a, ha, hb⟩
    obtain ⟨reason, hreason⟩ : ∃ reason, firstBreak? pace.writeMs acts = some reason :=
      Option.ne_none_iff_exists'.1 fun hnone => firstBreak?_eq_none_iff.1 hnone a ha hb
    rw [exchanged, hreason]
    exact ⟨reason, rfl⟩
  case of_fault =>
    rintro hgood fault rfl
    rw [hwhole hgood]
    rfl
  case of_status =>
    rintro hgood r rfl hstatus
    rw [← Reply.isSuccess_iff] at hstatus
    rw [hwhole hgood]
    exact if_neg hstatus
  case of_success =>
    rintro hgood r rfl hle hlt
    rw [hwhole hgood]
    exact if_pos (Reply.isSuccess_iff.2 ⟨hle, hlt⟩)

/-- An exchange sends the request, and reads a reply behind it if nothing breaks. -/
theorem exchange_sends (pace : Pace) (target : Address) (e : Envelope) (now : Nat) (r : Reader) :
    ∃ acts s later, Sends pace target e r.stream now acts s later ∧
      (exchange pace target e now r).reader.stream.outlet = s.outlet ∧
      (exchange pace target e now r).result = exchanged pace acts (e.wire target).length
        (Reply.receive pace.reply later { r with stream := s }).result := by
  obtain ⟨acts, hpassage, hsent, hbreak⟩ :=
    writePieces_passage pace.writeMs (e.pieces target pace.chunkSize) ⟨0, now, r.stream⟩
  unfold exchange
  split
  · rename_i p reason heq
    rw [heq] at hpassage hsent hbreak
    refine ⟨acts, _, _, sends_of_broken hpassage, rfl, ?_⟩
    rw [exchanged, ← hbreak, hsent, Nat.zero_add]
  · rename_i p heq
    rw [heq] at hpassage hsent hbreak
    have hwire := hpassage.whole_iff.1 rfl
    rw [pieces_flatten] at hwire
    refine ⟨_, _, _, sends_of_whole hpassage, ?_⟩
    have hlength : p.sent = (passed acts).length := by
      rw [hsent]
      exact Nat.zero_add _
    rw [exchanged_of_flush hbreak.symm, ← hlength]
    dsimp only
    cases hf : (p.stream.flush (p.now + pace.writeMs) p.now).outcome with
    | late => exact ⟨rfl, rfl⟩
    | failed reason => exact ⟨rfl, rfl⟩
    | done value =>
        have hreply := Reply.outlet_receive pace.reply
          (p.stream.flush (p.now + pace.writeMs) p.now).now
          { r with stream := (p.stream.flush (p.now + pace.writeMs) p.now).state }
        rw [hlength, hwire]
        dsimp only
        generalize Reply.receive pace.reply _ _ = step at hreply ⊢
        cases hresult : step.result with
        | ok reply => exact ⟨hreply, rfl⟩
        | error fault => exact ⟨hreply, rfl⟩

namespace Uplink

theorem send_of_refused {pace : Pace} {target : Address} {now later : Nat} {u u' : Uplink}
    {fault : Fault} (e : Envelope) (h : u.connect target now = (.error fault, later, u')) :
    u.send pace target e now = (.error fault, later, u') := by
  simp only [send, h]

theorem send_of_connected {pace : Pace} {target : Address} {now start : Nat} {u u' : Uplink}
    {c : Connection} (e : Envelope) (h : u.connect target now = (.ok c, start, u')) :
    let x := exchange pace target e start c.reader
    let after : Uplink := { u' with held := some { c with reader := x.reader } }
    u.send pace target e now =
      (judge x.result, x.now, if keeps (judge x.result) then after else after.close) := by
  simp only [send, h]

/-- On a connection the request is sent and the result is judged. No other stream is touched, and
the connection is dropped unless the result is good. -/
theorem send_sends {pace : Pace} {target : Address} {now start : Nat} {u u' : Uplink}
    {c : Connection} (e : Envelope) (h : u.connect target now = (.ok c, start, u')) :
    ∃ acts s later, Sends pace target e c.reader.stream start acts s later ∧
      (u.send pace target e now).1 = judge (exchanged pace acts (e.wire target).length
        (Reply.receive pace.reply later { c.reader with stream := s }).result) ∧
      (∃ others, u'.outlets = others ++ [(c.authority, some c.reader.stream.outlet)] ∧
        (u.send pace target e now).2.2.outlets = others ++ [(c.authority, some s.outlet)]) ∧
      ∀ fault, (u.send pace target e now).1 = .error fault →
        (u.send pace target e now).2.2.held = none := by
  obtain ⟨hheld, -, -⟩ := connect_ok h
  obtain ⟨acts, s, later, hsends, houtlet, hresult⟩ :=
    exchange_sends pace target e start c.reader
  rw [send_of_connected e h]
  refine ⟨acts, s, later, hsends, congrArg judge hresult, ⟨_, outlets_of_held hheld, ?_⟩, ?_⟩
  · rw [← houtlet]
    dsimp only
    split
    · exact outlets_with_held ..
    · exact (outlets_close _).trans (outlets_with_held ..)
  · intro fault hfault
    dsimp only at hfault ⊢
    rw [hfault]
    exact held_close _

end Uplink

/-- The bytes that one request writes, all on one stream, are a beginning of the request, whatever
the stream takes at a time. Each write offers the rest of one piece, and of the image at most one
chunk. A reply is awaited exactly when all of the request is taken and flushed; else the request
fails with the number of bytes that were taken before the act that broke. -/
theorem send_passes_wire (pace : Pace) (target : Address) (e : Envelope) (now : Nat) (u : Uplink) :
    let v := u.send pace target e now
    (∀ fault later u', u.connect target now = (.error fault, later, u') →
      v = (.error fault, later, u') ∧ u'.outlets = u.outlets ++ [(target.authority, none)]) ∧
    ∀ c start u', u.connect target now = (.ok c, start, u') → ∃ acts s later others,
      Sends pace target e c.reader.stream start acts s later ∧
      s.written = c.reader.stream.written ++ passed acts ∧
      (u.outlets = others ∨
        u.outlets = others ++ [(c.authority, some c.reader.stream.outlet)]) ∧
      v.2.2.outlets = others ++ [(c.authority, some s.outlet)] ∧
      (∀ before data outcome after k, acts = before ++ .write data outcome :: after →
        k < e.image.length →
        (passed before).length =
          (Utf8.encode (e.requestHead target)).length + e.head.length + k →
          data.length ≤ max pace.chunkSize 1 ∧
            data = chunkFrom (max pace.chunkSize 1) e.image k) ∧
      (∀ before data n next outcome after,
        acts = before ++ .write data (.done n) :: .write next outcome :: after →
        n < data.length → next = data.drop n) ∧
      ((∀ a ∈ acts, ¬a.Breaks) →
        v.1 = Uplink.judge (delivered (e.wire target).length
          (Reply.receive pace.reply later { c.reader with stream := s }).result)) ∧
      (∀ a ∈ acts, a.Breaks → ∃ reason, breakReason? pace.writeMs a = some reason ∧
        v.1 = .error (.write (passed acts).length reason)) ∧
      ((∃ sent reason, v.1 = .error (.write sent reason)) → ∃ a ∈ acts, a.Breaks) := by
  intro v
  constructor
  · intro fault later u' h
    exact ⟨Uplink.send_of_refused e h, (Uplink.connect_error h).2.2⟩
  · intro c start u' h
    obtain ⟨acts, s, later, hsends, hresult, ⟨others, hbefore, hafter⟩, -⟩ :=
      Uplink.send_sends e h
    have hwhole : (∀ a ∈ acts, ¬a.Breaks) → v.1 = Uplink.judge (delivered (e.wire target).length
        (Reply.receive pace.reply later { c.reader with stream := s }).result) := by
      intro hgood
      rw [hresult, exchanged, firstBreak?_eq_none_iff.2 hgood]
    refine ⟨acts, s, later, others, hsends, hsends.performs.written_eq,
      Uplink.outlets_of_connect h hbefore, hafter, ?_,
      fun _ _ _ _ _ _ hacts => hsends.next_write hacts, hwhole, ?_, ?_⟩
    · intro before data outcome after k hacts hk hlength
      obtain rfl := hsends.image_write hacts hk hlength
      exact ⟨length_chunkFrom_le .., rfl⟩
    · intro a ha hb
      obtain ⟨reason, hreason⟩ : ∃ reason, breakReason? pace.writeMs a = some reason :=
        Option.ne_none_iff_exists'.1 fun hnone => breakReason?_eq_none_iff.1 hnone hb
      refine ⟨reason, hreason, ?_⟩
      rw [hresult, exchanged, hsends.firstBreak?_eq ha hb, hreason]
      rfl
    · rintro ⟨sent, reason, hv⟩
      by_contra hnone
      refine judge_delivered_ne_write _ _ _ _ ((hwhole fun a ha hb => ?_).symm.trans hv)
      exact hnone ⟨a, ha, hb⟩

/-- A request to a new stream that takes seven bytes at a time, with chunks of size zero. -/
theorem send_passes_small_writes :
    let s : Stream := { maxWrite := some 7, arrivals := [.untilFlush 1,
      .bytes (Utf8.encode "HTTP/1.1 200 OK\r\n\r\n")] }
    let target : Address := ⟨"h", 80, "/"⟩
    let e : Envelope := ⟨"b", [1, 2], [3, 4, 5], [6]⟩
    (Uplink.send { chunkSize := 0 } target e 0 { dials := [⟨0, .ok s⟩] }).1 =
        .ok ⟨⟨200, "HTTP/1.1 200 OK", [], true⟩, (e.wire target).length⟩ ∧
      ∃ acts s' later, Sends { chunkSize := 0 } target e s 0 acts s' later ∧
        s'.written = e.wire target := by
  intro s target e
  have hresult : (Uplink.send { chunkSize := 0 } target e 0 { dials := [⟨0, .ok s⟩] }).1 =
      .ok ⟨⟨200, "HTTP/1.1 200 OK", [], true⟩, (e.wire target).length⟩ := by decide +kernel
  obtain ⟨acts, s', later, -, hsends, hwritten, -, -, -, -, -, hbreaks, -⟩ :=
    (send_passes_wire { chunkSize := 0 } target e 0 { dials := [⟨0, .ok s⟩] }).2
      ⟨target.authority, { stream := s }⟩ 0 _ rfl
  have hgood : ∀ a ∈ acts, ¬a.Breaks := by
    intro a ha hb
    obtain ⟨reason, -, hfailed⟩ := hbreaks a ha hb
    cases hresult.symm.trans hfailed
  have hempty : s.written = [] := rfl
  refine ⟨hresult, acts, s', later, hsends, ?_⟩
  calc
    s'.written = s.written ++ passed acts := hwritten
    _ = [] ++ e.wire target := congrArg₂ _ hempty (hsends.whole.2 hgood).1
    _ = e.wire target := List.nil_append _

end FieldCamera.Upload
