import FieldCamera.Proofs.Upload.Holding
import FieldCamera.Proofs.Upload.ReplyCourse
/-!
# No false success

A post succeeds only when the whole request has been taken by one stream and the course of that
stream spells a good status line. Whatever else comes of it, no connection is left that could
carry a half-finished exchange into the next post.
-/

namespace FieldCamera.Upload

open Link

/-- The course spells a good reply, and the receipt is for it. The status line is complete; the
headers are, or the stream ends in them; the body may be whatever it is. -/
def Acknowledges (limits : Reply.Limits) (c : Course) (receipt : Receipt) : Prop :=
  ∃ line rest, Text.cut '\n'.toUInt8 (c.heard limits.idleMs) = some (line, rest) ∧
    statusCode? (Reply.statusText limits.line line).toList = some receipt.status ∧
    200 ≤ receipt.status ∧ receipt.status < 300 ∧
    ((Reply.afterHeaders limits.line rest).isSome ∨ c.endsWithin limits.idleMs = true) ∧
    receipt.report =
      Report.ofBody? (((Reply.afterHeaders limits.line rest).getD []).take limits.body)

/-- What a course acknowledges is what a good reply says that it spells. -/
theorem acknowledges_iff {limits : Reply.Limits} {c : Course} {receipt : Receipt} :
    Acknowledges limits c receipt ↔ ∃ reply, Reply.ofCourse limits c = .ok reply ∧
      reply.isSuccess = true ∧ receipt.status = reply.status ∧
      receipt.report = Report.ofBody? reply.body := by
  unfold Reply.ofCourse Reply.ofHeard
  constructor
  · rintro ⟨line, rest, hcut, hstatus, hle, hlt, hrest, hreport⟩
    simp only [hcut, hstatus, Reply.ofRest_eq_ok_iff]
    exact ⟨_, ⟨hrest, rfl⟩, Reply.isSuccess_iff.2 ⟨hle, hlt⟩, rfl, hreport⟩
  · rintro ⟨reply, hreply, hgood, hstatus, hreport⟩
    split at hreply
    · split at hreply <;> cases hreply
    · rename_i line rest hcut
      split at hreply
      · cases hreply
      · rename_i status hcode
        obtain ⟨hrest, rfl⟩ := Reply.ofRest_eq_ok_iff.1 hreply
        rw [Reply.isSuccess_iff, ← hstatus] at hgood
        exact ⟨line, rest, hcut, hstatus ▸ hcode, hgood.1, hgood.2, hrest, hreport⟩

/-- What a post tells of a delivery. -/
def Delivery.receipt (d : Delivery) : Receipt :=
  ⟨d.reply.status, d.sent, Report.ofBody? d.reply.body⟩

theorem exists_of_map_eq_ok {α β ε : Type} {f : α → β} {result : Except ε α} {b : β}
    (h : result.map f = .ok b) : ∃ a, result = .ok a ∧ f a = b := by
  cases result with
  | error fault => contradiction
  | ok a => exact ⟨a, rfl, Except.ok.inj h⟩

theorem eq_error_of_map_eq_error {α β ε : Type} {f : α → β} {result : Except ε α} {fault : ε}
    (h : result.map f = .error fault) : result = .error fault := by
  cases result with
  | error cause => exact congrArg Except.error (Except.error.inj h)
  | ok a => contradiction

section Sending

variable {pace : Pace} {target : Address} {e : Envelope} {now : Nat} {u : Uplink}

theorem connect_of_send_ok {d : Delivery} (h : (u.send pace target e now).1 = .ok d) :
    ∃ c start u', u.connect target now = (.ok c, start, u') := by
  rcases hconnect : u.connect target now with ⟨result, start, u'⟩
  cases result with
  | error fault =>
      rw [Uplink.send_of_refused e hconnect] at h
      contradiction
  | ok c => exact ⟨c, start, u', rfl⟩

/-- A request succeeds if all of it is taken and the course of the stream then acknowledges it; and,
behind a reader that can hold something, only if. -/
theorem send_acknowledged (pace : Pace) (e : Envelope) {c : Connection} {start : Nat}
    {u' : Uplink} (h : u.connect target now = (.ok c, start, u')) :
    ∃ acts s later, Sends pace target e c.reader.stream start acts s later ∧
      (∃ others, (u.outlets = others ∨
          u.outlets = others ++ [(c.authority, some c.reader.stream.outlet)]) ∧
        (u.send pace target e now).2.2.outlets = others ++ [(c.authority, some s.outlet)]) ∧
      (∀ d, (u.send pace target e now).1 = .ok d → (∀ a ∈ acts, ¬a.Breaks) ∧
        Acknowledges pace.reply (s.course later) d.receipt ∧ d.sent = (e.wire target).length) ∧
      (0 < c.reader.capacity → (∀ a ∈ acts, ¬a.Breaks) → ∀ receipt,
        Acknowledges pace.reply (s.course later) receipt →
          receipt.sent = (e.wire target).length →
            ∃ d, (u.send pace target e now).1 = .ok d ∧ d.receipt = receipt) := by
  obtain ⟨-, hbuffer, -⟩ := Uplink.connect_ok h
  obtain ⟨acts, s, later, hsends, hresult, ⟨others, hbefore, hafter⟩, -⟩ := Uplink.send_sends e h
  refine ⟨acts, s, later, hsends, ⟨others, Uplink.outlets_of_connect h hbefore, hafter⟩, ?_, ?_⟩
  · intro d hd
    rw [hresult, judge_eq_ok_iff, exchanged_eq_ok_iff] at hd
    obtain ⟨⟨hgood, hreply, hsent⟩, hsuccess⟩ := hd
    have hcourse := Reply.ofCourse_of_receive (r := { c.reader with stream := s }) hbuffer hreply
    exact ⟨hgood, acknowledges_iff.2 ⟨d.reply, hcourse, hsuccess, rfl, rfl⟩, hsent⟩
  · intro hcap hgood receipt hack hsent
    obtain ⟨reply, hcourse, hsuccess, hstatus, hreport⟩ := acknowledges_iff.1 hack
    have hreply := Reply.receive_result pace.reply later { c.reader with stream := s } hcap
    rw [Reader.course_of_buffer_eq_nil (r := { c.reader with stream := s }) hbuffer] at hreply
    refine ⟨⟨reply, receipt.sent⟩, ?_, ?_⟩
    · rw [hresult, judge_eq_ok_iff, exchanged_eq_ok_iff]
      exact ⟨⟨hgood, hreply.trans hcourse, hsent⟩, hsuccess⟩
    · rw [Delivery.receipt, ← hstatus, ← hreport]

/-- Where no connection is held, a request opens a new one or is refused. -/
theorem outlets_send_of_held_none (h : u.held = none) :
    ∃ stream, (u.send pace target e now).2.2.outlets =
      u.outlets ++ [(target.authority, stream)] := by
  have hroom : u.Roomy := by simp [Uplink.Roomy, h]
  have hunfit : ∀ c, ¬u.Fit now c := by simp [Uplink.Fit, h]
  obtain ⟨-, -, hafter⟩ | ⟨_, _, _, stream, _, -, -, -, hafter, -⟩ :=
    Uplink.exchange_of_unfit pace target e hroom hunfit
  · exact ⟨none, hafter⟩
  · exact ⟨some stream.outlet, hafter⟩

end Sending

/-- Whether a fault comes before anything is done on the connection. -/
def Fault.Early : Fault → Prop
  | capture _ | url _ => True
  | _ => False

theorem not_early_ofReply (fault : Reply.Fault) : ¬(Fault.ofReply fault).Early := by
  cases fault <;> simp [Fault.ofReply, Fault.Early]

theorem not_early_judge_exchanged {pace : Pace} {acts : List Act} {length : Nat}
    {reply : Except Reply.Fault Reply} {fault : Fault}
    (h : Uplink.judge (exchanged pace acts length reply) = .error fault) : ¬fault.Early := by
  unfold exchanged at h
  split at h
  · cases h
    exact id
  · cases reply with
    | error cause =>
        cases h
        exact not_early_ofReply cause
    | ok reply =>
        simp only [delivered, Except.mapError, Except.map, Uplink.judge] at h
        split at h
        · contradiction
        · cases h
          exact id

theorem not_early_send {pace : Pace} {target : Address} {e : Envelope} {now : Nat} {u : Uplink}
    {fault : Fault} (h : (u.send pace target e now).1 = .error fault) : ¬fault.Early := by
  rcases hconnect : u.connect target now with ⟨result, later, u'⟩
  cases result with
  | error refusal =>
      obtain ⟨⟨reason, rfl⟩, -, -⟩ := Uplink.connect_error hconnect
      rw [Uplink.send_of_refused e hconnect] at h
      cases h
      exact id
  | ok c =>
      obtain ⟨acts, s, later, -, hresult, -, -⟩ := Uplink.send_sends e hconnect
      exact not_early_judge_exchanged (hresult.symm.trans h)

section Posting

variable {sender : Sender} {pace : Pace} {stamp : Stamp} {frame : Capture} {url : String}
  {now : Nat} {u : Uplink} {image : List UInt8} {target : Address}

/-- With a frame and an address a post is one request. -/
theorem post_of_target (hframe : frame = .ok image) (hurl : Address.ofUrl url = .ok target) :
    let v := u.send pace target (sender.envelope stamp image) now
    post sender pace stamp frame url now u = (v.1.map Delivery.receipt, v.2) := by
  subst hframe
  simp only [post, errand, hurl]
  split
  · rename_i heq
    rw [heq]
    rfl
  · rename_i heq
    rw [heq]
    rfl

/-- A post fails early, with nothing done, or is one request. -/
theorem post_cases (sender : Sender) (pace : Pace) (stamp : Stamp) (frame : Capture) (url : String)
    (now : Nat) (u : Uplink) :
    (∃ cause, frame = .error cause ∧
      post sender pace stamp frame url now u = (.error (.capture cause), now, u)) ∨
    (∃ image cause, frame = .ok image ∧ Address.ofUrl url = .error cause ∧
      post sender pace stamp frame url now u = (.error (.url cause), now, u)) ∨
    ∃ image target, frame = .ok image ∧ Address.ofUrl url = .ok target := by
  cases frame with
  | error cause => exact .inl ⟨cause, rfl, rfl⟩
  | ok image =>
      cases hurl : Address.ofUrl url with
      | error cause =>
          refine .inr (.inl ⟨image, cause, rfl, rfl, ?_⟩)
          simp only [post, errand, hurl]
      | ok target => exact .inr (.inr ⟨image, target, rfl, rfl⟩)

/-- A post that succeeds has sent its whole request, and the course of the same stream acknowledges
it with the receipt. -/
theorem post_ok {receipt : Receipt} (h : (post sender pace stamp frame url now u).1 = .ok receipt) :
    ∃ image target c start u' acts s later,
      frame = .ok image ∧ Address.ofUrl url = .ok target ∧
      u.connect target now = (.ok c, start, u') ∧
      Sends pace target (sender.envelope stamp image) c.reader.stream start acts s later ∧
      (∀ a ∈ acts, ¬a.Breaks) ∧
      (∃ others, (u.outlets = others ∨
          u.outlets = others ++ [(c.authority, some c.reader.stream.outlet)]) ∧
        (post sender pace stamp frame url now u).2.2.outlets =
          others ++ [(c.authority, some s.outlet)]) ∧
      Acknowledges pace.reply (s.course later) receipt ∧
      receipt.sent = ((sender.envelope stamp image).wire target).length := by
  obtain ⟨cause, -, hearly⟩ | ⟨image, cause, -, -, hearly⟩ | ⟨image, target, hframe, hurl⟩ :=
    post_cases sender pace stamp frame url now u
  · rw [hearly] at h
    contradiction
  · rw [hearly] at h
    contradiction
  · rw [post_of_target hframe hurl] at h ⊢
    obtain ⟨d, hd, rfl⟩ := exists_of_map_eq_ok h
    obtain ⟨c, start, u', hconnect⟩ := connect_of_send_ok hd
    obtain ⟨acts, s, later, hsends, houtlets, hok, -⟩ :=
      send_acknowledged pace (sender.envelope stamp image) hconnect
    obtain ⟨hgood, hack, hsent⟩ := hok d hd
    exact ⟨image, target, c, start, u', acts, s, later, hframe, hurl, hconnect, hsends, hgood,
      houtlets, hack, hsent⟩

end Posting

/-- A post succeeds only if there was a frame and an address, all of the request, the image of the
frame with it, was taken and flushed by one stream, and the course of that stream then acknowledged
it; behind a reader that can hold something this is enough, whatever the body is. A post that fails
for want of a frame or an address has done nothing. After any other failure no connection is held,
so that the next request opens a new one. -/
theorem no_false_success (sender : Sender) (pace : Pace) (stamp : Stamp) (frame : Capture)
    (url : String) (now : Nat) (u : Uplink) :
    let v := post sender pace stamp frame url now u
    (∀ receipt, v.1 = .ok receipt → ∃ image target c start u' acts s later,
      frame = .ok image ∧ Address.ofUrl url = .ok target ∧
      u.connect target now = (.ok c, start, u') ∧
      Sends pace target (sender.envelope stamp image) c.reader.stream start acts s later ∧
      passed acts = (sender.envelope stamp image).wire target ∧
      passed acts = Utf8.encode ((sender.envelope stamp image).requestHead target) ++
        (sender.envelope stamp image).head ++ image ++ (sender.envelope stamp image).tail ∧
      .flush (.done ()) ∈ acts ∧
      (∃ others, (u.outlets = others ∨
          u.outlets = others ++ [(c.authority, some c.reader.stream.outlet)]) ∧
        v.2.2.outlets = others ++ [(c.authority, some s.outlet)]) ∧
      Acknowledges pace.reply (s.course later) receipt ∧
      receipt.sent = ((sender.envelope stamp image).wire target).length) ∧
    (∀ image target c start u', frame = .ok image → Address.ofUrl url = .ok target →
      u.connect target now = (.ok c, start, u') → 0 < c.reader.capacity → ∃ acts s later,
        Sends pace target (sender.envelope stamp image) c.reader.stream start acts s later ∧
        ∀ receipt, (∀ a ∈ acts, ¬a.Breaks) → Acknowledges pace.reply (s.course later) receipt →
          receipt.sent = ((sender.envelope stamp image).wire target).length →
            v.1 = .ok receipt) ∧
    ∀ fault, v.1 = .error fault →
      (∃ cause, fault = .capture cause ∧ frame = .error cause ∧ v.2 = (now, u)) ∨
      (∃ cause, fault = .url cause ∧ Address.ofUrl url = .error cause ∧ v.2 = (now, u)) ∨
      (¬fault.Early ∧ v.2.2.held = none ∧
        ∀ sender' pace' stamp' image' url' target' now', Address.ofUrl url' = .ok target' →
          ∃ stream, (post sender' pace' stamp' (.ok image') url' now' v.2.2).2.2.outlets =
            v.2.2.outlets ++ [(target'.authority, stream)]) := by
  intro v
  refine ⟨?_, ?_, ?_⟩
  · intro receipt hok
    obtain ⟨image, target, c, start, u', acts, s, later, hframe, hurl, hconnect, hsends, hgood,
      houtlets, hack, hsent⟩ := post_ok hok
    obtain ⟨hwire, hflush⟩ := hsends.whole.2 hgood
    have hparts : passed acts = Utf8.encode ((sender.envelope stamp image).requestHead target) ++
        (sender.envelope stamp image).head ++ image ++ (sender.envelope stamp image).tail := hwire
    exact ⟨image, target, c, start, u', acts, s, later, hframe, hurl, hconnect, hsends, hwire,
      hparts, hflush, houtlets, hack, hsent⟩
  -- The capacity counts here only: without room in its buffer the reader would hear nothing.
  · intro image target c start u' hframe hurl hconnect hcap
    obtain ⟨acts, s, later, hsends, -, -, henough⟩ :=
      send_acknowledged pace (sender.envelope stamp image) hconnect
    refine ⟨acts, s, later, hsends, ?_⟩
    intro receipt hgood hack hsent
    obtain ⟨d, hd, rfl⟩ := henough hcap hgood receipt hack hsent
    simp only [v, post_of_target hframe hurl, hd]
    rfl
  · intro fault hfault
    obtain ⟨cause, hframe, hearly⟩ | ⟨image, cause, -, hurl, hearly⟩ |
      ⟨image, target, hframe, hurl⟩ := post_cases sender pace stamp frame url now u
    · have hcause : Fault.capture cause = fault := by simpa [v, hearly] using hfault
      exact .inl ⟨cause, hcause.symm, hframe, by simp [v, hearly]⟩
    · have hcause : Fault.url cause = fault := by simpa [v, hearly] using hfault
      exact .inr (.inl ⟨cause, hcause.symm, hurl, by simp [v, hearly]⟩)
    · have hpost : v = _ := post_of_target hframe hurl
      rw [hpost] at hfault ⊢
      have hsend := eq_error_of_map_eq_error hfault
      have hheld := Uplink.held_eq_none_iff.2 (Uplink.isConnected_send_of_error hsend)
      refine .inr (.inr ⟨not_early_send hsend, hheld, ?_⟩)
      intro sender' pace' stamp' image' url' target' now' hurl'
      rw [post_of_target rfl hurl']
      exact outlets_send_of_held_none hheld

/-- A post to a new stream, on which the status line is followed by bytes that are no text. -/
theorem post_with_unreadable_body :
    let sender : Sender := ⟨7, 0.5⟩
    let s : Stream := { arrivals := [.untilFlush 1,
      .bytes (Utf8.encode "HTTP/1.1 204 No\r\n\r\n" ++ [0xFF, 0xFE])] }
    let wire := (sender.envelope ⟨"f.jpg", "b"⟩ [1, 2]).wire ⟨"h", 80, "/"⟩
    (post sender {} ⟨"f.jpg", "b"⟩ (.ok [1, 2]) "http://h/" 0 { dials := [⟨0, .ok s⟩] }).1 =
        .ok ⟨204, wire.length, none⟩ ∧
      ∃ (acts : List Act) (s' : Stream) (later : Nat),
        passed acts = wire ∧ .flush (.done ()) ∈ acts ∧
          Acknowledges {} (s'.course later) ⟨204, wire.length, none⟩ := by
  intro sender s wire
  have hok : (post sender {} ⟨"f.jpg", "b"⟩ (.ok [1, 2]) "http://h/" 0
      { dials := [⟨0, .ok s⟩] }).1 = .ok ⟨204, wire.length, none⟩ := by decide +kernel
  have htarget : Address.ofUrl "http://h/" = .ok ⟨"h", 80, "/"⟩ := by decide +kernel
  obtain ⟨image, target, c, start, u', acts, s', later, hframe, hurl, -, -, hwire, -, hflush, -,
    hack, -⟩ := (no_false_success sender {} ⟨"f.jpg", "b"⟩ (.ok [1, 2]) "http://h/" 0
      { dials := [⟨0, .ok s⟩] }).1 _ hok
  obtain rfl := Except.ok.inj hframe
  obtain rfl := Except.ok.inj (htarget.symm.trans hurl)
  exact ⟨hok, acts, s', later, hwire, hflush, hack⟩

end FieldCamera.Upload
