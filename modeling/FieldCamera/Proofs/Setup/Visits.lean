import FieldCamera.Proofs.Link.Writing
import FieldCamera.Proofs.Setup.Hearing
/-!
# The visit of a client as a whole

Who comes with which request, and when, is told by the course of the client's stream alone. If the
request is settled in time, the whole response to it is offered to the client, and what the client
takes is a beginning of it; else not a byte is written and nothing has changed.
-/

namespace FieldCamera.Setup

open Link Request

theorem outlet_hear (patience : Patience) (deadline : Nat) (r : Receiver) (now : Nat)
    (s : Stream) : (hear patience deadline r now s).stream.outlet = s.outlet := by
  fun_induction hear patience deadline r now s with
  | case6 r now s t bytes ht hb fed hfault hcomplete ih => exact ih
  | _ => rfl

/-- Data is said in one passage, which is whole if the saying is done. -/
theorem say_passage (data : List UInt8) (deadline now : Nat) (s : Stream) :
    ∃ acts, Passage (fun _ => deadline) [data] s now acts (say data deadline now s).state
      (say data deadline now s).now (decide ((say data deadline now s).outcome = .done ())) := by
  fun_induction say data deadline now s with
  | case1 now s => exact ⟨[], .skip (.nil s now)⟩
  | case2 data now s hdata t hlate => exact ⟨_, .broken hdata hlate trivial⟩
  | case3 data now s hdata t reason hf => exact ⟨_, .broken hdata hf trivial⟩
  | case4 data now s hdata t hzero => exact ⟨_, .broken hdata hzero rfl⟩
  | case5 data now s hdata t n hn ih =>
      obtain ⟨acts, ih⟩ := ih
      exact ⟨_, .taken hdata hn ih⟩

/-- Saying has to do with the writing side only. -/
theorem say_outlet (data : List UInt8) (deadline now : Nat) (s : Stream) :
    say data deadline now s.outlet =
      ⟨(say data deadline now s).outcome, (say data deadline now s).now,
        (say data deadline now s).state.outlet⟩ := by
  fun_induction say data deadline now s with
  | case1 now s => rw [say, dif_pos rfl]
  | case2 data now s hdata t hlate =>
      rw [say, dif_neg hdata, Stream.write_outlet]
      simp [t, show (s.write data deadline now).outcome = .late from hlate]
  | case3 data now s hdata t reason hf =>
      rw [say, dif_neg hdata, Stream.write_outlet]
      simp [t, show (s.write data deadline now).outcome = .failed reason from hf]
  | case4 data now s hdata t hzero =>
      rw [say, dif_neg hdata, Stream.write_outlet]
      simp [t, show (s.write data deadline now).outcome = .done 0 from hzero]
  | case5 data now s hdata t n hn ih =>
      rw [say, dif_neg hdata, Stream.write_outlet]
      simp only [show (s.write data deadline now).outcome = .done (n + 1) from hn]
      exact ih

theorem deliver_outlet (patience : Patience) (a : Answer) (now : Nat) (s : Stream) :
    deliver patience a now s.outlet =
      ((deliver patience a now s).1, (deliver patience a now s).2.outlet) := by
  unfold deliver
  rw [say_outlet]
  dsimp only
  split <;> rfl

/-- No byte is waited for longer than the patience allows, and the whole does not take too long. -/
structure InTime (patience : Patience) (c : Course) (t : Nat) : Prop where
  silence : ∀ w ∈ c.waitsBy t, w ≤ patience.idleMs
  whole : t ≤ patience.requestMs

/-- The acts are all that is tried on the stream `s` in saying `data`, from `start` to `later`.
Each write offers all that is left of it, until nothing is left or an act breaks, and only when
nothing is left the stream is shut. -/
structure Says (data : List UInt8) (due start : Nat) (s : Stream) (acts : List Act)
    (said : Stream) (later : Nat) : Prop where
  performs : ∃ s', Performs (fun _ => due) s.outlet start acts s' later ∧
    said.outlet = if passed acts = data then { s' with shut := true } else s'
  offers : Offers (data.drop ·) 0 acts
  last : ∀ a ∈ acts.dropLast, ¬a.Breaks
  whole : passed acts = data ↔ ∀ a ∈ acts, ¬a.Breaks
  part : passed acts <+: data
  written : said.written = s.written ++ passed acts

theorem deliver_eq (patience : Patience) (a : Answer) (now : Nat) (s : Stream) :
    let t := say (response a.page) (now + patience.idleMs) now s
    deliver patience a now s =
      (t.now, if t.outcome = .done () then { t.state with shut := true } else t.state) := by
  intro t
  unfold deliver
  dsimp only
  split
  · rename_i h
    rw [if_pos h]
  · rename_i h
    rw [if_neg h]

/-- The response to an answer is said on the stream. -/
theorem says_deliver (patience : Patience) (a : Answer) (now : Nat) (s : Stream) :
    ∃ acts, Says (response a.page) (now + patience.idleMs) now s acts
      (deliver patience a now s).2 (deliver patience a now s).1 := by
  obtain ⟨acts, h⟩ := say_passage (response a.page) (now + patience.idleMs) now s
  have hwhole := h.whole_iff
  have hbreaks := h.breaks_iff
  have hpart := h.isPrefix
  have hoffers := h.offers
  rw [List.flatten_singleton, decide_eq_true_iff] at hwhole
  rw [decide_eq_false_iff_not, hwhole] at hbreaks
  rw [List.flatten_singleton] at hpart
  rw [pieceFrom_singleton] at hoffers
  rw [deliver_eq]
  simp only [hwhole]
  refine ⟨acts, ⟨_, h.performs.outlet, ?_⟩, hoffers, h.not_breaks_dropLast, ?_, hpart, ?_⟩
  · split <;> rfl
  · simpa using (not_congr hbreaks).symm
  · rw [← h.performs.written_eq]
    split <;> rfl

/-- Only the writing side of the stream counts. -/
theorem Says.of_outlet {data : List UInt8} {due start later : Nat} {s s' said : Stream}
    {acts : List Act} (h : Says data due start s acts said later) (hs : s.outlet = s'.outlet) :
    Says data due start s' acts said later := by
  have hwritten : s'.written = s.written := by
    rw [written_eq_passed, written_eq_passed, ← Stream.acts_outlet, ← hs, Stream.acts_outlet]
  exact { h with performs := hs ▸ h.performs, written := hwritten ▸ h.written }

section Visiting

variable {σ : Type} [Store σ] (p : Portal σ) {patience : Patience} {now : Nat} {s : Stream}

theorem heardIn_start (patience : Patience) (now : Nat) (s : Stream) :
    HeardIn patience (now + patience.requestMs) .start now (s.course now)
      (hear patience (now + patience.requestMs) .start now s) :=
  heardIn_hear patience s rfl (Nat.le_add_right ..)

theorem receive_of_none
    (h : (hear patience (now + patience.requestMs) .start now s).request = none) :
    let heard := hear patience (now + patience.requestMs) .start now s
    p.receive patience now s = ⟨none, p, heard.now, heard.stream⟩ := by
  intro heard
  simp only [Portal.receive, h, heard]

theorem receive_of_some {request : Except Fault Request}
    (h : (hear patience (now + patience.requestMs) .start now s).request = some request) :
    let heard := hear patience (now + patience.requestMs) .start now s
    let answer := (p.reply request).1
    p.receive patience now s =
      ⟨some answer, (p.reply request).2, (deliver patience answer heard.now heard.stream).1,
        (deliver patience answer heard.now heard.stream).2⟩ := by
  intro heard answer
  simp only [Portal.receive, h, heard, answer]

/-- A request that is settled in time is answered: a good one as the portal answers it, and any
other with the page as it stands. The response to the answer is said on the stream. -/
theorem receive_of_settledAt {t : Nat}
    (ht : SettledAt patience.limits .start (s.course now) t)
    (hin : InTime patience (s.course now) t) :
    ∃ request acts,
      (Receiver.feed patience.limits .start ((s.course now).receivedBy t)).verdict = some request ∧
      (p.receive patience now s).answer = some (p.reply request).1 ∧
      (p.receive patience now s).portal = (p.reply request).2 ∧
      Says (response (p.reply request).1.page) (now + t + patience.idleMs) (now + t) s acts
        (p.receive patience now s).stream (p.receive patience now s).now := by
  have hheard := heardIn_start patience now s
  unfold HeardIn at hheard
  split at hheard
  · have := hheard t ht hin.silence
    have := hin.whole
    omega
  · rename_i request hrequest
    obtain ⟨t', ht', -, -, hnow, hverdict⟩ := hheard
    obtain rfl := ht.unique ht'
    obtain ⟨acts, hsaid⟩ := says_deliver patience (p.reply request).1 (now + t)
      (hear patience (now + patience.requestMs) .start now s).stream
    refine ⟨request, acts, hverdict, ?_⟩
    rw [receive_of_some p hrequest, hnow]
    exact ⟨rfl, rfl, hsaid.of_outlet (outlet_hear ..)⟩

/-- Where no request is settled in time, nothing comes of the visit. -/
theorem receive_of_not_inTime
    (h : ∀ t, SettledAt patience.limits .start (s.course now) t →
      ¬InTime patience (s.course now) t) :
    (p.receive patience now s).answer = none ∧ (p.receive patience now s).portal = p ∧
      (p.receive patience now s).stream.outlet = s.outlet := by
  have hheard := heardIn_start patience now s
  unfold HeardIn at hheard
  split at hheard
  · rename_i hnone
    rw [receive_of_none p hnone]
    exact ⟨rfl, rfl, outlet_hear ..⟩
  · obtain ⟨t, ht, hwaits, hdeadline, -⟩ := hheard
    exact absurd ⟨hwaits, by omega⟩ (h t ht)

/-- Two streams of one course and one writing side make the same visit. -/
theorem receive_congr {s' : Stream} (hcourse : s'.course now = s.course now)
    (houtlet : s'.outlet = s.outlet) :
    (p.receive patience now s').answer = (p.receive patience now s).answer ∧
      (p.receive patience now s').portal = (p.receive patience now s).portal ∧
      (p.receive patience now s').stream.outlet = (p.receive patience now s).stream.outlet := by
  have hheard := heardIn_start patience now s
  have hheard' := heardIn_start patience now s'
  rw [hcourse] at hheard'
  obtain ⟨hrequest, hnow⟩ := hheard'.unique hheard
  cases h : (hear patience (now + patience.requestMs) .start now s).request with
  | none =>
      rw [receive_of_none p h, receive_of_none p (hrequest.trans h)]
      refine ⟨rfl, rfl, ?_⟩
      rw [outlet_hear, outlet_hear, houtlet]
  | some request =>
      have hstart := hnow (by simp [hrequest.trans h])
      rw [receive_of_some p h, receive_of_some p (hrequest.trans h), hstart]
      refine ⟨rfl, rfl, ?_⟩
      have hdelivered := fun stream => congrArg Prod.snd (deliver_outlet patience
        (p.reply request).1 (hear patience (now + patience.requestMs) .start now s).now stream)
      dsimp only at hdelivered ⊢
      rw [← hdelivered, ← hdelivered, outlet_hear, outlet_hear, houtlet]

end Visiting

/-- What comes of a visit is told by the course of the client's stream. If a request is settled in
time, the whole response to it is said, and no more: to a good request as the portal answers it, to
any other with the page as it stands, and with nothing changed. If none is settled in time, nothing
is tried on the stream and nothing has changed. How the bytes are cut into arrivals is never to be
seen. -/
theorem visit_determined_by_course {σ : Type} [Store σ] (p : Portal σ) (patience : Patience)
    (now : Nat) (s : Stream) :
    let c := s.course now
    let v := p.receive patience now s
    (∀ t, SettledAt patience.limits .start c t → InTime patience c t → ∃ answer acts,
      v.answer = some answer ∧ v.stops = answer.stop ∧
      (∀ request,
        (Receiver.feed patience.limits .start (c.receivedBy t)).verdict = some (.ok request) →
          (answer, v.portal) = p.answer request) ∧
      (∀ fault,
        (Receiver.feed patience.limits .start (c.receivedBy t)).verdict = some (.error fault) →
          answer = ⟨page p.device p.token false, .invalid, false⟩ ∧ v.portal = p) ∧
      Says (response answer.page) (now + t + patience.idleMs) (now + t) s acts v.stream v.now) ∧
    ((∀ t, SettledAt patience.limits .start c t → ¬InTime patience c t) →
      v.answer = none ∧ v.portal = p ∧ v.stops = false ∧ v.stream.outlet = s.outlet) ∧
    (∀ s' : Stream, s'.course now = c → s'.outlet = s.outlet →
      (p.receive patience now s').answer = v.answer ∧
        (p.receive patience now s').portal = v.portal ∧
        (p.receive patience now s').stream.outlet = v.stream.outlet) ∧
    ∀ before after bs more, s.arrivals = before ++ .bytes (bs ++ more) :: after →
      let cut : Stream := { s with arrivals := before ++ .bytes bs :: .bytes more :: after }
      (p.receive patience now cut).answer = v.answer ∧
        (p.receive patience now cut).portal = v.portal ∧
        (p.receive patience now cut).stream.outlet = v.stream.outlet := by
  intro c v
  refine ⟨?_, ?_, fun s' => receive_congr p, ?_⟩
  · intro t ht hin
    obtain ⟨request, acts, hverdict, hanswer, hportal, hsaid⟩ := receive_of_settledAt p ht hin
    refine ⟨(p.reply request).1, acts, hanswer, by rw [Visit.stops, hanswer]; rfl, ?_, ?_, hsaid⟩
    · intro good hgood
      obtain rfl := Option.some.inj (hverdict.symm.trans hgood)
      exact Prod.ext rfl hportal
    · intro fault hfault
      obtain rfl := Option.some.inj (hverdict.symm.trans hfault)
      exact ⟨rfl, hportal⟩
  · intro hnone
    obtain ⟨hanswer, hportal, houtlet⟩ := receive_of_not_inTime p hnone
    exact ⟨hanswer, hportal, by rw [Visit.stops, hanswer]; rfl, houtlet⟩
  · intro before after bs more harrivals
    apply receive_congr p
    · rw [← s.course_cut before after bs more now, ← harrivals]
    · rfl

/-- A request in two arrivals is settled by the second of them, three milliseconds later. The client
fails while it takes the page, and has a beginning of it. -/
theorem visit_of_trickled_request :
    let s : Stream := { arrivals := [.bytes (Utf8.encode "GET / HT"), .pause 3,
      .bytes (Utf8.encode "TP/1.1\r\n\r\nmore")], uptakes := [.takes 2 5, .fault 0 "gone"] }
    let p : Portal Memory := ⟨{}, {}, ⟨"t"⟩⟩
    SettledAt {} .start (s.course 0) 3 ∧ InTime {} (s.course 0) 3 ∧
      (p.receive {} 0 s).answer = some (p.present .form) ∧
      (p.receive {} 0 s).stream.written <+: response (page {} ⟨"t"⟩ false) := by
  intro s p
  have hsettled : SettledAt {} .start (s.course 0) 3 := ⟨by decide +kernel, by decide +kernel⟩
  have hin : InTime {} (s.course 0) 3 := ⟨by decide +kernel, by decide +kernel⟩
  obtain ⟨answer, acts, hanswer, -, hgood, -, hsaid⟩ :=
    (visit_determined_by_course p {} 0 s).1 3 hsettled hin
  have hreply := congrArg Prod.fst (hgood ⟨.get, "/", "", 0⟩ (by decide +kernel))
  have hform : (p.answer ⟨.get, "/", "", 0⟩).1 = p.present .form := by
    have hpath : asksToSave ⟨.get, "/", "", 0⟩ = false := by decide +kernel
    simp [Portal.answer, hpath]
  obtain rfl : answer = p.present .form := hreply.trans hform
  refine ⟨hsettled, hin, hanswer, ?_⟩
  rw [hsaid.written]
  exact hsaid.part

end FieldCamera.Setup
