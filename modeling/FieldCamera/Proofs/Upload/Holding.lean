import FieldCamera.Proofs.Upload.Sending
/-!
# One connection at a time

A held connection is fit for a request if nothing can be read on it at once. A request that finds a
fit connection is written on it; any other makes one attempt to open a new one
(`connect_of_fit`, `connect_of_unfit`). So whatever has been done with a connection, the attempts
are those that the network has answered, in their order, and of the streams that they gave only the
last one can be used again (`one_connection_at_a_time`).
-/

namespace FieldCamera

namespace Link

/-- What has come after no time was not waited for. -/
theorem Course.receivedBy_zero {c : Course} (h : c.wait ≠ some 0) : c.receivedBy 0 = [] := by
  obtain ⟨_ | ⟨⟨wait, b⟩, rest⟩, ending⟩ := c
  · rfl
  · have hwait : ¬wait ≤ 0 := fun hle => h (congrArg some (Nat.le_zero.1 hle))
    rw [receivedBy, upTo, if_neg hwait, List.map_nil]

/-- Looking without waiting is given up unless there is something to see at once. -/
theorem Reader.fill_late_iff {r : Reader} (hcap : 0 < r.capacity) (now : Nat) :
    (r.fill now now).outcome = .late ↔ (r.course now).wait ≠ some 0 := by
  have hmeets := r.meets_fill hcap (le_refl now)
  have hends {later : Nat} (h₁ : now ≤ later) (h₂ : later ≤ now) :
      (Course.ends (later - now)).wait = some 0 := by
    rw [Nat.le_antisymm h₂ h₁, Nat.sub_self]
    rfl
  cases houtcome : (r.fill now now).outcome with
  | late =>
      rw [houtcome] at hmeets
      refine iff_of_true rfl fun hwait => ?_
      have := hmeets 0 hwait
      omega
  | failed reason =>
      rw [houtcome] at hmeets
      obtain ⟨h₁, h₂, hcourse⟩ := hmeets
      rw [hcourse]
      exact iff_of_false (by simp) (not_not.2 (hends h₁ h₂))
  | done bs =>
      rw [houtcome] at hmeets
      refine iff_of_false (by simp) (not_not.2 ?_)
      cases bs with
      | nil =>
          obtain ⟨h₁, h₂, hcourse⟩ := hmeets
          rw [hcourse]
          exact hends h₁ h₂
      | cons b bs =>
          obtain ⟨h₁, h₂, hcourse⟩ := hmeets
          rw [hcourse, Course.wait_delay, Nat.le_antisymm h₂ h₁, Nat.sub_self]
          rfl

end Link

namespace Upload

open Link

theorem capacity_exchange (pace : Pace) (target : Address) (e : Envelope) (now : Nat)
    (r : Reader) : (exchange pace target e now r).reader.capacity = r.capacity := by
  unfold exchange
  split
  · rfl
  · dsimp only
    split
    · rfl
    · rfl
    · have hreply (t : Nat) (r' : Reader) :
          (Reply.receive pace.reply t r').reader.capacity = r'.capacity :=
        Reply.unread_receive Reader.unread_capacity ..
      split <;> exact hreply ..

/-- Bytes, the end of the stream or a failure to read can be met on a connection at once. -/
def Connection.Ready (now : Nat) (c : Connection) : Prop :=
  (c.reader.course now).wait = some 0

namespace Uplink

/-- The connection is held, and nothing can be read on it at once. -/
def Fit (now : Nat) (u : Uplink) (c : Connection) : Prop :=
  u.held = some c ∧ ¬c.Ready now

/-- The reader of a held connection can hold something. -/
def Roomy (u : Uplink) : Prop :=
  ∀ c, u.held = some c → 0 < c.reader.capacity

/-- For each attempt, whether it got a stream. -/
def opened (u : Uplink) : List Bool :=
  u.attempts.map (·.stream.isSome)

section Opened

variable {pace : Pace} {target : Address} {e : Envelope} {now : Nat} {u : Uplink}

theorem opened_eq_outlets (u : Uplink) : u.opened = u.outlets.map (·.2.isSome) := by
  simp [opened, outlets]

@[simp] theorem length_opened (u : Uplink) : u.opened.length = u.attempts.length :=
  List.length_map ..

@[simp] theorem opened_close (u : Uplink) : u.close.opened = u.opened := by
  rw [opened_eq_outlets, opened_eq_outlets, outlets_close]

@[simp] theorem dials_close (u : Uplink) : u.close.dials = u.dials := by
  unfold close
  split <;> rfl

@[simp] theorem dials_refresh (now : Nat) (u : Uplink) : (u.refresh now).dials = u.dials := by
  obtain ⟨-, hrefresh⟩ | ⟨c, -, ⟨-, hrefresh⟩ | hrefresh⟩ := refresh_spec now u
  · rw [hrefresh]
  · rw [hrefresh]
  · rw [hrefresh, dials_close]

/-- An attempt is noted, and the answer to it is used up. -/
theorem opened_dial (target : Address) (now : Nat) (h : u.held = none) :
    (u.dial target now).2.2.dials = u.dials.tail ∧
      (u.dial target now).2.2.opened = u.opened ++ [opensNext u.dials] := by
  obtain ⟨hshut, reason, later, hdial⟩ | ⟨d, stream, hhead, hanswer, hdial⟩ :=
    dial_spec target now u
  · rw [hdial, hshut]
    simp [opened, attempts, h]
  · have hopens : opensNext u.dials = true := by
      simp [opensNext, hhead, hanswer, Except.isOk, Except.toBool]
    rw [hdial, hopens]
    simp [opened, attempts, h]

/-- Beyond connecting a request makes no attempt. -/
theorem opened_send (pace : Pace) (target : Address) (e : Envelope) (now : Nat) (u : Uplink) :
    (u.send pace target e now).2.2.dials = (u.connect target now).2.2.dials ∧
      (u.send pace target e now).2.2.opened = (u.connect target now).2.2.opened := by
  rcases hconnect : u.connect target now with ⟨result, start, u'⟩
  cases result with
  | error fault =>
      rw [send_of_refused e hconnect]
      exact ⟨rfl, rfl⟩
  | ok c =>
      obtain ⟨-, s, -, -, -, ⟨others, hbefore, hafter⟩, -⟩ := send_sends e hconnect
      constructor
      · rw [send_of_connected e hconnect]
        dsimp only
        split
        · rfl
        · exact dials_close _
      · rw [opened_eq_outlets, opened_eq_outlets, hbefore, hafter]
        simp

/-- A fit connection is used, and no other is opened. -/
theorem connect_of_fit (hroom : u.Roomy) {c : Connection} (h : u.Fit now c) (target : Address) :
    (c.reader.fill now now).outcome = .late ∧
      u.connect target now = (.ok { c with reader := (c.reader.fill now now).state }, now,
        { u with held := some { c with reader := (c.reader.fill now now).state } }) := by
  obtain ⟨hheld, hnot⟩ := h
  have hlate := (Reader.fill_late_iff (hroom c hheld) now).2 hnot
  refine ⟨hlate, ?_⟩
  simp [connect, refresh, hheld, hlate]

/-- Without a fit connection none is held any longer, and a new one is opened. -/
theorem connect_of_unfit (hroom : u.Roomy) (h : ∀ c, ¬u.Fit now c) (target : Address) :
    (u.refresh now).held = none ∧ (u.refresh now).outlets = u.outlets ∧
      u.connect target now = (u.refresh now).dial target now := by
  obtain ⟨hheld, houtlets⟩ | ⟨c, hheld, hlate, -⟩ := refresh_cases now u
  · refine ⟨hheld, houtlets, ?_⟩
    simp [connect, hheld]
  · exact absurd ⟨hheld, (Reader.fill_late_iff (hroom c hheld) now).1 hlate⟩ (h c)

/-- A request that finds a fit connection makes no attempt. -/
theorem opened_send_of_fit (pace : Pace) (target : Address) (e : Envelope)
    (hroom : u.Roomy) {c : Connection} (h : u.Fit now c) :
    (u.send pace target e now).2.2.dials = u.dials ∧
      (u.send pace target e now).2.2.opened = u.opened := by
  obtain ⟨hdials, hopened⟩ := opened_send pace target e now u
  rw [(connect_of_fit hroom h target).2] at hdials hopened
  refine ⟨hdials, hopened.trans ?_⟩
  simp [opened, attempts, h.1]

/-- A request that finds none makes one. -/
theorem opened_send_of_unfit (pace : Pace) (target : Address) (e : Envelope)
    (hroom : u.Roomy) (h : ∀ c, ¬u.Fit now c) :
    (u.send pace target e now).2.2.dials = u.dials.tail ∧
      (u.send pace target e now).2.2.opened =
        u.opened ++ [opensNext u.dials] := by
  obtain ⟨hheld, houtlets, hconnect⟩ := connect_of_unfit hroom h target
  obtain ⟨hdials, hopened⟩ := opened_send pace target e now u
  obtain ⟨hdials', hopened'⟩ := opened_dial target now hheld
  rw [hconnect] at hdials hopened
  rw [hdials', dials_refresh] at hdials
  rw [hopened', dials_refresh, opened_eq_outlets (u.refresh now), houtlets,
    ← opened_eq_outlets] at hopened
  exact ⟨hdials, hopened⟩

/-- Such a request fails without a stream, or is written once on the stream that it gets and on no
other; its reply is read from that stream. -/
theorem exchange_of_unfit (pace : Pace) (target : Address) (e : Envelope)
    (hroom : u.Roomy) (h : ∀ c, ¬u.Fit now c) :
    (opensNext u.dials = false ∧
      (∃ reason, (u.send pace target e now).1 = .error (.connect target.authority reason)) ∧
      (u.send pace target e now).2.2.outlets = u.outlets ++ [(target.authority, none)]) ∨
    ∃ d opened acts stream later, u.dials.head? = some d ∧ d.answer = .ok opened ∧
      Sends pace target e opened (now + d.delay) acts stream later ∧
      (u.send pace target e now).2.2.outlets =
        u.outlets ++ [(target.authority, some stream.outlet)] ∧
      Earns acts (e.wire target).length
        (Reply.receive pace.reply later { stream := stream }).result
        (u.send pace target e now).1 := by
  obtain ⟨hheld, houtlets, hconnect⟩ := connect_of_unfit hroom h target
  rw [← dials_refresh now]
  obtain ⟨hshut, reason, t, u', hdial, -, hnew⟩ | ⟨d, opened, u', hhead, hanswer, hdial, -, hnew⟩ :=
    dial_cases target now hheld
  · left
    rw [send_of_refused e (hconnect.trans hdial), hnew, houtlets]
    exact ⟨hshut, ⟨reason, rfl⟩, rfl⟩
  · right
    obtain ⟨acts, stream, later, hsends, hresult, ⟨others, hbefore, hafter⟩, -⟩ :=
      send_sends e (hconnect.trans hdial)
    obtain rfl : u.outlets = others := by
      rw [← houtlets]
      exact List.append_cancel_right (hnew.symm.trans hbefore)
    refine ⟨d, opened, acts, stream, later, hhead, hanswer, hsends, hafter, ?_⟩
    rw [hresult]
    exact earns_judge_exchanged ..

end Opened

section Past

variable {pace : Pace} {target : Address} {e : Envelope} {now : Nat} {u : Uplink}

theorem past_close {past : List Attempt} (h : past <:+ u.past) : past <:+ u.close.past := by
  unfold close
  split
  · exact h.trans (List.suffix_cons ..)
  · exact h

theorem past_refresh (now : Nat) (u : Uplink) : u.past <:+ (u.refresh now).past := by
  obtain ⟨-, hrefresh⟩ | ⟨c, -, ⟨-, hrefresh⟩ | hrefresh⟩ := refresh_spec now u
  · simp only [hrefresh, List.suffix_rfl]
  · simp only [hrefresh, List.suffix_rfl]
  · rw [hrefresh]
    exact past_close List.suffix_rfl

theorem past_dial (target : Address) (now : Nat) (u : Uplink) :
    u.past <:+ (u.dial target now).2.2.past := by
  obtain ⟨-, reason, later, hdial⟩ | ⟨d, stream, -, -, hdial⟩ := dial_spec target now u
  · simp only [hdial, List.suffix_cons]
  · simp only [hdial, List.suffix_rfl]

theorem past_connect (target : Address) (now : Nat) (u : Uplink) :
    u.past <:+ (u.connect target now).2.2.past := by
  have hrefresh := past_refresh now u
  unfold connect
  dsimp only
  split
  · exact hrefresh
  · exact hrefresh.trans (past_dial ..)

/-- What is over stays as it is, whatever is sent. -/
theorem past_send (pace : Pace) (target : Address) (e : Envelope) (now : Nat) (u : Uplink) :
    u.past <:+ (u.send pace target e now).2.2.past := by
  have hpast := past_connect target now u
  rcases hconnect : u.connect target now with ⟨result, start, u'⟩
  rw [hconnect] at hpast
  cases result with
  | error fault =>
      rw [send_of_refused e hconnect]
      exact hpast
  | ok c =>
      rw [send_of_connected e hconnect]
      dsimp only
      split
      · exact hpast
      · exact past_close hpast

/-- What is over is the front of all attempts: all but the one of a held connection. -/
theorem past_reverse (u : Uplink) :
    u.attempts.dropLast <+: u.past.reverse ∧ u.past.reverse <+: u.attempts ∧
      (u.isConnected = false → u.attempts = u.past.reverse) := by
  cases h : u.held with
  | none => simp [attempts, isConnected, h, List.tail_suffix]
  | some c => simp [attempts, isConnected, h]

/-- Attempts of which no connection is left are found again in whatever comes later. -/
theorem attempts_kept {later : Uplink} (h : u.past <:+ later.past) :
    u.attempts.dropLast <+: later.attempts ∧
      (u.isConnected = false → u.attempts <+: later.attempts) := by
  have hpast : u.past.reverse <+: later.attempts :=
    (List.reverse_prefix.2 h).trans (past_reverse later).2.1
  constructor
  · exact (past_reverse u).1.trans hpast
  · intro hnone
    rwa [(past_reverse u).2.2 hnone]

end Past

section Result

variable {pace : Pace} {target : Address} {e : Envelope} {now : Nat} {u w : Uplink}

theorem keeps_iff {result : Except Fault Delivery} :
    keeps result = true ↔ ∃ d, result = .ok d ∧ d.reply.peerClosed = false := by
  cases result <;> simp [keeps]

/-- A connection is left by a good reply on an open stream, and by nothing else. -/
theorem isConnected_send :
    (u.send pace target e now).2.2.isConnected = true ↔
      ∃ d, (u.send pace target e now).1 = .ok d ∧ d.reply.peerClosed = false := by
  rw [← keeps_iff]
  rcases hconnect : u.connect target now with ⟨result, start, u'⟩
  cases result with
  | error fault =>
      rw [send_of_refused e hconnect]
      simp [isConnected, keeps, (connect_error hconnect).2.1]
  | ok c =>
      rw [send_of_connected e hconnect]
      dsimp only
      split
      · rename_i hkeeps
        simp [isConnected, hkeeps]
      · rename_i hkeeps
        simp [isConnected, hkeeps]

theorem isConnected_send_of_error {fault : Fault}
    (h : (u.send pace target e now).1 = .error fault) :
    (u.send pace target e now).2.2.isConnected = false := by
  rw [Bool.eq_false_iff]
  intro hconnected
  obtain ⟨d, hd, -⟩ := isConnected_send.1 hconnected
  cases hd.symm.trans h

/-- A request that succeeds has a reply with a good status. -/
theorem status_of_send_ok {d : Delivery} (h : (u.send pace target e now).1 = .ok d) :
    200 ≤ d.reply.status ∧ d.reply.status < 300 := by
  rcases hconnect : u.connect target now with ⟨result, start, u'⟩
  cases result with
  | error fault =>
      rw [send_of_refused e hconnect] at h
      contradiction
  | ok c =>
      rw [send_of_connected e hconnect] at h
      exact Reply.isSuccess_iff.1 (judge_eq_ok_iff.1 h).2

theorem roomy_send (hroom : u.Roomy) : (u.send pace target e now).2.2.Roomy := by
  rcases hconnect : u.connect target now with ⟨result, start, u'⟩
  cases result with
  | error fault =>
      rw [send_of_refused e hconnect]
      simp [Roomy, (connect_error hconnect).2.1]
  | ok c =>
      have hcap : 0 < c.reader.capacity := by
        obtain ⟨-, -, ⟨c₀, hheld, hsame, -⟩ | ⟨-, hnew, -⟩⟩ := connect_ok hconnect
        · exact hsame ▸ hroom c₀ hheld
        · exact hnew
      rw [send_of_connected e hconnect]
      dsimp only
      split
      · rintro _ ⟨⟩
        rwa [capacity_exchange]
      · simp [Roomy]

/-- What a new connection meets does not depend on what has been before. -/
theorem dial_congr (target : Address) (now : Nat) (h : u.dials = w.dials) :
    (u.dial target now).1 = (w.dial target now).1 ∧
      (u.dial target now).2.1 = (w.dial target now).2.1 := by
  unfold dial
  rw [h]
  dsimp only
  split
  · exact ⟨rfl, rfl⟩
  · split <;> exact ⟨rfl, rfl⟩

/-- The result of a request depends on the connection that it finds or opens. -/
theorem send_congr (h : (u.connect target now).1 = (w.connect target now).1)
    (h' : (u.connect target now).2.1 = (w.connect target now).2.1) :
    (u.send pace target e now).1 = (w.send pace target e now).1 := by
  rcases hu : u.connect target now with ⟨result, start, u'⟩
  rcases hw : w.connect target now with ⟨result', start', w'⟩
  rw [hu, hw] at h h'
  obtain rfl : result = result' := h
  obtain rfl : start = start' := h'
  cases result with
  | error fault => rw [send_of_refused e hu, send_of_refused e hw]
  | ok c => rw [send_of_connected e hu, send_of_connected e hw]

/-- A request that finds no fit connection has the result that it would have on a connection that
has never been used, whatever has arrived on the old one. -/
theorem send_of_unfit (hroom : u.Roomy) (h : ∀ c, ¬u.Fit now c) :
    (u.send pace target e now).1 = (send pace target e now { dials := u.dials }).1 := by
  obtain ⟨-, -, hconnect⟩ := connect_of_unfit hroom h target
  have hnew : connect target now { dials := u.dials } = dial target now { dials := u.dials } := rfl
  obtain ⟨hresult, htime⟩ := dial_congr (w := { dials := u.dials }) target now (dials_refresh now u)
  apply send_congr
  · rw [hconnect, hnew, hresult]
  · rw [hconnect, hnew, htime]

end Result

/-- A request is written on the held connection `c`, without an attempt. Nothing had arrived on `c`,
and the reply is read from it behind the request. The result is what the request earns by its acts
there and by that reply. -/
structure SentOnHeld (pace : Pace) (target : Address) (e : Envelope) (now : Nat) (u : Uplink)
    (c : Connection) : Prop where
  dials_eq : (u.send pace target e now).2.2.dials = u.dials
  length_attempts : (u.send pace target e now).2.2.attempts.length = u.attempts.length
  unread : (c.reader.course now).receivedBy 0 = []
  exchange : ∃ acts stream later others,
    let looked := (c.reader.fill now now).state
    looked.buffer = [] ∧
    Sends pace target e looked.stream now acts stream later ∧
    u.outlets = others ++ [(c.authority, some c.reader.stream.outlet)] ∧
    (u.send pace target e now).2.2.outlets = others ++ [(c.authority, some stream.outlet)] ∧
    (u.send pace target e now).1 = judge (exchanged pace acts (e.wire target).length
      (Reply.receive pace.reply later { looked with stream := stream }).result) ∧
    Earns acts (e.wire target).length
      (Reply.receive pace.reply later { looked with stream := stream }).result
      (u.send pace target e now).1

/-- A request leaves what was held before, without a byte written on it, and makes one attempt to
open a connection. It fails if it gets no stream. Else it is written once on the stream that it
gets, and its result is what it earns there, as on a connection that has never been used. -/
structure SentAnew (pace : Pace) (target : Address) (e : Envelope) (now : Nat) (u : Uplink) :
    Prop where
  held_refresh : (u.refresh now).held = none
  connect_eq : u.connect target now = (u.refresh now).dial target now
  dials_eq : (u.send pace target e now).2.2.dials = u.dials.tail
  length_attempts : (u.send pace target e now).2.2.attempts.length = u.attempts.length + 1
  exchange :
    (opensNext u.dials = false ∧
      (∃ reason, (u.send pace target e now).1 = .error (.connect target.authority reason)) ∧
      (u.send pace target e now).2.2.outlets = u.outlets ++ [(target.authority, none)]) ∨
    ∃ d opened acts stream later, u.dials.head? = some d ∧ d.answer = .ok opened ∧
      Sends pace target e opened (now + d.delay) acts stream later ∧
      (u.send pace target e now).2.2.outlets =
        u.outlets ++ [(target.authority, some stream.outlet)] ∧
      Earns acts (e.wire target).length
        (Reply.receive pace.reply later { stream := stream }).result
        (u.send pace target e now).1
  result_eq : (u.send pace target e now).1 = (send pace target e now { dials := u.dials }).1

theorem sentOnHeld_of_fit (pace : Pace) (target : Address) (e : Envelope) {now : Nat} {u : Uplink}
    (hroom : u.Roomy) {c : Connection} (h : u.Fit now c) :
    SentOnHeld pace target e now u c := by
  obtain ⟨hdials, hopened⟩ := opened_send_of_fit pace target e hroom h
  obtain ⟨hlate, hconnect⟩ := connect_of_fit hroom h target
  obtain ⟨acts, stream, later, hsends, hresult, ⟨others, hbefore, hafter⟩, -⟩ :=
    send_sends e hconnect
  have hothers : u.outlets = others ++ [(c.authority, some c.reader.stream.outlet)] := by
    rw [← Reader.outlet_fill now now, ← hbefore, outlets_of_held h.1, outlets_of_held rfl]
    simp
  refine ⟨hdials, ?_, Course.receivedBy_zero h.2, acts, stream, later, others,
    Reader.buffer_fill_of_late hlate, hsends, hothers, hafter, hresult, ?_⟩
  · rw [← length_opened, hopened, length_opened]
  · rw [hresult]
    exact earns_judge_exchanged ..

theorem sentAnew_of_unfit (pace : Pace) (target : Address) (e : Envelope) {now : Nat} {u : Uplink}
    (hroom : u.Roomy) (h : ∀ c, ¬u.Fit now c) : SentAnew pace target e now u := by
  obtain ⟨hdials, hopened⟩ := opened_send_of_unfit pace target e hroom h
  obtain ⟨hheld, -, hconnect⟩ := connect_of_unfit hroom h target
  refine ⟨hheld, hconnect, hdials, ?_, exchange_of_unfit pace target e hroom h,
    send_of_unfit hroom h⟩
  rw [← length_opened, hopened, List.length_append, length_opened, List.length_singleton]

/-- What can be done with a connection. -/
inductive Use where
  | send (target : Address) (e : Envelope)
  | close
  /-- Nothing, for a while. -/
  | rest (ms : Nat)

/-- The time and the connection after one use. -/
def Use.apply (pace : Pace) (s : Nat × Uplink) : Use → Nat × Uplink
  | send target e => (s.2.send pace target e s.1).2
  | close => (s.1, s.2.close)
  | rest ms => (s.1 + ms, s.2)

/-- The time and the connection after one use and another. -/
def used (pace : Pace) (s : Nat × Uplink) (uses : List Use) : Nat × Uplink :=
  uses.foldl (Use.apply pace) s

/-- The attempts are those that the network has answered so far, in their order. -/
structure Accounted (dials : List Dial) (u : Uplink) : Prop where
  roomy : u.Roomy
  left : u.dials = dials.drop u.attempts.length
  given : u.opened =
    (List.range u.attempts.length).map fun k => opensNext (dials.drop k)

section Runs

variable {pace : Pace} {dials : List Dial} {u u' : Uplink}

theorem accounted_new (dials : List Dial) : Accounted dials { dials := dials } :=
  ⟨by simp [Roomy], rfl, rfl⟩

/-- Without an attempt the account is as before. -/
theorem Accounted.of_opened_eq (h : Accounted dials u) (hroom : u'.Roomy)
    (hdials : u'.dials = u.dials) (hopened : u'.opened = u.opened) : Accounted dials u' := by
  have hlength : u'.attempts.length = u.attempts.length := by
    rw [← length_opened, hopened, length_opened]
  refine ⟨hroom, ?_, ?_⟩
  · rw [hdials, h.left, hlength]
  · rw [hopened, h.given, hlength]

/-- An attempt takes the next answer. -/
theorem Accounted.of_opened_append (h : Accounted dials u) (hroom : u'.Roomy)
    (hdials : u'.dials = u.dials.tail)
    (hopened : u'.opened = u.opened ++ [opensNext u.dials]) :
    Accounted dials u' := by
  have hlength : u'.attempts.length = u.attempts.length + 1 := by
    rw [← length_opened, hopened, List.length_append, length_opened, List.length_singleton]
  refine ⟨hroom, ?_, ?_⟩
  · rw [hdials, h.left, hlength, List.tail_drop]
  · rw [hopened, h.given, h.left, hlength, List.range_succ, List.map_append]
    rfl

/-- The account is kept by every use. -/
theorem Accounted.apply {s : Nat × Uplink} (h : Accounted dials s.2) (use : Use) :
    Accounted dials (use.apply pace s).2 := by
  cases use with
  | send target e =>
      have hroom : (s.2.send pace target e s.1).2.2.Roomy := roomy_send h.roomy
      by_cases hfit : ∃ c, s.2.Fit s.1 c
      · obtain ⟨c, hc⟩ := hfit
        obtain ⟨hdials, hopened⟩ := opened_send_of_fit pace target e h.roomy hc
        exact h.of_opened_eq hroom hdials hopened
      · obtain ⟨hdials, hopened⟩ := opened_send_of_unfit pace target e h.roomy (not_exists.1 hfit)
        exact h.of_opened_append hroom hdials hopened
  | close =>
      have hroom : s.2.close.Roomy := by simp [Roomy]
      exact h.of_opened_eq hroom (dials_close _) (opened_close _)
  | rest ms => exact h

theorem Accounted.used {s : Nat × Uplink} (h : Accounted dials s.2) (uses : List Use) :
    Accounted dials (used pace s uses).2 := by
  induction uses generalizing s with
  | nil => exact h
  | cons use uses ih => exact ih (h.apply use)

theorem past_apply (pace : Pace) (s : Nat × Uplink) (use : Use) :
    s.2.past <:+ (use.apply pace s).2.past := by
  cases use with
  | send target e => exact past_send ..
  | close => exact past_close List.suffix_rfl
  | rest ms => exact List.suffix_rfl

theorem past_used (pace : Pace) (s : Nat × Uplink) (uses : List Use) :
    s.2.past <:+ (used pace s uses).2.past := by
  induction uses generalizing s with
  | nil => exact List.suffix_rfl
  | cons use uses ih => exact (past_apply pace s use).trans (ih _)

end Runs

/-- At every moment the attempts are those that the network has answered. Of their streams all but
the last, and without a held connection also the last, stay for good as they are: no later use
writes to them or reads from them. A request is written on the held connection if that is fit, and
else makes one attempt. It succeeds with a good status only: a refused attempt, an act that breaks,
a reply that cannot be read and any other status are errors. Afterwards a connection is held exactly
if the request has succeeded and the peer has left the stream open, so that none is held after an
error; a stream on which a request has failed is never used again. -/
theorem one_connection_at_a_time (pace : Pace) (dials : List Dial) (start : Nat)
    (uses : List Use) :
    let s := used pace (start, { dials := dials }) uses
    let now := s.1
    let u := s.2
    Accounted dials u ∧
    (∀ more, u.attempts.dropLast <+: (used pace s more).2.attempts ∧
      (u.isConnected = false → u.attempts <+: (used pace s more).2.attempts)) ∧
    ∀ target e,
      let v := u.send pace target e now
      (∀ c, u.Fit now c → SentOnHeld pace target e now u c) ∧
      ((∀ c, ¬u.Fit now c) → SentAnew pace target e now u) ∧
      (∀ d, v.1 = .ok d → 200 ≤ d.reply.status ∧ d.reply.status < 300) ∧
      (v.2.2.isConnected = true ↔ ∃ d, v.1 = .ok d ∧ d.reply.peerClosed = false) ∧
      ∀ fault, v.1 = .error fault → v.2.2.isConnected = false ∧
        ∀ more, v.2.2.attempts <+: (used pace v.2 more).2.attempts := by
  intro s now u
  have haccount : Accounted dials u := (accounted_new dials).used uses
  refine ⟨haccount, fun more => attempts_kept (past_used pace s more), ?_⟩
  intro target e v
  refine ⟨fun c => sentOnHeld_of_fit pace target e haccount.roomy,
    sentAnew_of_unfit pace target e haccount.roomy, fun d => status_of_send_ok,
    isConnected_send, ?_⟩
  intro fault hfault
  have hnone : v.2.2.isConnected = false := isConnected_send_of_error hfault
  exact ⟨hnone, fun more => (attempts_kept (past_used pace v.2 more)).2 hnone⟩

/-- Of two requests the second is written on the stream of the first. -/
theorem second_request_on_kept_stream :
    let stream : Stream := { staysOpen := true, arrivals := [.untilFlush 1,
      .bytes (Utf8.encode "HTTP/1.1 200 OK\r\n\r\n"), .untilFlush 2,
      .bytes (Utf8.encode "HTTP/1.1 200 OK\r\n\r\n")] }
    let target : Address := ⟨"h", 80, "/"⟩
    let e : Envelope := ⟨"b", [1, 2], [3, 4, 5], [6]⟩
    let s := used {} (0, { dials := [⟨0, .ok stream⟩] }) [.send target e, .rest 1000]
    (s.2.send {} target e s.1).2.2.attempts.length = s.2.attempts.length ∧
      (s.2.send {} target e s.1).2.2.isConnected = true := by
  intro stream target e s
  have hheld : s.2.held.any (fun c => (c.reader.course s.1).wait ≠ some 0) = true := by
    decide +kernel
  obtain ⟨c, hc, hnot⟩ := (Option.any_eq_true ..).1 hheld
  have hunread : (c.reader.course s.1).wait ≠ some 0 := of_decide_eq_true hnot
  have hresult : (s.2.send {} target e s.1).1 =
      .ok ⟨⟨200, "HTTP/1.1 200 OK", [], false⟩, (e.wire target).length⟩ := by decide +kernel
  obtain ⟨-, -, hsend⟩ :=
    one_connection_at_a_time {} [⟨0, .ok stream⟩] 0 [.send target e, .rest 1000]
  obtain ⟨hfit, -, -, hconnected, -⟩ := hsend target e
  exact ⟨(hfit c ⟨hc, hunread⟩).length_attempts, hconnected.2 ⟨_, hresult, rfl⟩⟩

end Uplink

end Upload

end FieldCamera
