import FieldCamera.Proofs.Link.Course
import FieldCamera.Proofs.Link.Writing
import FieldCamera.Upload.Post
/-!
# Connecting and listening write nothing

Looking at a held connection, opening a new one and reading a reply leave the writing side of every
stream as it is. A connection that is ready for a request has nothing in its buffer.
-/

namespace FieldCamera

namespace Link.Reader

@[simp] theorem outlet_fill (deadline now : Nat) (r : Reader) :
    (r.fill deadline now).state.stream.outlet = r.stream.outlet := by
  unfold fill
  split
  · dsimp only
    split <;> rfl
  · rfl

@[simp] theorem outlet_read (cap deadline now : Nat) (r : Reader) :
    (r.read cap deadline now).state.stream.outlet = r.stream.outlet := by
  unfold read
  split
  · rfl
  · dsimp only
    split <;> exact outlet_fill ..

/-- What reading leaves as it is. -/
structure Unread {α : Type} (f : Reader → α) : Prop where
  fill (deadline now : Nat) (r : Reader) : f (r.fill deadline now).state = f r
  consume (n : Nat) (r : Reader) : f (r.consume n) = f r
  read (cap deadline now : Nat) (r : Reader) : f (r.read cap deadline now).state = f r

theorem unread_outlet : Unread fun r => r.stream.outlet :=
  ⟨outlet_fill, fun _ _ => rfl, outlet_read⟩

theorem unread_capacity : Unread capacity :=
  ⟨capacity_fill, capacity_consume, capacity_read⟩

/-- Looking that is given up has found the buffer empty, and leaves it so. -/
theorem buffer_fill_of_late {deadline now : Nat} {r : Reader}
    (h : (r.fill deadline now).outcome = .late) : (r.fill deadline now).state.buffer = [] := by
  unfold fill at h ⊢
  split at h
  · rename_i hb
    rw [if_pos hb]
    dsimp only at h ⊢
    split at h
    · contradiction
    · exact hb
  · contradiction

end Link.Reader

namespace Upload

open Link

namespace Reply

section Unread

variable {α : Type} {f : Reader → α} (hf : Reader.Unread f) (limits : Limits)
include hf

theorem unread_readLine (kept : List UInt8) (now : Nat) (r : Reader) :
    f (readLine limits kept now r).reader = f r := by
  fun_induction readLine limits kept now r with
  | case1 | case2 | case3 => exact hf.fill ..
  | case4 => exact (hf.consume ..).trans (hf.fill ..)
  | case5 kept now r t bytes hd hb hcut ih =>
      exact ih.trans ((hf.consume ..).trans (hf.fill ..))

theorem unread_skipHeaders (now : Nat) (r : Reader) :
    f (skipHeaders limits now r).reader = f r := by
  fun_induction skipHeaders limits now r with
  | case1 | case2 | case3 => exact unread_readLine hf ..
  | case4 now r t line ht hempty ih => exact ih.trans (unread_readLine hf ..)

theorem unread_readBody (kept : List UInt8) (now : Nat) (r : Reader) :
    f (readBody limits kept now r).reader = f r := by
  fun_induction readBody limits kept now r with
  | case1 | case2 | case3 => exact hf.read ..
  | case4 kept now r t bytes hd hb ih => exact ih.trans (hf.read ..)

theorem unread_readRest (status : Nat) (text : String) (now : Nat) (r : Reader) :
    f (readRest limits status text now r).reader = f r := by
  have hskip := unread_skipHeaders hf limits now r
  unfold readRest
  dsimp only
  split
  · exact hskip
  · exact hskip
  · exact (unread_readBody hf ..).trans hskip

theorem unread_receive (now : Nat) (r : Reader) : f (receive limits now r).reader = f r := by
  have hline := unread_readLine hf limits [] now r
  unfold receive
  dsimp only
  split
  · exact hline
  · split
    · exact (unread_readRest hf ..).trans hline
    · exact hline

end Unread

theorem outlet_receive (limits : Limits) (now : Nat) (r : Reader) :
    (receive limits now r).reader.stream.outlet = r.stream.outlet :=
  unread_receive Reader.unread_outlet ..

end Reply

namespace Uplink

/-- All attempts to connect, with the writing sides of the streams that they gave. -/
def outlets (u : Uplink) : List (String × Option Stream) :=
  u.attempts.map fun a => (a.authority, a.stream.map Stream.outlet)

theorem outlets_of_held {u : Uplink} {c : Connection} (h : u.held = some c) :
    u.outlets = (u.past.reverse.map fun a => (a.authority, a.stream.map Stream.outlet)) ++
      [(c.authority, some c.reader.stream.outlet)] := by
  simp [outlets, attempts, h]

theorem outlets_with_held (u : Uplink) (c : Connection) :
    outlets { u with held := some c } =
      (u.past.reverse.map fun a => (a.authority, a.stream.map Stream.outlet)) ++
        [(c.authority, some c.reader.stream.outlet)] :=
  outlets_of_held rfl

@[simp] theorem held_close (u : Uplink) : u.close.held = none := by
  unfold close
  cases h : u.held <;> simp [h]

theorem held_eq_none_iff {u : Uplink} : u.held = none ↔ u.isConnected = false := by
  simp [isConnected]

/-- A connection that is dropped stays among the attempts. -/
@[simp] theorem outlets_close (u : Uplink) : u.close.outlets = u.outlets := by
  unfold close
  cases h : u.held <;> simp [outlets, attempts, h]

/-- What looking comes to: the held connection is kept if looking is given up, and else dropped. -/
theorem refresh_spec (now : Nat) (u : Uplink) :
    u.held = none ∧ u.refresh now = u ∨
      ∃ c, u.held = some c ∧
        let looked := { u with held := some { c with reader := (c.reader.fill now now).state } }
        ((c.reader.fill now now).outcome = .late ∧ u.refresh now = looked ∨
          u.refresh now = looked.close) := by
  unfold refresh
  cases h : u.held with
  | none =>
      left
      simp
  | some c =>
      right
      refine ⟨c, rfl, ?_⟩
      cases houtcome : (c.reader.fill now now).outcome with
      | late =>
          left
          simp [houtcome]
      | failed reason =>
          right
          simp [houtcome]
      | done bytes =>
          right
          simp [houtcome]

/-- A held connection is dropped, or nothing has arrived on it. -/
theorem refresh_cases (now : Nat) (u : Uplink) :
    (u.refresh now).held = none ∧ (u.refresh now).outlets = u.outlets ∨
      ∃ c, u.held = some c ∧ (c.reader.fill now now).outcome = .late ∧
        u.refresh now =
          { u with held := some { c with reader := (c.reader.fill now now).state } } := by
  obtain ⟨hheld, hrefresh⟩ | ⟨c, hheld, ⟨hlate, hrefresh⟩ | hrefresh⟩ := refresh_spec now u
  · left
    rw [hrefresh]
    exact ⟨hheld, rfl⟩
  · right
    exact ⟨c, hheld, hlate, hrefresh⟩
  · left
    rw [hrefresh, held_close, outlets_close]
    exact ⟨rfl, by simp [outlets, attempts, hheld]⟩

/-- Whether the first of these answers gives a stream. -/
def opensNext (dials : List Dial) : Bool :=
  dials.head?.any (·.answer.isOk)

/-- What an attempt comes to: it is noted as refused, or the stream that it gets is held. -/
theorem dial_spec (target : Address) (now : Nat) (u : Uplink) :
    (opensNext u.dials = false ∧ ∃ reason later, u.dial target now =
      (.error (.connect target.authority reason), later,
        { u with dials := u.dials.tail, past := ⟨target.authority, none⟩ :: u.past })) ∨
    ∃ d stream, u.dials.head? = some d ∧ d.answer = .ok stream ∧ u.dial target now =
      (.ok ⟨target.authority, { stream := stream }⟩, now + d.delay,
        { u with
          dials := u.dials.tail
          held := some ⟨target.authority, { stream := stream }⟩ }) := by
  unfold dial
  cases hdials : u.dials with
  | nil =>
      left
      exact ⟨rfl, "connection refused", now, by simp [hdials]⟩
  | cons d dials =>
      cases hanswer : d.answer with
      | error reason =>
          left
          have hshut : opensNext (d :: dials) = false := by
            simp [opensNext, hanswer, Except.isOk, Except.toBool]
          exact ⟨hshut, reason, now + d.delay, by simp [hanswer]⟩
      | ok stream =>
          right
          exact ⟨d, stream, rfl, hanswer, by simp [hanswer]⟩

/-- A new connection has the next stream in a fresh reader; a refusal leaves none. -/
theorem dial_cases (target : Address) (now : Nat) {u : Uplink} (h : u.held = none) :
    (opensNext u.dials = false ∧ ∃ reason t u',
      u.dial target now = (.error (.connect target.authority reason), t, u') ∧
      u'.held = none ∧ u'.outlets = u.outlets ++ [(target.authority, none)]) ∨
    ∃ d stream u', u.dials.head? = some d ∧ d.answer = .ok stream ∧
      u.dial target now = (.ok ⟨target.authority, { stream := stream }⟩, now + d.delay, u') ∧
      u'.held = some ⟨target.authority, { stream := stream }⟩ ∧
      u'.outlets = u.outlets ++ [(target.authority, some stream.outlet)] := by
  obtain ⟨hshut, reason, t, hdial⟩ | ⟨d, stream, hhead, hanswer, hdial⟩ := dial_spec target now u
  · left
    refine ⟨hshut, reason, t, _, hdial, h, ?_⟩
    simp [outlets, attempts, h]
  · right
    refine ⟨d, stream, _, hhead, hanswer, hdial, rfl, ?_⟩
    simp [outlets, attempts, h]

/-- A connection that a request may use: it is held, there is nothing in its buffer, and either it
was held before or it has just been opened. -/
theorem connect_ok {target : Address} {now t : Nat} {u u' : Uplink} {c : Connection}
    (h : u.connect target now = (.ok c, t, u')) :
    u'.held = some c ∧ c.reader.buffer = [] ∧
      ((∃ c₀, u.held = some c₀ ∧ c.reader.capacity = c₀.reader.capacity ∧
          u'.outlets = u.outlets) ∨
        c.authority = target.authority ∧ 0 < c.reader.capacity ∧
          u'.outlets = u.outlets ++ [(c.authority, some c.reader.stream.outlet)]) := by
  unfold connect at h
  dsimp only at h
  obtain ⟨hheld, houtlets⟩ | ⟨c₀, hheld, hlate, hrefresh⟩ := refresh_cases now u
  · rw [hheld] at h
    obtain ⟨-, reason, t, u', hdial, -⟩ | ⟨d, stream, u', -, -, hdial, hheld', houtlets'⟩ :=
      dial_cases target now hheld
    · simp [hdial] at h
    · simp only [hdial] at h
      obtain ⟨rfl, rfl, rfl⟩ : _ ∧ _ ∧ _ := by simpa using h
      exact ⟨hheld', rfl, .inr ⟨rfl, by simp, houtlets ▸ houtlets'⟩⟩
  · rw [hrefresh] at h
    obtain ⟨rfl, rfl, rfl⟩ : _ ∧ _ ∧ _ := by simpa using h
    refine ⟨rfl, Reader.buffer_fill_of_late hlate, .inl ⟨c₀, hheld, by simp, ?_⟩⟩
    rw [outlets_of_held hheld, outlets_of_held rfl]
    simp

/-- The stream of a connection that a request may use was among the others, or is new. -/
theorem outlets_of_connect {target : Address} {now t : Nat} {u u' : Uplink} {c : Connection}
    {others : List (String × Option Stream)} (h : u.connect target now = (.ok c, t, u'))
    (h' : u'.outlets = others ++ [(c.authority, some c.reader.stream.outlet)]) :
    u.outlets = others ∨
      u.outlets = others ++ [(c.authority, some c.reader.stream.outlet)] := by
  obtain ⟨-, -, ⟨_, -, -, hsame⟩ | ⟨-, -, hnew⟩⟩ := connect_ok h
  · exact .inr (hsame.symm.trans h')
  · exact .inl (List.append_cancel_right (hnew.symm.trans h'))

/-- A refused connection leaves none behind. -/
theorem connect_error {target : Address} {now t : Nat} {u u' : Uplink} {fault : Fault}
    (h : u.connect target now = (.error fault, t, u')) :
    (∃ reason, fault = .connect target.authority reason) ∧ u'.held = none ∧
      u'.outlets = u.outlets ++ [(target.authority, none)] := by
  unfold connect at h
  dsimp only at h
  obtain ⟨hheld, houtlets⟩ | ⟨c₀, -, -, hrefresh⟩ := refresh_cases now u
  · rw [hheld] at h
    obtain ⟨-, reason, t, u', hdial, hheld', houtlets'⟩ | ⟨d, stream, u', -, -, hdial, -⟩ :=
      dial_cases target now hheld
    · simp only [hdial] at h
      obtain ⟨rfl, rfl, rfl⟩ : _ ∧ _ ∧ _ := by simpa using h
      exact ⟨⟨reason, rfl⟩, hheld', houtlets ▸ houtlets'⟩
    · simp [hdial] at h
  · simp [hrefresh] at h

end Uplink

end Upload

end FieldCamera
