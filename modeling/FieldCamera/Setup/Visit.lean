import FieldCamera.Link.Stream
import FieldCamera.Request.Receiver
import FieldCamera.Settings
import FieldCamera.Setup.Portal
/-!
# The visit of one client

A visit is one request and one answer. A client that falls silent for too long, leaves early or
takes too long over its request gets no answer at all; one whose request breaks a bound is shown
the page.
-/

namespace FieldCamera.Setup

open Link

structure Patience where
  /-- The longest silence while a request is incomplete, and the longest time for an answer. -/
  idleMs : Nat := 5000
  /-- The longest time for a whole request. -/
  requestMs : Nat := 15000
  limits : Request.Limits := {}
  deriving DecidableEq, Repr

def Patience.ofSettings (s : Settings.Portal) : Patience :=
  ⟨s.readIdleMs, s.requestTimeoutMs, s.limits⟩

/-- The bytes that one read of a request asks for. -/
def requestBlock : Nat := 512

/-- What the reading of a request led to, if to anything: the request, or the bound it broke. -/
structure Heard where
  request : Option (Except Request.Fault Request)
  now : Nat
  stream : Stream

/-- Reads until the request is complete, breaks a bound, or is given up. -/
def hear (patience : Patience) (deadline : Nat) (r : Request.Receiver) (now : Nat) (s : Stream) :
    Heard :=
  let t := s.read requestBlock (min deadline (now + patience.idleMs)) now
  match _h : t.outcome with
  | .late | .failed _ => ⟨none, t.now, t.state⟩
  | .done bytes =>
    if _hb : bytes = [] then ⟨none, t.now, t.state⟩
    else
      let fed := r.feed patience.limits bytes
      match fed.fault with
      | some fault => ⟨some (.error fault), t.now, t.state⟩
      | none =>
        if fed.receiver.isComplete then ⟨some fed.receiver.finish, t.now, t.state⟩
        else hear patience deadline fed.receiver t.now t.state
termination_by s.pending
decreasing_by
  have := Stream.pending_read_add _h
  have := List.length_pos_iff.2 _hb
  omega

/-- Writes all of `data` before a deadline, if the client takes it. -/
def say (data : List UInt8) (deadline now : Nat) (s : Stream) : Timed Unit Stream :=
  if _h : data = [] then ⟨.done (), now, s⟩
  else
    let t := s.write data deadline now
    match t.outcome with
    | .late => ⟨.late, t.now, t.state⟩
    | .failed reason => ⟨.failed reason, t.now, t.state⟩
    | .done 0 => ⟨.failed "failed to write whole buffer", t.now, t.state⟩
    | .done (n + 1) => say (data.drop (n + 1)) deadline t.now t.state
termination_by data.length
decreasing_by
  have := List.length_pos_iff.2 _h
  rw [List.length_drop]
  omega

/-- What is left after a visit. -/
structure Visit (σ : Type) where
  answer : Option Answer
  portal : Portal σ
  now : Nat
  stream : Stream

/-- Whether the portal has done its work. -/
def Visit.stops {σ : Type} (v : Visit σ) : Bool :=
  v.answer.any (·.stop)

/-- Sends an answer; only a complete one is followed by the end of the stream. -/
def deliver (patience : Patience) (a : Answer) (now : Nat) (s : Stream) : Nat × Stream :=
  let t := say (response a.page) (now + patience.idleMs) now s
  match t.outcome with
  | .done () => (t.now, { t.state with shut := true })
  | _ => (t.now, t.state)

/-- The answer to what was heard. -/
def Portal.reply {σ : Type} [Store σ] (p : Portal σ) :
    Except Request.Fault Request → Answer × Portal σ
  | .ok request => p.answer request
  | .error _ => (p.present .invalid, p)

/-- Receives one client. -/
def Portal.receive {σ : Type} [Store σ] (p : Portal σ) (patience : Patience) (now : Nat)
    (s : Stream) : Visit σ :=
  let h := hear patience (now + patience.requestMs) .start now s
  match h.request with
  | none => ⟨none, p, h.now, h.stream⟩
  | some request =>
    let (answer, p) := p.reply request
    let (now, stream) := deliver patience answer h.now h.stream
    ⟨some answer, p, now, stream⟩

end FieldCamera.Setup
